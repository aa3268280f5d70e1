/-
TdSandboxed.TvApi.QuoteTheorems — the markets of a quote session
(`internal/session/quote.go`).

All markets share the session, and a quote finds its market by the key that
was sent when the symbol was added. Keys of different symbols are different
(`symbolKey_inj`), so each symbol is a machine of its own: `since` says what
it was sent, and `QuoteMarket.after` what a market makes of that.

An error depends on the packet alone (`Refused`), so a batch is taken up to
the first packet that is refused (`onPackets_eq`).
-/
import Mathlib
import TdSandboxed.Lib.Assoc
import TdSandboxed.TvApi.SessionFeed

namespace TdSandboxed.TvApi

open Lib WireCodec

variable {lib : GoLib} {qs : QuoteSession} {symbol : List Char}

/-! ## Packets -/

/-- `OnData` returns an error. -/
def Refused (p : Packet) : Bool :=
  if p.Is "qsd" then
    match QuoteSession.readQuote p with
    | .invalid _ | .failed _ _ => true
    | .ignored | .quote _ _ => false
  else decide (p.Is "symbol_error")

/-- The key and the data of a quote. -/
def quoteOf (p : Packet) : Option (List Char × List (List Char × GoValue)) :=
  if p.Is "qsd" then
    match QuoteSession.readQuote p with
    | .quote key data => some (key, data)
    | .invalid _ | .failed _ _ | .ignored => none
  else none

/-- The quotes of a batch that are taken. -/
def quotes (ps : List Packet) : List (List Char × List (List Char × GoValue)) :=
  (ps.takeWhile fun p => !Refused p).filterMap quoteOf

namespace QuoteSession

theorem onData_refused {p : Packet} (h : Refused p = true) :
    ∃ text, qs.onData lib p = .error text := by
  unfold Refused at h
  unfold onData
  by_cases hqsd : p.Is "qsd"
  · rw [if_pos hqsd] at h ⊢
    cases hread : readQuote p with
    | invalid text => exact ⟨text, rfl⟩
    | failed key text => exact ⟨s!"quote data error for {String.ofList key}: {text}", rfl⟩
    | ignored | quote =>
      rw [hread] at h
      cases h
  · rw [if_neg hqsd] at h ⊢
    rw [if_pos (of_decide_eq_true h)]
    exact ⟨_, rfl⟩

theorem onData_taken {p : Packet} (h : Refused p = false) :
    qs.onData lib p = .ok ((quoteOf p).elim qs fun q => qs.receive q.1 q.2) := by
  unfold Refused at h
  unfold onData quoteOf
  by_cases hqsd : p.Is "qsd"
  · rw [if_pos hqsd] at h
    rw [if_pos hqsd, if_pos hqsd]
    cases hread : readQuote p with
    | invalid | failed =>
      rw [hread] at h
      cases h
    | ignored | quote => rfl
  · rw [if_neg hqsd] at h
    rw [if_neg hqsd, if_neg hqsd, if_neg (of_decide_eq_false h)]
    rfl

/-- **One batch.** Up to the first packet that is refused. -/
theorem onPackets_eq (lib : GoLib) (qs : QuoteSession) (ps : List Packet) :
    qs.onPackets lib ps =
      ((quotes ps).foldl (fun qs q => qs.receive q.1 q.2) qs, !ps.any Refused) := by
  induction ps generalizing qs with
  | nil => rfl
  | cons p ps ih =>
    unfold onPackets
    cases hp : Refused p with
    | true =>
      obtain ⟨text, htext⟩ := @onData_refused lib qs p hp
      simp [htext, hp, quotes]
    | false =>
      rw [onData_taken hp]
      cases hquote : quoteOf p with
      | none => simp [ih, hp, hquote, quotes]
      | some q => simp [ih, hp, hquote, quotes]

end QuoteSession

/-! ## A symbol on its own -/

theorem symbolKey_inj {s t : List Char} : symbolKey s = symbolKey t ↔ s = t :=
  ⟨fun h => List.append_cancel_right (List.append_cancel_left h), congrArg symbolKey⟩

/-- The market of a symbol after the quotes for it. -/
def QuoteMarket.after (symbol : List Char) (ds : List (List (List Char × GoValue))) :
    QuoteMarket :=
  ds.foldl QuoteMarket.updateData { symbolKey := TvApi.symbolKey symbol }

namespace QuoteMarket

theorem after_concat (symbol : List Char) (ds : List (List (List Char × GoValue)))
    (d : List (List Char × GoValue)) :
    after symbol (ds ++ [d]) = (after symbol ds).updateData d := by
  simp [after]

theorem symbolKey_after (symbol : List Char) (ds : List (List (List Char × GoValue))) :
    (after symbol ds).symbolKey = TvApi.symbolKey symbol := by
  induction ds using List.reverseRecOn with
  | nil => rfl
  | append_singleton ds d ih =>
    rw [after_concat]
    exact ih

/-- The last value of each field. -/
theorem lastData_after (symbol : List Char) (ds : List (List (List Char × GoValue)))
    (field : List Char) :
    (after symbol ds).lastData.get? field =
      (ds.flatten.filter fun p => p.1 = field).getLast?.map Prod.snd := by
  have hfold : (after symbol ds).lastData =
      ds.flatten.foldl (fun d p => d.set p.1 p.2) .empty := by
    induction ds using List.reverseRecOn with
    | nil => rfl
    | append_singleton ds d ih =>
      rw [after_concat, List.flatten_append, List.foldl_append, ← ih, List.flatten_singleton]
      rfl
  rw [hfold, OrderedDict.get?_foldl_set]
  simp

/-- Each quote is heard once, with all fields so far. -/
theorem heard_after (symbol : List Char) (ds : List (List (List Char × GoValue))) :
    (after symbol ds).heard = ds.inits.tail.map fun pre => (after symbol pre).lastData := by
  induction ds using List.reverseRecOn with
  | nil => rfl
  | append_singleton ds d ih =>
    have hinits : (ds ++ [d]).inits.tail = ds.inits.tail ++ [ds ++ [d]] := by
      cases ds <;> simp [List.inits_append]
    rw [hinits, List.map_append, ← ih, List.map_singleton, after_concat]
    rfl

end QuoteMarket

/-! ## A session in use -/

inductive QuoteOp
  | addSymbol (symbol : List Char) (ok : Bool)
  | removeSymbol (symbol : List Char) (ok : Bool)
  | packets (ps : List Packet)

def QuoteSession.step (lib : GoLib) (qs : QuoteSession) : QuoteOp → QuoteSession
  | .addSymbol symbol ok => qs.addSymbol symbol ok
  | .removeSymbol symbol ok => qs.removeSymbol symbol ok
  | .packets ps => (qs.onPackets lib ps).1

/-- What a symbol was sent since it was added; `none` when it is not there. -/
def since (symbol : List Char) (ops : List QuoteOp) :
    Option (List (List (List Char × GoValue))) :=
  ops.foldl (fun seen op => match op with
    | .addSymbol s ok => if s = symbol ∧ ok = true then seen.or (some []) else seen
    | .removeSymbol s ok => if s = symbol ∧ ok = true then none else seen
    | .packets ps => seen.map fun ds =>
      ds ++ ((quotes ps).filter fun q => q.1 = symbolKey symbol).map Prod.snd) none

/-- The keys that the server streams; it was never asked twice for one, and
never to stop one that it does not stream. -/
def subscribe (keys : Finset (List Char)) : QuotePacket → Option (Finset (List Char))
  | .addSymbols key => if key ∈ keys then none else some (insert key keys)
  | .removeSymbols key => if key ∈ keys then some (keys.erase key) else none

namespace QuoteSession

/-- A session that has been through some operations. -/
structure Follows (ops : List QuoteOp) (qs : QuoteSession) : Prop where
  markets : ∀ symbol, qs.markets.get? symbol = (since symbol ops).map (QuoteMarket.after symbol)
  sent : qs.sent.foldlM subscribe ∅ = some (qs.markets.keys.toFinset.image symbolKey)

/-- Each market has the key of its symbol. -/
def Keyed (qs : QuoteSession) : Prop :=
  ∀ symbol market, qs.markets.get? symbol = some market → market.symbolKey = symbolKey symbol

/-! ## Quotes -/

/-- Whichever order the markets are looked at, there is one with a key. -/
theorem marketOf_eq_some (h : Keyed qs) {key : List Char} {market : QuoteMarket} :
    qs.marketOf key = some (symbol, market) ↔
      qs.markets.get? symbol = some market ∧ symbolKey symbol = key := by
  have hitem : ∀ p ∈ qs.markets.items, qs.markets.get? p.1 = some p.2 :=
    fun p hp => lookup_of_mem qs.markets.nodup hp
  unfold marketOf
  constructor
  · intro hfind
    have hmarket := hitem _ (List.mem_of_find?_eq_some hfind)
    have hkey : market.symbolKey = key := by simpa using List.find?_some hfind
    exact ⟨hmarket, (h _ _ hmarket).symm.trans hkey⟩
  · rintro ⟨hmarket, rfl⟩
    cases hfind : qs.markets.items.find? fun p => p.2.symbolKey = symbolKey symbol with
    | none =>
      have hmem : (symbol, market) ∈ qs.markets.items := mem_of_lookup hmarket
      have hnone := List.find?_eq_none.mp hfind _ hmem
      simp [h _ _ hmarket] at hnone
    | some p =>
      have hp := hitem p (List.mem_of_find?_eq_some hfind)
      have hkey : p.2.symbolKey = symbolKey symbol := by simpa using List.find?_some hfind
      rw [h _ _ hp] at hkey
      obtain ⟨s, m⟩ := p
      obtain rfl : s = symbol := symbolKey_inj.mp hkey
      obtain rfl : m = market := Option.some.inj (hp.symm.trans hmarket)
      rfl

theorem get?_receive (h : Keyed qs) (key : List Char) (data : List (List Char × GoValue))
    (symbol : List Char) :
    (qs.receive key data).markets.get? symbol = (qs.markets.get? symbol).map fun market =>
      if key = symbolKey symbol then market.updateData data else market := by
  unfold receive
  cases hof : qs.marketOf key with
  | none =>
    cases hmarket : qs.markets.get? symbol with
    | none => simp
    | some market =>
      have hne : key ≠ symbolKey symbol := by
        rintro rfl
        rw [(marketOf_eq_some h).mpr ⟨hmarket, rfl⟩] at hof
        cases hof
      simp [hne]
  | some p =>
    obtain ⟨s, market⟩ := p
    obtain ⟨hmarket, rfl⟩ := (marketOf_eq_some h).mp hof
    dsimp only
    rw [OrderedDict.get?_set]
    by_cases hs : symbol = s
    · subst hs
      simp [hmarket]
    · have hne : symbolKey s ≠ symbolKey symbol := fun hkey => hs (symbolKey_inj.mp hkey).symm
      simp [hs, hne]

theorem Keyed.receive (h : Keyed qs) (key : List Char) (data : List (List Char × GoValue)) :
    Keyed (qs.receive key data) := by
  intro symbol market hmarket
  rw [get?_receive h] at hmarket
  obtain ⟨old, hold, rfl⟩ := Option.map_eq_some_iff.mp hmarket
  have hkey := h _ _ hold
  split <;> exact hkey

theorem sent_receive (qs : QuoteSession) (key : List Char) (data : List (List Char × GoValue)) :
    (qs.receive key data).sent = qs.sent := by
  unfold QuoteSession.receive
  split <;> rfl

/-- **The quotes of a batch.** Each market takes those with its key. -/
theorem foldl_receive_eq (h : Keyed qs)
    (qts : List (List Char × List (List Char × GoValue))) :
    (∀ symbol, (qts.foldl (fun qs q => qs.receive q.1 q.2) qs).markets.get? symbol =
      (qs.markets.get? symbol).map fun market =>
        ((qts.filter fun q => q.1 = symbolKey symbol).map Prod.snd).foldl
          QuoteMarket.updateData market) ∧
      (qts.foldl (fun qs q => qs.receive q.1 q.2) qs).sent = qs.sent := by
  induction qts generalizing qs with
  | nil => simp
  | cons q qts ih =>
    obtain ⟨hmarkets, hsent⟩ := ih (h.receive q.1 q.2)
    refine ⟨fun symbol => ?_, hsent.trans (sent_receive qs q.1 q.2)⟩
    rw [List.foldl_cons, hmarkets, get?_receive h, Option.map_map]
    congr 1
    funext market
    by_cases hq : q.1 = symbolKey symbol <;> simp [hq]

/-! ## Runs -/

variable {ops : List QuoteOp}

theorem mem_keys_iff_get? (d : OrderedDict (List Char) QuoteMarket) (symbol : List Char) :
    symbol ∈ d.keys ↔ (d.get? symbol).isSome := by
  rw [OrderedDict.keys, mem_keys_iff, Option.isSome_iff_exists, OrderedDict.get?]

theorem Follows.keyed (h : Follows ops qs) : Keyed qs := by
  intro symbol market hmarket
  rw [h.markets] at hmarket
  obtain ⟨ds, -, rfl⟩ := Option.map_eq_some_iff.mp hmarket
  exact QuoteMarket.symbolKey_after symbol ds

theorem follows_nil : Follows [] {} := ⟨fun _ => rfl, rfl⟩

theorem since_concat (symbol : List Char) (ops : List QuoteOp) (op : QuoteOp) :
    since symbol (ops ++ [op]) = match op with
      | .addSymbol s ok => if s = symbol ∧ ok = true then (since symbol ops).or (some [])
        else since symbol ops
      | .removeSymbol s ok => if s = symbol ∧ ok = true then none else since symbol ops
      | .packets ps => (since symbol ops).map fun ds =>
        ds ++ ((quotes ps).filter fun q => q.1 = symbolKey symbol).map Prod.snd := by
  rw [since, List.foldl_append]
  rfl

theorem mem_image_symbolKey {keys : Finset (List Char)} :
    symbolKey symbol ∈ keys.image symbolKey ↔ symbol ∈ keys := by
  simp [symbolKey_inj]

theorem Follows.addSymbol (h : Follows ops qs) (symbol : List Char) (ok : Bool) :
    Follows (ops ++ [.addSymbol symbol ok]) (qs.addSymbol symbol ok) := by
  unfold QuoteSession.addSymbol
  by_cases hmem : symbol ∈ qs.markets.keys
  · rw [if_pos ((mem_keys_iff_get? _ _).mp hmem)]
    refine ⟨fun s => ?_, h.sent⟩
    rw [since_concat, h.markets]
    by_cases hs : symbol = s
    · subst hs
      rw [mem_keys_iff_get?, h.markets, Option.isSome_map, Option.isSome_iff_exists] at hmem
      obtain ⟨ds, hds⟩ := hmem
      simp [hds]
    · simp [hs]
  rw [if_neg (mt (mem_keys_iff_get? _ _).mpr hmem)]
  cases ok with
  | false => exact ⟨fun s => by simp [since_concat, h.markets], h.sent⟩
  | true =>
    refine ⟨fun s => ?_, ?_⟩
    · rw [if_pos rfl, since_concat, OrderedDict.get?_set, h.markets]
      by_cases hs : symbol = s
      · subst hs
        rw [mem_keys_iff_get?, h.markets, Option.isSome_map, Option.not_isSome_iff_eq_none] at hmem
        simp [hmem, QuoteMarket.after]
      · simp [hs, Ne.symm hs]
    · have hkeys : (qs.markets.set symbol { symbolKey := symbolKey symbol }).keys.toFinset =
          insert symbol qs.markets.keys.toFinset := by
        ext s
        simp [OrderedDict.mem_keys_set]
      have hnew : symbolKey symbol ∉ qs.markets.keys.toFinset.image symbolKey := by
        rwa [mem_image_symbolKey, List.mem_toFinset]
      rw [if_pos rfl, List.foldlM_append, h.sent, hkeys, Finset.image_insert]
      simp [subscribe, hnew]

theorem Follows.removeSymbol (h : Follows ops qs) (symbol : List Char) (ok : Bool) :
    Follows (ops ++ [.removeSymbol symbol ok]) (qs.removeSymbol symbol ok) := by
  unfold QuoteSession.removeSymbol
  cases hmarket : qs.markets.get? symbol with
  | none =>
    refine ⟨fun s => ?_, h.sent⟩
    rw [since_concat]
    by_cases hs : symbol = s
    · subst hs
      have hnone : since symbol ops = none := by simpa [h.markets] using hmarket
      simp [hmarket, hnone]
    · simp [hs, h.markets]
  | some market =>
    cases ok with
    | false => exact ⟨fun s => by simp [since_concat, h.markets], h.sent⟩
    | true =>
      have hkey := h.keyed _ _ hmarket
      refine ⟨fun s => ?_, ?_⟩
      · dsimp only
        rw [if_pos rfl, since_concat, OrderedDict.get?_filterKeys_ne, h.markets]
        by_cases hs : symbol = s
        · simp [hs]
        · simp [hs, Ne.symm hs]
      · have hkeys : (qs.markets.filterKeys fun s => s ≠ symbol).keys.toFinset =
            qs.markets.keys.toFinset.erase symbol := by
          ext s
          simp [OrderedDict.mem_keys_filterKeys, and_comm]
        have hold : symbolKey symbol ∈ qs.markets.keys.toFinset.image symbolKey := by
          rw [mem_image_symbolKey, List.mem_toFinset, mem_keys_iff_get?, hmarket,
            Option.isSome_some]
        dsimp only
        rw [if_pos rfl, List.foldlM_append, h.sent, hkeys, hkey,
          Finset.image_erase fun _ _ => symbolKey_inj.mp]
        simp [subscribe, hold]

theorem Follows.onPackets (h : Follows ops qs) (ps : List Packet) :
    Follows (ops ++ [.packets ps]) (qs.onPackets lib ps).1 := by
  obtain ⟨hmarkets, hsent⟩ := foldl_receive_eq h.keyed (quotes ps)
  rw [onPackets_eq]
  dsimp only
  refine ⟨fun symbol => ?_, ?_⟩
  · rw [hmarkets, since_concat, h.markets, Option.map_map, Option.map_map]
    simp [QuoteMarket.after, Function.comp_def]
  · have hkeys : ((quotes ps).foldl (fun qs q => qs.receive q.1 q.2) qs).markets.keys.toFinset =
        qs.markets.keys.toFinset := by
      ext symbol
      simp [mem_keys_iff_get?, hmarkets]
    rw [hsent, hkeys]
    exact h.sent

theorem follows_run (lib : GoLib) (ops : List QuoteOp) :
    Follows ops (ops.foldl (QuoteSession.step lib) {}) := by
  induction ops using List.reverseRecOn with
  | nil => exact follows_nil
  | append_singleton ops op ih =>
    rw [List.foldl_append, List.foldl_cons, List.foldl_nil]
    cases op with
    | addSymbol symbol ok => exact ih.addSymbol symbol ok
    | removeSymbol symbol ok => exact ih.removeSymbol symbol ok
    | packets ps => exact ih.onPackets ps

/-- **Each symbol is served on its own.** Whatever symbols come and go, with
sends that fail and batches that break off: a market has in each field the
last value that was sent for its symbol since it was added, its listeners
heard every quote once, and the subscriptions that were sent, none of them
twice, are those of the markets. -/
theorem markets_follow_quotes (lib : GoLib) (ops : List QuoteOp) :
    (∀ symbol, ((ops.foldl (QuoteSession.step lib) {}).markets.get? symbol).isSome ↔
      (since symbol ops).isSome) ∧
    (∀ symbol market, (ops.foldl (QuoteSession.step lib) {}).markets.get? symbol = some market →
      ∃ ds, since symbol ops = some ds ∧
        (∀ field, market.lastData.get? field =
          (ds.flatten.filter fun p => p.1 = field).getLast?.map Prod.snd) ∧
        market.heard = ds.inits.tail.map fun pre => (QuoteMarket.after symbol pre).lastData) ∧
    (ops.foldl (QuoteSession.step lib) {}).sent.foldlM subscribe ∅ = some
      ((ops.foldl (QuoteSession.step lib) {}).markets.keys.toFinset.image symbolKey) := by
  have h := follows_run lib ops
  refine ⟨fun symbol => ?_, fun symbol market hmarket => ?_, h.sent⟩
  · rw [h.markets, Option.isSome_map]
  · rw [h.markets] at hmarket
    obtain ⟨ds, hds, rfl⟩ := Option.map_eq_some_iff.mp hmarket
    exact ⟨ds, hds, QuoteMarket.lastData_after symbol ds, QuoteMarket.heard_after symbol ds⟩

end QuoteSession

end TdSandboxed.TvApi
