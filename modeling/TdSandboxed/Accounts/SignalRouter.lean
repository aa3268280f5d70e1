/-
TdSandboxed.Accounts.SignalRouter — which accounts a symbol goes to
(`accounts/signal_router.py`).

The router keeps Python sets of account ids, and a route is the list of the
union of two of them. Python leaves the order of that list open, so sets
are a parameter (`PySets`): what is known of the elements is a law, and
nothing is known of the order. `str.upper` is a parameter as well.

`_build_symbol_mapping` and `rebuild_mapping` run the loop of `add_account`
over the accounts of the manager. `get_routing_stats` reads the same two
maps and is left out.
-/
import Mathlib.Data.List.Sort
import Mathlib.Logic.Function.Basic
import TdSandboxed.Lib.Run

namespace TdSandboxed

open Lib

/-- Python's `set[str]`, with the order of `list` left open. -/
structure PySets (S : Type) where
  empty : S
  add : S → String → S
  discard : S → String → S
  union : S → S → S
  /-- `list(s)` -/
  items : S → List String
  nodup_items : ∀ s, (items s).Nodup
  not_mem_empty : ∀ x, x ∉ items empty
  mem_add : ∀ s x y, y ∈ items (add s x) ↔ y ∈ items s ∨ y = x
  mem_discard : ∀ s x y, y ∈ items (discard s x) ↔ y ∈ items s ∧ y ≠ x
  mem_union : ∀ s t y, y ∈ items (union s t) ↔ y ∈ items s ∨ y ∈ items t

/-! ## Accounts -/

/-- The status in the configuration. -/
inductive ConfiguredStatus
  | active
  | paused
  | stopped
  deriving DecidableEq

structure SignalFilter where
  symbols : List String := []
  deriving DecidableEq

/-- The fields of an account that the router reads. -/
structure RoutedAccount where
  id : String
  status : ConfiguredStatus := .active
  signalFilter : Option SignalFilter := none
  deriving DecidableEq

/-- `signal_filter.symbols if signal_filter else []` -/
def RoutedAccount.symbols (account : RoutedAccount) : List String :=
  match account.signalFilter with
  | some filter => filter.symbols
  | none => []

/-! ## The router -/

structure SignalRouter (S : Type) where
  /-- Symbols in upper case. -/
  symbolMap : String → Option S
  wildcardAccounts : S

namespace SignalRouter

variable {S : Type} (L : PySets S) (upper : String → String)

def empty : SignalRouter S := { symbolMap := fun _ => none, wildcardAccounts := L.empty }

/-- One symbol of the filter of an account. -/
def addSymbol (accountId : String) (symbolMap : String → Option S) (symbol : String) :
    String → Option S :=
  let accounts := (symbolMap (upper symbol)).getD L.empty
  Function.update symbolMap (upper symbol) (some (L.add accounts accountId))

def addAccount (r : SignalRouter S) (account : RoutedAccount) : SignalRouter S :=
  if account.status ≠ .active then r
  else if account.symbols = [] then
    { r with wildcardAccounts := L.add r.wildcardAccounts account.id }
  else
    { r with symbolMap := account.symbols.foldl (addSymbol L upper account.id) r.symbolMap }

/-- The accounts of a symbol without one of them; nothing for no account. -/
def dropAccount (accountId : String) (accounts : S) : Option S :=
  let rest := L.discard accounts accountId
  if L.items rest = [] then none else some rest

def removeAccount (r : SignalRouter S) (accountId : String) : SignalRouter S :=
  { symbolMap := fun symbol => (r.symbolMap symbol).bind (dropAccount L accountId)
    wildcardAccounts := L.discard r.wildcardAccounts accountId }

def rebuildMapping (accounts : List RoutedAccount) : SignalRouter S :=
  accounts.foldl (addAccount L upper) (empty L)

/-- The accounts that filter for a symbol. -/
def specificAccounts (r : SignalRouter S) (symbol : String) : S :=
  (r.symbolMap symbol).getD L.empty

def routeSymbol (r : SignalRouter S) (symbol : String) : List String :=
  L.items (L.union (specificAccounts L r (upper symbol)) r.wildcardAccounts)

end SignalRouter

/-! ## Runs -/

inductive RouterCall
  | addAccount (account : RoutedAccount)
  | removeAccount (accountId : String)

/-- A router and the accounts that are present. -/
structure RoutedAccounts (S : Type) where
  router : SignalRouter S
  accounts : List RoutedAccount

namespace RoutedAccounts

variable {S : Type} (L : PySets S) (upper : String → String)

/-- A router that is built for a configuration. -/
def init (config : List RoutedAccount) : RoutedAccounts S :=
  { router := SignalRouter.rebuildMapping L upper config, accounts := config }

/-- Only an account with a new id is added. -/
def step (s : RoutedAccounts S) : RouterCall → Option (RoutedAccounts S)
  | .addAccount account =>
    if account.id ∈ s.accounts.map (·.id) then none
    else some {
      router := s.router.addAccount L upper account
      accounts := s.accounts ++ [account] }
  | .removeAccount accountId => some {
      router := s.router.removeAccount L accountId
      accounts := s.accounts.filter (·.id ≠ accountId) }

end RoutedAccounts

/-- The account is to receive what comes for a symbol. -/
def RoutedAccount.Receives (upper : String → String) (account : RoutedAccount) (symbol : String) :
    Prop :=
  account.status = .active ∧
    (account.symbols = [] ∨ upper symbol ∈ account.symbols.map upper)

/-! ## What the two maps hold -/

namespace SignalRouter

variable {S : Type} {L : PySets S} {upper : String → String} {r : SignalRouter S}
  {accounts : List RoutedAccount} {account : RoutedAccount} {symbol accountId : String}

/-- The maps hold the active accounts, each where it belongs, and no entry
is left empty. -/
structure Tracks (L : PySets S) (upper : String → String) (r : SignalRouter S)
    (accounts : List RoutedAccount) : Prop where
  wildcard : ∀ x, x ∈ L.items r.wildcardAccounts ↔
    ∃ a ∈ accounts, a.id = x ∧ a.status = .active ∧ a.symbols = []
  specific : ∀ symbol x, x ∈ L.items (specificAccounts L r symbol) ↔
    ∃ a ∈ accounts, a.id = x ∧ a.status = .active ∧ symbol ∈ a.symbols.map upper
  nonempty : ∀ symbol s, r.symbolMap symbol = some s → L.items s ≠ []

theorem tracks_empty (L : PySets S) (upper : String → String) : Tracks L upper (empty L) [] where
  wildcard := fun x => by simp [empty, L.not_mem_empty]
  specific := fun symbol x => by simp [specificAccounts, empty, L.not_mem_empty]
  nonempty := nofun

theorem mem_addSymbol (m : String → Option S) (name x : String) :
    x ∈ L.items ((addSymbol L upper accountId m name symbol).getD L.empty) ↔
      x ∈ L.items ((m symbol).getD L.empty) ∨ x = accountId ∧ symbol = upper name := by
  unfold addSymbol
  by_cases h : symbol = upper name
  · subst h
    simp [L.mem_add]
  · simp [h]

/-- The loop over the symbols of an account enters it under each. -/
theorem mem_foldl_addSymbol (names : List String) (m : String → Option S) (x : String) :
    x ∈ L.items ((names.foldl (addSymbol L upper accountId) m symbol).getD L.empty) ↔
      x ∈ L.items ((m symbol).getD L.empty) ∨ x = accountId ∧ symbol ∈ names.map upper := by
  induction names generalizing m with
  | nil => simp
  | cons name names ih =>
    rw [List.foldl_cons, ih, mem_addSymbol, List.map_cons, List.mem_cons, or_assoc, ← and_or_left]

theorem foldl_addSymbol_nonempty (names : List String) (m : String → Option S)
    (hm : ∀ symbol s, m symbol = some s → L.items s ≠ []) :
    ∀ symbol s, names.foldl (addSymbol L upper accountId) m symbol = some s → L.items s ≠ [] := by
  induction names generalizing m with
  | nil => exact hm
  | cons name names ih =>
    refine ih _ fun symbol s hs => ?_
    by_cases h : symbol = upper name
    · subst h
      obtain rfl : L.add _ accountId = s := by simpa [addSymbol] using hs
      exact List.ne_nil_of_mem ((L.mem_add _ _ accountId).mpr (.inr rfl))
    · exact hm symbol s (by simpa [addSymbol, h] using hs)

theorem Tracks.addAccount (h : Tracks L upper r accounts) (account : RoutedAccount) :
    Tracks L upper (r.addAccount L upper account) (accounts ++ [account]) := by
  have hmore (p : RoutedAccount → Prop) (x : String) :
      (∃ a ∈ accounts ++ [account], a.id = x ∧ p a) ↔
        (∃ a ∈ accounts, a.id = x ∧ p a) ∨ x = account.id ∧ p account := by
    simp [or_and_right, exists_or, @eq_comm _ x]
  unfold SignalRouter.addAccount
  by_cases hactive : account.status = .active
  · rw [if_neg (not_not.mpr hactive)]
    by_cases hall : account.symbols = []
    · rw [if_pos hall]
      refine ⟨fun x => ?_, fun symbol x => ?_, h.nonempty⟩
      · rw [hmore, ← h.wildcard, L.mem_add]
        simp [hactive, hall]
      · rw [hmore, ← h.specific]
        simp [specificAccounts, hall]
    · rw [if_neg hall]
      refine ⟨fun x => ?_, fun symbol x => ?_, foldl_addSymbol_nonempty _ _ h.nonempty⟩
      · rw [hmore, ← h.wildcard]
        simp [hall]
      · rw [hmore, ← h.specific]
        simp only [specificAccounts, mem_foldl_addSymbol, hactive, true_and]
  · rw [if_pos hactive]
    refine ⟨fun x => ?_, fun symbol x => ?_, h.nonempty⟩
    · rw [hmore, ← h.wildcard]
      simp [hactive]
    · rw [hmore, ← h.specific]
      simp [hactive]

/-- A router that is built tracks the accounts it is built from. -/
theorem tracks_rebuildMapping (L : PySets S) (upper : String → String)
    (accounts : List RoutedAccount) :
    Tracks L upper (rebuildMapping L upper accounts) accounts := by
  induction accounts using List.reverseRecOn with
  | nil => exact tracks_empty L upper
  | append_singleton accounts account ih =>
    unfold rebuildMapping
    rw [List.foldl_append]
    exact ih.addAccount account

theorem mem_dropAccount (m : Option S) (x : String) :
    x ∈ L.items ((m.bind (dropAccount L accountId)).getD L.empty) ↔
      x ∈ L.items (m.getD L.empty) ∧ x ≠ accountId := by
  cases m with
  | none => simp [L.not_mem_empty]
  | some s =>
    have hrest := L.mem_discard s accountId x
    simp only [Option.bind_some, dropAccount, Option.getD_some]
    split
    · rename_i hnone
      rw [← hrest, hnone]
      simp [L.not_mem_empty]
    · exact hrest

theorem Tracks.removeAccount (h : Tracks L upper r accounts) (accountId : String) :
    Tracks L upper (r.removeAccount L accountId) (accounts.filter (·.id ≠ accountId)) := by
  have hkept (p : RoutedAccount → Prop) (x : String) :
      (∃ a ∈ accounts.filter (·.id ≠ accountId), a.id = x ∧ p a) ↔
        (∃ a ∈ accounts, a.id = x ∧ p a) ∧ x ≠ accountId := by
    constructor
    · rintro ⟨a, ha, rfl, hp⟩
      obtain ⟨hmem, hne⟩ := List.mem_filter.mp ha
      exact ⟨⟨a, hmem, rfl, hp⟩, by simpa using hne⟩
    · rintro ⟨⟨a, hmem, rfl, hp⟩, hne⟩
      exact ⟨a, List.mem_filter.mpr ⟨hmem, by simpa using hne⟩, rfl, hp⟩
  refine ⟨fun x => ?_, fun symbol x => ?_, fun symbol s hs => ?_⟩
  · rw [hkept, ← h.wildcard]
    exact L.mem_discard ..
  · rw [hkept, ← h.specific]
    exact mem_dropAccount ..
  · obtain ⟨t, -, ht⟩ := Option.bind_eq_some_iff.mp hs
    simp only [dropAccount, Option.ite_none_left_eq_some, Option.some.injEq] at ht
    obtain ⟨hne, rfl⟩ := ht
    exact hne

/-! ## Routes -/

/-- **A route goes to the accounts that are to receive the symbol.** -/
theorem Tracks.mem_routeSymbol (h : Tracks L upper r accounts) (symbol x : String) :
    x ∈ routeSymbol L upper r symbol ↔ ∃ a ∈ accounts, a.id = x ∧ a.Receives upper symbol := by
  unfold routeSymbol
  rw [L.mem_union, h.specific, h.wildcard]
  constructor
  · rintro (⟨a, ha, hid, hactive, hmem⟩ | ⟨a, ha, hid, hactive, hall⟩)
    · exact ⟨a, ha, hid, hactive, .inr hmem⟩
    · exact ⟨a, ha, hid, hactive, .inl hall⟩
  · rintro ⟨a, ha, hid, hactive, hall | hmem⟩
    · exact .inr ⟨a, ha, hid, hactive, hall⟩
    · exact .inl ⟨a, ha, hid, hactive, hmem⟩

/-- The symbols that are in the map. -/
theorem Tracks.isSome_iff (h : Tracks L upper r accounts) (symbol : String) :
    (r.symbolMap symbol).isSome ↔
      ∃ a ∈ accounts, a.status = .active ∧ symbol ∈ a.symbols.map upper := by
  have hspecific := h.specific symbol
  constructor
  · intro hsome
    obtain ⟨s, hs⟩ := Option.isSome_iff_exists.mp hsome
    obtain ⟨x, hx⟩ := List.exists_mem_of_ne_nil _ (h.nonempty symbol s hs)
    have hmem : x ∈ L.items (specificAccounts L r symbol) := by
      simpa [specificAccounts, hs] using hx
    obtain ⟨a, ha, -, hreceives⟩ := (hspecific x).mp hmem
    exact ⟨a, ha, hreceives⟩
  · rintro ⟨a, ha, hreceives⟩
    have hmem := (hspecific a.id).mpr ⟨a, ha, rfl, hreceives⟩
    by_contra hnone
    rw [specificAccounts, Option.not_isSome_iff_eq_none.mp hnone] at hmem
    exact L.not_mem_empty _ hmem

end SignalRouter

namespace RoutedAccounts

variable {S : Type} {L : PySets S} {upper : String → String} {s t : RoutedAccounts S}
  {call : RouterCall}

theorem tracks_step (h : s.router.Tracks L upper s.accounts)
    (hstep : s.step L upper call = some t) : t.router.Tracks L upper t.accounts := by
  cases call with
  | addAccount account =>
    simp only [step, Option.ite_none_left_eq_some, Option.some.injEq] at hstep
    obtain ⟨-, rfl⟩ := hstep
    exact h.addAccount account
  | removeAccount accountId =>
    obtain rfl := Option.some.inj hstep
    exact h.removeAccount accountId

/-- **Adding and removing comes to the same as rebuilding**, but for the
order of a route: the same accounts, each once, whatever the order in which
they are rebuilt, and a symbol in the map exactly when it is in the rebuilt
one. -/
theorem route_perm_rebuilt (L : PySets S) (upper : String → String) (config : List RoutedAccount)
    (calls : List RouterCall) (s : RoutedAccounts S)
    (hrun : exec (step L upper) (init L upper config) calls = some s)
    (accounts : List RoutedAccount) (hperm : accounts.Perm s.accounts) (symbol : String) :
    let rebuilt := SignalRouter.rebuildMapping L upper accounts
    (s.router.routeSymbol L upper symbol).Nodup ∧
      (s.router.routeSymbol L upper symbol).Perm (rebuilt.routeSymbol L upper symbol) ∧
      (∀ x, x ∈ s.router.routeSymbol L upper symbol ↔
        ∃ a ∈ s.accounts, a.id = x ∧ a.Receives upper symbol) ∧
      ((s.router.symbolMap symbol).isSome ↔ (rebuilt.symbolMap symbol).isSome) := by
  have htracks : s.router.Tracks L upper s.accounts :=
    (Run.of_exec hrun).invariant_state (fun s => s.router.Tracks L upper s.accounts)
      (SignalRouter.tracks_rebuildMapping L upper config) fun _ _ _ h _ hstep =>
        tracks_step h hstep
  have hrebuilt := SignalRouter.tracks_rebuildMapping L upper accounts
  refine ⟨L.nodup_items _, ?_, htracks.mem_routeSymbol symbol, ?_⟩
  · refine (List.perm_ext_iff_of_nodup (L.nodup_items _) (L.nodup_items _)).mpr fun x => ?_
    have h := htracks.mem_routeSymbol symbol x
    have h' := hrebuilt.mem_routeSymbol symbol x
    simp only [SignalRouter.routeSymbol] at h h'
    rw [h, h']
    simp only [hperm.mem_iff]
  · rw [htracks.isSome_iff, hrebuilt.isSome_iff]
    simp only [hperm.mem_iff]

end RoutedAccounts

/-! ## A hash table -/

/-- A set in the order of its buckets. The table grows with what is added
and never shrinks; keys of one bucket stand in the order they came in. -/
structure BucketSet (hash : String → ℕ) where
  size : ℕ := 8
  keys : List String := []
  nodup : keys.Nodup := by simp

namespace BucketSet

variable {hash : String → ℕ}

/-- The keys in the order of a table. -/
def arrange (hash : String → ℕ) (size : ℕ) (keys : List String) : List String :=
  keys.insertionSort fun x y => hash x % size ≤ hash y % size

theorem perm_arrange (size : ℕ) (keys : List String) : (arrange hash size keys).Perm keys :=
  List.perm_insertionSort _ _

/-- The table for `n` keys: the first power of two above `4 * n`. -/
def tableSize (n : ℕ) : ℕ := 2 ^ (Nat.log2 (4 * n) + 1)

theorem nodup_arrange_append {s : BucketSet hash} {x : String} (h : x ∉ s.keys) :
    (arrange hash s.size (s.keys ++ [x])).Nodup :=
  (perm_arrange _ _).nodup_iff.mpr (s.nodup.append (List.nodup_singleton x) (by simpa using h))

def add (s : BucketSet hash) (x : String) : BucketSet hash :=
  if h : x ∈ s.keys then s
  else
    let keys := arrange hash s.size (s.keys ++ [x])
    if 5 * keys.length < 3 * (s.size - 1) then
      { size := s.size, keys, nodup := nodup_arrange_append h }
    else
      { size := tableSize keys.length
        keys := arrange hash (tableSize keys.length) keys
        nodup := (perm_arrange _ _).nodup_iff.mpr (nodup_arrange_append h) }

def discard (s : BucketSet hash) (x : String) : BucketSet hash :=
  { s with keys := s.keys.filter (· ≠ x), nodup := s.nodup.filter _ }

theorem mem_add (s : BucketSet hash) (x y : String) :
    y ∈ (s.add x).keys ↔ y ∈ s.keys ∨ y = x := by
  unfold add
  split
  · rename_i h
    exact ⟨.inl, fun hor => hor.elim id fun heq => heq ▸ h⟩
  · dsimp only
    split
    · simp [(perm_arrange _ _).mem_iff]
    · simp [(perm_arrange _ _).mem_iff]

theorem mem_foldl_add (keys : List String) (s : BucketSet hash) (y : String) :
    y ∈ (keys.foldl add s).keys ↔ y ∈ s.keys ∨ y ∈ keys := by
  induction keys generalizing s with
  | nil => simp
  | cons x keys ih => rw [List.foldl_cons, ih, mem_add, List.mem_cons, or_assoc]

end BucketSet

/-- Sets that are hash tables. -/
def bucketSets (hash : String → ℕ) : PySets (BucketSet hash) where
  empty := {}
  add := BucketSet.add
  discard := BucketSet.discard
  union s t := (s.keys ++ t.keys).foldl BucketSet.add {}
  items := BucketSet.keys
  nodup_items := BucketSet.nodup
  not_mem_empty := by simp
  mem_add := BucketSet.mem_add
  mem_discard := by simp [BucketSet.discard]
  mem_union := by simp [BucketSet.mem_foldl_add]

namespace RoutedAccounts

/-- The buckets of "a" and "b" are 1 in a table of 8, and 9 and 1 in one of 32. -/
def tableHash (x : String) : ℕ :=
  if x = "a" then 9 else if x = "b" then 1 else if x = "c" then 2 else if x = "d" then 3 else 4

/-- Three accounts come and go. -/
def comeAndGo : List RouterCall :=
  [.addAccount { id := "c" }, .addAccount { id := "d" }, .addAccount { id := "e" },
    .removeAccount "c", .removeAccount "d", .removeAccount "e"]

theorem comeAndGo_perm :
    let sets := bucketSets tableHash
    let s := (exec (step sets String.toUpper) (init sets String.toUpper
      [{ id := "a" }, { id := "b" }]) comeAndGo).get (by decide +kernel)
    (s.router.routeSymbol sets String.toUpper "XAUUSD").Perm
      ((SignalRouter.rebuildMapping sets String.toUpper s.accounts).routeSymbol sets
        String.toUpper "XAUUSD") :=
  (route_perm_rebuilt (bucketSets tableHash) String.toUpper [{ id := "a" }, { id := "b" }]
    comeAndGo _ (Option.some_get _).symm _ (List.Perm.refl _) "XAUUSD").2.1

/-- After that the table of the wildcard accounts has 32 buckets, and the
route lists "b" first; a router that is built anew lists "a" first. -/
theorem comeAndGo_order :
    let sets := bucketSets tableHash
    ∃ s, exec (step sets String.toUpper) (init sets String.toUpper
        [{ id := "a" }, { id := "b" }]) comeAndGo = some s ∧
      s.router.routeSymbol sets String.toUpper "XAUUSD" = ["b", "a"] ∧
      (SignalRouter.rebuildMapping sets String.toUpper s.accounts).routeSymbol sets
        String.toUpper "XAUUSD" = ["a", "b"] := by
  exact ⟨_, rfl, by decide +kernel, by decide +kernel⟩

end RoutedAccounts

end TdSandboxed
