/-
TdSandboxed.TvApi.WireCodecTheorems — which packets survive the wire.

A message of several frames is read frame by frame (`parseWSPacket_encode`):
no marker reaches from one frame into the next. What is left is what one
payload comes back as (`readBack`), and that is the packet itself only if
no marker stands in it. If one does, the reader takes it for the
protocol's own and cuts the packet there. That nothing else in the message
can make up for the loss is a matter of weight: what is read weighs no more
than the text, and each cut takes weight away (`clear_of_readBack`).
-/
import TdSandboxed.Lib.JsonWeight
import TdSandboxed.TvApi.WireMarkers

namespace TdSandboxed.TvApi.WireCodec

open Lib

/-! ## What is sent -/

/-- A packet with a type, and data that `json.Unmarshal` could have made. -/
structure JsonPacket where
  packet : Packet
  type_ne_nil : packet.type ≠ []
  json : ∀ vs ∈ packet.data, GoValue.JsonItems vs

inductive WireItem
  | packet (p : JsonPacket)
  | ping (pingID : Int64)

namespace WireItem

def payload : WireItem → List Char
  | packet p => marshalPacket p.packet
  | ping pingID => itoa pingID.toInt

/-- The frame that the writer makes. -/
def encode : WireItem → List Char
  | packet p => formatWSPacket p.packet
  | ping pingID => formatPingPacket pingID.toInt

/-- The packet that the reader is to return for it. -/
def sent : WireItem → Packet
  | packet p => p.packet
  | ping pingID => pingPacket pingID.toInt

theorem encode_eq (i : WireItem) : i.encode = frame i.payload := by
  cases i <;> rfl

end WireItem

/-- A message made of one frame after the other. -/
def encode (items : List WireItem) : List Char := items.flatMap WireItem.encode

/-! ## Payloads -/

theorem marshalPacket_eq (p : Packet) : ∃ body, marshalPacket p = '{' :: (body ++ ['}']) := by
  unfold marshalPacket packetTree
  generalize (if p.type = [] then [] else [(['m'], JsonTree.string p.type)]) ++ _ = ms
  cases ms with
  | nil => exact ⟨[], rfl⟩
  | cons m ms =>
    obtain ⟨k, v⟩ := m
    refine ⟨goCompact.quote k ++ (':' :: (goCompact.value 1 v ++ goCompact.members 1 ms)), ?_⟩
    simp [Layout.value, Layout.newline, Layout.colon, goCompact]

theorem itoa_eq (n : ℤ) :
    ∃ c cs, itoa n = c :: cs ∧ (c = '-' ∨ c.isDigit) ∧ ∀ d ∈ cs, d.isDigit := by
  obtain ⟨c, cs, hcs⟩ := List.exists_cons_of_ne_nil (Nat.toDigits_ne_nil (n := n.natAbs) (b := 10))
  have hdigits : ∀ d ∈ c :: cs, d.isDigit := hcs ▸ isDigit_toDigits
  unfold itoa
  split
  · exact ⟨'-', _, rfl, .inl rfl, isDigit_toDigits⟩
  · exact ⟨c, cs, hcs, .inr (hdigits c (List.mem_cons_self ..)),
      fun d hd => hdigits d (List.mem_cons_of_mem _ hd)⟩

theorem tilde_not_mem_itoa (n : ℤ) : '~' ∉ itoa n := by
  obtain ⟨c, cs, hcs, hc, hdigits⟩ := itoa_eq n
  rw [hcs]
  intro hmem
  rcases List.mem_cons.mp hmem with rfl | hmem
  · exact absurd hc (by decide)
  · exact absurd (hdigits _ hmem) (by decide)

/-- No character of a number is in a heartbeat marker. -/
theorem not_mem_cleaner {c : Char} (hc : c = '-' ∨ c.isDigit ∨ c = '{' ∨ c = '}') :
    ∀ w ∈ cleanerWords, c ∉ w := by
  rintro w rfl hmem
  have hmarker : ∀ d ∈ ['~', 'h', '~'], ¬ (d = '-' ∨ d.isDigit ∨ d = '{' ∨ d = '}') :=
    forall_mem_of_all (by decide)
  exact hmarker c hmem hc

/-- A payload starts and ends with characters that no heartbeat has. -/
theorem payload_ends (i : WireItem) :
    (∃ c cs, i.payload = c :: cs ∧ ∀ w ∈ cleanerWords, c ∉ w) ∧
      ∃ body x, i.payload = body ++ [x] ∧ ∀ w ∈ cleanerWords, x ∉ w := by
  cases i with
  | packet p =>
    obtain ⟨body, hbody⟩ := marshalPacket_eq p.packet
    refine ⟨⟨'{', _, hbody, not_mem_cleaner (by decide)⟩, ⟨'{' :: body, '}', hbody, ?_⟩⟩
    exact not_mem_cleaner (by decide)
  | ping pingID =>
    obtain ⟨c, cs, hcs, hc, hdigits⟩ := itoa_eq pingID.toInt
    have hall : ∀ d ∈ c :: cs, d = '-' ∨ d.isDigit := by
      intro d hd
      rcases List.mem_cons.mp hd with rfl | hd
      · exact hc
      · exact .inr (hdigits d hd)
    have hclean : ∀ d ∈ c :: cs, ∀ w ∈ cleanerWords, d ∉ w := by
      intro d hd
      rcases hall d hd with h | h
      · exact not_mem_cleaner (.inl h)
      · exact not_mem_cleaner (.inr (.inl h))
    refine ⟨⟨c, cs, hcs, hclean c (List.mem_cons_self ..)⟩, ?_⟩
    refine ⟨(c :: cs).dropLast, (c :: cs).getLast (List.cons_ne_nil c cs), ?_, ?_⟩
    · rw [List.dropLast_concat_getLast]
      exact hcs
    · exact hclean _ (List.getLast_mem _)

/-! ## Frames apart -/

theorem clean_append_sep {x : Char} (hx : ∀ w ∈ cleanerWords, x ∉ w) (p q : List Char) :
    clean (p ++ x :: q) = clean p ++ x :: clean q := by
  unfold clean
  rw [pieces_append_sep recognizes_cleaner hx, flatten_joinPieces, flatten_consFirst]

theorem clean_of_clear {p : List Char} (h : Clear cleanerWords p) : clean p = p := by
  rw [clean, pieces_of_clear recognizes_cleaner h]
  exact List.append_nil p

theorem frameHead_mem (payload : List Char) : frameHead payload ∈ splitterWords :=
  ⟨_, Nat.toDigits_ne_nil, isDigit_toDigits, rfl⟩

/-- The head of a frame holds no heartbeat. -/
theorem clear_frameHead (payload : List Char) : Clear cleanerWords (frameHead payload) := by
  rintro w rfl hin
  have hh : 'h' ∈ frameHead payload := hin.subset (by decide)
  rcases List.mem_append.mp hh with hh | hh
  · exact absurd hh (by decide)
  · rcases List.mem_append.mp hh with hh | hh
    · exact absurd (isDigit_toDigits _ hh) (by decide)
    · exact absurd hh (by decide)

/-- **Cleaning a message cleans each payload.** -/
theorem clean_encode_cons (i : WireItem) (q : List Char) :
    clean (i.encode ++ q) = frameHead i.payload ++ (clean i.payload ++ clean q) := by
  obtain ⟨⟨c, cs, hhead, hc⟩, body, x, hlast, hx⟩ := payload_ends i
  have hrest : clean (i.payload ++ q) = clean i.payload ++ clean q := by
    have hpayload := clean_append_sep hx body []
    rw [hlast, List.append_assoc, List.singleton_append, clean_append_sep hx, hpayload]
    simp [clean, pieces_nil]
  rw [← hrest, WireItem.encode_eq, frame, List.append_assoc, hhead, List.cons_append,
    clean_append_sep hc, clean_of_clear (clear_frameHead _)]
  congr 1
  exact (clean_append_sep hc [] (cs ++ q)).symm

theorem clean_encode (items : List WireItem) :
    clean (encode items) = items.flatMap fun i => frameHead i.payload ++ clean i.payload := by
  induction items with
  | nil => rfl
  | cons i items ih =>
    have hencode : encode (i :: items) = i.encode ++ encode items := rfl
    rw [hencode, clean_encode_cons, ih, List.flatMap_cons, List.append_assoc]

/-- No frame's head starts within a payload and ends beyond it. -/
theorem closed_payload (i : WireItem) : Closed splitterMatch (clean i.payload) := by
  cases i with
  | packet p =>
    obtain ⟨body, hbody⟩ := marshalPacket_eq p.packet
    have hclean : clean (marshalPacket p.packet) = clean ('{' :: body) ++ ['}'] := by
      have hsep := clean_append_sep (not_mem_cleaner (c := '}') (by decide)) ('{' :: body) []
      rw [hbody]
      exact hsep
    show Closed splitterMatch (clean (marshalPacket p.packet))
    rw [hclean]
    apply closed_concat recognizes_splitter
    intro w hw hmem
    exact absurd (mem_splitterWord hw hmem) (by decide)
  | ping pingID =>
    have htilde := tilde_not_mem_itoa pingID.toInt
    show Closed splitterMatch (clean (itoa pingID.toInt))
    rw [clean_of_clear (markers_cleaner.clear_of_not_mem htilde)]
    apply closed_of_heads recognizes_splitter
    intro c hc w hw
    obtain ⟨w', rfl⟩ := markers_splitter.starts w hw
    refine ⟨'~', w', rfl, ?_⟩
    rintro rfl
    exact htilde hc

/-! ## Frame by frame -/

/-- What a payload comes back as. -/
def readBack (payload : List Char) : List Packet :=
  (pieces splitterMatch (clean payload)).filterMap parsePart

theorem parsePart_nil : parsePart [] = none := rfl

theorem pieces_frames (items : List WireItem) :
    pieces splitterMatch (items.flatMap fun i => frameHead i.payload ++ clean i.payload) =
      [] :: items.flatMap fun i => pieces splitterMatch (clean i.payload) := by
  induction items with
  | nil => rfl
  | cons i items ih =>
    have hne := pieces_ne_nil splitterMatch (clean i.payload)
    rw [List.flatMap_cons, List.append_assoc, pieces_append_word recognizes_splitter (frameHead_mem _),
      pieces_append recognizes_splitter (closed_payload i), ih, joinPieces_nil_cons hne,
      List.flatMap_cons]

theorem encode_ne_nil (i : WireItem) (items : List WireItem) : encode (i :: items) ≠ [] := by
  have hencode : encode (i :: items) = i.encode ++ encode items := rfl
  rw [hencode, i.encode_eq]
  exact List.cons_ne_nil _ _

/-- **A message comes back frame by frame.** -/
theorem parseWSPacket_encode (i : WireItem) (items : List WireItem) :
    parseWSPacket (encode (i :: items)) =
      .ok ((i :: items).flatMap fun i => readBack i.payload) := by
  rw [parseWSPacket, if_neg (encode_ne_nil i items), clean_encode, pieces_frames,
    List.filterMap_cons_none parsePart_nil, List.filterMap_flatMap]
  rfl

/-! ## Weights -/

def Packet.weight (p : Packet) : ℕ := (packetTree p).weight

def packetsWeight (ps : List Packet) : ℕ := (ps.map Packet.weight).sum

/-- The type and the data are what a packet weighs. -/
theorem Packet.weight_eq (p : Packet) :
    p.weight = stringWeight p.type + JsonTree.weightItems (GoValue.toTrees (p.data.getD [])) := by
  have hm : stringWeight ['m'] = 0 := by decide
  have hp : stringWeight ['p'] = 0 := by decide
  unfold Packet.weight packetTree
  split_ifs with htype hdata hdata <;>
    simp [htype, hdata, hm, hp, JsonTree.weight, JsonTree.weightMembers, JsonTree.weightItems,
      GoValue.toTrees]

theorem weight_decodeField {p q : Packet} {k : List Char} {v : JsonTree}
    (h : decodeField p k v = some q) : q.weight ≤ p.weight + v.weight := by
  unfold decodeField at h
  split_ifs at h
  · split at h
    · obtain rfl := Option.some.inj h
      omega
    · obtain rfl := Option.some.inj h
      rw [Packet.weight_eq, Packet.weight_eq, JsonTree.weight]
      dsimp only
      omega
    · cases h
  · split at h
    · obtain rfl := Option.some.inj h
      rw [Packet.weight_eq, Packet.weight_eq]
      exact Nat.le_add_right_of_le (Nat.add_le_add_left (Nat.zero_le _) _)
    · rename_i ts
      obtain ⟨vs, hvs, rfl⟩ := Option.map_eq_some_iff.mp h
      have hle := GoValue.weight_ofTrees ts vs hvs
      rw [Packet.weight_eq, Packet.weight_eq, JsonTree.weight, Option.getD_some]
      dsimp only
      omega
    · cases h
  · obtain rfl := Option.some.inj h
    omega

theorem weight_decodeFields {p q : Packet} {ms : List (List Char × JsonTree)}
    (h : decodeFields p ms = some q) : q.weight ≤ p.weight + JsonTree.weightMembers ms := by
  induction ms generalizing p with
  | nil =>
    obtain rfl := Option.some.inj h
    exact Nat.le_refl _
  | cons m ms ih =>
    obtain ⟨k, v⟩ := m
    obtain ⟨p', hp', h⟩ := Option.bind_eq_some_iff.mp h
    have hfield := weight_decodeField hp'
    have hrest := ih h
    rw [JsonTree.weightMembers]
    omega

theorem weight_decodePacket {t : JsonTree} {p : Packet} (h : decodePacket t = some p) :
    p.weight ≤ t.weight := by
  have hempty : Packet.weight { type := [], data := none } = 0 := rfl
  unfold decodePacket at h
  split at h
  · obtain rfl := Option.some.inj h
    rw [hempty]
    exact Nat.zero_le _
  · have hle := weight_decodeFields h
    rwa [hempty, Nat.zero_add] at hle
  · cases h

theorem weight_pingPacket (pingID : ℤ) : (pingPacket pingID).weight = 0 := by
  have hping : stringWeight ['p', 'i', 'n', 'g'] = 0 := by decide
  rw [Packet.weight_eq]
  exact Nat.add_eq_zero_iff.mpr ⟨hping, rfl⟩

/-- **A packet weighs no more than the part it was read from.** -/
theorem weight_parsePart {part : List Char} {p : Packet} (h : parsePart part = some p) :
    p.weight ≤ textWeight part := by
  have htrim := weigh_le_of_sublist charWeight (trimSpace_sublist part)
  unfold parsePart at h
  dsimp only at h
  split_ifs at h
  split at h
  · obtain rfl := Option.some.inj h
    rw [weight_pingPacket]
    exact Nat.zero_le _
  · obtain ⟨t, ht, hp⟩ := Option.bind_eq_some_iff.mp h
    exact (weight_decodePacket hp).trans ((weight_parse ht).trans htrim)

theorem packetsWeight_filterMap (parts : List (List Char)) :
    packetsWeight (parts.filterMap parsePart) ≤ textWeight parts.flatten := by
  induction parts with
  | nil => exact Nat.le_refl _
  | cons part parts ih =>
    rw [List.flatten_cons, textWeight_append]
    cases h : parsePart part with
    | none =>
      rw [List.filterMap_cons_none h]
      exact ih.trans (Nat.le_add_left _ _)
    | some p =>
      rw [List.filterMap_cons_some h]
      exact Nat.add_le_add (weight_parsePart h) ih

theorem packetsWeight_readBack_le (payload : List Char) :
    packetsWeight (readBack payload) ≤ textWeight payload :=
  (packetsWeight_filterMap _).trans
    ((weigh_pieces_le charWeight (clean payload)).trans (weigh_pieces_le charWeight payload))

/-- **A payload that holds a marker comes back lighter.** -/
theorem packetsWeight_readBack_lt {payload : List Char}
    (h : ¬ (Clear cleanerWords payload ∧ Clear splitterWords payload)) :
    packetsWeight (readBack payload) < textWeight payload := by
  have hparts := packetsWeight_filterMap (pieces splitterMatch (clean payload))
  have hsplit := weigh_pieces_le (m := splitterMatch) charWeight (clean payload)
  have hclean := weigh_pieces_le (m := cleanerMatch) charWeight payload
  by_cases hcleaner : Clear cleanerWords payload
  · have hsplitter : ¬ Clear splitterWords payload := fun hs => h ⟨hcleaner, hs⟩
    have hweight : ∀ w ∈ splitterWords, 0 < weigh charWeight w := by
      rintro w ⟨ds, -, -, rfl⟩
      have htilde : charWeight '~' = 1 := by decide
      rw [weigh_append, weigh_cons, htilde]
      omega
    have hlt := weigh_pieces_lt charWeight recognizes_splitter hweight hsplitter
    rw [readBack, clean_of_clear hcleaner] at *
    exact lt_of_le_of_lt hparts hlt
  · have hweight : ∀ w ∈ cleanerWords, 0 < weigh charWeight w := by
      rintro w rfl
      decide
    have hlt := weigh_pieces_lt charWeight recognizes_cleaner hweight hcleaner
    exact lt_of_le_of_lt (hparts.trans hsplit) hlt

theorem valid_packetTree (p : Packet) : ∀ n ∈ (packetTree p).numbers, n.Valid := by
  intro n hn
  unfold packetTree at hn
  split_ifs at hn
  · cases hn
  · exact GoValue.valid_toTrees _ n (by simpa [JsonTree.numbers, JsonTree.numbersMembers] using hn)
  · cases hn
  · exact GoValue.valid_toTrees _ n (by simpa [JsonTree.numbers, JsonTree.numbersMembers] using hn)

/-- What is sent weighs as much as its text. -/
theorem textWeight_payload (i : WireItem) : textWeight i.payload = i.sent.weight := by
  cases i with
  | packet p => exact textWeight_value 0 _ (valid_packetTree p.packet)
  | ping pingID =>
    show textWeight (itoa pingID.toInt) = (pingPacket pingID.toInt).weight
    obtain ⟨c, cs, hcs, hc, hdigits⟩ := itoa_eq pingID.toInt
    have hc : charWeight c = 0 := by
      rcases hc with rfl | hc
      · decide
      · exact charWeight_of_isDigit hc
    rw [weight_pingPacket, hcs, textWeight_cons, hc, textWeight_of_isDigit hdigits]

theorem packetsWeight_flatMap (f : WireItem → List Packet) (items : List WireItem) :
    packetsWeight (items.flatMap f) = (items.map fun i => packetsWeight (f i)).sum := by
  induction items with
  | nil => rfl
  | cons i items ih =>
    rw [List.map_cons, List.sum_cons, ← ih, List.flatMap_cons]
    simp [packetsWeight]

/-- **If the packets come back, no payload holds a marker.** -/
theorem clear_of_readBack {items : List WireItem}
    (h : (items.flatMap fun i => readBack i.payload) = items.map WireItem.sent) :
    ∀ i ∈ items, Clear cleanerWords i.payload ∧ Clear splitterWords i.payload := by
  by_contra hmarked
  obtain ⟨i, hi⟩ := not_forall.mp hmarked
  obtain ⟨hmem, hi⟩ := Classical.not_imp.mp hi
  have hlt := List.sum_lt_sum (fun i => packetsWeight (readBack i.payload))
    (fun i : WireItem => textWeight i.payload) (fun i _ => packetsWeight_readBack_le i.payload)
    ⟨i, hmem, packetsWeight_readBack_lt hi⟩
  have hsent : packetsWeight (items.map WireItem.sent) =
      (items.map fun i => textWeight i.payload).sum := by
    simp only [packetsWeight, List.map_map, textWeight_payload]
    rfl
  rw [← packetsWeight_flatMap, h, hsent] at hlt
  exact Nat.lt_irrefl _ hlt

/-! ## One payload -/

/-- Without markers a payload is one part. -/
theorem readBack_of_clear {payload : List Char} (hcleaner : Clear cleanerWords payload)
    (hsplitter : Clear splitterWords payload) : readBack payload = (parsePart payload).toList := by
  rw [readBack, clean_of_clear hcleaner, pieces_of_clear recognizes_splitter hsplitter]
  cases h : parsePart payload <;> simp [h]

theorem decodePacket_packetTree (p : JsonPacket) :
    decodePacket (packetTree p.packet) =
      some { p.packet with data := p.packet.data.filter fun vs => !vs.isEmpty } := by
  obtain ⟨⟨type, data⟩, htype, hjson⟩ := p
  dsimp only at htype hjson ⊢
  have hm : ∀ p v, decodeField p ['m'] (.string v) = some { p with type := v } := fun _ _ => rfl
  have hp : ∀ (q : Packet) vs, decodeField q ['p'] (.array vs) =
      (GoValue.ofTrees vs).map fun vs => { q with data := some vs } := fun _ _ => rfl
  match data with
  | none => simp [packetTree, htype, decodePacket, decodeFields, hm]
  | some [] => simp [packetTree, htype, decodePacket, decodeFields, hm, Option.filter]
  | some (v :: vs) =>
    have hvs := GoValue.ofTrees_toTrees (v :: vs) (hjson _ rfl)
    simp [packetTree, htype, decodePacket, decodeFields, hm, hp, hvs, Option.filter]

theorem parsePart_marshalPacket (p : JsonPacket) :
    parsePart (marshalPacket p.packet) =
      if (packetTree p.packet).depth ≤ maxNestingDepth then
        some { p.packet with data := p.packet.data.filter fun vs => !vs.isEmpty }
      else none := by
  obtain ⟨body, hbody⟩ := marshalPacket_eq p.packet
  have htrim : trimSpace (marshalPacket p.packet) = marshalPacket p.packet := by
    apply trimSpace_eq_self
    · intro c hc
      rw [hbody] at hc
      obtain rfl := Option.some.inj hc
      decide
    · intro c hc
      rw [hbody, ← List.cons_append, List.getLast?_concat] at hc
      obtain rfl := Option.some.inj hc
      decide
  have hatoi : atoi (marshalPacket p.packet) = none := by
    rw [hbody]
    simp [atoi]
  have hparse := Layout.parse_layout goCompact_escapes maxNestingDepth (packetTree p.packet)
    (valid_packetTree p.packet)
  have hne : marshalPacket p.packet ≠ [] := hbody ▸ List.cons_ne_nil _ _
  unfold parsePart
  dsimp only
  rw [htrim, if_neg hne, hatoi]
  dsimp only
  rw [marshalPacket, hparse]
  split
  · exact decodePacket_packetTree p
  · rfl

theorem atoi_toDigits {n : ℕ} (hn : (n : ℤ) < 2 ^ 63) : atoi (Nat.toDigits 10 n) = some (n : ℤ) := by
  have hall : (Nat.toDigits 10 n).all Char.isDigit := List.all_eq_true.mpr isDigit_toDigits
  have hsign : ∀ d : Char, d.isDigit = false → (Nat.toDigits 10 n).head? ≠ some d := by
    intro d hd hhead
    have hdigit : d.isDigit := isDigit_toDigits d (List.mem_of_mem_head? hhead)
    rw [hdigit] at hd
    cases hd
  unfold atoi
  dsimp only
  rw [if_neg (not_or.mpr ⟨hsign '-' rfl, hsign '+' rfl⟩), if_neg (hsign '-' rfl),
    Nat.ofDigitChars_ten_toDigits, if_pos ⟨Nat.toDigits_ne_nil, hall, by omega, hn⟩]

theorem atoi_neg_toDigits {n : ℕ} (hn : (n : ℤ) ≤ 2 ^ 63) :
    atoi ('-' :: Nat.toDigits 10 n) = some (-n : ℤ) := by
  have hall : (Nat.toDigits 10 n).all Char.isDigit := List.all_eq_true.mpr isDigit_toDigits
  simp only [atoi, List.head?_cons, List.tail_cons, true_or, if_true, Nat.ofDigitChars_ten_toDigits]
  rw [if_pos ⟨Nat.toDigits_ne_nil, hall, by omega, by omega⟩]

theorem atoi_itoa (pingID : Int64) : atoi (itoa pingID.toInt) = some pingID.toInt := by
  have hlow := pingID.le_toInt
  have hhigh := pingID.toInt_lt
  generalize pingID.toInt = n at hlow hhigh
  unfold itoa
  by_cases hneg : n < 0
  · have hvalue : -(n.natAbs : ℤ) = n := by omega
    rw [if_pos hneg, List.singleton_append, atoi_neg_toDigits (by omega), hvalue]
  · have hvalue : (n.natAbs : ℤ) = n := by omega
    rw [if_neg hneg, List.nil_append, atoi_toDigits (by omega), hvalue]

theorem isSpace_of_itoa {c : Char} (hc : c = '-' ∨ c.isDigit) : isSpace c = false := by
  rcases hc with rfl | hc
  · decide
  · have hlow : '0'.toNat ≤ c.toNat := (Bool.and_eq_true _ _ ▸ hc : _ ∧ _).1 |> of_decide_eq_true
    have hhigh : c.toNat ≤ '9'.toNat := (Bool.and_eq_true _ _ ▸ hc : _ ∧ _).2 |> of_decide_eq_true
    have h0 : '0'.toNat = 48 := rfl
    have h9 : '9'.toNat = 57 := rfl
    simp [isSpace]
    omega

/-- A ping always comes back. -/
theorem parsePart_itoa (pingID : Int64) :
    parsePart (itoa pingID.toInt) = some (pingPacket pingID.toInt) := by
  obtain ⟨c, cs, hcs, hc, hdigits⟩ := itoa_eq pingID.toInt
  have hchars : ∀ d ∈ itoa pingID.toInt, isSpace d = false := by
    intro d hd
    rw [hcs] at hd
    rcases List.mem_cons.mp hd with rfl | hd
    · exact isSpace_of_itoa hc
    · exact isSpace_of_itoa (.inr (hdigits d hd))
  have htrim : trimSpace (itoa pingID.toInt) = itoa pingID.toInt :=
    trimSpace_eq_self (fun d hd => hchars d (List.mem_of_mem_head? hd))
      (fun d hd => hchars d (List.mem_of_mem_getLast? hd))
  have hne : itoa pingID.toInt ≠ [] := hcs ▸ List.cons_ne_nil _ _
  unfold parsePart
  dsimp only
  rw [htrim, if_neg hne, atoi_itoa]

/-! ## The round trip -/

/-- What the wire leaves alone: no marker in a string, keys included; no
deeper nesting than the decoder takes; and no data that is empty but not
nil, which `omitempty` leaves out. -/
structure Packet.Transparent (p : Packet) : Prop where
  unmarked : ∀ s ∈ (packetTree p).strings, Clear cleanerWords s ∧ Clear splitterWords s
  shallow : (packetTree p).depth ≤ maxNestingDepth
  data : ∀ vs ∈ p.data, vs ≠ []

def WireItem.Transparent : WireItem → Prop
  | packet p => p.packet.Transparent
  | ping _ => True

theorem clear_marshalPacket_iff (p : Packet) :
    Clear cleanerWords (marshalPacket p) ∧ Clear splitterWords (marshalPacket p) ↔
      ∀ s ∈ (packetTree p).strings, Clear cleanerWords s ∧ Clear splitterWords s := by
  rw [marshalPacket, clear_value_iff markers_cleaner (valid_packetTree p),
    clear_value_iff markers_splitter (valid_packetTree p)]
  exact ⟨fun h s hs => ⟨h.1 s hs, h.2 s hs⟩, fun h => ⟨fun s hs => (h s hs).1, fun s hs => (h s hs).2⟩⟩

/-- A packet is transparent if no marker is in its text and its text is
read as the packet. -/
theorem WireItem.transparent_iff (i : WireItem) :
    i.Transparent ↔
      (Clear cleanerWords i.payload ∧ Clear splitterWords i.payload) ∧
        parsePart i.payload = some i.sent := by
  cases i with
  | packet p =>
    have hdata : (p.packet.data.filter fun vs => !vs.isEmpty) = p.packet.data ↔
        ∀ vs ∈ p.packet.data, vs ≠ [] := by
      cases p.packet.data with
      | none => simp
      | some vs => cases vs <;> simp
    have hread : parsePart (marshalPacket p.packet) = some p.packet ↔
        (packetTree p.packet).depth ≤ maxNestingDepth ∧ ∀ vs ∈ p.packet.data, vs ≠ [] := by
      rw [parsePart_marshalPacket, ← hdata]
      obtain ⟨⟨type, data⟩, -, -⟩ := p
      split <;> simp_all
    show p.packet.Transparent ↔ (Clear cleanerWords (marshalPacket p.packet) ∧
      Clear splitterWords (marshalPacket p.packet)) ∧ parsePart (marshalPacket p.packet) = some p.packet
    rw [clear_marshalPacket_iff, hread]
    exact ⟨fun h => ⟨h.unmarked, h.shallow, h.data⟩, fun h => ⟨h.1, h.2.1, h.2.2⟩⟩
  | ping pingID =>
    have htilde := tilde_not_mem_itoa pingID.toInt
    refine iff_of_true trivial ⟨⟨?_, ?_⟩, parsePart_itoa pingID⟩
    · exact markers_cleaner.clear_of_not_mem htilde
    · exact markers_splitter.clear_of_not_mem htilde

/-- One packet at most from each: all come back only if each does. -/
theorem flatMap_toList_eq_map_iff {f : WireItem → Option Packet} {g : WireItem → Packet}
    {items : List WireItem} :
    (items.flatMap fun i => (f i).toList) = items.map g ↔ ∀ i ∈ items, f i = some (g i) := by
  have hlength : ∀ l : List WireItem, (l.flatMap fun i => (f i).toList).length ≤ l.length := by
    intro l
    induction l with
    | nil => exact Nat.le_refl _
    | cons i l ih =>
      rw [List.flatMap_cons, List.length_append, List.length_cons, Nat.add_comm]
      exact Nat.add_le_add ih (Option.length_toList_le)
  induction items with
  | nil => simp
  | cons i items ih =>
    rw [List.flatMap_cons, List.map_cons, List.forall_mem_cons]
    cases hi : f i with
    | none =>
      refine iff_of_false ?_ (fun h => nomatch h.1)
      intro h
      have hle := hlength items
      rw [Option.toList_none, List.nil_append] at h
      rw [h, List.length_cons, List.length_map] at hle
      omega
    | some p =>
      rw [Option.toList_some, List.singleton_append, List.cons.injEq, Option.some.injEq]
      exact and_congr_right' ih

/-- **Packets and pings come back from the wire exactly when each packet is
transparent.** -/
theorem parseWSPacket_encode_iff (i : WireItem) (items : List WireItem) :
    parseWSPacket (encode (i :: items)) = .ok ((i :: items).map WireItem.sent) ↔
      ∀ x ∈ i :: items, x.Transparent := by
  rw [parseWSPacket_encode, Except.ok.injEq]
  generalize i :: items = items
  have hparts : (∀ i ∈ items, Clear cleanerWords i.payload ∧ Clear splitterWords i.payload) →
      (items.flatMap fun i => readBack i.payload) =
        items.flatMap fun i => (parsePart i.payload).toList := by
    intro h
    apply List.flatMap_congr
    exact fun i hi => readBack_of_clear (h i hi).1 (h i hi).2
  constructor
  · intro h x hx
    have hclear := clear_of_readBack h
    rw [hparts hclear, flatMap_toList_eq_map_iff] at h
    exact x.transparent_iff.mpr ⟨hclear x hx, h x hx⟩
  · intro h
    have hboth := fun x hx => (WireItem.transparent_iff x).mp (h x hx)
    rw [hparts fun x hx => (hboth x hx).1, flatMap_toList_eq_map_iff]
    exact fun x hx => (hboth x hx).2

/-- A chat line with the head of a frame in it. -/
def chatPacket : JsonPacket where
  packet :=
    { type := ['c', 'h', 'a', 't']
      data := some [.string ['~', 'm', '~', '1', '~', 'm', '~', '7', '~', 'm', '~', '1', '~', 'm', '~']] }
  type_ne_nil := List.cons_ne_nil _ _
  json := by
    intro vs hvs
    obtain rfl := Option.some.inj hvs
    exact ⟨trivial, trivial⟩

/-- The chat line comes back as a ping that nobody sent. -/
theorem parseWSPacket_chat : parseWSPacket (encode [.packet chatPacket]) = .ok [pingPacket 7] := by
  rfl

theorem chat_not_returned :
    parseWSPacket (encode [.packet chatPacket]) ≠ .ok ([.packet chatPacket].map WireItem.sent) := by
  rw [parseWSPacket_chat]
  intro h
  have htype : ['p', 'i', 'n', 'g'] = ['c', 'h', 'a', 't'] :=
    congrArg Packet.type (List.cons.inj (Except.ok.inj h)).1
  exact absurd htype (by decide)

end TdSandboxed.TvApi.WireCodec
