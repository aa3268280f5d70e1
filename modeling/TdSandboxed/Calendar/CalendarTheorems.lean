/-
TdSandboxed.Calendar.CalendarTheorems — what a refresh may do to the
snapshot and to the cache.

A refresh whose fetch obtained a list writes it to both. Any other refresh
leaves the cache alone, and takes its events from the cache, else from the
fallback file, else keeps the snapshot (`refresh_of_nothing`).
`refresh_cases` sums this up for the inductions.

So the blackout stays armed in the runs where no obtained list is empty
(`Armed`): the cache never holds an empty list (`CacheArmed`, kept by every
step), and a refresh of a non-empty snapshot leaves a non-empty one. Where
besides every list that was obtained was cached and no fallback file
answers (`Kept`), the snapshot is that of the last good refresh: the cache
has that list under its latest date, and no entry expires after it
(`CacheHolds`).

A payload that is malformed as a whole reads as an empty list, and that is
where the blackout is disarmed.
-/
import TdSandboxed.Calendar.EconomicCalendarService
import TdSandboxed.Lib.Run

namespace TdSandboxed

/-! ## Texts -/

theorem toNat_toLower (c : Char) :
    c.toLower.toNat = if 65 ≤ c.toNat ∧ c.toNat ≤ 90 then c.toNat + 32 else c.toNat := by
  have hval : ('A'.val ≤ c.val ∧ c.val ≤ 'Z'.val) ↔ (65 ≤ c.toNat ∧ c.toNat ≤ 90) := by
    simp only [UInt32.le_iff_toNat_le]
    exact Iff.rfl
  unfold Char.toLower
  split
  · rename_i h
    rw [if_pos (hval.mp h)]
    show (c.val + 32).toNat = c.val.toNat + 32
    have h90 : c.val.toNat ≤ 90 := (hval.mp h).2
    rw [UInt32.toNat_add]
    refine Nat.mod_eq_of_lt ?_
    show c.val.toNat + 32 < 2 ^ 32
    omega
  · rename_i h
    rw [if_neg (mt hval.mpr h)]

theorem isPySpace_toLower (c : Char) : isPySpace c.toLower = isPySpace c := by
  rw [Bool.eq_iff_iff]
  simp only [isPySpace, toNat_toLower, Bool.or_eq_true, Bool.and_eq_true, decide_eq_true_eq]
  split <;> omega

theorem toLower_toLower (c : Char) : c.toLower.toLower = c.toLower := by
  rw [← Char.toNat_inj, toNat_toLower c.toLower, if_neg]
  rw [toNat_toLower]
  split <;> omega

/-- There is nothing to strip. -/
def Stripped (cs : List Char) : Prop :=
  (∀ h : cs ≠ [], ¬isPySpace (cs.head h)) ∧ ∀ h : cs ≠ [], ¬isPySpace (cs.getLast h)

theorem strip_of_stripped {s : String} (h : Stripped s.toList) : strip s = s := by
  unfold strip
  rw [List.dropWhile_eq_self_iff.mpr, List.rdropWhile_eq_self_iff.mpr h.2, String.ofList_toList]
  intro hl
  simpa [List.head_eq_getElem] using h.1 (List.ne_nil_of_length_pos hl)

theorem stripped_strip (s : String) : Stripped (strip s).toList := by
  unfold strip
  rw [String.toList_ofList]
  refine ⟨fun h => ?_, fun h => List.rdropWhile_last_not _ _ h⟩
  have hprefix := List.rdropWhile_prefix isPySpace (l := s.toList.dropWhile isPySpace)
  rw [List.IsPrefix.head hprefix h, List.head_dropWhile_not isPySpace]
  exact Bool.false_ne_true

theorem Stripped.map_toLower {cs : List Char} (h : Stripped cs) :
    Stripped (cs.map Char.toLower) := by
  constructor
  · intro hne
    rw [List.head_map, isPySpace_toLower]
    exact h.1 _
  · intro hne
    rw [List.getLast_map, isPySpace_toLower]
    exact h.2 _

theorem normaliseImpact_idem (s : String) :
    normaliseImpact (normaliseImpact s) = normaliseImpact s := by
  have hlist : (normaliseImpact s).toList = (strip s).toList.map Char.toLower := String.toList_map
  have hstripped : strip (normaliseImpact s) = normaliseImpact s :=
    strip_of_stripped (hlist ▸ (stripped_strip s).map_toLower)
  apply String.toList_inj.mp
  conv_lhs => rw [normaliseImpact, hstripped]
  show ((normaliseImpact s).map Char.toLower).toList = _
  rw [String.toList_map, hlist, List.map_map]
  exact List.map_congr_left fun c _ => toLower_toLower c

/-! ## Events through the cache -/

/-- An event as the parser builds it. -/
def CalendarEvent.Fetched (e : CalendarEvent) : Prop :=
  e.impactLevel = e.impact ∧ e.symbols = []

theorem ForexFactory.fetched_of_parseEvent {elem : XmlElement} {e : CalendarEvent}
    (h : ForexFactory.parseEvent elem = some e) : e.Fetched := by
  unfold ForexFactory.parseEvent at h
  split at h
  · obtain ⟨start, -, rfl⟩ := Option.map_eq_some_iff.mp h
    exact ⟨normaliseImpact_idem _, rfl⟩
  · cases h

theorem eventFromDict_toDict {e : CalendarEvent} (h : e.Fetched) :
    eventFromDict (eventToDict e) = .ok e := by
  obtain ⟨himpact, hsymbols⟩ := h
  have hset : e.symbolSet = [] := by simp [CalendarEvent.symbolSet, hsymbols]
  have hidem : normaliseImpact e.impactLevel = e.impact := by
    rw [himpact]
    exact himpact
  simp only [eventFromDict, eventToDict, EventDict.require, hset]
  cases e
  simp_all [bind, Except.bind, pure, Except.pure]

namespace EconomicCalendarService

variable {c : CalendarConfig} {i : RefreshInput} {s t : EconomicCalendarService}
  {events good : List CalendarEvent} {steps : List CalendarStep}

theorem load_cached (h : ∀ e ∈ events, e.Fetched) :
    (StoredText.items (events.map eventToDict)).load = .ok (some events) := by
  have hall : (events.map eventToDict).mapM eventFromDict = .ok events := by
    induction events with
    | nil => rfl
    | cons e events ih =>
      rw [List.map_cons, List.mapM_cons, eventFromDict_toDict (h e List.mem_cons_self),
        ih fun e he => h e (List.mem_cons_of_mem _ he)]
      rfl
  simp only [StoredText.load, hall]
  rfl

theorem fetched_of_obtained {f : Fetch} (h : fetchAndParse f = .ok (some events)) :
    ∀ e ∈ events, e.Fetched := by
  match f with
  | .payload (.root element) =>
    obtain rfl : (ForexFactory.iterEvents element).filterMap ForexFactory.parseEvent = events := by
      simpa [fetchAndParse, ForexFactory.parseXml, Except.map] using h
    intro e he
    obtain ⟨elem, -, helem⟩ := List.mem_filterMap.mp he
    exact ForexFactory.fetched_of_parseEvent helem
  | .payload .parseError =>
    obtain rfl : [] = events := by
      simpa [fetchAndParse, ForexFactory.parseXml, Except.map] using h
    intro e he
    cases he

/-! ## What a refresh can do -/

/-- Where a refresh without a list finds one. -/
def Stored (c : CalendarConfig) (i : RefreshInput) (s : EconomicCalendarService)
    (events : List CalendarEvent) : Prop :=
  s.readRedisCache c i = .ok (some events) ∨
    s.readRedisCache c i = .ok none ∧ readFallbackFile i = .ok (some events)

theorem refresh_of_obtained (h : fetchAndParse i.fetch = .ok (some events)) :
    s.refresh c i = { s.cacheToRedis c i events with snapshot := .init events } := by
  simp [refresh, refreshOnce, h, bind, Except.bind, pure, Except.pure]

/-- A refresh without a list. -/
theorem refresh_of_not_obtained (h : ∀ events, fetchAndParse i.fetch ≠ .ok (some events)) :
    s.refresh c i = s ∨
      ∃ events, Stored c i s events ∧ s.refresh c i = { s with snapshot := .init events } := by
  unfold refresh refreshOnce Stored
  cases hfetch : fetchAndParse i.fetch with
  | error e => exact .inl rfl
  | ok fetched =>
    cases fetched with
    | some events => exact absurd hfetch (h events)
    | none =>
      cases hcache : s.readRedisCache c i with
      | error e => exact .inl rfl
      | ok cached =>
        cases cached with
        | some events => exact .inr ⟨events, .inl rfl, rfl⟩
        | none =>
          cases hfile : readFallbackFile i with
          | error e => exact .inl rfl
          | ok read =>
            cases read with
            | some events => exact .inr ⟨events, .inr ⟨rfl, rfl⟩, rfl⟩
            | none => exact .inl rfl

/-- The text of Redis that a refresh without a list reads: today's, or
yesterday's when today has none. -/
def redisText (c : CalendarConfig) (i : RefreshInput) (s : EconomicCalendarService) : StoredText :=
  if c.redis ∧ i.client ∧ i.getToday then
    match s.get s.today with
    | .empty => if i.getYesterday then s.get (s.today - 1) else .empty
    | text => text
  else .empty

/-- The first list among some texts. A text of another shape ends the
reading. -/
def firstList : List StoredText → Option (List CalendarEvent)
  | [] => none
  | text :: texts =>
    match text.load with
    | .ok (some events) => some events
    | .ok none => firstList texts
    | .error _ => none

theorem readRedisCache_eq (c : CalendarConfig) (i : RefreshInput) (s : EconomicCalendarService) :
    s.readRedisCache c i = (redisText c i s).load := by
  unfold readRedisCache redisText
  split
  · cases s.get s.today with
    | empty =>
      dsimp only
      split <;> rfl
    | undecodable | items dicts | foreign => rfl
  · rfl

theorem readFallbackFile_eq (i : RefreshInput) :
    readFallbackFile i = (i.fallback.getD .empty).load := by
  unfold readFallbackFile
  cases i.fallback <;> rfl

/-- **A refresh whose fetch gives nothing** takes the first list that Redis
or the fallback file has, or keeps the snapshot. -/
theorem refresh_of_nothing (h : fetchAndParse i.fetch = .ok none) :
    s.refresh c i =
      { s with
        snapshot := (firstList [redisText c i s, i.fallback.getD .empty]).elim s.snapshot .init } := by
  unfold refresh refreshOnce
  simp only [h, readRedisCache_eq, readFallbackFile_eq, firstList, bind, Except.bind, pure,
    Except.pure]
  cases (redisText c i s).load with
  | error e => rfl
  | ok cached =>
    cases cached with
    | some events => rfl
    | none =>
      cases (i.fallback.getD .empty).load with
      | error e => rfl
      | ok read => cases read <;> rfl

/-- **A refresh that raises** changes nothing. -/
theorem refresh_of_raises {x : PyException} (h : fetchAndParse i.fetch = .error x) :
    s.refresh c i = s := by
  simp only [refresh, refreshOnce, h, bind, Except.bind]

/-- **What a refresh can do.** -/
theorem refresh_cases (c : CalendarConfig) (i : RefreshInput) (s : EconomicCalendarService) :
    (∃ events, fetchAndParse i.fetch = .ok (some events) ∧
      s.refresh c i = { s.cacheToRedis c i events with snapshot := .init events }) ∨
    (∀ events, fetchAndParse i.fetch ≠ .ok (some events)) ∧
      (s.refresh c i = s ∨
        ∃ events, Stored c i s events ∧ s.refresh c i = { s with snapshot := .init events }) := by
  by_cases h : ∃ events, fetchAndParse i.fetch = .ok (some events)
  · obtain ⟨events, hevents⟩ := h
    exact .inl ⟨events, hevents, refresh_of_obtained hevents⟩
  · have hnone : ∀ events, fetchAndParse i.fetch ≠ .ok (some events) := fun events hevents =>
      h ⟨events, hevents⟩
    exact .inr ⟨hnone, refresh_of_not_obtained hnone⟩

/-- A list of the cache is in a live entry of today or, when today has none,
of yesterday. -/
theorem exists_entry (h : s.readRedisCache c i = .ok (some events)) :
    ∃ day entry, s.cache day = some entry ∧ s.now < entry.expiry ∧
      entry.text.load = .ok (some events) ∧
      (day = s.today ∨ day = s.today - 1 ∧ s.get s.today = .empty) := by
  have live : ∀ {day}, (s.get day).load = .ok (some events) →
      ∃ entry, s.cache day = some entry ∧ s.now < entry.expiry ∧
        entry.text.load = .ok (some events) := by
    intro day hday
    unfold get at hday
    split at hday
    · rename_i entry hentry
      split at hday
      · rename_i hlive
        exact ⟨entry, hentry, hlive, hday⟩
      · cases hday
    · cases hday
  unfold readRedisCache at h
  split at h
  · split at h
    · rename_i hempty
      split at h
      · obtain ⟨entry, hentry, hlive, hload⟩ := live h
        exact ⟨_, entry, hentry, hlive, hload, .inr ⟨rfl, hempty⟩⟩
      · cases h
    · obtain ⟨entry, hentry, hlive, hload⟩ := live h
      exact ⟨_, entry, hentry, hlive, hload, .inl rfl⟩
  · cases h

/-- **A refresh without a list** leaves the cache alone, and the snapshot
too unless the cache or the fallback file has a list. -/
theorem frame_of_not_obtained (h : ∀ events, fetchAndParse i.fetch ≠ .ok (some events)) :
    (s.refresh c i).cache = s.cache ∧
      ((s.refresh c i).snapshot = s.snapshot ∨
        ∃ events, Stored c i s events ∧ (s.refresh c i).snapshot = .init events) := by
  obtain hsame | ⟨events, hstored, hs⟩ := refresh_of_not_obtained (c := c) (s := s) h
  · rw [hsame]
    exact ⟨rfl, .inl rfl⟩
  · rw [hs]
    exact ⟨rfl, .inr ⟨events, hstored, rfl⟩⟩

theorem init_ne_nil (h : events ≠ []) : (EventIndex.init events).events ≠ [] := by
  intro hnil
  apply h
  rw [← List.length_eq_zero_iff, ← List.length_insertionSort (·.start ≤ ·.start) events]
  exact congrArg List.length hnil

/-! ## No list is empty -/

/-- A list that the refresh obtains, or that the fallback file holds, has an
event. -/
def Armed (_ : EconomicCalendarService) : CalendarStep → Prop
  | .refresh i => fetchAndParse i.fetch ≠ .ok (some []) ∧ readFallbackFile i ≠ .ok (some [])
  | _ => True

/-- No list of the cache is empty. -/
def CacheArmed (s : EconomicCalendarService) : Prop :=
  ∀ day entry, s.cache day = some entry → entry.text.load ≠ .ok (some [])

theorem cacheArmed_cacheToRedis (h : s.CacheArmed) (hne : events ≠ [])
    (hfetched : ∀ e ∈ events, e.Fetched) : (s.cacheToRedis c i events).CacheArmed := by
  unfold cacheToRedis
  split
  · intro day entry hentry
    by_cases hday : day = s.today
    · obtain rfl : _ = entry := Option.some.inj (by simpa [hday] using hentry)
      rw [load_cached hfetched]
      exact fun hload => hne (Option.some.inj (Except.ok.inj hload))
    · exact h day entry (by simpa [hday] using hentry)
  · exact h

/-- **Step.** -/
theorem cacheArmed_step {st : CalendarStep} (h : s.CacheArmed) (harmed : Armed s st)
    (hs : s.step c st = some t) : t.CacheArmed := by
  cases st with
  | refresh i =>
    obtain rfl := Option.some.inj hs
    obtain ⟨events, hobtained, heq⟩ | ⟨hnone, -⟩ := refresh_cases c i s
    · rw [heq]
      refine cacheArmed_cacheToRedis h ?_ (fetched_of_obtained hobtained)
      rintro rfl
      exact harmed.1 hobtained
    · intro day entry hentry
      rw [(frame_of_not_obtained hnone).1] at hentry
      exact h day entry hentry
  | elapse seconds days =>
    obtain rfl := Option.some.inj hs
    exact h
  | restart =>
    obtain rfl := Option.some.inj hs
    exact h
  | flush =>
    obtain rfl := Option.some.inj hs
    intro day entry hentry
    cases hentry

/-- A refresh keeps a snapshot that has events from losing them all. -/
theorem snapshot_ne_nil (h : s.CacheArmed) (harmed : Armed s (.refresh i))
    (hne : s.snapshot.events ≠ []) : (s.refresh c i).snapshot.events ≠ [] := by
  obtain ⟨events, hobtained, heq⟩ | ⟨-, hsame | ⟨events, hstored, heq⟩⟩ := refresh_cases c i s
  · rw [heq]
    refine init_ne_nil ?_
    rintro rfl
    exact harmed.1 hobtained
  · rw [hsame]
    exact hne
  · rw [heq]
    refine init_ne_nil ?_
    rintro rfl
    obtain hcache | ⟨-, hfile⟩ := hstored
    · obtain ⟨day, entry, hentry, -, hload, -⟩ := exists_entry hcache
      exact h day entry hentry hload
    · exact harmed.2 hfile

/-! ## The last good refresh -/

/-- The list of the last refresh of this process that obtained one. -/
def lastGood (steps : List CalendarStep) : Option (List CalendarEvent) :=
  steps.foldl (fun good st =>
    match st with
    | .refresh i =>
      match fetchAndParse i.fetch with
      | .ok (some events) => some events
      | _ => good
    | .restart => none
    | _ => good) none

/-- A list that the refresh obtains is not empty and is cached, and the
fallback file does not answer. -/
def Kept (c : CalendarConfig) (s : EconomicCalendarService) (st : CalendarStep) : Prop :=
  Armed s st ∧
    match st with
    | .refresh i =>
      (c.redis ∧ (∃ events, fetchAndParse i.fetch = .ok (some events)) → i.client ∧ i.setex) ∧
        readFallbackFile i = .ok none
    | _ => True

/-- Entries are of dates up to today, and none lives longer than one written
now. -/
def CacheBounded (c : CalendarConfig) (s : EconomicCalendarService) : Prop :=
  ∀ day entry, s.cache day = some entry →
    day ≤ s.today ∧ entry.expiry ≤ s.now + c.redisTtl ∧ c.redis

/-- Where the cache has entries, the latest and longest-lived is this list. -/
def CacheHolds (s : EconomicCalendarService) (good : List CalendarEvent) : Prop :=
  ∃ day entry, day ≤ s.today ∧ entry.text.load = .ok (some good) ∧
    ∀ day' entry', s.cache day' = some entry' →
      day' ≤ day ∧ entry'.expiry ≤ entry.expiry ∧ s.cache day = some entry

/-- What a read of the cache finds is that list. -/
theorem CacheHolds.read (h : s.CacheHolds good) (hread : s.readRedisCache c i = .ok (some events)) :
    events = good := by
  obtain ⟨last, lastEntry, hlast, hgood, hholds⟩ := h
  obtain ⟨day, entry, hentry, hlive, hload, hwhich⟩ := exists_entry hread
  obtain ⟨hle, hexpiry, hlastEntry⟩ := hholds day entry hentry
  obtain rfl : day = last := by
    obtain rfl | ⟨rfl, hempty⟩ := hwhich
    · omega
    · by_contra hne
      -- the latest entry is of today and lives at least as long, so today's key has a text
      obtain rfl : last = s.today := by omega
      have htoday : s.get s.today = lastEntry.text := by
        unfold get
        rw [hlastEntry]
        exact if_pos (by omega)
      rw [← htoday, hempty] at hgood
      cases hgood
  obtain rfl : entry = lastEntry := Option.some.inj (hentry.symm.trans hlastEntry)
  exact Option.some.inj (Except.ok.inj (hload.symm.trans hgood))

theorem CacheHolds.mono (h : s.CacheHolds good) (hcache : t.cache = s.cache)
    (htoday : s.today ≤ t.today) : t.CacheHolds good := by
  obtain ⟨day, entry, hday, hgood, hholds⟩ := h
  refine ⟨day, entry, hday.trans htoday, hgood, ?_⟩
  rw [hcache]
  exact hholds

/-- An entry after a list was cached: it is the list's, or was there before. -/
theorem cacheToRedis_cases {events : List CalendarEvent} {day : ℤ} {entry : CacheEntry}
    (h : (s.cacheToRedis c i events).cache day = some entry) :
    (c.redis ∧ i.client ∧ i.setex) ∧ day = s.today ∧
        entry = { text := .items (events.map eventToDict), expiry := s.now + c.redisTtl } ∨
      s.cache day = some entry := by
  unfold cacheToRedis at h
  split at h
  · rename_i hwrites
    by_cases hday : day = s.today
    · exact .inl ⟨hwrites, hday, (Option.some.inj (by simpa [hday] using h)).symm⟩
    · exact .inr (by simpa [hday] using h)
  · exact .inr h

theorem cacheToRedis_clock (c : CalendarConfig) (i : RefreshInput) (events : List CalendarEvent)
    (s : EconomicCalendarService) :
    (s.cacheToRedis c i events).today = s.today ∧ (s.cacheToRedis c i events).now = s.now := by
  unfold cacheToRedis
  split <;> exact ⟨rfl, rfl⟩

/-- After a list was cached, the cache holds it. -/
theorem cacheHolds_cacheToRedis (h : s.CacheBounded c) (hfetched : ∀ e ∈ good, e.Fetched)
    (hwritten : c.redis → i.client ∧ i.setex) : (s.cacheToRedis c i good).CacheHolds good := by
  refine ⟨s.today, { text := .items (good.map eventToDict), expiry := s.now + c.redisTtl }, ?_,
    load_cached hfetched, ?_⟩
  · exact (cacheToRedis_clock c i good s).1.ge
  · intro day entry hentry
    have hstored (hredis : c.redis) : (s.cacheToRedis c i good).cache s.today =
        some { text := .items (good.map eventToDict), expiry := s.now + c.redisTtl } := by
      rw [cacheToRedis, if_pos ⟨hredis, hwritten hredis⟩]
      exact Function.update_self ..
    cases cacheToRedis_cases hentry with
    | inl hnew =>
      obtain ⟨hwrites, hday, rfl⟩ := hnew
      exact ⟨hday.le, le_rfl, hstored hwrites.1⟩
    | inr hold =>
      obtain ⟨hle, hexpiry, hredis⟩ := h day entry hold
      exact ⟨hle, hexpiry, hstored hredis⟩

theorem cacheBounded_step {st : CalendarStep} (h : s.CacheBounded c)
    (hs : s.step c st = some t) : t.CacheBounded c := by
  cases st with
  | refresh i =>
    obtain rfl := Option.some.inj hs
    obtain ⟨events, -, heq⟩ | ⟨-, hsame | ⟨events, -, heq⟩⟩ := refresh_cases c i s
    · rw [heq]
      intro day entry hentry
      obtain ⟨htoday, hnow⟩ := cacheToRedis_clock c i events s
      rw [htoday, hnow]
      cases cacheToRedis_cases hentry with
      | inl hnew =>
        obtain ⟨hwrites, hday, rfl⟩ := hnew
        exact ⟨hday.le, le_rfl, hwrites.1⟩
      | inr hold => exact h day entry hold
    · rw [hsame]
      exact h
    · rw [heq]
      exact h
  | elapse seconds days =>
    obtain rfl := Option.some.inj hs
    intro day entry hentry
    obtain ⟨hle, hexpiry, hredis⟩ := h day entry hentry
    exact ⟨by dsimp only; omega, by dsimp only; omega, hredis⟩
  | restart =>
    obtain rfl := Option.some.inj hs
    exact h
  | flush =>
    obtain rfl := Option.some.inj hs
    intro day entry hentry
    cases hentry

/-- The snapshot and the cache are those of the last good refresh. -/
def Current (c : CalendarConfig) (steps : List CalendarStep) (s : EconomicCalendarService) :
    Prop :=
  s.CacheBounded c ∧
    ∀ good, lastGood steps = some good → s.snapshot = .init good ∧ s.CacheHolds good

theorem lastGood_snoc (steps : List CalendarStep) (st : CalendarStep) :
    lastGood (steps ++ [st]) =
      match st with
      | .refresh i =>
        match fetchAndParse i.fetch with
        | .ok (some events) => some events
        | _ => lastGood steps
      | .restart => none
      | _ => lastGood steps := by
  rw [lastGood, List.foldl_append]
  rfl

/-- **Step.** -/
theorem current_step {st : CalendarStep} (h : Current c steps s) (hkept : Kept c s st)
    (hs : s.step c st = some t) : Current c (steps ++ [st]) t := by
  refine ⟨cacheBounded_step h.1 hs, fun good hgood => ?_⟩
  rw [lastGood_snoc] at hgood
  cases st with
  | refresh i =>
    obtain rfl := Option.some.inj hs
    dsimp only at hgood
    obtain ⟨events, hobtained, heq⟩ | ⟨hnone, hrest⟩ := refresh_cases c i s
    · rw [hobtained] at hgood
      obtain rfl : events = good := Option.some.inj hgood
      rw [heq]
      refine ⟨rfl, ?_⟩
      have hholds := cacheHolds_cacheToRedis (i := i) h.1 (fetched_of_obtained hobtained)
        fun hredis => hkept.2.1 ⟨hredis, events, hobtained⟩
      exact hholds.mono rfl le_rfl
    · have hbefore : lastGood steps = some good := by
        split at hgood
        · rename_i events hobtained
          exact absurd hobtained (hnone events)
        · exact hgood
      obtain ⟨hsnapshot, hholds⟩ := h.2 good hbefore
      refine ⟨?_, hholds.mono (frame_of_not_obtained hnone).1 ?_⟩
      · obtain hsame | ⟨events, hread | ⟨-, hfile⟩, heq⟩ := hrest
        · rw [hsame]
          exact hsnapshot
        · rw [heq, hholds.read hread]
        · rw [hkept.2.2] at hfile
          cases hfile
      · obtain hsame | ⟨events, -, heq⟩ := hrest
        · rw [hsame]
        · rw [heq]
  | elapse seconds days =>
    obtain rfl := Option.some.inj hs
    obtain ⟨hsnapshot, hholds⟩ := h.2 good hgood
    exact ⟨hsnapshot, hholds.mono rfl (by dsimp only; omega)⟩
  | restart => cases hgood
  | flush =>
    obtain rfl := Option.some.inj hs
    obtain ⟨hsnapshot, day, entry, hday, hload, -⟩ := h.2 good hgood
    refine ⟨hsnapshot, day, entry, hday, hload, fun day' entry' hentry => ?_⟩
    cases hentry

/-- **A refresh whose fetch fails does not disarm the blackout.** It takes
its events from the text of Redis, else from the fallback file, and keeps
the old snapshot if neither has a list; it writes nothing to Redis. In a run
whose lists all have an event, the cache never holds an empty list and no
refresh empties the snapshot; and where besides every list was cached and
there is no fallback, the snapshot is always that of the last good
refresh. -/
theorem failed_refresh_keeps_armed (c : CalendarConfig) (now today : ℤ) :
    (∀ (i : RefreshInput) (s : EconomicCalendarService),
      (fetchAndParse i.fetch = .ok none →
        s.refresh c i =
          { s with
            snapshot :=
              (firstList [redisText c i s, i.fallback.getD .empty]).elim s.snapshot .init }) ∧
      ∀ x, fetchAndParse i.fetch = .error x → s.refresh c i = s) ∧
    (∀ (steps : List CalendarStep) (s : EconomicCalendarService),
      Lib.RunWhere (step c) Armed { now, today } steps s →
        s.CacheArmed ∧
          ∀ i, Armed s (.refresh i) → s.snapshot.events ≠ [] →
            (s.refresh c i).snapshot.events ≠ []) ∧
    ∀ (steps : List CalendarStep) (s : EconomicCalendarService) (good : List CalendarEvent),
      Lib.RunWhere (step c) (Kept c) { now, today } steps s → lastGood steps = some good →
        s.snapshot = .init good := by
  refine ⟨fun i s => ⟨refresh_of_nothing, fun x => refresh_of_raises⟩, fun steps s h => ?_,
    fun steps s good h hgood => ?_⟩
  · have harmed : s.CacheArmed := by
      refine h.invariant_state CacheArmed ?_ fun t e u ht he hu => cacheArmed_step ht he hu
      intro day entry hentry
      cases hentry
    exact ⟨harmed, fun i hi hne => snapshot_ne_nil harmed hi hne⟩
  · have hcurrent : Current c steps s := by
      refine h.invariant (Current c) ⟨?_, ?_⟩ fun fs t e u _ ht he hu => current_step ht he hu
      · intro day entry hentry
        cases hentry
      · intro good hnone
        cases hnone
    exact (hcurrent.2 good hgood).1

/-! ## Two nights -/

def leaf (tag text : String) : XmlElement := .mk tag (some text) []

/-- A feed of one event. -/
def payrollsFetch : Fetch :=
  .payload (.root (.mk "weeklyevents" none [.mk "event" none [leaf "title" "Non-Farm Payrolls",
    leaf "country" "USD", leaf "date" "10-31-2025", leaf "time" "8:30am", leaf "impact" "High"]]))

def payrollsEvent : CalendarEvent :=
  { title := "Non-Farm Payrolls", country := "USD", start := 1761899400, impact := "high" }

theorem payrolls_obtained : fetchAndParse payrollsFetch = .ok (some [payrollsEvent]) := by
  decide +kernel

/-- The feed was fetched on this day. -/
def fetchedDay : EconomicCalendarService :=
  ({ today := 739555 } : EconomicCalendarService).refresh {} { fetch := payrollsFetch }

def nextDay : EconomicCalendarService :=
  { fetchedDay with now := fetchedDay.now + 86400, today := fetchedDay.today + 1 }

/-- A day later the fetcher raises, and everything stays as it was. -/
theorem failed_refresh_keeps_armed_overnight :
    (nextDay.refresh {} { fetch := .raises }).cache = nextDay.cache ∧
      (nextDay.refresh {} { fetch := .raises }).snapshot.events ≠ [] ∧
      (nextDay.refresh {} { fetch := .raises }).snapshot = .init [payrollsEvent] := by
  have hraises : ∀ events, fetchAndParse .raises ≠ .ok (some events) := by
    intro events h
    cases h
  have harmed : fetchAndParse payrollsFetch ≠ .ok (some []) := by
    rw [payrolls_obtained]
    decide
  obtain ⟨hframe, hrun, hlast⟩ := failed_refresh_keeps_armed {} 0 739555
  refine ⟨by rw [(hframe { fetch := .raises } nextDay).1 rfl], ?_, ?_⟩
  · have hday : Lib.RunWhere (step {}) Armed { now := 0, today := 739555 }
        [.refresh { fetch := payrollsFetch }, .elapse 86400 1] nextDay :=
      .snoc (.snoc .nil ⟨harmed, nofun⟩ rfl) trivial rfl
    exact (hrun _ _ hday).2 { fetch := .raises } ⟨hraises [], nofun⟩ (by decide +kernel)
  · refine hlast [.refresh { fetch := payrollsFetch }, .elapse 86400 1, .refresh { fetch := .raises }]
      _ _ (.snoc (.snoc (.snoc .nil ⟨⟨harmed, nofun⟩, fun _ => ⟨rfl, rfl⟩, rfl⟩ rfl)
        ⟨trivial, trivial⟩ rfl) ⟨⟨hraises [], nofun⟩, ?_, rfl⟩ rfl) ?_
    · rintro ⟨-, events, hevents⟩
      exact absurd hevents (hraises events)
    · decide +kernel

/-- A payload that is no XML empties the snapshot and the cache. And after a fetch that raises
without a cache to read, the list of the fallback file replaces that of the last good refresh. -/
theorem malformed_payload_disarms :
    fetchedDay.snapshot.events = [payrollsEvent] ∧
      (nextDay.refresh {} { fetch := .payload .parseError }).snapshot.events = [] ∧
      (((nextDay.refresh {} { fetch := .payload .parseError }).get 739556).load).toOption =
        some (some []) ∧
      (fetchedDay.refresh {}
        { fetch := .raises, client := false, fallback := some (.items []) }).snapshot.events = [] := by
  decide +kernel

end EconomicCalendarService

end TdSandboxed
