/-
TdSandboxed.Calendar.EconomicCalendarService — the refreshes of the
economic calendar (`calendar/economic_calendar_service.py`).

The service keeps the snapshot that the blackout rules look at, and writes
what it fetched to Redis under the date of the day. What the outside world
answers to a refresh is the input of the step: the fetcher, the Redis
client and the fallback file may each fail. An exception that a refresh
does not catch is logged by its loop, and leaves everything as it was.

Redis outlives the process. An entry is readable until it expires, and a
flushed server has none. Days are the ordinals of local dates; the clock
and the date only move forward. The start of an event is kept as a time in
the JSON too.
-/
import TdSandboxed.Calendar.ForexFactoryParser

namespace TdSandboxed

/-! ## Stored events -/

/-- An object of a stored list. A field that is not there is none, and a
start that does not read as a time with a zone is an error. -/
structure EventDict where
  title : Option String
  country : Option String
  start : Option (Except PyException ℚ)
  impact : Option String
  symbols : Option (List String) := none

/-- `_event_to_dict` -/
def eventToDict (e : CalendarEvent) : EventDict :=
  { title := e.title, country := e.country, start := some (.ok e.start), impact := e.impactLevel,
    symbols := e.symbolSet }

def EventDict.require (field : String) : Option α → Except PyException α
  | some v => .ok v
  | none => .error (.keyError field)

/-- `_event_from_dict` -/
def eventFromDict (d : EventDict) : Except PyException CalendarEvent := do
  let title ← EventDict.require "title" d.title
  let country ← EventDict.require "country" d.country
  let start ← ← EventDict.require "start" d.start
  let impact ← EventDict.require "impact" d.impact
  return { title, country, start, impact := normaliseImpact impact,
           symbols := ((d.symbols.getD []).filter (strip · ≠ "")).map normaliseSymbol }

/-- What a stored text may hold. -/
inductive StoredText
  | empty
  /-- No JSON. -/
  | undecodable
  | items (dicts : List EventDict)
  /-- JSON of another shape. Reading it raises what no reader catches. -/
  | foreign

/-- `json.loads` and `_event_from_dict` of every item, with the exceptions
that the readers catch. -/
def StoredText.load : StoredText → Except PyException (Option (List CalendarEvent))
  | .empty | .undecodable => .ok none
  | .items dicts => .ok (dicts.mapM eventFromDict).toOption
  | .foreign => .error (.typeError "string indices must be integers")

/-! ## The service -/

structure CalendarConfig where
  /-- `redis_manager is not None` -/
  redis : Bool := true
  /-- Seconds. -/
  redisTtl : ℕ := 26 * 60 * 60

inductive Fetch
  /-- Also a timeout. -/
  | raises
  | nothing
  | payload (p : Payload)

/-- What a refresh meets. -/
structure RefreshInput where
  fetch : Fetch
  /-- The manager has a client. -/
  client : Bool := true
  setex : Bool := true
  /-- Which reads succeed, of today's key and of yesterday's. -/
  getToday : Bool := true
  getYesterday : Bool := true
  /-- The fallback file, if there is one that can be read. -/
  fallback : Option StoredText := none

structure CacheEntry where
  text : StoredText
  expiry : ℤ

structure EconomicCalendarService where
  snapshot : EventIndex := .init []
  /-- By the date in the key. -/
  cache : ℤ → Option CacheEntry := fun _ => none
  /-- Seconds. -/
  now : ℤ := 0
  today : ℤ := 0

namespace EconomicCalendarService

/-- `_fetch_and_parse` -/
def fetchAndParse : Fetch → Except PyException (Option (List CalendarEvent))
  | .raises | .nothing => .ok none
  | .payload p => (ForexFactory.parseXml p).map some

/-- `_cache_to_redis` -/
def cacheToRedis (c : CalendarConfig) (i : RefreshInput) (events : List CalendarEvent)
    (s : EconomicCalendarService) : EconomicCalendarService :=
  if c.redis ∧ i.client ∧ i.setex then
    let entry := { text := .items (events.map eventToDict), expiry := s.now + c.redisTtl }
    { s with cache := Function.update s.cache s.today (some entry) }
  else s

/-- What `GET` answers for a day. -/
def get (s : EconomicCalendarService) (day : ℤ) : StoredText :=
  match s.cache day with
  | some entry => if s.now < entry.expiry then entry.text else .empty
  | none => .empty

/-- `_read_redis_cache`: today's key, and yesterday's if today's is empty. -/
def readRedisCache (c : CalendarConfig) (i : RefreshInput) (s : EconomicCalendarService) :
    Except PyException (Option (List CalendarEvent)) :=
  if c.redis ∧ i.client ∧ i.getToday then
    match s.get s.today with
    | .empty => if i.getYesterday then (s.get (s.today - 1)).load else .ok none
    | text => text.load
  else .ok none

/-- `_read_fallback_file` -/
def readFallbackFile (i : RefreshInput) : Except PyException (Option (List CalendarEvent)) :=
  match i.fallback with
  | some text => text.load
  | none => .ok none

/-- `refresh_once` -/
def refreshOnce (c : CalendarConfig) (i : RefreshInput) (s : EconomicCalendarService) :
    Except PyException EconomicCalendarService := do
  match ← fetchAndParse i.fetch with
  | some events => return { s.cacheToRedis c i events with snapshot := .init events }
  | none =>
    match ← s.readRedisCache c i with
    | some events => return { s with snapshot := .init events }
    | none =>
      match ← readFallbackFile i with
      | some events => return { s with snapshot := .init events }
      | none => return s

end EconomicCalendarService

inductive CalendarStep
  /-- A refresh of `start` or of the loop. -/
  | refresh (i : RefreshInput)
  | elapse (seconds days : ℕ)
  /-- A new process: it has no snapshot yet. -/
  | restart
  /-- Redis loses its keys. -/
  | flush

namespace EconomicCalendarService

def refresh (c : CalendarConfig) (i : RefreshInput) (s : EconomicCalendarService) :
    EconomicCalendarService :=
  match s.refreshOnce c i with
  | .ok t => t
  | .error _ => s

def step (c : CalendarConfig) (s : EconomicCalendarService) :
    CalendarStep → Option EconomicCalendarService
  | .refresh i => some (s.refresh c i)
  | .elapse seconds days => some { s with now := s.now + seconds, today := s.today + days }
  | .restart => some { s with snapshot := .init [] }
  | .flush => some { s with cache := fun _ => none }

end EconomicCalendarService

end TdSandboxed
