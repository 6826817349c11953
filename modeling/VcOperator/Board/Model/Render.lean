import Mathlib.Algebra.Group.Int.Defs
import Mathlib.Data.String.Basic
import VcOperator.Board.Model.Load
/-!
# Rendering the runs

`render_runs` of the operator console: each run is classified at an instant,
has its recent events and its age beside it, and all are sorted. What an
instant is, how its texts are read, and the case of Unicode are parameters.
-/

namespace VcOperator

namespace Board

/-- What comes from outside: `chrono`, and the case of Unicode. `τ` is `DateTime<Utc>`. -/
structure Outside (τ : Type) where
  /-- `DateTime::parse_from_rfc3339`, in UTC. -/
  parseFromRfc3339 : String → Option τ
  /-- `Utc.timestamp_opt(seconds, 0).single()`. -/
  timestampOpt : ℤ → Option τ
  /-- `signed_duration_since`, of the later instant and the earlier one: in nanoseconds. -/
  signedDurationSince : τ → τ → ℤ
  /-- `str::to_lowercase`. -/
  toLowercase : String → String

/-- `RunKind`. -/
inductive RunKind where
  | active | recent | completed | failed | stalled | paused | unknown
  deriving DecidableEq, Repr

/-- `RunKind::sort_rank`. -/
def RunKind.sortRank : RunKind → ℕ
  | active => 0
  | stalled => 1
  | failed => 2
  | paused => 3
  | recent => 4
  | completed => 5
  | unknown => 6

/-- `RunSnapshot`. -/
structure RunSnapshot where
  runId : String
  sessionId : Option String
  agent : Option String
  skill : Option String
  mode : Option String
  state : Option String
  status : Option String
  startedAt : Option String
  updatedAt : Option String
  lastHeartbeat : Option String
  root : Option String
  operatorSession : Option String
  latestReport : Option String
  latestTranscript : Option String
  lastError : Option String
  extra : HashMap String Value

/-- `RunSnapshot::display_state`. -/
def RunSnapshot.displayState (snapshot : RunSnapshot) : String :=
  (snapshot.state.or snapshot.status).getD "unknown"

/-- `RunEvent`. -/
structure RunEvent where
  ts : String
  runId : Option String
  kind : String
  message : Option String
  payload : Option Value

/-- `RenderedRun`. -/
structure RenderedRun where
  snapshot : RunSnapshot
  kind : RunKind
  ageLabel : String
  recentEvents : List RunEvent

/-! ## Durations -/

/-- `num_seconds`, of nanoseconds: every one of these is truncated. -/
def numSeconds (delta : ℤ) : ℤ := delta.tdiv 1000000000

/-- `num_minutes`. -/
def numMinutes (delta : ℤ) : ℤ := (numSeconds delta).tdiv 60

/-- `num_hours`. -/
def numHours (delta : ℤ) : ℤ := (numSeconds delta).tdiv 3600

/-- `num_days`. -/
def numDays (delta : ℤ) : ℤ := (numSeconds delta).tdiv 86400

/-! ## Timestamps -/

/-- `raw.parse::<i64>()`. -/
def parseI64 (raw : String) : Option ℤ :=
  let (negative, digits) :=
    match raw.toList with
    | '-' :: digits => (true, digits)
    | '+' :: digits => (false, digits)
    | digits => (false, digits)
  if digits = [] || !digits.all Char.isDigit then none
  else
    let n : ℤ := digits.foldl (fun n c => 10 * n + (c.toNat - '0'.toNat)) 0
    let value := if negative then -n else n
    if -2 ^ 63 ≤ value ∧ value < 2 ^ 63 then some value else none

variable {τ : Type} (out : Outside τ)

/-- `parse_timestamp`. -/
def parseTimestamp (raw : String) : Option τ :=
  match out.parseFromRfc3339 raw with
  | some parsed => some parsed
  | none => (parseI64 raw).bind out.timestampOpt

/-- `is_recent`. -/
def isRecent (timestamp : Option τ) (now : τ) : Bool :=
  (timestamp.map fun value => decide (numHours (out.signedDurationSince now value) < 24)).getD false

/-- `is_stale`. -/
def isStale (timestamp : Option τ) (now : τ) : Bool :=
  (timestamp.map fun value =>
    decide (numMinutes (out.signedDurationSince now value) > 15)).getD false

/-- `relative_age`. -/
def relativeAge (timestamp now : τ) : String :=
  let delta := out.signedDurationSince now timestamp
  let minutes := max (numMinutes delta) 0
  let hours := max (numHours delta) 0
  if hours ≥ 24 then toString (max (numDays delta) 0) ++ "d ago"
  else if hours > 0 then toString hours ++ "h ago"
  else toString minutes ++ "m ago"

/-- `age_label`. -/
def ageLabel (snapshot : RunSnapshot) (now : τ) : String :=
  let timestamp := ((snapshot.lastHeartbeat.bind (parseTimestamp out)).or
    (snapshot.updatedAt.bind (parseTimestamp out))).or
    (snapshot.startedAt.bind (parseTimestamp out))
  (timestamp.map fun ts => relativeAge out ts now).getD "age unknown"

/-! ## Kinds -/

/-- `str::contains`. -/
def contains (text part : String) : Bool := decide (part.toList <:+: text.toList)

/-- `is_active_like`. -/
def isActiveLike (state : String) : Bool :=
  contains state "active" || contains state "run" || contains state "watch" ||
    contains state "queued" || contains state "pending" || contains state "in-progress" ||
    contains state "progress" || contains state "loop"

/-- The states of a run that has ended well. -/
def isDoneLike (state : String) : Bool :=
  contains state "done" || contains state "complete" || contains state "succeed" ||
    contains state "converged" || contains state "stopped" || contains state "gc"

/-- `classify_run`. -/
def classifyRun (snapshot : RunSnapshot) (now : τ) : RunKind :=
  let state := out.toLowercase snapshot.displayState
  let heartbeat := (snapshot.lastHeartbeat.bind (parseTimestamp out)).or
    (snapshot.updatedAt.bind (parseTimestamp out))
  if snapshot.lastError.isSome || contains state "fail" || contains state "error" then .failed
  else if contains state "stalled" then .stalled
  else if contains state "pause" then .paused
  else if isDoneLike state then if isRecent out heartbeat now then .recent else .completed
  else if isActiveLike state then if isStale out heartbeat now then .stalled else .active
  else if isRecent out heartbeat now then .recent
  else .unknown

/-! ## Events -/

/-- `Vec::sort_by`: stable. -/
def sortBy {α : Type} (cmp : α → α → Ordering) (l : List α) : List α :=
  l.mergeSort fun a b => (cmp a b).isLE

/-- `recent_events_for`. -/
def recentEventsFor (events : List RunEvent) (runId : String) : List RunEvent :=
  let recent := events.filter fun event => event.runId = some runId
  (sortBy (fun left right => compare right.ts left.ts) recent).take 8

/-- A run as it is rendered. -/
def renderRun (events : List RunEvent) (now : τ) (snapshot : RunSnapshot) : RenderedRun where
  snapshot := snapshot
  kind := classifyRun out snapshot now
  ageLabel := ageLabel out snapshot now
  recentEvents := recentEventsFor events snapshot.runId

/-! ## The order -/

variable [LinearOrder τ]

/-- `compare_timestamp`. -/
def compareTimestamp (left right : Option String) : Ordering :=
  match left.bind (parseTimestamp out), right.bind (parseTimestamp out) with
  | some left, some right => compare right left
  | some _, none => .lt
  | none, some _ => .gt
  | none, none => .eq

/-- `compare_runs`. -/
def compareRuns (left right : RenderedRun) : Ordering :=
  ((((compare left.kind.sortRank right.kind.sortRank).then
    (compareTimestamp out right.snapshot.updatedAt left.snapshot.updatedAt)).then
    (compareTimestamp out right.snapshot.startedAt left.snapshot.startedAt)).then
    (compareTimestamp out right.snapshot.lastHeartbeat left.snapshot.lastHeartbeat)).then
    (compare left.snapshot.runId right.snapshot.runId)

/-- `render_runs`, at an instant. -/
def renderRuns (state : ControlPlaneState RunSnapshot RunEvent) (now : τ) : List RenderedRun :=
  sortBy (compareRuns out) (state.runs.map (renderRun out state.events now))

end Board

end VcOperator
