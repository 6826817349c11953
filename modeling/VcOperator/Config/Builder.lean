import VcOperator.Common.LastSet
import VcOperator.Config.Model.Builder
/-!
# Is the builder faithful?

A chain of builder calls sets some of the parameters, some of them more than
once. What is run is to have each of them as it was set last, and the default
where it was not set. The conversion drops the environment and writes constants
for the heartbeat, so that it does where these were left as they are.
-/

namespace VcOperator

namespace Config

namespace MuxConfig

/-! ## What a call sets -/

namespace Call

/-- A variable of the environment: removed, where the environment is set without it. -/
def var (key : String) : Call → Option (Option String)
  | withEnv env => some (env.get key)
  | withEnvVar k value => if k = key then some (some value) else none
  | _ => none

def args : Call → Option (List String)
  | withArgs args => some args
  | _ => none

def maxClients : Call → Option ℕ
  | withMaxClients max => some max
  | _ => none

def serviceName : Call → Option String
  | withServiceName name => some name
  | _ => none

def logLevel : Call → Option String
  | withLogLevel level => some level
  | _ => none

def lazyStart : Call → Option Bool
  | withLazyStart isLazy => some isLazy
  | _ => none

def maxRequestBytes : Call → Option ℕ
  | withMaxRequestBytes bytes => some bytes
  | _ => none

def requestTimeout : Call → Option ℕ
  | withRequestTimeout timeout => some timeout
  | _ => none

def restartBackoff : Call → Option ℕ
  | withRestartBackoff initial _ => some initial
  | _ => none

def restartBackoffMax : Call → Option ℕ
  | withRestartBackoff _ max => some max
  | _ => none

def maxRestarts : Call → Option ℕ
  | withMaxRestarts max => some max
  | _ => none

def statusFile : Call → Option String
  | withStatusFile path => some path
  | _ => none

def trayEnabled : Call → Option Bool
  | withTray enabled => some enabled
  | _ => none

def heartbeatInterval : Call → Option ℕ
  | withHeartbeat interval _ => some interval
  | _ => none

def heartbeatTimeout : Call → Option ℕ
  | withHeartbeat _ timeout => some timeout
  | _ => none

def heartbeatMaxFailures : Call → Option ℕ
  | withHeartbeatMaxFailures maxFailures => some maxFailures
  | _ => none

def heartbeatEnabled : Call → Option Bool
  | withHeartbeatEnabled enabled => some enabled
  | _ => none

end Call

/-- **The parameters are those of the chain**: each as it was set last, or its default. -/
structure Faithful (second : ℕ) (socket cmd : String) (calls : List Call) (p : ResolvedParams) :
    Prop where
  serviceName : p.serviceName =
    (lastSet Call.serviceName calls).getD ((socketStem socket).getD "rust_mux")
  socket : p.socket = socket
  cmd : p.cmd = cmd
  args : p.args = (lastSet Call.args calls).getD []
  cwd : p.cwd = none
  env : ∀ key, (p.env.getD ∅).get key = (lastSet (Call.var key) calls).getD none
  maxClients : p.maxClients = (lastSet Call.maxClients calls).getD 5
  trayEnabled : p.trayEnabled = (lastSet Call.trayEnabled calls).getD false
  logLevel : p.logLevel = (lastSet Call.logLevel calls).getD "info"
  lazyStart : p.lazyStart = (lastSet Call.lazyStart calls).getD false
  maxRequestBytes : p.maxRequestBytes = (lastSet Call.maxRequestBytes calls).getD 1048576
  requestTimeout : p.requestTimeout = (lastSet Call.requestTimeout calls).getD (30 * second)
  restartBackoff : p.restartBackoff = (lastSet Call.restartBackoff calls).getD second
  restartBackoffMax : p.restartBackoffMax =
    (lastSet Call.restartBackoffMax calls).getD (30 * second)
  maxRestarts : p.maxRestarts = (lastSet Call.maxRestarts calls).getD 5
  statusFile : p.statusFile = lastSet Call.statusFile calls
  heartbeatInterval : p.heartbeatInterval =
    (lastSet Call.heartbeatInterval calls).getD (30 * second)
  heartbeatTimeout : p.heartbeatTimeout =
    (lastSet Call.heartbeatTimeout calls).getD (30 * second)
  heartbeatMaxFailures : p.heartbeatMaxFailures =
    (lastSet Call.heartbeatMaxFailures calls).getD 3
  heartbeatEnabled : p.heartbeatEnabled = (lastSet Call.heartbeatEnabled calls).getD true

/-- **The chain leaves the rest at its defaults**: no variable of the environment, and the
heartbeat as it was, if it set them at all. -/
structure LeavesDefaults (second : ℕ) (calls : List Call) : Prop where
  env : ∀ key value, lastSet (Call.var key) calls ≠ some (some value)
  heartbeatInterval : ∀ interval, lastSet Call.heartbeatInterval calls = some interval →
    interval = 30 * second
  heartbeatTimeout : ∀ timeout, lastSet Call.heartbeatTimeout calls = some timeout →
    timeout = 30 * second
  heartbeatMaxFailures : ∀ maxFailures,
    lastSet Call.heartbeatMaxFailures calls = some maxFailures → maxFailures = 3
  heartbeatEnabled : lastSet Call.heartbeatEnabled calls ≠ some false

/-! ## What a chain builds -/

section Built

variable {second : ℕ} {socket cmd : String} {calls : List Call}

/-- A part that a call sets or leaves is, at the end of a chain, as it was set last. -/
theorem get_built {α : Type*} (get : MuxConfig → α) (sets : Call → Option α)
    (h : ∀ cfg call, get (cfg.apply call) = (sets call).getD (get cfg)) :
    get (built second socket cmd calls) =
      (lastSet sets calls).getD (get (new second socket cmd)) :=
  get_foldl_eq_lastSet get sets h calls _

/-- A part that no call sets. -/
theorem get_built_of_unset {α : Type*} (get : MuxConfig → α)
    (h : ∀ cfg call, get (cfg.apply call) = get cfg) :
    get (built second socket cmd calls) = get (new second socket cmd) := by
  rw [get_built get (fun _ => none) h, lastSet_none, Option.getD_none]

/-- A part that is not there before a call sets it. -/
theorem get_built_of_none {α : Type*} (get : MuxConfig → Option α) (sets : Call → Option α)
    (h : ∀ cfg call, get (cfg.apply call) = (sets call).or (get cfg))
    (hnew : get (new second socket cmd) = none) :
    get (built second socket cmd calls) = lastSet sets calls := by
  have hget := get_foldl_eq_lastSet_or get sets h calls (new second socket cmd)
  rw [hnew, Option.or_none] at hget
  exact hget

/-- **The environment is built as it was set.** -/
theorem env_built (key : String) :
    (built second socket cmd calls).env.get key = (lastSet (Call.var key) calls).getD none := by
  refine get_built (·.env.get key) (Call.var key) fun cfg call => ?_
  cases call with
  | withEnvVar k value =>
    rcases eq_or_ne k key with rfl | hne
    · rw [Call.var, if_pos rfl]
      exact OrderedMap.get_insert cfg.env k value
    · rw [Call.var, if_neg hne]
      exact OrderedMap.get_insert_ne hne.symm value
  | _ => rfl

/-- The name is that of the chain, or comes from the socket. -/
theorem resolvedName_built : (built second socket cmd calls).resolvedName =
    (lastSet Call.serviceName calls).getD ((socketStem socket).getD "rust_mux") := by
  have hname : (built second socket cmd calls).serviceName = lastSet Call.serviceName calls :=
    get_built_of_none (·.serviceName) Call.serviceName (fun _ call => by cases call <;> rfl) rfl
  have hsocket : (built second socket cmd calls).socket = socket :=
    get_built_of_unset (·.socket) fun _ call => by cases call <;> rfl
  rw [resolvedName, hname, hsocket]

/-! ## What is run -/

/-- A constant is what was set last, or the default it is, where nothing else was set. -/
theorem eq_getD_lastSet_iff {α : Type*} {sets : Call → Option α} {a : α} :
    a = (lastSet sets calls).getD a ↔ ∀ b, lastSet sets calls = some b → b = a := by
  cases lastSet sets calls with
  | none => simp
  | some b => simpa using eq_comm

theorem faithful_of_leavesDefaults (h : LeavesDefaults second calls) :
    Faithful second socket cmd calls ((built second socket cmd calls).resolved second) where
  socket := get_built_of_unset (·.socket) fun _ call => by cases call <;> rfl
  cmd := get_built_of_unset (·.cmd) fun _ call => by cases call <;> rfl
  args := get_built (·.args) Call.args fun _ call => by cases call <;> rfl
  cwd := rfl
  env := by
    intro key
    cases hlast : lastSet (Call.var key) calls with
    | none => rfl
    | some set =>
      cases set with
      | none => rfl
      | some value => exact absurd hlast (h.env key value)
  maxClients := get_built (·.maxClients) Call.maxClients fun _ call => by cases call <;> rfl
  trayEnabled := get_built (·.trayEnabled) Call.trayEnabled fun _ call => by cases call <;> rfl
  logLevel := get_built (·.logLevel) Call.logLevel fun _ call => by cases call <;> rfl
  serviceName := resolvedName_built
  lazyStart := get_built (·.lazyStart) Call.lazyStart fun _ call => by cases call <;> rfl
  maxRequestBytes :=
    get_built (·.maxRequestBytes) Call.maxRequestBytes fun _ call => by cases call <;> rfl
  requestTimeout :=
    get_built (·.requestTimeout) Call.requestTimeout fun _ call => by cases call <;> rfl
  restartBackoff :=
    get_built (·.restartBackoff) Call.restartBackoff fun _ call => by cases call <;> rfl
  restartBackoffMax :=
    get_built (·.restartBackoffMax) Call.restartBackoffMax fun _ call => by cases call <;> rfl
  maxRestarts := get_built (·.maxRestarts) Call.maxRestarts fun _ call => by cases call <;> rfl
  statusFile :=
    get_built_of_none (·.statusFile) Call.statusFile (fun _ call => by cases call <;> rfl) rfl
  heartbeatInterval := eq_getD_lastSet_iff.2 h.heartbeatInterval
  heartbeatTimeout := eq_getD_lastSet_iff.2 h.heartbeatTimeout
  heartbeatMaxFailures := eq_getD_lastSet_iff.2 h.heartbeatMaxFailures
  heartbeatEnabled := eq_getD_lastSet_iff.2 fun enabled hlast =>
    Bool.eq_true_of_not_eq_false fun hfalse => h.heartbeatEnabled (hfalse ▸ hlast)

theorem leavesDefaults_of_faithful
    (h : Faithful second socket cmd calls ((built second socket cmd calls).resolved second)) :
    LeavesDefaults second calls where
  env := by
    intro key value hlast
    have henv := h.env key
    rw [hlast] at henv
    cases henv
  heartbeatInterval := eq_getD_lastSet_iff.1 h.heartbeatInterval
  heartbeatTimeout := eq_getD_lastSet_iff.1 h.heartbeatTimeout
  heartbeatMaxFailures := eq_getD_lastSet_iff.1 h.heartbeatMaxFailures
  heartbeatEnabled := by
    intro hlast
    have henabled := eq_getD_lastSet_iff.1 h.heartbeatEnabled false hlast
    cases henabled

end Built

/-- **The builder is faithful** where its chain leaves the environment empty and the heartbeat
at its defaults, and nowhere else. -/
theorem faithful_iff (second : ℕ) (socket cmd : String) (calls : List Call) :
    Faithful second socket cmd calls ((built second socket cmd calls).resolved second) ↔
      LeavesDefaults second calls :=
  ⟨leavesDefaults_of_faithful, faithful_of_leavesDefaults⟩

/-- A variable that is set does not reach the child. -/
theorem not_faithful_withEnvVar : ¬ ∀ (second : ℕ) (socket cmd : String) (calls : List Call),
    Faithful second socket cmd calls ((built second socket cmd calls).resolved second) := by
  intro h
  have henv := (h 1000 "/tmp/a.sock" "npx" [.withEnvVar "API_KEY" "x"]).env "API_KEY"
  cases henv

end MuxConfig

end Config

end VcOperator
