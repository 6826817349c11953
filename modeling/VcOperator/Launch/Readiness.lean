import VcOperator.Common.Names
import VcOperator.Launch.Model.Action
/-!
# Who is put under the readiness deadline

The probe of a launch is recovered from its arguments. A launch of the
terminal multiplexer with a named session is recognised by its flags, but so
is every command that has one of them for another reason: the resumption of
an agent, and a text that is a flag.
-/

namespace VcOperator

namespace Launch

variable {host : Host} {args : List OsString} {flag : String}

/-- What the console launches. -/
inductive Invocation where
  | launch (deck : OsString) (request : LaunchRequest)
  | deep (app : App) (action : DeepAction)

/-- Its command, where there is one. -/
def Invocation.command (host : Host) : Invocation → Option LaunchCommand
  | .launch deck request => some (buildLaunchCommand host deck request)
  | .deep app action => deepControlCommand host app action

/-- A session of the terminal multiplexer. -/
structure Session where
  program : OsString
  name : String
  configDir : Option OsString

/-- The named session that is opened. -/
def Invocation.session (host : Host) : Invocation → Option Session
  | .launch _ request =>
    match request.runtime with
    | .headless => none
    | .terminal | .visible => request.sessionName.map fun name =>
      { program := request.terminalBinary.getD (.ofString "zellij")
        name := name
        configDir := resolvedZellijConfigDir host request.root }
  | .deep .. => none

/-- **Only sessions are put under the deadline.** -/
structure Supervised (host : Host) (invocation : Invocation) : Prop where
  /-- A launch that is probed opens a session, and this session is what the probe looks for. -/
  probed : ∀ command ∈ invocation.command host, ∀ probe ∈ command.readinessProbe,
    ∃ session ∈ invocation.session host, command.program = session.program ∧
      probe = ⟨session.program, probeArgs session.configDir, command.env, session.name⟩
  /-- Only a launch that opens a session is killed at the deadline. -/
  killed : ∀ command ∈ invocation.command host, ∀ ticks finish,
    (waitForInteractiveLaunch command ticks finish).killed = true →
      (invocation.session host).isSome = true

/-- **No text of a launch is taken for a flag**, and no agent is resumed. -/
def flagsApart (host : Host) : Invocation → Bool
  | .launch _ request =>
    match request.runtime with
    | .headless =>
      (request.kind = .research || request.agent ≠ "--session") && request.prompt ≠ "--session"
    | .terminal | .visible =>
      let configDir := resolvedZellijConfigDir host request.root
      match request.sessionName with
      | some name => name ≠ "--config-dir" || configDir = some (.ofString "options")
      | none => configDir ≠ some (.ofString "--session")
  | .deep _ (.resumeSession ..) => false
  | .deep _ (.skillLaunch skill ..) => commandSkill skill ≠ "--session"
  | .deep .. => true

/-! ## The value of a flag -/

@[simp] theorem flagValue_cons_cons (flag : String) (first second : OsString)
    (args : List OsString) :
    flagValue flag (first :: second :: args) =
      if first = .ofString flag then some second else flagValue flag (second :: args) := rfl

@[simp] theorem flagValue_singleton (flag : String) (last : OsString) :
    flagValue flag [last] = none := rfl

/-- A flag has a value where something comes after it. -/
theorem flagValue_eq_none_iff : flagValue flag args = none ↔ .ofString flag ∉ args.dropLast := by
  induction args with
  | nil => simp [flagValue]
  | cons first args ih =>
    cases args with
    | nil => simp
    | cons second args =>
      rw [flagValue_cons_cons, List.dropLast_cons_cons, List.mem_cons]
      split_ifs with hfirst
      · simp [hfirst]
      · rw [ih]
        exact ⟨fun h => not_or.2 ⟨fun heq => hfirst heq.symm, h⟩, fun h => (not_or.1 h).2⟩

theorem readinessProbe_eq_none_iff {command : LaunchCommand} :
    command.readinessProbe = none ↔ flagValue "--session" command.args = none := by
  rw [LaunchCommand.readinessProbe]
  cases flagValue "--session" command.args <;> simp

/-! ## Who is probed -/

theorem readinessProbe_ne_none_of_killed {command : LaunchCommand} {ticks : List Tick}
    {finish : Except String Output}
    (h : (waitForInteractiveLaunch command ticks finish).killed = true) :
    command.readinessProbe ≠ none := by
  intro hnone
  rw [waitForInteractiveLaunch, hnone] at h
  cases h

/-- A launch that opens no session is to have no probe. -/
theorem supervised_iff_of_session_none {invocation : Invocation}
    (h : invocation.session host = none) :
    Supervised host invocation ↔ ∀ command ∈ invocation.command host,
      flagValue "--session" command.args = none := by
  constructor
  · intro hsup command hcommand
    rw [← readinessProbe_eq_none_iff, Option.eq_none_iff_forall_not_mem]
    intro probe hprobe
    obtain ⟨session, hsession, -⟩ := hsup.probed command hcommand probe hprobe
    rw [h] at hsession
    cases hsession
  · intro hnone
    refine { probed := fun command hcommand probe hprobe => ?_
             killed := fun command hcommand ticks finish hkill => ?_ }
    · rw [readinessProbe_eq_none_iff.2 (hnone command hcommand)] at hprobe
      cases hprobe
    · exact absurd (readinessProbe_eq_none_iff.2 (hnone command hcommand))
        (readinessProbe_ne_none_of_killed hkill)

/-! ## The deck -/

theorem mem_promptArgs {prompt : String} :
    .ofString "--session" ∈ promptArgs prompt ↔ prompt = "--session" := by
  rw [promptArgs]
  split_ifs with hblank
  · refine iff_of_false List.not_mem_nil ?_
    rintro rfl
    exact absurd hblank (by decide)
  · simp [eq_comm]

/-- A number is no flag. -/
theorem session_ne_repr (n : ℕ) : "--session" ≠ n.repr := by
  intro h
  have hdash : '-' ∈ (toString n).toList := by
    rw [Nat.toString_eq_repr, ← h]
    decide
  exact notMem_toString rfl n hdash

theorem mem_kindArgs {request : LaunchRequest} :
    .ofString "--session" ∈ kindArgs request ↔
      request.kind ≠ .research ∧ request.agent = "--session" ∨ request.prompt = "--session" := by
  rw [kindArgs]
  cases request.kind <;> simp [mem_promptArgs, session_ne_repr, eq_comm (b := "--session")]

/-- **A text of the deck is taken for the flag** where something comes after it. -/
theorem flagValue_deck (deck : OsString) {request : LaunchRequest}
    (hruntime : request.runtime = .headless) :
    flagValue "--session" (buildDeckLaunchCommand deck request).args = none ↔
      (request.kind = .research ∨ request.agent ≠ "--session") ∧ request.prompt ≠ "--session" := by
  have hlabel : "--session" ≠ request.kind.label := by cases request.kind <;> decide
  have hargs : .ofString "--session" ∈ (buildDeckLaunchCommand deck request).args.dropLast ↔
      .ofString "--session" ∈ kindArgs request := by
    rw [buildDeckLaunchCommand, hruntime]
    cases request.root with
    | none =>
      rw [List.append_nil, List.dropLast_append_cons, List.dropLast_cons_cons]
      simp [hlabel]
    | some root =>
      rw [List.dropLast_append_cons, List.dropLast_cons_cons]
      simp [hlabel, LaunchRuntime.label]
  rw [flagValue_eq_none_iff, hargs, mem_kindArgs]
  tauto

/-! ## Each invocation -/

theorem supervised_iff_deck (deck : OsString) {request : LaunchRequest}
    (hruntime : request.runtime = .headless) :
    Supervised host (.launch deck request) ↔ flagsApart host (.launch deck request) = true := by
  have hsession : (Invocation.launch deck request).session host = none := by
    rw [Invocation.session, hruntime]
  have hcommand : (Invocation.launch deck request).command host =
      some (buildDeckLaunchCommand deck request) := by
    rw [Invocation.command, buildLaunchCommand, hruntime]
  rw [supervised_iff_of_session_none hsession, hcommand, flagsApart, hruntime]
  simpa using flagValue_deck deck hruntime

/-! ## The terminal multiplexer -/

section Terminal

variable {deck : OsString} {request : LaunchRequest}

theorem command_terminal (h : request.runtime ≠ .headless) :
    (Invocation.launch deck request).command host =
      some (buildTerminalLaunchCommand host deck request) := by
  rw [Invocation.command, buildLaunchCommand]
  split
  · rfl
  · rfl
  · rename_i hruntime
    exact absurd hruntime h

theorem session_terminal (h : request.runtime ≠ .headless) :
    (Invocation.launch deck request).session host =
      request.sessionName.map fun name =>
        { program := request.terminalBinary.getD (.ofString "zellij")
          name := name
          configDir := resolvedZellijConfigDir host request.root } := by
  rw [Invocation.session]
  split
  · rename_i hruntime
    exact absurd hruntime h
  · rfl
  · rfl

theorem flagsApart_terminal (h : request.runtime ≠ .headless) :
    flagsApart host (.launch deck request) =
      match request.sessionName with
      | some name =>
        name ≠ "--config-dir" ||
          resolvedZellijConfigDir host request.root = some (.ofString "options")
      | none => resolvedZellijConfigDir host request.root ≠ some (.ofString "--session") := by
  rw [flagsApart]
  split
  · rename_i hruntime
    exact absurd hruntime h
  · rfl
  · rfl

/-- **Without a named session** only a config dir is taken for the flag. -/
theorem flagValue_unnamed (hname : request.sessionName = none) :
    flagValue "--session" (buildTerminalLaunchCommand host deck request).args = none ↔
      resolvedZellijConfigDir host request.root ≠ some (.ofString "--session") := by
  rw [buildTerminalLaunchCommand, hname]
  cases resolvedZellijConfigDir host request.root <;> simp

/-- **With a named session** that is what is probed. -/
theorem flagValue_named {name : String} (hname : request.sessionName = some name) :
    flagValue "--session" (buildTerminalLaunchCommand host deck request).args =
      some (.ofString name) := by
  rw [buildTerminalLaunchCommand, hname]
  rfl

/-- The config dir that is probed: another one, where the name is the flag. -/
theorem flagValue_configDir {name : String} (hname : request.sessionName = some name) :
    flagValue "--config-dir" (buildTerminalLaunchCommand host deck request).args =
      if name = "--config-dir" then some (.ofString "options")
      else resolvedZellijConfigDir host request.root := by
  rw [buildTerminalLaunchCommand, hname]
  cases resolvedZellijConfigDir host request.root <;> simp

theorem supervised_iff_unnamed (h : request.runtime ≠ .headless)
    (hname : request.sessionName = none) :
    Supervised host (.launch deck request) ↔ flagsApart host (.launch deck request) = true := by
  have hsession : (Invocation.launch deck request).session host = none := by
    rw [session_terminal h, hname]
    rfl
  rw [supervised_iff_of_session_none hsession, command_terminal h, flagsApart_terminal h, hname]
  simpa using flagValue_unnamed hname

theorem probeArgs_injective {dir dir' : Option OsString} (h : probeArgs dir = probeArgs dir') :
    dir = dir' := by
  cases dir <;> cases dir' <;> simp_all [probeArgs]

theorem supervised_iff_named (h : request.runtime ≠ .headless) {name : String}
    (hname : request.sessionName = some name) :
    Supervised host (.launch deck request) ↔ flagsApart host (.launch deck request) = true := by
  have hprobe : (buildTerminalLaunchCommand host deck request).readinessProbe = some {
      program := request.terminalBinary.getD (.ofString "zellij")
      args := probeArgs (if name = "--config-dir" then some (.ofString "options")
        else resolvedZellijConfigDir host request.root)
      env := request.env
      sessionName := name } := by
    rw [LaunchCommand.readinessProbe, flagValue_named hname, flagValue_configDir hname]
    simp [buildTerminalLaunchCommand]
  have hsession : (Invocation.launch deck request).session host = _ := session_terminal h
  rw [hname, Option.map_some] at hsession
  have hflags : flagsApart host (.launch deck request) = true ↔
      (if name = "--config-dir" then some (.ofString "options")
        else resolvedZellijConfigDir host request.root) =
        resolvedZellijConfigDir host request.root := by
    rw [flagsApart_terminal h, hname]
    by_cases hflag : name = "--config-dir" <;> simp [hflag, eq_comm]
  rw [hflags]
  constructor
  · intro hsup
    obtain ⟨session, hmem, -, heq⟩ := hsup.probed _ (command_terminal h) _ hprobe
    rw [hsession] at hmem
    obtain rfl := Option.some.inj hmem
    exact probeArgs_injective (congrArg LaunchReadinessProbe.args heq)
  · intro hdir
    rw [hdir] at hprobe
    refine { probed := fun command hcommand probe hmem => ?_
             killed := fun _ _ _ _ _ => by rw [hsession]; rfl }
    rw [command_terminal h] at hcommand
    obtain rfl := Option.some.inj hcommand
    rw [hprobe] at hmem
    obtain rfl := Option.some.inj hmem
    exact ⟨_, hsession, rfl, rfl⟩

end Terminal

/-! ## Deep control -/

/-- A payload comes last, and its own flags are others. -/
theorem session_notMem_payload (payload : SkillPayload) :
    .ofString "--session" ∉ payload.args.dropLast := by
  cases payload with
  | prompt text =>
    rw [SkillPayload.args, promptArgs]
    split_ifs <;> simp
  | file path => simp [SkillPayload.args]
  | none => simp [SkillPayload.args]

/-- **A skill is taken for the flag** when its command is. -/
theorem flagValue_skill {deck : OsString} {skill : String} {agent fallback : SkillAgent}
    {payload : SkillPayload} {env : Env} :
    flagValue "--session" (buildSkillLaunchCommand deck skill agent fallback payload env).args =
      none ↔ commandSkill skill ≠ "--session" := by
  have htoken : agent.resolvedCliToken fallback ≠ "--session" := by
    cases agent <;> cases fallback <;> decide
  rw [buildSkillLaunchCommand, flagValue_cons_cons]
  split_ifs with hskill <;> rw [OsString.ofString_inj] at hskill
  · simp [hskill]
  · rw [flagValue_eq_none_iff]
    refine iff_of_true ?_ hskill
    cases hargs : payload.args with
    | nil => simp
    | cons first args =>
      rw [List.dropLast_cons_cons, ← hargs, List.mem_cons, OsString.ofString_inj]
      exact not_or.2 ⟨htoken.symm, session_notMem_payload payload⟩

theorem supervised_iff_deep (app : App) (action : DeepAction) :
    Supervised host (.deep app action) ↔ flagsApart host (.deep app action) = true := by
  rw [supervised_iff_of_session_none rfl, Invocation.command]
  cases action with
  | skillLaunch skill agent payload => simp [deepControlCommand, flagsApart, flagValue_skill]
  | resumeSession agent session =>
    -- the flag is there, and the agent comes before it
    rw [deepControlCommand, flagsApart]
    simp [flagValue_eq_none_iff]
  | _ => simp [deepControlCommand, flagsApart]

/-! ## The deadline -/

/-- **When only sessions are put under the readiness deadline**: exactly when no agent is
resumed and no text of the invocation is taken for a flag. -/
theorem supervised_iff_flagsApart (host : Host) (invocation : Invocation) :
    Supervised host invocation ↔ flagsApart host invocation = true := by
  cases invocation with
  | deep app action => exact supervised_iff_deep app action
  | launch deck request =>
    by_cases hruntime : request.runtime = .headless
    · exact supervised_iff_deck deck hruntime
    · cases hname : request.sessionName with
      | none => exact supervised_iff_unnamed hruntime hname
      | some name => exact supervised_iff_named hruntime hname

/-- The resumption of an agent is killed when the deadline comes. -/
theorem not_supervised_resumeSession :
    ¬ ∀ (host : Host) (invocation : Invocation), Supervised host invocation := by
  intro h
  have hkilled := (h ⟨none, fun _ => false⟩
    (.deep ⟨.ofString "vibecrafted", .ofString "/", .ofString "/", "claude"⟩
      (.resumeSession "claude" "s"))).killed _ rfl [] (.error "")
  exact Bool.false_ne_true (hkilled (by decide))

end Launch

end VcOperator
