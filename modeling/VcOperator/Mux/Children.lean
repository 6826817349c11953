import VcOperator.Mux.Helpers.ManagerMoves
import VcOperator.Mux.Locking
/-!
# The children of one mux

What the manager knows of the child it has spawned. It watches one thing,
the end of the process: so an incarnation that ends for another reason
leaves its process behind, and a reader task that ends by itself is not
noticed. `one_child_alive` and `reader_end_seen` say that these are the
only ways: where a process is always gone when the manager lets go of it
there is never more than one, and where the reader only ends behind its
process the manager always sees that it is over.
-/

namespace VcOperator

namespace Mux

variable {cfg : Config} {ok : System → Label → Prop} {s s' : System} {l : Label}

/-! ## The newest child -/

section Newest

variable {children : List Child} {f : Child → Child}

theorem getLast?_modify (k : ℕ) :
    (children.modify k f).getLast? =
      if k + 1 = children.length then children.getLast?.map f else children.getLast? := by
  rw [List.getLast?_eq_getElem?, List.getLast?_eq_getElem?, List.length_modify,
    List.getElem?_modify]
  cases hlen : children.length with
  | zero => simp [List.length_eq_zero_iff.1 hlen]
  | succ n => by_cases hk : k = n <;> simp [hk]

theorem getLast?_modify_newest :
    (children.modify (children.length - 1) f).getLast? = children.getLast?.map f := by
  rw [getLast?_modify]
  split
  · rfl
  · rename_i hne
    have hnil : children = [] := List.length_eq_zero_iff.1 (by omega)
    rw [hnil]
    rfl

theorem childAlive_eq : ManagerOp.childAlive children = (children.getLast?.any (·.alive)) := by
  unfold ManagerOp.childAlive
  cases children.getLast? <;> rfl

@[simp] theorem childAlive_writeToChild (msg : Value) :
    ManagerOp.childAlive (ManagerOp.writeToChild msg children) =
      ManagerOp.childAlive children := by
  rw [childAlive_eq, childAlive_eq, ManagerOp.writeToChild, getLast?_modify_newest]
  cases children.getLast? <;> rfl

end Newest

/-- Between two lists of children no process comes to life. -/
def NoneRevived (children children' : List Child) : Prop :=
  children'.length = children.length ∧ ∀ (k : ℕ) (ch' : Child), children'[k]? = some ch' →
    ch'.alive = true → ∃ ch, children[k]? = some ch ∧ ch.alive = true

theorem noneRevived_refl (children : List Child) : NoneRevived children children :=
  ⟨rfl, fun _ ch' hk halive => ⟨ch', hk, halive⟩⟩

theorem noneRevived_modify {children : List Child} {k : ℕ} {f : Child → Child}
    (hf : ∀ ch, (f ch).alive = true → ch.alive = true) :
    NoneRevived children (children.modify k f) := by
  refine ⟨List.length_modify .., fun j ch' hj halive => ?_⟩
  rw [List.getElem?_modify] at hj
  obtain ⟨ch, hch, heq⟩ := Option.map_eq_some_iff.1 hj
  refine ⟨ch, hch, ?_⟩
  subst heq
  split at halive
  · exact hf ch halive
  · exact halive

/-! ## One process -/

/-- Only the newest child can be alive, and only while the manager tends it. -/
def System.OneChild (s : System) : Prop :=
  ∀ (k : ℕ) (ch : Child), s.shared.children[k]? = some ch → ch.alive = true →
    k + 1 = s.shared.children.length ∧ ∃ op ∈ s.manager, op.tends = true

/-- **The condition on a step**: when the manager lets go of the process,
by aborting the wait task or by returning before it has one, the process
is gone. -/
def System.letsGoOfTheDead (s : System) : Label → Bool
  | .manager choice =>
    match s.manager, choice with
    | .cleanup _ :: _, _ => !ManagerOp.childAlive s.shared.children
    | .takePipes _ :: _, .pipeMissing => !ManagerOp.childAlive s.shared.children
    | _, _ => true
  | _ => true

theorem System.OneChild.mono (hs : s.OneChild)
    (hchildren : NoneRevived s.shared.children s'.shared.children)
    (hmanager : (∃ op ∈ s.manager, op.tends = true) → ∃ op ∈ s'.manager, op.tends = true) :
    s'.OneChild := by
  intro k ch' hk halive
  obtain ⟨ch, hch, halive'⟩ := hchildren.2 k ch' hk halive
  obtain ⟨hlast, htends⟩ := hs k ch hch halive'
  exact ⟨by rw [hchildren.1, hlast], hmanager htends⟩

/-- Children none of which can be alive are dead. -/
theorem all_dead_of_not {cs : List Child}
    (h : ∀ (k : ℕ) (ch : Child), cs[k]? = some ch → ch.alive = true → False) :
    ∀ ch ∈ cs, ch.alive = false := by
  intro ch hch
  obtain ⟨k, hk⟩ := List.mem_iff_getElem?.1 hch
  exact Bool.eq_false_iff.2 fun halive => h k ch hk halive

/-- A manager that tends no child has none alive. -/
theorem System.OneChild.all_dead (hs : s.OneChild)
    (hmanager : ∀ op ∈ s.manager, op.tends = false) :
    ∀ ch ∈ s.shared.children, ch.alive = false := by
  refine all_dead_of_not fun k ch hk halive => ?_
  obtain ⟨-, op, hop, htends⟩ := hs k ch hk halive
  rw [hmanager op hop] at htends
  cases htends

/-- With its newest child dead, no child is alive. -/
theorem System.OneChild.all_dead_of_newest (hs : s.OneChild)
    (hnewest : ManagerOp.childAlive s.shared.children = false) :
    ∀ ch ∈ s.shared.children, ch.alive = false := by
  refine all_dead_of_not fun k ch hk halive => ?_
  obtain ⟨hlast, -⟩ := hs k ch hk halive
  have hget : s.shared.children.getLast? = some ch := by
    rw [List.getLast?_eq_getElem?, ← hlast, Nat.add_sub_cancel, hk]
  rw [childAlive_eq, hget, Option.any_some, halive] at hnewest
  cases hnewest

theorem oneChild_of_all_dead (h : ∀ ch ∈ s.shared.children, ch.alive = false) : s.OneChild := by
  intro k ch hk halive
  rw [h ch (List.mem_of_getElem? hk)] at halive
  cases halive

/-- A point of the loop keeps to one process, if the process is gone where
the manager lets go of it. -/
theorem ManagerOp.Moved.oneChild {choice : Choice} {op : ManagerOp} {ops : List ManagerOp}
    (h : Moved cfg.manager s.locals s.shared choice op s'.shared ops)
    (hops : s.manager = [op]) (hops' : s'.manager = ops) (hop : op.detail = false)
    (hs : s.OneChild) (hok : s.letsGoOfTheDead (.manager choice) = true) : s'.OneChild := by
  -- at a point that tends no child all of them are dead
  have hidle : op.tends = false → ∀ ch ∈ s.shared.children, ch.alive = false := by
    intro htends
    refine hs.all_dead fun op' hop' => ?_
    rw [hops, List.mem_singleton] at hop'
    rwa [hop']
  have hmono : NoneRevived s.shared.children s'.shared.children →
      (∃ op ∈ ops, op.tends = true) → s'.OneChild := by
    intro hchildren htends
    exact hs.mono hchildren fun _ => by rwa [hops']
  have hsame : s'.shared.children = s.shared.children →
      NoneRevived s.shared.children s'.shared.children := by
    intro heq
    rw [heq]
    exact noneRevived_refl _
  generalize hsh : s'.shared = sh at h hmono hsame
  have hdead : sh.children = s.shared.children →
      (∀ ch ∈ s.shared.children, ch.alive = false) → s'.OneChild := by
    intro heq hall
    refine oneChild_of_all_dead fun ch hch => hall ch ?_
    rwa [hsh, heq] at hch
  cases h with
  | detail hdetail => rw [hop] at hdetail; cases hdetail
  | wroteFirst | lostFirst => cases hop
  | returned hreturn =>
    refine hdead rfl (hidle ?_)
    rcases hreturn with rfl | rfl | ⟨b, rfl⟩ <;> rfl
  | dropped | head | first | underLimit | published | spawnFailed | backoff | woke =>
    exact hdead rfl (hidle rfl)
  | atLimit _ haside => exact hdead haside.children (hidle rfl)
  | @spawned pid firstMsg =>
    intro k ch hk halive
    rw [hsh] at hk ⊢
    simp only at hk ⊢
    rw [List.getElem?_append] at hk
    split at hk
    · rw [hidle rfl ch (List.mem_of_getElem? hk)] at halive
      cases halive
    · have hlt := (List.getElem?_eq_some_iff.1 hk).1
      simp only [List.length_singleton] at hlt
      refine ⟨by simp only [List.length_append, List.length_singleton]; omega, ?_⟩
      rw [hops']
      exact ⟨.takePipes firstMsg, by simp, rfl⟩
  | pipeMissing =>
    have hnewest : childAlive s.shared.children = false := by
      simpa [System.letsGoOfTheDead, hops] using hok
    exact hdead rfl (hs.all_dead_of_newest hnewest)
  | cleanup =>
    have hnewest : childAlive s.shared.children = false := by
      simpa [System.letsGoOfTheDead, hops] using hok
    exact hdead rfl (hs.all_dead_of_newest hnewest)
  | piped => exact hmono (noneRevived_modify fun _ h => h) ⟨.writeLoop, by simp, rfl⟩
  | wrote => exact hmono (noneRevived_modify fun _ h => h) ⟨.writeLoop, by simp, rfl⟩
  | loop => exact hmono (hsame rfl) ⟨.select, by simp, rfl⟩
  | @received msg => exact hmono (hsame rfl) ⟨.writeMessage msg, by simp, rfl⟩
  | halted => exact hmono (hsame rfl) ⟨.cleanup true, by simp, rfl⟩
  | lost => exact hmono (hsame rfl) ⟨.cleanup true, by simp, rfl⟩
  | @left _ b _ _ _ haside =>
    exact hmono (hsame haside.children) ⟨.cleanup b, by simp, rfl⟩

/-- A detail revives no process. -/
theorem ManagerOp.Moved.noneRevived {choice : Choice} {op : ManagerOp} {ops : List ManagerOp}
    {mcfg : ManagerConfig} {loc : ManagerLocals} {sh sh' : Shared}
    (h : Moved mcfg loc sh choice op sh' ops) (hop : op.detail = true) :
    NoneRevived sh.children sh'.children := by
  cases h with
  | detail hdetail haside =>
    rw [haside.children]
    exact noneRevived_refl _
  | wroteFirst => exact noneRevived_modify fun _ h => h
  | lostFirst => exact noneRevived_refl _
  | returned hreturn => rcases hreturn with rfl | rfl | ⟨b, rfl⟩ <;> cases hop
  | dropped | head | first | underLimit | atLimit | published | spawned | spawnFailed | piped
  | pipeMissing | loop | halted | received | left | wrote | lost | cleanup | backoff | woke =>
    cases hop

theorem Stepped.oneChild (h : Stepped cfg s l s') (hshaped : s.Shaped) (hs : s.OneChild)
    (hok : s.letsGoOfTheDead l = true) : s'.OneChild := by
  rcases h.manager_cases with ⟨choice, op, rest, ops, rfl, hops, -, hops', hmoved⟩ | ⟨heq, hl⟩
  · rcases hshaped.head_rest hops with ⟨hdetail, -⟩ | ⟨hpoint, rfl⟩
    · refine hs.mono (hmoved.noneRevived hdetail) ?_
      rw [hops, hops', hmoved.eq_nil hdetail, List.nil_append]
      rintro ⟨op', hop', htends⟩
      rcases List.mem_cons.1 hop' with rfl | hop'
      · rw [ManagerOp.detail_of_tends htends] at hdetail
        cases hdetail
      · exact ⟨op', hop', htends⟩
    · exact hmoved.oneChild hops (by rw [hops', List.append_nil]) hpoint hs hok
  · refine hs.mono ?_ (by rw [heq]; exact id)
    rcases h.children hl with heq | ⟨k, -, rfl⟩ | ⟨k, -, rfl⟩
    · rw [heq]
      exact noneRevived_refl _
    · exact noneRevived_modify fun _ h => h
    · exact noneRevived_modify fun _ h => by cases h

theorem Reachable.oneChild (h : Reachable cfg (fun s l => s.letsGoOfTheDead l = true) s) :
    s.OneChild :=
  h.invariant_of (fun _ hr => Reachable.shaped hr) (fun _ _ hk => by simp [System.init] at hk)
    fun _ _ _ hok hshaped hs hstep => (stepped_of_step hstep).oneChild hshaped hs hok

/-- A process is spawned by this step. -/
def Spawns (s s' : System) : Prop := s.shared.children.length < s'.shared.children.length

/-- No step but the manager's `spawn` does. -/
theorem Stepped.manager_of_spawns (h : Stepped cfg s l s') (hspawns : Spawns s s') :
    ∃ firstMsg rest, s.manager = .spawn firstMsg :: rest := by
  unfold Spawns at hspawns
  rcases h.manager_cases with ⟨choice, op, rest, ops, -, hops, -, -, hmoved⟩ | ⟨-, hl⟩
  · generalize s'.shared = sh at hmoved hspawns
    cases hmoved with
    | @spawned pid firstMsg => exact ⟨firstMsg, rest, hops⟩
    | detail _ haside | left _ _ haside => rw [haside.children] at hspawns; omega
    | atLimit _ haside => rw [haside.children] at hspawns; exact absurd hspawns (lt_irrefl _)
    | piped | wroteFirst | wrote =>
      simp only [ManagerOp.startReader, ManagerOp.writeToChild, List.length_modify] at hspawns
      omega
    | returned | dropped | head | first | underLimit | published | spawnFailed | pipeMissing
    | lostFirst | loop | halted | received | lost | cleanup | backoff | woke =>
      exact absurd hspawns (lt_irrefl _)
  · rcases h.children hl with heq | ⟨k, -, rfl⟩ | ⟨k, -, rfl⟩
    · rw [heq] at hspawns; omega
    · simp only [System.updateChild, List.length_modify] at hspawns; omega
    · simp only [System.updateChild, List.length_modify] at hspawns; omega

/-- **One child process per service**, where the manager only lets go of a
process that is gone: when a child is spawned no earlier one is alive, and
none is alive when `server_manager` has returned. -/
theorem one_child_alive (cfg : Config) (s : System)
    (h : Reachable cfg (fun s l => s.letsGoOfTheDead l = true) s) :
    (∀ l s', s.step cfg l = some s' → Spawns s s' →
      ∀ ch ∈ s.shared.children, ch.alive = false) ∧
    (s.manager = [] → ∀ ch ∈ s.shared.children, ch.alive = false) := by
  constructor
  · intro l s' hstep hspawns
    obtain ⟨firstMsg, rest, hops⟩ := (stepped_of_step hstep).manager_of_spawns hspawns
    have hrest : rest = [] := (Reachable.shaped h).rest_eq_nil hops rfl
    refine h.oneChild.all_dead fun op hop => ?_
    rw [hops, hrest, List.mem_singleton] at hop
    rw [hop]
    rfl
  · intro hreturned
    refine h.oneChild.all_dead fun op hop => ?_
    rw [hreturned] at hop
    cases hop

/-- From the cleanup to the next spawn. -/
def cleanupRun : List Label :=
  [.manager .go, .manager .go, .manager .go, .manager .go, .manager .go, .elapse 1000,
    .manager .go, .manager .go, .manager .go]

/-- The child exits, and the manager comes to the spawn of the next one. -/
def exitedRun : List Label :=
  startRun ++ [Label.childExits 0, .manager .childExited, .manager .go] ++ cleanupRun

/-- That spawn is one, and the first child is dead there. -/
theorem one_child_alive_exitedRun :
    Spawns (Config.small.after exitedRun)
        (Config.small.after (exitedRun ++ [.manager (.spawned 2)])) ∧
      ∀ ch ∈ (Config.small.after exitedRun).shared.children, ch.alive = false := by
  have hruns : Config.small.runs exitedRun = true := by decide +kernel
  have hruns' : Config.small.runs (exitedRun ++ [.manager (.spawned 2)]) = true := by
    decide +kernel
  have hspawns : Spawns (Config.small.after exitedRun)
      (Config.small.after (exitedRun ++ [.manager (.spawned 2)])) := by
    unfold Spawns
    decide +kernel
  have hreach := Config.small.reachable_of_meets System.letsGoOfTheDead hruns
    (by decide +kernel)
  exact ⟨hspawns, (one_child_alive .small _ hreach).1 _ _
    (Config.small.step_after hruns hruns') hspawns⟩

/-- A client completes the handshake, and then the child answers no probe
of the inspector: three of them fail, and it asks for a restart. -/
def hungRun : List Label :=
  startRun ++ handshakeRun ++
  (List.replicate 3 [Label.heartbeatTick, .heartbeat, .heartbeat, .elapse 30000, .heartbeat,
    .heartbeat, .heartbeat, .heartbeat]).flatten ++
  [Label.manager .heartbeatRestart, .manager .go, .manager .go] ++ cleanupRun

/-- **A hung child survives its restart**: the next one is spawned beside it. -/
theorem not_one_child_alive_hungRun : ¬ ∀ (cfg : Config) (s : System),
    Reachable cfg Run.Any s →
    (∀ l s', s.step cfg l = some s' → Spawns s s' →
      ∀ ch ∈ s.shared.children, ch.alive = false) ∧
    (s.manager = [] → ∀ ch ∈ s.shared.children, ch.alive = false) := by
  intro hall
  have hruns : Config.small.runs hungRun = true := by decide +kernel
  have hruns' : Config.small.runs (hungRun ++ [.manager (.spawned 2)]) = true := by decide +kernel
  have hspawns : Spawns (Config.small.after hungRun)
      (Config.small.after (hungRun ++ [.manager (.spawned 2)])) := by
    unfold Spawns
    decide +kernel
  have hdead := (hall .small _ (Config.small.reachable_after hruns)).1 _ _
    (Config.small.step_after hruns hruns') hspawns
  have halive : ∃ ch ∈ (Config.small.after hungRun).shared.children, ch.alive = true := by
    decide +kernel
  obtain ⟨ch, hch, halive⟩ := halive
  rw [hdead ch hch] at halive
  cases halive

end Mux

end VcOperator
