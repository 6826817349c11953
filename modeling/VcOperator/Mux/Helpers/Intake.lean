import VcOperator.Mux.Helpers.Pipeline
/-!
# What the child being served is told

The manager serves one child at a time: from the spawn on the newest one,
and before the first spawn the first. `System.told` is the whole of what
that child was written and of what is on the way to it, in order. A put
adds to its end; the manager moves messages along it, and may let go of
its head when it gives the child up.
-/

namespace VcOperator

namespace Mux

namespace ManagerOp

/-- The manager will write to a child: to the newest one, or, where there
is none yet, to the first. -/
def serves (first : Bool) : ManagerOp → Bool
  | loopHead | awaitFirst | checkLimit _ | spawn _ => first
  | takePipes _ | writeFirst _ | writeLoop | select | writeMessage _ => true
  | _ => false

/-- The operation comes after a spawn. -/
def afterSpawn : ManagerOp → Bool
  | takePipes _ | writeFirst _ | writeLoop | select | writeMessage _ | cleanup _ | afterReset _
  | sleep _ => true
  | _ => false

end ManagerOp

namespace System

/-- There is a child that the manager will write to. -/
def serving (s : System) : Bool := s.manager.any (ManagerOp.serves s.shared.children.isEmpty)

/-- What was written to the newest incarnation. -/
def writtenLast (s : System) : List Value := s.writtenTo (s.shared.children.length - 1)

/-- **What the child being served was told and will be told**, in order. -/
def told (s : System) : List Value := (if s.serving then s.writtenLast else []) ++ s.onTheWay

end System

variable {cfg : Config} {ok : System → Label → Prop} {s s' : System} {l : Label}

/-! ## The manager's list -/

/-- **What the manager's list says**: the first message is written on the way
to the write loop, and what comes after a spawn has a child. -/
structure System.Tended (s : System) : Prop where
  first : ∀ msg, .writeFirst msg ∈ s.manager → .writeLoop ∈ s.manager
  spawned : ∀ op ∈ s.manager, op.afterSpawn = true → s.shared.children ≠ []

/-- No incarnation is forgotten. -/
theorem ManagerOp.Moved.children_ne_nil {mcfg : ManagerConfig} {loc : ManagerLocals}
    {sh sh' : Shared} {choice : Choice} {op : ManagerOp} {ops : List ManagerOp}
    (h : Moved mcfg loc sh choice op sh' ops) (hne : sh.children ≠ []) : sh'.children ≠ [] := by
  cases h with
  | detail _ haside | atLimit _ haside | left _ _ haside => rwa [haside.children]
  | spawned => simp
  | piped | wroteFirst | wrote =>
    intro hnil
    refine hne (List.length_eq_zero_iff.1 ?_)
    rw [← List.length_modify, List.length_eq_zero_iff]
    exact hnil
  | returned | dropped | head | first | underLimit | published | spawnFailed | pipeMissing
  | lostFirst | loop | halted | received | lost | cleanup | backoff | woke => exact hne

/-- What an operation goes on with comes after a spawn only if it did, or is one. -/
theorem ManagerOp.Moved.afterSpawn {mcfg : ManagerConfig} {loc : ManagerLocals}
    {sh sh' : Shared} {choice : Choice} {op : ManagerOp} {ops : List ManagerOp}
    (h : Moved mcfg loc sh choice op sh' ops) :
    op.afterSpawn = true ∨ sh'.children ≠ [] ∨ ∀ op' ∈ ops, op'.afterSpawn = false := by
  cases h with
  | detail | returned | dropped | published | spawnFailed | pipeMissing | wroteFirst
  | lostFirst => exact .inr (.inr (by simp))
  | head hop =>
    refine .inr (.inr fun op' hop' => ?_)
    rw [List.mem_singleton.1 hop']
    rcases hop with rfl | rfl <;> rfl
  | first | underLimit | atLimit | woke =>
    exact .inr (.inr (by simp [ManagerOp.afterSpawn]))
  | spawned => exact .inr (.inl (by simp))
  | piped | loop | halted | received | left | wrote | lost | cleanup | backoff => exact .inl rfl

/-- The first message is taken in hand together with the write loop. -/
theorem ManagerOp.Moved.writeFirst {mcfg : ManagerConfig} {loc : ManagerLocals}
    {sh sh' : Shared} {choice : Choice} {op : ManagerOp} {ops : List ManagerOp} {msg : Value}
    (h : Moved mcfg loc sh choice op sh' ops) (hmem : .writeFirst msg ∈ ops) :
    .writeLoop ∈ ops := by
  cases h with
  | @piped firstMsg => exact List.mem_append_right _ (List.mem_singleton_self _)
  | detail | returned | dropped | published | spawnFailed | pipeMissing | wroteFirst
  | lostFirst => cases hmem
  | head hop => rcases hop with rfl | rfl <;> simp at hmem
  | left _ hdetails =>
    rcases List.mem_append.1 hmem with hmem | hmem
    · cases hdetails _ hmem
    · simp at hmem
  | first | underLimit | atLimit | woke | spawned | loop | halted | received | wrote | lost
  | cleanup | backoff => simp at hmem

theorem Stepped.tended (h : Stepped cfg s l s') (hshaped : s.Shaped) (hs : s.Tended) :
    s'.Tended := by
  rcases h.manager_cases with ⟨choice, op, rest, ops, -, hops, -, hops', hmoved⟩ | ⟨heq, hl⟩
  · rcases hshaped.head_rest hops with ⟨hdetail, -⟩ | ⟨-, rfl⟩
    · rw [hmoved.eq_nil hdetail, List.nil_append] at hops'
      refine ⟨fun msg hmem => ?_, fun op' hmem hafter => ?_⟩
      · rw [hops'] at hmem ⊢
        have hloop := hs.first msg (hops ▸ List.mem_cons_of_mem _ hmem)
        rw [hops] at hloop
        rcases List.mem_cons.1 hloop with rfl | hloop
        · cases hdetail
        · exact hloop
      · rw [hops'] at hmem
        exact hmoved.children_ne_nil (hs.spawned op' (hops ▸ List.mem_cons_of_mem _ hmem) hafter)
    · rw [List.append_nil] at hops'
      refine ⟨fun msg hmem => ?_, fun op' hmem hafter => ?_⟩
      · rw [hops'] at hmem ⊢
        exact hmoved.writeFirst hmem
      · rw [hops'] at hmem
        rcases hmoved.afterSpawn with hop | hne | hnone
        · exact hmoved.children_ne_nil (hs.spawned op (by simp [hops]) hop)
        · exact hne
        · rw [hnone op' hmem] at hafter
          cases hafter
  · refine ⟨heq ▸ hs.first, fun op' hmem hafter => ?_⟩
    have hne := hs.spawned op' (heq ▸ hmem) hafter
    rcases h.children hl with hsame | ⟨k, -, rfl⟩ | ⟨k, -, rfl⟩
    · rwa [hsame]
    · simpa [System.updateChild, ← List.length_pos_iff] using hne
    · simpa [System.updateChild, ← List.length_pos_iff] using hne

theorem Reachable.tended (h : Reachable cfg ok s) : s.Tended :=
  h.invariant_of (I := System.Tended) (fun _ hr => Reachable.shaped hr)
    ⟨fun msg hmem => by simp [System.init] at hmem, fun op hmem hafter => by
      rw [List.mem_singleton.1 hmem] at hafter
      cases hafter⟩
    fun _ _ _ _ hshaped hs hstep => (stepped_of_step hstep).tended hshaped hs

/-! ## The manager's steps -/

/-- **What one step of the manager does to what the child is told.** It may
let go of the head when it serves nobody any more; and it begins to serve
only with another spawn. -/
structure System.Serves (s : System) (choice : Choice) (s' : System) : Prop where
  told : s'.told = s.told ∨ s'.told <:+ s.told ∧ s'.serving = false
  serving : s'.serving = true → s.serving = true ∨ s.shared.children ≠ [] ∧
    ∃ firstMsg pid, s.manager = [.spawn firstMsg] ∧ choice = .spawned pid
  written : ∀ k, s'.writtenTo k = s.writtenTo k ∨
    s'.serving = true ∧ k + 1 = s'.shared.children.length

/-- A manager that serves nobody any more has let go of what was written. -/
theorem System.Serves.of_left {choice : Choice}
    (hto : s'.onTheWay <:+ s.onTheWay) (hserving : s'.serving = false)
    (hwritten : ∀ k, s'.writtenTo k = s.writtenTo k) : s.Serves choice s' where
  told := by
    refine .inr ⟨?_, hserving⟩
    rw [System.told, System.told, hserving]
    exact hto.trans (List.suffix_append _ _)
  serving := fun h => by rw [hserving] at h; cases h
  written := fun k => .inl (hwritten k)

/-- A manager that goes on serving, or goes on not to, tells the child the same. -/
theorem System.Serves.of_kept {choice : Choice} (hway : s'.onTheWay = s.onTheWay)
    (hserving : s'.serving = s.serving) (hwritten : ∀ k, s'.writtenTo k = s.writtenTo k)
    (hlength : s'.shared.children.length = s.shared.children.length) : s.Serves choice s' where
  told := by
    refine .inl ?_
    rw [System.told, System.told, hway, hserving, System.writtenLast, System.writtenLast, hlength,
      hwritten]
  serving := fun h => .inl (hserving ▸ h)
  written := fun k => .inl (hwritten k)

theorem writtenIn_writeToChild_newest {children : List Child} (hne : children ≠ []) (msg : Value) :
    writtenIn (ManagerOp.writeToChild msg children) (children.length - 1) =
      writtenIn children (children.length - 1) ++ [msg] := by
  have hlt : children.length - 1 < children.length :=
    Nat.sub_one_lt fun hlen => hne (List.length_eq_zero_iff.1 hlen)
  simp [writtenIn, ManagerOp.writeToChild, List.getElem?_eq_getElem hlt]

/-- A message in hand is written. -/
theorem System.Serves.of_wrote {choice : Choice} {msg : Value}
    (hway : s.onTheWay = msg :: s'.onTheWay) (hserving : s.serving = true)
    (hserving' : s'.serving = true) (hne : s.shared.children ≠ [])
    (hchildren : s'.shared.children = ManagerOp.writeToChild msg s.shared.children) :
    s.Serves choice s' where
  told := by
    refine .inl ?_
    have hlast : s'.writtenLast = s.writtenLast ++ [msg] := by
      rw [System.writtenLast, System.writtenLast, System.writtenTo, System.writtenTo, hchildren,
        ManagerOp.writeToChild, List.length_modify, ← ManagerOp.writeToChild,
        writtenIn_writeToChild_newest hne]
    rw [System.told, System.told, hserving, hserving', if_pos rfl, if_pos rfl, hlast, hway,
      List.append_assoc, List.singleton_append]
  serving := fun _ => .inl hserving
  written := fun k => by
    rcases writtenIn_writeToChild msg s.shared.children k with hsame | ⟨-, hk⟩
    · exact .inl (by rw [System.writtenTo, System.writtenTo, hchildren, hsame])
    · exact .inr ⟨hserving', by rw [hchildren, hk, ManagerOp.writeToChild, List.length_modify]⟩

/-- The details on the way to the next point of the loop. -/
theorem serves_of_detail {choice : Choice} {op : ManagerOp} {rest ops : List ManagerOp}
    {loc : ManagerLocals} {sh : Shared} (hops : s.manager = op :: rest) (hop : op.detail = true)
    (ht : s.Tended) (hfirst : ∀ msg e, op = .writeFirst msg → choice ≠ .writeFailed e)
    (hrun : op.run cfg.manager choice s.locals s.shared = some (loc, sh, ops)) :
    s.Serves choice { s with locals := loc, shared := sh, manager := ops ++ rest } := by
  by_cases hwrites : ∃ msg, op = .writeFirst msg
  · obtain ⟨msg, rfl⟩ := hwrites
    simp only [ManagerOp.run] at hrun
    split at hrun
    · cases hrun
      have hloop : .writeLoop ∈ rest := by
        have hmem := ht.first msg (by simp [hops])
        simpa [hops] using hmem
      refine .of_wrote ?_ ?_ ?_ (ht.spawned (.writeFirst msg) (by simp [hops]) rfl) rfl
      · simp [System.onTheWay, hops, ManagerOp.inHand]
      · simp [System.serving, hops, ManagerOp.serves]
      · exact List.any_eq_true.2 ⟨.writeLoop, hloop, rfl⟩
    · exact absurd rfl (hfirst msg _ rfl)
    · cases hrun
  · have hmoved := ManagerOp.moved_run hrun
    have hnil : ops = [] := hmoved.eq_nil hop
    have haside : ManagerOp.Aside s.shared sh := by
      cases hmoved with
      | detail _ haside => exact haside
      | wroteFirst | lostFirst => exact absurd ⟨_, rfl⟩ hwrites
      | returned hreturn => rcases hreturn with rfl | rfl | ⟨b, rfl⟩ <;> cases hop
      | _ => cases hop
    have hnone : op.inHand = [] ∧ op.serves s.shared.children.isEmpty = false := by
      cases op with
      | writeFirst msg => exact absurd ⟨msg, rfl⟩ hwrites
      | markRunning _ | markFailed _ _ | resetFields _ | updateQueueDepth | publishStatus =>
        exact ⟨rfl, rfl⟩
      | _ => cases hop
    refine .of_kept ?_ ?_ (fun k => ?_) (congrArg List.length haside.children)
    · simp [System.onTheWay, hops, hnil, hnone.1, haside.toServer]
    · simp [System.serving, hops, hnil, hnone.2, haside.children]
    · exact congrArg (writtenIn · k) haside.children

theorem serves_of_point {choice : Choice} {op : ManagerOp} {ops : List ManagerOp}
    {loc : ManagerLocals} {sh : Shared} (hops : s.manager = [op]) (hop : op.detail = false)
    (ht : s.Tended) (h : ManagerOp.Moved cfg.manager s.locals s.shared choice op sh ops) :
    s.Serves choice { s with locals := loc, shared := sh, manager := ops } := by
  have hway : s.onTheWay = op.inHand ++ s.shared.toServer := by simp [System.onTheWay, hops]
  have hserving : s.serving = op.serves s.shared.children.isEmpty := by
    simp [System.serving, hops]
  have hspawned := ht.spawned op (by simp [hops])
  cases h with
  | detail hdetail => rw [hop] at hdetail; cases hdetail
  | wroteFirst | lostFirst => cases hop
  | returned | spawnFailed | pipeMissing =>
    refine .of_left ?_ rfl fun _ => rfl
    rw [hway]
    exact List.suffix_append _ _
  | dropped hmsg =>
    refine .of_left ?_ rfl fun _ => rfl
    rw [hway, hmsg]
    exact (List.suffix_cons _ _).trans (List.suffix_append _ _)
  | head hhead =>
    refine .of_kept ?_ ?_ (fun _ => rfl) rfl
    · rcases hhead with rfl | rfl <;> simp [System.onTheWay, hops, ManagerOp.inHand]
    · rcases hhead with rfl | rfl <;> simp [System.serving, hops, ManagerOp.serves]
  | first hmsg =>
    refine .of_kept ?_ ?_ (fun _ => rfl) rfl
    · simp [System.onTheWay, hops, hmsg, ManagerOp.inHand]
    · simp [System.serving, hops, ManagerOp.serves]
  | underLimit | cleanup | backoff | published =>
    refine .of_kept ?_ ?_ (fun _ => rfl) rfl
    · simp [System.onTheWay, hops, ManagerOp.inHand, Shared.publishStatus]
    · simp [System.serving, hops, ManagerOp.serves]
  | atLimit hlimit haside =>
    refine .of_left ?_ rfl fun k => congrArg (writtenIn · k) haside.children
    rw [hway]
    change sh.toServer <:+ _
    rw [haside.toServer]
    exact List.suffix_append _ _
  | @spawned pid firstMsg =>
    -- the new child was written nothing
    have hnew : writtenIn (s.shared.children ++ [⟨pid, true, [], false⟩]) s.shared.children.length =
        [] := by simp [writtenIn]
    refine ⟨.inl ?_, fun _ => ?_, fun k => .inl (writtenIn_append _ pid k)⟩
    · have hlast : s.serving = true → s.writtenLast = [] := by
        intro hserves
        rw [hserving, ManagerOp.serves, List.isEmpty_iff] at hserves
        simp [System.writtenLast, System.writtenTo, writtenIn, hserves]
      have hold : s.told = s.onTheWay := by
        rw [System.told]
        split
        · rw [hlast ‹_›, List.nil_append]
        · rfl
      rw [hold, hway]
      simp [System.told, System.serving, System.writtenLast, System.writtenTo, System.onTheWay,
        ManagerOp.serves, ManagerOp.inHand, hnew]
    · by_cases hempty : s.shared.children = []
      · exact .inl (by simp [hserving, ManagerOp.serves, hempty])
      · exact .inr ⟨hempty, firstMsg, pid, hops, rfl⟩
  | @piped firstMsg =>
    have hreader : ∀ ch : Child, ({ ch with reading := true } : Child).written = ch.written :=
      fun _ => rfl
    refine .of_kept ?_ ?_ (fun k => writtenIn_modify hreader k) (List.length_modify ..)
    · cases firstMsg <;> simp [System.onTheWay, hops, ManagerOp.inHand]
    · cases firstMsg <;> simp [System.serving, hops, ManagerOp.serves]
  | loop =>
    refine .of_kept ?_ ?_ (fun _ => rfl) rfl
    · simp [System.onTheWay, hops, ManagerOp.inHand]
    · simp [System.serving, hops, ManagerOp.serves]
  | halted | lost =>
    refine .of_left ?_ rfl fun _ => rfl
    rw [hway]
    exact List.suffix_append _ _
  | received hmsg =>
    refine .of_kept ?_ ?_ (fun _ => rfl) rfl
    · simp [System.onTheWay, hops, hmsg, ManagerOp.inHand]
    · simp [System.serving, hops, ManagerOp.serves]
  | @left _ b _ details hdetails haside =>
    have hnone : ∀ op ∈ details, op.inHand = [] ∧ op.serves sh.children.isEmpty = false := by
      intro op hop
      have hreports := hdetails op hop
      cases op with
      | markFailed _ _ | updateQueueDepth | publishStatus => exact ⟨rfl, rfl⟩
      | _ => cases hreports
    refine .of_left ?_ ?_ fun k => congrArg (writtenIn · k) haside.children
    · have hhands : (details ++ [ManagerOp.cleanup b]).flatMap ManagerOp.inHand = [] := by
        rw [List.flatMap_append, List.flatMap_eq_nil_iff.2 fun op hop => (hnone op hop).1]
        rfl
      rw [hway, System.onTheWay]
      change (details ++ [ManagerOp.cleanup b]).flatMap ManagerOp.inHand ++ sh.toServer <:+ _
      rw [hhands, haside.toServer]
      exact List.suffix_append _ _
    · rw [System.serving, List.any_append, Bool.or_eq_false_iff]
      exact ⟨List.any_eq_false.2 fun op hop => by simp [(hnone op hop).2], rfl⟩
  | @wrote msg =>
    refine .of_wrote ?_ hserving rfl (hspawned rfl) rfl
    simp [System.onTheWay, hops, ManagerOp.inHand]
  | woke =>
    have hne : s.shared.children ≠ [] := hspawned rfl
    refine .of_kept ?_ ?_ (fun _ => rfl) rfl
    · simp [System.onTheWay, hops, ManagerOp.inHand]
    · simp [System.serving, hops, ManagerOp.serves, hne]

theorem serves_of_step {choice : Choice} (hshaped : s.Shaped) (ht : s.Tended)
    (hfirst : ∀ msg rest e, s.manager = .writeFirst msg :: rest → choice ≠ .writeFailed e)
    (hstep : s.step cfg (.manager choice) = some s') : s.Serves choice s' := by
  cases stepped_of_step hstep with
  | @manager _ op rest ops loc sh hops hlock hrun =>
    rcases hshaped.head_rest hops with ⟨hdetail, -⟩ | ⟨hpoint, rfl⟩
    · exact serves_of_detail hops hdetail ht (fun msg e he => hfirst msg rest e (he ▸ hops)) hrun
    · rw [List.append_nil]
      exact serves_of_point hops hpoint ht (ManagerOp.moved_run hrun)

/-! ## The steps of the other tasks -/

/-- **A step of another task** writes nothing, and what it puts on the queue
is what the child is told last. -/
theorem Stepped.told_append (h : Stepped cfg s l s') (hl : ∀ choice, l ≠ .manager choice)
    {puts : List Value} (hto : s'.shared.toServer = s.shared.toServer ++ puts) :
    s'.told = s.told ++ puts ∧ s'.serving = s.serving ∧ ∀ k, s'.writtenTo k = s.writtenTo k := by
  have hmanager := h.manager_eq hl
  have hchildren : s'.shared.children.length = s.shared.children.length ∧
      ∀ k, s'.writtenTo k = s.writtenTo k := by
    rcases h.children hl with hsame | ⟨k, -, rfl⟩ | ⟨k, -, rfl⟩
    · exact ⟨congrArg List.length hsame, fun k => congrArg (writtenIn · k) hsame⟩
    · exact ⟨List.length_modify .., fun j => writtenIn_modify (by intro; rfl) j⟩
    · exact ⟨List.length_modify .., fun j => writtenIn_modify (by intro; rfl) j⟩
  obtain ⟨hlength, hwritten⟩ := hchildren
  have hempty : s'.shared.children.isEmpty = s.shared.children.isEmpty := by
    rw [Bool.eq_iff_iff, List.isEmpty_iff_length_eq_zero, List.isEmpty_iff_length_eq_zero, hlength]
  have hserving : s'.serving = s.serving := by
    rw [System.serving, System.serving, hmanager, hempty]
  refine ⟨?_, hserving, hwritten⟩
  rw [System.told, System.told, hserving, System.onTheWay, System.onTheWay, hmanager, hto,
    System.writtenLast, System.writtenLast, hlength, hwritten]
  simp only [List.append_assoc]

end Mux

end VcOperator
