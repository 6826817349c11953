import VcOperator.Common.Correspond
import VcOperator.Config.Model.Params
/-!
# Several services, one command line

In multi-service mode every server of the config is resolved with the same
command line, and what that gives overrides the server's own entry. So the
services keep apart as long as it gives nothing they would have to share:
`keepsApart_iff` has the exact condition. Main takes a `--socket` for
single-service mode, but not beside `--only` or `--except`.
-/

namespace VcOperator

namespace Config

variable {home : Option String} {cli : CliOptions} {config : DaemonConfig} {name : String}
  {s t : ServerConfig} {p q : ResolvedParams} {params : List ResolvedParams}
  {order : List String}

/-! ## Services that are kept apart -/

/-- **Two services are apart**: they share no socket, no name and no status file. -/
structure ResolvedParams.Apart (p q : ResolvedParams) : Prop where
  socket : components p.socket ≠ components q.socket
  serviceName : p.serviceName ≠ q.serviceName
  statusFile : ∀ f g, p.statusFile = some f → q.statusFile = some g → components f ≠ components g

/-- The parameters run the command of the server's own entry. -/
def ServerConfig.RunBy (s : ServerConfig) (p : ResolvedParams) : Prop :=
  s.cmd = some p.cmd ∧ s.args.getD [] = p.args

/-- **The services keep apart**: there is one parameter set for each server that is selected,
with that server's own command, and any two are apart. -/
structure KeepsApart (cli : CliOptions) (config : DaemonConfig) (order : List String)
    (params : List ResolvedParams) : Prop where
  own : List.Forall₂ (fun name p => ∃ s, config.servers.get name = some s ∧ s.RunBy p)
    (order.filter cli.selects) params
  apart : params.Pairwise ResolvedParams.Apart

/-! ## The condition -/

/-- The name a server has without a command line. -/
def ServerConfig.ownName (home : Option String) (s : ServerConfig) : String :=
  (s.serviceName.or ((s.socket.map (expandPath home)).bind socketStem)).getD "rust_mux"

/-- **Two servers of a config are distinct**, once `~` is expanded and the name that is not
given is taken from the socket. -/
structure ServerConfig.Distinct (home : Option String) (s t : ServerConfig) : Prop where
  socket : ∀ x y, s.socket = some x → t.socket = some y →
    components (expandPath home x) ≠ components (expandPath home y)
  serviceName : s.ownName home ≠ t.ownName home
  statusFile : ∀ f g, s.statusFile = some f → t.statusFile = some g →
    components (expandPath home f) ≠ components (expandPath home g)

/-- The command line gives no other command than the server's own. -/
def CliOptions.LeavesCommand (cli : CliOptions) (s : ServerConfig) : Prop :=
  (cli.cmd = none ∨ cli.cmd = s.cmd) ∧ (cli.args = [] ∨ s.args = some cli.args)

/-- The command line gives nothing that two services would share. -/
def CliOptions.SharesNothing (cli : CliOptions) : Prop :=
  cli.socket = none ∧ cli.serviceName = none ∧ cli.statusFile = none

/-- **The condition on a command line and a config**: the servers selected are left their
commands, and if there are two, nothing is given that they would share and they are distinct. -/
structure CliOptions.Suits (home : Option String) (cli : CliOptions) (config : DaemonConfig) :
    Prop where
  command : ∀ name s, config.servers.get name = some s → cli.selects name = true →
    cli.LeavesCommand s
  apart : ∀ name name' s t, config.servers.get name = some s → config.servers.get name' = some t →
    cli.selects name = true → cli.selects name' = true → name ≠ name' →
      cli.SharesNothing ∧ s.Distinct home t

/-! ## What one service is resolved to -/

/-- **The parameters of one service**, as far as they have to be its own. -/
structure Resolved (home : Option String) (cli : CliOptions) (s : ServerConfig)
    (p : ResolvedParams) : Prop where
  socket : cli.socket.or (s.socket.map (expandPath home)) = some p.socket
  cmd : cli.cmd.or s.cmd = some p.cmd
  args : p.args = if !cli.args.isEmpty then cli.args else s.args.getD []
  serviceName : p.serviceName =
    ((cli.serviceName.or s.serviceName).or (socketStem p.socket)).getD "rust_mux"
  statusFile : p.statusFile = cli.statusFile.or (s.statusFile.map (expandPath home))

theorem resolved_of_ok
    (h : resolveParams home (cli.single name) (some config) = .ok p) :
    ∃ s, config.servers.get name = some s ∧ Resolved home cli s p := by
  unfold resolveParams serviceCfg CliOptions.single at h
  cases hget : config.servers.get name with
  | none =>
    simp only [hget] at h
    cases h
  | some s =>
    simp only [hget, Option.isSome_some, Option.isNone_some, Bool.and_false, Bool.false_eq_true,
      if_false, Option.bind_some] at h
    split at h
    · cases h
    · rename_i socket hsocket
      split at h
      · cases h
      · rename_i cmd hcmd
        cases h
        exact ⟨s, rfl, hsocket, hcmd, rfl, rfl, rfl⟩

theorem ResolvedParams.Apart.symm (h : p.Apart q) : q.Apart p where
  socket := h.socket.symm
  serviceName := h.serviceName.symm
  statusFile f g hf hg := (h.statusFile g f hg hf).symm

theorem ServerConfig.Distinct.symm (h : s.Distinct home t) : t.Distinct home s where
  socket x y hx hy := (h.socket y x hy hx).symm
  serviceName := h.serviceName.symm
  statusFile f g hf hg := (h.statusFile g f hg hf).symm

namespace Resolved

/-- **The command is the server's own** exactly if the command line leaves it that. -/
theorem runBy_iff (h : Resolved home cli s p) : s.RunBy p ↔ cli.LeavesCommand s := by
  have hcmd := h.cmd
  have hargs := h.args
  unfold ServerConfig.RunBy CliOptions.LeavesCommand
  refine and_congr ?_ ?_
  · cases hcli : cli.cmd with
    | none =>
      rw [hcli, Option.none_or] at hcmd
      simp [hcmd]
    | some cmd =>
      rw [hcli, Option.some_or, Option.some.injEq] at hcmd
      rw [hcmd]
      simp [eq_comm]
  · cases hcli : cli.args with
    | nil =>
      rw [hcli] at hargs
      simp [hargs]
    | cons a as =>
      rw [hcli] at hargs
      rw [hargs]
      cases s.args <;> simp

/-- What the command line gives, two services share. -/
theorem sharesNothing_of_apart (hp : Resolved home cli s p) (hq : Resolved home cli t q)
    (h : p.Apart q) : cli.SharesNothing := by
  refine ⟨?_, ?_, ?_⟩
  · cases hcli : cli.socket with
    | none => rfl
    | some x =>
      have hx := hp.socket
      have hy := hq.socket
      rw [hcli, Option.some_or, Option.some.injEq] at hx hy
      exact absurd (by rw [← hx, ← hy]) h.socket
  · cases hcli : cli.serviceName with
    | none => rfl
    | some n =>
      refine absurd ?_ h.serviceName
      rw [hp.serviceName, hq.serviceName, hcli]
      rfl
  · cases hcli : cli.statusFile with
    | none => rfl
    | some f =>
      have hf := hp.statusFile
      have hg := hq.statusFile
      rw [hcli, Option.some_or] at hf hg
      exact absurd rfl (h.statusFile f f hf hg)

/-- Where it gives nothing, they have what is their own. -/
theorem own_of_sharesNothing (h : Resolved home cli s p) (hcli : cli.SharesNothing) :
    (∃ x, s.socket = some x ∧ p.socket = expandPath home x) ∧
      p.serviceName = s.ownName home ∧ p.statusFile = s.statusFile.map (expandPath home) := by
  obtain ⟨hsocket, hname, hstatus⟩ := hcli
  have hown := h.socket
  rw [hsocket, Option.none_or] at hown
  obtain ⟨x, hx, hexpand⟩ := Option.map_eq_some_iff.1 hown
  refine ⟨⟨x, hx, hexpand.symm⟩, ?_, ?_⟩
  · rw [h.serviceName, hname, Option.none_or, ServerConfig.ownName, hown, Option.bind_some]
  · rw [h.statusFile, hstatus, Option.none_or]

/-- **Two services are apart** exactly if the command line gives nothing they would share and
their servers are distinct. -/
theorem apart_iff (hp : Resolved home cli s p) (hq : Resolved home cli t q) :
    p.Apart q ↔ cli.SharesNothing ∧ s.Distinct home t := by
  constructor
  · intro h
    have hcli := sharesNothing_of_apart hp hq h
    obtain ⟨⟨x, hx, hpx⟩, hpname, hpstatus⟩ := hp.own_of_sharesNothing hcli
    obtain ⟨⟨y, hy, hqy⟩, hqname, hqstatus⟩ := hq.own_of_sharesNothing hcli
    refine ⟨hcli, fun x' y' hx' hy' => ?_, ?_, fun f g hf hg => ?_⟩
    · obtain rfl := Option.some.inj (hx.symm.trans hx')
      obtain rfl := Option.some.inj (hy.symm.trans hy')
      rw [← hpx, ← hqy]
      exact h.socket
    · rw [← hpname, ← hqname]
      exact h.serviceName
    · refine h.statusFile _ _ ?_ ?_
      · rw [hpstatus, hf, Option.map_some]
      · rw [hqstatus, hg, Option.map_some]
  · rintro ⟨hcli, hdistinct⟩
    obtain ⟨⟨x, hx, hpx⟩, hpname, hpstatus⟩ := hp.own_of_sharesNothing hcli
    obtain ⟨⟨y, hy, hqy⟩, hqname, hqstatus⟩ := hq.own_of_sharesNothing hcli
    refine ⟨?_, ?_, fun f g hf hg => ?_⟩
    · rw [hpx, hqy]
      exact hdistinct.socket x y hx hy
    · rw [hpname, hqname]
      exact hdistinct.serviceName
    · rw [hpstatus] at hf
      rw [hqstatus] at hg
      obtain ⟨f', hf', rfl⟩ := Option.map_eq_some_iff.1 hf
      obtain ⟨g', hg', rfl⟩ := Option.map_eq_some_iff.1 hg
      exact hdistinct.statusFile f' g' hf' hg'

end Resolved

/-! ## What all of them are resolved to -/

/-- **Two of the services are apart** exactly if their servers are, and nothing is shared. -/
theorem apart_iff_of_ok {name' : String} (hs : config.servers.get name = some s)
    (ht : config.servers.get name' = some t)
    (hp : resolveParams home (cli.single name) (some config) = .ok p)
    (hq : resolveParams home (cli.single name') (some config) = .ok q) :
    p.Apart q ↔ cli.SharesNothing ∧ s.Distinct home t := by
  obtain ⟨s', hs', hrp⟩ := resolved_of_ok hp
  obtain ⟨t', ht', hrq⟩ := resolved_of_ok hq
  obtain rfl := Option.some.inj (hs.symm.trans hs')
  obtain rfl := Option.some.inj (ht.symm.trans ht')
  exact hrp.apart_iff hrq

/-- **When several services keep apart**: exactly if the command line suits the config. -/
theorem keepsApart_iff (horder : order.Perm config.servers.keys)
    (h : resolveParamsMulti home cli config order = .ok params) :
    KeepsApart cli config order params ↔ cli.Suits home config := by
  have hresolved := forall₂_of_mapM h
  have hselected : ∀ name s, config.servers.get name = some s → cli.selects name = true →
      name ∈ order.filter cli.selects := by
    intro name s hget hsel
    refine List.mem_filter.2 ⟨horder.mem_iff.2 (HashMap.mem_keys_iff_get.2 ?_), hsel⟩
    rw [hget]
    rfl
  have hnodup : (order.filter cli.selects).Nodup :=
    (horder.nodup_iff.2 config.servers.nodupKeys).filter _
  have hsymm : ∀ p q : ResolvedParams, p.Apart q → q.Apart p := fun _ _ hpq => hpq.symm
  have hapart := pairwise_iff_of_forall₂ hsymm hresolved
    (fun _ _ _ hb hb' => Except.ok.inj (hb.symm.trans hb')) hnodup
  constructor
  · intro hkeeps
    refine ⟨fun name s hget hsel => ?_, fun name name' s t hs ht hsel hsel' hne => ?_⟩
    · have hboth := hresolved.mp (fun _ _ hok hown => And.intro hok hown) hkeeps.own
      obtain ⟨p, -, hok, s', hget', hrun⟩ :=
        exists_right_of_forall₂ hboth (hselected name s hget hsel)
      obtain ⟨s'', hget'', hr⟩ := resolved_of_ok hok
      obtain rfl := Option.some.inj (hget.symm.trans hget')
      obtain rfl := Option.some.inj (hget.symm.trans hget'')
      exact hr.runBy_iff.1 hrun
    · obtain ⟨p, -, hp⟩ := exists_right_of_forall₂ hresolved (hselected name s hs hsel)
      obtain ⟨q, -, hq⟩ := exists_right_of_forall₂ hresolved (hselected name' t ht hsel')
      exact (apart_iff_of_ok hs ht hp hq).1
        (hapart.1 hkeeps.apart name (hselected name s hs hsel) name' (hselected name' t ht hsel')
          hne p q hp hq)
  · intro hsuits
    refine ⟨?_, hapart.2 fun name hname name' hname' hne p q hp hq => ?_⟩
    · have hsel := (List.forall₂_and_left _ _).2
        ⟨fun name hname => (List.mem_filter.1 hname).2, hresolved⟩
      refine hsel.imp fun name p ⟨hsel, hok⟩ => ?_
      obtain ⟨s, hget, hr⟩ := resolved_of_ok hok
      exact ⟨s, hget, hr.runBy_iff.2 (hsuits.command name s hget hsel)⟩
    · obtain ⟨s, hs, -⟩ := resolved_of_ok hp
      obtain ⟨t, ht, -⟩ := resolved_of_ok hq
      exact (apart_iff_of_ok hs ht hp hq).2
        (hsuits.apart name name' s t hs ht (List.mem_filter.1 hname).2
          (List.mem_filter.1 hname').2 hne)

/-! ## Two services -/

/-- An entry with a socket and a command. -/
def serverOf (socket cmd : String) : ServerConfig where
  socket := some socket
  cmd := some cmd
  args := none
  cwd := none
  maxActiveClients := none
  tray := none
  serviceName := none
  logLevel := none
  lazyStart := none
  maxRequestBytes := none
  requestTimeoutMs := none
  restartBackoffMs := none
  restartBackoffMaxMs := none
  maxRestarts := none
  statusFile := none
  env := none
  heartbeatIntervalMs := none
  heartbeatTimeoutMs := none
  heartbeatMaxFailures := none
  heartbeatEnabled := none

/-- A config with two servers. -/
def twoServers : DaemonConfig where
  servers :=
    (HashMap.insert ∅ "memory" (serverOf "~/mux/memory.sock" "npx")).insert "brave"
      (serverOf "~/mux/brave.sock" "uvx")

/-- The command line `--only memory,brave`, with what else it says about the socket. -/
def onlyBoth (socket : Option String) : CliOptions where
  socket := socket
  cmd := none
  args := []
  maxActiveClients := 5
  lazyStart := none
  maxRequestBytes := none
  requestTimeoutMs := none
  restartBackoffMs := none
  restartBackoffMaxMs := none
  maxRestarts := none
  logLevel := "info"
  tray := false
  serviceName := none
  service := none
  statusFile := none
  heartbeatIntervalMs := none
  heartbeatTimeoutMs := none
  heartbeatMaxFailures := none
  heartbeatEnabled := none
  only := some ["memory", "brave"]
  except := none

theorem twoServers_cases (hget : twoServers.servers.get name = some s) :
    (name = "memory" ∧ s = serverOf "~/mux/memory.sock" "npx") ∨
      (name = "brave" ∧ s = serverOf "~/mux/brave.sock" "uvx") := by
  by_cases hbrave : name = "brave"
  · subst hbrave
    rw [twoServers, HashMap.get_insert, Option.some.injEq] at hget
    exact .inr ⟨rfl, hget.symm⟩
  · rw [twoServers, HashMap.get_insert_ne hbrave] at hget
    by_cases hmemory : name = "memory"
    · subst hmemory
      rw [HashMap.get_insert, Option.some.injEq] at hget
      exact .inl ⟨rfl, hget.symm⟩
    · rw [HashMap.get_insert_ne hmemory, HashMap.get_empty] at hget
      cases hget

/-- The two servers are distinct. -/
theorem distinct_twoServers {name' : String} (hs : twoServers.servers.get name = some s)
    (ht : twoServers.servers.get name' = some t) (hne : name ≠ name') :
    s.Distinct (some "/home/u") t := by
  have hboth : (serverOf "~/mux/memory.sock" "npx").Distinct (some "/home/u")
      (serverOf "~/mux/brave.sock" "uvx") := by
    refine ⟨fun x y hx hy => ?_, by decide +kernel, fun f g hf => by cases hf⟩
    cases hx
    cases hy
    decide +kernel
  rcases twoServers_cases hs with ⟨rfl, rfl⟩ | ⟨rfl, rfl⟩
  · rcases twoServers_cases ht with ⟨rfl, rfl⟩ | ⟨rfl, rfl⟩
    · exact absurd rfl hne
    · exact hboth
  · rcases twoServers_cases ht with ⟨rfl, rfl⟩ | ⟨rfl, rfl⟩
    · exact hboth.symm
    · exact absurd rfl hne

/-- What `onlyBoth` is resolved to. -/
def bothParams (socket : Option String) : Except String (List ResolvedParams) :=
  resolveParamsMulti (some "/home/u") (onlyBoth socket) twoServers ["memory", "brave"]

theorem exists_bothParams (socket : Option String) (sockets : List String)
    (h : (bothParams socket).toOption.map (·.map (·.socket)) = some sockets) :
    ∃ params, bothParams socket = .ok params ∧ params.map (·.socket) = sockets := by
  cases hboth : bothParams socket with
  | error e =>
    rw [hboth] at h
    cases h
  | ok params =>
    rw [hboth] at h
    exact ⟨params, rfl, Option.some.inj h⟩

/-- With the filter alone the two services keep apart. -/
theorem keepsApart_iff_onlyBoth : ∃ params,
    resolveParamsMulti (some "/home/u") (onlyBoth none) twoServers ["memory", "brave"] =
      .ok params ∧ params.length = 2 ∧
      KeepsApart (onlyBoth none) twoServers ["memory", "brave"] params := by
  obtain ⟨params, hok, hsockets⟩ := exists_bothParams none
    ["/home/u/mux/memory.sock", "/home/u/mux/brave.sock"] (by decide +kernel)
  refine ⟨params, hok, by simpa using congrArg List.length hsockets, ?_⟩
  refine (keepsApart_iff (by decide +kernel) hok).2
    ⟨fun name s _ _ => ⟨.inl rfl, .inl rfl⟩, fun name name' s t hs ht _ _ hne => ?_⟩
  exact ⟨⟨rfl, rfl, rfl⟩, distinct_twoServers hs ht hne⟩

/-- **Beside `--only`, a `--socket` is given to both.** -/
theorem not_keepsApart_onlyBoth :
    ¬ ∀ (home : Option String) (cli : CliOptions) (config : DaemonConfig) (order : List String)
      (params : List ResolvedParams),
      (∀ name name' s t, config.servers.get name = some s → config.servers.get name' = some t →
        name ≠ name' → s.Distinct home t) →
      cli.isMultiMode (some config) = true → order.Perm config.servers.keys →
      resolveParamsMulti home cli config order = .ok params →
      KeepsApart cli config order params := by
  intro h
  obtain ⟨params, hok, hsockets⟩ := exists_bothParams (some "/run/mux.sock")
    ["/run/mux.sock", "/run/mux.sock"] (by decide +kernel)
  have hkeeps := h _ _ _ _ params (fun _ _ _ _ hs ht hne => distinct_twoServers hs ht hne)
    rfl (by decide +kernel) hok
  have hapart : (params.map (·.socket)).Pairwise fun x y => components x ≠ components y :=
    List.pairwise_map.2 (hkeeps.apart.imp fun hpq => hpq.socket)
  rw [hsockets] at hapart
  exact absurd rfl ((List.pairwise_cons.1 hapart).1 _ (List.mem_singleton.2 rfl))

end Config

end VcOperator
