import Mathlib.Data.List.Basic
import VcOperator.Control.Model.Connection
/-!
# How a stream is cut into reads

A read is taken to begin and to end with a command. So the responses depend
on where the reads happen to end, for every stream with a command in it: a
command that arrives in two reads is answered as two errors. Streams
without subscriptions are answered alike when every read ends with a line.
-/

namespace VcOperator

namespace Control

/-- A way of cutting a stream into reads. -/
structure Cut (stream : Bytes) (reads : List Bytes) : Prop where
  flatten : reads.flatten = stream
  nonempty : ∀ r ∈ reads, r ≠ []
  fits : ∀ r ∈ reads, r.length ≤ maxRead

/-- Every read ends with a newline, or is the last. -/
def EndsWithLines : List Bytes → Prop
  | [] => True
  | [_] => True
  | r :: reads => r.getLast? = some 10 ∧ EndsWithLines reads

/-- One byte at a time. -/
theorem cut_singletons (stream : Bytes) : Cut stream (stream.map fun b => [b]) where
  flatten := by
    induction stream with
    | nil => rfl
    | cons b stream ih => exact congrArg (b :: ·) ih
  nonempty r hr := by
    obtain ⟨b, -, rfl⟩ := List.mem_map.1 hr
    exact List.cons_ne_nil _ _
  fits r hr := by
    obtain ⟨b, -, rfl⟩ := List.mem_map.1 hr
    exact (by decide : 1 ≤ maxRead)

theorem Cut.append {s t : Bytes} {reads reads' : List Bytes} (h : Cut s reads)
    (h' : Cut t reads') : Cut (s ++ t) (reads ++ reads') where
  flatten := by rw [List.flatten_append, h.flatten, h'.flatten]
  nonempty r hr := (List.mem_append.1 hr).elim (h.nonempty r) (h'.nonempty r)
  fits r hr := (List.mem_append.1 hr).elim (h.fits r) (h'.fits r)

theorem cut_single {l : Bytes} (hne : l ≠ []) (hlen : l.length ≤ maxRead) : Cut l [l] where
  flatten := by simp
  nonempty r hr := List.mem_singleton.1 hr ▸ hne
  fits r hr := List.mem_singleton.1 hr ▸ hlen

/-! ## Lines -/

theorem lines_nil : lines [] = [] := rfl

theorem lines_append_newline (s t : Bytes) : lines (s ++ 10 :: t) = lines s ++ lines t := by
  rw [lines, List.splitOn_append_cons_self, List.filter_append]
  rfl

theorem lines_newline (s : Bytes) : lines (10 :: s) = lines s := lines_append_newline [] s

theorem lines_of_notMem {l : Bytes} (h : 10 ∉ l) (hne : l ≠ []) : lines l = [l] := by
  rw [lines, List.splitOn_eq_singleton h]
  simp [hne]

/-- A byte that is no newline starts a line, up to the first newline or the end. -/
theorem exists_lines_cons {b : UInt8} (hb : b ≠ 10) (s : Bytes) :
    ∃ l rest ls, b :: s = l ++ rest ∧ 10 ∉ l ∧ l ≠ [] ∧ lines (b :: s) = l :: ls := by
  by_cases hmem : 10 ∈ b :: s
  · obtain ⟨l, ys, heq, hl⟩ := List.eq_append_cons_of_mem hmem
    have hne : l ≠ [] := by
      rintro rfl
      exact hb (List.cons.inj heq).1
    refine ⟨l, 10 :: ys, lines ys, heq, hl, hne, ?_⟩
    rw [heq, lines_append_newline, lines_of_notMem hl hne]
    rfl
  · exact ⟨b :: s, [], [], (List.append_nil _).symm, hmem, by simp, lines_of_notMem hmem (by simp)⟩

/-- The first line of a stream, with the newlines before it. -/
theorem exists_first_line {s : Bytes} (h : lines s ≠ []) :
    ∃ pre l rest, s = pre ++ l ++ rest ∧ (∀ b ∈ pre, b = 10) ∧ 10 ∉ l ∧ l ≠ [] ∧ l ∈ lines s := by
  induction s with
  | nil => exact absurd rfl h
  | cons b s ih =>
    by_cases hb : b = 10
    · subst hb
      rw [lines_newline] at h ⊢
      obtain ⟨pre, l, rest, rfl, hpre, hl, hne, hmem⟩ := ih h
      refine ⟨10 :: pre, l, rest, rfl, fun c hc => ?_, hl, hne, hmem⟩
      exact (List.mem_cons.1 hc).elim id (hpre c)
    · obtain ⟨l, rest, ls, heq, hl, hne, hlines⟩ := exists_lines_cons hb s
      refine ⟨[], l, rest, heq, fun _ h => (nomatch h), hl, hne, ?_⟩
      rw [hlines]
      exact List.mem_cons_self

theorem lines_of_newlines {s : Bytes} (h : ∀ b ∈ s, b = 10) : lines s = [] := by
  induction s with
  | nil => rfl
  | cons b s ih =>
    obtain rfl := h b List.mem_cons_self
    rw [lines_newline, ih fun c hc => h c (List.mem_cons_of_mem _ hc)]

/-- A stream without lines is all newlines. -/
theorem eq_newline_of_lines_nil {s : Bytes} (h : lines s = []) : ∀ b ∈ s, b = 10 := by
  induction s with
  | nil => exact fun _ hb => (nomatch hb)
  | cons b s ih =>
    by_cases hb : b = 10
    · subst hb
      rw [lines_newline] at h
      exact fun c hc => (List.mem_cons.1 hc).elim id (ih h c)
    · obtain ⟨l, rest, ls, -, -, -, hlines⟩ := exists_lines_cons hb s
      rw [hlines] at h
      cases h

/-- A line end splits the lines. -/
theorem lines_append_of_getLast {r : Bytes} (h : r.getLast? = some 10) (s : Bytes) :
    lines (r ++ s) = lines r ++ lines s := by
  obtain ⟨t, rfl⟩ := List.getLast?_eq_some_iff.1 h
  rw [List.append_assoc, List.singleton_append, lines_append_newline, lines_append_newline,
    lines_nil, List.append_nil]

namespace Endpoint

variable {σ ε : Type} {e : Endpoint σ ε}

/-- A command is not answered with an error. -/
theorem respond_ne_error (cmd : MuxControlCommand) (message : String) :
    e.respond cmd ≠ .error message := by
  -- errors are sent for lines that do not parse, and for those only
  cases cmd <;> exact nofun

theorem handleReads_cons (phase : Phase) (data : Bytes) (reads : List Bytes) :
    e.handleReads phase (data :: reads) =
      (e.onRead data phase).1 ++ e.handleReads (e.onRead data phase).2 reads := by
  cases phase <;> rfl

/-- Reads without a line say nothing. -/
theorem handleReads_of_lines_nil {blank : List Bytes} (h : ∀ r ∈ blank, lines r = [])
    (reads : List Bytes) :
    e.handleReads .reading (blank ++ reads) = e.handleReads .reading reads := by
  induction blank with
  | nil => rfl
  | cons r blank ih =>
    have hr : e.onRead r .reading = ([], .reading) := by
      rw [onRead, h r List.mem_cons_self]
      rfl
    rw [List.cons_append, handleReads_cons, hr]
    exact ih fun r' hr' => h r' (List.mem_cons_of_mem _ hr')

/-! ## Where the reads matter -/

/-- The first line of a read, if it is a command, is answered first. -/
theorem head_handleLines {line : Bytes} {rest : List Bytes} {cmd : MuxControlCommand}
    (h : e.parse line = .ok cmd) :
    (e.handleLines (line :: rest)).1.head? = some (e.respond cmd) := by
  rw [handleLines, h]
  simp only
  split_ifs <;> rfl

theorem head_handleReads {data : Bytes} {reads : List Bytes} {resp : MuxControlResponse σ ε}
    (h : (e.onRead data .reading).1.head? = some resp) :
    (e.handleReads .reading (data :: reads)).head? = some resp := by
  rw [handleReads_cons, List.head?_append, h, Option.some_or]

/-- **A stream with a command in it is answered in two ways**: as the command, when
that comes in one read, and as an error, when its first byte comes alone. -/
theorem exists_cuts_ne {stream : Bytes} (hshort : ∀ b, ∃ err, e.parse [b] = .error err)
    (hcmds : ∀ l ∈ lines stream, l.length ≤ maxRead ∧ ∃ cmd, e.parse l = .ok cmd)
    (hne : lines stream ≠ []) : ∃ reads reads', Cut stream reads ∧ Cut stream reads' ∧
      e.handleConnection reads ≠ e.handleConnection reads' := by
  obtain ⟨pre, l, rest, heq, hpre, hl, hlne, hmem⟩ := exists_first_line hne
  obtain ⟨hlen, cmd, hcmd⟩ := hcmds l hmem
  obtain ⟨b, tail, rfl⟩ := List.exists_cons_of_ne_nil hlne
  obtain ⟨err, herr⟩ := hshort b
  have hblank : ∀ r ∈ pre.map fun b => [b], lines r = [] := by
    intro r hr
    obtain ⟨c, hc, rfl⟩ := List.mem_map.1 hr
    exact lines_of_newlines fun b hb => List.mem_singleton.1 hb ▸ hpre c hc
  -- the first line whole, against every byte on its own
  refine ⟨(pre.map fun b => [b]) ++ [b :: tail] ++ rest.map fun b => [b],
    stream.map fun b => [b], ?_, cut_singletons stream, fun hsame => ?_⟩
  · rw [heq]
    exact ((cut_singletons pre).append (cut_single hlne hlen)).append (cut_singletons rest)
  have hwhole : (e.handleConnection ((pre.map fun b => [b]) ++ [b :: tail] ++
      rest.map fun b => [b])).head? = some (e.respond cmd) := by
    rw [handleConnection, List.append_assoc, handleReads_of_lines_nil hblank]
    refine head_handleReads ?_
    rw [onRead, lines_of_notMem hl hlne]
    exact head_handleLines hcmd
  have hparts : (e.handleConnection (stream.map fun b => [b])).head? =
      some (.error ("Parse error: " ++ err)) := by
    rw [handleConnection, heq, List.map_append, List.map_append, List.append_assoc,
      handleReads_of_lines_nil hblank]
    refine head_handleReads ?_
    have hb : (10 : UInt8) ∉ [b] := fun h => hl (List.mem_singleton.1 h ▸ List.mem_cons_self)
    rw [onRead, lines_of_notMem hb (List.cons_ne_nil _ _), handleLines, herr]
    rfl
  rw [hsame, hparts, Option.some.injEq] at hwhole
  exact respond_ne_error cmd _ hwhole.symm

/-! ## Where they do not -/

/-- The response to a line, in a stream without subscriptions. -/
def answer (e : Endpoint σ ε) (line : Bytes) : MuxControlResponse σ ε :=
  match e.parse line with
  | .error err => .error ("Parse error: " ++ err)
  | .ok cmd => e.respond cmd

theorem handleLines_of_noSubscribe {ls : List Bytes}
    (h : ∀ l ∈ ls, e.parse l ≠ .ok .subscribe) :
    e.handleLines ls = (ls.map e.answer, .reading) := by
  induction ls with
  | nil => rfl
  | cons l ls ih =>
    have hrest := ih fun l' hl' => h l' (List.mem_cons_of_mem _ hl')
    rw [handleLines, List.map_cons, answer, hrest]
    cases hl : e.parse l with
    | error err => rfl
    | ok cmd =>
      have hcmd : cmd ≠ .subscribe := by
        rintro rfl
        exact h l List.mem_cons_self hl
      simp only [if_neg hcmd]

/-- **Reads that end with lines are answered line by line.** -/
theorem handleConnection_of_endsWithLines {reads : List Bytes} (h : EndsWithLines reads)
    (hno : ∀ l ∈ lines reads.flatten, e.parse l ≠ .ok .subscribe) :
    e.handleConnection reads = (lines reads.flatten).map e.answer := by
  unfold handleConnection
  induction reads with
  | nil => rfl
  | cons r reads ih =>
    have hsplit : lines (r :: reads).flatten = lines r ++ lines reads.flatten ∧
        EndsWithLines reads := by
      cases reads with
      | nil => exact ⟨by simp [lines_nil], trivial⟩
      | cons r' reads => exact ⟨lines_append_of_getLast h.1 _, h.2⟩
    rw [hsplit.1] at hno ⊢
    rw [handleReads_cons, onRead,
      handleLines_of_noSubscribe fun l hl => hno l (List.mem_append_left _ hl), List.map_append,
      ih hsplit.2 fun l hl => hno l (List.mem_append_right _ hl)]

/-- **The responses are independent of the reads exactly where there is no command**,
for every stream of commands; **and where no command subscribes, they are
independent of them as long as every read ends with a line**. -/
theorem framing_iff (e : Endpoint σ ε) (hshort : ∀ b, ∃ err, e.parse [b] = .error err)
    (stream : Bytes)
    (hcmds : ∀ l ∈ lines stream, l.length ≤ maxRead ∧ ∃ cmd, e.parse l = .ok cmd) :
    ((∀ reads reads', Cut stream reads → Cut stream reads' →
        e.handleConnection reads = e.handleConnection reads') ↔ lines stream = []) ∧
      ((∀ l ∈ lines stream, e.parse l ≠ .ok .subscribe) →
        ∀ reads reads', Cut stream reads → Cut stream reads' → EndsWithLines reads →
          EndsWithLines reads' → e.handleConnection reads = e.handleConnection reads') := by
  refine ⟨⟨fun hall => ?_, fun hnil => ?_⟩, fun hno reads reads' hcut hcut' hends hends' => ?_⟩
  · by_contra hne
    obtain ⟨reads, reads', hcut, hcut', hdiff⟩ := exists_cuts_ne hshort hcmds hne
    exact hdiff (hall reads reads' hcut hcut')
  · -- newlines alone are never answered
    have hsilent : ∀ reads, Cut stream reads → e.handleConnection reads = [] := by
      intro reads hcut
      have hblank : ∀ r ∈ reads, lines r = [] := fun r hr => lines_of_newlines fun b hb =>
        eq_newline_of_lines_nil hnil b (hcut.flatten ▸ List.mem_flatten.2 ⟨r, hr, hb⟩)
      have := handleReads_of_lines_nil (e := e) hblank []
      rw [List.append_nil] at this
      exact this
    exact fun reads reads' hcut hcut' => (hsilent reads hcut).trans (hsilent reads' hcut').symm
  · have hlines := hcut.flatten
    have hlines' := hcut'.flatten
    rw [handleConnection_of_endsWithLines hends (hlines ▸ hno),
      handleConnection_of_endsWithLines hends' (hlines' ▸ hno), hlines, hlines']

/-- The text of `GetStatus`. -/
def statusText : Bytes := "\x7b\"cmd\":\"GetStatus\"\x7d".toUTF8.data.toList

/-- An endpoint that is sent that command only. -/
def statusEndpoint : Endpoint Unit Unit where
  parse data :=
    if data = statusText ∨ data = statusText ++ [10] then .ok .getStatus
    else .error "expected value at line 1 column 1"
  snapshot := ()
  verify _ := ⟨true, []⟩
  eventTx := true

theorem parse_statusText : statusEndpoint.parse statusText = .ok .getStatus := by
  simp [statusEndpoint]

theorem parse_statusEndpoint_short (b : UInt8) :
    ∃ err, statusEndpoint.parse [b] = .error err := by
  have hlong : 1 < statusText.length := by decide +kernel
  have hnot : ¬ ([b] = statusText ∨ [b] = statusText ++ [10]) := by
    rintro (h | h)
    · rw [← h, List.length_singleton] at hlong
      omega
    · have hlen := congrArg List.length h
      rw [List.length_append, List.length_singleton, List.length_singleton] at hlen
      omega
  exact ⟨_, if_neg hnot⟩

/-- Two commands in one read, or in two. -/
theorem framing_iff_twoReads :
    statusEndpoint.handleConnection [statusText ++ [10] ++ statusText ++ [10]] =
      statusEndpoint.handleConnection [statusText ++ [10], statusText ++ [10]] := by
  have hlines : ∀ l ∈ lines (statusText ++ [10] ++ statusText ++ [10]), l = statusText := by
    decide +kernel
  have hlen : statusText.length ≤ maxRead := by decide +kernel
  refine (framing_iff statusEndpoint parse_statusEndpoint_short _
    fun l hl => (hlines l hl).symm ▸ ⟨hlen, _, parse_statusText⟩).2 (fun l hl => ?_) _ _
    ⟨rfl, by decide +kernel, by decide +kernel⟩ ⟨rfl, by decide +kernel, by decide +kernel⟩
    trivial ⟨by decide +kernel, trivial⟩
  rw [hlines l hl, parse_statusText]
  exact nofun

/-- **A command that comes in two reads is answered as two errors**: `GetStatus`, cut
after its eighth byte. -/
theorem not_framing_cutCommand :
    ¬ ∀ (e : Endpoint Unit Unit), (∀ b, ∃ err, e.parse [b] = .error err) → ∀ stream,
      (∀ l ∈ lines stream, l.length ≤ maxRead ∧ ∃ cmd, e.parse l = .ok cmd) →
        ∀ reads reads', Cut stream reads → Cut stream reads' →
          e.handleConnection reads = e.handleConnection reads' := by
  intro h
  have hlines : ∀ l ∈ lines (statusText ++ [10]), l = statusText := by decide +kernel
  have hlen : statusText.length ≤ maxRead := by decide +kernel
  have hsame := h statusEndpoint parse_statusEndpoint_short (statusText ++ [10])
    (fun l hl => (hlines l hl).symm ▸ ⟨hlen, _, parse_statusText⟩)
    [statusText ++ [10]] [statusText.take 8, statusText.drop 8 ++ [10]]
    ⟨rfl, by decide +kernel, by decide +kernel⟩
    ⟨by decide +kernel, by decide +kernel, by decide +kernel⟩
  exact absurd hsame (by decide +kernel)

end Endpoint

end Control

end VcOperator
