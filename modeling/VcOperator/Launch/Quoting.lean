import VcOperator.Kdl.Token
import VcOperator.Shell.Token
import VcOperator.Launch.Model.Command
/-!
# The two layers of quoting

The shell command of a pane stands in a string of the layout, and its words
stand in single quotes. Both encoders are read back by the rules of their
language, whatever the texts are.
-/

namespace VcOperator

namespace Launch

/-! ## The tokens of the builder -/

/-- The tokens of a layout up to its title. -/
def tabTokens (title : String) : List Kdl.Token :=
  [.bare "layout", .space, .openBrace, .space, .bare "tab", .space, .bare "name", .equals,
    .text title]

/-- The tokens of the pane up to its command. -/
def paneTokens : List Kdl.Token :=
  [.space, .bare "focus", .equals, .bare "true", .space, .openBrace, .space,
    .bare "pane", .space, .bare "name", .equals, .text "launch", .space,
    .bare "focus", .equals, .bare "true", .space, .bare "command", .equals, .text "bash", .space]

/-- The tokens of the current directory. -/
def cwdTokens : Option String → List Kdl.Token
  | some root => [.bare "cwd", .equals, .text root, .space]
  | none => []

/-- The tokens of the arguments. -/
def argsTokens (command : String) : List Kdl.Token :=
  [.openBrace, .space, .bare "args", .space, .text "-lc", .space, .text command]

/-- The braces at the end. -/
def closingTokens : List Kdl.Token :=
  [.space, .closeBrace, .space, .closeBrace, .space, .closeBrace, .space, .closeBrace]

/-- The tokens of a layout: the title, the root and the command are strings. -/
def layoutTokens (title : String) (root : Option String) (command : String) : List Kdl.Token :=
  tabTokens title ++ paneTokens ++ cwdTokens root ++ argsTokens command ++ closingTokens

/-- The tokens of an export. -/
def exportTokens (name value : String) : List Shell.Token :=
  [.word (Shell.plain "export"), .word (Shell.plain (name ++ "=") ++ Shell.quoted value)]

/-- The tokens of a tooling snippet. -/
def snippetTokens (tool init : String) : List Shell.Token :=
  [.word (Shell.plain "if"), .word (Shell.plain "command"), .word (Shell.plain "-v"),
    .word (Shell.plain tool), .operator ">", .word (Shell.plain "/dev/null"),
    .ioNumber (Shell.plain "2"), .operator ">&", .word (Shell.plain "1"), .operator ";",
    .word (Shell.plain "then"), .word (Shell.plain "eval"), .word [.substitution true init],
    .operator ";", .word (Shell.plain "fi")]

/-- The tokens of `exec`. -/
def execTokens (words : List String) : List Shell.Token :=
  .word (Shell.plain "exec") :: words.map fun word => .word (Shell.quoted word)

/-- The tokens of each command of a pane, the last of which executes these words. -/
def paneCommands (host : Host) (request : LaunchRequest) (words : List String) :
    List (List Shell.Token) :=
  ((resolvedZellijConfigDir host request.root).toList.map fun dir =>
    exportTokens "ZELLIJ_CONFIG_DIR" dir.toStringLossy) ++
  (request.env.entries.map fun (key, value) =>
    exportTokens (shellName key) value.toStringLossy) ++
  [snippetTokens "starship" "starship init bash", snippetTokens "zoxide" "zoxide init bash",
    snippetTokens "atuin" "atuin init bash --disable-up-arrow"] ++
  [execTokens words]

/-! ## The layout -/

/-- A character of a KDL string. -/
def kdlEscape (c : Char) : List Char :=
  if c = '\\' then ['\\', '\\'] else if c = '"' then ['\\', '"']
  else if c = '\n' then ['\\', 'n'] else [c]

theorem toList_kdlQuote (raw : String) :
    (kdlQuote raw).toList = ['"'] ++ raw.toList.flatMap kdlEscape ++ ['"'] := by
  have hchar : ∀ c, (((if c = '\\' then "\\\\".toList else [c]).flatMap fun d =>
      if d = '"' then "\\\"".toList else [d]).flatMap fun d =>
        if d = '\n' then "\\n".toList else [d]) = kdlEscape c := by
    intro c
    rw [kdlEscape]
    split_ifs with hback hquote hnl
    · rfl
    · subst hquote; rfl
    · subst hnl; rfl
    · simp [hquote, hnl]
  rw [kdlQuote, String.toList_append, String.toList_append, toList_replace, toList_replace,
    toList_replace]
  simp only [List.flatMap_assoc, hchar]
  rfl

/-- **A quoted text is one string**, and its value is the text. -/
theorem isPiece_kdlQuote (raw : String) : Kdl.IsPiece (kdlQuote raw) [.text raw] := by
  have hf : ∀ value c, Kdl.scanner.read (.string value) (kdlEscape c) =
      some ([], .string (value ++ [c])) := by
    intro value c
    rw [kdlEscape]
    split_ifs with hback hquote hnl
    · subst hback; rfl
    · subst hquote; rfl
    · subst hnl; rfl
    · simp [Scanner.read, Kdl.scanner, Kdl.next, hback, hquote]
  have hopen : Kdl.scanner.read .start ['"'] = some ([], .string []) := rfl
  have hclose : Kdl.scanner.read (.string raw.toList) ['"'] = some ([.text raw], .start) := by
    rw [Scanner.read, Kdl.scanner]
    simp [Kdl.next]
  rw [Kdl.IsPiece, toList_kdlQuote]
  exact Scanner.read_append (Scanner.read_append hopen (Kdl.read_string hf [] _)) hclose

theorem isPiece_cwdProp (root : Option OsString) :
    Kdl.IsPiece (cwdProp root) (cwdTokens (root.map OsString.toStringLossy)) := by
  cases root with
  | none => rfl
  | some root =>
    have hkey : Kdl.IsPiece "cwd=" [.bare "cwd", .equals] := by decide +kernel
    have hspace : Kdl.IsPiece " " [.space] := rfl
    exact (hkey.append (isPiece_kdlQuote _)).append hspace

/-- **What a layout is scanned as.** -/
theorem tokens_layout (host : Host) (deck : OsString) (request : LaunchRequest) :
    Kdl.tokens (buildZellijLayoutString host deck request) =
      some (layoutTokens ("Operator " ++ request.kind.humanTitle)
        (request.root.map OsString.toStringLossy) (buildPaneShellCommand host deck request)) := by
  have htab : Kdl.IsPiece "layout \x7b tab name="
      [.bare "layout", .space, .openBrace, .space, .bare "tab", .space, .bare "name",
        .equals] := by decide +kernel
  have hpane : Kdl.IsPiece " focus=true \x7b pane name="
      [.space, .bare "focus", .equals, .bare "true", .space, .openBrace, .space,
        .bare "pane", .space, .bare "name", .equals] := by decide +kernel
  have hcommand : Kdl.IsPiece " focus=true command="
      [.space, .bare "focus", .equals, .bare "true", .space, .bare "command", .equals] := by
    decide +kernel
  have hspace : Kdl.IsPiece " " [.space] := rfl
  have hargs : Kdl.IsPiece "\x7b args " [.openBrace, .space, .bare "args", .space] := by
    decide +kernel
  have hend : Kdl.IsPiece " \x7d \x7d \x7d \x7d" closingTokens := by decide +kernel
  have htitle := htab.append (isPiece_kdlQuote ("Operator " ++ request.kind.humanTitle))
  have hopening := (((htitle.append hpane).append (isPiece_kdlQuote "launch")).append
    hcommand).append (isPiece_kdlQuote "bash")
  have hlayout := ((((((hopening.append hspace).append (isPiece_cwdProp request.root)).append
    hargs).append (isPiece_kdlQuote "-lc")).append hspace).append
    (isPiece_kdlQuote (buildPaneShellCommand host deck request))).append hend
  unfold buildZellijLayoutString
  rw [hlayout.tokens, layoutTokens, tabTokens, paneTokens, argsTokens]
  simp

/-! ## The shell command -/

/-- A character in single quotes. -/
def shellEscape (c : Char) : List Char :=
  if c = '\'' then ['\'', '"', '\'', '"', '\''] else [c]

theorem toList_shellQuote (raw : String) :
    (shellQuote raw).toList = ['\''] ++ raw.toList.flatMap shellEscape ++ ['\''] := by
  rw [shellQuote, String.toList_append, String.toList_append, toList_replace]
  rfl

theorem read_shellEscape (pieces : List Shell.Piece) (c : Char) :
    Shell.scanner.read (.single pieces) (shellEscape c) =
      some ([], .single (pieces ++ [.quoted c])) := by
  rw [shellEscape]
  split_ifs with hquote
  · subst hquote; rfl
  · simp [Scanner.read, Shell.scanner, Shell.next, hquote]

/-- **A quoted text stays as it is**, and is of the word it stands in. -/
theorem read_shellQuote (pieces : List Shell.Piece) (raw : String) :
    Shell.scanner.read (.word pieces) (shellQuote raw).toList =
      some ([], .word (pieces ++ Shell.quoted raw)) := by
  rw [toList_shellQuote, List.append_assoc]
  exact Shell.read_singleQuoted read_shellEscape pieces raw.toList

/-- A quoted text is one word. -/
theorem isCommand_shellQuote (raw : String) :
    Shell.IsCommand (shellQuote raw).toList [.word (Shell.quoted raw)] := by
  refine ⟨[], Shell.quoted raw, ?_, rfl⟩
  rw [toList_shellQuote, List.append_assoc]
  exact Shell.read_blank_singleQuoted read_shellEscape raw.toList

theorem isCommand_exec (deck : OsString) (args : List OsString) :
    Shell.IsCommand ("exec " ++ shellJoin deck args).toList
      (execTokens ((deck :: args).map OsString.toStringLossy)) := by
  have hexec : Shell.IsCommand "exec".toList [.word (Shell.plain "exec")] :=
    ⟨[], _, Shell.read_blank_plain (by decide) (List.all_eq_true.1 (by decide)), rfl⟩
  have hwords := Shell.IsCommand.words (fun value : OsString =>
    isCommand_shellQuote value.toStringLossy) deck args
  have htext : ("exec " ++ shellJoin deck args).toList =
      "exec".toList ++ ' ' :: [' '].intercalate
        ((deck :: args).map fun value => (shellQuote value.toStringLossy).toList) := by
    rw [shellJoin, String.toList_append, String.toList_intercalate, List.map_map]
    rfl
  rw [htext, execTokens]
  rw [List.map_map]
  exact hexec.blank hwords

/-- A name holds no character that quotes or ends a word. -/
theorem isPlainChar_shellName (raw : String) :
    ∀ c ∈ (shellName raw).toList, Shell.isPlainChar c = true := by
  have hspecial : Shell.specialChars.all (fun d => !(d.isAlphanum || d = '_')) = true := by decide
  simp only [List.all_eq_true, Bool.not_eq_true'] at hspecial
  intro c hc
  rw [shellName, String.toList_ofList, List.mem_filter] at hc
  refine decide_eq_true fun hmem => ?_
  exact Bool.false_ne_true ((hspecial c hmem).symm.trans hc.2)

theorem isCommand_export {name : String} (hname : ∀ c ∈ name.toList, Shell.isPlainChar c = true)
    (value : String) :
    Shell.IsCommand ("export " ++ name ++ "=" ++ shellQuote value).toList
      (exportTokens name value) := by
  have hexport : Shell.IsCommand "export".toList [.word (Shell.plain "export")] :=
    ⟨[], _, Shell.read_blank_plain (by decide) (List.all_eq_true.1 (by decide)), rfl⟩
  have hplain : ∀ c ∈ (name ++ "=").toList, Shell.isPlainChar c = true := by
    intro c hc
    rw [String.toList_append, List.mem_append] at hc
    rcases hc with hc | hc
    · exact hname c hc
    · obtain rfl := List.mem_singleton.1 hc
      decide
  have hword : Shell.IsCommand ((name ++ "=").toList ++ (shellQuote value).toList)
      [.word (Shell.plain (name ++ "=") ++ Shell.quoted value)] :=
    ⟨[], _, Scanner.read_append (Shell.read_blank_plain (by simp) hplain)
      (read_shellQuote _ value), rfl⟩
  have htext : ("export " ++ name ++ "=" ++ shellQuote value).toList =
      "export".toList ++ ' ' :: ((name ++ "=").toList ++ (shellQuote value).toList) := by
    simp [String.toList_append]
  rw [htext]
  exact hexport.blank hword

theorem isCommand_toolingProfileSnippets :
    List.Forall₂ Shell.IsCommand (toolingProfileSnippets.map String.toList)
      [snippetTokens "starship" "starship init bash", snippetTokens "zoxide" "zoxide init bash",
        snippetTokens "atuin" "atuin init bash --disable-up-arrow"] := by
  refine .cons ?_ (.cons ?_ (.cons ?_ .nil))
  · exact ⟨(snippetTokens "starship" "starship init bash").dropLast, Shell.plain "fi",
      by decide +kernel, rfl⟩
  · exact ⟨(snippetTokens "zoxide" "zoxide init bash").dropLast, Shell.plain "fi",
      by decide +kernel, rfl⟩
  · exact ⟨(snippetTokens "atuin" "atuin init bash --disable-up-arrow").dropLast,
      Shell.plain "fi", by decide +kernel, rfl⟩

/-- **What a shell command is split into.** -/
theorem tokens_pane (host : Host) (deck : OsString) (request : LaunchRequest) :
    Shell.tokens (buildPaneShellCommand host deck request) =
      some ([.operator ";"].intercalate (paneCommands host request
        ((deck :: (buildDeckLaunchCommand deck request).args).map OsString.toStringLossy))) := by
  have hdir : List.Forall₂ Shell.IsCommand
      (((resolvedZellijConfigDir host request.root).toList.map fun dir =>
        "export ZELLIJ_CONFIG_DIR=" ++ shellQuote dir.toStringLossy).map String.toList)
      ((resolvedZellijConfigDir host request.root).toList.map fun dir =>
        exportTokens "ZELLIJ_CONFIG_DIR" dir.toStringLossy) := by
    rw [List.map_map, List.forall₂_map_left_iff, List.forall₂_map_right_iff, List.forall₂_same]
    have hname : ∀ c ∈ "ZELLIJ_CONFIG_DIR".toList, Shell.isPlainChar c = true :=
      List.all_eq_true.1 (by decide)
    exact fun dir _ => isCommand_export hname dir.toStringLossy
  have henv : List.Forall₂ Shell.IsCommand
      ((request.env.entries.map fun (key, value) =>
        "export " ++ shellName key ++ "=" ++ shellQuote value.toStringLossy).map String.toList)
      (request.env.entries.map fun (key, value) =>
        exportTokens (shellName key) value.toStringLossy) := by
    rw [List.map_map, List.forall₂_map_left_iff, List.forall₂_map_right_iff, List.forall₂_same]
    exact fun entry _ => isCommand_export (isPlainChar_shellName entry.1) _
  have hexec : List.Forall₂ Shell.IsCommand
      [("exec " ++ shellJoin deck (buildDeckLaunchCommand deck request).args).toList]
      [execTokens ((deck :: (buildDeckLaunchCommand deck request).args).map
        OsString.toStringLossy)] :=
    .cons (isCommand_exec _ _) .nil
  have hparts := List.rel_append (List.rel_append (List.rel_append hdir henv)
    isCommand_toolingProfileSnippets) hexec
  apply Shell.IsCommand.tokens
  rw [buildPaneShellCommand, String.toList_intercalate, List.map_append, List.map_append,
    List.map_append]
  exact Shell.IsCommand.list hparts (by simp)

/-! ## Both layers -/

theorem isText_promptArgs (prompt : String) : ∀ value ∈ promptArgs prompt, value.IsText := by
  rw [promptArgs]
  split_ifs <;> simp [OsString.isText_ofString]

/-- The arguments of the deck are texts where the root is one. -/
theorem isText_args (deck : OsString) {request : LaunchRequest}
    (hroot : ∀ root ∈ request.root, root.IsText) :
    ∀ value ∈ (buildDeckLaunchCommand deck request).args, value.IsText := by
  have hkind : ∀ value ∈ kindArgs request, value.IsText := by
    have hprompt := isText_promptArgs request.prompt
    rw [kindArgs]
    cases request.kind <;> simpa [OsString.isText_ofString] using hprompt
  rw [buildDeckLaunchCommand]
  cases hr : request.root with
  | none => simpa [OsString.isText_ofString, or_imp, forall_and] using hkind
  | some root =>
    simpa [OsString.isText_ofString, or_imp, forall_and] using ⟨hkind, hroot root hr⟩

/-- **Quoting is exact through both layers.** The strings of a layout are those of the
builder, and nothing of an input is outside of them; the last one is the shell
command; and that is split into the exports, the tooling snippets and an
`exec` of the deck with its arguments. -/
theorem quoting_exact (host : Host) {deck : OsString} {request : LaunchRequest}
    (hdeck : deck.IsText) (hroot : ∀ root ∈ request.root, root.IsText) :
    Kdl.tokens (buildZellijLayoutString host deck request) =
        some (layoutTokens ("Operator " ++ request.kind.humanTitle)
          (request.root.map OsString.toStringLossy) (buildPaneShellCommand host deck request)) ∧
      ∃ words : List String,
        words.map OsString.ofString = deck :: (buildDeckLaunchCommand deck request).args ∧
          Shell.tokens (buildPaneShellCommand host deck request) =
            some ([.operator ";"].intercalate (paneCommands host request words)) := by
  refine ⟨tokens_layout host deck request, _, ?_, tokens_pane host deck request⟩
  have hall : ∀ value ∈ deck :: (buildDeckLaunchCommand deck request).args,
      (OsString.ofString ∘ OsString.toStringLossy) value = value := by
    intro value hvalue
    rcases List.mem_cons.1 hvalue with rfl | hvalue
    · exact hdeck.ofString_toStringLossy
    · exact (isText_args deck hroot value hvalue).ofString_toStringLossy
  rw [List.map_map, List.map_congr_left hall, List.map_id']

/-- A prompt that would leave its quotes, in a root that would too. -/
def breakout : LaunchRequest where
  kind := .workflow
  agent := "claude"
  prompt := "'; rm -rf \"$HOME\"\n\\"
  runtime := .terminal
  root := some (.ofString "/tmp/it's\" \x7d")
  terminalBinary := none
  env := ∅
  count := none
  depth := none
  sessionName := none

theorem quoting_exact_breakout :
    ∃ words : List String,
      words.map OsString.ofString = .ofString "/usr/bin/vibecrafted" ::
          (buildDeckLaunchCommand (.ofString "/usr/bin/vibecrafted") breakout).args ∧
        Shell.tokens (buildPaneShellCommand ⟨none, fun _ => false⟩
            (.ofString "/usr/bin/vibecrafted") breakout) =
          some ([.operator ";"].intercalate (paneCommands ⟨none, fun _ => false⟩ breakout words)) :=
  (quoting_exact ⟨none, fun _ => false⟩ (OsString.isText_ofString _)
    (fun _ hroot => ⟨_, (Option.some.inj hroot).symm⟩)).2

end Launch

end VcOperator
