import VcOperator.Kdl.Document
import VcOperator.Launch.Quoting
/-!
# The layout as a document

Three braces of a layout open a block, and four close one. The last of them
closes nothing, so no layout is a document. Without it a layout is the
document it is meant to be, if the brace that closes a block may also end the
last node of the block.
-/

namespace VcOperator

namespace Launch

/-- One layout with one tab with one pane with one `args`. -/
def IsLayout (nodes : List Kdl.Node) : Prop :=
  ∃ layout tab pane args,
    nodes = [.mk none "layout" layout [.mk none "tab" tab [.mk none "pane" pane
      [.mk none "args" args []]]]]

/-- **The layout of a launch is well formed.** -/
def WellFormed (closing : Bool) (host : Host) (deck : OsString) (request : LaunchRequest) : Prop :=
  ∃ nodes, Kdl.parse closing (buildZellijLayoutString host deck request) = some nodes ∧
    IsLayout nodes

/-- The document of a layout. -/
def layoutDocument (title : String) (root : Option String) (command : String) : List Kdl.Node :=
  [.mk none "layout" [] [
    .mk none "tab" [.textProp "name" title, .prop "focus" ⟨none, .bool true⟩] [
      .mk none "pane"
        ([.textProp "name" "launch", .prop "focus" ⟨none, .bool true⟩,
          .textProp "command" "bash"] ++ root.toList.map (.textProp "cwd"))
        [.mk none "args" [.textArg "-lc", .textArg command] []]]]]

/-- **A layout without its last brace is its document**. -/
theorem document_dropLast_layoutTokens (title : String) (root : Option String) (command : String) :
    Kdl.document true (layoutTokens title root command).dropLast =
      some (layoutDocument title root command) := by
  cases root <;> rfl

/-- **The last brace closes nothing.** -/
theorem document_layoutTokens (closing : Bool) (title : String) (root : Option String)
    (command : String) : Kdl.document closing (layoutTokens title root command) = none := by
  cases closing <;> cases root <;> rfl

/-- **When a layout is well formed**: never, whether or not the brace that closes a block may
end a node. -/
theorem not_wellFormed (closing : Bool) (host : Host) (deck : OsString)
    (request : LaunchRequest) : ¬ WellFormed closing host deck request := by
  rintro ⟨nodes, hparse, -⟩
  rw [Kdl.parse, tokens_layout, Option.bind_some, document_layoutTokens] at hparse
  cases hparse

theorem not_wellFormed_breakout :
    ¬ ∀ (host : Host) (deck : OsString) (request : LaunchRequest),
      WellFormed false host deck request := by
  intro h
  obtain ⟨nodes, hparse, -⟩ := h ⟨none, fun _ => false⟩ (.ofString "/usr/bin/vibecrafted") breakout
  rw [Kdl.parse, tokens_layout, Option.bind_some, document_layoutTokens] at hparse
  cases hparse

end Launch

end VcOperator
