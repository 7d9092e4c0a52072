import RuleLexer.Callback

/-! Blocks by indentation. The blanks at the start of a line are noted; a rule that opens a block
notes the blanks of its own line and the state for the block's lines; and a line belongs to the
block as long as it lies deeper than the line that opened it. The first line that does not closes
the block. -/
namespace RuleLexer
open RuleLexer.Text

namespace Indentation

/-- The blanks of the latest line. -/
def lastKey : String := "last_indentation"

/-- The blanks of the line that opened the block. -/
def blockKey : String := "block_indentation"

/-- The state for the lines of the block. -/
def stateKey : String := "block_state"

/-- Deeper than the block: its blanks and at least one more character. -/
def isDeeper (indent block : List Char) : Bool := block.isPrefixOf indent && indent != block

/-- The state for a line of the open block, if the line belongs to it. -/
def blockState? (indent : List Char) (memo : Memo) : Option String :=
  match memo.text? stateKey, memo.text? blockKey with
  | some state, some block => if isDeeper indent block.toList then some state else none
  | _, _ => none

/-- For a rule that matches the blanks at the start of a line: pushes the block's state or, when
the line is not in a block, `content`. -/
def lineStart (content : String) : Callback := fun found place _ =>
  let indent := place.upTo found.stop
  .run (.emit found.stop .text) <|
  .see (.keep lastKey (.text (String.ofList indent))) fun view =>
    match blockState? indent view.memo with
    | some state => .run (.push state) .done
    | none => .run (.drop stateKey) <| .run (.drop blockKey) <| .run (.push content) .done

/-- For a rule that opens a block whose lines are in `state`. -/
def opensBlock (category : Category) (state : String) : Callback := fun found _ _ =>
  .see (.emit found.stop category) fun view =>
    .run (.keep blockKey (.text ((view.memo.text? lastKey).getD ""))) <|
    .run (.keep stateKey (.text state)) .done

end Indentation

end RuleLexer
