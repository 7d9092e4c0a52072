import RuleLexer.Category
import RuleLexer.Text.Json.Reader

/-! Categories in JSON: a string that holds a path. -/
namespace RuleLexer.Category
open RuleLexer.Text

/-- A path that names no category is wrong before anything that follows it is. -/
def ofJson (text : String) : Except String Category := do
  let chars := text.toList
  let (path, rest) ← (Json.readString chars).mapError (·.message chars)
  match ofPath? path with
  | none => .error (unknown path)
  | some c => do
      (Json.readEnd rest).mapError (·.message chars)
      .ok c

end RuleLexer.Category
