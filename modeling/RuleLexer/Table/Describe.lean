import RuleLexer.Table
import RuleLexer.Text.Quoted

/-! One line about a table or a lexer. -/
namespace RuleLexer
open RuleLexer.Text

def quotedNames (names : List String) : String :=
  let quoted := names.map fun n => String.ofList (Quoted.encode n.toList)
  "[" ++ String.intercalate ", " quoted ++ "]"

namespace TableOf

def describe {τ : Type} (t : TableOf τ) : String :=
  let root := String.ofList (Quoted.encode t.rootName.toList)
  "StateTable \x7b root: " ++ root ++ ", states: " ++ quotedNames t.names ++ ", fallback: " ++
    t.fallback.identifier ++ " \x7d"

end TableOf

namespace LexerOf

def describe {τ : Type} (l : LexerOf τ) : String :=
  let name := String.ofList (Quoted.encode l.name.toList)
  "RegexLexer \x7b name: " ++ name ++ ", initial: " ++ quotedNames l.initialNames ++
    ", filtered: " ++ (if l.filter?.isSome then "true" else "false") ++ " \x7d"

end LexerOf

end RuleLexer
