import RuleLexer.Language.CoffeeScript
import RuleLexer.Language.Haxe
import RuleLexer.Language.Html
import RuleLexer.Language.ObjectiveJ
import RuleLexer.Language.Php
import RuleLexer.Language.Sass
import RuleLexer.Language.Sniff
import RuleLexer.Language.Xml

/-! The languages there are lexers for, and how to find one. -/
namespace RuleLexer
open RuleLexer.Language

structure Language where
  info : LexerInfo
  build : Options → Build Lexer
  score : List Char → Score

namespace Catalog

def nothing (_ : List Char) : Score := .none

def languages : List Language := [
  ⟨JavaScript.info, fun _ => JavaScript.lexer, nothing⟩,
  ⟨ActionScript.info, fun _ => ActionScript.lexer, fun _ => ⟨5⟩⟩,
  ⟨ActionScript.info3, fun _ => ActionScript.lexer3, Sniff.actionScript3⟩,
  ⟨Css.info, fun _ => Css.lexer, nothing⟩,
  ⟨ObjectiveJ.info, fun _ => ObjectiveJ.lexer, Sniff.objectiveJ⟩,
  ⟨Html.info, fun _ => Html.lexer, Sniff.html⟩,
  ⟨Php.info, Php.lexer, Sniff.php⟩,
  ⟨Xml.info, fun _ => Xml.lexer, Sniff.xml⟩,
  ⟨Xml.xsltInfo, fun _ => Xml.xsltLexer, Sniff.xslt⟩,
  ⟨Xml.mxmlInfo, fun _ => Xml.mxmlLexer, nothing⟩,
  ⟨Haxe.info, fun _ => Haxe.lexer, Sniff.haxe⟩,
  ⟨Sass.info, fun _ => Sass.lexer, nothing⟩,
  ⟨Sass.scssInfo, fun _ => Sass.scssLexer, nothing⟩,
  ⟨CoffeeScript.info, fun _ => CoffeeScript.lexer, nothing⟩]

def foldCase (text : String) : String := String.ofList (text.toList.map Char.toLower)

/-- The first language with an alias; the case of ASCII letters does not matter. -/
def byAlias? (name : String) : Option Language :=
  languages.find? fun l => l.info.aliases.any fun a => foldCase a == foldCase name

def scores (text : String) : List (Language × Score) :=
  let chars := text.toList
  languages.map fun l => (l, l.score chars)

/-- Best first; languages that score alike stay in their order. -/
def ranking (text : String) : List (Language × Score) :=
  (scores text).mergeSort fun a b => decide (b.2.hundredths ≤ a.2.hundredths)

end Catalog

end RuleLexer
