import RuleLexer.Indentation
import RuleLexer.Language.Css

/-! Sass and SCSS. They share their values, selectors and strings and differ in where a line or a
statement ends. In Sass every line starts in the root, whose callback picks the state for the rest
of the line by its indentation, and a comment takes in the lines that lie deeper than its own. -/
namespace RuleLexer.Language.Sass
open Entry

def info : LexerInfo where
  name := "Sass"
  aliases := ["sass", "SASS"]
  filenames := ["*.sass"]
  mimeTypes := ["text/x-sass"]

def scssInfo : LexerInfo where
  name := "SCSS"
  aliases := ["scss"]
  filenames := ["*.scss"]
  mimeTypes := ["text/x-scss"]

def value : List (Entry Delegate) := [
  emit "[ \\t]+" .text,
  emit "[!$][\\w-]+" .nameVariable,
  (emit "url\\(" .stringOther).push "string-url",
  (emit "[a-z_-][\\w-]*" .nameFunction).ahead "\\(",
  keywords Css.properties .nameConstant,
  keywords Css.extendedColors .nameEntity,
  keywords Css.basicColors .nameBuiltin,
  emit "!(important|default)" .nameException,
  emit "(true|false)" .namePseudo,
  emit "(and|or|not)" .operatorWord,
  (emit "/\\*" .commentMultiline).push "inline-comment",
  emit "//[^\\n]*" .commentSingle,
  emit "#[a-z0-9]\x7b1,6\x7d" .numberHex,
  tokens "(-?\\d+)(%|[a-z]+)?" [.numberInteger, .keywordType],
  tokens "(-?\\d*\\.\\d+)(%|[a-z]+)?" [.numberFloat, .keywordType],
  (emit "#\\\x7b" .stringInterpol).push "interpolation",
  emit "[~\\^\\*!&%<>\\|+=@:,./?-]+" .operator,
  emit "[\\[\\]()]+" .punctuation,
  (emit "\"" .stringDouble).push "string-double",
  (emit "'" .stringSingle).push "string-single",
  emit "[a-z_-][\\w-]*" .name]

def selector : List (Entry Delegate) := [
  emit "[ \\t]+" .text,
  (emit ":" .nameDecorator).push "pseudo-class",
  (emit "\\." .nameClass).push "class",
  (emit "#" .nameNamespace).push "id",
  emit "[a-zA-Z0-9_-]+" .nameTag,
  (emit "#\\\x7b" .stringInterpol).push "interpolation",
  emit "&" .keyword,
  emit "[~\\^\\*!&\\[\\]\\(\\)<>\\|+=@:;,./?-]" .operator,
  (emit "\"" .stringDouble).push "string-double",
  (emit "'" .stringSingle).push "string-single"]

/-- Inside quotes or parentheses: text, interpolations, a sharp that opens none, and the end. -/
def quoted (body : String) (category : Category) (close : Entry Delegate) :
    List (Entry Delegate) :=
  [emit body category,
    (emit "#\\\x7b" .stringInterpol).push "interpolation",
    (emit "#" category).ahead "[^\\n\\\x7b]",
    close]

/-- The rest of a selector behind the sign that opens it. -/
def fragment (category : Category) : List (Entry Delegate) :=
  [emit "[\\w-]+" category,
    (emit "#\\\x7b" .stringInterpol).push "interpolation",
    fallthrough.pop 1]

/-- The states of both dialects; `lineEnd` ends values and selectors. -/
def shared (lineEnd : List (Entry Delegate)) : List (String × List (Entry Delegate)) := [
  ("value", value ++ lineEnd),
  ("interpolation", [
    (emit "\\\x7d" .stringInterpol).pop 1,
    includes "value"]),
  ("selector", selector ++ lineEnd),
  ("string-double", quoted "(?:\\\\.|[^\\n\"#])+" .stringDouble
    ((emit "\"" .stringDouble).pop 1)),
  ("string-single", quoted "(?:\\\\.|[^\\n'#])+" .stringDouble
    ((emit "'" .stringDouble).pop 1)),
  ("string-url", quoted "(?:\\\\#|[^\\n#)])+" .stringOther
    ((emit "\\)" .stringOther).pop 1)),
  ("pseudo-class", fragment .nameDecorator),
  ("class", fragment .nameClass),
  ("id", fragment .nameNamespace),
  ("for", [
    emit "(from|to|through)" .operatorWord,
    includes "value"])]

/-- What can start a statement in both dialects. -/
def directives : List (Entry Delegate) := [
  (emit "@for" .keyword).push "for",
  (emit "@(debug|warn|if|while)" .keyword).push "value",
  (tokens "(@mixin)( [\\w-]+)" [.keyword, .nameFunction]).push "value",
  (tokens "(@include)( [\\w-]+)" [.keyword, .nameDecorator]).push "value",
  (emit "@extend" .keyword).push "selector",
  (emit "@[a-z0-9_-]+" .keyword).push "selector"]

def comments : List (Entry Delegate) := [
  (callback "//[^\\n]*" (Indentation.opensBlock .commentSingle "single-comment")).reset "root",
  (callback "/\\*[^\\n]*" (Indentation.opensBlock .commentMultiline "multi-comment")).reset "root",
  (emit "@import" .keyword).push "import"]

def assignments : List (Entry Delegate) := [
  (emit "=[\\w-]+" .nameFunction).push "value",
  (emit "\\+[\\w-]+" .nameDecorator).push "value",
  (tokens "([!$][\\w-]\\w*)([ \\t]*(?:(?:\\|\\|)?=|:))" [.nameVariable, .operator]).push "value",
  (emit ":" .nameAttribute).push "old-style-attr",
  ((emit "" .nameAttribute).ahead ".+?[=:](?:[^a-z]|$)").push "new-style-attr",
  fallthrough.push "selector"]

def table : TableDraft where
  flags := { ignoreCase := true, multiLine := false }
  states := [
    ("root", [
      emit "[ \\t]*\\n" .text,
      callback "[ \\t]*" (Indentation.lineStart "content")]),
    ("content", comments ++ directives ++ assignments),
    ("single-comment", [
      emit ".+" .commentSingle,
      (emit "\\n" .text).reset "root"]),
    ("multi-comment", [
      emit ".+" .commentMultiline,
      (emit "\\n" .text).reset "root"]),
    ("import", [
      emit "[ \\t]+" .text,
      emit "\\S+" .string,
      (emit "\\n" .text).reset "root"]),
    ("old-style-attr", [
      emit "[^\\s:=\"\\[]+" .nameAttribute,
      (emit "#\\\x7b" .stringInterpol).push "interpolation",
      (emit "[ \\t]*=" .operator).push "value",
      fallthrough.push "value"]),
    ("new-style-attr", [
      emit "[^\\s:=\"\\[]+" .nameAttribute,
      (emit "#\\\x7b" .stringInterpol).push "interpolation",
      (emit "[ \\t]*[=:]" .operator).push "value"]),
    ("inline-comment", [
      emit "(?:\\\\#|[^\\n#*])+" .commentMultiline,
      (emit "#\\\x7b" .stringInterpol).push "interpolation",
      (emit "#" .commentMultiline).ahead "[^\\n\\\x7b]",
      (emit "\\*/" .comment).pop 1,
      (emit "\\*" .commentMultiline).ahead "[^\\n/]"])]
    ++ shared [(emit "\\n" .text).reset "root"]

def lexer : Build Lexer := .plain info table

/-- A name and a colon open an attribute, and so does a single character that ends a statement. -/
def scssRoot : List (Entry Delegate) := [
  emit "\\s+" .text,
  emit "//.*?\\n" .commentSingle,
  emit "/\\*.*?\\*/" .commentMultiline,
  (emit "@import" .keyword).push "value"] ++ directives ++ [
  (tokens "(\\$[\\w-]\\w*)([ \\t]*:)" [.nameVariable, .operator]).push "value",
  ((emit "" .nameAttribute).ahead "[^;\\\x7b\\\x7d][;\\\x7d]").push "attr",
  ((emit "" .nameAttribute).ahead "[^;\\\x7b\\\x7d:]+:[^a-z]").push "attr",
  fallthrough.push "selector"]

def scssTable : TableDraft where
  flags := { ignoreCase := true, multiLine := false, dotAll := true }
  states := [
    ("root", scssRoot),
    ("attr", [
      emit "[^\\s:=\"\\[]+" .nameAttribute,
      (emit "#\\\x7b" .stringInterpol).push "interpolation",
      (emit "[ \\t]*:" .operator).push "value"]),
    ("inline-comment", [
      emit "(?:\\\\#|[^#*])+" .commentMultiline,
      (emit "#\\\x7b" .stringInterpol).push "interpolation",
      (emit "#" .commentMultiline).ahead "[^\\\x7b]",
      (emit "\\*/" .comment).pop 1,
      (emit "\\*" .commentMultiline).ahead "[^/]"])]
    ++ shared [emit "\\n" .text, (emit "[;\\\x7b\\\x7d]" .punctuation).reset "root"]

def scssLexer : Build Lexer := .plain scssInfo scssTable

end RuleLexer.Language.Sass
