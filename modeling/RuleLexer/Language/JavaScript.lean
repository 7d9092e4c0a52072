import RuleLexer.Build
import RuleLexer.Language.Literal

/-! JavaScript. A slash opens a regular expression only where an operand is expected: at the very
start, after an operator, an opening bracket or a keyword. The rules for these push
`slashstartsregex`, which takes one such literal or gives up without consuming anything. -/
namespace RuleLexer.Language.JavaScript
open Entry

def info : LexerInfo where
  name := "JavaScript"
  aliases := ["js", "javascript"]
  filenames := ["*.js"]
  mimeTypes := ["application/x-javascript", "text/x-javascript", "text/javascript"]

/-- What a slash may follow that opens a regular expression. -/
def operators : String := "\\+\\+|--|~|&&|\\?|:|\\|\\||(<<|>>>?|==?|!=?|[-<>+*%&\\|\\^/])=?"

def keywordList : List String :=
  ["for", "in", "while", "do", "break", "return", "continue", "switch", "case", "default", "if",
    "else", "throw", "try", "catch", "finally", "new", "delete", "typeof", "instanceof", "void",
    "this"]

def reservedList : List String :=
  ["abstract", "boolean", "byte", "char", "class", "const", "debugger", "double", "enum",
    "export", "extends", "final", "float", "goto", "implements", "import", "int", "interface",
    "long", "native", "package", "private", "protected", "public", "short", "static", "super",
    "synchronized", "throws", "transient", "volatile"]

def builtins : List String :=
  ["Array", "Boolean", "Date", "Error", "Function", "Math", "netscape", "Number", "Object",
    "Packages", "RegExp", "String", "sun", "decodeURI", "decodeURIComponent", "encodeURI",
    "encodeURIComponent", "eval", "isFinite", "isNaN", "parseFloat", "parseInt", "document",
    "this", "window"]

def table : TableDraft where
  flags := { multiLine := false, dotAll := true }
  states := [
    ("commentsandwhitespace", [
      emit "\\s+" .text,
      emit "<!--" .comment,
      emit "//.*?\\n" .commentSingle,
      emit "/\\*.*?\\*/" .commentMultiline]),
    ("slashstartsregex", [
      includes "commentsandwhitespace",
      (emit slashRegex .stringRegex).pop 1,
      ((emit "" .text).ahead "/").replace ["badregex"],
      fallthrough.pop 1]),
    ("badregex", [
      (emit "\\n" .text).pop 1]),
    ("root", [
      ((emit "^" .text).ahead "\\s|/|<!--").push "slashstartsregex",
      includes "commentsandwhitespace",
      (emit operators .operator).push "slashstartsregex",
      ((emit "\\\\" .operator).ahead "\\n").push "slashstartsregex",
      (emit "[\\\x7b(\\[;,]" .punctuation).push "slashstartsregex",
      emit "[\\\x7d)\\].]" .punctuation,
      (keywords keywordList .keyword).push "slashstartsregex",
      (keywords ["var", "with", "function"] .keywordDeclaration).push "slashstartsregex",
      keywords reservedList .keywordReserved,
      keywords ["true", "false", "null", "NaN", "Infinity", "undefined"] .keywordConstant,
      keywords builtins .nameBuiltin,
      emit "[$a-zA-Z_][a-zA-Z0-9_]*" .nameOther,
      emit "[0-9][0-9]*\\.[0-9]+([eE][0-9]+)?[fd]?" .numberFloat,
      emit "0x[0-9a-fA-F]+" .numberHex,
      emit "[0-9]+" .numberInteger,
      emit doubleQuoted .stringDouble,
      emit singleQuoted .stringSingle])]

def lexer : Build Lexer := .plain info table

end RuleLexer.Language.JavaScript
