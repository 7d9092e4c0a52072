import RuleLexer.Language.JavaScript

/-! CoffeeScript. Regular expressions are found as in JavaScript, but a name can also stand in front
of one, since a call needs no parentheses. -/
namespace RuleLexer.Language.CoffeeScript
open Entry

def info : LexerInfo where
  name := "CoffeeScript"
  aliases := ["coffee-script", "coffeescript"]
  filenames := ["*.coffee"]
  mimeTypes := ["text/coffeescript"]

def operators : String :=
  "\\+\\+|--|~|&&|\\band\\b|\\bor\\b|\\bis\\b|\\bisnt\\b|\\bnot\\b|\\?|:|\\|\\||(<<|>>>?|" ++
    "==?|!=?|[-<>+*`%&\\|\\^/])=?"

def keywordList : List String :=
  ["for", "in", "of", "while", "break", "return", "continue", "switch", "when", "then", "if",
    "else", "throw", "try", "catch", "finally", "new", "delete", "typeof", "instanceof", "super",
    "extends", "this"]

def constants : List String :=
  ["true", "false", "yes", "no", "on", "off", "null", "NaN", "Infinity", "undefined"]

def table : TableDraft where
  flags := { multiLine := false, dotAll := true }
  states := [
    ("commentsandwhitespace", [
      emit "\\s+" .text,
      emit "#.*?\\n" .commentSingle]),
    ("slashstartsregex", [
      includes "commentsandwhitespace",
      (emit slashRegex .stringRegex).pop 1,
      ((emit "" .text).ahead "/").replace ["badregex"],
      fallthrough.pop 1]),
    ("badregex", [
      (emit "\\n" .text).pop 1]),
    ("root", [
      ((emit "^" .text).ahead "\\s|/|<!--").push "slashstartsregex",
      includes "commentsandwhitespace",
      (emit operators .operator).push "slashstartsregex",
      ((emit "\\\\" .operator).ahead "\\n").push "slashstartsregex",
      (emit "[\\\x7b(\\[;,]" .punctuation).push "slashstartsregex",
      emit "[\\\x7d)\\].]" .punctuation,
      (keywords keywordList .keyword).push "slashstartsregex",
      keywords constants .keywordConstant,
      keywords JavaScript.builtins .nameBuiltin,
      (emit "[$a-zA-Z_][a-zA-Z0-9_\\.:]*\\s*:\\s" .nameVariable).push "slashstartsregex",
      (emit "@[$a-zA-Z_][a-zA-Z0-9_\\.:]*\\s*:\\s" .nameVariableInstance).push "slashstartsregex",
      (emit "@?[$a-zA-Z_][a-zA-Z0-9_]*" .nameOther).push "slashstartsregex",
      emit "[0-9][0-9]*\\.[0-9]+([eE][0-9]+)?[fd]?" .numberFloat,
      emit "0x[0-9a-fA-F]+" .numberHex,
      emit "[0-9]+" .numberInteger,
      emit doubleQuoted .stringDouble,
      emit singleQuoted .stringSingle])]

def lexer : Build Lexer := .plain info table

end RuleLexer.Language.CoffeeScript
