import RuleLexer.Build
import RuleLexer.Language.Literal

/-! haXe. A declaration pushes the state for what follows its name and on top of it the one for the
name; the brace that opens the body puts the state for the body in the place of the former. -/
namespace RuleLexer.Language.Haxe
open Entry

def info : LexerInfo where
  name := "haXe"
  aliases := ["hx", "haXe"]
  filenames := ["*.hx"]
  mimeTypes := ["text/haxe"]

def identifier : String := "(?:[a-zA-Z_][a-zA-Z0-9_]*)"

/-- A path of packages and the name of a type, which starts with a capital. -/
def typeName : String := "(?:(?:[a-z0-9_\\.])*[A-Z_][A-Za-z0-9_]*)"

def access : String := "(?:default|null|never)"

def modifier : String := "(?:public|private|override|static|inline|extern|dynamic)"

def operators : String :=
  "(?:=|\\+=|-=|\\*=|/=|%=|&=|\\|=|\\^=|<<=|>>=|>>>=|\\|\\||&&|\\.\\.\\.|==|!=|>|<|>=|<=|" ++
    "\\||&|\\^|<<|>>|>>>|\\+|\\-|\\*|/|%|!|\\+\\+|\\-\\-|~|\\.|\\?|\\:)"

def table : TableDraft where
  flags := { dotAll := true }
  states := [
    ("root", [
      includes "whitespace",
      includes "comments",
      emit modifier .keywordDeclaration,
      includes "enumdef",
      includes "typedef",
      includes "classdef",
      includes "interfacedef",
      includes "imports"]),
    ("comments", [
      emit "//.*?\\n" .commentSingle,
      emit "/\\*.*?\\*/" .commentMultiline,
      emit "#[^\\n]*" .commentPreproc]),
    ("whitespace", [
      includes "comments",
      emit "\\s+" .text]),
    ("codekeywords", [
      emit
        ("\\b(if|else|while|do|for|in|break|continue|" ++
         "return|switch|case|try|catch|throw|null|trace|" ++
         "new|this|super|untyped|cast|callback|here)\\b") .keywordReserved]),
    ("literals", [
      emit "0[xX][0-9a-fA-F]+" .numberHex,
      emit "[0-9]+" .numberInteger,
      emit "[0-9][0-9]*\\.[0-9]+([eE][0-9]+)?[fd]?" .numberFloat,
      emit singleQuoted .stringSingle,
      emit doubleQuoted .stringDouble,
      emit "~/([^\\n])*?/[gisx]*" .stringRegex,
      emit "\\b(true|false|null)\\b" .keywordConstant]),
    ("codeblock", [
      includes "whitespace",
      includes "new",
      includes "case",
      includes "anonfundef",
      includes "literals",
      includes "vardef",
      includes "codekeywords",
      emit "[();,\\[\\]]" .punctuation,
      emit operators .operator,
      emit identifier .name,
      (emit "\\\x7d" .punctuation).pop 1,
      (emit "\\\x7b" .punctuation).pushCurrent]),
    ("propertydef", [
      tokens ("(\\()(" ++ access ++ ")(,)(" ++ access ++ ")(\\))")
        [.punctuation, .keywordReserved, .punctuation, .keywordReserved, .punctuation]]),
    ("new", [
      (emit "\\bnew\\b" .keyword).push "typedecl"]),
    ("case", [
      (tokens ("\\b(case)(\\s+)(" ++ identifier ++ ")(\\s*)(\\()")
         [.keywordReserved, .text, .name, .text, .punctuation]).push "funargdecl"]),
    ("vardef", [
      (tokens ("\\b(var)(\\s+)(" ++ identifier ++ ")")
         [.keywordDeclaration, .text, .nameVariable]).push "vardecl"]),
    ("vardecl", [
      includes "whitespace",
      includes "typelabel",
      (emit "=" .operator).pop 1,
      (emit ";" .punctuation).pop 1]),
    ("instancevardef", [
      emit modifier .keywordDeclaration,
      (tokens ("\\b(var)(\\s+)(" ++ identifier ++ ")")
         [.keywordDeclaration, .text, .nameVariableInstance]).push "instancevardecl"]),
    ("instancevardecl", [
      includes "vardecl",
      includes "propertydef"]),
    ("anonfundef", [
      (emit "\\bfunction\\b" .keywordDeclaration).push "fundecl"]),
    ("instancefundef", [
      emit modifier .keywordDeclaration,
      (tokens ("\\b(function)(\\s+)(" ++ identifier ++ ")")
         [.keywordDeclaration, .text, .nameFunction]).push "fundecl"]),
    ("fundecl", [
      includes "whitespace",
      includes "typelabel",
      includes "generictypedecl",
      (emit "\\(" .punctuation).push "funargdecl",
      ((emit "" .text).ahead "[a-zA-Z0-9_]").pop 1,
      (emit "\\\x7b" .punctuation).replace ["codeblock"],
      (emit ";" .punctuation).pop 1]),
    ("funargdecl", [
      includes "whitespace",
      emit identifier .nameVariable,
      includes "typelabel",
      includes "literals",
      emit "=" .operator,
      emit "," .punctuation,
      emit "\\?" .punctuation,
      (emit "\\)" .punctuation).pop 1]),
    ("typelabel", [
      (emit ":" .punctuation).push "type"]),
    ("typedecl", [
      includes "whitespace",
      emit typeName .nameClass,
      (emit "<" .punctuation).push "generictypedecl",
      ((emit "" .text).ahead "[\\\x7b\\\x7d()=,a-z]").pop 1]),
    ("type", [
      includes "whitespace",
      emit typeName .nameClass,
      (emit "<" .punctuation).push "generictypedecl",
      emit "->" .keywordType,
      ((emit "" .text).ahead "[\\\x7b\\\x7d(),;=]").pop 1]),
    ("generictypedecl", [
      includes "whitespace",
      emit typeName .nameClass,
      (emit "<" .punctuation).pushCurrent,
      (emit ">" .punctuation).pop 1,
      emit "," .punctuation]),
    ("imports", [
      tokens "(package|import|using)(\\s+)([^;]+)(;)"
        [.keywordNamespace, .text, .nameNamespace, .punctuation]]),
    ("typedef", [
      (emit "typedef" .keywordDeclaration).pushAll ["typedefprebody", "typedecl"]]),
    ("typedefprebody", [
      includes "whitespace",
      (tokens "(=)(\\s*)(\\\x7b)" [.punctuation, .text, .punctuation]).replace ["typedefbody"]]),
    ("enumdef", [
      (emit "enum" .keywordDeclaration).pushAll ["enumdefprebody", "typedecl"]]),
    ("enumdefprebody", [
      includes "whitespace",
      (emit "\\\x7b" .punctuation).replace ["enumdefbody"]]),
    ("classdef", [
      (emit "class" .keywordDeclaration).pushAll ["classdefprebody", "typedecl"]]),
    ("classdefprebody", [
      includes "whitespace",
      (emit "(extends|implements)" .keywordDeclaration).push "typedecl",
      (emit "\\\x7b" .punctuation).replace ["classdefbody"]]),
    ("interfacedef", [
      (emit "interface" .keywordDeclaration).pushAll ["interfacedefprebody", "typedecl"]]),
    ("interfacedefprebody", [
      includes "whitespace",
      (emit "(extends)" .keywordDeclaration).push "typedecl",
      (emit "\\\x7b" .punctuation).replace ["classdefbody"]]),
    ("typedefbody", [
      includes "whitespace",
      includes "instancevardef",
      includes "instancefundef",
      (emit ">" .punctuation).push "typedecl",
      emit "," .punctuation,
      (emit "\\\x7d" .punctuation).pop 1]),
    ("enumdefbody", [
      includes "whitespace",
      emit identifier .nameVariableInstance,
      (emit "\\(" .punctuation).push "funargdecl",
      emit ";" .punctuation,
      (emit "\\\x7d" .punctuation).pop 1]),
    ("classdefbody", [
      includes "whitespace",
      includes "instancevardef",
      includes "instancefundef",
      (emit "\\\x7d" .punctuation).pop 1,
      includes "codeblock"])]

def lexer : Build Lexer := .plain info table

end RuleLexer.Language.Haxe
