import RuleLexer.Language.JavaScript

/-! Objective-J: JavaScript with classes, message selectors and a preprocessor. The head of a method
is matched as a whole at the start of a line and lexed again from `function_signature`. -/
namespace RuleLexer.Language.ObjectiveJ
open Entry

def info : LexerInfo where
  name := "Objective-J"
  aliases := ["objective-j", "objectivej", "obj-j", "objj"]
  filenames := ["*.j"]
  mimeTypes := ["text/x-objective-j"]

/-- Blanks and comments, as many as there are. -/
def blanks : String := "(?:\\s|//.*?\\n|/[*].*?[*]/)*"

def name : String := "[a-zA-Z_][a-zA-Z0-9_]*"

def keywordList : List String :=
  ["for", "in", "while", "do", "break", "return", "continue", "switch", "case", "default", "if",
    "else", "throw", "try", "catch", "finally", "new", "delete", "typeof", "instanceof", "void",
    "prototype", "__proto__"]

def directives : List String :=
  ["@selector", "@private", "@protected", "@public", "@encode", "@synchronized", "@try", "@throw",
    "@catch", "@finally", "@end", "@property", "@synthesize", "@dynamic", "@for", "@accessors",
    "new"]

def types : List String :=
  ["int", "long", "float", "short", "double", "char", "unsigned", "signed", "void", "id", "BOOL",
    "bool", "boolean", "IBOutlet", "IBAction", "SEL", "@outlet", "@action"]

def constants : List String := ["TRUE", "YES", "FALSE", "NO", "Nil", "nil", "NULL"]

def functions : List String :=
  ["ABS", "ASIN", "ACOS", "ATAN", "ATAN2", "SIN", "COS", "TAN", "EXP", "POW", "CEIL", "FLOOR",
    "ROUND", "MIN", "MAX", "RAND", "SQRT", "E", "LN2", "LN10", "LOG2E", "LOG10E", "PI", "PI2",
    "PI_2", "SQRT1_2", "SQRT2"]

def statements : List (Entry Delegate) := [
  (emit "(L|@)?\"" .string).push "string",
  emit "(L|@)?'(\\\\.|\\\\[0-7]\x7b1,3\x7d|\\\\x[a-fA-F0-9]\x7b1,2\x7d|[^\\\\'\\n])'" .stringChar,
  emit doubleQuoted .stringDouble,
  emit singleQuoted .stringSingle,
  emit "(\\d+\\.\\d*|\\.\\d+|\\d+)[eE][+-]?\\d+[lL]?" .numberFloat,
  emit "(\\d+\\.\\d*|\\.\\d+|\\d+[fF])[fF]?" .numberFloat,
  emit "0x[0-9a-fA-F]+[Ll]?" .numberHex,
  emit "0[0-7]+[Ll]?" .numberOct,
  emit "\\d+[Ll]?" .numberInteger,
  ((emit "^" .text).ahead "\\s|/|<!--").push "slashstartsregex",
  (emit JavaScript.operators .operator).push "slashstartsregex",
  ((emit "\\\\" .operator).ahead "\\n").push "slashstartsregex",
  (emit "[\\\x7b(\\[;,]" .punctuation).push "slashstartsregex",
  emit "[\\\x7d)\\].]" .punctuation,
  (keywords keywordList .keyword).push "slashstartsregex",
  (keywords ["var", "with", "function"] .keywordDeclaration).push "slashstartsregex",
  keywords directives .keyword,
  keywords types .keywordType,
  emit "(self|super)\\b" .nameBuiltin,
  keywords constants .keywordConstant,
  keywords ["true", "false", "null", "NaN", "Infinity", "undefined"] .keywordConstant,
  keywords functions .keywordConstant,
  keywords JavaScript.builtins .nameBuiltin,
  (groups ("([$a-zA-Z_][a-zA-Z0-9_]*)(" ++ blanks ++ ")")
     [.token .nameFunction, .delegate .running]).ahead "\\(",
  emit "[$a-zA-Z_][a-zA-Z0-9_]*" .name]

def table : TableDraft where
  flags := { dotAll := true }
  states := [
    ("root", [
      includes "whitespace",
      groups
        ("^(" ++ blanks ++ "[\\+-]" ++ blanks ++ ")([\\(a-zA-Z_].*?[^\\(])(" ++ blanks ++
         "\\\x7b)")
        [.delegate .running, .delegate (Delegate.running.within ["root", "function_signature"]),
         .delegate .running],
      (tokens "(@interface|@implementation)(\\s+)" [.keyword, .text]).push "classname",
      (tokens "(@class|@protocol)(\\s*)" [.keyword, .text]).push "forward_classname",
      tokens "(\\s*)(@end)(\\s*)" [.text, .keyword, .text],
      includes "statements",
      emit "[\\\x7b\\(\\)\\\x7d]" .punctuation,
      emit ";" .punctuation]),
    ("whitespace", [
      tokens "(@import)(\\s+)(\"(?:\\\\\\\\|\\\\\"|[^\"])*\")"
        [.commentPreproc, .text, .stringDouble],
      tokens "(@import)(\\s+)(<(?:\\\\\\\\|\\\\>|[^>])*>)"
        [.commentPreproc, .text, .stringDouble],
      tokens "(#(?:include|import))(\\s+)(\"(?:\\\\\\\\|\\\\\"|[^\"])*\")"
        [.commentPreproc, .text, .stringDouble],
      tokens "(#(?:include|import))(\\s+)(<(?:\\\\\\\\|\\\\>|[^>])*>)"
        [.commentPreproc, .text, .stringDouble],
      (emit "#if\\s+0" .commentPreproc).push "if0",
      (emit "#" .commentPreproc).push "macro",
      emit "\\n" .text,
      emit "\\s+" .text,
      emit "\\\\\\n" .text,
      emit "//(\\n|(.|\\n)*?[^\\\\]\\n)" .commentSingle,
      emit "/(\\\\\\n)?[*](.|\\n)*?[*](\\\\\\n)?/" .commentMultiline,
      emit "<!--" .comment]),
    ("slashstartsregex", [
      includes "whitespace",
      (emit slashRegex .stringRegex).pop 1,
      ((emit "" .text).ahead "/").replace ["badregex"],
      fallthrough.pop 1]),
    ("badregex", [
      (emit "\\n" .text).pop 1]),
    ("statements", statements),
    ("classname", [
      (groups ("(" ++ name ++ ")(" ++ blanks ++ ":" ++ blanks ++ ")(" ++ name ++ ")?")
         [.token .nameClass, .delegate .running, .token .nameClass]).pop 1,
      (groups ("(" ++ name ++ ")(" ++ blanks ++ "\\()(" ++ name ++ ")(\\))")
         [.token .nameClass, .delegate .running, .token .nameLabel, .token .text]).pop 1,
      (emit ("(" ++ name ++ ")") .nameClass).pop 1]),
    ("forward_classname", [
      (tokens ("(" ++ name ++ ")(\\s*,\\s*)") [.nameClass, .text]).pushCurrent,
      (tokens ("(" ++ name ++ ")(\\s*;?)") [.nameClass, .text]).pop 1]),
    ("function_signature", [
      includes "whitespace",
      (groups
         ("(\\(" ++ blanks ++ ")([a-zA-Z_][a-zA-Z0-9_]+)(" ++ blanks ++ "\\)" ++ blanks ++
          ")([$a-zA-Z_][a-zA-Z0-9_]+" ++ blanks ++ ":)")
         [.delegate .running, .token .keywordType, .delegate .running,
           .token .nameFunction]).push "function_parameters",
      (groups
         ("(\\(" ++ blanks ++ ")([a-zA-Z_][a-zA-Z0-9_]+)(" ++ blanks ++ "\\)" ++ blanks ++
          ")([$a-zA-Z_][a-zA-Z0-9_]+)")
         [.delegate .running, .token .keywordType, .delegate .running, .token .nameFunction]).pop 1,
      (tokens ("([$a-zA-Z_][a-zA-Z0-9_]+" ++ blanks ++ ":)")
         [.nameFunction]).push "function_parameters",
      (tokens "([$a-zA-Z_][a-zA-Z0-9_]+)" [.nameFunction]).pop 1,
      fallthrough.pop 1]),
    ("function_parameters", [
      includes "whitespace",
      groups
        ("(\\(" ++ blanks ++ ")([^\\)]+)(" ++ blanks ++ "\\)" ++ blanks ++
         ")+([$a-zA-Z_][a-zA-Z0-9_]+)")
        [.delegate .running, .token .keywordType, .delegate .running, .token .text],
      emit ("([$a-zA-Z_][a-zA-Z0-9_]+" ++ blanks ++ ":)") .nameFunction,
      emit "(:)" .nameFunction,
      delegate ("(," ++ blanks ++ "...)") .running,
      emit "([$a-zA-Z_][a-zA-Z0-9_]+)" .text]),
    ("expression", [
      tokens "([$a-zA-Z_][a-zA-Z0-9_]*)(\\()" [.nameFunction, .punctuation],
      (emit "(\\))" .punctuation).pop 1]),
    ("string", [
      (emit "\"" .string).pop 1,
      emit "\\\\([\\\\abfnrtv\"']|x[a-fA-F0-9]\x7b2,4\x7d|[0-7]\x7b1,3\x7d)" .stringEscape,
      emit "[^\\\\\"\\n]+" .string,
      emit "\\\\\\n" .string,
      emit "\\\\" .string]),
    ("macro", [
      emit "[^/\\n\\\\]+" .commentPreproc,
      emit "/[*](.|\\n)*?[*]/" .commentMultiline,
      (emit "//.*?\\n" .commentSingle).pop 1,
      emit "/" .commentPreproc,
      emit "\\\\\\n" .commentPreproc,
      emit "\\\\" .commentPreproc,
      (emit "\\n" .commentPreproc).pop 1]),
    ("if0", [
      (emit "^\\s*#if(?:.*?[^\\\\])??\\n" .commentPreproc).pushCurrent,
      (emit "^\\s*#endif(?:.*?[^\\\\])??\\n" .commentPreproc).pop 1,
      emit ".*?\\n" .comment])]

def lexer : Build Lexer := .plain info table

end RuleLexer.Language.ObjectiveJ
