import RuleLexer.Build
import RuleLexer.Language.PhpFunctions

/-! PHP. Text outside of `<?php` and `?>` is left as it is. The names of functions that the language
brings along are told apart after scanning, for the chapters that are not disabled. -/
namespace RuleLexer.Language.Php
open Entry RuleLexer.Text

def info : LexerInfo where
  name := "PHP"
  aliases := ["php", "php3", "php4", "php5"]
  filenames := ["*.php", "*.php[345]"]
  mimeTypes := ["text/x-php"]

def keywordList : List String :=
  ["and", "E_PARSE", "old_function", "E_ERROR", "or", "as", "E_WARNING", "parent", "eval",
    "PHP_OS", "break", "exit", "case", "extends", "PHP_VERSION", "cfunction", "FALSE", "print",
    "for", "require", "continue", "foreach", "require_once", "declare", "return", "default",
    "static", "do", "switch", "die", "stdClass", "echo", "else", "TRUE", "elseif", "var", "empty",
    "if", "xor", "enddeclare", "include", "virtual", "endfor", "include_once", "while",
    "endforeach", "global", "__FILE__", "endif", "list", "__LINE__", "endswitch", "new",
    "__sleep", "endwhile", "not", "array", "__wakeup", "E_ALL", "NULL", "final",
    "php_user_filter", "interface", "implements", "public", "private", "protected", "abstract",
    "clone", "try", "catch", "throw", "this", "use", "namespace"]

/-- Any of these words, where a word ends. -/
def keywordPattern : String := "(" ++ String.intercalate "|" keywordList ++ ")\\b"

/-- What opens a text that goes on to a line with the name that stands here. -/
def heredocOpener : String := "<<<('?)([a-zA-Z_][a-zA-Z0-9_]*)('?)\\n"

def operatorChars : List Char := "~!%^&*+=|:.<>/?@-".toList

/-- A text was cut at an offset that is inside a character or beyond the end. -/
structure CutError where
  offset : Nat
deriving DecidableEq, Repr

/-- The place at an offset that is taken to be one. -/
def cut (text : Cursor) (offset : Nat) : Except CutError Cursor :=
  match text.seek? offset with
  | some place => .ok place
  | none => .error ⟨offset⟩

/-- The case of ASCII letters does not matter. -/
def sameIgnoringCase (a b : List Char) : Bool := a.map Char.toLower == b.map Char.toLower

/-- The end of a line, with its line break, when there is at most a semicolon from an offset on. -/
def lineEnd? (line : Cursor) (offset : Nat) : Except CutError (Option Nat) := do
  let behind ← cut line offset
  let last := if behind.ahead.head? = some ';' then offset + 1 else offset
  let ending ← cut line last
  return if ending.ahead.head? = some '\n' then some (last + 1) else none

/-- The end of the line at a place, if it holds the name and at most a semicolon behind it. -/
def closingEnd? (name : List Char) (line : Cursor) : Except CutError (Option Nat) :=
  let stop := line.offset + byteLength name
  match line.seek? stop with
  | none => .ok none
  | some _ => if sameIgnoringCase (line.upTo stop) name then lineEnd? line stop else .ok none

/-- Looks behind each line break until something is found. -/
def searchLines (look : Cursor → Except CutError (Option Nat)) (passed : List Char) (offset : Nat) :
    (ahead : List Char) → Except CutError (Option Nat)
  | [] => .ok none
  | c :: ahead =>
      if c = '\n' then
        match look ⟨c :: passed, ahead, offset + c.utf8Size⟩ with
        | .ok none => searchLines look (c :: passed) (offset + c.utf8Size) ahead
        | result => result
      else searchLines look (c :: passed) (offset + c.utf8Size) ahead

/-- The end of the first line behind an offset that closes the text. The line in which the offset
lies does not count. -/
def heredocEnd? (name : List Char) (text : Cursor) (start : Nat) : Except CutError (Option Nat) :=
  match text.seek? start with
  | none => .ok none
  | some body => searchLines (closingEnd? name) body.passed body.offset body.ahead

/-- The end of the text that a match opens, when the quotes around its name are the same. No cut of
the search fails. -/
def heredocStop? (found : Match) (place : Cursor) : Option Nat :=
  let text (group : Nat) : Option (List Char) :=
    (found.group? group).map fun span => (place.seek span.start).upTo span.stop
  match text 1, text 2, text 3 with
  | some opening, some name, some closing =>
      if opening = closing then
        match heredocEnd? name place found.stop with
        | .ok stop? => stop?
        | .error _ => none
      else none
  | _, _, _ => none

/-- A text that is not closed leaves only the operator that opens it. -/
def heredoc : Callback := fun found place _ =>
  match heredocStop? found place with
  | some stop => .run (.emit stop .string) <| .run (.continueAt stop) .done
  | none =>
      let operator := (place.upTo found.stop).takeWhile operatorChars.contains
      let stop := found.start + byteLength operator
      .run (.emit stop .operator) <| .run (.continueAt stop) .done

def table : TableDraft where
  flags := { ignoreCase := true, dotAll := true }
  states := [
    ("root", [
      (emit "<\\?(php)?" .commentPreproc).push "php",
      emit "[^<]+" .other,
      emit "<" .other]),
    ("php", [
      (emit "\\?>" .commentPreproc).pop 1,
      callback heredocOpener heredoc,
      emit "\\s+" .text,
      emit "#.*?\\n" .commentSingle,
      emit "//.*?\\n" .commentSingle,
      emit "/\\*\\*/" .commentMultiline,
      emit "/\\*\\*.*?\\*/" .stringDoc,
      emit "/\\*.*?\\*/" .commentMultiline,
      tokens "(->|::)(\\s*)([a-zA-Z_][a-zA-Z0-9_]*)" [.operator, .text, .nameAttribute],
      emit "[~!%^&*+=|:.<>/?@-]+" .operator,
      emit "[\\[\\]\\\x7b\\\x7d();,]+" .punctuation,
      (tokens "(class)(\\s+)" [.keyword, .text]).push "classname",
      (tokens "(function)(\\s*)" [.keyword, .text]).ahead "\\(",
      (tokens "(function)(\\s+)(&?)(\\s*)" [.keyword, .text, .operator, .text]).push "functionname",
      tokens "(const)(\\s+)([a-zA-Z_][a-zA-Z0-9_]*)" [.keyword, .text, .nameConstant],
      emit keywordPattern .keyword,
      emit "(true|false|null)\\b" .keywordConstant,
      emit "\\$\\\x7b\\$+[a-zA-Z_][a-zA-Z0-9_]*\\\x7d" .nameVariable,
      emit "\\$+[a-zA-Z_][a-zA-Z0-9_]*" .nameVariable,
      emit "[\\\\a-zA-Z_][\\\\a-zA-Z0-9_]*" .nameOther,
      emit "0[xX][0-9a-fA-F]+[Ll]?|[0-9]+(\\.[0-9]*)?([eE][+-]?[0-9]+)?[flFLdD]?" .number,
      emit "'([^'\\\\]*(?:\\\\.[^'\\\\]*)*)'" .stringSingle,
      emit "`([^`\\\\]*(?:\\\\.[^`\\\\]*)*)`" .stringBacktick,
      (emit "\"" .stringDouble).push "string"]),
    ("classname", [
      (emit "[a-zA-Z_][\\\\a-zA-Z0-9_]*" .nameClass).pop 1]),
    ("functionname", [
      (emit "[a-zA-Z_][a-zA-Z0-9_]*" .nameFunction).pop 1]),
    ("string", [
      (emit "\"" .stringDouble).pop 1,
      emit "[^\\\x7b$\"\\\\]+" .stringDouble,
      emit "\\\\([nrt\"$]|[0-7]\x7b1,3\x7d|x[0-9A-Fa-f]\x7b1,2\x7d)" .stringEscape,
      emit "\\$[a-zA-Z_][a-zA-Z0-9_]*(\\[\\S+\\]|->[a-zA-Z_][a-zA-Z0-9_]*)?" .stringInterpol,
      groups "(\\\x7b\\$\\\x7b)(.*?)(\\\x7d\\\x7d)"
        [.token .stringInterpol, .delegate (Delegate.running.within ["root", "php"]),
         .token .stringInterpol],
      groups "(\\\x7b)(\\$.*?)(\\\x7d)"
        [.token .stringInterpol, .delegate (Delegate.running.within ["root", "php"]),
         .token .stringInterpol],
      tokens "(\\$\\\x7b)(\\S+)(\\\x7d)" [.stringInterpol, .nameVariable, .stringInterpol],
      emit "[$\\\x7b\\\\]+" .stringDouble])]

/-- The functions of the chapters that are not disabled. -/
def functionsWithout (disabled : List String) : List String :=
  (chapters.filter fun c => !disabled.contains c.name).flatMap (·.functions)

def markFunctions (functions : List String) : TokenFilter := fun category text =>
  if category = .nameOther ∧ functions.contains text then .nameBuiltin else category

/-- Disabled chapters, as far as there are chapters of the names, and a note of each name that there
is not. -/
def disabledChapters (report : OptionReport) : List String × OptionReport :=
  let named := report.list "disabledmodules" [undescribed]
  let unknown := named.filter fun name => !chapterNames.contains name
  (named.filter chapterNames.contains,
    unknown.foldl (fun r name => r.add (.unknownValue "disabledmodules" name chapterNames)) report)

def lexer (options : Options) : Build Lexer := do
  let report : OptionReport := { lexer := info.name, options }
  let (inline, report) := report.flag "startinline" false
  let (highlight, report) := report.flag "funcnamehighlighting" true
  let (disabled, report) := disabledChapters report
  .options report
  let table ← .table table
  .lexer
    { info, table
      initial? := if inline then some ["root", "php"] else none
      filter? := if highlight then some (markFunctions (functionsWithout disabled)) else none
      optionErrors := report.errors }

end RuleLexer.Language.Php
