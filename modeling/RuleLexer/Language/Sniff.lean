import RuleLexer.Language.Score
import RuleLexer.Regex.Basic
import RuleLexer.Text.Blank
import RuleLexer.Text.Cursor

/-! Telling languages by what a text holds: a document type at the start, a pair of tags near it,
and signs that some languages have of their own. -/
namespace RuleLexer.Language.Sniff
open RuleLexer.Text

/-- The first match of a pattern that is known to be well formed. -/
def find? (pattern : String) (text : List Char) : Option (Regex × Regex.Found) :=
  match Regex.compile pattern.toList with
  | .ok r => (r.find? text).map fun found => (r, found)
  | .error _ => none

def occurs (pattern : String) (text : List Char) : Bool := (find? pattern text).isSome

/-- An optional instruction and a document type that names a root, a keyword and an identifier. -/
def doctypePattern : String :=
  "(?is)^(<\\?.*?\\?>)?\\s*<!DOCTYPE\\s+" ++
    "([a-zA-Z_][a-zA-Z0-9]*\\s+[a-zA-Z_][a-zA-Z0-9]*\\s+\"[^\"]*\")[^>]*>"

/-- What a text's document type declares, without blanks around it. -/
def doctype? (text : List Char) : Option (List Char) :=
  (find? doctypePattern text).bind fun (_, found) =>
    (found.group? 2).map fun (start, stop) =>
      trim (((Cursor.start text).seek start).upTo stop)

/-- Whether the declaration starts with the first match of a pattern in it. -/
def doctypeStartsWith (r : Regex) (text : List Char) : Bool :=
  match doctype? text with
  | none => false
  | some declaration =>
      match (r.find? declaration).bind (·.group? 0) with
      | some (start, _) => start == 0
      | none => false

def isHtmlDoctype (text : List Char) : Bool :=
  match Regex.compile "(?is)html\\s+PUBLIC\\s+\"-//W3C//DTD X?HTML.*\"".toList with
  | .ok r => doctypeStartsWith r text
  | .error _ => false

/-- Bytes that are searched for a pair of tags. -/
def tagSearch : Nat := 1000

/-- A document type, or a tag that is opened and one that is closed near the start. -/
def looksLikeXml (text : List Char) : Bool :=
  (doctype? text).isSome || occurs "(?is)<(.+?)(\\s.*?)?>.*?</.+?>" (takeBytes tagSearch text)

/-- A name, a colon and something like a type at the very start. -/
def startsWithType (text : List Char) : Bool := occurs "^\\w+\\s*:\\s*\\w" text

def contains (piece : List Char) : List Char → Bool
  | [] => piece.isEmpty
  | c :: rest => piece.isPrefixOf (c :: rest) || contains piece rest

/-- A processing instruction opens somewhere that is not the one of XML. -/
def opensInstruction : List Char → Bool
  | [] => false
  | c :: rest =>
      (match c :: rest with
        | '<' :: '?' :: inside => !"xml".toList.isPrefixOf inside
        | _ => false) || opensInstruction rest

def actionScript3 (text : List Char) : Score := if startsWithType text then ⟨30⟩ else ⟨10⟩

def haxe (text : List Char) : Score := .found 30 (startsWithType text)

/-- An import with a file in brackets or quotes is as good as certain. -/
def objectiveJ (text : List Char) : Score :=
  .found 100 (occurs "(?m)^\\s*@import\\s+[<\"]" text)

def html (text : List Char) : Score := .found 50 (isHtmlDoctype text)

def php (text : List Char) : Score :=
  (Score.found 30 (opensInstruction text)).add (.found 10 (contains "?>".toList text))

def xml (text : List Char) : Score := .found 50 (looksLikeXml text)

def xslt (text : List Char) : Score :=
  .found 80 (looksLikeXml text && contains "<xsl".toList text)

end RuleLexer.Language.Sniff
