import RuleLexer.Language.ActionScript

/-! XML and two dialects. XSLT gives the tags of its instructions a category of their own, and MXML
hands what a CDATA section holds to ActionScript 3. -/
namespace RuleLexer.Language.Xml
open Entry

def info : LexerInfo where
  name := "XML"
  aliases := ["xml"]
  filenames := ["*.xml", "*.xsl", "*.rss", "*.xslt", "*.xsd", "*.wsdl"]
  mimeTypes := ["text/xml", "application/xml", "image/svg+xml", "application/rss+xml",
    "application/atom+xml", "application/xsl+xml", "application/xslt+xml"]

def xsltInfo : LexerInfo where
  name := "XSLT"
  aliases := ["xslt"]
  filenames := ["*.xsl", "*.xslt"]

def mxmlInfo : LexerInfo where
  name := "MXML"
  aliases := ["mxml"]
  filenames := ["*.mxml"]

/-- The elements of a transformation that are instructions. -/
def instructions : List String :=
  ["apply-imports", "apply-templates", "attribute", "attribute-set", "call-template", "choose",
    "comment", "copy", "copy-of", "decimal-format", "element", "fallback", "for-each", "if",
    "import", "include", "key", "message", "namespace-alias", "number", "otherwise", "output",
    "param", "preserve-space", "processing-instruction", "sort", "strip-space", "stylesheet",
    "template", "text", "transform", "value-of", "variable", "when", "with-param"]

/-- The markup of every dialect, with its rule for CDATA sections. -/
def markup (cdata : Entry Delegate) : TableDraft where
  flags := { dotAll := true }
  states := [
    ("root", [
      emit "[^<&]+" .text,
      emit "&\\S*?;" .nameEntity,
      cdata,
      (emit "<!--" .comment).push "comment",
      emit "<\\?.*?\\?>" .commentPreproc,
      emit "<![^>]*>" .commentPreproc,
      (emit "<\\s*[a-zA-Z0-9:._-]+" .nameTag).push "tag",
      emit "<\\s*/\\s*[a-zA-Z0-9:._-]+\\s*>" .nameTag]),
    ("comment", [
      emit "[^-]+" .comment,
      (emit "-->" .comment).pop 1,
      emit "-" .comment]),
    ("tag", [
      emit "\\s+" .text,
      (emit "[a-zA-Z0-9_.:-]+\\s*=" .nameAttribute).push "attr",
      (emit "/?\\s*>" .nameTag).pop 1]),
    ("attr", [
      emit "\\s+" .text,
      (emit "\".*?\"" .string).pop 1,
      (emit "'.*?'" .string).pop 1,
      (emit "[^\\s>]+" .string).pop 1])]

def table : TableDraft := markup (emit "<!\\[CDATA\\[.*?\\]\\]>" .commentPreproc)

def lexer : Build Lexer := .plain info table

/-- What a tag of the transformation's namespace says behind the colon, up to the bracket that
closes it. -/
def instruction? (tag : List Char) : Option (List Char) :=
  let name? : List Char → Option (List Char)
    | 'x' :: 's' :: 'l' :: ':' :: rest => some (rest.takeWhile (· != '>'))
    | _ => none
  match tag with
  | '<' :: '/' :: rest => name? rest
  | '<' :: rest => name? rest
  | _ => none

def markInstructions : TokenFilter := fun category text =>
  match instruction? text.toList with
  | some name =>
      if category = .nameTag ∧ instructions.contains (String.ofList name) then .keyword
      else category
  | none => category

def xsltLexer : Build Lexer := do
  let table ← .table table
  .lexer { info := xsltInfo, table, filter? := some markInstructions }

def mxmlTable (script : Lexer) : TableDraft :=
  markup (groups "(<!\\[CDATA\\[)(.*?)(\\]\\]>)"
    [.token .string, .delegate (.through script), .token .string])

def mxmlLexer : Build Lexer := do
  let script ← ActionScript.lexer3
  .plain mxmlInfo (mxmlTable script)

end RuleLexer.Language.Xml
