import RuleLexer.Language.Css
import RuleLexer.Language.JavaScript

/-! HTML. What stands between script tags is handed to JavaScript, and what stands between style
tags to the language of style sheets. -/
namespace RuleLexer.Language.Html
open Entry

def info : LexerInfo where
  name := "HTML"
  aliases := ["html"]
  filenames := ["*.html", "*.htm", "*.xhtml", "*.xslt"]
  mimeTypes := ["text/html", "application/xhtml+xml"]

def scriptEnd : String := "<\\s*/\\s*script\\s*>"

def styleEnd : String := "<\\s*/\\s*style\\s*>"

def table (script style : Lexer) : TableDraft where
  flags := { ignoreCase := true, multiLine := false, dotAll := true }
  states := [
    ("root", [
      emit "[^<&]+" .text,
      emit "&\\S*?;" .nameEntity,
      emit "<!\\[CDATA\\[.*?\\]\\]>" .commentPreproc,
      (emit "<!--" .comment).push "comment",
      emit "<\\?.*?\\?>" .commentPreproc,
      emit "<![^>]*>" .commentPreproc,
      (emit "<\\s*script\\s*" .nameTag).pushAll ["script-content", "tag"],
      (emit "<\\s*style\\s*" .nameTag).pushAll ["style-content", "tag"],
      (emit "<\\s*[a-zA-Z0-9:]+" .nameTag).push "tag",
      emit "<\\s*/\\s*[a-zA-Z0-9:]+\\s*>" .nameTag]),
    ("comment", [
      emit "[^-]+" .comment,
      (emit "-->" .comment).pop 1,
      emit "-" .comment]),
    ("tag", [
      emit "\\s+" .text,
      (emit "[a-zA-Z0-9_:-]+\\s*=" .nameAttribute).push "attr",
      emit "[a-zA-Z0-9_:-]+" .nameAttribute,
      (emit "/?\\s*>" .nameTag).pop 1]),
    ("script-content", [
      (emit scriptEnd .nameTag).pop 1,
      (delegate ".+?" (.through script)).ahead scriptEnd]),
    ("style-content", [
      (emit styleEnd .nameTag).pop 1,
      (delegate ".+?" (.through style)).ahead styleEnd]),
    ("attr", [
      (emit "\".*?\"" .string).pop 1,
      (emit "'.*?'" .string).pop 1,
      (emit "[^\\s>]+" .string).pop 1])]

def lexer : Build Lexer := do
  let script ← JavaScript.lexer
  let style ← Css.lexer
  .plain info (table script style)

end RuleLexer.Language.Html
