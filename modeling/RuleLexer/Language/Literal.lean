/-! Literals that several languages write alike. -/
namespace RuleLexer.Language

/-- Text between double quotes, over any number of lines. -/
def doubleQuoted : String := "\"(\\\\\\\\|\\\\\"|[^\"])*\""

/-- Text between single quotes, over any number of lines. -/
def singleQuoted : String := "'(\\\\\\\\|\\\\'|[^'])*'"

/-- A regular expression between slashes, with its flags; a slash in brackets does not end it. -/
def slashRegex : String :=
  "/(\\\\.|[^\\[/\\\\\\n]|\\[(\\\\.|[^\\]\\\\\\n])*\\])+/([gim]+\\b|\\B)"

end RuleLexer.Language
