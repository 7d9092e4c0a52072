import RuleLexer.Catalog
import RuleLexer.Style.Sheet
import RuleLexer.Text.Json

/-! What is printed of tokens and of scores. -/
namespace RuleLexer.Listing
open RuleLexer.Text

/-- A line per token: its category, and its text between quotes. -/
def raw (tokens : List Token) : String :=
  String.join <| tokens.map fun t =>
    t.category.fullName ++ "\t" ++ String.ofList (Quoted.encode t.text.toList) ++ "\n"

/-- Colors that are not set are left out. -/
def style (s : Style) : Json :=
  let color (name : String) : Option String → List (String × Json)
    | none => []
    | some value => [(name, .text value)]
  .object <|
    color "color" s.color? ++ color "bgcolor" s.background? ++ color "border" s.border? ++
      [("bold", .bool s.bold), ("italic", .bool s.italic), ("underline", .bool s.underline)]

def token (sheet? : Option StyleSheet) (t : Token) : Json :=
  let styled := match sheet? with
    | none => []
    | some sheet => [("style", style (sheet.style t.category))]
  .object <|
    [("offset", .number t.offset), ("category", .text t.category.shortPath),
      ("text", .text t.text)] ++ styled

/-- One JSON array, with styles where a sheet is given. -/
def json (sheet? : Option StyleSheet) (tokens : List Token) : String :=
  (Json.array (tokens.map (token sheet?))).pretty ++ "\n"

/-- A line per language, best first. -/
def scores (text : String) : String :=
  String.join <| (Catalog.ranking text).map fun (l, s) => s.twoPlaces ++ "\t" ++ l.info.name ++ "\n"

end RuleLexer.Listing
