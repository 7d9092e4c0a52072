import RuleLexer.Style

/-! Style sheets. A sheet gives every category a style: its own definition on top of what its
parent has, or what its parent has. -/
namespace RuleLexer

structure StyleSheet where
  name : String
  /-- Behind the whole text. -/
  background : String := "#ffffff"
  /-- Behind lines that stand out. -/
  highlight : String := "#ffffcc"
  /-- Categories with a definition of their own, in order. -/
  defined : Array Category
  /-- Every category, parents first. -/
  styles : List (Category × Style)
deriving Repr

namespace StyleSheet

abbrev Definitions := List (Category × String)

/-- Of two definitions for a category the later one stands. -/
def definition? (definitions : Definitions) (category : Category) : Option String :=
  definitions.reverse.lookup category

/-- The root inherits from the base. -/
def inherited (base : Style) (styles : List (Category × Style)) (category : Category) : Style :=
  (category.parent?.bind fun parent => styles.lookup parent).getD base

def resolve (base : Style) (definitions : Definitions) (styles : List (Category × Style))
    (category : Category) : Except StyleError (List (Category × Style)) := do
  let above := inherited base styles category
  let style ← match definition? definitions category with
    | none => .ok above
    | some definition => Style.define category base above definition
  .ok (styles ++ [(category, style)])

/-- Parents first, and each category once. -/
def inOrder (categories : List Category) : List Category :=
  (categories.mergeSort fun a b => a.index ≤ b.index).eraseReps

/-- The definition of the whole sheet counts as one for the root. -/
def ofDefinitions (name whole : String) (definitions : Definitions) :
    Except StyleError StyleSheet := do
  let base ← Style.define .token {} {} whole
  let styles ← Category.all.foldlM (resolve base definitions) []
  .ok { name, defined := (inOrder (definitions.map Prod.fst)).toArray, styles }

def withBackground (s : StyleSheet) (background highlight : String) : StyleSheet :=
  { s with background, highlight }

/-- That of the nearest category upwards that has one. -/
def style (s : StyleSheet) (category : Category) : Style :=
  (category.ancestors.findSome? fun c => s.styles.lookup c).getD {}

def defines (s : StyleSheet) (category : Category) : Bool :=
  s.defined.binSearchContains category fun a b => a.index < b.index

end StyleSheet

end RuleLexer
