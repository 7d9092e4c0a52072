import RuleLexer.Regex.Parser
import RuleLexer.Regex.Room
import RuleLexer.Regex.Run

/-! Regular expressions: a pattern that has been read, and its matches in a text. The alternative
written first is preferred, and so are more rounds of a greedy repetition and fewer of a lazy one;
what alternatives share at their start is matched before one is chosen. Of two matches the one that
starts first counts. -/
namespace RuleLexer

structure Regex where
  node : Regex.Node
  groups : List (Nat × Option (List Char))
deriving Repr

namespace Regex

/-- Number 0 is left for the loop that a search puts in front. -/
def compile (pattern : List Char) : Except SyntaxError Regex := do
  let tree := (← parse pattern).simplify
  if tree.fits then .ok ⟨(tree.build 1).1, tree.groups⟩ else .error .tooLarge

/-- The number of groups that a match can set. -/
def groupCount (r : Regex) : Nat := r.groups.length

/-- Two marks for every group up to the last; a group that was dropped keeps its number. -/
def slotCount (r : Regex) : Nat := 2 * (r.groups.map Prod.fst).foldl max 0 + 2

def groupNamed? (r : Regex) (name : String) : Option Nat :=
  (r.groups.find? fun g => g.2 == some name.toList).map Prod.fst

def matchAt (r : Regex) (before : Option Char) (offset : Nat) (text : List Char) :
    Option Found :=
  r.node.run r.slotCount before offset text

/-- The span of a group that took part in the match. -/
def Found.group? (m : Found) (i : Nat) : Option (Nat × Nat) :=
  match m.slots[2 * i]?, m.slots[2 * i + 1]? with
  | some (some start), some (some stop) => some (start, stop)
  | _, _ => none

/-- The pattern behind as little text as possible, as group 0. -/
def anywhere (r : Regex) : Node :=
  .seq (.loop 0 false (.set .all)) (.seq (.mark 0) (.seq r.node (.mark 1)))

/-- The first match in a text; its span is that of group 0. -/
def find? (r : Regex) (text : List Char) : Option Found :=
  r.anywhere.run r.slotCount none 0 text

def isMatch (r : Regex) (text : List Char) : Bool := (r.find? text).isSome

end Regex

end RuleLexer
