import RuleLexer.Memo
import RuleLexer.Pattern
import RuleLexer.Stack

/-! Callbacks. A callback looks at a match and answers with a script: calls that emit tokens, move
the place where scanning goes on, change the stack and keep values, each followed by what is to be
done in view of its outcome. Every branch of a script is finite. -/
namespace RuleLexer
open RuleLexer.Text

inductive Call
  /-- Emits from the cursor up to an offset. -/
  | emit (stop : Nat) (category : Category)
  /-- Emits the text before `start` as plain text first. -/
  | emitRange (start stop : Nat) (category : Category)
  /-- Where scanning goes on; the end of the match if this is never said. -/
  | continueAt (offset : Nat)
  | push (state : String)
  | pop (count : Nat)
  | reset (state : String)
  | keep (key : String) (value : MemoValue)
  | drop (key : String)
  | dropAll
  /-- Changes nothing and notes where the run stands. -/
  | observe (label : String)
deriving DecidableEq, Repr

/-- What a call answers: a push or a reset whether it took place, a pop how many states it took. -/
inductive Reply
  | none
  | accepted (yes : Bool)
  | popped (count : Nat)
deriving DecidableEq, Repr

/-- What a callback sees of the run. -/
structure View where
  cursor : Nat
  position : Nat
  /-- The names of the states, bottom first. -/
  stack : List String
  memo : Memo
deriving Repr

namespace View

/-- The state on top. -/
def state (v : View) : String := v.stack.getLast?.getD ""

def depth (v : View) : Nat := v.stack.length

end View

inductive Script
  | done
  | call (c : Call) (next : View → Reply → Script)

namespace Script

/-- A call whose outcome does not matter. -/
def run (c : Call) (rest : Script) : Script := .call c fun _ _ => rest

/-- A call whose outcome does not matter, and what is done in view of the run afterwards. -/
def see (c : Call) (rest : View → Script) : Script := .call c fun view _ => rest view

end Script

/-- Given the match, the place where it starts and how the run stands. -/
abbrev Callback := Match → Cursor → View → Script

end RuleLexer
