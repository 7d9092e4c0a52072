import RuleLexer.Callback
import RuleLexer.Words

/-! Rules as a table writes them. An entry of a state is a rule or takes in the rules of another
state; modifiers say what a rule does to the stack and what has to follow its match, and pass over
entries that take in a state. -/
namespace RuleLexer

/-- What a group of a match becomes. -/
inductive Emission (δ : Type)
  | token (category : Category)
  | delegate (target : δ)

/-- What a match becomes: a token, a token for each group, what another run makes of it, or what a
callback does with it. -/
inductive Action (δ : Type)
  | emit (category : Category)
  | groups (emissions : List (Emission δ))
  | delegate (target : δ)
  | callback (f : Callback)

inductive Matcher
  | pattern (p : Pattern)
  /-- The patterns of a state, of which the first that matches counts. -/
  | state (name : String) (among : List Matcher)
deriving Repr

namespace Matcher

mutual

def matchAt (place : Text.Cursor) : Matcher → Option Match
  | pattern p => p.matchAt place
  | state _ among => (matchFirst place among).map Match.whole

def matchFirst (place : Text.Cursor) : List Matcher → Option Match
  | [] => none
  | m :: rest => (m.matchAt place).or (matchFirst place rest)

end

/-- The source of a pattern, the name of a state. -/
def source : Matcher → String
  | pattern p => p.source
  | state name _ => name

end Matcher

/-- Where a rule looks: a pattern still to be read, or the matcher of another table's state. -/
inductive RuleSource
  | pattern (source : String) (ahead? : Option String)
  | matcher (m : Matcher)

structure Rule (δ : Type) where
  source : RuleSource
  action : Action δ
  op? : Option (StackOp String) := none

inductive Entry (δ : Type)
  | rule (r : Rule δ)
  | includes (state : String)

namespace Entry
variable {δ : Type}

def pattern (source : String) (action : Action δ) : Entry δ :=
  .rule ⟨.pattern source none, action, none⟩

def emit (source : String) (category : Category) : Entry δ := pattern source (.emit category)

/-- Any of some words, where it ends at the end of a word. -/
def keywords (list : List String) (category : Category) : Entry δ :=
  emit (words list "" "\\b") category

def groups (source : String) (emissions : List (Emission δ)) : Entry δ :=
  pattern source (.groups emissions)

/-- A token for each group. -/
def tokens (source : String) (categories : List Category) : Entry δ :=
  groups source (categories.map .token)

def delegate (source : String) (target : δ) : Entry δ := pattern source (.delegate target)

def callback (source : String) (f : Callback) : Entry δ := pattern source (.callback f)

/-- Matches everywhere and consumes nothing; of use with a stack operation. -/
def fallthrough : Entry δ := emit "" .text

def modify (f : Rule δ → Rule δ) : Entry δ → Entry δ
  | rule r => .rule (f r)
  | includes state => .includes state

/-- What has to follow the match. A matcher of a state takes no such condition. -/
def ahead (e : Entry δ) (source : String) : Entry δ :=
  e.modify fun r => match r.source with
    | .pattern body _ => { r with source := .pattern body (some source) }
    | .matcher _ => r

def withOp (e : Entry δ) (op : StackOp String) : Entry δ := e.modify ({ · with op? := some op })

/-- Adds to what is pushed already, in place of any other operation. -/
def pushAll (e : Entry δ) (states : List String) : Entry δ :=
  e.modify fun r => { r with op? := some <| match r.op? with
    | some (.push before) => .push (before ++ states)
    | some (.replace before) => .replace (before ++ states)
    | _ => .push states }

def push (e : Entry δ) (state : String) : Entry δ := e.pushAll [state]

def pushCurrent (e : Entry δ) : Entry δ := e.withOp .pushCurrent

def pop (e : Entry δ) (count : Nat) : Entry δ := e.withOp (.pop count)

def replace (e : Entry δ) (states : List String) : Entry δ := e.withOp (.replace states)

def reset (e : Entry δ) (state : String) : Entry δ := e.withOp (.reset state)

end Entry

end RuleLexer
