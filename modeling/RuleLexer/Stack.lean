/-! The stack of states of a run. It is never empty and at most `maxDepth` deep: a push onto a full
stack is refused, and no pop takes the bottom. Every change advances the generation, which tells a
step that moved through states from one that did nothing. -/
namespace RuleLexer

/-- A state's place in its table. -/
abbrev StateId := Nat

/-- What a rule does to the stack, its states given by name or by place. -/
inductive StackOp (σ : Type)
  | push (states : List σ)
  | pushCurrent
  | pop (count : Nat)
  | replace (states : List σ)
  | reset (state : σ)
deriving DecidableEq, Repr

namespace StackOp

/-- The states that an operation names. -/
def states {σ : Type} : StackOp σ → List σ
  | push states | replace states => states
  | reset state => [state]
  | pushCurrent | pop _ => []

/-- The same operation on other names of the states. -/
def mapM {σ τ : Type} {ε : Type} (f : σ → Except ε τ) : StackOp σ → Except ε (StackOp τ)
  | push states => .push <$> states.mapM f
  | pushCurrent => .ok .pushCurrent
  | pop count => .ok (.pop count)
  | replace states => .replace <$> states.mapM f
  | reset state => .reset <$> f state

end StackOp

structure Stack where
  top : StateId
  below : List StateId
  generation : Nat
deriving DecidableEq, Repr

namespace Stack

def maxDepth : Nat := 256

/-- Top first. -/
def entries (s : Stack) : List StateId := s.top :: s.below

/-- Bottom first. -/
def toList (s : Stack) : List StateId := s.entries.reverse

def depth (s : Stack) : Nat := s.below.length + 1

def bottom (s : Stack) : StateId := s.below.getLast?.getD s.top

/-- The stack with these states, bottom first, as far as they fit. -/
def ofList (generation : Nat) (states : List StateId) (fallback : StateId) : Stack :=
  match (states.take maxDepth).reverse with
  | [] => ⟨fallback, [], generation⟩
  | top :: below => ⟨top, below, generation⟩

def start (initial : List StateId) (fallback : StateId) : Stack := ofList 0 initial fallback

/-- False when the stack is full and stays as it is. -/
def push (s : Stack) (state : StateId) : Stack × Bool :=
  if maxDepth ≤ s.depth then (s, false) else (⟨state, s.entries, s.generation + 1⟩, true)

/-- Pushes in order and counts the pushes that were refused. -/
def pushAll (s : Stack) : List StateId → Stack × Nat
  | [] => (s, 0)
  | state :: rest =>
      let (s, accepted) := s.push state
      let (s, refused) := s.pushAll rest
      (s, if accepted then refused else refused + 1)

/-- Takes off so many entries but for the bottom one, and counts them. -/
def pop (s : Stack) (count : Nat) : Stack × Nat :=
  let removed := min count s.below.length
  match s.entries.drop removed with
  | top :: below =>
      (⟨top, below, if removed = 0 then s.generation else s.generation + 1⟩, removed)
  | [] => (s, 0)

def reset (s : Stack) (state : StateId) : Stack :=
  if s.below = [] ∧ s.top = state then s else ⟨state, [], s.generation + 1⟩

/-- Puts states in the place of the top. Without states this is a pop. -/
def replace (s : Stack) : List StateId → Stack × Nat
  | [] => ((s.pop 1).1, 0)
  | state :: rest =>
      match s.below with
      | [] => (ofList (s.generation + 1) (state :: rest) state, 0)
      | top :: below => pushAll ⟨top, below, s.generation + 1⟩ (state :: rest)

/-- Applies an operation and counts the pushes that were refused. -/
def apply (s : Stack) : StackOp StateId → Stack × Nat
  | .push states => s.pushAll states
  | .pushCurrent => s.pushAll [s.top]
  | .pop count => ((s.pop count).1, 0)
  | .replace states => s.replace states
  | .reset state => (s.reset state, 0)

end Stack

end RuleLexer
