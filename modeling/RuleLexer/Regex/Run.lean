import RuleLexer.Regex.Node

/-! Running a pattern. A thread waits for one character and holds what follows it. The threads of
a position are kept in order of preference: `Node.expand` lists the threads a node leads to without
consuming, `advance` moves them over one character, and a thread that has nothing left to match
cuts off those behind it. A choice or loop is entered once per position, by the thread that prefers
it most, so a run takes time proportional to the text and a loop over nothing ends. -/
namespace RuleLexer.Regex
open RuleLexer.Unicode

/-- A place in the text: the characters on its two sides and its byte offset. -/
structure Place where
  before : Option Char
  after : Option Char
  offset : Nat
deriving DecidableEq, Repr

def isWordSide (unicode : Bool) (side : Option Char) : Bool :=
  side.any fun c => if unicode then isWord c else c.isAlphanum || c == '_'

def WordEdge.holds (edge : WordEdge) (before after : Bool) : Bool :=
  match edge with
  | boundary => before != after
  | interior => before == after
  | start => !before && after
  | stop => before && !after
  | startHalf => !before
  | stopHalf => !after

def Look.holds (l : Look) (p : Place) : Bool :=
  match l with
  | textStart => p.before.isNone
  | textEnd => p.after.isNone
  | lineStart => p.before.all (· == '\n')
  | lineEnd => p.after.all (· == '\n')
  | crlfLineStart =>
      p.before.all fun c => c == '\n' || (c == '\r' && p.after != some '\n')
  | crlfLineEnd =>
      p.after.all fun c => c == '\r' || (c == '\n' && p.before != some '\r')
  | word edge unicode => edge.holds (isWordSide unicode p.before) (isWordSide unicode p.after)

/-- The offset last put at each mark. -/
abbrev Slots := List (Option Nat)

structure Thread where
  awaits : CharSet
  rest : List Node
  slots : Slots
deriving Repr

/-- The threads of a position, most preferred last, the numbers of the choices and loops entered
there, and the slots of a thread that has matched. -/
structure Frontier where
  entered : Nat
  threads : List Thread
  matched : Option Slots
deriving Repr

namespace Frontier

def none : Frontier := ⟨0, [], Option.none⟩

def addThread (f : Frontier) (t : Thread) : Frontier :=
  if f.matched.isSome then f else { f with threads := t :: f.threads }

def addMatch (f : Frontier) (slots : Slots) : Frontier :=
  if f.matched.isSome then f else { f with matched := some slots }

/-- Enters a choice or loop unless that was done at this position before. -/
def enter (f : Frontier) (id : Nat) (go : Frontier → Frontier) : Frontier :=
  if f.entered.testBit id then f else go { f with entered := f.entered ||| 1 <<< id }

end Frontier

/-- The threads that a node leads to. `rest` follows the node when it consumes something, `next`
goes on when it consumes nothing; a loop whose body consumed nothing goes no further. -/
def Node.expand (p : Place) :
    Node → (rest : List Node) → (next : Slots → Frontier → Frontier) → Slots → Frontier → Frontier
  | empty, _, next, slots, f => next slots f
  | set s, rest, _, slots, f => f.addThread ⟨s, rest, slots⟩
  | look l, _, next, slots, f => if l.holds p then next slots f else f
  | mark slot, _, next, slots, f => next (slots.set slot (some p.offset)) f
  | seq a b, rest, next, slots, f => a.expand p (b :: rest) (b.expand p rest next) slots f
  | alt id a b, rest, next, slots, f =>
      f.enter id fun f => b.expand p rest next slots (a.expand p rest next slots f)
  | loop id greedy a, rest, next, slots, f =>
      f.enter id fun f =>
        let again := a.expand p (loop id greedy a :: rest) (fun _ f => f) slots
        if greedy then next slots (again f) else again (next slots f)

/-- The threads that a sequence of nodes leads to; the empty one has matched. -/
def expandAll (p : Place) : List Node → Slots → Frontier → Frontier
  | [], slots, f => f.addMatch slots
  | n :: rest, slots, f => n.expand p rest (expandAll p rest) slots f

/-- Moves the threads that await `c` to the place behind it. -/
def advance (p : Place) (c : Char) : List Thread → Frontier → Frontier
  | [], f => f
  | t :: rest, f =>
      if f.matched.isSome then f
      else advance p c rest (if t.awaits.mem c then expandAll p t.rest t.slots f else f)

structure Found where
  stop : Nat
  slots : Slots
deriving Repr

def Frontier.found? (f : Frontier) (stop : Nat) : Option Found :=
  f.matched.map fun slots => ⟨stop, slots⟩

def scan (best : Option Found) (offset : Nat) : List Thread → List Char → Option Found
  | [], _ => best
  | _ :: _, [] => best
  | t :: threads, c :: text =>
      let stop := offset + c.utf8Size
      let f := advance ⟨some c, text.head?, stop⟩ c (t :: threads) .none
      scan ((f.found? stop).or best) stop f.threads.reverse text

/-- The preferred match that starts at the given place; `text` is what follows it. -/
def Node.run (n : Node) (slotCount : Nat) (before : Option Char) (offset : Nat)
    (text : List Char) : Option Found :=
  let p : Place := ⟨before, text.head?, offset⟩
  let f := expandAll p [n] (List.replicate slotCount none) .none
  scan (f.found? offset) offset f.threads.reverse text

end RuleLexer.Regex
