import RuleLexer.Regex.Node
import RuleLexer.Regex.Simplify

/-! The room that a pattern takes when its repetitions are written out. It is counted for an
automaton that reads bytes, in the order of the text or against it, and counted without building
one: a state, a way out of a state by a byte, and a way out by nothing each take their share. A
pattern that takes more than ten megabytes in one of the two directions is refused. -/
namespace RuleLexer.Regex
open RuleLexer.Unicode

namespace Room

inductive Direction
  | forward
  | backward
deriving DecidableEq, Repr

def perState : Nat := 32

/-- For a way out that takes a byte. -/
def perStep : Nat := 8

/-- For a way out that takes nothing. -/
def perLink : Nat := 4

def total (rooms : List Nat) : Nat := rooms.foldl (· + ·) 0

def limit : Nat := 10 * 1024 * 1024

/-- A state with some ways out, each by a byte. -/
def stepState (steps : Nat) : Nat := perState + perStep * steps

/-- A state with some ways out, each by nothing. -/
def linkState (links : Nat) : Nat := perState + perLink * links

/-! Sets as bytes -/

/-- How the characters between two others are written as bytes: the first and the last byte at each
place. -/
abbrev Form := List (Nat × Nat)

/-- The forms of the code points from `first` to `last`. The first byte counts from `lead`, behind
it stand `tail` bytes of six bits. -/
def formsBetween : (tail lead first last : Nat) → List Form
  | 0, lead, first, last => [[(lead + first, lead + last)]]
  | tail + 1, lead, first, last =>
      let block := 64 ^ (tail + 1)
      let low := first / block
      let high := last / block
      let inBlock := fun i first last =>
        (formsBetween tail 0x80 first last).map ((lead + i, lead + i) :: ·)
      if low = high then inBlock low (first % block) (last % block)
      else
        let fromStart := first % block = 0
        let toEnd := last % block = block - 1
        let whole := if fromStart then low else low + 1
        let partly := if toEnd then high + 1 else high
        (if fromStart then [] else inBlock low (first % block) (block - 1)) ++
          (if whole < partly then
            [(lead + whole, lead + (partly - 1)) :: List.replicate (tail + 1) (0x80, 0xBF)]
          else []) ++
          (if toEnd then [] else inBlock high 0 (last % block))

/-- The code points of one length in bytes. -/
structure Plane where
  first : Nat
  last : Nat
  tail : Nat
  lead : Nat

def planes : List Plane :=
  [⟨0, 0x7F, 0, 0⟩, ⟨0x80, 0x7FF, 1, 0xC0⟩, ⟨0x800, 0xD7FF, 2, 0xE0⟩, ⟨0xE000, 0xFFFF, 2, 0xE0⟩,
    ⟨0x10000, maxCode, 3, 0xF0⟩]

/-- The forms of the code points that a plane and a range share. -/
def Plane.forms (p : Plane) (r : CodeRange) : List Form :=
  let first := max r.first p.first
  let last := min r.last p.last
  if first ≤ last then formsBetween p.tail p.lead first last else []

def forms (table : CodeTable) : List Form :=
  table.flatMap fun r => planes.flatMap (·.forms r)

/-- Forms that start alike, together. -/
def byFirst (forms : List Form) : List (List Form) :=
  forms.splitBy fun a b => a.head? == b.head?

/-- What can follow at each place inside some forms, the place before them included. -/
def followers : (fuel : Nat) → List Form → List (List Form)
  | 0, _ => []
  | fuel + 1, forms =>
      forms :: (byFirst forms).flatMap fun alike =>
        let rests := alike.map List.tail
        if rests == [[]] then [] else followers fuel rests

def sharedSteps : Form → Form → Nat
  | p :: ps, q :: qs => if p == q then sharedSteps ps qs + 1 else 0
  | _, _ => 0

/-- In the order of the text, places with the same followers are one state. Against it, forms share
the states of the bytes they start with. -/
def tableRoom (d : Direction) (table : CodeTable) : Nat :=
  if table.all (·.last < 128) then perState + stepState table.length
  else
    let forms := forms table
    match d with
    | .forward =>
        let places := (followers 4 forms).eraseDups
        perState + total (places.map fun place => stepState (byFirst place).length)
    | .backward =>
        let new := (([] :: forms).zip forms).map fun pair =>
          pair.2.length - sharedSteps pair.1 pair.2
        perState + linkState forms.length + perState * total new

def setRoom (d : Direction) (s : CharSet) : Nat :=
  match s.only? with
  | some c => perState * c.utf8Size
  | none => tableRoom d s.codes

/-! Texts that share their beginnings -/

/-- Cut where a text ends while others may go on. -/
def chunks : List (List UInt8) → List (List (List UInt8))
  | [] => [[]]
  | [] :: rest => [] :: chunks rest
  | text :: rest =>
      match chunks rest with
      | chunk :: later => (text :: chunk) :: later
      | [] => [[text]]

def heads (texts : List (List UInt8)) : List UInt8 := (texts.filterMap List.head?).eraseDups

def tailsOf (head : UInt8) (texts : List (List UInt8)) : List (List UInt8) :=
  (texts.filter (·.head? == some head)).map List.tail

/-- The room of a tree of texts. The texts before an end and those behind it have ways of their own;
ends at the top count once. -/
def treeRoom : (fuel : Nat) → List (List UInt8) → Nat
  | 0, _ => 0
  | fuel + 1, texts =>
      let ended := texts.takeWhile List.isEmpty
      let chunks := chunks (ended.take 1 ++ texts.dropWhile List.isEmpty)
      let full := chunks.filter (!·.isEmpty)
      linkState (full.length + (chunks.length - 1)) + total (full.map fun chunk =>
        let heads := heads chunk
        (if heads.length = 1 then perState else stepState heads.length) +
          total (heads.map fun head =>
            let rests := tailsOf head chunk
            if rests.all List.isEmpty then 0 else treeRoom fuel rests))

def textsRoom (d : Direction) (texts : List (List UInt8)) : Nat :=
  let texts := match d with
    | .forward => texts
    | .backward => texts.map List.reverse
  perState + treeRoom ((texts.map List.length).foldl max 0 + 1) texts

/-! Trees -/

/-- The branches read so far: their texts if each is nothing but a text, their number and room. -/
structure Choice where
  texts : Option (List (List UInt8))
  count : Nat
  room : Nat

def Choice.total (d : Direction) (c : Choice) : Nat :=
  if c.count ≤ 1 then c.room
  else match c.texts with
    | some texts => textsRoom d texts
    | none => linkState c.count + perState + c.room

/-- What repetitions add: a state that chooses for every loop and every round that may be left
out. -/
def repeated (low : Nat) (high : Option Nat) (nullable : Bool) (body : Nat) : Nat :=
  match low, high with
  | 0, none => if nullable then body + 2 * linkState 2 + perState else body + linkState 2
  | low, none => low * body + linkState 2
  | 0, some 1 => linkState 2 + body + perState
  | 0, some high => 2 * perState + high * (linkState 2 + body)
  | low, some high =>
      if high ≤ low then low * body
      else low * body + perState + (high - low) * (linkState 2 + body)

end Room

open Room

namespace Ast

/-- A tree that is no alternation is one branch; a set takes the room that `setRoom` gives it. -/
def choice (setRoom : CharSet → Nat) (d : Direction) : Ast → Choice
  | empty => ⟨none, 1, perState⟩
  | look _ => ⟨none, 1, perState⟩
  | set s =>
      let text := s.only?.map fun c => [String.utf8EncodeChar c]
      ⟨text, 1, setRoom s⟩
  | seq a b =>
      let first := a.choice setRoom d
      let second := b.choice setRoom d
      let text := match first.texts, second.texts with
        | some [text], some [later] => some [text ++ later]
        | _, _ => .none
      ⟨text, 1, first.total d + second.total d⟩
  | alt a b =>
      let first := a.choice setRoom d
      let others := b.choice setRoom d
      ⟨do .some ((← first.texts) ++ (← others.texts)), others.count + 1,
        first.total d + others.room⟩
  | scope a => a.choice setRoom d
  | group _ _ a =>
      let marks := if d = .forward then 2 * perState else 0
      ⟨none, 1, (a.choice setRoom d).total d + marks⟩
  | repeated low high _ a =>
      ⟨none, 1, Room.repeated low high a.nullable ((a.choice setRoom d).total d)⟩

/-- The room of a tree with the loop in front that looks for it and the state it ends in; groups,
the whole match among them, are marked in the order of the text only. -/
def room (setRoom : CharSet → Nat) (d : Direction) (a : Ast) : Nat :=
  ((Ast.group 0 none a).choice setRoom d).total d + linkState 2 + perState + stepState 1 + perState

/-- In both directions there is room enough, with so much of it for each set. -/
def fitsWith (setRoom : Direction → CharSet → Nat) (a : Ast) : Bool :=
  a.room (setRoom .forward) .forward ≤ limit && a.room (setRoom .backward) .backward ≤ limit

def fits (a : Ast) : Bool := a.fitsWith setRoom

end Ast

end RuleLexer.Regex
