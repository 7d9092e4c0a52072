import RuleLexer.Notice
import RuleLexer.Table.Compile

/-! Runs of a lexer over a text. A step tries the rules of the state on top of the stack at the
cursor; the first that matches decides what is emitted, where scanning goes on and what happens to
the stack, and where none matches one character is emitted by itself. A step that neither moves
nor changes the stack ends with such a character too, and so does the last of too many steps in a
row that only change the stack, so every run comes to the end of its text. -/
namespace RuleLexer
open RuleLexer.Text

/-- Steps in a row that may leave the cursor where it is. -/
def maxZeroSteps : Nat := 64

/-- Runs within runs. -/
def maxDelegation : Nat := 32

structure Run where
  lexer : Lexer
  cursor : Cursor
  stack : Stack
  memo : Memo := .empty
  /-- Emitted and not yet taken, in order. -/
  pending : List Token := []
  zeroSteps : Nat := 0
  /-- The number of runs around this one. -/
  depth : Nat := 0
  warned : Bool := false
  /-- Latest first. -/
  notices : List Notice := []

/-- Runs a lexer from some states over a piece of text to its end. -/
abbrev Runner := Lexer → List StateId → List Char → List Token × List Notice

namespace Run

def start (lexer : Lexer) (states : List StateId) (text : List Char) (depth : Nat) : Run :=
  { lexer, cursor := .start text, stack := .start states lexer.table.root, depth }

def table (r : Run) : Table := r.lexer.table

def position (r : Run) : Nat := r.cursor.offset

def nameOf (r : Run) (state : StateId) : String := (r.table.stateName? state).getD ""

def stateName (r : Run) : String := r.nameOf r.stack.top

/-- Bottom first. -/
def stackNames (r : Run) : List String := r.lexer.namesOf r.stack.toList

def note (r : Run) (n : Notice) : Run := { r with notices := n :: r.notices }

/-- Emits a piece of the text, unless it is empty. -/
def emit (r : Run) (offset : Nat) (category : Category) (piece : List Char) : Run :=
  if piece.isEmpty then r
  else { r with pending := r.pending ++ [⟨offset, category, String.ofList piece⟩] }

/-- Hands a piece to another run. Without a runner the runs are nested too deeply already, and the
piece is emitted as it is. -/
def delegate (runner? : Option Runner) (r : Run) (target : Target) (offset : Nat)
    (piece : List Char) : Run :=
  if piece.isEmpty then r
  else match runner? with
    | none =>
        let span : Span := ⟨offset, offset + byteLength piece⟩
        (r.note (.delegationRefused span r.lexer.name r.depth)).emit offset .other piece
    | some runner =>
        let (lexer, states?) := match target with
          | .this states? => (r.lexer, states?)
          | .lexer l states? => (l, states?)
        let (tokens, notices) := runner lexer (states?.getD lexer.initial) piece
        { r with
          pending := r.pending ++ tokens.map (·.shift offset)
          notices := notices ++ r.notices }

/-- Emits the groups of a match in order. A group that is empty, or that starts before the end of
the last one emitted, is passed over; what lies between groups is plain text. -/
def emitGroups (runner? : Option Runner) (r : Run) (found : Match) :
    (index : Nat) → (place : Cursor) → List (Emission Target) → Run
  | _, place, [] => r.emit place.offset .text (place.upTo found.stop)
  | index, place, e :: rest =>
      match found.group? index with
      | none => emitGroups runner? r found (index + 1) place rest
      | some span =>
          if span.stop ≤ span.start ∨ span.start < place.offset then
            emitGroups runner? r found (index + 1) place rest
          else
            let r := r.emit place.offset .text (place.upTo span.start)
            let begun := place.seek span.start
            let piece := begun.upTo span.stop
            let r := match e with
              | .token category => r.emit span.start category piece
              | .delegate target => r.delegate runner? target span.start piece
            emitGroups runner? r found (index + 1) (begun.seek span.stop) rest

def noteRefused (r : Run) : (refused : Nat) → Run
  | 0 => r
  | refused + 1 => noteRefused (r.note (.pushRefused Stack.maxDepth)) refused

/-- A full stack stays as it is, and each push it refuses is noted. -/
def change (r : Run) (op : StackOp StateId) : Run :=
  let (stack, refused) := r.stack.apply op
  noteRefused { r with stack } refused

end Run

/-- A run in the middle of a callback: what has been emitted of the text, and where scanning is to
go on. -/
structure Session where
  run : Run
  cursor : Cursor
  position : Cursor

namespace Session

def view (s : Session) : View :=
  ⟨s.cursor.offset, s.position.offset, s.run.stack.toList.map s.run.nameOf, s.run.memo⟩

@[simp] theorem state_view (s : Session) : s.view.state = s.run.stateName := by
  simp [view, View.state, Stack.toList, Stack.entries, Run.stateName]

@[simp] theorem depth_view (s : Session) : s.view.depth = s.run.stack.depth := by
  simp [view, View.depth, Stack.toList, Stack.entries, Stack.depth]

/-- A place at or before the cursor emits nothing. -/
def emit (s : Session) (stop : Nat) (category : Category) : Session :=
  let target := s.cursor.seek stop
  if target.offset ≤ s.cursor.offset then s
  else
    { s with
      run := s.run.emit s.cursor.offset category (s.cursor.upTo target.offset)
      cursor := target }

def unknownState (s : Session) (state : String) : Session × Reply :=
  let span : Span := ⟨s.cursor.offset, s.position.offset⟩
  ({ s with run := s.run.note (.unknownState span state) }, .accepted false)

def push (s : Session) (state : String) : Session × Reply :=
  match s.run.table.stateId? state with
  | none => s.unknownState state
  | some id =>
      let (stack, accepted) := s.run.stack.push id
      let run := { s.run with stack }
      ({ s with run := if accepted then run else run.noteRefused 1 }, .accepted accepted)

def pop (s : Session) (count : Nat) : Session × Reply :=
  let (stack, popped) := s.run.stack.pop count
  ({ s with run := { s.run with stack } }, .popped popped)

def reset (s : Session) (state : String) : Session × Reply :=
  match s.run.table.stateId? state with
  | none => s.unknownState state
  | some id => ({ s with run := { s.run with stack := s.run.stack.reset id } }, .accepted true)

def withMemo (s : Session) (memo : Memo) : Session × Reply :=
  ({ s with run := { s.run with memo } }, .none)

def observe (s : Session) (label : String) : Session :=
  let v := s.view
  { s with run := s.run.note (.observed label v.cursor v.position v.state v.depth) }

def perform (s : Session) : Call → Session × Reply
  | .emit stop category => (s.emit stop category, .none)
  | .emitRange start stop category => ((s.emit start .text).emit stop category, .none)
  | .continueAt offset => ({ s with position := s.cursor.seek offset }, .none)
  | .push state => s.push state
  | .pop count => s.pop count
  | .reset state => s.reset state
  | .keep key value => s.withMemo (s.run.memo.set key value)
  | .drop key => s.withMemo (s.run.memo.erase key)
  | .dropAll => s.withMemo .empty
  | .observe label => (s.observe label, .none)

def play (s : Session) : Script → Session
  | .done => s
  | .call c next =>
      let (s', reply) := s.perform c
      play s' (next s'.view reply)

/-- Emits what is left before the place where scanning goes on, which is never behind the cursor. -/
def close (s : Session) : Run × Cursor :=
  let s := s.emit s.position.offset .text
  (s.run, s.cursor)

end Session

namespace Run

/-- What a match becomes, and where scanning goes on. -/
def act (runner? : Option Runner) (r : Run) (action : Action Target) (found : Match) :
    Run × Cursor :=
  let stop := r.cursor.seek found.stop
  match action with
  | .emit category => (r.emit found.start category (r.cursor.upTo found.stop), stop)
  | .groups emissions => (r.emitGroups runner? found 1 r.cursor emissions, stop)
  | .delegate target =>
      (r.delegate runner? target found.start (r.cursor.upTo found.stop), stop)
  | .callback f =>
      let s : Session := ⟨r, r.cursor, stop⟩
      (s.play (f found r.cursor s.view)).close

/-- Emits one character by itself. A line break that no rule takes is plain text and leads back to
the root, when the table says so. -/
def fallback (r : Run) : Run :=
  match r.cursor.ahead with
  | [] => r
  | c :: _ =>
      let next := r.cursor.seek (r.cursor.offset + 1)
      let r' :=
        if c = '\n' ∧ r.table.resetsOnNewline then
          { r.emit r.position .text [c] with stack := r.stack.reset r.table.root }
        else
          (r.emit r.position r.table.fallback [c]).note
            (.fallback ⟨r.position, next.offset⟩ r.stateName)
      { r' with cursor := next, zeroSteps := 0 }

/-- Only the first step of a run without progress is noted. -/
def warn (r : Run) (reason : NoProgress) : Run :=
  if r.warned then r
  else
    { r.note (.noProgress reason r.position r.lexer.name r.stateName) with warned := true }

/-- Moves on after a rule has acted; `generation` is that of the stack before. -/
def settle (r : Run) (next : Cursor) (generation : Nat) : Run :=
  if r.cursor.offset < next.offset then { r with cursor := next, zeroSteps := 0 }
  else if r.stack.generation = generation then (r.warn .stackUnchanged).fallback
  else
    let r := { r with zeroSteps := r.zeroSteps + 1 }
    if maxZeroSteps < r.zeroSteps then (r.warn .tooManySteps).fallback else r

def firstMatch (place : Cursor) : List CompiledRule → Option (CompiledRule × Match)
  | [] => none
  | rule :: rest =>
      match rule.matcher.matchAt place with
      | some found => some (rule, found)
      | none => firstMatch place rest

def step (runner? : Option Runner) (r : Run) : Run :=
  match firstMatch r.cursor (r.table.rulesOf r.stack.top) with
  | none => r.fallback
  | some (rule, found) =>
      let (r', next) := r.act runner? rule.action found
      let r' := match rule.op? with
        | none => r'
        | some op => r'.change op
      r'.settle next r.stack.generation

/-- More steps than a run over the rest of the text can take. -/
def stepBound (r : Run) : Nat := (maxZeroSteps + 1) * r.cursor.ahead.length + 1

/-- The pending tokens under the categories that the lexer's filter gives them. -/
def ready (r : Run) : List Token := r.pending.map r.lexer.recategorise

/-- Steps to the end of the text and gives all tokens in order. -/
def drain (runner? : Option Runner) : (fuel : Nat) → Run → List Token × List Notice
  | 0, r => (r.ready, r.notices)
  | fuel + 1, r =>
      if r.cursor.atEnd then (r.ready, r.notices)
      else
        let (tokens, notices) := drain runner? fuel ({ r with pending := [] }.step runner?)
        (r.ready ++ tokens, notices)

/-- Runs nested within another, as long as there are levels left for them. -/
def runner? : (levels : Nat) → Option Runner
  | 0 => none
  | levels + 1 => some fun lexer states text =>
      let r := start lexer states text (maxDelegation - levels)
      drain (runner? levels) r.stepBound r

def levels (r : Run) : Nat := maxDelegation - r.depth

/-- Steps until a token is pending or the text is at its end. A step gives a token unless it stays
where it is, and no run stays for more than `maxZeroSteps` steps. -/
def advance (runner? : Option Runner) : (fuel : Nat) → Run → Run
  | 0, r => r
  | fuel + 1, r =>
      if r.pending.isEmpty && !r.cursor.atEnd then advance runner? fuel (r.step runner?) else r

/-- The next token, and the run as it stands when the token is given out; tokens of the same step
may still be pending. -/
def next? (r : Run) : Option (Token × Run) :=
  let r := advance (runner? r.levels) (maxZeroSteps + 1) r
  match r.pending with
  | [] => none
  | t :: pending => some (r.lexer.recategorise t, { r with pending })

/-- Up to so many tokens, each with the run behind it. -/
def history : (limit : Nat) → Run → List (Token × Run)
  | 0, _ => []
  | limit + 1, r =>
      match r.next? with
      | none => []
      | some (t, r') => (t, r') :: history limit r'

/-- No token is empty, so a run gives no more of them than this. -/
def tokenBound (r : Run) : Nat := r.pending.length + r.cursor.ahead.length

def tokens (r : Run) : List Token := (r.history r.tokenBound).map Prod.fst

/-- All tokens, and the run as it stands behind the last of them. -/
def complete (r : Run) : List Token × Run :=
  let history := r.history r.tokenBound
  (history.map Prod.fst, (history.getLast?.map Prod.snd).getD r)

end Run

namespace LexerOf

/-- A run from the states the lexer starts in. -/
def run (l : Lexer) (text : String) : Run := Run.start l l.initial text.toList 0

/-- A run from states given by name, bottom first. -/
def runFrom (l : Lexer) (text : String) (states : List String) : Except TableError Run := do
  let states ← l.table.resolve "<tokenize>" states
  .ok (Run.start l states text.toList 0)

def tokens (l : Lexer) (text : String) : List Token := (l.run text).tokens

end LexerOf

end RuleLexer
