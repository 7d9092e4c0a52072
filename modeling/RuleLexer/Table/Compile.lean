import RuleLexer.Table
import RuleLexer.Table.Error

/-! Tables as they are written, with states by name, and how they become tables that run. The first
thing that is wrong counts, in this order: a state defined twice, no root, too many states, then
the entries as they are written, then states that take in themselves. -/
namespace RuleLexer

/-- Where a rule hands text to, with the states by name. -/
inductive Delegate
  | this (states? : Option (List String))
  | lexer (l : Lexer) (states? : Option (List String))

namespace Delegate

/-- The lexer that runs the rule. -/
def running : Delegate := .this none

def through (l : Lexer) : Delegate := .lexer l none

def within (d : Delegate) (states : List String) : Delegate :=
  match d with
  | this _ => .this (some states)
  | lexer l _ => .lexer l (some states)

end Delegate

structure TableDraft where
  flags : PatternFlags := {}
  fallback : Category := .text
  root : String := "root"
  resetsOnNewline : Bool := true
  states : List (String × List (Entry Delegate)) := []
  duplicate? : Option String := none

namespace TableDraft

/-- A state defined a second time makes the table wrong; the first such state is remembered. -/
def state (d : TableDraft) (name : String) (entries : List (Entry Delegate)) : TableDraft :=
  if d.states.any (·.1 == name) then { d with duplicate? := d.duplicate?.or (some name) }
  else { d with states := d.states ++ [(name, entries)] }

def appendTo (name : String) (entries : List (Entry Delegate)) :
    List (String × List (Entry Delegate)) → List (String × List (Entry Delegate))
  | [] => [(name, entries)]
  | (n, before) :: rest =>
      if n = name then (n, before ++ entries) :: rest
      else (n, before) :: appendTo name entries rest

/-- Adds rules at the end of a state, or defines it. -/
def extend (d : TableDraft) (name : String) (entries : List (Entry Delegate)) : TableDraft :=
  { d with states := appendTo name entries d.states }

end TableDraft

/-- A rule that is ready, or a state whose rules stand here. -/
inductive Slot
  | rule (r : CompiledRule)
  | includes (state : StateId)

namespace TableDraft

/-- The place of a state that `origin` names. -/
def lookup (names : List String) (origin name : String) : Except TableError StateId :=
  match names.idxOf? name with
  | some id => .ok id
  | none => .error (.unknownState name origin)

def bindStates? (names : List String) (origin : String) :
    Option (List String) → Except TableError (Option (List StateId))
  | none => .ok none
  | some [] => .error .emptyInitialStack
  | some states => some <$> states.mapM (lookup names origin)

/-- The states of another lexer are looked up in that lexer's table. -/
def bindDelegate (names : List String) (state : String) : Delegate → Except TableError Target
  | .this states? => .this <$> bindStates? names state states?
  | .lexer l states? =>
      .lexer l <$> bindStates? l.table.names s!"{state} (delegate to {l.name})" states?

def bindEmission (names : List String) (state : String) :
    Emission Delegate → Except TableError (Emission Target)
  | .token category => .ok (.token category)
  | .delegate d => .delegate <$> bindDelegate names state d

def bindAction (names : List String) (state : String) :
    Action Delegate → Except TableError (Action Target)
  | .emit category => .ok (.emit category)
  | .groups emissions => .groups <$> emissions.mapM (bindEmission names state)
  | .delegate d => .delegate <$> bindDelegate names state d
  | .callback f => .ok (.callback f)

def compileMatcher (flags : PatternFlags) (state : String) (index : Nat) :
    RuleSource → Except TableError Matcher
  | .matcher m => .ok m
  | .pattern source ahead? =>
      match Pattern.compile source ahead? flags with
      | .ok p => .ok (.pattern p)
      | .error reason => .error (.invalidPattern state index source reason)

def bindOp? (names : List String) (state : String) :
    Option (StackOp String) → Except TableError (Option (StackOp StateId))
  | none => .ok none
  | some op => some <$> op.mapM (lookup names state)

def compileRule (flags : PatternFlags) (names : List String) (state : String) (index : Nat)
    (r : Rule Delegate) : Except TableError CompiledRule := do
  let matcher ← compileMatcher flags state index r.source
  let op? ← bindOp? names state r.op?
  let action ← bindAction names state r.action
  .ok ⟨matcher, action, op?⟩

def compileEntry (flags : PatternFlags) (names : List String) (state : String) (index : Nat) :
    Entry Delegate → Except TableError Slot
  | .rule r => .rule <$> compileRule flags names state index r
  | .includes target => .includes <$> lookup names state target

def compileEntries (flags : PatternFlags) (names : List String) (state : String) :
    (index : Nat) → List (Entry Delegate) → Except TableError (List Slot)
  | _, [] => .ok []
  | index, e :: rest => do
      let slot ← compileEntry flags names state index e
      (slot :: ·) <$> compileEntries flags names state (index + 1) rest

/-- What is known while states are expanded: the rules of those that are done, by place. -/
abbrev Expanded := List (Option (List CompiledRule))

/-- The rules of a state that is done. -/
def Expanded.rules? (done : Expanded) (state : StateId) : Option (List CompiledRule) :=
  done[state]?.join

/-- Rules and, in the place of each state taken in, the rules of that state, once `visit` has
expanded it. -/
def splice (visit : StateId → Expanded → Except TableError Expanded) :
    List Slot → Expanded → Except TableError (List CompiledRule × Expanded)
  | [], done => .ok ([], done)
  | .rule r :: rest, done => do
      let (rules, done) ← splice visit rest done
      .ok (r :: rules, done)
  | .includes state :: rest, done => do
      let done ← visit state done
      let taken := (done.rules? state).getD []
      let (rules, done) ← splice visit rest done
      .ok (taken ++ rules, done)

/-- Expands a state and those it takes in, each of them once. `visiting` leads from the state that
was asked for to this one, latest first, so `levels` states in a row bound it. -/
def expand (names : List String) (slots : List (List Slot)) :
    (levels : Nat) → (visiting : List StateId) → StateId → Expanded → Except TableError Expanded
  | 0, _, _, done => .ok done
  | levels + 1, visiting, state, done =>
      if (done.rules? state).isSome then .ok done
      else if visiting.contains state then
        let path := (visiting.takeWhile (· != state)).reverse
        .error (.includeCycle ((state :: path ++ [state]).filterMap (names[·]?)))
      else do
        let visit := expand names slots levels (state :: visiting)
        let (rules, done) ← splice visit (slots[state]?.getD []) done
        .ok (done.set state (some rules))

/-- A way through different states, and one step more, is never longer than this. -/
def levels (names : List String) : Nat := names.length + 1

/-- The rules of all states, by place. -/
def expandAll (names : List String) (slots : List (List Slot)) :
    Except TableError (List (List CompiledRule)) := do
  let visit (done : Expanded) (state : StateId) := expand names slots (levels names) [] state done
  let done ← (List.range names.length).foldlM visit (List.replicate names.length none)
  .ok (done.map (·.getD []))

def names (d : TableDraft) : List String := d.states.map Prod.fst

def compile (d : TableDraft) : Except TableError Table := do
  if let some state := d.duplicate? then throw (.duplicateState state)
  let names := d.names
  let root ← match names.idxOf? d.root with
    | some root => .ok root
    | none => .error (.missingRoot d.root)
  if TableError.maxStates < names.length then throw (.tooManyStates names.length)
  let slots ← d.states.mapM fun s => compileEntries d.flags names s.1 0 s.2
  let rules ← expandAll names slots
  .ok ⟨names, rules, root, d.fallback, d.resetsOnNewline, d.flags⟩

end TableDraft

/-- The places of states that something outside the table names. -/
def TableOf.resolve {τ : Type} (t : TableOf τ) (origin : String) :
    List String → Except TableError (List StateId)
  | [] => .error .emptyInitialStack
  | names => names.mapM (TableDraft.lookup t.names origin)

structure LexerDraft where
  info : LexerInfo
  table : Table
  /-- The root alone when this is not said. -/
  initial? : Option (List String) := none
  filter? : Option TokenFilter := none
  optionErrors : List OptionError := []

def LexerDraft.compile (d : LexerDraft) : Except TableError Lexer := do
  let initial ← match d.initial? with
    | none => .ok [d.table.root]
    | some names => d.table.resolve "<initial stack>" names
  .ok ⟨d.info, d.table, initial, d.filter?, d.optionErrors⟩

end RuleLexer
