import RuleLexer.Options
import RuleLexer.Rule

/-! State tables and lexers in the form in which they run. The states of a table are numbered and
each has its rules in the order in which they are tried; a lexer is a table with the states it
starts in and a filter for its tokens. A rule can hand text to another lexer, so `Target` ties the
two together. -/
namespace RuleLexer

structure RuleOf (τ : Type) where
  matcher : Matcher
  action : Action τ
  op? : Option (StackOp StateId)

structure TableOf (τ : Type) where
  names : List String
  rules : List (List (RuleOf τ))
  root : StateId
  fallback : Category
  resetsOnNewline : Bool
  flags : PatternFlags

/-- What is known of a language besides its table. -/
structure LexerInfo where
  name : String
  aliases : List String := []
  filenames : List String := []
  mimeTypes : List String := []
deriving DecidableEq, Repr

/-- Gives a token another category in view of the one it has and of its text. -/
abbrev TokenFilter := Category → String → Category

structure LexerOf (τ : Type) where
  info : LexerInfo
  table : TableOf τ
  initial : List StateId
  filter? : Option TokenFilter
  optionErrors : List OptionError

/-- Where a rule hands text to: the running lexer or another one, in given states or in those the
lexer starts in. -/
inductive Target
  | this (states? : Option (List StateId))
  | lexer (l : LexerOf Target) (states? : Option (List StateId))

abbrev CompiledRule := RuleOf Target
abbrev Table := TableOf Target
abbrev Lexer := LexerOf Target

namespace TableOf
variable {τ : Type}

def stateId? (t : TableOf τ) (name : String) : Option StateId := t.names.idxOf? name

def stateName? (t : TableOf τ) (state : StateId) : Option String := t.names[state]?

def stateCount (t : TableOf τ) : Nat := t.names.length

def rulesOf (t : TableOf τ) (state : StateId) : List (RuleOf τ) := t.rules[state]?.getD []

def ruleCount (t : TableOf τ) : Nat := t.rules.foldl (fun count rules => count + rules.length) 0

def rulesNamed? (t : TableOf τ) (name : String) : Option (List (RuleOf τ)) :=
  (t.stateId? name).map t.rulesOf

def rootName (t : TableOf τ) : String := (t.stateName? t.root).getD "root"

/-- The sources of a state's patterns, as its rules are tried. -/
def patterns? (t : TableOf τ) (name : String) : Option (List String) :=
  (t.rulesNamed? name).map fun rules => rules.map (·.matcher.source)

/-- A state's patterns as one matcher for rules elsewhere. -/
def matcher? (t : TableOf τ) (name : String) : Option Matcher :=
  (t.rulesNamed? name).map fun rules => .state name (rules.map (·.matcher))

end TableOf

namespace LexerOf
variable {τ : Type}

def name (l : LexerOf τ) : String := l.info.name

def namesOf (l : LexerOf τ) (states : List StateId) : List String :=
  states.filterMap l.table.stateName?

def initialNames (l : LexerOf τ) : List String := l.namesOf l.initial

def recategorise (l : LexerOf τ) (t : Token) : Token :=
  match l.filter? with
  | none => t
  | some f => t.retag (f t.category t.text)

end LexerOf

end RuleLexer
