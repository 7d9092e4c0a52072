import RuleLexer.Log.Buffer
import RuleLexer.Run

/-! What is set up once, before anything else, and the limits that hold from then on. -/
namespace RuleLexer
open RuleLexer.Log

namespace Limits

/-- Where the limits are written down. -/
def profile : String := "Generated from config/development.toml"

def event : Event :=
  (Event.debug .plainDebug "Lexer engine limits").withContexts
    [("config", profile), ("max_stack_depth", toString Stack.maxDepth),
      ("max_zero_width_steps", toString maxZeroSteps),
      ("max_delegation_depth", toString maxDelegation),
      ("max_states_per_table", toString TableError.maxStates)]

/-- What is wrong with the limits of the log. -/
def problem? : Option String :=
  if 100000 < Buffer.capacity then some s!"Log buffer size too large: {Buffer.capacity}"
  else if Buffer.capacity < 100 then some s!"Log buffer size too small: {Buffer.capacity}"
  else if maxMessage < 64 then some s!"Max log message length too small: {maxMessage}"
  else none

/-- The codes that tables and runs report under. -/
def codes : List Code :=
  [.includeCycle, .unknownState, .invalidPattern, .missingRoot, .duplicateState,
    .emptyInitialStack, .tooManyStates, .invalidOptionValue, .unknownOptionValue,
    .malformedAssignment, .noProgress, .stackDepthExceeded, .delegationDepthExceeded,
    .unknownCallbackState, .fallbackToken]

/-- A code that nothing is known of. -/
def unknownCode? : Option Code := codes.find? fun c => c.info?.isNone

end Limits

namespace Setup

inductive Part
  | log
  | engine
  | preferences
deriving DecidableEq, Repr

def Part.title : Part → String
  | log => "Global logger"
  | engine => "Engine preferences"
  | preferences => "Runtime preferences"

/-- A part that is set up already. -/
structure Repeated where
  part : Part
deriving DecidableEq, Repr

def Repeated.message (r : Repeated) : String := r.part.title ++ " already initialized"

end Setup

/-- The parts that are set up. -/
structure Setup where
  parts : List Setup.Part := []
deriving DecidableEq, Repr

namespace Setup

def has (s : Setup) (part : Part) : Bool := s.parts.contains part

/-- Each part is set up once. -/
def install (s : Setup) (part : Part) : Except Repeated Setup :=
  if s.has part then .error ⟨part⟩ else .ok ⟨part :: s.parts⟩

def complete : Setup := ⟨[.log, .engine, .preferences]⟩

def readyEvent : Event := .success .logReady "Global logging system initialized"

end Setup

end RuleLexer
