import RuleLexer.Log.Level
import RuleLexer.Text.Json

/-! What a user can set through the environment. A variable that cannot be read counts as unset. -/
namespace RuleLexer
open RuleLexer.Log RuleLexer.Text

structure Preferences where
  /-- Report every character that no rule takes. -/
  logFallback : Bool := false
  /-- Report every table and lexer that is built. -/
  logTables : Bool := true
  /-- Report how long reading takes. -/
  logTimings : Bool := true
  /-- Leave out the mark that a text in Unicode can start with. -/
  stripMark : Bool := true
  /-- Write the log as JSON objects. -/
  structured : Bool := false
  level : Level := .info
deriving DecidableEq, Repr

namespace Preferences

def truth? : String → Option Bool
  | "true" => some true
  | "false" => some false
  | _ => none

def fallbackVariable : String := "WEBLEX_ENGINE_LOG_FALLBACK_TOKENS"
def tablesVariable : String := "WEBLEX_ENGINE_LOG_TABLE_CONSTRUCTION"
def timingsVariable : String := "WEBLEX_ENABLE_PERFORMANCE_LOGGING"
def markVariable : String := "WEBLEX_SOURCE_STRIP_BOM"
def structuredVariable : String := "WEBLEX_LOGGING_USE_STRUCTURED"
def levelVariable : String := "WEBLEX_LOGGING_MIN_LEVEL"

/-- The variables that are looked at. -/
def names : List String :=
  [fallbackVariable, tablesVariable, timingsVariable, markVariable, structuredVariable,
    levelVariable]

def ofEnvironment (value? : String → Option String) : Preferences :=
  let flag (name : String) (otherwise : Bool) : Bool :=
    ((value? name).bind truth?).getD otherwise
  { logFallback := flag fallbackVariable false
    logTables := flag tablesVariable true
    logTimings := flag timingsVariable true
    stripMark := flag markVariable true
    structured := flag structuredVariable false
    level := ((value? levelVariable).bind Level.ofText?).getD .info }

/-- The preferences as a stored configuration. -/
def json (p : Preferences) : Json :=
  .object
    [("engine", .object
        [("log_fallback_tokens", .bool p.logFallback),
          ("log_table_construction", .bool p.logTables)]),
      ("source", .object
        [("enable_performance_logging", .bool p.logTimings),
          ("strip_byte_order_mark", .bool p.stripMark)]),
      ("logging", .object
        [("use_structured_logging", .bool p.structured), ("min_log_level", .text p.level.name)])]

/-- Reported whatever the user asks for. -/
def alwaysReported : Level := .warning

def threshold (p : Preferences) : Level := p.level.max alwaysReported

end Preferences

end RuleLexer
