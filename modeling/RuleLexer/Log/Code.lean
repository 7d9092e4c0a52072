/-! Codes of log events and what is known of them. Unknown codes count as recoverable and of
medium severity. -/
namespace RuleLexer.Log

inductive Severity
  | critical
  | high
  | medium
  | low
deriving DecidableEq, Repr

namespace Severity

def all : List Severity := [.critical, .high, .medium, .low]

def name : Severity → String
  | critical => "Critical"
  | high => "High"
  | medium => "Medium"
  | low => "Low"

def number : Severity → Nat
  | critical => 0
  | high => 1
  | medium => 2
  | low => 3

def ofName? (name : String) : Option Severity := all.find? (·.name == name)

end Severity

structure Code where
  text : String
deriving DecidableEq, Repr

structure CodeInfo where
  code : String
  area : String
  severity : Severity
  recoverable : Bool
  requiresHalt : Bool
  description : String
  action : String
deriving DecidableEq, Repr

namespace Code

def plainWarning : Code := ⟨"W000"⟩
def plainInfo : Code := ⟨"I000"⟩
def plainDebug : Code := ⟨"D000"⟩

def includeCycle : Code := ⟨"E010"⟩
def unknownState : Code := ⟨"E011"⟩
def invalidPattern : Code := ⟨"E012"⟩
def missingRoot : Code := ⟨"E013"⟩
def duplicateState : Code := ⟨"E014"⟩
def emptyInitialStack : Code := ⟨"E015"⟩
def tooManyStates : Code := ⟨"E016"⟩
def invalidOptionValue : Code := ⟨"E020"⟩
def unknownOptionValue : Code := ⟨"E021"⟩
def malformedAssignment : Code := ⟨"E022"⟩
def noProgress : Code := ⟨"W030"⟩
def stackDepthExceeded : Code := ⟨"W031"⟩
def delegationDepthExceeded : Code := ⟨"W032"⟩
def unknownCallbackState : Code := ⟨"W033"⟩
def fallbackToken : Code := ⟨"D034"⟩
def invalidStyle : Code := ⟨"E035"⟩
def invalidColor : Code := ⟨"E036"⟩
def fileNotFound : Code := ⟨"E040"⟩
def fileTooLarge : Code := ⟨"E041"⟩
def invalidEncoding : Code := ⟨"E042"⟩
def ioFailure : Code := ⟨"E043"⟩
def invalidPath : Code := ⟨"E044"⟩
def permissionDenied : Code := ⟨"E045"⟩
def unknownLexer : Code := ⟨"E046"⟩
def coverageViolation : Code := ⟨"E047"⟩
def logReady : Code := ⟨"I001"⟩
def tableBuilt : Code := ⟨"I010"⟩
def lexerConfigured : Code := ⟨"I011"⟩
def tokensComplete : Code := ⟨"I020"⟩
def coverageVerified : Code := ⟨"I021"⟩
def sourceLoaded : Code := ⟨"I040"⟩

def registry : List CodeInfo :=
  [
    ⟨"ERR001", "System", .critical, false, true,
      "Critical internal system error",
      "File a bug report with the input that triggered it"⟩,
    ⟨"ERR002", "System", .critical, false, true,
      "System initialization failure",
      "Check build profile and runtime environment variables"⟩,
    ⟨"E010", "Table", .high, false, true,
      "State includes form a cycle",
      "Remove one include from the reported cycle path"⟩,
    ⟨"E011", "Table", .high, false, true,
      "Reference to a state that is not defined",
      "Define the state or fix the reference name"⟩,
    ⟨"E012", "Table", .high, false, true,
      "Rule pattern failed to compile",
      "Fix the regular expression for the reported rule"⟩,
    ⟨"E013", "Table", .high, false, true,
      "State table has no root state",
      "Define the root state or configure another root name"⟩,
    ⟨"E014", "Table", .high, false, true,
      "State defined twice",
      "Merge the definitions or extend the existing state"⟩,
    ⟨"E015", "Table", .high, false, true,
      "Initial stack names no states",
      "Provide at least one state for the initial stack"⟩,
    ⟨"E016", "Table", .high, false, true,
      "State table exceeds the configured state limit",
      "Split the table or raise engine.max_states_per_table"⟩,
    ⟨"E020", "Options", .low, true, false,
      "Lexer option has an invalid value",
      "The documented default was used instead"⟩,
    ⟨"E021", "Options", .low, true, false,
      "Lexer option names an unknown value",
      "Unknown entries were ignored"⟩,
    ⟨"E022", "Options", .medium, true, false,
      "Option assignment is not of the form key=value",
      "Pass options as key=value"⟩,
    ⟨"W030", "Scan", .low, true, false,
      "Rule made no progress at the current position",
      "Give the rule a stack operation or a non-empty pattern"⟩,
    ⟨"W031", "Scan", .medium, true, false,
      "State stack depth limit reached; push ignored",
      "Check the table for pushes that are never popped"⟩,
    ⟨"W032", "Scan", .medium, true, false,
      "Delegation depth limit reached",
      "The substring was emitted as a single Other token"⟩,
    ⟨"W033", "Scan", .medium, true, false,
      "Callback referenced an unknown state",
      "Fix the state name used by the callback"⟩,
    ⟨"D034", "Scan", .low, true, false,
      "No rule matched; one-character fallback emitted",
      "Add a rule covering the reported input"⟩,
    ⟨"E035", "Style", .medium, true, false,
      "Style definition contains an unknown attribute",
      "Use bold, italic, underline, bg:, border: or a #color"⟩,
    ⟨"E036", "Style", .medium, true, false,
      "Style color is not a 3 or 6 digit hex value",
      "Write colors as #rgb or #rrggbb"⟩,
    ⟨"E040", "Source", .high, false, true,
      "Source file does not exist",
      "Check the file path"⟩,
    ⟨"E041", "Source", .high, false, true,
      "Source file exceeds the configured size limit",
      "Split the file or raise source.max_file_size"⟩,
    ⟨"E042", "Source", .high, false, true,
      "Source file is not valid UTF-8",
      "Convert the file to UTF-8"⟩,
    ⟨"E043", "Source", .high, false, true,
      "I/O error while reading source",
      "Check file system health and permissions"⟩,
    ⟨"E044", "Source", .high, false, true,
      "Source path is not a regular file",
      "Pass a file or a directory of files"⟩,
    ⟨"E045", "Source", .high, false, true,
      "Permission denied reading source",
      "Check file permissions"⟩,
    ⟨"E046", "Source", .high, false, true,
      "No lexer is registered under the requested alias",
      "List aliases with --list"⟩,
    ⟨"E047", "Source", .critical, false, true,
      "Token stream does not reproduce the input",
      "File a bug report with the input and lexer name"⟩,
    ⟨"I001", "System", .low, true, false,
      "Logging system initialized",
      "None"⟩,
    ⟨"I010", "Table", .low, true, false,
      "State table constructed",
      "None"⟩,
    ⟨"I011", "Options", .low, true, false,
      "Lexer configured from options",
      "None"⟩,
    ⟨"I020", "Scan", .low, true, false,
      "Tokenization completed",
      "None"⟩,
    ⟨"I021", "Scan", .low, true, false,
      "Token coverage verified",
      "None"⟩,
    ⟨"I040", "Source", .low, true, false,
      "Source file loaded",
      "None"⟩
  ]

def info? (c : Code) : Option CodeInfo := registry.find? (·.code == c.text)

def severity (c : Code) : Severity := (c.info?.map (·.severity)).getD .medium

def isRecoverable (c : Code) : Bool := (c.info?.map (·.recoverable)).getD true

def requiresHalt (c : Code) : Bool := (c.info?.map (·.requiresHalt)).getD false

def description (c : Code) : String := (c.info?.map (·.description)).getD "Unknown error"

def action (c : Code) : String := (c.info?.map (·.action)).getD "No specific action available"

def area (c : Code) : String := (c.info?.map (·.area)).getD "Unknown"

end Code

end RuleLexer.Log
