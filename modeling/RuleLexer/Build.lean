import RuleLexer.Notice
import RuleLexer.Table.Compile

/-! Building tables and lexers. A build stops at the first error and notes what it has built and
what it could not build. -/
namespace RuleLexer

/-- Notices are kept latest first. -/
abbrev Build := ExceptT TableError (StateM (List Notice))

namespace Build

def note (n : Notice) : Build Unit := modify (n :: ·)

/-- The result, or a note of the error. -/
def accept {α : Type} (result : Except TableError α) (built : α → Notice)
    (rejected : TableError → Notice) : Build α :=
  match result with
  | .ok a => do note (built a); pure a
  | .error e => do note (rejected e); throw e

def table (d : TableDraft) : Build Table :=
  accept d.compile (fun t => .tableBuilt t.rootName t.stateCount t.ruleCount) .tableRejected

/-- A lexer that starts in the root is noted like any other. -/
def lexer (d : LexerDraft) : Build Lexer :=
  accept d.compile (fun l => .lexerBuilt l.name l.initial.length l.optionErrors.length)
    (.lexerRejected d.info.name)

/-- A lexer that starts in the root of a table and leaves its tokens as they are. -/
def plain (info : LexerInfo) (d : TableDraft) : Build Lexer := do
  let table ← table d
  lexer { info, table }

def options (r : OptionReport) : Build Unit :=
  r.errors.forM fun e => note (.optionIgnored r.lexer e)

/-- The outcome, and what was noted in order. -/
def outcome {α : Type} (b : Build α) : Except TableError α × List Notice :=
  let (result, notices) := b.run []
  (result, notices.reverse)

end Build

end RuleLexer
