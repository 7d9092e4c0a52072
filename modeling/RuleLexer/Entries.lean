/-! Texts under names, each name once and in ascending order. -/
namespace RuleLexer

abbrev Entries := List (String × String)

namespace Entries

/-- Of two texts under one name the later one stands. -/
def insert (name value : String) : Entries → Entries
  | [] => [(name, value)]
  | (n, v) :: rest =>
      if name < n then (name, value) :: (n, v) :: rest
      else if name = n then (name, value) :: rest
      else (n, v) :: insert name value rest

def get? (e : Entries) (name : String) : Option String := e.lookup name

/-- The entries of a list in which a name may come more than once. -/
def ofList (entries : List (String × String)) : Entries :=
  entries.foldl (fun e entry => insert entry.1 entry.2 e) []

end Entries

end RuleLexer
