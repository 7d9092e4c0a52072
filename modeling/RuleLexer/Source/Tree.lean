import RuleLexer.Source

/-! Files in memory. Paths start in the directory that holds the tree; what lies outside of it is
not known, apart from the directories above. -/
namespace RuleLexer.Source

structure Tree where
  /-- The full path of the directory that holds the tree. -/
  path : String
  /-- Names from the tree down. -/
  directories : List (List String)
  files : List (List String × ByteArray)

namespace Tree

/-- The names in a path. -/
def names (path : String) : List String :=
  (path.splitOn "/").filter fun name => !name.isEmpty && name != "."

/-- Adds a file, and the directories that it lies in. -/
def add (t : Tree) (path : String) (content : ByteArray) : Tree :=
  let names := names path
  let above := (List.range names.length).map names.take
  { t with directories := above ++ t.directories, files := (names, content) :: t.files }

inductive Node
  | file (names : List String) (content : ByteArray)
  /-- The names are in reverse. -/
  | directory (names : List String)
  /-- A directory above the tree. -/
  | above

/-- One step along a path. -/
def enter (t : Tree) : Node → String → Option Node
  | .file .., _ => none
  | node, "" | node, "." => some node
  | .above, ".." | .directory [], ".." => some .above
  | .above, _ => none
  | .directory (_ :: up), ".." => some (.directory up)
  | .directory inside, name =>
      let names := (name :: inside).reverse
      match t.files.lookup names with
      | some content => some (.file names content)
      | none => if t.directories.contains names then some (.directory (name :: inside)) else none

/-- What a path leads to; one that starts with a slash starts above the tree. -/
def place (t : Tree) (path : String) : Place :=
  let start : Node := if path.startsWith "/" then .above else .directory []
  match (path.splitOn "/").foldlM (enter t) start with
  | none => .missing
  | some (.directory _) | some .above => .notFile
  | some (.file names content) =>
      .file (String.intercalate "/" (t.path :: names)) content.size (.ok content)

end Tree

end RuleLexer.Source
