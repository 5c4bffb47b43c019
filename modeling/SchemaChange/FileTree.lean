import SchemaChange.Members

/-!
# File trees

A tree of folders and files, and the paths that lead through it. Names are Unicode texts: a name
made of other bytes, and what it would be shown as, is left out.
-/

namespace SchemaChange

/-- Why something cannot be read. -/
inductive Obstacle where
  | missing
  | notFolder
  | isFolder
  | notText
  | other (text : String)
  deriving DecidableEq, Repr

def Obstacle.message : Obstacle → String
  | .missing => "No such file or directory (os error 2)"
  | .notFolder => "Not a directory (os error 20)"
  | .isFolder => "Is a directory (os error 21)"
  | .notText => "stream did not contain valid UTF-8"
  | .other text => text

/-- A file with its bytes, or a folder with its entries in the order in which they are listed. -/
inductive FileTree where
  | file (bytes : ByteArray)
  | folder (entries : List (String × FileTree))

namespace FileTree

/-- Puts a file or an empty folder at a path, with the folders that lead there. A folder that is
there already keeps its entries. -/
def put : List String → FileTree → FileTree → FileTree
  | [], .folder [], .folder entries => .folder entries
  | [], new, _ => new
  | name :: more, new, .folder entries =>
    .folder (Members.put name (put more new ((Members.get? name entries).getD (.folder []))) entries)
  | name :: more, new, .file _ => .folder [(name, put more new (.folder []))]

/-- Follows the parts of a path. `outer` holds the folders around the current place, the innermost
first. An empty part and a single dot stay in a folder, and two dots leave it. Beyond the root of
the tree there is nothing. -/
def follow (outer : List FileTree) (here : FileTree) : List String → Except Obstacle FileTree
  | [] => .ok here
  | part :: more =>
    match here with
    | .file _ => .error .notFolder
    | .folder entries =>
      if part = "" ∨ part = "." then follow outer here more
      else if part = ".." then
        match outer with
        | [] => .error .missing
        | around :: outer => follow outer around more
      else
        match Members.get? part entries with
        | none => .error .missing
        | some next => follow (here :: outer) next more

/-- The parts of a path between its slashes. -/
def parts (path : String) : List String :=
  (path.toList.splitOn '/').map String.ofList

/-- What stands at a path. An absolute path leads out of the tree. -/
def at? (tree : FileTree) (path : String) : Except Obstacle FileTree :=
  if path.toList.head? = some '/' then .error .missing else follow [] tree (parts path)

/-- The bytes of the file at a path. -/
def read (tree : FileTree) (path : String) : Except Obstacle ByteArray :=
  match tree.at? path with
  | .error obstacle => .error obstacle
  | .ok (.folder _) => .error .isFolder
  | .ok (.file bytes) => .ok bytes

end FileTree

end SchemaChange
