import SchemaChange.FileTree
import SchemaChange.Migration

/-!
# Folders of migrations

A folder is compiled file by file, in the order of the names. A file that cannot be read is reported
and does not keep the others from being compiled. The names of the entries are Unicode texts, so a
step tells of its file by the very name under which the file stands; the replacement of bytes that
are no text is left out.
-/

namespace SchemaChange

/-- Why migrations could not be loaded. -/
inductive LoadError where
  | folder (path : String) (obstacle : Obstacle)
  | file (path : String) (obstacle : Obstacle)
  deriving DecidableEq, Repr

def LoadError.message : LoadError → String
  | .folder path obstacle =>
    "Cannot read migrations directory " ++ path ++ ": " ++ obstacle.message
  | .file path obstacle => "Cannot read migration file " ++ path ++ ": " ++ obstacle.message

/-- A regular file with what comes of reading it, or an entry of another kind. -/
inductive Entry where
  | regular (content : Except Obstacle ByteArray)
  | other

/-- A folder with its entries, in whatever order they were listed. -/
structure Folder where
  path : String
  entries : List (String × Entry)

/-- What comes of a folder: the files that were compiled, their steps, and the files that could not
be read. -/
structure Batch where
  files : List String
  steps : List Step
  failures : List (String × LoadError)
  deriving Repr, BEq

namespace Batch

/-- Whether the folder held no migration at all. -/
def isEmpty (batch : Batch) : Bool :=
  batch.files.isEmpty && batch.failures.isEmpty

/-- Whether every migration could be read. -/
def allRead (batch : Batch) : Bool :=
  batch.failures.isEmpty

end Batch

/-- The folder at a path of a tree. -/
def FileTree.folderAt (tree : FileTree) (path : String) : Except LoadError Folder :=
  match tree.at? path with
  | .error obstacle => .error (.folder path obstacle)
  | .ok (.file _) => .error (.folder path .notFolder)
  | .ok (.folder entries) =>
    .ok ⟨path, entries.map fun (name, entry) =>
      match entry with
      | .file bytes => (name, .regular (.ok bytes))
      | .folder _ => (name, .other)⟩

namespace Migration

/-- Whether a file's name marks it as a migration: it ends in `.sql`, with something before that. -/
def isFileName (name : String) : Bool :=
  ".sql".toList.isSuffixOf name.toList && name != ".sql"

/-- The migration of the given name in the content of a file, which has to be valid UTF-8. -/
def ofContent (name path : String) : Except Obstacle ByteArray → Except LoadError Migration
  | .error obstacle => .error (.file path obstacle)
  | .ok bytes =>
    match String.fromUTF8? bytes with
    | some text => .ok ⟨name, text⟩
    | none => .error (.file path .notText)

/-- The migration in the file at a path. Its name is the last part of the path. -/
def ofFile (tree : FileTree) (path : String) : Except LoadError Migration :=
  ofContent ((FileTree.parts path).getLastD "") path (tree.read path)

end Migration

namespace Folder

/-- The path of a file in the folder. -/
def filePath (folder : Folder) (name : String) : String :=
  if folder.path = "" ∨ folder.path.toList.getLast? = some '/' then folder.path ++ name
  else folder.path ++ "/" ++ name

/-- The regular files that are migrations, in the order of their names. -/
def migrationFiles (folder : Folder) : List (String × Except Obstacle ByteArray) :=
  let files := folder.entries.filterMap fun (name, entry) =>
    match entry with
    | .regular content => if Migration.isFileName name then some (name, content) else none
    | .other => none
  files.mergeSort fun a b => decide (a.1 ≤ b.1)

/-- Each migration file, loaded or not. -/
def load (folder : Folder) : List (String × Except LoadError Migration) :=
  folder.migrationFiles.map fun (name, content) =>
    (name, Migration.ofContent name (folder.filePath name) content)

/-- Compiles the migrations of the folder. -/
def compile (folder : Folder) : Batch :=
  let loaded := folder.load
  { files := loaded.filterMap fun (name, result) =>
      match result with
      | .ok _ => some name
      | .error _ => none
    steps := loaded.flatMap fun (_, result) =>
      match result with
      | .ok migration => migration.steps
      | .error _ => []
    failures := loaded.filterMap fun (name, result) =>
      match result with
      | .ok _ => none
      | .error error => some (name, error) }

end Folder

end SchemaChange
