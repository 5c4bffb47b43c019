import SchemaChange.CommandLine.Report

/-!
# The program

Lists the folder, reads its files, and prints what comes of them. All decisions are made by
`CommandLine.run`; what it may not do itself is to look at the disk.
-/

namespace SchemaChange.CommandLine

/-- The obstacle that an error of the system stands for. -/
def obstacleOf : IO.Error → Obstacle
  | .noFileOrDirectory .. => .missing
  | .noSuchThing .. => .missing
  | .inappropriateType .. => .notFolder
  | error => .other (toString error)

/-- The folder at a path, with the content of its regular files. -/
def listFolder (path : String) : IO (Except LoadError Folder) := do
  try
    let listed ← (IO.FS.DirEntry.mk path "").root.readDir
    let entries ← listed.toList.mapM fun entry => do
      let kind ← (do return (← entry.path.metadata).type) <|> pure .other
      if kind == .file then
        try
          return (entry.fileName, Entry.regular (.ok (← IO.FS.readBinFile entry.path)))
        catch error => return (entry.fileName, Entry.regular (.error (obstacleOf error)))
      else return (entry.fileName, Entry.other)
    return .ok ⟨path, entries⟩
  catch error => return .error (.folder path (obstacleOf error))

/-- The folder that the arguments ask for, or an empty one if they ask for something else. A mistake
in the arguments is told on standard error. -/
def requestedFolder (environment : Environment) (arguments : List String) :
    IO (Except LoadError Folder) := do
  match Action.ofArguments environment.folder arguments with
  | .ok (.compile options) => listFolder options.folder
  | .ok _ => return .ok ⟨"", []⟩
  | .error error =>
    IO.eprintln ("error: " ++ error.message)
    return .ok ⟨"", []⟩

/-- Tells on standard error which folder or files could not be read. -/
def reportFailures : Except LoadError Folder → IO Unit
  | .error error => IO.eprintln error.message
  | .ok folder => folder.compile.failures.forM fun (_, error) => IO.eprintln error.message

end SchemaChange.CommandLine

open SchemaChange.CommandLine in
def main (arguments : List String) : IO UInt32 := do
  let environment ← SchemaChange.CommandLine.Environment.read fun name => (IO.getEnv name : IO _)
  let folder ← requestedFolder environment arguments
  reportFailures folder
  let ending := SchemaChange.CommandLine.run (fun _ => folder) environment arguments
  IO.print ending.output
  return ending.status.toUInt32
