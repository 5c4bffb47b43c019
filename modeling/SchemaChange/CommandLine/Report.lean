import SchemaChange.Call
import SchemaChange.CommandLine.Arguments
import SchemaChange.CommandLine.Environment
import SchemaChange.CommandLine.Help
import SchemaChange.Folder

/-!
# Reports

What the program prints about the migrations of a folder, and the status with which it ends.
-/

namespace SchemaChange.CommandLine

/-- A text followed by blanks, at least `width` characters in all. -/
def padded (width : Nat) (text : String) : String :=
  text ++ String.ofList (List.replicate (width - text.length) ' ')

/-- The steps as one JSON array. -/
def jsonText (batch : Batch) : String :=
  Json.spread (.array (batch.steps.map Step.toJson)) ++ "\n"

/-- The requests of the steps, one on each line. -/
def planText (batch : Batch) : String :=
  String.join (batch.steps.map fun step => Json.compact (Dispatch.ofStep step).toJson ++ "\n")

def ruler : String :=
  String.ofList (List.replicate 60 '=')

/-- The names of the kinds of steps, in order. -/
def kindNames : List String :=
  ["add_column", "create_index", "insert_data"]

/-- A line for each kind of step that there is, with the number of such steps. -/
def kindLines (batch : Batch) : List String :=
  kindNames.filterMap fun kind =>
    let count := batch.steps.countP fun step => step.effect.label == kind
    if count = 0 then none else some (padded 14 kind ++ toString count)

/-- A line for each file: the number of its steps, or that it could not be read. -/
def fileLines (batch : Batch) : List String :=
  (batch.files.map fun file =>
    padded 40 file ++ toString (batch.steps.countP fun step => step.file == file)) ++
  batch.failures.map fun (file, _) => padded 40 file ++ "unreadable"

def summaryLines (batch : Batch) : List String :=
  [ruler, "SUMMARY", ruler] ++ kindLines batch ++ [ruler] ++ fileLines batch ++
    [ruler, toString batch.steps.length ++ " operations in " ++ toString batch.files.length ++
      " files"]

def summaryText (batch : Batch) : String :=
  String.join ((summaryLines batch).map (· ++ "\n"))

def Format.text : Format → Batch → String
  | .json => jsonText
  | .plan => planText
  | .summary => summaryText

/-- The end of a run: what it printed and its status. -/
structure Ending where
  status : Nat
  output : String
  deriving DecidableEq, Repr

/-- What comes of a folder. Without any migration nothing is printed. A file that cannot be read
makes the run fail, but what was compiled is printed all the same. -/
def report (format : Format) : Except LoadError Folder → Ending
  | .error _ => ⟨1, ""⟩
  | .ok folder =>
    let batch := folder.compile
    if batch.isEmpty then ⟨0, ""⟩
    else ⟨if batch.allRead then 0 else 1, format.text batch⟩

/-- The help as it is printed. Unless styles are shown, it goes without any control sequence, those
in the folder's name among them. -/
def helpText (environment : Environment) (long : Bool) : String :=
  let text := if long then longHelp environment.folder else shortHelp environment.folder
  if environment.showsStyles then text else Text.withoutSequences text

/-- What the program does, where `folderAt` tells what stands at a path. -/
def run (folderAt : String → Except LoadError Folder) (environment : Environment)
    (arguments : List String) : Ending :=
  match Action.ofArguments environment.folder arguments with
  | .error _ => ⟨2, ""⟩
  | .ok (.help long) => ⟨0, helpText environment long⟩
  | .ok .version => ⟨0, version⟩
  | .ok (.compile options) => report options.format (folderAt options.folder)

end SchemaChange.CommandLine
