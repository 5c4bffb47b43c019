import SchemaChange.Text.ControlSequence

/-!
# Help

The texts that the program prints about itself. Those on its use are styled: headings stand out, and
so does what is typed as it stands.
-/

namespace SchemaChange.CommandLine

open Text (bold heading)

def version : String :=
  "migration-ops 0.1.0\n"

/-- A text whose lines, after the first, are indented. -/
def indented (width : Nat) (text : List Char) : List Char :=
  text.flatMap fun c => if c = '\n' then '\n' :: List.replicate width ' ' else [c]

def helpOpening : String :=
  "Compile hand-written SQL migration files into ordered schema-change operations\n\n" ++
    heading "Usage:" ++ " " ++ bold "migration-ops" ++ " [OPTIONS]\n\n" ++
    heading "Options:" ++ "\n"

/-- Where the environment names the folder, its value stands in the help. -/
def folderNote (folder : Option String) : String :=
  "[env: MIGRATIONS_DIR=" ++ folder.getD "" ++ "]"

/-- The help with one line for each option, given the folder that the environment names. -/
def shortHelp (folder : Option String) : String :=
  let about :=
    "Directory holding the `*.sql` migration files " ++ folderNote folder ++
      " [default: migrations]"
  helpOpening ++
    "      " ++ bold "--dir" ++ " <DIR>        " ++
    String.ofList (indented 25 about.toList) ++ "\n" ++
    "      " ++ bold "--format" ++ " <FORMAT>  Output format [default: json] " ++
    "[possible values: json, plan, summary]\n" ++
    "      " ++ bold "--debug" ++ "            Enable debug logging (overrides RUST_LOG)\n" ++
    "  " ++ bold "-h" ++ ", " ++ bold "--help" ++
    "             Print help (see more with '--help')\n" ++
    "  " ++ bold "-V" ++ ", " ++ bold "--version" ++ "          Print version\n"

/-- The help with a paragraph for each option, given the folder that the environment names. -/
def longHelp (folder : Option String) : String :=
  let about :=
    "Directory holding the `*.sql` migration files\n\n" ++ folderNote folder ++
      "\n[default: migrations]"
  helpOpening ++
    "      " ++ bold "--dir" ++ " <DIR>\n          " ++
    String.ofList (indented 10 about.toList) ++ "\n\n" ++
    "      " ++ bold "--format" ++ " <FORMAT>\n          Output format\n\n" ++
    "          Possible values:\n" ++
    "          - " ++ bold "json" ++ ":    Pretty JSON array of operations\n" ++
    "          - " ++ bold "plan" ++ ":    One JSON request per line\n" ++
    "          - " ++ bold "summary" ++ ": Operation counts per kind and per file\n" ++
    "          \n          [default: json]\n\n" ++
    "      " ++ bold "--debug" ++ "\n          Enable debug logging (overrides RUST_LOG)\n\n" ++
    "  " ++ bold "-h" ++ ", " ++ bold "--help" ++
    "\n          Print help (see a summary with '-h')\n\n" ++
    "  " ++ bold "-V" ++ ", " ++ bold "--version" ++ "\n          Print version\n"

end SchemaChange.CommandLine
