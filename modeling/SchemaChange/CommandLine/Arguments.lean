/-!
# Arguments

Reads the arguments of the program from left to right. The first mistake ends the reading, and so
does a request for help or for the version.
-/

namespace SchemaChange.CommandLine

/-- What to print about the compiled migrations. -/
inductive Format where
  | json
  | plan
  | summary
  deriving DecidableEq, Repr

def Format.ofName? : String → Option Format
  | "json" => some .json
  | "plan" => some .plan
  | "summary" => some .summary
  | _ => none

/-- What is wrong with the arguments. -/
inductive UsageError where
  | unexpected (argument : String)
  | missingValue (option : String)
  | needlessValue (option : String)
  | invalidValue (option value : String)
  | repeated (option : String)
  deriving DecidableEq, Repr

def UsageError.message : UsageError → String
  | .unexpected argument => "unexpected argument '" ++ argument ++ "' found"
  | .missingValue option => "a value is required for '" ++ option ++ "' but none was supplied"
  | .needlessValue option => "unexpected value for '" ++ option ++ "' found"
  | .invalidValue option value => "invalid value '" ++ value ++ "' for '" ++ option ++ "'"
  | .repeated option => "the argument '" ++ option ++ "' cannot be used multiple times"

/-- What a compilation needs to know. -/
structure Options where
  folder : String
  format : Format
  debug : Bool
  deriving DecidableEq, Repr

/-- What the arguments ask for. -/
inductive Action where
  | help (long : Bool)
  | version
  | compile (options : Options)
  deriving DecidableEq, Repr

/-- An argument by its form: two hyphens alone, a long option with the value behind its equals sign,
short options in one bundle, or anything else. A single hyphen is no option. -/
inductive Argument where
  | separator
  | long (name : String) (value : Option String)
  | short (letters : List Char)
  | plain (text : String)
  deriving DecidableEq, Repr

def Argument.ofText (text : String) : Argument :=
  match text.toList with
  | ['-', '-'] => .separator
  | '-' :: '-' :: rest =>
    let value :=
      match rest.dropWhile (· != '=') with
      | _ :: value => some (String.ofList value)
      | [] => none
    .long (String.ofList (rest.takeWhile (· != '='))) value
  | '-' :: letter :: letters => .short (letter :: letters)
  | _ => .plain text

/-- The options met so far. -/
structure Seen where
  folder : Option String
  format : Option Format
  debug : Bool
  deriving DecidableEq, Repr

namespace Seen

def nothing : Seen :=
  ⟨none, none, false⟩

/-- Notes the folder, once at most. -/
def setFolder (seen : Seen) (value : String) : Except UsageError Seen :=
  if seen.folder.isSome then .error (.repeated "--dir")
  else if value = "" then .error (.missingValue "--dir")
  else .ok { seen with folder := some value }

/-- Notes the format, once at most. -/
def setFormat (seen : Seen) (value : String) : Except UsageError Seen :=
  if seen.format.isSome then .error (.repeated "--format")
  else
    match Format.ofName? value with
    | some format => .ok { seen with format := some format }
    | none => .error (.invalidValue "--format" value)

def setDebug (seen : Seen) : Except UsageError Seen :=
  if seen.debug then .error (.repeated "--debug") else .ok { seen with debug := true }

/-- The options to work with. Without an option for it, the folder is that of the environment, which
may not be empty, or else has its usual name. -/
def options (seen : Seen) (environment : Option String) : Except UsageError Options :=
  match seen.folder, environment with
  | some folder, _ => .ok ⟨folder, seen.format.getD .json, seen.debug⟩
  | none, some "" => .error (.missingValue "--dir")
  | none, some folder => .ok ⟨folder, seen.format.getD .json, seen.debug⟩
  | none, none => .ok ⟨"migrations", seen.format.getD .json, seen.debug⟩

end Seen

/-- How an option that takes a value is noted. -/
def valueOption? : String → Option (Seen → String → Except UsageError Seen)
  | "dir" => some Seen.setFolder
  | "format" => some Seen.setFormat
  | _ => none

/-- Reads the arguments that are left. -/
def readArguments (environment : Option String) (seen : Seen) :
    List String → Except UsageError Action
  | [] => (seen.options environment).map .compile
  | argument :: rest =>
    match Argument.ofText argument with
    | .plain text => .error (.unexpected text)
    | .separator =>
      match rest with
      | [] => (seen.options environment).map .compile
      | text :: _ => .error (.unexpected text)
    | .short letters =>
      if letters.head? = some 'h' then .ok (.help false)
      else if letters.head? = some 'V' then .ok .version
      else .error (.unexpected argument)
    | .long name attached =>
      match valueOption? name with
      | some note =>
        match attached, rest with
        | some value, rest => do
          let seen ← note seen value
          readArguments environment seen rest
        | none, [] => .error (.missingValue argument)
        | none, next :: rest =>
          match Argument.ofText next with
          | .plain value => do
            let seen ← note seen value
            readArguments environment seen rest
          | _ => .error (.missingValue argument)
      | none =>
        if name = "help" ∨ name = "version" ∨ name = "debug" then
          if attached.isSome then .error (.needlessValue argument)
          else if name = "help" then .ok (.help true)
          else if name = "version" then .ok .version
          else do
            let seen ← seen.setDebug
            readArguments environment seen rest
        else .error (.unexpected argument)

/-- What the arguments ask for, given the folder that the environment names. -/
def Action.ofArguments (environment : Option String) (arguments : List String) :
    Except UsageError Action :=
  readArguments environment Seen.nothing arguments

end SchemaChange.CommandLine
