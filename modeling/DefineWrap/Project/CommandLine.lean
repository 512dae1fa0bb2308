/-
The command line.

An argument that begins with two dashes is an option by its long name, one that
begins with a single dash is a row of short names, and everything else is a file,
as is everything after a lone `--`. A value follows its option as the next argument
or, after an equals sign, in the same one.

What an option or a row of files has collected is checked when the next one
begins, and at the end. So of two faults the one further to the left is reported;
but a name that is not known, and a value that is not wanted, are reported at
once.
-/

set_option autoImplicit false

namespace DefineWrap

/-! ## Names -/

/-- An option with a value. -/
inductive ValueOption where
  | project
  | outDir
  | rootDir
  | defineCallee
  deriving DecidableEq, Repr

/-- An option without a value. -/
inductive Switch where
  | nameModules
  | pretty
  | dependencies
  deriving DecidableEq, Repr

/-- What a name of the command line stands for. -/
inductive CommandName where
  | value (option : ValueOption)
  | switch (switch : Switch)
  | help
  | version
  deriving DecidableEq, Repr

namespace CommandName

/-- The long names. -/
def longNames : List (String × CommandName) := [
  ("project", .value .project),
  ("outDir", .value .outDir), ("out-dir", .value .outDir),
  ("rootDir", .value .rootDir), ("root-dir", .value .rootDir),
  ("defineCallee", .value .defineCallee), ("define-callee", .value .defineCallee),
  ("nameModules", .switch .nameModules), ("name-modules", .switch .nameModules),
  ("pretty", .switch .pretty),
  ("dependencies", .switch .dependencies),
  ("help", .help),
  ("version", .version)]

/-- The short names. -/
def shortNames : List (Char × CommandName) := [
  ('p', .value .project), ('h', .help), ('V', .version)]

/-- What a long name stands for. -/
def ofLong? (name : String) : Option CommandName := longNames.lookup name

/-- What a short name stands for. -/
def ofShort? (name : Char) : Option CommandName := shortNames.lookup name

end CommandName

/-! ## Results -/

/-- What is asked for on the command line. -/
structure CommandLine where
  project : Option String
  outDir : Option String
  rootDir : Option String
  defineCallee : Option String
  nameModules : Bool
  pretty : Bool
  dependencies : Bool
  files : List String
  deriving DecidableEq, Repr

/-- Why a command line is not carried out. -/
inductive UsageError where
  | unknownArgument
  /-- A value is missing, or a path is empty. -/
  | invalidValue
  /-- A value for an option that has none. -/
  | unwantedValue
  /-- An option is given twice. -/
  | repeatedOption
  | helpRequested
  | versionRequested
  deriving DecidableEq, Repr

namespace CommandLine

/-- The empty command line. -/
def empty : CommandLine := ⟨none, none, none, none, false, false, false, []⟩

/-- The value of an option. -/
def value? (line : CommandLine) : ValueOption → Option String
  | .project => line.project
  | .outDir => line.outDir
  | .rootDir => line.rootDir
  | .defineCallee => line.defineCallee

/-- The command line with another value of an option. -/
def withValue (line : CommandLine) (option : ValueOption) (value : String) : CommandLine :=
  match option with
  | .project => { line with project := some value }
  | .outDir => { line with outDir := some value }
  | .rootDir => { line with rootDir := some value }
  | .defineCallee => { line with defineCallee := some value }

/-- Whether a switch is on. -/
def isOn (line : CommandLine) : Switch → Bool
  | .nameModules => line.nameModules
  | .pretty => line.pretty
  | .dependencies => line.dependencies

/-- The command line with a switch on. -/
def withSwitch (line : CommandLine) : Switch → CommandLine
  | .nameModules => { line with nameModules := true }
  | .pretty => { line with pretty := true }
  | .dependencies => { line with dependencies := true }

/-- Whether the value of an option is a path, which must not be empty. -/
def isPathOption : ValueOption → Bool
  | .defineCallee => false
  | _ => true

/-- Sets an option, which may be done once. -/
def setValue (line : CommandLine) (option : ValueOption) (value : String) :
    Except UsageError CommandLine :=
  if (line.value? option).isSome then .error .repeatedOption
  else if isPathOption option ∧ value.isEmpty then .error .invalidValue
  else .ok (line.withValue option value)

/-- Turns a switch on, which may be done once. -/
def setSwitch (line : CommandLine) (switch : Switch) : Except UsageError CommandLine :=
  if line.isOn switch then .error .repeatedOption else .ok (line.withSwitch switch)

/-- Adds files. -/
def addFiles (line : CommandLine) (files : List String) : Except UsageError CommandLine :=
  if files.any String.isEmpty then .error .invalidValue
  else .ok { line with files := line.files ++ files }

/-! ## Reading -/

/-- What has been collected, but not checked. -/
inductive Collected where
  | nothing
  | option (option : ValueOption) (value : Option String)
  | files (files : List String)

/-- A command line that is being read. -/
structure Progress where
  line : CommandLine
  collected : Collected

namespace Progress

/-- Checks what has been collected. -/
def settle (progress : Progress) : Except UsageError CommandLine :=
  match progress.collected with
  | .nothing => .ok progress.line
  | .option _ none => .error .invalidValue
  | .option option (some value) => progress.line.setValue option value
  | .files files => progress.line.addFiles files

/-- A file. -/
def takeFile (progress : Progress) (file : String) : Except UsageError Progress :=
  match progress.collected with
  | .files files => .ok { progress with collected := .files (files ++ [file]) }
  | _ => do
    let line ← progress.settle
    return ⟨line, .files [file]⟩

/-- An argument that is no name: the value of an option that waits for one, or a file. -/
def takePlain (progress : Progress) (argument : String) : Except UsageError Progress :=
  match progress.collected with
  | .option option none => .ok { progress with collected := .option option (some argument) }
  | _ => progress.takeFile argument

/-- A name without a value of its own. -/
def takeName (progress : Progress) (name : CommandName) : Except UsageError Progress := do
  let line ← progress.settle
  match name with
  | .value option => return ⟨line, .option option none⟩
  | .switch switch => return ⟨← line.setSwitch switch, .nothing⟩
  | .help => .error .helpRequested
  | .version => .error .versionRequested

/-- An option together with its value. -/
def takeValue (progress : Progress) (option : ValueOption) (value : String) :
    Except UsageError Progress := do
  let line ← progress.settle
  return ⟨← line.setValue option value, .nothing⟩

/-- A long name, and the value after its equals sign. -/
def takeLong (progress : Progress) (name : String) (value : Option String) :
    Except UsageError Progress :=
  match CommandName.ofLong? name, value with
  | none, _ => .error .unknownArgument
  | some (.value option), some value => progress.takeValue option value
  | some _, some _ => .error .unwantedValue
  | some name, none => progress.takeName name

/-- A row of short names. The rest of the row after an option is its value, with or
without an equals sign before it. -/
def takeShort (progress : Progress) : List Char → Except UsageError Progress
  | [] => .ok progress
  | c :: rest =>
    match CommandName.ofShort? c, rest with
    | none, _ => .error .unknownArgument
    | some (.value option), '=' :: value => progress.takeValue option (String.ofList value)
    | some (.value option), v :: value => progress.takeValue option (String.ofList (v :: value))
    | some name, rest => do
      let progress ← progress.takeName name
      takeShort progress rest

/-- One argument before a lone `--`. -/
def takeArgument (progress : Progress) (argument : String) : Except UsageError Progress :=
  match argument.toList with
  | '-' :: '-' :: text =>
    let name := String.ofList (text.takeWhile (· ≠ '='))
    match text.dropWhile (· ≠ '=') with
    | [] => progress.takeLong name none
    | _ :: value => progress.takeLong name (some (String.ofList value))
  | '-' :: c :: row => progress.takeShort (c :: row)
  | _ => progress.takePlain argument

/-- All arguments. -/
def takeArguments (progress : Progress) : List String → Except UsageError Progress
  | [] => .ok progress
  | argument :: rest =>
    if argument = "--" then rest.foldlM takeFile progress
    else do
      let progress ← progress.takeArgument argument
      takeArguments progress rest

end Progress

/-- Reads a command line, given without the name of the program. -/
def parse (arguments : List String) : Except UsageError CommandLine := do
  let progress ← Progress.takeArguments ⟨empty, .nothing⟩ arguments
  progress.settle

end CommandLine

end DefineWrap
