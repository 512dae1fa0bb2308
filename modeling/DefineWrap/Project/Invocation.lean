/-
The program as it is called: from arguments and a working directory to what it
prints and how it ends.

Results go to the standard output, failures and the summary to the standard error.
The program fails if the run cannot begin or if a module fails.
-/
import DefineWrap.Project.Report
import DefineWrap.Project.Run

set_option autoImplicit false

namespace DefineWrap

namespace Invocation

/-- The name and version of the program. -/
def version : String := "udep 0.1.0"

/-- The help text. -/
def help : String := "\n".intercalate [
  "Wraps ES module syntax trees into define() calls",
  "",
  "Usage: udep [OPTIONS] [FILE]...",
  "",
  "Arguments:",
  "  [FILE]...  ESTree JSON files or directories",
  "",
  "Options:",
  "  -p, --project <PROJECT>            Path to udep.json or a directory containing it",
  "      --outDir <OUT_DIR>             Write wrapped modules here",
  "      --rootDir <ROOT_DIR>           Root that module ids and output paths are computed from",
  "      --defineCallee <DEFINE_CALLEE> Name of the registration function the wrapper calls",
  "      --nameModules                  Pass each module's id as the first wrapper argument",
  "      --pretty                       Pretty-print the output JSON",
  "      --dependencies                 Only print each module's dependency list",
  "  -h, --help                         Print help",
  "  -V, --version                      Print version"]

/-- What a call prints, and the status that it ends with. -/
structure Output where
  stdout : List String
  stderr : List String
  status : Nat
  deriving DecidableEq, Repr

/-- The text of printed lines. -/
def textOf (lines : List String) : String := String.join (lines.map (· ++ "\n"))

/-- The message of a command line that cannot be carried out. -/
def usageMessage : UsageError → String
  | .unknownArgument => "error: unexpected argument found"
  | .invalidValue => "error: a value is required, but none was supplied"
  | .unwantedValue => "error: unexpected value for an option"
  | .repeatedOption => "error: an option cannot be used multiple times"
  | .helpRequested => help
  | .versionRequested => version

/-- The output for a command line that is not carried out. -/
def usageOutput (error : UsageError) : Output :=
  match error with
  | .helpRequested => ⟨[usageMessage error], [], 0⟩
  | .versionRequested => ⟨[usageMessage error], [], 0⟩
  | _ => ⟨[], [usageMessage error], 2⟩

/-- The output for a run that cannot begin. -/
def fatalOutput (messages : List String) : Output := ⟨[], [Report.fatal messages], 1⟩

/-- The lines for one module on the standard output. -/
def moduleLines (color : Bool) (settings : Settings) (outcome : ModuleOutcome) : List String :=
  match outcome.result with
  | .error _ => []
  | .ok finished =>
    if settings.dependenciesOnly then
      [Report.dependenciesLine color finished.moduleId finished.dependencies]
    else finished.text.toList

/-- The lines for one module on the standard error. -/
def failureLines (color : Bool) (outcome : ModuleOutcome) : List String :=
  match outcome.result with
  | .error error => [Report.failureLine color outcome.input.text error.messages]
  | .ok _ => []

/-- The line at the end of a run that writes files. -/
def summaryLines (color : Bool) (settings : Settings) (modules : List ModuleOutcome) :
    List String :=
  if settings.outDir.isSome && !settings.dependenciesOnly then
    [Report.summaryLine color (finishedCount modules) (failedCount modules)]
  else []

/-- The output for a run. -/
def runOutput (color : Bool) (settings : Settings) (modules : List ModuleOutcome) : Output :=
  ⟨modules.flatMap (moduleLines color settings),
    modules.flatMap (failureLines color) ++ summaryLines color settings modules,
    if failedCount modules = 0 then 0 else 1⟩

/-- Carries out a call in a working directory. -/
def call (color : Bool) (directory : Path) (arguments : List String) :
    StateM FileSystem Output := do
  match CommandLine.parse arguments with
  | .error error => return usageOutput error
  | .ok line =>
    let files ← get
    match Settings.resolve files directory line with
    | .error error => return fatalOutput error.messages
    | .ok settings =>
      match ← settings.run.run with
      | .error error => return fatalOutput error.messages
      | .ok modules => return runOutput color settings modules

end Invocation

end DefineWrap
