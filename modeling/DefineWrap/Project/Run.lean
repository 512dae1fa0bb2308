/-
A run: every file that is taken is read, wrapped and written.

Each module goes through two steps. The first only reads; it ends with the text of
the wrapped module. The second puts that text in its place in the output
directory, if there is one. A module that fails does not stop the others.
-/
import DefineWrap.Estree.Text
import DefineWrap.Project.Discovery
import DefineWrap.Project.Settings
import DefineWrap.Wrap.Module

set_option autoImplicit false

namespace DefineWrap

/-! ## Errors -/

/-- What can go wrong with a module. -/
inductive ModuleError where
  | unreadable (path : Path) (error : FileError)
  | notProgram (fault : Fault)
  | unwrappable (error : WrapError)
  | uncreatable (path : Path) (error : FileError)
  | unwritable (path : Path) (error : FileError)
  deriving DecidableEq, Repr

namespace ModuleError

/-- The message of a text that is no program. -/
def notProgramMessage : String := "input is not an ESTree Program"

/-- The messages of an error: what could not be done, and then why. -/
def messages : ModuleError → List String
  | .unreadable path error => ["failed to read " ++ path.text, error.message]
  | .notProgram _ => [notProgramMessage]
  | .unwrappable error => [error.message]
  | .uncreatable path error => ["failed to create " ++ path.text, error.message]
  | .unwritable path error => ["failed to write " ++ path.text, error.message]

end ModuleError

/-! ## Modules -/

/-- A module that is wrapped, but not written. -/
structure WrappedModule where
  moduleId : String
  dependencies : List String
  /-- The text of the wrapped program, unless only the dependencies are wanted. -/
  text : Option String
  deriving DecidableEq, Repr

/-- A module that is done. -/
structure FinishedModule where
  moduleId : String
  dependencies : List String
  /-- The text of the wrapped program, if it is not written to a file. -/
  text : Option String
  /-- The file that it is written to. -/
  written : Option Path
  deriving DecidableEq, Repr

/-- A file that was taken, and what came of it. -/
structure ModuleOutcome where
  input : Path
  result : Except ModuleError FinishedModule

namespace Settings

/-- The first step of a module: it is read and wrapped. -/
def wrapModule (settings : Settings) (files : FileSystem) (input : Path) :
    Except ModuleError WrappedModule := do
  let moduleId := ModuleFile.moduleId input settings.rootDir
  let source ← (files.read input).mapError (.unreadable input)
  let program ← (Program.parse source).mapError .notProgram
  let wrapped ← (program.wrap (settings.wrapOptions moduleId)).mapError .unwrappable
  let text := wrapped.program.render (.ofPretty settings.pretty)
  return ⟨moduleId, wrapped.dependencies, if settings.dependenciesOnly then none else some text⟩

/-- The second step of a module: its text is written, if there is a directory for it. -/
def writeModule (settings : Settings) (input : Path) (wrapped : WrappedModule) :
    ExceptT ModuleError (StateM FileSystem) FinishedModule := do
  match wrapped.text, settings.outDir with
  | some text, some outDir =>
    let path := ModuleFile.outputPath input settings.rootDir outDir
    match path.parent? with
    | some parent =>
      (FileAction.makeDirectories parent).adapt (ModuleError.uncreatable parent)
    | none => pure ()
    (FileAction.write path text).adapt (ModuleError.unwritable path)
    return ⟨wrapped.moduleId, wrapped.dependencies, none, some path⟩
  | text, _ => return ⟨wrapped.moduleId, wrapped.dependencies, text, none⟩

/-- Both steps of a module. -/
def compileModule (settings : Settings) (input : Path) :
    ExceptT ModuleError (StateM FileSystem) FinishedModule := do
  let files ← get
  let wrapped ← (settings.wrapModule files input : Except ModuleError WrappedModule)
  settings.writeModule input wrapped

/-! ## Runs -/

/-- Which of the files in directories are taken. -/
def filter (settings : Settings) : Discovery.Filter :=
  ⟨settings.includes, settings.rootDir, settings.outDir⟩

/-- The modules of the given files, one after the other. -/
def compileModules (settings : Settings) (inputs : List Path) :
    StateM FileSystem (List ModuleOutcome) :=
  inputs.mapM fun input => do
    let result ← (settings.compileModule input).run
    return ⟨input, result⟩

/-- A whole run. Nothing is written before all files are found. -/
def run (settings : Settings) :
    ExceptT DiscoveryError (StateM FileSystem) (List ModuleOutcome) := do
  let files ← get
  let inputs ←
    (Discovery.run files settings.filter settings.inputs : Except DiscoveryError (List Path))
  settings.compileModules inputs

end Settings

/-- How many modules failed. -/
def failedCount (modules : List ModuleOutcome) : Nat :=
  modules.countP fun outcome => outcome.result.toOption.isNone

/-- How many modules are done. -/
def finishedCount (modules : List ModuleOutcome) : Nat :=
  modules.countP fun outcome => outcome.result.toOption.isSome

end DefineWrap
