/-
The settings of a run: what the command line asks for, and else what the project
file says.

The project file is the one that the command line names, or one in the directory
that it names, or one in the working directory if there is one. Paths on the
command line are relative to the working directory, those in a project file to
the directory of the file.
-/
import DefineWrap.Project.CommandLine
import DefineWrap.Project.FileSystem
import DefineWrap.Project.Glob.Match
import DefineWrap.Project.Glob.Nesting
import DefineWrap.Project.ModuleFile
import DefineWrap.Project.ProjectFile
import DefineWrap.Wrap.Wrapper
import DefineWrap.Text.Blank

set_option autoImplicit false

namespace DefineWrap

/-- The settings of a run. -/
structure Settings where
  defineCallee : String
  nameModules : Bool
  rootDir : Path
  outDir : Option Path
  /-- Patterns for the files that are taken from directories. -/
  includes : Option (List (List GlobPart))
  pretty : Bool
  /-- Whether only the dependencies of the modules are wanted. -/
  dependenciesOnly : Bool
  /-- Files and directories. -/
  inputs : List Path

/-- Why a run cannot begin. -/
inductive SettingsError where
  | projectFileMissing (path : Path)
  | projectFileUnreadable (path : Path) (error : FileError)
  | projectFileInvalid (path : Path) (fault : Fault)
  | emptyCallee
  | invalidPattern (pattern : String) (error : GlobError)
  | patternTooDeep (error : NestingError)
  | noInputs
  deriving DecidableEq, Repr

/-- The messages of an error: what could not be done, and then why. -/
def SettingsError.messages : SettingsError → List String
  | .projectFileMissing path => ["project file not found: " ++ path.text]
  | .projectFileUnreadable path error =>
    ["failed to read project file: " ++ path.text, error.message]
  | .projectFileInvalid path _ =>
    ["invalid project file: " ++ path.text, ProjectFile.parseMessage]
  | .emptyCallee => ["defineCallee must not be empty"]
  | .invalidPattern pattern error => [
    "invalid include pattern '" ++ pattern ++ "'",
    "error parsing glob '" ++ pattern ++ "': " ++ error.message]
  | .patternTooDeep error => ["failed to compile include patterns", error.message]
  | .noInputs => [
    "no input files: pass files or directories, or run with a udep.json project"]

namespace Settings

/-- How the module of the given name is wrapped. -/
def wrapOptions (settings : Settings) (moduleId : String) : WrapOptions :=
  ⟨settings.defineCallee, if settings.nameModules then some moduleId else none⟩

/-! ## The project file -/

/-- Where the project file is, if there is one. -/
def findProjectFile (files : FileSystem) (directory : Path) (project : Option String) :
    Except SettingsError (Option Path) :=
  let fileIn (directory : Path) : Path := directory.join ⟨ModuleFile.projectFileName⟩
  match project with
  | none =>
    let path := fileIn directory
    .ok (if files.isFile path then some path else none)
  | some project =>
    let named := directory.join ⟨project⟩
    let path := if files.isDirectory named then fileIn named else named
    if files.isFile path then .ok (some path) else .error (.projectFileMissing path)

/-- Reads a project file. -/
def readProjectFile (files : FileSystem) (path : Path) : Except SettingsError ProjectFile := do
  let text ← (files.read path).mapError (.projectFileUnreadable path)
  (ProjectFile.parse text).mapError (.projectFileInvalid path)

/-! ## The settings -/

/-- Patterns, in the order in which they are given. -/
def readPatterns (patterns : List String) : Except SettingsError (List (List GlobPart)) := do
  let patterns ← patterns.mapM fun pattern =>
    (Glob.parse pattern).mapError (.invalidPattern pattern)
  (Glob.refuseTooDeep patterns).mapError .patternTooDeep
  return patterns

/-- A directory that the command line may name, and else the project file. -/
def chooseDirectory (directory base : Path) (asked given : Option String) : Option Path :=
  match asked, given with
  | some asked, _ => some (directory.join ⟨asked⟩)
  | none, some given => some (base.join ⟨given⟩)
  | none, none => none

/-- The settings of a run in the given working directory. -/
def resolve (files : FileSystem) (directory : Path) (line : CommandLine) :
    Except SettingsError Settings := do
  let path ← findProjectFile files directory line.project
  let project ← match path with
    | some path => readProjectFile files path
    | none => .ok .empty
  let base := match path with
    | some path => path.parent?.getD directory
    | none => directory
  let rootDir := (chooseDirectory directory base line.rootDir project.rootDir).getD base
  let outDir := chooseDirectory directory base line.outDir project.outDir
  let defineCallee :=
    (line.defineCallee.or project.defineCallee).getD WrapOptions.defaultCallee
  if Text.isBlank defineCallee then .error .emptyCallee
  else
    let includes ← match project.includePatterns with
      | some patterns => (readPatterns patterns).map some
      | none => .ok none
    let inputs ←
      if ¬ line.files.isEmpty then .ok (line.files.map fun file => directory.join ⟨file⟩)
      else if path.isSome then .ok [rootDir]
      else .error .noInputs
    return {
      defineCallee, rootDir, outDir, includes, inputs
      nameModules := line.nameModules || project.nameModules.getD false
      pretty := line.pretty || project.pretty.getD false
      dependenciesOnly := line.dependencies }

end Settings

end DefineWrap
