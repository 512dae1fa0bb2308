/-
Files that hold modules: which ones do, what the module in a file is called, and
where the wrapped module is written.
-/
import DefineWrap.Project.Path

set_option autoImplicit false

namespace DefineWrap

namespace ModuleFile

/-- The end of the name of a file that holds a syntax tree. -/
def estreeEnding : String := ".estree.json"

/-- The end of the name of any file that may hold a module. -/
def jsonEnding : String := ".json"

/-- The name of a project file. -/
def projectFileName : String := "udep.json"

/-- Names of files that projects have for other purposes. -/
def otherNames : List String := [
  projectFileName, "package.json", "package-lock.json", "tsconfig.json", "jsconfig.json"]

/-- A text without the given ending, if it has that ending. -/
def stripEnding? (text ending : String) : Option String :=
  let chars := text.toList
  let tail := ending.toList
  if tail.isSuffixOf chars then some (String.ofList (chars.take (chars.length - tail.length)))
  else none

/-- Whether a file that is found in a directory holds a module. -/
def isModule (path : Path) : Bool :=
  match path.fileName? with
  | none => false
  | some name => (stripEnding? name jsonEnding).isSome && name ∉ otherNames

/-- The names that a path leads through. -/
def names (path : Path) : List String :=
  path.components.filterMap fun
    | .normal name => some name
    | _ => none

/-- What a module is called: its place below the root directory without the ending. A
file elsewhere is called by its whole path. -/
def moduleId (path root : Path) : String :=
  let joined := "/".intercalate (names ((path.stripPrefix? root).getD path))
  ((stripEnding? joined estreeEnding).or (stripEnding? joined jsonEnding)).getD joined

/-- Where a wrapped module is written: at its place below the root directory, but in
the output directory. A file elsewhere is written directly into that directory. -/
def outputPath (path root out : Path) : Path :=
  match path.stripPrefix? root with
  | some relative => out.join relative
  | none => out.join ⟨path.fileName?.getD path.text⟩

end ModuleFile

end DefineWrap
