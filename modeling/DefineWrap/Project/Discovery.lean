/-
Which files a run takes.

A file that is given is taken as it is. Of a directory that is given, all files
below it are taken that hold modules and match one of the patterns, if there are
patterns. The directory for the output is passed over, so that a run does not read
what an earlier one has written.

Links are followed. A link to a directory that the walk is in would lead round in a
circle, and is an error, as is a link that leads nowhere.
-/
import DefineWrap.Project.FileSystem
import DefineWrap.Project.Glob.Match
import DefineWrap.Project.ModuleFile

set_option autoImplicit false

namespace DefineWrap

/-- Why the files of a run cannot be found. -/
inductive DiscoveryError where
  | inputMissing (path : Path)
  /-- Something below a directory that is given leads nowhere. -/
  | unreadable (root path : Path) (error : FileError)
  /-- A link below a directory that is given leads back to a directory above it. -/
  | circle (root path ancestor : Path)
  deriving DecidableEq, Repr

/-- The messages of an error: what could not be done, and then why. -/
def DiscoveryError.messages : DiscoveryError → List String
  | .inputMissing path => ["input not found: " ++ path.text]
  | .unreadable root path error => [
    "failed to walk " ++ root.text,
    "IO error for operation on " ++ path.text ++ ": " ++ error.message,
    error.message]
  | .circle root path ancestor => [
    "failed to walk " ++ root.text,
    "File system loop found: " ++ path.text ++ " points to an ancestor " ++ ancestor.text]

namespace Discovery

/-! ## Walking through a directory -/

/-- A directory that a walk is in. -/
structure Visited where
  path : Path
  location : Location

/-- What a walk through a directory depends on. -/
structure Walk where
  files : FileSystem
  root : Path
  /-- What is passed over, with everything below it. -/
  outDir : Option Path

namespace Walk

/-- Whether a path is passed over. -/
def isPassedOver (walk : Walk) (path : Path) : Bool := walk.outDir.any path.isSame

/-- What a path leads to. If it is a link to a directory, that must not be one that the
walk is in; the innermost of these stands first. -/
def resolve (walk : Walk) (within : List Visited) (path : Path) :
    Except DiscoveryError (Location × Entry) := do
  let unreadable := DiscoveryError.unreadable walk.root path
  let (location, entry) ← (walk.files.locate path).mapError unreadable
  let isLink := match walk.files.findNew path with
    | .ok (.entry _ (.link _)) => true
    | _ => false
  match entry, within.find? (·.location = location) with
  | .directory, some ancestor =>
    if isLink then .error (.circle walk.root path ancestor.path)
    else return (location, entry)
  | _, _ => return (location, entry)

/-- All files at a path and below it, by name. The number bounds how deep the walk
goes. -/
def filesWithin (walk : Walk) : Nat → List Visited → Path → Except DiscoveryError (List Path)
  | 0, _, _ => .ok []
  | depth + 1, within, path => do
    let (location, entry) ← walk.resolve within path
    if walk.isPassedOver path then return []
    else
      match entry with
      | .directory => do
        let below ← (walk.files.names location).mapM fun name =>
          filesWithin walk depth (⟨path, location⟩ :: within) (path.join ⟨name⟩)
        return below.flatten
      | _ => return [path]

/-- A bound on how deep a walk goes. From one link to the next the places get longer, and
no link leads to a directory that the walk is in. -/
def maxDepth (files : FileSystem) : Nat := (files.entries.length + 2) * (files.entries.length + 2)

/-- All files at the root of a walk and below it. -/
def run (walk : Walk) : Except DiscoveryError (List Path) :=
  walk.filesWithin (maxDepth walk.files) [] walk.root

end Walk

/-! ## Inputs -/

/-- Which of the files in directories are taken. -/
structure Filter where
  includes : Option (List (List GlobPart))
  rootDir : Path
  outDir : Option Path

namespace Filter

/-- Whether a file matches one of the patterns, if there are patterns. Patterns are for
paths relative to the root directory. -/
def isIncluded (filter : Filter) (path : Path) : Bool :=
  match filter.includes with
  | none => true
  | some patterns =>
    let relative := (path.stripPrefix? filter.rootDir).getD path
    patterns.any (Glob.isMatch · relative.text)

/-- Whether a file that is found in a directory is taken. -/
def isTaken (filter : Filter) (path : Path) : Bool :=
  ModuleFile.isModule path && filter.isIncluded path

end Filter

/-- The files of one input. -/
def expand (files : FileSystem) (filter : Filter) (input : Path) :
    Except DiscoveryError (List Path) := do
  if files.isDirectory input then
    let found ← Walk.run ⟨files, input, filter.outDir⟩
    return found.filter filter.isTaken
  else if files.isFile input then return [input]
  else .error (.inputMissing input)

/-- Paths without those that are the same as the one before. -/
def dropRepeats : List Path → List Path
  | [] => []
  | [path] => [path]
  | path :: next :: rest =>
    if path.isSame next then dropRepeats (path :: rest)
    else path :: dropRepeats (next :: rest)
termination_by paths => paths.length

/-- The files of all inputs, in the order of the inputs. -/
def run (files : FileSystem) (filter : Filter) (inputs : List Path) :
    Except DiscoveryError (List Path) := do
  let found ← inputs.mapM (expand files filter)
  return dropRepeats found.flatten

end Discovery

end DefineWrap
