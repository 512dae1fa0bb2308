/-
The command line.

All that a call may look at is first read from the disk, then the call is carried
out on what was read, and then what it has changed is written to the disk.

A link is read as a link to the place where it ends.
-/
import DefineWrap.Project.Invocation

set_option autoImplicit false

namespace DefineWrap

namespace Disk

/-- What has been read, and the directories of which everything has been read. -/
structure Snapshot where
  files : FileSystem
  complete : List Location

/-- Reads from the disk. -/
abbrev Loader := StateT Snapshot IO

/-- The text of a place. -/
def textOf (location : Location) : String := "/" ++ "/".intercalate location

/-- The place of a path without links and dots. -/
def locationOf (text : String) : Location := ModuleFile.names ⟨text⟩

/-- The path of a link that leads nowhere; no file has this name. -/
def nowhere : Path := ⟨"/\x00"⟩

/-- The entry of a directory at a place. -/
def entryAt (location : Location) : IO.FS.DirEntry :=
  ⟨textOf location.dropLast, location.getLastD "."⟩

/-- Stores what has been read. -/
def store (location : Location) (entry : Entry) : Loader Unit :=
  modify fun snapshot => { snapshot with files := snapshot.files.put location entry }

/-- Reads what is at a place, and if wanted everything below it. Of files that are only
come across, those that hold no modules are not read. -/
partial def load (isBelow : Bool) (location : Location) : Loader Unit := do
  let snapshot ← get
  if location ∈ snapshot.complete then return
  if let some (.file _) := snapshot.files.get? location then return
  let path := (entryAt location).path
  let kind ← (try return some (← path.symlinkMetadata).type catch _ => return none : IO _)
  match kind with
  | none => return
  | some .dir =>
    if location ≠ [] then store location .directory
    if isBelow then
      modify fun snapshot => { snapshot with complete := location :: snapshot.complete }
      for entry in ← path.readDir do
        load true (location ++ [entry.fileName])
  | some .symlink =>
    let target ← (try return some (← IO.FS.realPath path) catch _ => return none : IO _)
    match target with
    | none => store location (.link nowhere)
    | some target =>
      store location (.link ⟨target.toString⟩)
      let place := locationOf target.toString
      for count in [1 : place.length] do
        store (place.take count) .directory
      load isBelow place
  | some _ =>
    if isBelow ∧ ¬ ModuleFile.isModule ⟨textOf location⟩ then store location (.file .empty)
    else store location (.file (← IO.FS.readBinFile path))

/-- Reads what a path leads to and all that it leads through. -/
def loadPath (isBelow : Bool) (path : Path) : Loader Unit := do
  for count in [1 : path.pieces.length + 1] do
    let start := Path.ofPieces .relative (path.pieces.take count)
    match (← get).files.findNew start with
    | .ok (.absent location) => load false location
    | _ => pure ()
  match (← get).files.locate path with
  | .ok (location, .directory) => load isBelow location
  | _ => pure ()

/-- Reads all that a call may look at. -/
def loadCall (directory : Path) (arguments : List String) : Loader Unit := do
  let line ← match CommandLine.parse arguments with
    | .ok line => pure line
    | .error _ => return
  loadPath false directory
  let project := match line.project with
    | some project => directory.join ⟨project⟩
    | none => directory
  loadPath false project
  loadPath false (project.join ⟨ModuleFile.projectFileName⟩)
  match Settings.resolve (← get).files directory line with
  | .error _ => return
  | .ok settings =>
    settings.inputs.forM (loadPath false)
    settings.inputs.forM (loadPath true)
    settings.outDir.forM (loadPath true)

/-- Writes what has changed. -/
def commit (changes : List (Location × Entry)) : IO Unit :=
  changes.forM fun (location, entry) =>
    match entry with
    | .directory => IO.FS.createDirAll (textOf location)
    | .file bytes => IO.FS.writeBinFile (textOf location) bytes
    | .link _ => pure ()

end Disk

end DefineWrap

/-- Carries out a call with the given arguments. -/
def main (arguments : List String) : IO UInt32 := do
  let directory : DefineWrap.Path := ⟨(← IO.currentDir).toString⟩
  let stderr ← IO.getStderr
  let color ← stderr.isTty
  let (_, snapshot) ← (DefineWrap.Disk.loadCall directory arguments).run ⟨.empty, []⟩
  let call := DefineWrap.Invocation.call color directory arguments
  let (output, after) := call.run snapshot.files
  DefineWrap.Disk.commit (after.changesSince snapshot.files)
  IO.print (DefineWrap.Invocation.textOf output.stdout)
  stderr.putStr (DefineWrap.Invocation.textOf output.stderr)
  return output.status.toUInt32
