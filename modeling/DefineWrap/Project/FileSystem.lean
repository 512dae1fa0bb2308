/-
A file system: what is stored where, and what happens when a path is followed.

A place is the list of names that lead to it from the root, so a place has one
name only, while many paths may lead to it. A path is followed piece by piece. A
piece that leads nowhere stays in the directory, two dots go up, and a link is
replaced by what it says; the number of links on the way is limited, so following
always ends.

Making directories and writing files are actions: what they have changed stays
changed if they fail later on.
-/
import DefineWrap.Project.Path

set_option autoImplicit false

namespace DefineWrap

/-- The names that lead from the root to a place. -/
abbrev Location := List String

/-- What is stored at a place. -/
inductive Entry where
  | file (bytes : ByteArray)
  | directory
  | link (target : Path)

/-- Why something cannot be done with a path. -/
inductive FileError where
  | missing
  | alreadyThere
  | notDirectory
  | isDirectory
  | tooManyLinks
  /-- The bytes of a file are no text. -/
  | notText
  deriving DecidableEq, Repr

/-- The message of an error. -/
def FileError.message : FileError → String
  | .missing => "No such file or directory (os error 2)"
  | .alreadyThere => "File exists (os error 17)"
  | .notDirectory => "Not a directory (os error 20)"
  | .isDirectory => "Is a directory (os error 21)"
  | .tooManyLinks => "Too many levels of symbolic links (os error 40)"
  | .notText => "stream did not contain valid UTF-8"

/-- All that is stored, apart from the root. -/
structure FileSystem where
  entries : List (Location × Entry)

namespace FileSystem

/-! ## Places -/

/-- Nothing is stored. -/
def empty : FileSystem := ⟨[]⟩

/-- What is stored at a place. The root is a directory. -/
def get? (files : FileSystem) (location : Location) : Option Entry :=
  if location = [] then some .directory else files.entries.lookup location

/-- Stores something at a place, instead of what has been there. -/
def put (files : FileSystem) (location : Location) (entry : Entry) : FileSystem :=
  ⟨files.entries.filter (·.1 ≠ location) ++ [(location, entry)]⟩

/-- What is stored in one file system and not in another one, in the order in which it
was stored. -/
def changesSince (files before : FileSystem) : List (Location × Entry) :=
  files.entries.filter fun (location, entry) =>
    match entry, before.get? location with
    | .directory, some .directory => false
    | .file bytes, some (.file old) => bytes.toList ≠ old.toList
    | .link target, some (.link old) => target ≠ old
    | _, _ => true

/-- The names in a directory, sorted. -/
def names (files : FileSystem) (location : Location) : List String :=
  let inside := files.entries.filterMap fun (other, _) =>
    if other.dropLast = location then other.getLast? else none
  inside.mergeSort fun name other => !(other < name)

/-! ## Following a path -/

/-- Where a path leads. -/
inductive Found where
  | entry (location : Location) (entry : Entry)
  /-- To a place in a directory where nothing is stored. -/
  | absent (location : Location)

/-- Follows pieces from a directory. What to do at a link is given; a link at the end
counts as found if links are not to be followed there. -/
def followPieces (files : FileSystem) (followLast : Bool)
    (atLink : List Piece → Location → Except FileError Found) :
    List Piece → Location → Except FileError Found
  | [], location => .ok (.entry location .directory)
  | piece :: rest, location =>
    if !piece.isStep then followPieces files followLast atLink rest location
    else if piece = ['.', '.'] then
      followPieces files followLast atLink rest location.dropLast
    else
      let next := location ++ [String.ofList piece]
      match files.get? next with
      | none => if rest.isEmpty then .ok (.absent next) else .error .missing
      | some .directory => followPieces files followLast atLink rest next
      | some (.file bytes) =>
        if rest.isEmpty then .ok (.entry next (.file bytes)) else .error .notDirectory
      | some (.link target) =>
        if rest.isEmpty && !followLast then .ok (.entry next (.link target))
        else atLink (target.pieces ++ rest) (if target.isAbsolute then [] else location)

/-- Follows pieces from a directory, over the given number of links at most. -/
def followWithin (files : FileSystem) (followLast : Bool) :
    Nat → List Piece → Location → Except FileError Found
  | 0 => files.followPieces followLast fun _ _ => .error .tooManyLinks
  | links + 1 => files.followPieces followLast (files.followWithin followLast links)

/-- The number of links that may be on the way. -/
def maxLinks : Nat := 40

/-- Where a path leads, if a link at its end is followed too. -/
def find (files : FileSystem) (path : Path) : Except FileError Found :=
  files.followWithin true maxLinks path.pieces []

/-- Where something new is made that is given by a path. A link at the end of the path is
not followed, and slashes at its end do not count. -/
def findNew (files : FileSystem) (path : Path) : Except FileError Found :=
  let pieces := (path.pieces.reverse.dropWhile List.isEmpty).reverse
  files.followWithin false maxLinks pieces []

/-- The place that a path leads to, and what is stored there. -/
def locate (files : FileSystem) (path : Path) : Except FileError (Location × Entry) := do
  match ← files.find path with
  | .entry location entry => return (location, entry)
  | .absent _ => .error .missing

/-- Whether a path leads to a directory. -/
def isDirectory (files : FileSystem) (path : Path) : Bool :=
  match files.locate path with
  | .ok (_, .directory) => true
  | _ => false

/-- Whether a path leads to a file. -/
def isFile (files : FileSystem) (path : Path) : Bool :=
  match files.locate path with
  | .ok (_, .file _) => true
  | _ => false

/-- The path without links of the directory that a path leads to. -/
def directoryPath? (files : FileSystem) (path : Path) : Option Path :=
  match files.locate path with
  | .ok (location, .directory) => some ⟨"/" ++ "/".intercalate location⟩
  | _ => none

/-- The text in a file. -/
def read (files : FileSystem) (path : Path) : Except FileError String := do
  match ← files.locate path with
  | (_, .file bytes) =>
    match String.fromUTF8? bytes with
    | some text => return text
    | none => .error .notText
  | _ => .error .isDirectory

end FileSystem

/-! ## Actions -/

/-- Something that is done in a file system and may fail. -/
abbrev FileAction (α : Type) := ExceptT FileError (StateM FileSystem) α

namespace FileAction

/-- Stores something where nothing is stored yet. -/
def putNew (path : Path) (entry : Entry) : FileAction Unit := do
  let files ← get
  match files.findNew path with
  | .error error => throw error
  | .ok (.entry _ _) => throw .alreadyThere
  | .ok (.absent location) => set (files.put location entry)

/-- Makes a directory in an existing one. -/
def makeDirectory (path : Path) : FileAction Unit := putNew path .directory

/-- Makes a link in an existing directory. -/
def makeLink (path target : Path) : FileAction Unit := putNew path (.link target)

/-- Fails, unless a path leads to a directory. -/
def orDirectory (path : Path) (error : FileError) : FileAction Unit := do
  let files ← get
  if files.isDirectory path then return else throw error

/-- Makes a directory and those that it is in, as far as they are missing. Each path
has fewer components than the one before, so their number bounds the rounds. -/
def makeDirectoriesWithin : Nat → Path → FileAction Unit
  | 0, _ => throw .missing
  | rounds + 1, path =>
    if path.components = [] then return
    else
      tryCatch (makeDirectory path) fun error =>
        match error, path.parent? with
        | .missing, some parent => do
          makeDirectoriesWithin rounds parent
          tryCatch (makeDirectory path) (orDirectory path)
        | error, _ => orDirectory path error

/-- Makes a directory and those that it is in, as far as they are missing. -/
def makeDirectories (path : Path) : FileAction Unit :=
  makeDirectoriesWithin (path.components.length + 1) path

/-- Writes a file. A path that ends in a slash is one of a directory, if it leads into
one at all. -/
def writeBytes (path : Path) (bytes : ByteArray) : FileAction Unit := do
  let files ← get
  match path.pieces.reverse with
  | [] :: before =>
    let parent := (before.dropWhile List.isEmpty).drop 1
    match files.followWithin true FileSystem.maxLinks (parent.reverse ++ [[]]) [] with
    | .error error => throw error
    | .ok _ => throw .isDirectory
  | _ =>
    match files.find path with
    | .error error => throw error
    | .ok (.entry _ .directory) => throw .isDirectory
    | .ok (.entry location _) => set (files.put location (.file bytes))
    | .ok (.absent location) => set (files.put location (.file bytes))

/-- Writes a text to a file. -/
def write (path : Path) (text : String) : FileAction Unit := writeBytes path text.toUTF8

end FileAction

end DefineWrap
