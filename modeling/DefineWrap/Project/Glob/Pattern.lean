/-
Patterns for file names: what they are made of, and how they are read.

`?` stands for one byte and `*` for any bytes, slashes included. `**` between
slashes, or at an end, stands for any number of directories. `[...]` stands for
one of some characters, `\x7b...,...\x7d` for one of some patterns, and a backslash takes
the meaning from the next character.
-/

set_option autoImplicit false

namespace DefineWrap

/-- A part of a pattern. -/
inductive GlobPart where
  | literal (c : Char)
  /-- Any one byte. -/
  | any
  /-- Any number of bytes. -/
  | many
  /-- Any number of directories, at the beginning. -/
  | leading
  /-- Everything below a directory, at the end. -/
  | trailing
  /-- Any number of directories, between two others. -/
  | between
  /-- One of the characters in some ranges, or one that is in none of them. -/
  | oneOf (negated : Bool) (ranges : List (Char × Char))
  /-- One of some patterns. -/
  | alternatives (branches : List (List GlobPart))

/-- Why a pattern cannot be read. -/
inductive GlobError where
  | unclosedClass
  | reversedRange (first last : Char)
  | unopenedGroup
  | unclosedGroup
  /-- A backslash at the end. -/
  | danglingEscape
  deriving DecidableEq, Repr

/-- The message of an error. -/
def GlobError.message : GlobError → String
  | .unclosedClass => "unclosed character class; missing ']'"
  | .reversedRange first last =>
    "invalid range; '" ++ first.toString ++ "' > '" ++ last.toString ++ "'"
  | .unopenedGroup =>
    "unopened alternate group; missing '\x7b' (maybe escape '\x7d' with '[\x7d]'?)"
  | .unclosedGroup =>
    "unclosed alternate group; missing '\x7d' (maybe escape '\x7b' with '[\x7b]'?)"
  | .danglingEscape => "dangling '\\'"

namespace Glob

/-! ## Groups -/

/-- A group of alternatives that is being read: the branches that are complete, and
the parts of the current one. -/
structure Group where
  finished : List (List GlobPart)
  current : List GlobPart

namespace Group

/-- A group before anything is read of it. -/
def empty : Group := ⟨[], []⟩

/-- Puts a part at the end of the current branch. -/
def push (group : Group) (part : GlobPart) : Group :=
  { group with current := group.current ++ [part] }

/-- Puts a part in the place of the last one of the current branch, unless that one
stands for directories already. -/
def pushDirectories (group : Group) (part : GlobPart) : Group :=
  match group.current.getLast? with
  | some .leading => group
  | some .trailing => group
  | _ => { group with current := group.current.dropLast ++ [part] }

/-- All branches. -/
def branches (group : Group) : List (List GlobPart) := group.finished ++ [group.current]

end Group

/-- A pattern that is being read: the innermost open group and those around it. The
whole pattern counts as a group with one branch, which is not open. -/
structure Reading where
  inner : Group
  outer : List Group

namespace Reading

/-- Puts a part at the end. -/
def push (reading : Reading) (part : GlobPart) : Reading :=
  { reading with inner := reading.inner.push part }

/-- Puts a part for directories at the end, in the place of the slash before it. -/
def pushDirectories (reading : Reading) (part : GlobPart) : Reading :=
  { reading with inner := reading.inner.pushDirectories part }

/-- Whether a group is open. -/
def isInGroup (reading : Reading) : Bool := !reading.outer.isEmpty

/-- Opens a group. -/
def openGroup (reading : Reading) : Reading := ⟨.empty, reading.inner :: reading.outer⟩

/-- Closes the innermost group. -/
def closeGroup (reading : Reading) : Except GlobError Reading :=
  match reading.outer with
  | [] => .error .unopenedGroup
  | group :: outer => .ok ⟨group.push (.alternatives reading.inner.branches), outer⟩

/-- A comma: the next branch of an open group, and a character elsewhere. -/
def comma (reading : Reading) : Reading :=
  if reading.isInGroup then { reading with inner := ⟨reading.inner.branches, []⟩ }
  else reading.push (.literal ',')

end Reading

/-! ## Stars -/

/-- What has been read of a pattern at a place: the character before the place, the
text after it, and the parts. -/
abbrev Place := Option Char × List Char × Reading

/-- Reads what follows a star. Two stars stand for directories if slashes or the ends of
the pattern or of a branch surround them, and for any bytes otherwise. The slash after
them belongs to them. -/
def star (before : Option Char) (rest : List Char) (reading : Reading) : Place :=
  match rest with
  | '*' :: rest =>
    let anything : Place := (some '*', rest, (reading.push .many).push .many)
    if reading.inner.current.isEmpty then
      match rest with
      | [] => (some '*', [], reading.push .leading)
      | '/' :: rest => (some '/', rest, reading.push .leading)
      | _ => anything
    else if before ≠ some '/' ∧
        ¬ (reading.isInGroup ∧ (before = some ',' ∨ before = some '\x7b')) then anything
    else
      match rest with
      | [] => (some '*', [], reading.pushDirectories .trailing)
      | c :: more =>
        if c = '/' then (some '/', more, reading.pushDirectories .between)
        else if reading.isInGroup ∧ (c = ',' ∨ c = '\x7d') then
          (some '*', rest, reading.pushDirectories .trailing)
        else anything
  | _ => (some '*', rest, reading.push .many)

/-! ## Classes -/

/-- Ends the last range with a character. -/
def closeRange (ranges : List (Char × Char)) (c : Char) :
    Except GlobError (List (Char × Char)) :=
  match ranges.getLast? with
  | none => .ok ranges
  | some (first, _) =>
    if c < first then .error (.reversedRange first c)
    else .ok (ranges.dropLast ++ [(first, c)])

/-- Reads the characters of a class. A bracket and a dash that come first stand for
themselves, and so does a dash that comes last. `isRange` says that a dash has been
read that may belong to a range. -/
def classRanges : List Char → (isFirst isRange : Bool) → List (Char × Char) →
    Except GlobError (List (Char × Char) × List Char)
  | [], _, _, _ => .error .unclosedClass
  | c :: rest, isFirst, isRange, ranges =>
    if c = ']' ∧ ¬ isFirst then .ok (if isRange then ranges ++ [('-', '-')] else ranges, rest)
    else if c = '-' ∧ ¬ isFirst ∧ ¬ isRange then classRanges rest false true ranges
    else if isRange then
      match closeRange ranges c with
      | .error error => .error error
      | .ok ranges => classRanges rest false false ranges
    else classRanges rest false false (ranges ++ [(c, c)])

/-- Reads a class after its opening bracket. -/
def readClass (text : List Char) : Except GlobError (GlobPart × List Char) :=
  match text with
  | c :: rest =>
    if c = '!' ∨ c = '^' then (classRanges rest true false []).map fun (ranges, rest) =>
      (.oneOf true ranges, rest)
    else (classRanges text true false []).map fun (ranges, rest) => (.oneOf false ranges, rest)
  | [] => .error .unclosedClass

/-! ## Patterns -/

/-- Reads what begins with the given character. -/
def readPart (before : Option Char) (c : Char) (rest : List Char) (reading : Reading) :
    Except GlobError Place :=
  if c = '?' then .ok (some c, rest, reading.push .any)
  else if c = '*' then .ok (star before rest reading)
  else if c = '[' then
    (readClass rest).map fun (part, rest) => (some ']', rest, reading.push part)
  else if c = '\x7b' then .ok (some c, rest, reading.openGroup)
  else if c = '\x7d' then reading.closeGroup.map fun reading => (some c, rest, reading)
  else if c = ',' then .ok (some c, rest, reading.comma)
  else if c = '\\' then
    match rest with
    | [] => .error .danglingEscape
    | escaped :: rest => .ok (some escaped, rest, reading.push (.literal escaped))
  else .ok (some c, rest, reading.push (.literal c))

/-- Reads a pattern. Each part takes a character, so the characters of the first list
bound the number of rounds. -/
def readWithin : List Char → Place → Except GlobError Reading
  | _, (_, [], reading) => .ok reading
  | [], (_, _ :: _, reading) => .ok reading
  | _ :: rounds, (before, c :: rest, reading) =>
    match readPart before c rest reading with
    | .error error => .error error
    | .ok place => readWithin rounds place

/-- The parts of a pattern. -/
def parse (pattern : String) : Except GlobError (List GlobPart) :=
  let text := pattern.toList
  match readWithin text (none, text, ⟨.empty, []⟩) with
  | .error error => .error error
  | .ok reading =>
    if reading.isInGroup then .error .unclosedGroup else .ok reading.inner.current

end Glob

end DefineWrap
