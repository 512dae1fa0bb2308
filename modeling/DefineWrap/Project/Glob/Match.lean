/-
Which paths a pattern matches.

Patterns are matched against the bytes of a path. A part of a pattern takes some
bytes off the front of a text, and often there are several ways to do it, so it is
taken for the list of all the rests that it can leave.

The parent directory `..` is no file name, so a pattern that is looked up by the
file name does not match a path that ends in it.
-/
import DefineWrap.Project.Glob.Bytes
import DefineWrap.Project.Glob.Lookup

set_option autoImplicit false

namespace DefineWrap

namespace Glob

/-! ## Rests -/

/-- All ends of a text, itself included. -/
def ends : List UInt8 → List (List UInt8)
  | [] => [[]]
  | byte :: rest => (byte :: rest) :: ends rest

/-- The byte of a slash. -/
def slash : UInt8 := 47

/-- The ends of a text that begin after a slash. -/
def endsAfterSlash : List UInt8 → List (List UInt8)
  | [] => []
  | byte :: rest =>
    if byte = slash then rest :: endsAfterSlash rest else endsAfterSlash rest

/-- What is left of a text after the given bytes. -/
def afterBytes (bytes text : List UInt8) : List (List UInt8) :=
  if bytes.isPrefixOf text then [text.drop bytes.length] else []

/-- One rest of each length. All rests are ends of one text, so those of one length are
the same. -/
def distinct (rests : List (List UInt8)) : List (List UInt8) :=
  rests.foldl
    (fun kept rest => if kept.any (·.length = rest.length) then kept else kept ++ [rest]) []

/-! ## Parts -/

mutual

/-- Whether a part stands for nothing at all. -/
def isEmptyPart : GlobPart → Bool
  | .alternatives branches => isEmptyBranches branches
  | _ => false

/-- Whether all parts stand for nothing. -/
def isEmptyPattern : List GlobPart → Bool
  | [] => true
  | part :: parts => isEmptyPart part && isEmptyPattern parts

/-- Whether all branches stand for nothing. -/
def isEmptyBranches : List (List GlobPart) → Bool
  | [] => true
  | branch :: branches => isEmptyPattern branch && isEmptyBranches branches

end

mutual

/-- What a part can leave of a text. -/
def restsOfPart : GlobPart → List UInt8 → List (List UInt8)
  | .literal c, text => afterBytes (charBytes c) text
  | .any, text => text.tail?.toList
  | .many, text => ends text
  | .leading, text => text :: endsAfterSlash text
  | .trailing, text =>
    match text with
    | [] => []
    | byte :: rest => if byte = slash then ends rest else []
  | .between, text =>
    match text with
    | [] => []
    | byte :: rest => if byte = slash then rest :: endsAfterSlash rest else []
  | .oneOf negated ranges, text =>
    match text with
    | [] => []
    | byte :: rest => if isInClass negated ranges byte then [rest] else []
  | .alternatives branches, text =>
    if isEmptyBranches branches then [text] else restsOfBranches branches text

/-- What a sequence of parts can leave of some texts. -/
def restsOfPattern : List GlobPart → List (List UInt8) → List (List UInt8)
  | [], texts => texts
  | part :: parts, texts => restsOfPattern parts (distinct (texts.flatMap (restsOfPart part)))

/-- What the branches of a group can leave of a text. A branch that stands for nothing
does not count if there are others. -/
def restsOfBranches : List (List GlobPart) → List UInt8 → List (List UInt8)
  | [], _ => []
  | branch :: branches, text =>
    if isEmptyPattern branch then restsOfBranches branches text
    else restsOfPattern branch [text] ++ restsOfBranches branches text

end

/-! ## Patterns -/

/-- Whether the last name of a path is that of the parent directory. -/
def endsInParent (text : List UInt8) : Bool :=
  text.reverse.takeWhile (· ≠ slash) = charBytes '.' ++ charBytes '.'

/-- Whether a pattern matches a path. Any path is below the beginning, so a pattern that
only stands for directories matches everything. -/
def isMatch (parts : List GlobPart) (path : String) : Bool :=
  match parts with
  | [.leading] => true
  | parts =>
    let text := textBytes path
    !((lookup parts).needsFileName && endsInParent text) &&
      (restsOfPattern parts [text]).any List.isEmpty

end Glob

end DefineWrap
