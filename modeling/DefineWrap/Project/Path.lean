/-
Paths of files.

A path is a text, and it is kept as it was given: two texts that lead to the same
place are different paths. What a path means is in its components: empty pieces
between slashes do not count, and a dot counts at the very beginning only. Paths
are compared, and one is taken off the front of another, by components.
-/

set_option autoImplicit false

namespace DefineWrap

/-- A path, as it was given. -/
structure Path where
  text : String
  deriving DecidableEq, Repr

/-! ## Pieces -/

/-- A part of a path between slashes. -/
abbrev Piece := List Char

namespace Piece

/-- Whether a piece leads anywhere. -/
def isStep (piece : Piece) : Bool := piece ≠ [] && piece ≠ ['.']

/-- The pieces of a text; there is one more than there are slashes. -/
def split : List Char → List Piece
  | [] => [[]]
  | c :: rest =>
    if c = '/' then [] :: split rest
    else
      match split rest with
      | [] => [[c]]
      | piece :: pieces => (c :: piece) :: pieces

/-- The text of pieces. -/
def join (pieces : List Piece) : List Char := ['/'].intercalate pieces

theorem split_ne_nil (text : List Char) : split text ≠ [] := by
  cases text with
  | nil => simp [split]
  | cons c rest =>
    rw [split]
    split
    · simp
    · split <;> simp

/-- Splitting loses nothing. -/
theorem join_split (text : List Char) : join (split text) = text := by
  induction text with
  | nil => rfl
  | cons c rest ih =>
    rw [split]
    cases h : split rest with
    | nil => exact absurd h (split_ne_nil rest)
    | cons piece pieces =>
      rw [h] at ih
      split
      · next hc => subst hc; rw [← ih]; rfl
      · cases pieces <;> simp_all [join, List.intercalate]

end Piece

/-! ## Components -/

/-- What a step of a path means. -/
inductive Component where
  | root
  /-- A dot at the beginning. -/
  | current
  | parent
  | normal (name : String)
  deriving DecidableEq, Repr

/-- How a path begins. -/
inductive Beginning where
  | relative
  | current
  | root
  deriving DecidableEq, Repr

namespace Beginning

/-- What the beginning contributes to the components. -/
def components : Beginning → List Component
  | relative => []
  | current => [.current]
  | root => [.root]

end Beginning

namespace Piece

/-- What a piece means after the beginning of a path. -/
def component? (piece : Piece) : Option Component :=
  if piece.isStep then
    some (if piece = ['.', '.'] then .parent else .normal (String.ofList piece))
  else none

end Piece

namespace Path

/-- All pieces of a path. -/
def pieces (path : Path) : List Piece := Piece.split path.text.toList

/-- How a path begins. -/
def beginning (path : Path) : Beginning :=
  match path.pieces with
  | [] :: _ :: _ => .root
  | ['.'] :: _ => .current
  | _ => .relative

/-- The pieces after the beginning. -/
def body (path : Path) : List Piece :=
  match path.beginning with
  | .relative => path.pieces
  | _ => path.pieces.tail

/-- The components of a path. -/
def components (path : Path) : List Component :=
  path.beginning.components ++ path.body.filterMap Piece.component?

/-- Whether two paths have the same components. -/
def isSame (path other : Path) : Bool := path.components = other.components

/-- Whether a path begins at the root. -/
def isAbsolute (path : Path) : Bool := path.beginning = .root

/-! ## Making paths -/

/-- The path with the given beginning and the given pieces after it. -/
def ofPieces (beginning : Beginning) (body : List Piece) : Path :=
  match beginning with
  | .relative => ⟨String.ofList (Piece.join body)⟩
  | .current => ⟨String.ofList (Piece.join (['.'] :: body))⟩
  | .root => ⟨String.ofList ('/' :: Piece.join body)⟩

/-- A path that is meant relative to another one. An absolute path stands for itself. -/
def join (base path : Path) : Path :=
  if path.isAbsolute then path
  else
    let chars := base.text.toList
    if chars = [] ∨ chars.getLast? = some '/' then ⟨base.text ++ path.text⟩
    else ⟨base.text ++ "/" ++ path.text⟩

/-- Pieces without those at the end that lead nowhere. -/
def trimEnd (pieces : List Piece) : List Piece :=
  (pieces.reverse.dropWhile fun piece => !piece.isStep).reverse

/-- Pieces without the given number of steps, and what leads nowhere before and
between them. -/
def dropSteps : Nat → List Piece → List Piece
  | 0, pieces => pieces
  | _ + 1, [] => []
  | count + 1, piece :: rest =>
    if piece.isStep then dropSteps count rest else dropSteps (count + 1) rest

/-- The path without its first components. What is left begins and ends with a step. -/
def dropComponents (path : Path) (count : Nat) : Path :=
  if count = 0 then ofPieces path.beginning (trimEnd path.body)
  else
    let steps := count - path.beginning.components.length
    let rest := (dropSteps steps path.body).dropWhile fun piece => !piece.isStep
    ofPieces .relative (trimEnd rest)

/-- The rest of a path after another one that it begins with. -/
def stripPrefix? (path base : Path) : Option Path :=
  if base.components.isPrefixOf path.components then
    some (path.dropComponents base.components.length)
  else none

/-- The path without its last component. The root has no parent, and neither has the
empty path. -/
def parent? (path : Path) : Option Path :=
  match (trimEnd path.body).reverse with
  | _ :: before => some (ofPieces path.beginning (trimEnd before.reverse))
  | [] =>
    match path.beginning with
    | .current => some ⟨""⟩
    | _ => none

/-- The name of the file or directory that a path leads to, if it ends in a name. -/
def fileName? (path : Path) : Option String :=
  match path.components.getLast? with
  | some (.normal name) => some name
  | _ => none

end Path

end DefineWrap
