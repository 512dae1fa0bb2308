/-
The steps of a path, and the path of the directory above.

Of the pieces of a path only some lead anywhere. A path without its last component has the same
steps but the last one (`Path.steps_of_parent?`), although its text may differ in the pieces that
lead nowhere.
-/
import DefineWrap.Project.Path

set_option autoImplicit false

namespace DefineWrap

/-! ## Steps -/

namespace Piece

/-- Whether a piece is the name of something in a directory, and neither empty nor one of the two
kinds of dots. -/
def IsName (piece : Piece) : Prop := piece.isStep = true ∧ piece ≠ ['.', '.']

/-- The pieces that lead anywhere. -/
def steps (pieces : List Piece) : List Piece := pieces.filter isStep

@[simp] theorem steps_append (pieces more : List Piece) :
    steps (pieces ++ more) = steps pieces ++ steps more :=
  List.filter_append pieces more

theorem steps_cons {piece : Piece} (rest : List Piece) (h : piece.isStep = true) :
    steps (piece :: rest) = piece :: steps rest :=
  List.filter_cons_of_pos h

theorem steps_cons_of_not_isStep {piece : Piece} (rest : List Piece) (h : ¬ piece.isStep = true) :
    steps (piece :: rest) = steps rest :=
  List.filter_cons_of_neg h

@[simp] theorem steps_steps (pieces : List Piece) : steps (steps pieces) = steps pieces := by
  simp [steps, List.filter_filter]

/-- A piece leads nowhere, or up, or it is a name. Every induction along a way splits its pieces
so. -/
theorem nowhere_or_up_or_isName (piece : Piece) :
    ¬ piece.isStep = true ∨ piece = ['.', '.'] ∨ piece.IsName := by
  by_cases hstep : piece.isStep = true
  · by_cases hup : piece = ['.', '.']
    · exact .inr (.inl hup)
    · exact .inr (.inr ⟨hstep, hup⟩)
  · exact .inl hstep

/-! ## Splitting what was joined -/

/-- The pieces of a text have no slash in them. -/
theorem notMem_split {text : List Char} {piece : Piece} (h : piece ∈ split text) : '/' ∉ piece := by
  induction text generalizing piece with
  | nil =>
    rw [List.mem_singleton.1 h]
    exact List.not_mem_nil
  | cons c rest ih =>
    rw [split] at h
    by_cases hslash : c = '/'
    · rw [if_pos hslash] at h
      rcases List.mem_cons.1 h with rfl | h
      · exact List.not_mem_nil
      · exact ih h
    · rw [if_neg hslash] at h
      cases hsplit : split rest with
      | nil => exact absurd hsplit (split_ne_nil rest)
      | cons first others =>
        rw [hsplit] at h ih
        rcases List.mem_cons.1 h with rfl | h
        · rw [List.mem_cons, not_or]
          exact ⟨Ne.symm hslash, ih List.mem_cons_self⟩
        · exact ih (List.mem_cons_of_mem _ h)

theorem split_append {piece : Piece} (rest : List Char) (h : '/' ∉ piece) :
    split (piece ++ '/' :: rest) = piece :: split rest := by
  induction piece with
  | nil => rw [List.nil_append, split, if_pos rfl]
  | cons c piece ih =>
    rw [List.mem_cons, not_or] at h
    rw [List.cons_append, split, if_neg (Ne.symm h.1), ih h.2]

theorem split_of_notMem {piece : Piece} (h : '/' ∉ piece) : split piece = [piece] := by
  induction piece with
  | nil => rfl
  | cons c piece ih =>
    rw [List.mem_cons, not_or] at h
    rw [split, if_neg (Ne.symm h.1), ih h.2]

/-- Pieces without slashes come back from the text that they are joined to. There has to be a piece,
as an empty text has one, too. -/
theorem split_join {pieces : List Piece} (hne : pieces ≠ []) (h : ∀ piece ∈ pieces, '/' ∉ piece) :
    split (join pieces) = pieces := by
  induction pieces with
  | nil => exact absurd rfl hne
  | cons piece rest ih =>
    rw [List.forall_mem_cons] at h
    cases rest with
    | nil =>
      have hjoin : join [piece] = piece := by simp [join, List.intercalate]
      rw [hjoin, split_of_notMem h.1]
    | cons next rest =>
      have hjoin : join (piece :: next :: rest) = piece ++ '/' :: join (next :: rest) := by
        simp [join, List.intercalate]
      rw [hjoin, split_append _ h.1, ih (List.cons_ne_nil _ _) h.2]

/-- No pieces make an empty text, which has one piece that leads nowhere. So as far as steps go,
`split_join` needs no condition. -/
theorem steps_split_join {pieces : List Piece} (h : ∀ piece ∈ pieces, '/' ∉ piece) :
    steps (split (join pieces)) = steps pieces := by
  cases pieces with
  | nil => rfl
  | cons piece rest => rw [split_join (List.cons_ne_nil _ _) h]

end Piece

/-! ## Paths -/

namespace Path

/-- The pieces of a path that lead anywhere. -/
def steps (path : Path) : List Piece := Piece.steps path.pieces

/-- A path that does not begin relative begins with a piece that leads nowhere: the empty one before
a slash, or a dot. -/
theorem pieces_eq_cons {path : Path} (h : path.beginning ≠ .relative) :
    ∃ first, ¬ Piece.isStep first = true ∧ path.pieces = first :: path.body := by
  have hbody : path.body = path.pieces.tail := by
    rw [body]
    cases hbeginning : path.beginning with
    | relative => exact absurd hbeginning h
    | current => rfl
    | root => rfl
  rw [hbody]
  unfold beginning at h
  split at h
  next heq => exact ⟨[], by decide, by rw [heq, List.tail_cons]⟩
  next heq => exact ⟨['.'], by decide, by rw [heq, List.tail_cons]⟩
  · exact absurd rfl h

/-- The steps of a path are those of its body, as the beginning is a piece that leads nowhere. -/
theorem steps_body (path : Path) : Piece.steps path.body = path.steps := by
  by_cases h : path.beginning = .relative
  · rw [steps, body, h]
  · obtain ⟨first, hfirst, heq⟩ := pieces_eq_cons h
    rw [steps, heq, Piece.steps_cons_of_not_isStep _ hfirst]

theorem notMem_of_mem_body {path : Path} {piece : Piece} (h : piece ∈ path.body) :
    '/' ∉ piece := by
  have hpieces : piece ∈ path.pieces := by
    by_cases hbeginning : path.beginning = .relative
    · rwa [body, hbeginning] at h
    · obtain ⟨first, -, heq⟩ := pieces_eq_cons hbeginning
      rw [heq]
      exact List.mem_cons_of_mem _ h
  exact Piece.notMem_split hpieces

theorem exists_trimEnd_append (pieces : List Piece) :
    ∃ blanks, pieces = trimEnd pieces ++ blanks ∧ Piece.steps blanks = [] := by
  refine ⟨(pieces.reverse.takeWhile fun piece => !piece.isStep).reverse, ?_, ?_⟩
  · rw [trimEnd, ← List.reverse_append, List.takeWhile_append_dropWhile, List.reverse_reverse]
  · rw [Piece.steps, List.filter_reverse, List.reverse_eq_nil_iff, List.filter_eq_nil_iff]
    intro piece hpiece
    simpa using List.all_eq_true.1 List.all_takeWhile piece hpiece

/-- Pieces lead to the same when those at the end that lead nowhere are taken off. -/
theorem steps_trimEnd (pieces : List Piece) :
    Piece.steps (trimEnd pieces) = Piece.steps pieces := by
  obtain ⟨blanks, heq, hblanks⟩ := exists_trimEnd_append pieces
  calc Piece.steps (trimEnd pieces)
      = Piece.steps (trimEnd pieces ++ blanks) := by
        rw [Piece.steps_append, hblanks, List.append_nil]
    _ = Piece.steps pieces := by rw [← heq]

/-- A path that is made of pieces has the steps of the pieces, with whatever beginning. -/
theorem steps_ofPieces (beginning : Beginning) {body : List Piece}
    (h : ∀ piece ∈ body, '/' ∉ piece) : (ofPieces beginning body).steps = Piece.steps body := by
  cases beginning with
  | relative =>
    rw [ofPieces, steps, pieces, String.toList_ofList]
    exact Piece.steps_split_join h
  | current =>
    have hall : ∀ piece ∈ ['.'] :: body, '/' ∉ piece := List.forall_mem_cons.2 ⟨by decide, h⟩
    rw [ofPieces, steps, pieces, String.toList_ofList, Piece.steps_split_join hall,
      Piece.steps_cons_of_not_isStep _ (by decide)]
  | root =>
    rw [ofPieces, steps, pieces, String.toList_ofList, Piece.split, if_pos rfl,
      Piece.steps_cons_of_not_isStep _ (by decide)]
    exact Piece.steps_split_join h

/-- **The steps of the parent.** It has all steps but the last one, or there are none at all. The
last case is that of a path like `./.`, which has a parent by its text. -/
theorem steps_of_parent? {path parent : Path} (h : path.parent? = some parent) :
    ∃ last, path.steps = parent.steps ++ last ∧ (last = [] → parent.steps = []) := by
  unfold parent? at h
  split at h
  next last before heq =>
    cases h
    have hbody : trimEnd path.body = before.reverse ++ [last] := by
      rw [← List.reverse_reverse (trimEnd path.body), heq, List.reverse_cons]
    have hmem : ∀ piece ∈ trimEnd before.reverse, '/' ∉ piece := by
      intro piece hpiece
      refine notMem_of_mem_body (show piece ∈ path.body from ?_)
      obtain ⟨blanks, hblanks, -⟩ := exists_trimEnd_append path.body
      obtain ⟨others, hothers, -⟩ := exists_trimEnd_append before.reverse
      rw [hblanks, hbody, hothers]
      simp [hpiece]
    -- What is cut off at the ends are no steps, so the path has the last piece more than its
    -- parent.
    have hsteps : path.steps = Piece.steps before.reverse ++ Piece.steps [last] := by
      rw [← steps_body, ← steps_trimEnd, hbody, Piece.steps_append]
    refine ⟨Piece.steps [last], ?_, ?_⟩
    · rw [hsteps, steps_ofPieces _ hmem, steps_trimEnd]
    · intro hnone
      have hstep : last.isStep = true := by
        have hfirst := List.head?_dropWhile_not (fun piece => !Piece.isStep piece) path.body.reverse
        rw [trimEnd, List.reverse_reverse] at heq
        rw [heq] at hfirst
        simpa using hfirst
      rw [Piece.steps_cons _ hstep] at hnone
      cases hnone
  next heq =>
    split at h
    · cases h
      exact ⟨[], by
        rw [← steps_body, ← steps_trimEnd, List.reverse_eq_nil_iff.1 heq]
        rfl, fun _ => rfl⟩
    · cases h

end Path

end DefineWrap
