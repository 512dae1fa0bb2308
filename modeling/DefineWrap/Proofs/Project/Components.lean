/-
The components of paths that are joined and taken apart.

A path that is joined to another one has the components of both, one after the other
(`Path.components_join`), and what is left of a path after another one has the components that
the other one lacks (`Path.components_of_stripPrefix?`). Both hold for every spelling: slashes and
dots between the steps may come and go, but they are no components.

A name that stands alone is one component (`Path.components_of_isName`).
-/
import DefineWrap.Proofs.Project.Paths

set_option autoImplicit false

namespace DefineWrap

/-! ## Pieces -/

namespace Piece

theorem component?_of_not_isStep {piece : Piece} (h : ¬ piece.isStep = true) :
    piece.component? = none := by
  rw [component?, if_neg h]

theorem component?_of_isName {piece : Piece} (h : piece.IsName) :
    piece.component? = some (.normal (String.ofList piece)) := by
  rw [component?, if_pos h.1, if_neg h.2]

theorem filterMap_component?_steps (pieces : List Piece) :
    (steps pieces).filterMap component? = pieces.filterMap component? := by
  induction pieces with
  | nil => rfl
  | cons piece rest ih =>
    by_cases hstep : piece.isStep = true
    · rw [steps_cons rest hstep, List.filterMap_cons, List.filterMap_cons, ih]
    · rw [steps_cons_of_not_isStep rest hstep, ih, List.filterMap_cons,
        component?_of_not_isStep hstep]

/-- The components after some steps are those of the other steps, because every step has exactly one
component. -/
theorem filterMap_component?_drop (count : Nat) (pieces : List Piece) :
    ((steps pieces).drop count).filterMap component? =
      ((steps pieces).filterMap component?).drop count := by
  induction pieces generalizing count with
  | nil => simp [steps]
  | cons piece rest ih =>
    by_cases hstep : piece.isStep = true
    · have hsome : piece.component?.isSome = true := by rw [component?, if_pos hstep, Option.isSome]
      obtain ⟨component, hcomponent⟩ := Option.isSome_iff_exists.1 hsome
      rw [steps_cons rest hstep, List.filterMap_cons, hcomponent]
      cases count with
      | zero => rw [List.drop_zero, List.drop_zero, List.filterMap_cons, hcomponent]
      | succ count => rw [List.drop_succ_cons, List.drop_succ_cons, ih]
    · rw [steps_cons_of_not_isStep rest hstep, ih]

/-- A slash ends a piece, whatever stands before and after it. Joining puts one slash between two
texts, and this says what becomes of their pieces. -/
theorem split_append_slash (text more : List Char) :
    split (text ++ '/' :: more) = split text ++ split more := by
  induction text with
  | nil =>
    rw [List.nil_append, split, split, if_pos rfl]
    rfl
  | cons c rest ih =>
    rw [List.cons_append, split, split]
    by_cases hslash : c = '/'
    · rw [if_pos hslash, if_pos hslash, ih, List.cons_append]
    · rw [if_neg hslash, if_neg hslash, ih]
      cases hsplit : split rest with
      | nil => exact absurd hsplit (split_ne_nil rest)
      | cons first others => rfl

end Piece

/-- The piece that a component is read from, if that leads anywhere. It is an inverse of
`Piece.component?` on steps, with which they are read off the components. -/
def Component.piece? : Component → Option Piece
  | .root => none
  | .current => none
  | .parent => some ['.', '.']
  | .normal name => some name.toList

namespace Path

variable {path base : Path}

/-! ## Components -/

theorem components_eq (path : Path) :
    path.components = path.beginning.components ++ path.steps.filterMap Piece.component? := by
  rw [components, ← steps_body, Piece.filterMap_component?_steps]

/-- The steps can be read off the components. So two paths with the same components lead to the
same, however they are spelled. -/
theorem steps_eq (path : Path) : path.steps = path.components.filterMap Component.piece? := by
  have hsteps : ∀ pieces : List Piece,
      Piece.steps pieces = (pieces.filterMap Piece.component?).filterMap Component.piece? := by
    intro pieces
    induction pieces with
    | nil => rfl
    | cons piece rest ih =>
      rcases piece.nowhere_or_up_or_isName with hskip | rfl | hname
      · rw [Piece.steps_cons_of_not_isStep rest hskip, List.filterMap_cons,
          Piece.component?_of_not_isStep hskip, ih]
      · rw [Piece.steps_cons rest (by decide), ih]
        rfl
      · rw [Piece.steps_cons rest hname.1, List.filterMap_cons, Piece.component?_of_isName hname,
          List.filterMap_cons, ih, Component.piece?, String.toList_ofList]
  have hbeginning : path.beginning.components.filterMap Component.piece? = [] := by
    cases path.beginning <;> rfl
  rw [components_eq, List.filterMap_append, hbeginning, List.nil_append, ← hsteps, steps,
    Piece.steps_steps]

theorem not_isAbsolute_of_beginning (h : path.beginning = .relative) :
    ¬ path.isAbsolute = true := by
  rw [isAbsolute, h]
  decide

theorem pieces_ne_nil (path : Path) : path.pieces ≠ [] := Piece.split_ne_nil _

/-! ## Joining -/

/-- The pieces of a path are joined to those of another one, apart from an empty piece after a slash
at its end. Whether there is a slash at the end decides if one is put in, so both cases are in the
statement. -/
theorem pieces_join (habsolute : ¬ path.isAbsolute = true) (hbase : base.text.toList ≠ []) :
    ∃ front blanks, base.pieces = front ++ blanks ∧ (blanks = [] ∨ blanks = [[]]) ∧
      front ≠ [] ∧ (base.join path).pieces = front ++ path.pieces := by
  rw [join, if_neg habsolute]
  dsimp only
  by_cases hslash : base.text.toList.getLast? = some '/'
  · rw [if_pos (.inr hslash)]
    obtain ⟨front, hfront⟩ := List.getLast?_eq_some_iff.1 hslash
    refine ⟨Piece.split front, [[]], ?_, .inr rfl, Piece.split_ne_nil _, ?_⟩
    · rw [pieces, hfront, Piece.split_append_slash]
      rfl
    · rw [pieces, String.toList_append, hfront, List.append_assoc, List.singleton_append,
        Piece.split_append_slash]
      rfl
  · rw [if_neg (not_or.2 ⟨hbase, hslash⟩)]
    refine ⟨base.pieces, [], (List.append_nil _).symm, .inl rfl, base.pieces_ne_nil, ?_⟩
    have htext : (base.text ++ "/" ++ path.text).toList =
        base.text.toList ++ '/' :: path.text.toList := by
      rw [String.toList_append, String.toList_append, List.append_assoc]
      rfl
    rw [pieces, htext, Piece.split_append_slash]
    rfl

/-- A path that is joined to one without text is left as it is. -/
theorem join_of_empty (habsolute : ¬ path.isAbsolute = true) (hbase : base.text.toList = []) :
    base.join path = path := by
  have htext : base.text = "" := String.toList_inj.1 (hbase.trans rfl)
  rw [join, if_neg habsolute, if_pos (.inl hbase), htext, String.empty_append]

/-- The steps of both, one after the other: what comes in between is an empty piece at most. -/
theorem steps_join (habsolute : ¬ path.isAbsolute = true) :
    (base.join path).steps = base.steps ++ path.steps := by
  by_cases hbase : base.text.toList = []
  · have hnone : base.steps = [] := by
      rw [steps, pieces, hbase]
      rfl
    rw [join_of_empty habsolute hbase, hnone, List.nil_append]
  · obtain ⟨front, blanks, hpieces, hblanks, -, hjoin⟩ := pieces_join habsolute hbase
    have hnone : Piece.steps blanks = [] := by
      rcases hblanks with rfl | rfl <;> rfl
    rw [steps, steps, steps, hjoin, hpieces, Piece.steps_append, Piece.steps_append, hnone,
      List.append_nil]

/-- A path begins as the one that it is joined to, unless that has no text. -/
theorem beginning_join (habsolute : ¬ path.isAbsolute = true) (hbase : base.text.toList ≠ []) :
    (base.join path).beginning = base.beginning := by
  obtain ⟨front, blanks, hpieces, hblanks, hfront, hjoin⟩ := pieces_join habsolute hbase
  obtain ⟨first, others, rfl⟩ := List.exists_cons_of_ne_nil hfront
  obtain ⟨next, rest, hnext⟩ := List.exists_cons_of_ne_nil path.pieces_ne_nil
  -- Where there is only one piece, it is empty only if a slash comes after it.
  have hmore : first = [] → others ++ blanks ≠ [] := by
    rintro rfl hnone
    rw [List.cons_append, hnone] at hpieces
    have htext := Piece.join_split base.text.toList
    rw [← pieces, hpieces] at htext
    exact hbase htext.symm
  rw [beginning, beginning, hjoin, hpieces, List.cons_append, List.cons_append, hnext]
  by_cases hempty : first = []
  · obtain ⟨piece, rest', hrest'⟩ := List.exists_cons_of_ne_nil (hmore hempty)
    rw [hempty, hrest']
    cases others <;> rfl
  · by_cases hdot : first = ['.']
    · rw [hdot]
      rfl
    · split <;> split <;> simp_all

/-- **The components of both**, one after the other. The second path must not begin with a slash, as
it would then be taken for itself, nor with a dot that would stand in the middle and be no
component. -/
theorem components_join (h : path.beginning = .relative) :
    (base.join path).components = base.components ++ path.components := by
  have habsolute := not_isAbsolute_of_beginning h
  have hpath : path.components = path.steps.filterMap Piece.component? := by
    rw [components_eq, h]
    rfl
  by_cases hbase : base.text.toList = []
  · have hnone : base.components = [] := by
      rw [components, body, beginning, pieces, hbase]
      rfl
    rw [join_of_empty habsolute hbase, hnone, List.nil_append]
  · rw [components_eq, beginning_join habsolute hbase, steps_join habsolute,
      List.filterMap_append, ← List.append_assoc, ← components_eq, ← hpath]

/-! ## Pieces that are put together -/

section OfPieces

variable {body : List Piece}

/-- Pieces are no path that begins otherwise than wanted, if a step comes first. An empty piece at
the front of a relative path would read as a slash. -/
theorem beginning_ofPieces {beginning : Beginning} (hslash : ∀ piece ∈ body, '/' ∉ piece)
    (hfirst : beginning = .relative → ∀ piece ∈ body.head?, piece.isStep = true) :
    (ofPieces beginning body).beginning = beginning := by
  -- Only a relative path could begin otherwise: by an empty piece or a dot at its front, and these
  -- are no steps.
  cases beginning with
  | relative =>
    cases body with
    | nil => rfl
    | cons first rest =>
      have hstep : first.isStep = true := hfirst rfl first rfl
      have hpieces : (ofPieces .relative (first :: rest)).pieces = first :: rest := by
        rw [ofPieces, pieces, String.toList_ofList,
          Piece.split_join (List.cons_ne_nil _ _) hslash]
      rw [Path.beginning, hpieces]
      split
      next heq =>
        rw [(List.cons.inj heq).1] at hstep
        cases hstep
      next heq =>
        rw [(List.cons.inj heq).1] at hstep
        cases hstep
      · rfl
  | current =>
    have hall : ∀ piece ∈ ['.'] :: body, '/' ∉ piece := List.forall_mem_cons.2 ⟨by decide, hslash⟩
    rw [ofPieces, Path.beginning, pieces, String.toList_ofList,
      Piece.split_join (List.cons_ne_nil _ _) hall]
    rfl
  | root =>
    obtain ⟨first, rest, hsplit⟩ := List.exists_cons_of_ne_nil
      (Piece.split_ne_nil (Piece.join body))
    rw [ofPieces, Path.beginning, pieces, String.toList_ofList, Piece.split, if_pos rfl, hsplit]

/-- Pieces that are put together to a path have their own components and those of the beginning. -/
theorem components_ofPieces {beginning : Beginning} (hslash : ∀ piece ∈ body, '/' ∉ piece)
    (hfirst : beginning = .relative → ∀ piece ∈ body.head?, piece.isStep = true) :
    (ofPieces beginning body).components =
      beginning.components ++ body.filterMap Piece.component? := by
  rw [components_eq, beginning_ofPieces hslash hfirst, steps_ofPieces beginning hslash,
    Piece.filterMap_component?_steps]

end OfPieces

/-- A name that stands alone is one piece, as there is no slash in it. -/
theorem pieces_of_notMem {name : String} (hslash : '/' ∉ name.toList) :
    (⟨name⟩ : Path).pieces = [name.toList] :=
  Piece.split_of_notMem hslash

/-- A name that stands alone is a relative path, with no dot at its front. -/
theorem beginning_of_isName {name : String} (hname : Piece.IsName name.toList)
    (hslash : '/' ∉ name.toList) : (⟨name⟩ : Path).beginning = .relative := by
  rw [beginning, pieces_of_notMem hslash]
  split
  next heq => cases (List.cons.inj heq).2
  next heq =>
    have hstep := hname.1
    rw [(List.cons.inj heq).1] at hstep
    cases hstep
  · rfl

theorem components_of_isName {name : String} (hname : Piece.IsName name.toList)
    (hslash : '/' ∉ name.toList) : (⟨name⟩ : Path).components = [.normal name] := by
  rw [components, beginning_of_isName hname hslash, body, beginning_of_isName hname hslash]
  dsimp only
  rw [pieces_of_notMem hslash, List.filterMap_cons, Piece.component?_of_isName hname,
    String.ofList_toList]
  rfl

/-- The names among the components are names of something in a directory: no dots, not empty, and
without a slash. -/
theorem isName_of_mem_components {name : String} (h : .normal name ∈ path.components) :
    Piece.IsName name.toList ∧ '/' ∉ name.toList := by
  rw [components, List.mem_append, List.mem_filterMap] at h
  rcases h with h | ⟨piece, hpiece, h⟩
  · cases hbeginning : path.beginning <;> rw [hbeginning] at h <;> simp [Beginning.components] at h
  · rw [Piece.component?] at h
    split at h
    next hstep =>
      split at h
      · cases h
      next hup =>
        rw [← Component.normal.inj (Option.some.inj h), String.toList_ofList]
        exact ⟨⟨hstep, hup⟩, notMem_of_mem_body hpiece⟩
    · cases h

/-! ## Taking off what comes first -/

theorem steps_dropSteps (count : Nat) (pieces : List Piece) :
    Piece.steps (dropSteps count pieces) = (Piece.steps pieces).drop count := by
  induction pieces generalizing count with
  | nil => cases count <;> simp [dropSteps, Piece.steps]
  | cons piece rest ih =>
    cases count with
    | zero => rw [dropSteps, List.drop_zero]
    | succ count =>
      rw [dropSteps]
      by_cases hstep : piece.isStep = true
      · rw [if_pos hstep, ih, Piece.steps_cons rest hstep, List.drop_succ_cons]
      · rw [if_neg hstep, ih, Piece.steps_cons_of_not_isStep rest hstep]

theorem dropSteps_subset (count : Nat) (pieces : List Piece) :
    dropSteps count pieces ⊆ pieces := by
  induction pieces generalizing count with
  | nil => cases count <;> simp [dropSteps]
  | cons piece rest ih =>
    cases count with
    | zero => rw [dropSteps]; exact List.Subset.refl _
    | succ count =>
      rw [dropSteps]
      split <;> exact List.Subset.trans (ih _) (List.subset_cons_self _ _)

theorem trimEnd_subset (pieces : List Piece) : trimEnd pieces ⊆ pieces := by
  obtain ⟨blanks, heq, -⟩ := exists_trimEnd_append pieces
  intro piece hpiece
  rw [heq]
  exact List.mem_append_left _ hpiece

theorem steps_dropWhile (pieces : List Piece) :
    Piece.steps (pieces.dropWhile fun piece => !piece.isStep) = Piece.steps pieces := by
  induction pieces with
  | nil => rfl
  | cons piece rest ih =>
    by_cases hstep : piece.isStep = true
    · rw [List.dropWhile_cons_of_neg (by simp [hstep])]
    · rw [List.dropWhile_cons_of_pos (by simp [hstep]), ih,
        Piece.steps_cons_of_not_isStep rest hstep]

/-- Pieces without those at the end begin as they did, or there are none. -/
theorem head?_trimEnd {pieces : List Piece} {piece : Piece} (h : piece ∈ (trimEnd pieces).head?) :
    piece ∈ pieces.head? := by
  obtain ⟨blanks, heq, -⟩ := exists_trimEnd_append pieces
  cases htrim : trimEnd pieces with
  | nil =>
    rw [htrim] at h
    cases h
  | cons first rest =>
    rw [htrim] at h
    rw [heq, htrim]
    exact h

/-- A relative path that has steps begins with one. A dot at the front would be a beginning of its
own. -/
theorem isStep_of_relative (h : path.beginning = .relative) {piece : Piece}
    (hpiece : piece ∈ (trimEnd path.pieces).head?) : piece.isStep = true := by
  have hfirst := head?_trimEnd hpiece
  obtain ⟨first, rest, hpieces⟩ := List.exists_cons_of_ne_nil path.pieces_ne_nil
  rw [hpieces] at hfirst hpiece
  cases hfirst
  -- It is neither empty nor a dot, as the path would begin at the root or here.
  have hempty : piece ≠ [] := by
    rintro rfl
    cases rest with
    | nil => cases hpiece
    | cons next rest =>
      rw [beginning, hpieces] at h
      cases h
  have hdot : piece ≠ ['.'] := by
    rintro rfl
    rw [beginning, hpieces] at h
    cases h
  rw [Piece.isStep, Bool.and_eq_true, decide_eq_true_eq, decide_eq_true_eq]
  exact ⟨hempty, hdot⟩

/-- What is left after some steps are pieces of the path, and so there is no slash in them. -/
theorem notMem_of_mem_rest {count : Nat} {piece : Piece}
    (h : piece ∈ trimEnd ((dropSteps count path.body).dropWhile fun piece => !piece.isStep)) :
    '/' ∉ piece :=
  notMem_of_mem_body (dropSteps_subset count _
    ((List.dropWhile_sublist _).subset (trimEnd_subset _ h)))

/-- What is left after some components begins with a step, and therefore is a relative path.
Otherwise joining it to another one would drop that one. -/
theorem beginning_dropComponents {count : Nat} (h : count ≠ 0) :
    (path.dropComponents count).beginning = .relative := by
  rw [dropComponents, if_neg h]
  refine beginning_ofPieces (fun piece => notMem_of_mem_rest) fun _ piece hpiece => ?_
  have hhead := List.head?_dropWhile_not (fun piece => !Piece.isStep piece)
    (dropSteps (count - path.beginning.components.length) path.body)
  rw [Option.mem_def.1 (head?_trimEnd hpiece)] at hhead
  simpa using hhead

/-- **What is left** after some components are the other ones. The text of what is left is made anew
from pieces, so this has to be read back from them. -/
theorem components_dropComponents (path : Path) (count : Nat) :
    (path.dropComponents count).components = path.components.drop count := by
  by_cases hcount : count = 0
  · rw [dropComponents, if_pos hcount, hcount, List.drop_zero, components_ofPieces,
      ← Piece.filterMap_component?_steps, steps_trimEnd, Piece.filterMap_component?_steps,
      components]
    · exact fun piece hpiece => notMem_of_mem_body (trimEnd_subset _ hpiece)
    · intro hrelative piece hpiece
      rw [body, hrelative] at hpiece
      exact isStep_of_relative hrelative hpiece
  · have hle : path.beginning.components.length ≤ count := by
      have hone : path.beginning.components.length ≤ 1 := by
        cases path.beginning <;> decide
      omega
    have hsteps : (path.dropComponents count).steps =
        path.steps.drop (count - path.beginning.components.length) := by
      rw [dropComponents, if_neg hcount, steps_ofPieces _ fun piece => notMem_of_mem_rest,
        steps_trimEnd, steps_dropWhile, steps_dropSteps, steps_body]
    rw [components_eq, beginning_dropComponents hcount, hsteps, components_eq, List.drop_append,
      List.drop_eq_nil_of_le hle, steps, Piece.filterMap_component?_drop]
    rfl

/-- What is left of a path after another one has the components that the other one lacks. -/
theorem components_of_stripPrefix? {rest : Path} (h : path.stripPrefix? base = some rest) :
    path.components = base.components ++ rest.components := by
  rw [stripPrefix?] at h
  split at h
  next hprefix =>
    obtain ⟨more, hmore⟩ := List.isPrefixOf_iff_prefix.1 hprefix
    rw [← Option.some.inj h, components_dropComponents, ← hmore, List.drop_left]
  · cases h

/-- After a path that is not empty, what is left begins with a step. -/
theorem beginning_of_stripPrefix? {rest : Path} (h : path.stripPrefix? base = some rest)
    (hbase : base.components ≠ []) : rest.beginning = .relative := by
  rw [stripPrefix?] at h
  split at h
  · rw [← Option.some.inj h]
    exact beginning_dropComponents (by rwa [ne_eq, List.length_eq_zero_iff])
  · cases h

/-- A path with the components of another one and more begins with it, in whatever way the two are
spelled. -/
theorem exists_stripPrefix? {more : List Component}
    (h : path.components = base.components ++ more) :
    ∃ rest, path.stripPrefix? base = some rest ∧ rest.components = more := by
  refine ⟨path.dropComponents base.components.length, ?_, ?_⟩
  · rw [stripPrefix?, if_pos]
    rw [List.isPrefixOf_iff_prefix, h]
    exact List.prefix_append _ _
  · rw [components_dropComponents, h, List.drop_left]

end Path

end DefineWrap
