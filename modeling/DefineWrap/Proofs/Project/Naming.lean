/-
What the names that are made of a path tell apart.

Two files below the root directory are written to different files
(`ModuleFile.components_outputPath`), as their names below the root directory come after the output
directory unchanged. What a module is called is these names, too, but in one text and without the
ending; the names can be read off that text (`ModuleFile.names_eq_split`), as there are no slashes
in them. So two modules that are called the same are in one directory, and the names of their files
differ in their endings only.
-/
import DefineWrap.Project.ModuleFile
import DefineWrap.Proofs.Project.Components

set_option autoImplicit false

namespace DefineWrap

/-- A text without slashes goes to the last piece of the text before it. An ending is such a text,
and so it stays with one name. -/
theorem Piece.exists_split_append (text : List Char) {ending : List Char} (h : '/' ∉ ending) :
    ∃ pieces last, split text = pieces ++ [last] ∧
      split (text ++ ending) = pieces ++ [last ++ ending] := by
  induction text with
  | nil => exact ⟨[], [], rfl, split_of_notMem h⟩
  | cons c rest ih =>
    obtain ⟨pieces, last, hrest, happend⟩ := ih
    rw [List.cons_append, split, split, hrest, happend]
    by_cases hslash : c = '/'
    · rw [if_pos hslash, if_pos hslash]
      exact ⟨[] :: pieces, last, rfl, rfl⟩
    · rw [if_neg hslash, if_neg hslash]
      cases pieces with
      | nil => exact ⟨[], c :: last, rfl, rfl⟩
      | cons first others => exact ⟨(c :: first) :: others, last, rfl, rfl⟩

namespace ModuleFile

variable {path other root out : Path} {names names' : List String}

/-! ## Files -/

/-- A path with names only does not begin at the root or with a dot, as these would be
components. -/
theorem beginning_of_components (h : path.components = names.map .normal) :
    path.beginning = .relative := by
  rw [Path.components] at h
  cases hbeginning : path.beginning with
  | relative => rfl
  | current =>
    rw [hbeginning] at h
    cases names <;> cases h
  | root =>
    rw [hbeginning] at h
    cases names <;> cases h

/-- **The file of a module** has the names of the module, below the output directory. What is
stripped from its path and joined again are components, so the spelling of the three paths does not
matter. -/
theorem components_outputPath (h : path.components = root.components ++ names.map .normal) :
    (outputPath path root out).components = out.components ++ names.map .normal := by
  obtain ⟨rest, hrest, hnames⟩ := Path.exists_stripPrefix? h
  rw [outputPath, hrest]
  dsimp only
  rw [Path.components_join (beginning_of_components hnames), hnames]

/-! ## What modules are called -/

/-- The names of files end so, or in none of these ways. The empty ending is for the last. -/
def endings : List String := ["", jsonEnding, estreeEnding]

/-- The text of names, with slashes between them. -/
def textOf (names : List String) : String := "/".intercalate names

/-- Names without slashes can be read off their text. There has to be one of them: no names and one
empty name have the same text. -/
theorem names_eq_split (hslash : ∀ name ∈ names, '/' ∉ name.toList) (hne : names ≠ []) :
    names.map String.toList = Piece.split (textOf names).toList := by
  have htext : (textOf names).toList = Piece.join (names.map String.toList) := by
    rw [textOf, String.toList_intercalate, Piece.join]
    rfl
  rw [htext, Piece.split_join (by simpa using hne)]
  intro piece hpiece
  obtain ⟨name, hname, rfl⟩ := List.mem_map.1 hpiece
  exact hslash name hname

/-- A text from which an ending is taken is what is left and the ending. -/
theorem eq_append_of_stripEnding? {text ending stem : String}
    (h : stripEnding? text ending = some stem) : text = stem ++ ending := by
  rw [stripEnding?] at h
  split at h
  next hsuffix =>
    obtain ⟨front, hfront⟩ := List.isSuffixOf_iff_suffix.1 hsuffix
    have hlength : text.toList.length - ending.toList.length = front.length := by
      rw [← hfront, List.length_append, Nat.add_sub_cancel]
    have hstem : stem.toList = front := by
      rw [← Option.some.inj h, String.toList_ofList, hlength, ← hfront, List.take_left]
    rw [← String.toList_inj, String.toList_append, hstem, hfront]
  · cases h

/-- What a module is called is its names without the ending. Only the last name can lose something,
and what it loses is one of three endings. -/
theorem exists_textOf_eq (h : path.components = root.components ++ names.map .normal) :
    ∃ ending ∈ endings, textOf names = moduleId path root ++ ending := by
  obtain ⟨rest, hrest, hcomponents⟩ := Path.exists_stripPrefix? h
  have hnames : ModuleFile.names rest = names := by
    rw [ModuleFile.names, hcomponents, List.filterMap_map]
    exact List.filterMap_some
  rw [moduleId, hrest, Option.getD_some, hnames, ← textOf]
  cases hestree : stripEnding? (textOf names) estreeEnding with
  | some stem => exact ⟨estreeEnding, by decide, eq_append_of_stripEnding? hestree⟩
  | none =>
    cases hjson : stripEnding? (textOf names) jsonEnding with
    | some stem => exact ⟨jsonEnding, by decide, eq_append_of_stripEnding? hjson⟩
    | none => exact ⟨"", by decide, String.append_empty.symm⟩

theorem notMem_of_mem_endings {ending : String} (h : ending ∈ endings) : '/' ∉ ending.toList := by
  have hall : ∀ ending ∈ endings, '/' ∉ ending.toList := by decide
  exact hall ending h

/-- Texts that differ in their endings only are made of names that do. All names but the last are
pieces of the text that is left. -/
theorem exists_names_eq (hslash : ∀ name ∈ names, '/' ∉ name.toList) (hne : names ≠ [])
    {text ending : String} (hending : '/' ∉ ending.toList) (h : textOf names = text ++ ending)
    {pieces : List Piece} {last : Piece} (hsplit : Piece.split text.toList = pieces ++ [last]) :
    names = pieces.map String.ofList ++ [String.ofList last ++ ending] := by
  obtain ⟨pieces', last', hsplit', happend⟩ := Piece.exists_split_append text.toList hending
  obtain ⟨rfl, hlast⟩ := List.append_inj' (hsplit'.symm.trans hsplit) rfl
  obtain rfl := List.singleton_inj.1 hlast
  have hnames := names_eq_split hslash hne
  rw [h, String.toList_append, happend] at hnames
  have hback : names = (names.map String.toList).map String.ofList := by
    have hid : String.ofList ∘ String.toList = id := funext fun _ => String.ofList_toList
    rw [List.map_map, hid, List.map_id]
  rw [hback, hnames, List.map_append, List.map_singleton, String.ofList_append,
    String.ofList_toList]

theorem notMem_of_components (h : path.components = root.components ++ names.map .normal) :
    ∀ name ∈ names, '/' ∉ name.toList := by
  intro name hname
  have hmem : .normal name ∈ path.components := by
    rw [h]
    exact List.mem_append_right _ (List.mem_map_of_mem hname)
  exact (Path.isName_of_mem_components hmem).2

/-- **Files below the root directory are told apart** by where they are written. If they are called
the same, they are in one directory, and their names differ in the endings only. -/
theorem outputPath_moduleId_tellApart
    (hpath : path.components = root.components ++ names.map .normal) (hnames : names ≠ [])
    (hother : other.components = root.components ++ names'.map .normal) (hnames' : names' ≠ [])
    (hne : path.isSame other = false) :
    (outputPath path root out).isSame (outputPath other root out) = false ∧
      (moduleId path root = moduleId other root →
        ∃ directory stem, ∃ ending ∈ endings, ∃ ending' ∈ endings,
          names = directory ++ [stem ++ ending] ∧ names' = directory ++ [stem ++ ending']) := by
  constructor
  · rw [Path.isSame, decide_eq_false_iff_not] at hne ⊢
    rw [components_outputPath hpath, components_outputPath hother, List.append_right_inj]
    rwa [hpath, hother, List.append_right_inj] at hne
  · intro hcalled
    obtain ⟨ending, hending, htext⟩ := exists_textOf_eq hpath
    obtain ⟨ending', hending', htext'⟩ := exists_textOf_eq hother
    rw [← hcalled] at htext'
    -- The last name without its ending is what comes after the last slash.
    obtain ⟨pieces, last, hsplit, -⟩ := Piece.exists_split_append (moduleId path root).toList
      (List.not_mem_nil (a := '/'))
    exact ⟨pieces.map String.ofList, String.ofList last, ending, hending, ending', hending',
      exists_names_eq (notMem_of_components hpath) hnames (notMem_of_mem_endings hending) htext
        hsplit,
      exists_names_eq (notMem_of_components hother) hnames' (notMem_of_mem_endings hending') htext'
        hsplit⟩

/-- Two files with different endings, of which one is an ending and nothing else. Both are called
like the directory with a slash behind it, and are written to different files. -/
theorem outputPath_moduleId_tellApart_endings :
    Path.isSame ⟨"/r/a/.json"⟩ ⟨"/r//a/.estree.json"⟩ = false ∧
      Path.isSame (outputPath ⟨"/r/a/.json"⟩ ⟨"/r"⟩ ⟨"o"⟩)
        (outputPath ⟨"/r//a/.estree.json"⟩ ⟨"/r"⟩ ⟨"o"⟩) = false ∧
      moduleId ⟨"/r/a/.json"⟩ ⟨"/r"⟩ = moduleId ⟨"/r//a/.estree.json"⟩ ⟨"/r"⟩ ∧
      ∃ directory stem, ∃ ending ∈ endings, ∃ ending' ∈ endings,
        ["a", ".json"] = directory ++ [stem ++ ending] ∧
          ["a", ".estree.json"] = directory ++ [stem ++ ending'] := by
  have hne : Path.isSame ⟨"/r/a/.json"⟩ ⟨"/r//a/.estree.json"⟩ = false := by decide
  have hid : moduleId ⟨"/r/a/.json"⟩ ⟨"/r"⟩ = "a/" := by rfl
  have hid' : moduleId ⟨"/r//a/.estree.json"⟩ ⟨"/r"⟩ = "a/" := by rfl
  have hpath : Path.components ⟨"/r/a/.json"⟩ =
      Path.components ⟨"/r"⟩ ++ ["a", ".json"].map .normal := by decide
  have hother : Path.components ⟨"/r//a/.estree.json"⟩ =
      Path.components ⟨"/r"⟩ ++ ["a", ".estree.json"].map .normal := by decide
  obtain ⟨hout, hnames⟩ :=
    @outputPath_moduleId_tellApart _ _ _ ⟨"o"⟩ _ _ hpath (by decide) hother (by decide) hne
  exact ⟨hne, hout, hid.trans hid'.symm, hnames (hid.trans hid'.symm)⟩

end ModuleFile

end DefineWrap
