/-
Which paths are taken, and how often.

Of what the inputs give, every path is taken, and nothing else (`Discovery.run_takes`). An input
gives no path twice, but two inputs may give the same one, and only repeats that stand next to each
other are dropped. So no path is taken twice exactly if the same paths stand together in what the
inputs give one after the other. That is so if no two inputs give the same path, in particular if
there is one input only.
-/
import DefineWrap.Proofs.Project.Walks

set_option autoImplicit false

namespace DefineWrap

/-- A path that leads to a file leads to no directory, so an input is one of the two. -/
theorem FileSystem.isDirectory_eq_false_of_isFile {files : FileSystem} {path : Path}
    (h : files.isFile path = true) : files.isDirectory path = false := by
  rw [isFile] at h
  rw [isDirectory]
  split at h
  next hlocate => rw [hlocate]
  · cases h

namespace Discovery

open FileSystem

variable {files : FileSystem} {filter : Filter} {input path : Path} {inputs paths : List Path}

/-! ## One input -/

/-- What an input gives: a file gives itself, and a directory gives the files that a walk finds, as
far as they are taken. The filter is for walks only: a file that is named is taken whatever its name
is. -/
inductive Gives (files : FileSystem) (filter : Filter) (input : Path) : Path → Prop
  | file (hfile : files.isFile input = true) : Gives files filter input input
  | directory {path : Path} (hdirectory : files.isDirectory input = true)
      (hfinds : Walk.Finds ⟨files, input, filter.outDir⟩ path input)
      (htaken : filter.isTaken path = true) : Gives files filter input path

/-- An input is a directory or a file. Anything else is an error, so the two cases are all that a
successful run has. -/
theorem expand_eq_ok_iff {found : List Path} :
    expand files filter input = .ok found ↔
      (files.isDirectory input = true ∧ ∃ all, Walk.run ⟨files, input, filter.outDir⟩ = .ok all ∧
        found = all.filter filter.isTaken) ∨
      files.isFile input = true ∧ found = [input] := by
  rw [expand]
  constructor
  · intro h
    split at h
    next hdirectory =>
      obtain ⟨all, hall, h⟩ := Except.bind_ok h
      cases h
      exact .inl ⟨hdirectory, all, hall, rfl⟩
    · split at h
      next hfile =>
        cases h
        exact .inr ⟨hfile, rfl⟩
      · cases h
  · rintro (⟨hdirectory, all, hall, rfl⟩ | ⟨hfile, rfl⟩)
    · rw [if_pos hdirectory, hall]
      rfl
    · rw [isDirectory_eq_false_of_isFile hfile, if_neg Bool.false_ne_true, if_pos hfile]
      rfl

/-- What is found for an input is what it gives. -/
theorem mem_expand_iff (htree : files.IsTree) {found : List Path}
    (h : expand files filter input = .ok found) :
    path ∈ found ↔ Gives files filter input path := by
  rcases expand_eq_ok_iff.1 h with ⟨hdirectory, all, hall, rfl⟩ | ⟨hfile, rfl⟩
  · rw [List.mem_filter, Walk.mem_run_iff htree hall]
    constructor
    · rintro ⟨hfinds, htaken⟩
      exact .directory hdirectory hfinds htaken
    · intro hgives
      cases hgives with
      | file hfile =>
        rw [isDirectory_eq_false_of_isFile hfile] at hdirectory
        cases hdirectory
      | directory _ hfinds htaken => exact ⟨hfinds, htaken⟩
  · rw [List.mem_singleton]
    constructor
    · rintro rfl
      exact .file hfile
    · intro hgives
      cases hgives with
      | file => rfl
      | directory hdirectory _ _ =>
        rw [isDirectory_eq_false_of_isFile hfile] at hdirectory
        cases hdirectory

/-- An input gives no path twice. A walk comes to each name in a directory once, and does not follow
the links that it finds. -/
theorem differ_expand (htree : files.IsTree) {found : List Path}
    (h : expand files filter input = .ok found) : Path.Differ found := by
  rcases expand_eq_ok_iff.1 h with ⟨-, all, hall, rfl⟩ | ⟨-, rfl⟩
  · exact (Walk.pairwise_filesWithin htree hall .root (Nat.le_refl _)).filter _
  · exact List.pairwise_singleton _ _

/-! ## Repeats -/

/-- Between two paths that are the same only the same path stands. Being the same is a matter of
components, and not of spelling. -/
def Together (paths : List Path) : Prop :=
  ∀ first between last, [first, between, last].Sublist paths → first.isSame last = true →
    first.isSame between = true

/-- What stands together stands together in any part of the list, because fewer paths can stand
between. -/
theorem Together.sublist {paths' : List Path} (h : Together paths)
    (hsub : paths'.Sublist paths) : Together paths' :=
  fun first between last hlist => h first between last (hlist.trans hsub)

/-- One path of those that are the same is left. -/
theorem exists_mem_dropRepeats (h : path ∈ paths) :
    ∃ other ∈ dropRepeats paths, other.isSame path = true := by
  fun_induction dropRepeats paths generalizing path with
  | case1 => cases h
  | case2 only => exact ⟨path, h, Path.isSame_iff.2 rfl⟩
  | case3 first next rest hsame ih =>
    rcases List.mem_cons.1 h with rfl | h
    · exact ih List.mem_cons_self
    · rcases List.mem_cons.1 h with rfl | h
      · obtain ⟨other, hother, hfirst⟩ := ih List.mem_cons_self
        rw [Path.isSame_iff] at hfirst hsame
        exact ⟨other, hother, Path.isSame_iff.2 (hfirst.trans hsame)⟩
      · exact ih (List.mem_cons_of_mem _ h)
  | case4 first next rest hsame ih =>
    rcases List.mem_cons.1 h with rfl | h
    · exact ⟨_, List.mem_cons_self, Path.isSame_iff.2 rfl⟩
    · obtain ⟨other, hother, hpath⟩ := ih h
      exact ⟨other, List.mem_cons_of_mem _ hother, hpath⟩

/-- A path that is the same as the one before does not matter for whether the same paths stand
together. This is the step at which a repeat is dropped. -/
theorem together_cons_cons_iff {first next : Path} (hsame : first.isSame next = true) :
    Together (first :: next :: paths) ↔ Together (first :: paths) := by
  constructor
  · exact fun h => h.sublist (.cons_cons first (.cons next (.refl paths)))
  · intro h other between last hsub hlast
    rcases List.sublist_cons_iff.1 hsub with hsub | ⟨_, heq, hsub⟩
    · rcases List.sublist_cons_iff.1 hsub with hsub | ⟨_, heq, hsub⟩
      · exact h other between last (.cons first hsub) hlast
      · -- What stands after the second path stands after the first one, too.
        obtain ⟨rfl, rfl⟩ := List.cons.inj heq
        rw [Path.isSame_iff] at hsame hlast
        have hbetween := h first between last (.cons_cons first hsub)
          (Path.isSame_iff.2 (hsame.trans hlast))
        rw [Path.isSame_iff] at hbetween ⊢
        exact hsame.symm.trans hbetween
    · obtain ⟨rfl, rfl⟩ := List.cons.inj heq
      rcases List.sublist_cons_iff.1 hsub with hsub | ⟨_, heq, hsub⟩
      · exact h other between last (.cons_cons other hsub) hlast
      · rw [(List.cons.inj heq).1]
        exact hsame

/-- A path that is not the same as the next one must not come again. If it did, the next one would
stand between. -/
theorem together_cons_iff {first next : Path} (hdiffer : ¬ first.isSame next = true) :
    Together (first :: next :: paths) ↔
      (∀ other ∈ next :: paths, first.isSame other = false) ∧ Together (next :: paths) := by
  constructor
  · intro h
    refine ⟨fun other hother => ?_, h.sublist (.cons first (.refl _))⟩
    rcases List.mem_cons.1 hother with rfl | hother
    · exact Bool.eq_false_iff.2 hdiffer
    · refine Bool.eq_false_iff.2 fun hsame => hdiffer ?_
      exact h first next other
        (.cons_cons first (.cons_cons next (List.singleton_sublist.2 hother))) hsame
  · rintro ⟨hother, h⟩ other between last hsub hlast
    rcases List.sublist_cons_iff.1 hsub with hsub | ⟨_, heq, hsub⟩
    · exact h other between last hsub hlast
    · obtain ⟨rfl, rfl⟩ := List.cons.inj heq
      rw [hother last (hsub.subset (by simp))] at hlast
      cases hlast

/-- **No path is left twice exactly if the same ones stand together.** By induction along the
dropping, with the two lemmas above as its cases. -/
theorem differ_dropRepeats_iff : Path.Differ (dropRepeats paths) ↔ Together paths := by
  fun_induction dropRepeats paths with
  | case1 => exact iff_of_true .nil fun _ _ _ hsub => by cases hsub
  | case2 path =>
    refine iff_of_true (List.pairwise_singleton _ _) fun first between last hsub => ?_
    have := hsub.length_le
    simp at this
  | case3 first next rest hsame ih => rw [ih, together_cons_cons_iff hsame]
  | case4 first next rest hdiffer ih =>
    rw [together_cons_iff hdiffer, ← ih, Path.Differ, List.pairwise_cons]
    refine and_congr_left fun _ => ⟨fun h other hother => ?_, fun h other hother => ?_⟩
    · obtain ⟨kept, hkept, hsame⟩ := exists_mem_dropRepeats hother
      have hdiffer := h kept hkept
      rw [Path.isSame_iff] at hsame
      rw [Path.isSame_eq_false_iff] at hdiffer ⊢
      rwa [← hsame]
    · exact h other ((dropRepeats_sublist _).subset hother)

/-! ## All inputs -/

/-- The paths that an input gives, one after the other. In a run that succeeds no input has failed,
so the empty list stands for no error. -/
def listing (files : FileSystem) (filter : Filter) (input : Path) : List Path :=
  (expand files filter input).toOption.getD []

/-- A run takes what its inputs give one after the other, without the repeats. -/
theorem eq_dropRepeats_of_run (h : run files filter inputs = .ok paths) :
    (∀ input ∈ inputs, expand files filter input = .ok (listing files filter input)) ∧
      paths = dropRepeats (inputs.flatMap (listing files filter)) := by
  rw [run] at h
  obtain ⟨found, hfound, h⟩ := Except.bind_ok h
  have hlisting : ∀ input result, expand files filter input = .ok result →
      listing files filter input = result := by
    intro input result hresult
    rw [listing, hresult]
    rfl
  refine ⟨fun input hinput => ?_, ?_⟩
  · obtain ⟨result, hresult⟩ := Except.exists_of_mapM_ok hfound hinput
    rw [hlisting input result hresult, hresult]
  · rw [Except.flatMap_of_mapM_ok (k := id) hfound hlisting, List.flatMap_id]
    exact (Except.ok.inj h).symm

/-- What is listed for an input of a successful run is what it gives. -/
theorem mem_listing_iff (htree : files.IsTree) (h : run files filter inputs = .ok paths)
    (hinput : input ∈ inputs) :
    path ∈ listing files filter input ↔ Gives files filter input path :=
  mem_expand_iff htree ((eq_dropRepeats_of_run h).1 input hinput)

/-- Nothing is taken that no input gives, since dropping repeats adds nothing. -/
theorem exists_gives_of_mem_run (htree : files.IsTree) (h : run files filter inputs = .ok paths)
    (hpath : path ∈ paths) : ∃ input ∈ inputs, Gives files filter input path := by
  rw [(eq_dropRepeats_of_run h).2] at hpath
  obtain ⟨input, hinput, hlisted⟩ := List.mem_flatMap.1 ((dropRepeats_sublist _).subset hpath)
  exact ⟨input, hinput, (mem_listing_iff htree h hinput).1 hlisted⟩

theorem exists_mem_run_of_gives (htree : files.IsTree) (h : run files filter inputs = .ok paths)
    (hinput : input ∈ inputs) (hgives : Gives files filter input path) :
    ∃ other ∈ paths, other.isSame path = true := by
  rw [(eq_dropRepeats_of_run h).2]
  exact exists_mem_dropRepeats
    (List.mem_flatMap.2 ⟨input, hinput, (mem_listing_iff htree h hinput).2 hgives⟩)

/-- What different inputs give is different if no two of them give the same. Each of them gives no
path twice by itself. -/
theorem differ_flatMap (htree : files.IsTree) (h : run files filter inputs = .ok paths)
    (hinputs : inputs.Pairwise fun input other => ∀ path path', Gives files filter input path →
      Gives files filter other path' → path.isSame path' = false) :
    Path.Differ (inputs.flatMap (listing files filter)) := by
  have hexpand := (eq_dropRepeats_of_run h).1
  rw [Path.Differ, List.flatMap_def, List.pairwise_flatten]
  refine ⟨fun part hpart => ?_, ?_⟩
  · obtain ⟨input, hinput, rfl⟩ := List.mem_map.1 hpart
    exact differ_expand htree (hexpand input hinput)
  · rw [List.pairwise_map]
    refine hinputs.imp_of_mem fun hinput hother hgives path hpath path' hpath' => ?_
    exact hgives path path' ((mem_listing_iff htree h hinput).1 hpath)
      ((mem_listing_iff htree h hother).1 hpath')

/-- **What a run takes.** Each path is given by an input, and of the paths that the inputs give,
each is taken, or one that is the same. No path is taken twice exactly if the same paths stand
together in what the inputs give one after the other, and so if no two inputs give the same. -/
theorem run_takes (htree : files.IsTree) (h : run files filter inputs = .ok paths) :
    (∀ path ∈ paths, ∃ input ∈ inputs, Gives files filter input path) ∧
      (∀ input ∈ inputs, ∀ path, Gives files filter input path →
        ∃ other ∈ paths, other.isSame path = true) ∧
      (Path.Differ paths ↔ Together (inputs.flatMap (listing files filter))) ∧
      ((inputs.Pairwise fun input other => ∀ path path', Gives files filter input path →
        Gives files filter other path' → path.isSame path' = false) → Path.Differ paths) := by
  have hpaths := (eq_dropRepeats_of_run h).2
  refine ⟨fun path => exists_gives_of_mem_run htree h,
    fun input hinput path => exists_mem_run_of_gives htree h hinput, ?_, fun hinputs => ?_⟩
  · rw [hpaths, differ_dropRepeats_iff]
  · rw [hpaths]
    exact (differ_flatMap htree h hinputs).sublist (dropRepeats_sublist _)

/-- Two files next to each other. -/
def pair : FileSystem := ⟨[(["a.json"], .file .empty), (["b.json"], .file .empty)]⟩

/-- No patterns, and no directory for the output, so every file of a walk is taken. -/
def takeAll : Filter := ⟨none, ⟨"/"⟩, none⟩

theorem isTree_pair : pair.IsTree := by
  refine .of_entries (by decide) ?_
  simp only [pair, List.forall_mem_cons]
  exact ⟨⟨rfl, by decide⟩, ⟨rfl, by decide⟩, List.forall_mem_nil _⟩

/-- A directory, and then the file that comes last in it: the repeat stands next to the first one,
and is dropped. -/
theorem run_takes_directory_and_file :
    pair.IsTree ∧ run pair takeAll [⟨"/"⟩, ⟨"/b.json"⟩] = .ok [⟨"/a.json"⟩, ⟨"/b.json"⟩] ∧
      Path.Differ [⟨"/a.json"⟩, ⟨"/b.json"⟩] ∧
      Together ([⟨"/"⟩, ⟨"/b.json"⟩].flatMap (listing pair takeAll)) := by
  have hnames : pair.names [] = ["a.json", "b.json"] := List.mergeSort_of_pairwise (by decide)
  have hwalk : (Walk.mk pair ⟨"/"⟩ none).run = .ok [⟨"/a.json"⟩, ⟨"/b.json"⟩] := by
    have hlocate : pair.locate ⟨"/"⟩ = .ok ([], .directory) := rfl
    refine (Walk.run_of_files isTree_pair hlocate rfl ?_).trans ?_
    · rw [hnames]
      simp only [List.forall_mem_cons]
      exact ⟨⟨rfl, _, rfl⟩, ⟨rfl, _, rfl⟩, List.forall_mem_nil _⟩
    · rw [hnames]
      rfl
  have hrun : run pair takeAll [⟨"/"⟩, ⟨"/b.json"⟩] = .ok [⟨"/a.json"⟩, ⟨"/b.json"⟩] := by
    have hdirectory : expand pair takeAll ⟨"/"⟩ = .ok [⟨"/a.json"⟩, ⟨"/b.json"⟩] :=
      expand_eq_ok_iff.2 (.inl ⟨rfl, _, hwalk, rfl⟩)
    have hgiven : expand pair takeAll ⟨"/b.json"⟩ = .ok [⟨"/b.json"⟩] :=
      expand_eq_ok_iff.2 (.inr ⟨rfl, rfl⟩)
    rw [run, List.mapM_cons, List.mapM_cons, hdirectory, hgiven]
    refine congrArg Except.ok (show dropRepeats [⟨"/a.json"⟩, ⟨"/b.json"⟩, ⟨"/b.json"⟩] = _ from ?_)
    rw [dropRepeats, if_neg (by decide), dropRepeats, if_pos (by decide), dropRepeats]
  have hdiffer : Path.Differ [⟨"/a.json"⟩, ⟨"/b.json"⟩] := by
    rw [Path.Differ]
    decide
  exact ⟨isTree_pair, hrun, hdiffer, (run_takes isTree_pair hrun).2.2.1.1 hdiffer⟩

/-- **A file that is taken twice**, because another one stands between. The inputs are not put in
order before repeats are dropped. -/
theorem not_differ_run_pair :
    run pair takeAll [⟨"/a.json"⟩, ⟨"/b.json"⟩, ⟨"/a.json"⟩] =
        .ok [⟨"/a.json"⟩, ⟨"/b.json"⟩, ⟨"/a.json"⟩] ∧
      ¬ Path.Differ [⟨"/a.json"⟩, ⟨"/b.json"⟩, ⟨"/a.json"⟩] := by
  constructor
  · rw [run_of_files, dropRepeats_eq_self]
    · decide
    · simp only [List.forall_mem_cons]
      exact ⟨⟨_, _, rfl⟩, ⟨_, _, rfl⟩, ⟨_, _, rfl⟩, List.forall_mem_nil _⟩
  · rw [Path.Differ]
    decide

end Discovery

end DefineWrap
