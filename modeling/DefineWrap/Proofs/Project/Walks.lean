/-
What a walk through a directory finds.

The number that bounds how deep a walk goes is never reached in a tree. Each link leads to a
directory that the walk is not in, and from one link to the next the places get longer, so the
directories that a walk is in are fewer than that (`Discovery.Walk.Comes.length_lt`). A walk that
succeeds has therefore found every file that names lead to from its root, past nothing that is
passed over (`Discovery.Walk.mem_filesWithin_iff`), and no path twice
(`Discovery.Walk.pairwise_filesWithin`).
-/
import DefineWrap.Proofs.Project.Taken
import DefineWrap.Proofs.Project.Trees
import Mathlib.Data.List.Dedup

set_option autoImplicit false

namespace DefineWrap

/-- Whether a path leads to a link, before that is followed. Only behind links a walk looks for
circles. -/
def FileSystem.LeadsToLink (files : FileSystem) (path : Path) : Prop :=
  ∃ place target, files.findNew path = .ok (.entry place (.link target))

namespace Path

/-- Paths are the same if they have the same components, whatever their texts are. -/
theorem isSame_iff {path other : Path} :
    path.isSame other = true ↔ path.components = other.components :=
  decide_eq_true_iff

theorem isSame_eq_false_iff {path other : Path} :
    path.isSame other = false ↔ path.components ≠ other.components :=
  decide_eq_false_iff_not

/-- No two of the paths are the same. -/
def Differ (paths : List Path) : Prop :=
  paths.Pairwise fun path other => path.isSame other = false

end Path

namespace Discovery

namespace Walk

open FileSystem

variable {walk : Walk} {within : List Visited} {path file : Path} {place : Location}
  {entry : Entry} {depth : Nat} {found : List Path} {name : String}

/-! ## One step -/

/-- A walk goes where a path leads, but not round in a circle. A circle is noticed only at a link
that leads to a directory around. -/
theorem resolve_eq_ok_iff :
    walk.resolve within path = .ok (place, entry) ↔
      walk.files.locate path = .ok (place, entry) ∧
        (entry = .directory → walk.files.LeadsToLink path →
          ∀ visited ∈ within, visited.location ≠ place) := by
  constructor
  · intro h
    refine ⟨locate_of_resolve h, ?_⟩
    rintro rfl ⟨_, target, hnew⟩ visited hvisited heq
    rw [resolve, locate_of_resolve h, hnew] at h
    dsimp only [Except.mapError, bind, Except.bind] at h
    cases hancestor : within.find? (·.location = place) with
    | none => simpa [heq] using List.find?_eq_none.1 hancestor visited hvisited
    | some ancestor =>
      rw [hancestor] at h
      cases h
  · rintro ⟨hlocate, hcircle⟩
    rw [resolve, hlocate]
    dsimp only [Except.mapError, bind, Except.bind]
    split
    next ancestor hancestor =>
      rw [if_neg]
      · rfl
      · intro hisLink
        split at hisLink
        next place' target hnew =>
          have hsame := List.find?_some hancestor
          exact hcircle rfl ⟨place', target, hnew⟩ ancestor
            (List.mem_of_find?_eq_some hancestor) (of_decide_eq_true hsame)
        · cases hisLink
    · rfl

/-! ## How deep a walk goes -/

/-- A walk comes to a path through some directories, the innermost of which stands first. It is what
is known of the arguments of the recursion, and an invariant of it. -/
inductive Comes (walk : Walk) : List Visited → Path → Prop
  | root : Comes walk [] walk.root
  | inside {within : List Visited} {path : Path} {place : Location} {name : String}
      (hcomes : Comes walk within path)
      (hresolve : walk.resolve within path = .ok (place, .directory))
      (hname : name ∈ walk.files.names place) :
      Comes walk (⟨path, place⟩ :: within) (path.join ⟨name⟩)

namespace Comes

variable (htree : walk.files.IsTree)
include htree

theorem get?_location (h : walk.Comes within path) :
    ∀ visited ∈ within, walk.files.get? visited.location = some .directory := by
  induction h with
  | root => exact List.forall_mem_nil _
  | inside _ hresolve _ ih =>
    exact List.forall_mem_cons.2 ⟨htree.get?_of_locate (locate_of_resolve hresolve), ih⟩

/-- The directories that a walk is in are bounded by how many different places they have, and by how
deep the last of them is: a link leads to another place, and a name leads deeper. The sum is of this
form so that either of the two steps makes room for one directory more. -/
theorem length_add_le (h : walk.Comes within path)
    (hresolve : walk.resolve within path = .ok (place, .directory)) :
    within.length + 1 + walk.files.entries.length ≤
      (place :: within.map Visited.location).dedup.length * (walk.files.entries.length + 1) +
        place.length := by
  induction h generalizing place with
  | root =>
    rw [List.map_nil, List.dedup_cons_of_notMem List.not_mem_nil]
    simp only [List.length_nil, List.dedup_nil, List.length_singleton]
    omega
  | @inside within path above name hcomes hresolve' hname ih =>
    have hfewer := ih hresolve'
    have habove := locate_of_resolve hresolve'
    obtain ⟨hlocate, hcircle⟩ := resolve_eq_ok_iff.1 hresolve
    have hproper := htree.isProperName hname
    obtain ⟨stored, hstored⟩ := mem_names_iff.1 hname
    rw [List.map_cons, List.length_cons]
    dsimp only
    by_cases hlink : ∃ target, stored = .link target
    · -- A link leads to another directory, but its place may be short.
      obtain ⟨target, rfl⟩ := hlink
      have hnew : place ∉ above :: within.map Visited.location := by
        have hisLink : walk.files.LeadsToLink (path.join ⟨name⟩) :=
          ⟨_, target, findNew_join_of_link habove hproper hstored⟩
        intro hmem
        rw [← List.map_cons (f := Visited.location) (a := ⟨path, above⟩)] at hmem
        obtain ⟨visited, hvisited, heq⟩ := List.mem_map.1 hmem
        exact hcircle rfl hisLink visited hvisited heq
      have hlength := htree.length_le (htree.get?_of_locate habove)
      rw [List.dedup_cons_of_notMem hnew, List.length_cons, Nat.succ_mul]
      omega
    · -- A directory may have been there already, but its place is longer.
      have hfound := (locate_join habove hproper hstored fun target heq => hlink ⟨target, heq⟩).1
      rw [hlocate] at hfound
      obtain ⟨rfl, -⟩ := Prod.mk.inj (Except.ok.inj hfound)
      have hmore : (above :: within.map Visited.location).dedup.length ≤
          ((above ++ [name]) :: above :: within.map Visited.location).dedup.length := by
        by_cases hmem : above ++ [name] ∈ above :: within.map Visited.location
        · rw [List.dedup_cons_of_mem hmem]
        · rw [List.dedup_cons_of_notMem hmem]
          exact Nat.le_succ _
      have hle := Nat.mul_le_mul_right (walk.files.entries.length + 1) hmore
      rw [List.length_append, List.length_singleton]
      omega

/-- **A walk never goes as deep as the bound.** There are not more places than entries, and none is
deeper than their number. -/
theorem length_lt (h : walk.Comes within path) : within.length < maxDepth walk.files := by
  rw [maxDepth]
  cases h with
  | root => exact Nat.mul_pos (Nat.succ_pos _) (Nat.succ_pos _)
  | @inside within path place name hcomes hresolve hname =>
    have hlength := hcomes.length_add_le htree hresolve
    have hplace := htree.get?_of_locate (locate_of_resolve hresolve)
    have hplaces : (place :: within.map Visited.location).dedup.length ≤
        walk.files.entries.length + 1 := by
      refine length_le_of_nodup (List.nodup_dedup _) fun other hother => ?_
      rcases List.mem_cons.1 (List.mem_dedup.1 hother) with rfl | hother
      · exact ⟨_, hplace⟩
      · obtain ⟨visited, hvisited, rfl⟩ := List.mem_map.1 hother
        exact ⟨_, hcomes.get?_location htree visited hvisited⟩
    have hle := Nat.mul_le_mul_right (walk.files.entries.length + 1) hplaces
    have hdepth := htree.length_le hplace
    rw [List.length_cons]
    have hsquare : (walk.files.entries.length + 1) * (walk.files.entries.length + 1) <
        (walk.files.entries.length + 2) * (walk.files.entries.length + 2) :=
      Nat.mul_self_lt_mul_self (Nat.lt_succ_self _)
    omega

end Comes

section Depth

variable (htree : walk.files.IsTree)
include htree

/-- A bound that is large enough may be larger by one, without a change to what is found. -/
theorem filesWithin_succ (hcomes : walk.Comes within path)
    (hdepth : maxDepth walk.files ≤ depth + within.length) :
    walk.filesWithin (depth + 1) within path = walk.filesWithin depth within path := by
  induction depth generalizing within path with
  | zero =>
    have hlength := hcomes.length_lt htree
    omega
  | succ depth ih =>
    rw [filesWithin, filesWithin]
    -- What comes after the step is not to be compared before the step has been taken.
    dsimp only [bind, Except.bind]
    cases hresolve : walk.resolve within path with
    | error error => rfl
    | ok located =>
      obtain ⟨place, entry⟩ := located
      cases entry with
      | directory =>
        have hbelow : ∀ name ∈ walk.files.names place,
            walk.filesWithin (depth + 1) (⟨path, place⟩ :: within) (path.join ⟨name⟩) =
              walk.filesWithin depth (⟨path, place⟩ :: within) (path.join ⟨name⟩) := by
          intro name hname
          refine ih (hcomes.inside hresolve hname) ?_
          rw [List.length_cons]
          omega
        dsimp only
        rw [Except.mapM_congr hbelow]
      | file bytes => rfl
      | link target => rfl

/-- A walk finds the same within any bound that is large enough. So two walks with bounds of their
own can be compared within one. -/
theorem filesWithin_of_le (hdepth : maxDepth walk.files ≤ depth) :
    walk.filesWithin depth [] walk.root = walk.run := by
  rw [run]
  induction hdepth with
  | refl => rfl
  | step hle ih => rw [filesWithin_succ htree .root (by simpa using hle), ih]

end Depth

/-! ## What is found -/

/-- Names lead from a path to a file, past nothing that is passed over. It says what there is to be
found, without a bound, an order or circles. -/
inductive Finds (walk : Walk) (file : Path) : Path → Prop
  | here {place : Location} {bytes : ByteArray}
      (hlocate : walk.files.locate file = .ok (place, .file bytes))
      (hpassed : walk.isPassedOver file = false) : Finds walk file file
  | inside {path : Path} {place : Location} {name : String}
      (hlocate : walk.files.locate path = .ok (place, .directory))
      (hpassed : walk.isPassedOver path = false) (hname : name ∈ walk.files.names place)
      (hfinds : Finds walk file (path.join ⟨name⟩)) : Finds walk file path

theorem not_finds_of_isPassedOver (hpassed : walk.isPassedOver path = true) :
    ¬ walk.Finds file path := by
  intro hfinds
  cases hfinds with
  | here _ hpassed' => simp [hpassed] at hpassed'
  | inside _ hpassed' _ _ => simp [hpassed] at hpassed'

theorem finds_file_iff {bytes : ByteArray}
    (hlocate : walk.files.locate path = .ok (place, .file bytes))
    (hpassed : walk.isPassedOver path = false) : walk.Finds file path ↔ file = path := by
  constructor
  · intro hfinds
    cases hfinds with
    | here => rfl
    | inside hlocate' _ _ _ =>
      rw [hlocate] at hlocate'
      cases hlocate'
  · rintro rfl
    exact .here hlocate hpassed

/-- At a directory is found what is found under one of its names. -/
theorem finds_directory_iff (hlocate : walk.files.locate path = .ok (place, .directory))
    (hpassed : walk.isPassedOver path = false) :
    walk.Finds file path ↔ ∃ name ∈ walk.files.names place, walk.Finds file (path.join ⟨name⟩) := by
  constructor
  · intro hfinds
    cases hfinds with
    | here hlocate' _ =>
      rw [hlocate] at hlocate'
      cases hlocate'
    | inside hlocate' _ hname hfinds =>
      rw [hlocate] at hlocate'
      cases hlocate'
      exact ⟨_, hname, hfinds⟩
  · rintro ⟨name, hname, hfinds⟩
    exact .inside hlocate hpassed hname hfinds

section Found

variable (htree : walk.files.IsTree)
include htree

/-- **A walk that succeeds has found all files that there are to find**, and nothing else. The three
lemmas above are the cases of a step. -/
theorem mem_filesWithin_iff (h : walk.filesWithin depth within path = .ok found)
    (hcomes : walk.Comes within path) (hdepth : maxDepth walk.files ≤ depth + within.length) :
    file ∈ found ↔ walk.Finds file path := by
  -- The depth left and the directories around never fall short of the depth of the tree, so the
  -- walk ends before its depth does.
  induction depth generalizing within path found with
  | zero =>
    have hlength := hcomes.length_lt htree
    omega
  | succ depth ih =>
    cases filesWithin_succ_eq_ok_iff.1 h with
    | passedOver hresolve hpassed =>
      exact iff_of_false List.not_mem_nil (not_finds_of_isPassedOver hpassed)
    | file hresolve hpassed =>
      rw [List.mem_singleton, finds_file_iff (locate_of_resolve hresolve) hpassed]
    | @directory place below hresolve hpassed hbelow =>
      have hnext : ∀ name ∈ walk.files.names place, ∀ part,
          walk.filesWithin depth (⟨path, place⟩ :: within) (path.join ⟨name⟩) = .ok part →
            (file ∈ part ↔ walk.Finds file (path.join ⟨name⟩)) := by
        intro name hname part hpart
        refine ih hpart (hcomes.inside hresolve hname) ?_
        rw [List.length_cons]
        omega
      rw [List.mem_flatten, finds_directory_iff (locate_of_resolve hresolve) hpassed]
      constructor
      · rintro ⟨part, hpart, hfile⟩
        obtain ⟨name, hname, hread⟩ := Except.mem_of_mapM_ok hbelow hpart
        exact ⟨name, hname, (hnext name hname part hread).1 hfile⟩
      · rintro ⟨name, hname, hfinds⟩
        obtain ⟨part, hread⟩ := Except.exists_of_mapM_ok hbelow hname
        exact ⟨part, Except.mem_mapM_ok hbelow hname hread, (hnext name hname part hread).2 hfinds⟩

/-- A whole walk has found what there is to be found from its root, as its bound is never
reached. -/
theorem mem_run_iff (h : walk.run = .ok found) : file ∈ found ↔ walk.Finds file walk.root :=
  mem_filesWithin_iff htree h .root (Nat.le_refl _)

/-- The path of a file goes on by names from where the walk began. -/
theorem Finds.exists_components (h : walk.Finds file path) :
    ∃ names : List String, file.components = path.components ++ names.map .normal := by
  induction h with
  | here => exact ⟨[], (List.append_nil _).symm⟩
  | @inside path place name _ _ hname _ ih =>
    obtain ⟨names, hnames⟩ := ih
    refine ⟨name :: names, ?_⟩
    rw [hnames, components_join_name path (htree.isProperName hname), List.append_assoc]
    rfl

theorem Finds.prefix_components (h : walk.Finds file path) :
    path.components <+: file.components := by
  obtain ⟨names, hnames⟩ := h.exists_components htree
  exact ⟨_, hnames.symm⟩

/-- Nothing is found below a directory that is passed over, if its path goes on from where the walk
began. Otherwise the walk does not come through it, and begins inside of it perhaps. -/
theorem Finds.not_prefix_components {out : Path} (h : walk.Finds file path)
    (hout : walk.outDir = some out) (hbelow : path.components <+: out.components) :
    ¬ out.components <+: file.components := by
  have hpassed : ∀ {other}, walk.isPassedOver other = false →
      other.components ≠ out.components := by
    intro other hother
    rwa [isPassedOver, hout, Option.any_some, Path.isSame_eq_false_iff] at hother
  induction h with
  | here _ hpassed' =>
    intro hbegins
    exact hpassed hpassed' (hbelow.eq_of_length_le hbegins.length_le)
  | @inside path place name _ hpassed' hname hfinds ih =>
    intro hbegins
    have hfile := hfinds.prefix_components htree
    have hjoin := components_join_name path (htree.isProperName hname)
    have hshorter : path.components.length < out.components.length := by
      refine Nat.lt_of_le_of_ne hbelow.length_le fun hlength => ?_
      exact hpassed hpassed' (hbelow.eq_of_length hlength)
    refine ih (List.prefix_of_prefix_length_le hfile hbegins ?_) hbegins
    rw [hjoin, List.length_append, List.length_singleton]
    omega

/-- A directory with files only gives all of them, in the order of their names. -/
theorem run_of_files (hlocate : walk.files.locate walk.root = .ok (place, .directory))
    (hpassed : walk.isPassedOver walk.root = false)
    (hfiles : ∀ name ∈ walk.files.names place, walk.isPassedOver (walk.root.join ⟨name⟩) = false ∧
      ∃ bytes, walk.files.get? (place ++ [name]) = some (.file bytes)) :
    walk.run = .ok ((walk.files.names place).map fun name => walk.root.join ⟨name⟩) := by
  -- The walk goes two steps deep: to the directory, and to the files in it.
  obtain ⟨depth, hdepth⟩ : ∃ depth, maxDepth walk.files = depth + 2 :=
    ⟨_, (Nat.sub_add_cancel (Nat.le_trans (by decide : 2 ≤ 2 * 2)
      (Nat.mul_le_mul (Nat.le_add_left 2 _) (Nat.le_add_left 2 _)))).symm⟩
  have hbelow : ∀ name ∈ walk.files.names place,
      walk.filesWithin (depth + 1) [⟨walk.root, place⟩] (walk.root.join ⟨name⟩) =
        .ok [walk.root.join ⟨name⟩] := by
    intro name hname
    obtain ⟨hkept, bytes, hstored⟩ := hfiles name hname
    have hfound := (locate_join hlocate (htree.isProperName hname) hstored
      fun _ => Entry.noConfusion).1
    exact filesWithin_succ_eq_ok_iff.2
      (.file (resolve_eq_ok_iff.2 ⟨hfound, Entry.noConfusion⟩) hkept)
  have harrives := filesWithin_succ_eq_ok_iff.2 (.directory
    (resolve_eq_ok_iff.2 ⟨hlocate, fun _ _ => List.forall_mem_nil _⟩) hpassed
    (Except.mapM_eq_ok hbelow))
  rw [run, hdepth, harrives, ← List.flatMap_def, List.map_eq_flatMap]

/-- **A walk finds no path twice.** The names in a directory are different, so the paths below them
differ in the component at this depth. -/
theorem pairwise_filesWithin (h : walk.filesWithin depth within path = .ok found)
    (hcomes : walk.Comes within path) (hdepth : maxDepth walk.files ≤ depth + within.length) :
    Path.Differ found := by
  induction depth generalizing within path found with
  | zero =>
    cases h
    exact .nil
  | succ depth ih =>
    cases filesWithin_succ_eq_ok_iff.1 h with
    | passedOver => exact .nil
    | file => exact List.pairwise_singleton _ _
    | @directory place below hresolve hpassed hbelow =>
      -- What is found below one name differs, and goes on from that name.
      have hnext : ∀ name ∈ walk.files.names place, ∀ part,
          walk.filesWithin depth (⟨path, place⟩ :: within) (path.join ⟨name⟩) = .ok part →
            Path.Differ part ∧
              ∀ file ∈ part, path.components ++ [.normal name] <+: file.components := by
        intro name hname part hpart
        have hcomes' := hcomes.inside hresolve hname
        have hdepth' : maxDepth walk.files ≤ depth + (within.length + 1) := by omega
        refine ⟨ih hpart hcomes' hdepth', fun file hfile => ?_⟩
        rw [← components_join_name path (htree.isProperName hname)]
        exact ((mem_filesWithin_iff htree hpart hcomes' hdepth').1 hfile).prefix_components htree
      refine List.pairwise_flatten.2 ⟨fun part hpart => ?_, ?_⟩
      · obtain ⟨name, hname, hread⟩ := Except.mem_of_mapM_ok hbelow hpart
        exact (hnext name hname part hread).1
      · refine Except.pairwise_of_mapM_ok hbelow htree.nodup_names
          fun name hname other hother hne part part' hread hread' file hfile file' hfile' => ?_
        have hfirst := (hnext name hname part hread).2 file hfile
        have hsecond := (hnext other hother part' hread').2 file' hfile'
        rw [Path.isSame_eq_false_iff]
        intro hsame
        rw [hsame] at hfirst
        -- Both go on from the directory, by the two names.
        have heq := (List.prefix_of_prefix_length_le hfirst hsecond (by simp)).eq_of_length
          (by simp)
        simp [hne] at heq

end Found

end Walk

end Discovery

end DefineWrap
