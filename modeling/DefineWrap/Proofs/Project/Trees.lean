/-
File systems that are trees.

All that is stored lies in a directory, is stored once, and has names that a path can lead through
(`FileSystem.IsTree`). Where a way ends then lies in a directory, too (`FileSystem.IsTree.sits`),
and a place has no more names than there are entries (`FileSystem.IsTree.length_le`).

A path that leads to a directory leads on from there by one more name. What it comes to is stored
in that directory under the name, unless that is a link (`FileSystem.locate_join`).
-/
import DefineWrap.Proofs.Project.Components
import DefineWrap.Proofs.Project.Following
import Mathlib.Data.List.Induction
import Mathlib.Data.List.Nodup
import Mathlib.Data.List.Perm.Subperm

set_option autoImplicit false

namespace DefineWrap

/-- A name that something in a directory may have: a path can be made to lead there by it. -/
def IsProperName (name : String) : Prop := Piece.IsName name.toList ∧ '/' ∉ name.toList

instance (piece : Piece) : Decidable piece.IsName := inferInstanceAs (Decidable (_ ∧ _))

instance (name : String) : Decidable (IsProperName name) := inferInstanceAs (Decidable (_ ∧ _))

namespace FileSystem

/-- A file system is a tree: nothing is stored twice, everything lies in a directory, and all
names are proper. The type of file systems is a list of entries and has others, which no real one
is like. -/
structure IsTree (files : FileSystem) : Prop where
  once : (files.entries.map Prod.fst).Nodup
  inside : ∀ place stored, files.get? place = some stored →
    files.get? place.dropLast = some .directory
  named : ∀ place stored, files.get? place = some stored → ∀ name ∈ place, IsProperName name

/-- Where a way ends lies in a directory. If nothing is stored there, something may be, and the
names of the place are proper. -/
def Found.Sits (files : FileSystem) : Found → Prop
  | .entry place stored => files.get? place = some stored
  | .absent place => files.get? place = none ∧ files.get? place.dropLast = some .directory ∧
    ∀ name ∈ place, IsProperName name

variable {files : FileSystem} {place location : Location} {stored : Entry} {path : Path}
  {name : String}

/-! ## What is stored -/

theorem get?_nil (files : FileSystem) : files.get? [] = some .directory := if_pos rfl

theorem mem_places_iff (hplace : place ≠ []) :
    place ∈ files.entries.map Prod.fst ↔ ∃ stored, files.get? place = some stored := by
  rw [get?, if_neg hplace, ← Option.isSome_iff_exists, List.lookup_isSome_iff, List.mem_map]
  simp only [beq_iff_eq, eq_comm (a := place)]

theorem mem_names_iff :
    name ∈ files.names location ↔ ∃ stored, files.get? (location ++ [name]) = some stored := by
  rw [← mem_places_iff (by simp), names, List.mem_mergeSort, List.mem_filterMap, List.mem_map]
  constructor
  · rintro ⟨⟨other, stored⟩, hmem, hname⟩
    dsimp only at hname
    split at hname
    next hlocation =>
      refine ⟨_, hmem, ?_⟩
      rw [← hlocation, List.dropLast_append_getLast? name hname]
    · cases hname
  · rintro ⟨⟨other, stored⟩, hmem, rfl⟩
    exact ⟨_, hmem, by simp⟩

/-- A list of different places where something is stored is no longer than there are entries, apart
from the root. By this the depth of a walk is bounded. -/
theorem length_le_of_nodup {places : List Location} (hnodup : places.Nodup)
    (hstored : ∀ place ∈ places, ∃ stored, files.get? place = some stored) :
    places.length ≤ files.entries.length + 1 := by
  have hsub : places ⊆ [] :: files.entries.map Prod.fst := by
    intro place hplace
    by_cases hroot : place = []
    · rw [hroot]
      exact List.mem_cons_self
    · exact List.mem_cons_of_mem _ ((mem_places_iff hroot).2 (hstored place hplace))
  have hle := (List.subperm_of_subset hnodup hsub).length_le
  rwa [List.length_cons, List.length_map] at hle

theorem pairwise_names (files : FileSystem) (location : Location) :
    (files.names location).Pairwise (· ≤ ·) := by
  have hle : ∀ first second : String, (!decide (second < first)) = decide (first ≤ second) := by
    intro first second
    rw [← decide_not, decide_eq_decide, String.not_lt]
  rw [names]
  simp only [hle]
  refine (List.pairwise_mergeSort (fun first second third => ?_) (fun first second => ?_) _).imp
    of_decide_eq_true
  · simpa using String.le_trans
  · simpa using String.le_total first second

namespace IsTree

/-- It is enough to look at the entries, which can be decided for a given file system. -/
theorem of_entries (once : (files.entries.map Prod.fst).Nodup)
    (h : ∀ entry ∈ files.entries, files.get? entry.1.dropLast = some .directory ∧
      ∀ name ∈ entry.1, IsProperName name) : files.IsTree := by
  have hentry : ∀ place stored, files.get? place = some stored →
      files.get? place.dropLast = some .directory ∧ ∀ name ∈ place, IsProperName name := by
    intro place stored hstored
    by_cases hroot : place = []
    · rw [hroot]
      exact ⟨files.get?_nil, List.forall_mem_nil _⟩
    · obtain ⟨entry, hmem, rfl⟩ := List.mem_map.1 ((mem_places_iff hroot).2 ⟨stored, hstored⟩)
      exact h entry hmem
  exact ⟨once, fun place stored hstored => (hentry place stored hstored).1,
    fun place stored hstored => (hentry place stored hstored).2⟩

theorem empty : FileSystem.empty.IsTree :=
  .of_entries List.nodup_nil (List.forall_mem_nil _)

variable (h : files.IsTree)
include h

theorem isProperName (hname : name ∈ files.names location) : IsProperName name := by
  obtain ⟨stored, hstored⟩ := mem_names_iff.1 hname
  exact h.named _ stored hstored name (by simp)

/-- The names in a directory are different, since nothing is stored twice. -/
theorem nodup_names : (files.names location).Nodup := by
  have hnames : files.names location =
      ((files.entries.map Prod.fst).filterMap fun other =>
        if other.dropLast = location then other.getLast? else none).mergeSort
          fun name other => !(other < name) := by
    rw [names, List.filterMap_map]
    rfl
  rw [hnames, (List.mergeSort_perm _ _).nodup_iff]
  refine h.once.filterMap fun first second name hfirst hsecond => ?_
  split at hfirst
  next hlocation =>
    split at hsecond
    next hlocation' =>
      rw [← List.dropLast_append_getLast? name hfirst, hlocation,
        ← List.dropLast_append_getLast? name hsecond, hlocation']
    · cases hsecond
  · cases hfirst

theorem exists_get?_of_prefix {other : Location} (hstored : files.get? place = some stored)
    (hbegins : other <+: place) : ∃ stored', files.get? other = some stored' := by
  induction place using List.reverseRecOn generalizing stored with
  | nil =>
    rw [List.prefix_nil.1 hbegins]
    exact ⟨_, files.get?_nil⟩
  | append_singleton place name ih =>
    rcases List.prefix_concat_iff.1 hbegins with rfl | hbegins
    · exact ⟨stored, hstored⟩
    · have hparent := h.inside _ stored hstored
      rw [List.dropLast_concat] at hparent
      exact ih hparent hbegins

/-- A place has no more names than there are entries: all that it lies in is an entry, too. -/
theorem length_le (hstored : files.get? place = some stored) :
    place.length ≤ files.entries.length := by
  -- The places that it lies in, and itself, are different: their lengths are.
  have hnodup : ((List.range (place.length + 1)).map place.take).Nodup := by
    refine List.Nodup.of_map List.length ?_
    have hlength : ((List.range (place.length + 1)).map place.take).map List.length =
        List.range (place.length + 1) := by
      rw [List.map_map]
      refine (List.map_congr_left fun count hcount => ?_).trans (List.map_id' _)
      rw [Function.comp_apply, List.length_take]
      have := List.mem_range.1 hcount
      omega
    rw [hlength]
    exact List.nodup_range
  have hbegins : ∀ other ∈ (List.range (place.length + 1)).map place.take,
      ∃ stored', files.get? other = some stored' := by
    intro other hother
    obtain ⟨count, -, rfl⟩ := List.mem_map.1 hother
    exact h.exists_get?_of_prefix hstored (List.take_prefix count place)
  have hle := length_le_of_nodup hnodup hbegins
  rw [List.length_map, List.length_range] at hle
  omega

/-! ## Where ways end -/

/-- **A way from a directory ends in a directory.** By induction over the way: the target of a link
begins in a directory or at the root. -/
theorem sits {followLast : Bool} {links : Nat} {pieces : List Piece} {found : Found}
    (hfound : files.followWithin followLast links pieces location = .ok found)
    (hslash : ∀ piece ∈ pieces, '/' ∉ piece) (hlocation : files.get? location = some .directory) :
    found.Sits files := by
  rw [followWithin_eq_ok_iff] at hfound
  induction hfound with
  | nil links location => exact hlocation
  | skip _ _ ih => exact ih (List.forall_mem_cons.1 hslash).2 hlocation
  | up _ ih => exact ih (List.forall_mem_cons.1 hslash).2 (h.inside _ _ hlocation)
  | @absent piece location links hname hstored =>
    refine ⟨hstored, ?_, fun name hmem => ?_⟩
    · rwa [Location.below, List.dropLast_concat]
    · rcases List.mem_append.1 hmem with hmem | hmem
      · exact h.named _ _ hlocation name hmem
      · rw [List.mem_singleton.1 hmem, IsProperName, String.toList_ofList]
        exact ⟨hname, hslash piece List.mem_cons_self⟩
  | directory hname hstored _ ih => exact ih (List.forall_mem_cons.1 hslash).2 hstored
  | file links hname hstored => exact hstored
  | lastLink links _ hname hstored => exact hstored
  | link _ hname hstored _ ih =>
    -- What a link leads to is followed from the root, or from the directory that it is in.
    refine ih (fun piece hpiece => ?_) ?_
    · rcases List.mem_append.1 hpiece with hpiece | hpiece
      · exact Piece.notMem_split hpiece
      · exact (List.forall_mem_cons.1 hslash).2 piece hpiece
    · rw [Location.linkBase]
      split
      · exact files.get?_nil
      · exact hlocation

theorem sits_of_find {found : Found} (hfound : files.find path = .ok found) : found.Sits files :=
  h.sits hfound (fun _ => Piece.notMem_split) files.get?_nil

theorem sits_of_findNew {found : Found} (hfound : files.findNew path = .ok found) :
    found.Sits files := by
  obtain ⟨blanks, heq, -⟩ := exists_newPieces_append path
  refine h.sits hfound (fun piece hpiece => ?_) files.get?_nil
  have hmem : piece ∈ path.pieces := heq ▸ List.mem_append_left _ hpiece
  exact Piece.notMem_split hmem

theorem get?_of_locate (hlocate : files.locate path = .ok (place, stored)) :
    files.get? place = some stored :=
  h.sits_of_find (find_of_locate hlocate)

end IsTree

/-! ## One more name -/

theorem exists_followWithin_eq (files : FileSystem) {front others : List Piece} {piece : Piece}
    (h : Piece.steps front = piece :: others) :
    ∃ rest, Piece.steps rest = others ∧ ∀ followLast links more location,
      files.followWithin followLast links (front ++ more) location =
        files.followWithin followLast links (piece :: (rest ++ more)) location := by
  obtain ⟨blanks, rest, rfl, hblanks, -, hrest⟩ := List.filter_eq_cons_iff.1 h
  refine ⟨rest, hrest, fun followLast links more location => ?_⟩
  rw [List.append_assoc, followWithin_blanks (List.filter_eq_nil_iff.2 hblanks), List.cons_append]

/-- **A way that goes past a directory goes on from there**, over as many links as are left. Only
its steps up to there matter. How many links are left is not said, because what comes after is one
name and follows none. -/
theorem exists_followWithin_append {links : Nat} {pieces : List Piece}
    (h : files.followWithin true links pieces location = .ok (.entry place .directory)) :
    ∃ fewer, ∀ front more followLast, Piece.steps front = Piece.steps pieces → more ≠ [] →
      files.followWithin followLast links (front ++ more) location =
        files.followWithin followLast fewer more place := by
  -- The induction is on the way to the directory. A path that another name is joined to may be
  -- written with other blanks, so all pieces with the same steps are treated together.
  rw [followWithin_eq_ok_iff] at h
  generalize hfound : Found.entry place .directory = found at h
  induction h with
  | nil links location =>
    cases hfound
    exact ⟨links, fun front more followLast hfront _ =>
      followWithin_blanks hfront followLast links more _⟩
  | @skip links piece rest location found hskip _ ih =>
    rw [Piece.steps_cons_of_not_isStep rest hskip]
    exact ih hfound
  | @up links rest location found _ ih =>
    obtain ⟨fewer, hfewer⟩ := ih hfound
    refine ⟨fewer, fun front more followLast hfront hmore => ?_⟩
    rw [Piece.steps_cons rest (by decide)] at hfront
    obtain ⟨rest', hrest', heq⟩ := exists_followWithin_eq files hfront
    rw [heq, followWithin_up, hfewer rest' more followLast hrest' hmore]
  | absent links hname hstored => cases hfound
  | @directory links piece rest location found hname hstored _ ih =>
    obtain ⟨fewer, hfewer⟩ := ih hfound
    refine ⟨fewer, fun front more followLast hfront hmore => ?_⟩
    rw [Piece.steps_cons rest hname.1] at hfront
    obtain ⟨rest', hrest', heq⟩ := exists_followWithin_eq files hfront
    rw [heq, followWithin_of_directory hname hstored, hfewer rest' more followLast hrest' hmore]
  | file links hname hstored => cases hfound
  | lastLink links hlast hname hstored => cases hlast
  | @link links piece rest location target found _ hname hstored _ ih =>
    obtain ⟨fewer, hfewer⟩ := ih hfound
    refine ⟨fewer, fun front more followLast hfront hmore => ?_⟩
    rw [Piece.steps_cons rest hname.1] at hfront
    obtain ⟨rest', hrest', heq⟩ := exists_followWithin_eq files hfront
    -- Something comes after the link, so it is followed in any case.
    have hlonger : (rest' ++ more).isEmpty = false := by simp [hmore]
    rw [heq, followWithin_of_link hname hstored, hlonger, Bool.false_and,
      if_neg Bool.false_ne_true, ← List.append_assoc]
    exact hfewer _ more followLast (by simp [hrest']) hmore

/-- A name is the last piece of a path that it is joined to. -/
theorem exists_pieces_join (path : Path) (hname : IsProperName name) :
    ∃ front, Piece.steps front = path.steps ∧
      (path.join ⟨name⟩).pieces = front ++ [name.toList] := by
  have habsolute := Path.not_isAbsolute_of_beginning (Path.beginning_of_isName hname.1 hname.2)
  by_cases hpath : path.text.toList = []
  · refine ⟨[], ?_, ?_⟩
    · rw [Path.steps, Path.pieces, hpath]
      rfl
    · rw [Path.join_of_empty habsolute hpath, Path.pieces_of_notMem hname.2, List.nil_append]
  · obtain ⟨front, blanks, hpieces, hblanks, -, hjoin⟩ := Path.pieces_join habsolute hpath
    refine ⟨front, ?_, by rw [hjoin, Path.pieces_of_notMem hname.2]⟩
    have hnone : Piece.steps blanks = [] := by
      rcases hblanks with rfl | rfl <;> rfl
    rw [Path.steps, hpieces, Piece.steps_append, hnone, List.append_nil]

theorem components_join_name (path : Path) (hname : IsProperName name) :
    (path.join ⟨name⟩).components = path.components ++ [.normal name] := by
  rw [Path.components_join (Path.beginning_of_isName hname.1 hname.2),
    Path.components_of_isName hname.1 hname.2]

/-- From a directory one more name leads on, be a link at its end followed or not. -/
theorem exists_find_join (hlocate : files.locate path = .ok (place, .directory))
    (hname : IsProperName name) :
    ∃ fewer, files.find (path.join ⟨name⟩) = files.followWithin true fewer [name.toList] place ∧
      files.findNew (path.join ⟨name⟩) = files.followWithin false fewer [name.toList] place := by
  obtain ⟨fewer, hfewer⟩ := exists_followWithin_append (find_of_locate hlocate)
  obtain ⟨front, hfront, hpieces⟩ := exists_pieces_join path hname
  have hnew : ((path.join ⟨name⟩).pieces.reverse.dropWhile List.isEmpty).reverse =
      front ++ [name.toList] := by
    have hnonempty : name.toList.isEmpty = false := by
      cases hlist : name.toList with
      | nil =>
        have hstep := hname.1.1
        rw [hlist] at hstep
        cases hstep
      | cons _ _ => rfl
    rw [hpieces, List.reverse_append, List.reverse_singleton, List.singleton_append,
      List.dropWhile_cons_of_neg (by rw [hnonempty]; exact Bool.false_ne_true), List.reverse_cons,
      List.reverse_reverse]
  refine ⟨fewer, ?_, ?_⟩
  · rw [find, hpieces, hfewer front _ true hfront (List.cons_ne_nil _ _)]
  · rw [findNew, hnew, hfewer front _ false hfront (List.cons_ne_nil _ _)]

theorem below_toList (place : Location) (name : String) :
    place.below name.toList = place ++ [name] := by
  rw [Location.below, String.ofList_toList]

/-- **One more name leads to what is stored under it**, if that is no link. A link would be
followed, and lead anywhere. -/
theorem locate_join (hlocate : files.locate path = .ok (place, .directory))
    (hname : IsProperName name) (hstored : files.get? (place ++ [name]) = some stored)
    (hnolink : ∀ target, stored ≠ .link target) :
    files.locate (path.join ⟨name⟩) = .ok (place ++ [name], stored) ∧
      files.findNew (path.join ⟨name⟩) = .ok (.entry (place ++ [name]) stored) := by
  obtain ⟨fewer, hfind, hfindNew⟩ := exists_find_join hlocate hname
  rw [← below_toList] at hstored
  have hfollow : ∀ followLast, files.followWithin followLast fewer [name.toList] place =
      .ok (.entry (place ++ [name]) stored) := by
    intro followLast
    cases stored with
    | directory => rw [followWithin_of_directory hname.1 hstored, followWithin_nil, below_toList]
    | file bytes => rw [followWithin_of_file hname.1 hstored, List.isEmpty_nil, if_pos rfl,
        below_toList]
    | link target => exact absurd rfl (hnolink target)
  rw [hfollow] at hfind hfindNew
  refine ⟨?_, hfindNew⟩
  rw [locate, hfind]
  rfl

/-- A link is found under its name before it is followed. So a walk can tell that it comes through a
link. -/
theorem findNew_join_of_link {target : Path} (hlocate : files.locate path = .ok (place, .directory))
    (hname : IsProperName name) (hstored : files.get? (place ++ [name]) = some (.link target)) :
    files.findNew (path.join ⟨name⟩) = .ok (.entry (place ++ [name]) (.link target)) := by
  obtain ⟨fewer, -, hfindNew⟩ := exists_find_join hlocate hname
  rw [← below_toList] at hstored
  rw [hfindNew, followWithin_name hname.1, hstored, below_toList]
  rfl

end FileSystem

end DefineWrap
