/-
Absolute paths without dots, in file systems without links.

There a path leads to the place that its names spell (`FileSystem.place_of_locate`), so two of these
paths lead to the same place only if they have the same components. The file of a module has such
a path, and it begins with that of the output directory (`ModuleFile.isPlain_outputPath`).
-/
import DefineWrap.Proofs.Project.Containment
import DefineWrap.Proofs.Project.Walks

set_option autoImplicit false

namespace DefineWrap

/-- An absolute path without dots: its components are the root and names. -/
def Path.IsPlain (path : Path) : Prop :=
  ∃ names : List String, path.components = .root :: names.map .normal

/-- No links are stored, so a path cannot lead away from what it spells. -/
def FileSystem.HasNoLinks (files : FileSystem) : Prop :=
  ∀ place target, files.get? place ≠ some (.link target)

namespace Path

variable {path other : Path}

theorem foldl_after_names (names : List String) (place : Location) :
    (names.map Component.normal).foldl Location.after place = place ++ names := by
  induction names generalizing place with
  | nil => exact (List.append_nil place).symm
  | cons name names ih =>
    rw [List.map_cons, List.foldl_cons, ih, Location.after, List.append_assoc]
    rfl

/-- The names of a plain path are those of its place. So plain paths to one place have the same
components. -/
theorem IsPlain.components_eq (h : path.IsPlain) :
    path.components = .root :: path.place.map .normal := by
  obtain ⟨names, hnames⟩ := h
  rw [place, hnames, List.foldl_cons, foldl_after_names]
  rfl

theorem IsPlain.append {names : List String} (h : path.IsPlain)
    (hother : other.components = path.components ++ names.map .normal) : other.IsPlain := by
  obtain ⟨front, hfront⟩ := h
  exact ⟨front ++ names, by rw [hother, hfront, List.map_append, List.cons_append]⟩

/-- The place of a path can be read off its pieces, as following does. -/
theorem place_eq (path : Path) :
    path.place = (path.pieces.filterMap Piece.component?).foldl Location.after [] := by
  rw [place, components_eq, List.foldl_append, steps, Piece.filterMap_component?_steps]
  cases path.beginning <;> rfl

end Path

namespace FileSystem

variable {files : FileSystem} {path : Path}

theorem HasNoLinks.of_entries (h : ∀ entry ∈ files.entries, ∀ target, entry.2 ≠ .link target) :
    files.HasNoLinks := by
  intro place target hstored
  rw [get?] at hstored
  split at hstored
  · cases hstored
  · obtain ⟨front, back, heq, -⟩ := List.lookup_eq_some_iff.1 hstored
    exact h (place, .link target) (by rw [heq]; simp) target rfl

/-- The place where a way ends, be something stored there or not. -/
def Found.place : Found → Location
  | .entry place _ => place
  | .absent place => place

/-- Without links a way ends where its pieces lead. By induction over the way, in which the steps at
a link cannot occur. -/
theorem place_of_followWithin (hlinks : files.HasNoLinks) {followLast : Bool} {links : Nat}
    {pieces : List Piece} {location : Location} {found : Found}
    (h : files.followWithin followLast links pieces location = .ok found) :
    found.place = (pieces.filterMap Piece.component?).foldl Location.after location := by
  have hlast : ∀ {piece : Piece} {location : Location}, piece.IsName → location.below piece =
      ([piece].filterMap Piece.component?).foldl Location.after location := by
    intro piece location hname
    rw [List.filterMap_cons, Piece.component?_of_isName hname]
    rfl
  rw [followWithin_eq_ok_iff] at h
  induction h with
  | nil links location => rfl
  | skip hskip _ ih => rw [List.filterMap_cons, Piece.component?_of_not_isStep hskip, ih]
  | up _ ih => exact ih
  | absent links hname hstored => exact hlast hname
  | directory hname hstored _ ih =>
    rw [List.filterMap_cons, Piece.component?_of_isName hname, ih]
    rfl
  | file links hname hstored => exact hlast hname
  | lastLink links _ hname hstored => exact hlast hname
  | link _ hname hstored _ _ => exact absurd hstored (hlinks _ _)

/-- **Without links a path leads to the place that it spells.** -/
theorem place_of_locate (hlinks : files.HasNoLinks) {place : Location} {stored : Entry}
    (h : files.locate path = .ok (place, stored)) : place = path.place := by
  rw [Path.place_eq]
  exact place_of_followWithin hlinks (find_of_locate h)

end FileSystem

namespace ModuleFile

variable {path root out : Path}

/-- **The path of the file of a module** is plain, and goes on from the output directory. The module
itself may lie elsewhere: then its name alone is put there. -/
theorem isPlain_outputPath (hpath : path.IsPlain) (hplace : path.place ≠ [])
    (hroot : root.isAbsolute = true) (hout : out.IsPlain) :
    (outputPath path root out).IsPlain ∧
      out.components <+: (outputPath path root out).components := by
  have hmore : ∃ names : List String,
      (outputPath path root out).components = out.components ++ names.map .normal := by
    have hcomponents := hpath.components_eq
    rw [outputPath]
    cases hstrip : path.stripPrefix? root with
    | none =>
      obtain ⟨front, name, hname⟩ := (List.eq_nil_or_concat path.place).resolve_left hplace
      have hfileName : path.fileName? = some name := by
        rw [Path.fileName?, hcomponents, hname, List.concat_eq_append, List.map_append,
          ← List.cons_append, List.map_singleton, List.getLast?_concat]
      have hproper := Path.isName_of_mem_components (Path.mem_components_of_fileName? hfileName)
      exact ⟨[name], by
        rw [hfileName, Option.getD_some, FileSystem.components_join_name out hproper]
        rfl⟩
    | some rest =>
      have hroot' := Path.components_ne_nil_of_isAbsolute hroot
      have hjoin : (out.join rest).components = out.components ++ rest.components :=
        Path.components_join (Path.beginning_of_stripPrefix? hstrip hroot')
      have happend := Path.components_of_stripPrefix? hstrip
      -- What is left of a plain path after the root directory are names.
      obtain ⟨first, others, hothers⟩ := List.exists_cons_of_ne_nil hroot'
      rw [hcomponents, hothers, List.cons_append] at happend
      have hrest := (List.cons.inj happend).2
      obtain ⟨front, names, -, -, hnames⟩ := List.map_eq_append_iff.1 hrest
      exact ⟨names, by rw [hjoin, hnames]⟩
  obtain ⟨names, hnames⟩ := hmore
  exact ⟨hout.append hnames, ⟨_, hnames.symm⟩⟩

end ModuleFile

end DefineWrap
