/-
The places on the way of a path.

What following a path comes to depends only on what is stored at the places that are looked at on
the way, and `FileSystem.passes` lists them. In two file systems that agree on these places a path
leads to the same (`FileSystem.followWithin_congr`).

Directories may be missing in one of the two. Then the way ends at the first one
(`FileSystem.passWithin_of_le`), and so does every longer way, as it does at a file
(`FileSystem.followWithin_of_blocked`).

A way that leads somewhere is the relation `FileSystem.Leads`, with one constructor for each step
(`FileSystem.followWithin_eq_ok_iff`), and what holds of such ways is by induction over it. What is
stored where a way ends is found by the same way (`FileSystem.followWithin_put`).
-/
import DefineWrap.Project.FileSystem
import DefineWrap.Proofs.Project.Paths

set_option autoImplicit false

namespace DefineWrap

namespace Location

/-- The place of a name in a directory. -/
def below (location : Location) (piece : Piece) : Location := location ++ [String.ofList piece]

/-- Where the target of a link begins, for a link in a directory: at the root if the target is
absolute, and otherwise in the directory. -/
def linkBase (location : Location) (target : Path) : Location :=
  if target.isAbsolute then [] else location

end Location

namespace FileSystem

/-! ## One piece of a way -/

section Steps

variable {files : FileSystem} {followLast : Bool} {links : Nat} {piece : Piece}
  {rest : List Piece} {location : Location}

/-- What to do at a link if the given number of links may follow. The recursion over links and the
one over pieces are apart in the program, and this is the seam between them. -/
def followLink (files : FileSystem) (followLast : Bool) :
    Nat → List Piece → Location → Except FileError Found
  | 0, _, _ => .error .tooManyLinks
  | links + 1, pieces, location => files.followWithin followLast links pieces location

/-- Following a way is following its pieces, with one link less at each link. All equations below
unfold one round by this. -/
theorem followWithin_eq : files.followWithin followLast links =
    files.followPieces followLast (files.followLink followLast links) := by
  cases links <;> rfl

theorem followWithin_nil :
    files.followWithin followLast links [] location = .ok (.entry location .directory) := by
  rw [followWithin_eq, followPieces]

theorem followWithin_skip (h : ¬ piece.isStep = true) :
    files.followWithin followLast links (piece :: rest) location =
      files.followWithin followLast links rest location := by
  rw [followWithin_eq, followPieces, if_pos (by simpa using h)]

theorem followWithin_up :
    files.followWithin followLast links (['.', '.'] :: rest) location =
      files.followWithin followLast links rest location.dropLast := by
  rw [followWithin_eq, followPieces, if_neg (by decide), if_pos rfl]

/-- What a name comes to depends on what is stored at its place. The four cases have lemmas of their
own, which the inductions along a way use. -/
theorem followWithin_name (hname : piece.IsName) :
    files.followWithin followLast links (piece :: rest) location =
      match files.get? (location.below piece) with
      | none => if rest.isEmpty then .ok (.absent (location.below piece)) else .error .missing
      | some .directory => files.followWithin followLast links rest (location.below piece)
      | some (.file bytes) =>
        if rest.isEmpty then .ok (.entry (location.below piece) (.file bytes))
        else .error .notDirectory
      | some (.link target) =>
        if rest.isEmpty && !followLast then .ok (.entry (location.below piece) (.link target))
        else
          files.followLink followLast links (target.pieces ++ rest) (location.linkBase target) := by
  have hstep : ¬ (!piece.isStep) = true := by simp [hname.1]
  rw [followWithin_eq, followPieces, if_neg hstep, if_neg hname.2]
  rfl

theorem followWithin_of_none (hname : piece.IsName)
    (h : files.get? (location.below piece) = none) :
    files.followWithin followLast links (piece :: rest) location =
      if rest.isEmpty then .ok (.absent (location.below piece)) else .error .missing := by
  rw [followWithin_name hname, h]

theorem followWithin_of_directory (hname : piece.IsName)
    (h : files.get? (location.below piece) = some .directory) :
    files.followWithin followLast links (piece :: rest) location =
      files.followWithin followLast links rest (location.below piece) := by
  rw [followWithin_name hname, h]

theorem followWithin_of_file (hname : piece.IsName) {bytes : ByteArray}
    (h : files.get? (location.below piece) = some (.file bytes)) :
    files.followWithin followLast links (piece :: rest) location =
      if rest.isEmpty then .ok (.entry (location.below piece) (.file bytes))
      else .error .notDirectory := by
  rw [followWithin_name hname, h]

theorem followWithin_of_lastLink (hname : piece.IsName) {target : Path}
    (h : files.get? (location.below piece) = some (.link target)) :
    files.followWithin followLast 0 (piece :: rest) location =
      if rest.isEmpty && !followLast then .ok (.entry (location.below piece) (.link target))
      else .error .tooManyLinks := by
  rw [followWithin_name hname, h]
  rfl

theorem followWithin_of_link (hname : piece.IsName) {target : Path}
    (h : files.get? (location.below piece) = some (.link target)) :
    files.followWithin followLast (links + 1) (piece :: rest) location =
      if rest.isEmpty && !followLast then .ok (.entry (location.below piece) (.link target))
      else
        files.followWithin followLast links (target.pieces ++ rest) (location.linkBase target) := by
  rw [followWithin_name hname, h]
  rfl

end Steps

/-! ## The places on a way -/

/-- The places that are looked at when pieces are followed from a directory. What to do at a link is
given. It mirrors the way that is followed, case by case, and collects places where that asks what
is stored. -/
def passPieces (files : FileSystem) (atLink : List Piece → Location → List Location) :
    List Piece → Location → List Location
  | [], _ => []
  | piece :: rest, location =>
    if !piece.isStep then passPieces files atLink rest location
    else if piece = ['.', '.'] then passPieces files atLink rest location.dropLast
    else
      location.below piece ::
        match files.get? (location.below piece) with
        | some .directory => passPieces files atLink rest (location.below piece)
        | some (.link target) => atLink (target.pieces ++ rest) (location.linkBase target)
        | _ => []

/-- The places that are looked at when pieces are followed from a directory, over the given number
of links at most. -/
def passWithin (files : FileSystem) : Nat → List Piece → Location → List Location
  | 0 => files.passPieces fun _ _ => []
  | links + 1 => files.passPieces (files.passWithin links)

/-- The places on the way of a path, with the way of a link at its end. What a path comes to depends
on what is stored there and on nothing else (`followWithin_congr`). -/
def passes (files : FileSystem) (path : Path) : List Location :=
  files.passWithin maxLinks path.pieces []

section Passes

variable {files : FileSystem} {links : Nat} {piece : Piece} {rest : List Piece}
  {location : Location}

/-- The places from a link on if the given number of links may follow. -/
def passLink (files : FileSystem) : Nat → List Piece → Location → List Location
  | 0, _, _ => []
  | links + 1, pieces, location => files.passWithin links pieces location

theorem passWithin_eq : files.passWithin links = files.passPieces (files.passLink links) := by
  cases links <;> rfl

theorem passWithin_nil : files.passWithin links [] location = [] := by
  rw [passWithin_eq, passPieces]

theorem passWithin_skip (h : ¬ piece.isStep = true) :
    files.passWithin links (piece :: rest) location = files.passWithin links rest location := by
  rw [passWithin_eq, passPieces, if_pos (by simpa using h)]

theorem passWithin_up :
    files.passWithin links (['.', '.'] :: rest) location =
      files.passWithin links rest location.dropLast := by
  rw [passWithin_eq, passPieces, if_neg (by decide), if_pos rfl]

/-- The way goes on past the place of a name if a directory or a link is stored there. The place
itself is looked at in any case, also if nothing is stored there. -/
theorem passWithin_name (hname : piece.IsName) :
    files.passWithin links (piece :: rest) location =
      location.below piece ::
        match files.get? (location.below piece) with
        | some .directory => files.passWithin links rest (location.below piece)
        | some (.link target) =>
          files.passLink links (target.pieces ++ rest) (location.linkBase target)
        | _ => [] := by
  have hstep : ¬ (!piece.isStep) = true := by simp [hname.1]
  rw [passWithin_eq, passPieces, if_neg hstep, if_neg hname.2]

theorem passWithin_of_none (hname : piece.IsName)
    (h : files.get? (location.below piece) = none) :
    files.passWithin links (piece :: rest) location = [location.below piece] := by
  rw [passWithin_name hname, h]

theorem passWithin_of_directory (hname : piece.IsName)
    (h : files.get? (location.below piece) = some .directory) :
    files.passWithin links (piece :: rest) location =
      location.below piece :: files.passWithin links rest (location.below piece) := by
  rw [passWithin_name hname, h]

theorem passWithin_of_file (hname : piece.IsName) {bytes : ByteArray}
    (h : files.get? (location.below piece) = some (.file bytes)) :
    files.passWithin links (piece :: rest) location = [location.below piece] := by
  rw [passWithin_name hname, h]

theorem passWithin_of_lastLink (hname : piece.IsName) {target : Path}
    (h : files.get? (location.below piece) = some (.link target)) :
    files.passWithin 0 (piece :: rest) location = [location.below piece] := by
  rw [passWithin_name hname, h]
  rfl

theorem passWithin_of_link (hname : piece.IsName) {target : Path}
    (h : files.get? (location.below piece) = some (.link target)) :
    files.passWithin (links + 1) (piece :: rest) location =
      location.below piece ::
        files.passWithin links (target.pieces ++ rest) (location.linkBase target) := by
  rw [passWithin_name hname, h]
  rfl

end Passes

/-- **Induction along a way.** What is stored at the place of a name decides whether the way ends
there, goes on below, or goes on from the target of a link. It goes along the recursion of following
and of passing alike, so what is said of both is said in one induction. -/
theorem way_induction (files : FileSystem) {motive : Nat → List Piece → Location → Prop}
    (nil : ∀ links location, motive links [] location)
    (skip : ∀ links piece rest location, ¬ piece.isStep = true → motive links rest location →
      motive links (piece :: rest) location)
    (up : ∀ links rest location, motive links rest location.dropLast →
      motive links (['.', '.'] :: rest) location)
    (absent : ∀ links piece rest location, piece.IsName →
      files.get? (location.below piece) = none → motive links (piece :: rest) location)
    (directory : ∀ links piece rest location, piece.IsName →
      files.get? (location.below piece) = some .directory →
      motive links rest (location.below piece) → motive links (piece :: rest) location)
    (file : ∀ links piece rest location bytes, piece.IsName →
      files.get? (location.below piece) = some (.file bytes) →
      motive links (piece :: rest) location)
    (lastLink : ∀ piece rest location target, piece.IsName →
      files.get? (location.below piece) = some (.link target) → motive 0 (piece :: rest) location)
    (link : ∀ links piece rest location target, piece.IsName →
      files.get? (location.below piece) = some (.link target) →
      motive links (target.pieces ++ rest) (location.linkBase target) →
      motive (links + 1) (piece :: rest) location)
    (links : Nat) (pieces : List Piece) (location : Location) : motive links pieces location := by
  -- The target of a link may have any number of pieces, so the links that are left count first, and
  -- the pieces only among ways with as many links left.
  induction links using Nat.strongRecOn generalizing pieces location with
  | _ links ihLinks =>
    induction pieces generalizing location with
    | nil => exact nil links location
    | cons piece rest ih =>
      rcases piece.nowhere_or_up_or_isName with hskip | rfl | hname
      · exact skip links piece rest location hskip (ih location)
      · exact up links rest location (ih _)
      · cases hentry : files.get? (location.below piece) with
        | none => exact absent links piece rest location hname hentry
        | some entry =>
          cases entry with
          | directory => exact directory links piece rest location hname hentry (ih _)
          | file bytes => exact file links piece rest location bytes hname hentry
          | link target =>
            cases links with
            | zero => exact lastLink piece rest location target hname hentry
            | succ fewer =>
              exact link fewer piece rest location target hname hentry
                (ihLinks fewer (Nat.lt_succ_self fewer) _ _)

variable {files other : FileSystem} {links : Nat} {pieces more : List Piece} {location : Location}

/-! ## Longer ways -/

theorem followWithin_blanks {blanks : List Piece} (h : Piece.steps blanks = []) (followLast : Bool)
    (links : Nat) (more : List Piece) (location : Location) :
    files.followWithin followLast links (blanks ++ more) location =
      files.followWithin followLast links more location := by
  induction blanks with
  | nil => rw [List.nil_append]
  | cons blank blanks ih =>
    have hskip : ¬ blank.isStep = true := fun hstep => by
      rw [Piece.steps_cons blanks hstep] at h
      cases h
    rw [Piece.steps_cons_of_not_isStep blanks hskip] at h
    rw [List.cons_append, followWithin_skip hskip, ih h]

/-- What comes before the first step of a way is passed over, so a way with steps may be taken to
begin with one. -/
theorem exists_passWithin_eq (files : FileSystem) {piece : Piece}
    (h : Piece.steps pieces = piece :: more) :
    ∃ rest, Piece.steps rest = more ∧ ∀ links location,
      files.passWithin links pieces location = files.passWithin links (piece :: rest) location := by
  induction pieces with
  | nil => cases h
  | cons first rest ih =>
    by_cases hstep : first.isStep = true
    · rw [Piece.steps_cons rest hstep] at h
      obtain ⟨rfl, hrest⟩ := List.cons.inj h
      exact ⟨rest, hrest, fun _ _ => rfl⟩
    · rw [Piece.steps_cons_of_not_isStep rest hstep] at h
      obtain ⟨others, hothers, heq⟩ := ih h
      exact ⟨others, hothers, fun links location => by rw [passWithin_skip hstep, heq]⟩

/-- Only the steps of a way matter for the places on it. That is not so for what it leads to, since
a slash at the end asks for a directory. -/
theorem passWithin_congr_steps (h : Piece.steps more = Piece.steps pieces) :
    files.passWithin links more location = files.passWithin links pieces location := by
  -- Along one way. Where it takes a step, the other one takes the same step next, after pieces that
  -- it passes over.
  induction links, pieces, location using files.way_induction generalizing more with
  | nil links location =>
    rw [passWithin_nil]
    induction more with
    | nil => exact passWithin_nil
    | cons piece rest ih =>
      have hskip : ¬ piece.isStep = true := fun hstep => by
        rw [Piece.steps_cons rest hstep] at h
        cases h
      rw [Piece.steps_cons_of_not_isStep rest hskip] at h
      rw [passWithin_skip hskip, ih h]
  | skip links piece rest location hskip ih =>
    rw [Piece.steps_cons_of_not_isStep rest hskip] at h
    rw [passWithin_skip hskip, ih h]
  | up links rest location ih =>
    rw [Piece.steps_cons rest (by decide)] at h
    obtain ⟨others, hothers, heq⟩ := exists_passWithin_eq files h
    rw [heq, passWithin_up, passWithin_up, ih hothers]
  | absent links piece rest location hname hentry =>
    rw [Piece.steps_cons rest hname.1] at h
    obtain ⟨others, hothers, heq⟩ := exists_passWithin_eq files h
    rw [heq, passWithin_of_none hname hentry, passWithin_of_none hname hentry]
  | directory links piece rest location hname hentry ih =>
    rw [Piece.steps_cons rest hname.1] at h
    obtain ⟨others, hothers, heq⟩ := exists_passWithin_eq files h
    rw [heq, passWithin_of_directory hname hentry, passWithin_of_directory hname hentry,
      ih hothers]
  | file links piece rest location bytes hname hentry =>
    rw [Piece.steps_cons rest hname.1] at h
    obtain ⟨others, hothers, heq⟩ := exists_passWithin_eq files h
    rw [heq, passWithin_of_file hname hentry, passWithin_of_file hname hentry]
  | lastLink piece rest location target hname hentry =>
    rw [Piece.steps_cons rest hname.1] at h
    obtain ⟨others, hothers, heq⟩ := exists_passWithin_eq files h
    rw [heq, passWithin_of_lastLink hname hentry, passWithin_of_lastLink hname hentry]
  | link links piece rest location target hname hentry ih =>
    rw [Piece.steps_cons rest hname.1] at h
    obtain ⟨others, hothers, heq⟩ := exists_passWithin_eq files h
    rw [heq, passWithin_of_link hname hentry, passWithin_of_link hname hentry,
      ih (by rw [Piece.steps_append, Piece.steps_append, hothers])]

/-- A longer way looks at the places of a shorter one, and at more if the shorter one ends in a
directory. -/
theorem passWithin_append (links : Nat) (pieces more : List Piece) (location : Location) :
    files.passWithin links pieces location ⊆ files.passWithin links (pieces ++ more) location := by
  induction links, pieces, location using files.way_induction generalizing more with
  | nil links location =>
    rw [passWithin_nil]
    exact List.nil_subset _
  | skip links piece rest location hskip ih =>
    rw [List.cons_append, passWithin_skip hskip, passWithin_skip hskip]
    exact ih more
  | up links rest location ih =>
    rw [List.cons_append, passWithin_up, passWithin_up]
    exact ih more
  | absent links piece rest location hname hentry =>
    rw [List.cons_append, passWithin_of_none hname hentry, passWithin_of_none hname hentry]
    exact List.Subset.refl _
  | directory links piece rest location hname hentry ih =>
    rw [List.cons_append, passWithin_of_directory hname hentry,
      passWithin_of_directory hname hentry]
    exact List.cons_subset_cons _ (ih more)
  | file links piece rest location bytes hname hentry =>
    rw [List.cons_append, passWithin_of_file hname hentry, passWithin_of_file hname hentry]
    exact List.Subset.refl _
  | lastLink piece rest location target hname hentry =>
    rw [List.cons_append, passWithin_of_lastLink hname hentry,
      passWithin_of_lastLink hname hentry]
    exact List.Subset.refl _
  | link links piece rest location target hname hentry ih =>
    rw [List.cons_append, passWithin_of_link hname hentry, passWithin_of_link hname hentry,
      ← List.append_assoc]
    exact List.cons_subset_cons _ (ih more)

/-! ## Other file systems -/

/-- Where the same is stored at the places on a way, the way leads to the same. -/
theorem followWithin_congr (followLast : Bool)
    (h : ∀ place ∈ files.passWithin links pieces location, other.get? place = files.get? place) :
    other.followWithin followLast links pieces location =
      files.followWithin followLast links pieces location := by
  induction links, pieces, location using files.way_induction with
  | nil links location => rw [followWithin_nil, followWithin_nil]
  | skip links piece rest location hskip ih =>
    rw [passWithin_skip hskip] at h
    rw [followWithin_skip hskip, followWithin_skip hskip, ih h]
  | up links rest location ih =>
    rw [passWithin_up] at h
    rw [followWithin_up, followWithin_up, ih h]
  | absent links piece rest location hname hentry =>
    rw [passWithin_of_none hname hentry, List.forall_mem_singleton, hentry] at h
    rw [followWithin_of_none hname hentry, followWithin_of_none hname h]
  | directory links piece rest location hname hentry ih =>
    rw [passWithin_of_directory hname hentry, List.forall_mem_cons, hentry] at h
    rw [followWithin_of_directory hname hentry, followWithin_of_directory hname h.1, ih h.2]
  | file links piece rest location bytes hname hentry =>
    rw [passWithin_of_file hname hentry, List.forall_mem_singleton, hentry] at h
    rw [followWithin_of_file hname hentry, followWithin_of_file hname h]
  | lastLink piece rest location target hname hentry =>
    rw [passWithin_of_lastLink hname hentry, List.forall_mem_singleton, hentry] at h
    rw [followWithin_of_lastLink hname hentry, followWithin_of_lastLink hname h]
  | link links piece rest location target hname hentry ih =>
    rw [passWithin_of_link hname hentry, List.forall_mem_cons, hentry] at h
    rw [followWithin_of_link hname hentry, followWithin_of_link hname h.1, ih h.2]

/-- One file system has, at the places on a way, what another one has, or nothing. Then it is the
same all along the way, or the way in it has a place that is missing. -/
theorem passWithin_of_le
    (h : ∀ place ∈ files.passWithin links pieces location,
      other.get? place = files.get? place ∨ other.get? place = none) :
    other.passWithin links pieces location ⊆ files.passWithin links pieces location ∧
      ((∀ place ∈ files.passWithin links pieces location, other.get? place = files.get? place) ∨
        ∃ place ∈ other.passWithin links pieces location, other.get? place = none) := by
  -- Where the first place of the way is missing, the way has no other.
  have hfirst : ∀ {links piece rest location} {places : List Location}, piece.IsName →
      location.below piece ∈ places → other.get? (location.below piece) = none →
      other.passWithin links (piece :: rest) location ⊆ places ∧
        ((∀ place ∈ places, other.get? place = files.get? place) ∨
          ∃ place ∈ other.passWithin links (piece :: rest) location, other.get? place = none) := by
    intro links piece rest location places hname hmem hmissing
    rw [passWithin_of_none hname hmissing]
    exact ⟨List.cons_subset.2 ⟨hmem, List.nil_subset _⟩,
      .inr ⟨_, List.mem_singleton_self _, hmissing⟩⟩
  have hlater : ∀ {first : Location} {places places' : List Location},
      other.get? first = files.get? first →
      places ⊆ places' ∧ ((∀ place ∈ places', other.get? place = files.get? place) ∨
        ∃ place ∈ places, other.get? place = none) →
      first :: places ⊆ first :: places' ∧
        ((∀ place ∈ first :: places', other.get? place = files.get? place) ∨
          ∃ place ∈ first :: places, other.get? place = none) := by
    rintro first places places' hsame ⟨hsub, hway⟩
    refine ⟨List.cons_subset_cons _ hsub, hway.imp (fun hall => ?_) ?_⟩
    · exact List.forall_mem_cons.2 ⟨hsame, hall⟩
    · exact Exists.imp fun place hplace => ⟨List.mem_cons_of_mem _ hplace.1, hplace.2⟩
  induction links, pieces, location using files.way_induction with
  | nil links location =>
    rw [passWithin_nil, passWithin_nil]
    exact ⟨List.Subset.refl _, .inl (List.forall_mem_nil _)⟩
  | skip links piece rest location hskip ih =>
    rw [passWithin_skip hskip] at h ⊢
    rw [passWithin_skip hskip]
    exact ih h
  | up links rest location ih =>
    rw [passWithin_up] at h ⊢
    rw [passWithin_up]
    exact ih h
  | absent links piece rest location hname hentry =>
    rw [passWithin_of_none hname hentry, List.forall_mem_singleton, hentry, or_self] at h
    rw [passWithin_of_none hname hentry]
    exact hfirst hname (List.mem_singleton_self _) h
  | directory links piece rest location hname hentry ih =>
    rw [passWithin_of_directory hname hentry, List.forall_mem_cons, hentry] at h
    rw [passWithin_of_directory hname hentry]
    rcases h.1 with hsame | hmissing
    · rw [passWithin_of_directory hname hsame]
      exact hlater (by rw [hsame, hentry]) (ih h.2)
    · exact hfirst hname List.mem_cons_self hmissing
  | file links piece rest location bytes hname hentry =>
    rw [passWithin_of_file hname hentry, List.forall_mem_singleton, hentry] at h
    rw [passWithin_of_file hname hentry]
    rcases h with hsame | hmissing
    · rw [passWithin_of_file hname hsame]
      exact ⟨List.Subset.refl _, .inl (List.forall_mem_singleton.2 (by rw [hsame, hentry]))⟩
    · exact hfirst hname List.mem_cons_self hmissing
  | lastLink piece rest location target hname hentry =>
    rw [passWithin_of_lastLink hname hentry, List.forall_mem_singleton, hentry] at h
    rw [passWithin_of_lastLink hname hentry]
    rcases h with hsame | hmissing
    · rw [passWithin_of_lastLink hname hsame]
      exact ⟨List.Subset.refl _, .inl (List.forall_mem_singleton.2 (by rw [hsame, hentry]))⟩
    · exact hfirst hname List.mem_cons_self hmissing
  | link links piece rest location target hname hentry ih =>
    rw [passWithin_of_link hname hentry, List.forall_mem_cons, hentry] at h
    rw [passWithin_of_link hname hentry]
    rcases h.1 with hsame | hmissing
    · rw [passWithin_of_link hname hsame]
      exact hlater (by rw [hsame, hentry]) (ih h.2)
    · exact hfirst hname List.mem_cons_self hmissing

/-! ## Ways that break off -/

/-- Why a way cannot go on past a place: nothing is stored there, or a file. It says with which
error following breaks off. -/
def blocked? (files : FileSystem) (place : Location) : Option FileError :=
  match files.get? place with
  | none => some .missing
  | some (.file _) => some .notDirectory
  | some _ => none

theorem blocked?_of_none {place : Location} (h : files.get? place = none) :
    files.blocked? place = some .missing := by
  rw [blocked?, h]

theorem blocked?_of_file {place : Location} {bytes : ByteArray}
    (h : files.get? place = some (.file bytes)) : files.blocked? place = some .notDirectory := by
  rw [blocked?, h]

theorem blocked?_of_directory {place : Location} (h : files.get? place = some .directory) :
    files.blocked? place = none := by
  rw [blocked?, h]

theorem blocked?_of_link {place : Location} {target : Path}
    (h : files.get? place = some (.link target)) : files.blocked? place = none := by
  rw [blocked?, h]

/-- A way ends at a place that it cannot go past, if more steps come. Whether it comes to the place
depends on the pieces before only, so the steps that come may be any. -/
theorem followWithin_of_blocked {followLast : Bool} {way : List Piece} {error : FileError}
    (hway : Piece.steps pieces = way ++ more) (hmore : more ≠ [])
    (hblocked : ∃ place ∈ files.passWithin links way location,
      files.blocked? place = some error) :
    files.followWithin followLast links pieces location = .error error := by
  have hlonger : ∀ {rest way : List Piece}, Piece.steps rest = way ++ more →
      rest.isEmpty = false := by
    intro rest way hrest
    cases rest with
    | nil => exact absurd (List.append_eq_nil_iff.1 hrest.symm).2 hmore
    | cons _ _ => rfl
  -- Where the way goes past the first place, it is another one that blocks it.
  have hlater : ∀ {first : Location} {places : List Location}, files.blocked? first = none →
      (∃ place ∈ first :: places, files.blocked? place = some error) →
      ∃ place ∈ places, files.blocked? place = some error := by
    rintro first places hfirst ⟨place, hmem, hplace⟩
    rcases List.mem_cons.1 hmem with rfl | hmem
    · rw [hfirst] at hplace
      cases hplace
    · exact ⟨place, hmem, hplace⟩
  induction links, pieces, location using files.way_induction generalizing way with
  | nil links location => exact absurd (List.append_eq_nil_iff.1 hway.symm).2 hmore
  | skip links piece rest location hskip ih =>
    rw [Piece.steps_cons_of_not_isStep rest hskip] at hway
    rw [followWithin_skip hskip]
    exact ih hway hblocked
  | up links rest location ih =>
    rw [Piece.steps_cons rest (by decide), List.cons_eq_append_iff] at hway
    rcases hway with ⟨rfl, -⟩ | ⟨way, rfl, hrest⟩
    · simp [passWithin_nil] at hblocked
    · rw [passWithin_up] at hblocked
      rw [followWithin_up]
      exact ih hrest hblocked
  | absent links piece rest location hname hentry =>
    rw [Piece.steps_cons rest hname.1, List.cons_eq_append_iff] at hway
    rcases hway with ⟨rfl, -⟩ | ⟨way, rfl, hrest⟩
    · simp [passWithin_nil] at hblocked
    · simp [passWithin_of_none hname hentry, blocked?_of_none hentry] at hblocked
      rw [followWithin_of_none hname hentry, hlonger hrest, ← hblocked]
      rfl
  | directory links piece rest location hname hentry ih =>
    rw [Piece.steps_cons rest hname.1, List.cons_eq_append_iff] at hway
    rcases hway with ⟨rfl, -⟩ | ⟨way, rfl, hrest⟩
    · simp [passWithin_nil] at hblocked
    · rw [passWithin_of_directory hname hentry] at hblocked
      rw [followWithin_of_directory hname hentry]
      exact ih hrest (hlater (blocked?_of_directory hentry) hblocked)
  | file links piece rest location bytes hname hentry =>
    rw [Piece.steps_cons rest hname.1, List.cons_eq_append_iff] at hway
    rcases hway with ⟨rfl, -⟩ | ⟨way, rfl, hrest⟩
    · simp [passWithin_nil] at hblocked
    · simp [passWithin_of_file hname hentry, blocked?_of_file hentry] at hblocked
      rw [followWithin_of_file hname hentry, hlonger hrest, ← hblocked]
      rfl
  | lastLink piece rest location target hname hentry =>
    rw [Piece.steps_cons rest hname.1, List.cons_eq_append_iff] at hway
    rcases hway with ⟨rfl, -⟩ | ⟨way, rfl, hrest⟩
    · simp [passWithin_nil] at hblocked
    · simp [passWithin_of_lastLink hname hentry, blocked?_of_link hentry] at hblocked
  | link links piece rest location target hname hentry ih =>
    rw [Piece.steps_cons rest hname.1, List.cons_eq_append_iff] at hway
    rcases hway with ⟨rfl, -⟩ | ⟨way, rfl, hrest⟩
    · simp [passWithin_nil] at hblocked
    · have hsame : files.passWithin links (Piece.steps target.pieces ++ way)
          (location.linkBase target) =
            files.passWithin links (target.pieces ++ way) (location.linkBase target) :=
        passWithin_congr_steps (by simp)
      rw [passWithin_of_link hname hentry, ← hsame] at hblocked
      rw [followWithin_of_link hname hentry, hlonger hrest, Bool.false_and,
        if_neg Bool.false_ne_true]
      refine ih ?_ (hlater (blocked?_of_link hentry) hblocked)
      rw [Piece.steps_append, hrest, List.append_assoc]

/-! ## What a way leads to -/

/-- What a way leads to, one constructor for each step of it. A file, a place where nothing is
stored, and a link that is not followed are found only under the last piece. Statements about what
was found are by induction over this, without the cases where following fails. -/
inductive Leads (files : FileSystem) (followLast : Bool) :
    Nat → List Piece → Location → Found → Prop
  | nil (links : Nat) (location : Location) :
    Leads files followLast links [] location (.entry location .directory)
  | skip {links : Nat} {piece : Piece} {rest : List Piece} {location : Location} {found : Found}
    (hskip : ¬ piece.isStep = true) (hrest : Leads files followLast links rest location found) :
    Leads files followLast links (piece :: rest) location found
  | up {links : Nat} {rest : List Piece} {location : Location} {found : Found}
    (hrest : Leads files followLast links rest location.dropLast found) :
    Leads files followLast links (['.', '.'] :: rest) location found
  | absent {piece : Piece} {location : Location} (links : Nat) (hname : piece.IsName)
    (hstored : files.get? (location.below piece) = none) :
    Leads files followLast links [piece] location (.absent (location.below piece))
  | directory {links : Nat} {piece : Piece} {rest : List Piece} {location : Location}
    {found : Found} (hname : piece.IsName)
    (hstored : files.get? (location.below piece) = some .directory)
    (hrest : Leads files followLast links rest (location.below piece) found) :
    Leads files followLast links (piece :: rest) location found
  | file {piece : Piece} {location : Location} {bytes : ByteArray} (links : Nat)
    (hname : piece.IsName) (hstored : files.get? (location.below piece) = some (.file bytes)) :
    Leads files followLast links [piece] location (.entry (location.below piece) (.file bytes))
  | lastLink {piece : Piece} {location : Location} {target : Path} (links : Nat)
    (hlast : followLast = false) (hname : piece.IsName)
    (hstored : files.get? (location.below piece) = some (.link target)) :
    Leads files followLast links [piece] location (.entry (location.below piece) (.link target))
  | link {links : Nat} {piece : Piece} {rest : List Piece} {location : Location} {target : Path}
    {found : Found} (hgoes : rest = [] → followLast = true) (hname : piece.IsName)
    (hstored : files.get? (location.below piece) = some (.link target))
    (hrest : Leads files followLast links (target.pieces ++ rest) (location.linkBase target)
      found) :
    Leads files followLast (links + 1) (piece :: rest) location found

section Leads

variable {followLast : Bool} {found : Found}

/-- What is found by following is what the way leads to, along the recursion. -/
theorem leads_of_followWithin
    (h : files.followWithin followLast links pieces location = .ok found) :
    files.Leads followLast links pieces location found := by
  induction links, pieces, location using files.way_induction with
  | nil links location =>
    rw [followWithin_nil] at h
    cases h
    exact .nil links location
  | skip links piece rest location hskip ih =>
    rw [followWithin_skip hskip] at h
    exact .skip hskip (ih h)
  | up links rest location ih =>
    rw [followWithin_up] at h
    exact .up (ih h)
  | absent links piece rest location hname hstored =>
    rw [followWithin_of_none hname hstored] at h
    split at h
    next hlast =>
      cases h
      rw [List.isEmpty_iff.1 hlast]
      exact .absent links hname hstored
    · cases h
  | directory links piece rest location hname hstored ih =>
    rw [followWithin_of_directory hname hstored] at h
    exact .directory hname hstored (ih h)
  | file links piece rest location bytes hname hstored =>
    rw [followWithin_of_file hname hstored] at h
    split at h
    next hlast =>
      cases h
      rw [List.isEmpty_iff.1 hlast]
      exact .file links hname hstored
    · cases h
  | lastLink piece rest location target hname hstored =>
    rw [followWithin_of_lastLink hname hstored] at h
    split at h
    next hlast =>
      cases h
      rw [Bool.and_eq_true, List.isEmpty_iff, Bool.not_eq_true'] at hlast
      obtain ⟨rfl, hlast⟩ := hlast
      exact .lastLink 0 hlast hname hstored
    · cases h
  | link links piece rest location target hname hstored ih =>
    rw [followWithin_of_link hname hstored] at h
    split at h
    next hlast =>
      cases h
      rw [Bool.and_eq_true, List.isEmpty_iff, Bool.not_eq_true'] at hlast
      obtain ⟨rfl, hlast⟩ := hlast
      exact .lastLink (links + 1) hlast hname hstored
    next hgoes => exact .link (by simpa using hgoes) hname hstored (ih h)

/-- **Following a path** comes to what its way leads to. The two say the same; the one is computed,
and over the other there is induction. -/
theorem followWithin_eq_ok_iff :
    files.followWithin followLast links pieces location = .ok found ↔
      files.Leads followLast links pieces location found := by
  refine ⟨leads_of_followWithin, fun h => ?_⟩
  induction h with
  | nil links location => exact followWithin_nil
  | skip hskip _ ih => rw [followWithin_skip hskip, ih]
  | up _ ih => rw [followWithin_up, ih]
  | absent links hname hstored =>
    rw [followWithin_of_none hname hstored]
    rfl
  | directory hname hstored _ ih => rw [followWithin_of_directory hname hstored, ih]
  | file links hname hstored =>
    rw [followWithin_of_file hname hstored]
    rfl
  | lastLink links hlast hname hstored =>
    rw [followWithin_name hname, hstored, hlast]
    rfl
  | link hgoes hname hstored _ ih =>
    rw [followWithin_of_link hname hstored, if_neg (by simpa using hgoes), ih]

end Leads

/-! ## Where a way ends -/

/-- What is stored at the place that was found. -/
def Found.stored? : Found → Option Entry
  | .entry _ stored => some stored
  | .absent _ => none

/-- What is found where a way ends and a file may be written: nothing, or a file. -/
inductive Found.EndsAt (place : Location) : Found → Prop
  | absent : EndsAt place (.absent place)
  | file (bytes : ByteArray) : EndsAt place (.entry place (.file bytes))

/-- A way that ends at a place looks at it, and has found what is stored there. -/
theorem mem_passWithin_of_endsAt {followLast : Bool} {found : Found} {place : Location}
    (h : files.followWithin followLast links pieces location = .ok found)
    (hend : found.EndsAt place) :
    place ∈ files.passWithin links pieces location ∧ files.get? place = found.stored? := by
  -- Only where nothing or a file is stored under the last name does a way end as in `EndsAt`.
  rw [followWithin_eq_ok_iff] at h
  induction h with
  | nil links location => cases hend
  | skip hskip _ ih =>
    rw [passWithin_skip hskip]
    exact ih hend
  | up _ ih =>
    rw [passWithin_up]
    exact ih hend
  | absent links hname hstored =>
    cases hend
    rw [passWithin_of_none hname hstored]
    exact ⟨List.mem_singleton_self _, hstored⟩
  | directory hname hstored _ ih =>
    rw [passWithin_of_directory hname hstored]
    exact (ih hend).imp_left (List.mem_cons_of_mem _)
  | file links hname hstored =>
    cases hend
    rw [passWithin_of_file hname hstored]
    exact ⟨List.mem_singleton_self _, hstored⟩
  | lastLink links _ hname hstored => cases hend
  | link _ hname hstored _ ih =>
    rw [passWithin_of_link hname hstored]
    exact (ih hend).imp_left (List.mem_cons_of_mem _)

/-- **After something is stored at the end of a way**, the way leads there, past the same places. A
link must not be stored there, as it would lead on. -/
theorem followWithin_put {followLast : Bool} {found : Found} {place : Location} {entry : Entry}
    (h : files.followWithin followLast links pieces location = .ok found)
    (hend : found.EndsAt place) (hentry : ∀ target, entry ≠ .link target)
    (hput : ∀ other', other.get? other' =
      if other' = place then some entry else files.get? other') :
    other.followWithin followLast links pieces location = .ok (.entry place entry) ∧
      other.passWithin links pieces location = files.passWithin links pieces location := by
  -- The way goes past directories and links, and these are no places where it ends.
  have hkept : ∀ {other' stored}, files.get? other' = some stored →
      (∀ bytes, stored ≠ .file bytes) → other.get? other' = some stored := by
    intro other' stored hstored hnofile
    rw [hput, if_neg, hstored]
    rintro rfl
    rw [(mem_passWithin_of_endsAt h hend).2] at hstored
    cases hend with
    | absent => cases hstored
    | file bytes => exact hnofile bytes (Option.some.inj hstored).symm
  have hplace : other.get? place = some entry := by rw [hput, if_pos rfl]
  -- At the end of the way the new entry is found there, be it a directory or a file.
  have hlast : ∀ {piece : Piece} {location : Location} (links : Nat), piece.IsName →
      location.below piece = place →
      other.followWithin followLast links [piece] location = .ok (.entry place entry) ∧
        other.passWithin links [piece] location = [place] := by
    rintro piece location links hname rfl
    cases entry with
    | directory =>
      rw [followWithin_of_directory hname hplace, passWithin_of_directory hname hplace,
        followWithin_nil, passWithin_nil]
      exact ⟨rfl, rfl⟩
    | file bytes =>
      rw [followWithin_of_file hname hplace, passWithin_of_file hname hplace]
      exact ⟨rfl, rfl⟩
    | link target => exact absurd rfl (hentry target)
  rw [followWithin_eq_ok_iff] at h
  induction h with
  | nil links location => cases hend
  | skip hskip _ ih =>
    rw [followWithin_skip hskip, passWithin_skip hskip, passWithin_skip hskip]
    exact ih hend
  | up _ ih =>
    rw [followWithin_up, passWithin_up, passWithin_up]
    exact ih hend
  | absent links hname hstored =>
    cases hend
    rw [passWithin_of_none hname hstored]
    exact hlast links hname rfl
  | directory hname hstored _ ih =>
    have hother := hkept hstored fun _ => Entry.noConfusion
    rw [followWithin_of_directory hname hother, passWithin_of_directory hname hother,
      passWithin_of_directory hname hstored]
    exact (ih hend).imp_right (congrArg _)
  | file links hname hstored =>
    cases hend
    rw [passWithin_of_file hname hstored]
    exact hlast links hname rfl
  | lastLink links _ hname hstored => cases hend
  | link hgoes hname hstored _ ih =>
    have hother := hkept hstored fun _ => Entry.noConfusion
    rw [followWithin_of_link hname hother, if_neg (by simpa using hgoes),
      passWithin_of_link hname hother, passWithin_of_link hname hstored]
    exact (ih hend).imp_right (congrArg _)

/-- What is stored on a way that has found something: directories and links, and what was found. So
a way cannot have passed a file, and files may be written without being in its way. -/
theorem get?_of_followWithin {place : Location} {entry : Entry}
    (h : files.followWithin true links pieces location = .ok (.entry place entry)) :
    ∀ other ∈ files.passWithin links pieces location,
      (∃ stored, files.get? other = some stored ∧ ∀ bytes, stored ≠ .file bytes) ∨
        other = place := by
  rw [followWithin_eq_ok_iff] at h
  generalize hfound : Found.entry place entry = found at h
  induction h with
  | nil links location =>
    rw [passWithin_nil]
    exact List.forall_mem_nil _
  | skip hskip _ ih =>
    rw [passWithin_skip hskip]
    exact ih hfound
  | up _ ih =>
    rw [passWithin_up]
    exact ih hfound
  | absent links hname hstored => cases hfound
  | directory hname hstored _ ih =>
    rw [passWithin_of_directory hname hstored]
    exact List.forall_mem_cons.2 ⟨.inl ⟨_, hstored, fun _ => Entry.noConfusion⟩, ih hfound⟩
  | file links hname hstored =>
    cases hfound
    rw [passWithin_of_file hname hstored]
    exact List.forall_mem_singleton.2 (.inr rfl)
  | lastLink links hlast => cases hlast
  | link _ hname hstored _ ih =>
    rw [passWithin_of_link hname hstored]
    exact List.forall_mem_cons.2 ⟨.inl ⟨_, hstored, fun _ => Entry.noConfusion⟩, ih hfound⟩

/-- A way that follows links at its end does not find one. -/
theorem ne_link_of_followWithin {place : Location} {entry : Entry}
    (h : files.followWithin true links pieces location = .ok (.entry place entry))
    (target : Path) : entry ≠ .link target := by
  rintro rfl
  rw [followWithin_eq_ok_iff] at h
  generalize hfound : Found.entry place (.link target) = found at h
  induction h with
  | nil links location => cases hfound
  | skip _ _ ih => exact ih hfound
  | up _ ih => exact ih hfound
  | absent links hname hstored => cases hfound
  | directory _ _ _ ih => exact ih hfound
  | file links hname hstored => cases hfound
  | lastLink links hlast => cases hlast
  | link _ _ _ _ ih => exact ih hfound

/-- Pieces that lead nowhere end a way at a directory, as does a way that does not follow links at
its end and has found one. Needed since a slash at the end of a path is dropped when something new
is made, and not when it is looked for. -/
theorem followWithin_of_new {blanks : List Piece} {place : Location}
    (h : files.followWithin false links pieces location = .ok (.entry place .directory))
    (hblanks : Piece.steps blanks = []) :
    files.followWithin true links (pieces ++ blanks) location = .ok (.entry place .directory) := by
  rw [followWithin_eq_ok_iff] at h
  generalize hfound : Found.entry place .directory = found at h ⊢
  induction h with
  | nil links location =>
    rw [List.nil_append, ← List.append_nil blanks, followWithin_blanks hblanks, followWithin_nil]
  | skip hskip _ ih =>
    rw [List.cons_append, followWithin_skip hskip]
    exact ih hfound
  | up _ ih =>
    rw [List.cons_append, followWithin_up]
    exact ih hfound
  | absent links hname hstored => cases hfound
  | directory hname hstored _ ih =>
    rw [List.cons_append, followWithin_of_directory hname hstored]
    exact ih hfound
  | file links hname hstored => cases hfound
  | lastLink links _ hname hstored => cases hfound
  | link _ hname hstored _ ih =>
    rw [List.cons_append, followWithin_of_link hname hstored, Bool.not_true, Bool.and_false,
      if_neg Bool.false_ne_true, ← List.append_assoc]
    exact ih hfound

/-! ## Paths -/

variable {path parent : Path}

/-- The places on the way of a path can be told from its steps. -/
theorem passes_eq_steps : files.passes path = files.passWithin maxLinks path.steps [] :=
  passWithin_congr_steps (Piece.steps_steps path.pieces).symm

/-- Slashes at the end of a path do not count when something new is made. What is cut off leads
nowhere. -/
theorem exists_newPieces_append (path : Path) :
    ∃ blanks, path.pieces = (path.pieces.reverse.dropWhile List.isEmpty).reverse ++ blanks ∧
      Piece.steps blanks = [] := by
  refine ⟨(path.pieces.reverse.takeWhile List.isEmpty).reverse, ?_, ?_⟩
  · rw [← List.reverse_append, List.takeWhile_append_dropWhile, List.reverse_reverse]
  · rw [Piece.steps, List.filter_reverse, List.reverse_eq_nil_iff, List.filter_eq_nil_iff]
    intro piece hpiece
    rw [List.isEmpty_iff.1 (List.all_eq_true.1 List.all_takeWhile piece hpiece)]
    decide

/-- The steps of a path are still there when the slashes at its end are cut off. -/
theorem steps_newPieces (path : Path) :
    Piece.steps (path.pieces.reverse.dropWhile List.isEmpty).reverse = path.steps := by
  obtain ⟨blanks, heq, hblanks⟩ := exists_newPieces_append path
  rw [Path.steps, heq, Piece.steps_append, hblanks, List.append_nil, ← heq]

/-- Looking for a place for something new passes the same places as looking for what is there. -/
theorem passWithin_newPieces :
    files.passWithin maxLinks (path.pieces.reverse.dropWhile List.isEmpty).reverse [] =
      files.passes path :=
  passWithin_congr_steps (steps_newPieces path)

/-- What is found at a path depends on what is stored on its way. -/
theorem find_congr (h : ∀ place ∈ files.passes path, other.get? place = files.get? place) :
    other.find path = files.find path :=
  followWithin_congr true h

/-- Where something new may be made depends on what is stored on the way. -/
theorem findNew_congr (h : ∀ place ∈ files.passes path, other.get? place = files.get? place) :
    other.findNew path = files.findNew path := by
  rw [← passWithin_newPieces] at h
  exact followWithin_congr false h

/-- Whether a path leads to a directory depends on what is stored on the way. -/
theorem isDirectory_congr (h : ∀ place ∈ files.passes path, other.get? place = files.get? place) :
    other.isDirectory path = files.isDirectory path := by
  rw [isDirectory, isDirectory, locate, locate, find_congr h]

/-- The way of a path goes along that of its parent, which is a beginning of it. -/
theorem passes_parent_subset (h : path.parent? = some parent) :
    files.passes parent ⊆ files.passes path := by
  obtain ⟨last, hsteps, -⟩ := Path.steps_of_parent? h
  rw [passes_eq_steps, passes_eq_steps, hsteps]
  exact passWithin_append maxLinks parent.steps last []

/-- A way that is blocked on the way to the parent ends there, for what is looked for and for what
is to be made alike. -/
theorem find_of_blocked {error : FileError} (h : path.parent? = some parent)
    (hblocked : ∃ place ∈ files.passes parent, files.blocked? place = some error) :
    files.find path = .error error ∧ files.findNew path = .error error := by
  obtain ⟨last, hsteps, hlast⟩ := Path.steps_of_parent? h
  rw [passes_eq_steps] at hblocked
  have hmore : last ≠ [] := by
    intro hnone
    rw [hlast hnone, passWithin_nil] at hblocked
    simp at hblocked
  exact ⟨followWithin_of_blocked hsteps hmore hblocked,
    followWithin_of_blocked ((steps_newPieces path).trans hsteps) hmore hblocked⟩

/-- A place where something new may be made is on the way, and nothing is stored there. -/
theorem mem_passes_of_findNew {place : Location} (h : files.findNew path = .ok (.absent place)) :
    place ∈ files.passes path ∧ files.get? place = none := by
  rw [← passWithin_newPieces]
  exact mem_passWithin_of_endsAt h .absent

/-- A directory that is made at a path is found there, on the same way as before. -/
theorem findNew_put {place : Location} (h : files.findNew path = .ok (.absent place))
    (hput : ∀ other', other.get? other' =
      if other' = place then some .directory else files.get? other') :
    other.findNew path = .ok (.entry place .directory) ∧ other.isDirectory path = true ∧
      other.passes path = files.passes path := by
  obtain ⟨hnew, hpasses⟩ := followWithin_put h .absent (fun _ => Entry.noConfusion) hput
  rw [passWithin_newPieces, passWithin_newPieces] at hpasses
  obtain ⟨blanks, heq, hblanks⟩ := exists_newPieces_append path
  have hfind : other.find path = .ok (.entry place .directory) := by
    rw [find, heq]
    exact followWithin_of_new hnew hblanks
  exact ⟨hnew, by rw [isDirectory, locate, hfind]; rfl, hpasses⟩

/-- What a path leads to has been found on its way; the other results of finding are failures. -/
theorem find_of_locate {place : Location} {entry : Entry}
    (h : files.locate path = .ok (place, entry)) : files.find path = .ok (.entry place entry) := by
  rw [locate] at h
  cases hfound : files.find path with
  | error error =>
    rw [hfound] at h
    cases h
  | ok found =>
    rw [hfound] at h
    cases found <;> cases h
    rfl

theorem ne_link_of_locate {place : Location} {entry : Entry}
    (h : files.locate path = .ok (place, entry)) (target : Path) : entry ≠ .link target :=
  ne_link_of_followWithin (find_of_locate h) target

theorem get?_of_locate {place : Location} {bytes : ByteArray}
    (h : files.locate path = .ok (place, .file bytes)) :
    files.get? place = some (.file bytes) :=
  (mem_passWithin_of_endsAt (find_of_locate h) (.file bytes)).2

/-- A file that is written at a path is found there, on the same way as before. So writing it once
more comes to the same place. -/
theorem find_put {found : Found} {place : Location} {bytes : ByteArray}
    (h : files.find path = .ok found) (hend : found.EndsAt place)
    (hput : ∀ other', other.get? other' =
      if other' = place then some (.file bytes) else files.get? other') :
    other.find path = .ok (.entry place (.file bytes)) ∧
      other.passes path = files.passes path :=
  followWithin_put h hend (fun _ => Entry.noConfusion) hput

end FileSystem

end DefineWrap
