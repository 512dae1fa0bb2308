/-
Making directories and writing files.

Each of them may find that another party has done it already. Making directories replays on the
way of the directory (`FileSystem.replays_makeDirectories`) and writing on the way of the file
(`FileSystem.replays_writeBytes`). Neither takes away a directory or a link.
-/
import DefineWrap.Proofs.Project.Actions

set_option autoImplicit false

namespace DefineWrap

namespace FileSystem

theorem ne_nil_of_endsAt {files : FileSystem} {place : Location} {found : Found}
    (hend : found.EndsAt place) (h : files.get? place = found.stored?) : place ≠ [] := by
  rintro rfl
  rw [get?, if_pos rfl] at h
  cases hend <;> cases h

/-! ## Making directories -/

/-- Making one directory needs a place for it: the way to it must be there, and nothing may be
stored at its end. -/
theorem perform_makeDirectory (files : FileSystem) (path : Path) :
    files.perform (FileAction.makeDirectory path) =
      match files.findNew path with
      | .ok (.absent place) => (.ok (), files.put place .directory)
      | .ok (.entry _ _) => (.error .alreadyThere, files)
      | .error error => (.error error, files) := by
  rw [FileAction.makeDirectory, FileAction.putNew, perform_get_bind]
  rcases files.findNew path with _ | _ | _ <;> rfl

/-- The error of an action is forgiven if the directory is there, by whomever it was made. -/
theorem perform_orDirectory (files : FileSystem) (path : Path) (error : FileError) :
    files.perform (FileAction.orDirectory path error) =
      (if files.isDirectory path then .ok () else .error error, files) := by
  rw [FileAction.orDirectory, perform_get_bind]
  by_cases h : files.isDirectory path = true
  · rw [if_pos h, if_pos h]
    rfl
  · rw [if_neg h, if_neg h]
    rfl

/-- Makes a directory in an existing one, unless it is there already. The two steps of the program,
to make it and to look whether it is there, are one step here. -/
def ensureDirectory (path : Path) : FileAction Unit :=
  tryCatch (FileAction.makeDirectory path) (FileAction.orDirectory path)

theorem perform_ensureDirectory (files : FileSystem) (path : Path) :
    files.perform (ensureDirectory path) =
      match files.findNew path with
      | .ok (.absent place) => (.ok (), files.put place .directory)
      | .ok (.entry _ _) =>
        (if files.isDirectory path then .ok () else .error .alreadyThere, files)
      | .error error => (if files.isDirectory path then .ok () else .error error, files) := by
  rw [ensureDirectory, perform_tryCatch, perform_makeDirectory]
  rcases files.findNew path with _ | _ | _
  · exact perform_orDirectory files path _
  · exact perform_orDirectory files path _
  · rfl

/-- A round of making directories: the parent comes first if it is missing. -/
theorem perform_makeDirectoriesWithin_succ (files : FileSystem) (rounds : Nat) (path : Path) :
    files.perform (FileAction.makeDirectoriesWithin (rounds + 1) path) =
      if path.components = [] then (.ok (), files)
      else
        match files.findNew path, path.parent? with
        | .error .missing, some parent =>
          files.perform do
            FileAction.makeDirectoriesWithin rounds parent
            ensureDirectory path
        | _, _ => files.perform (ensureDirectory path) := by
  rw [FileAction.makeDirectoriesWithin]
  by_cases hnone : path.components = []
  · rw [if_pos hnone, if_pos hnone]
    rfl
  · rw [if_neg hnone, if_neg hnone, perform_tryCatch, perform_makeDirectory,
      perform_ensureDirectory]
    rcases hfound : files.findNew path with error | found | place
    · cases error <;> cases path.parent? <;>
        first | rfl | exact perform_orDirectory files path _
    · exact perform_orDirectory files path _
    · rfl

section Directories

variable {files other : FileSystem} {path parent : Path}

theorem get?_put_directory {place : Location} (h : files.findNew path = .ok (.absent place))
    (place' : Location) : (files.put place .directory).get? place' =
      if place' = place then some .directory else files.get? place' :=
  files.get?_put .directory (ne_nil_of_endsAt .absent (mem_passes_of_findNew h).2) place'

/-- Making sure of a directory makes it where nothing is, or changes nothing. In the second case it
does the same wherever the same is stored on the way, so it replays at once. -/
theorem ensureDirectory_cases (files : FileSystem) (path : Path) :
    (∃ place, files.findNew path = .ok (.absent place) ∧
      files.perform (ensureDirectory path) = (.ok (), files.put place .directory)) ∨
    (files.perform (ensureDirectory path)).2 = files ∧
      ∀ other : FileSystem, (∀ place ∈ files.passes path, other.get? place = files.get? place) →
        other.perform (ensureDirectory path) =
          ((files.perform (ensureDirectory path)).1, other) := by
  cases hfound : files.findNew path with
  | error error =>
    right
    rw [perform_ensureDirectory, hfound]
    refine ⟨rfl, fun other hsame => ?_⟩
    rw [perform_ensureDirectory, findNew_congr hsame, hfound, isDirectory_congr hsame]
  | ok found =>
    cases found with
    | entry place stored =>
      right
      rw [perform_ensureDirectory, hfound]
      refine ⟨rfl, fun other hsame => ?_⟩
      rw [perform_ensureDirectory, findNew_congr hsame, hfound, isDirectory_congr hsame]
    | absent place =>
      left
      rw [perform_ensureDirectory, hfound]
      exact ⟨place, rfl, rfl⟩

theorem grows_ensureDirectory (files : FileSystem) (path : Path) :
    files.Grows (files.perform (ensureDirectory path)).2 := by
  rcases files.ensureDirectory_cases path with ⟨place, hfound, hperform⟩ | ⟨hfiles, -⟩
  · rw [hperform]
    intro place'
    rw [get?_put_directory hfound]
    by_cases hplace : place' = place
    · rw [hplace, if_pos rfl]
      exact .inr ⟨(mem_passes_of_findNew hfound).2, rfl⟩
    · exact .inl (if_neg hplace)
  · rw [hfiles]
    exact .refl files

/-- Where one directory is made, either all is as it was before or all is as it is after. The two
differ at one place only, so a file system that has at each place the one or the other has one of
them as a whole. -/
theorem before_or_after
    (h : Meets files (files.perform (ensureDirectory path)).2
      ((files.perform (ensureDirectory path)).1.isOk = true)
      ((files.perform (ensureDirectory path)).2.passes path) other) :
    (∀ place ∈ files.passes path, other.get? place = files.get? place) ∨
      ∀ place ∈ (files.perform (ensureDirectory path)).2.passes path,
        other.get? place = (files.perform (ensureDirectory path)).2.get? place := by
  rcases files.ensureDirectory_cases path with ⟨place, hfound, hperform⟩ | ⟨hfiles, -⟩
  · obtain ⟨-, -, hpasses⟩ := findNew_put hfound (get?_put_directory hfound)
    rw [hperform, hpasses] at h
    rw [hperform, hpasses]
    -- Both differ at one place only, so what is stored there says which of them it is.
    by_cases hmissing : other.get? place = files.get? place
    · left
      intro place' hmem
      rcases h place' hmem with hsame | ⟨-, hsame⟩
      · exact hsame
      · rw [get?_put_directory hfound] at hsame
        split at hsame
        next heq => rw [heq, hmissing]
        · exact hsame
    · right
      intro place' hmem
      rcases h place' hmem with hsame | ⟨-, hsame⟩
      · have hne : place' ≠ place := by
          rintro rfl
          exact hmissing hsame
        rw [get?_put_directory hfound, if_neg hne, hsame]
      · exact hsame
  · rw [hfiles] at h ⊢
    exact .inl fun place' hmem => (h place' hmem).elim id And.right

/-- **Making sure of a directory replays.** If the directory is there already, it is found. -/
theorem replays_ensureDirectory (files : FileSystem) (path : Path) :
    Replays (ensureDirectory path) files
      ((files.perform (ensureDirectory path)).2.passes path) := by
  intro other hmeets
  have hcases := before_or_after hmeets
  rcases files.ensureDirectory_cases path with ⟨place, hfound, hperform⟩ | ⟨hfiles, hother⟩
  · obtain ⟨hthere, hdirectory, hpasses⟩ := findNew_put hfound (get?_put_directory hfound)
    rw [hperform] at hcases ⊢
    rcases hcases with hsame | hsame
    · have hfound' := (findNew_congr hsame).trans hfound
      rw [hpasses, perform_ensureDirectory, hfound']
      refine ⟨rfl, fun place' hmem => ?_, fun place' hmem => ?_⟩
      · rw [get?_put_directory hfound, get?_put_directory hfound', hsame place' hmem]
      · have hne : place' ≠ place := by
          rintro rfl
          exact hmem (mem_passes_of_findNew hfound).1
        rw [get?_put_directory hfound', if_neg hne]
    · rw [perform_ensureDirectory, findNew_congr hsame, hthere, isDirectory_congr hsame,
        if_pos hdirectory]
      exact ⟨rfl, hsame, fun _ _ => rfl⟩
  · rw [hfiles] at hcases ⊢
    have hsame := hcases.elim id id
    rw [hother other hsame]
    exact ⟨rfl, hsame, fun _ _ => rfl⟩

/-- What is missing on the way then was missing before: a directory that was made for itself has not
taken anything away. -/
theorem findNew_of_meets
    (hmeets : Meets files (files.perform (ensureDirectory path)).2
      ((files.perform (ensureDirectory path)).1.isOk = true)
      ((files.perform (ensureDirectory path)).2.passes path) other)
    (h : other.findNew path = .error .missing) : files.findNew path = .error .missing := by
  rcases before_or_after hmeets with hsame | hsame
  · rw [← findNew_congr hsame, h]
  · have hafter := (findNew_congr hsame).symm.trans h
    rcases files.ensureDirectory_cases path with ⟨place, hfound, hperform⟩ | ⟨hfiles, -⟩
    · rw [hperform, (findNew_put hfound (get?_put_directory hfound)).1] at hafter
      cases hafter
    · rwa [hfiles] at hafter

/-- What is missing on the way of the parent is missing there still when the directory is made. If
something were missing there, the way to the directory would have broken off. -/
theorem get?_ensureDirectory_of_mem_parent (hparent : path.parent? = some parent) {place : Location}
    (h : place ∈ files.passes parent) :
    (files.perform (ensureDirectory path)).2.get? place = files.get? place := by
  rcases files.ensureDirectory_cases path with ⟨made, hfound, hperform⟩ | ⟨hfiles, -⟩
  · rw [hperform, get?_put_directory hfound, if_neg]
    rintro rfl
    -- The way would have ended there.
    have hblocked := (find_of_blocked hparent
      ⟨place, h, blocked?_of_none (mem_passes_of_findNew hfound).2⟩).2
    rw [hfound] at hblocked
    cases hblocked
  · rw [hfiles]

/-- **Making directories is making sure of some of them**, one after the other. So a relation
between before and after, that goes on from one step to the next, has to be proved for one step. -/
theorem makeDirectoriesWithin_induction {related : FileSystem → FileSystem → Prop}
    (refl : ∀ files, related files files)
    (trans : ∀ {before next after}, related before next → related next after →
      related before after)
    (ensure : ∀ (files : FileSystem) path,
      related files (files.perform (ensureDirectory path)).2)
    (rounds : Nat) (files : FileSystem) (path : Path) :
    related files (files.perform (FileAction.makeDirectoriesWithin rounds path)).2 := by
  induction rounds generalizing files path with
  | zero => exact refl files
  | succ rounds ih =>
    rw [perform_makeDirectoriesWithin_succ]
    split
    · exact refl files
    · split
      next parent _ _ =>
        rw [perform_bind]
        have hparent := ih files parent
        rcases hperform : files.perform (FileAction.makeDirectoriesWithin rounds parent) with
          ⟨_ | _, next⟩
        · rwa [hperform] at hparent
        · rw [hperform] at hparent
          exact trans hparent (ensure next path)
      · exact ensure files path

theorem grows_makeDirectoriesWithin (rounds : Nat) (files : FileSystem) (path : Path) :
    files.Grows (files.perform (FileAction.makeDirectoriesWithin rounds path)).2 :=
  makeDirectoriesWithin_induction .refl .trans grows_ensureDirectory rounds files path

/-- If a directory on the way is missing, those up to the parent are made first. -/
theorem perform_makeDirectoriesWithin_of_missing {rounds : Nat} (hnone : path.components ≠ [])
    (hmissing : files.findNew path = .error .missing) (hparent : path.parent? = some parent) :
    files.perform (FileAction.makeDirectoriesWithin (rounds + 1) path) =
      files.perform
        (FileAction.makeDirectoriesWithin rounds parent >>= fun _ => ensureDirectory path) := by
  rw [perform_makeDirectoriesWithin_succ, if_neg hnone, hmissing, hparent]

/-- Otherwise it is only the last one that is made, or there is nothing to be done about an
error. -/
theorem perform_makeDirectoriesWithin_of_not_missing {rounds : Nat} (hnone : path.components ≠ [])
    (h : path.parent? = none ∨ files.findNew path ≠ .error .missing) :
    files.perform (FileAction.makeDirectoriesWithin (rounds + 1) path) =
      files.perform (ensureDirectory path) := by
  rw [perform_makeDirectoriesWithin_succ, if_neg hnone]
  split
  next parent hmissing hparent =>
    rcases h with h | h
    · rw [hparent] at h
      cases h
    · exact absurd hmissing h
  · rfl

section Parent

variable {first : FileAction Unit}

/-- The directories up to the parent, and then the last one. The last one is not on the way of the
parent, as `Replays.bind_of_parent` asks. -/
theorem replays_bind_ensureDirectory (hparent : path.parent? = some parent)
    (h : Replays first files ((files.perform first).2.passes parent)) :
    Replays (first >>= fun _ => ensureDirectory path) files
      ((files.perform (first >>= fun _ => ensureDirectory path)).2.passes path) :=
  h.bind_of_parent hparent (fun next _ => replays_ensureDirectory next path)
    (fun next _ => (next.grows_ensureDirectory path).passes_subset path)
    fun _ _ _ hplace => get?_ensureDirectory_of_mem_parent hparent hplace

/-- Where the directories up to the parent are there already, only the last one is left to make.
Here the other file system takes fewer rounds, and the middle state of the first run has to be found
for it. -/
theorem replays_ensureDirectory_of_parent (hparent : path.parent? = some parent)
    (hgrows : files.Grows (files.perform first).2)
    (h : Replays first files ((files.perform first).2.passes parent))
    (hmissing : files.findNew path = .error .missing)
    (hmeets : Meets files (files.perform (first >>= fun _ => ensureDirectory path)).2
      ((files.perform (first >>= fun _ => ensureDirectory path)).1.isOk = true)
      ((files.perform (first >>= fun _ => ensureDirectory path)).2.passes path) other)
    (hother : other.findNew path ≠ .error .missing) :
    ∃ next : FileSystem, (∀ place ∉ next.passes parent, next.get? place = files.get? place) ∧
      files.perform (first >>= fun _ => ensureDirectory path) =
        next.perform (ensureDirectory path) ∧
      ∀ place ∈ next.passes parent, other.get? place = next.get? place := by
  have hunchanged : ∀ place ∉ (files.perform first).2.passes parent,
      (files.perform first).2.get? place = files.get? place := fun place => h.get?_of_notMem
  rw [perform_bind] at hmeets ⊢
  rcases hfirst : files.perform first with ⟨error | value, next⟩
  · -- Nothing has been made with success, so all is as it was, and it is missing.
    rw [hfirst] at hmeets hgrows
    have hsame : ∀ place ∈ files.passes path, other.get? place = files.get? place := by
      intro place hplace
      rcases hmeets place (hgrows.passes_subset path hplace) with hsame | ⟨hok, -⟩
      · exact hsame
      · cases hok
    exact absurd ((findNew_congr hsame).trans hmissing) hother
  · rw [hfirst] at hmeets hgrows hunchanged
    refine ⟨next, hunchanged, rfl, ?_⟩
    have hle : ∀ place ∈ next.passes parent,
        other.get? place = next.get? place ∨ other.get? place = none := by
      intro place hplace
      have hmem := (next.grows_ensureDirectory path).passes_subset path
        (passes_parent_subset hparent hplace)
      rcases hmeets place hmem with hsame | ⟨-, hsame⟩
      · rcases hgrows place with hthere | ⟨hthere, -⟩
        · exact .inl (hsame.trans hthere.symm)
        · exact .inr (hsame.trans hthere)
      · exact .inl (hsame.trans (get?_ensureDirectory_of_mem_parent hparent hplace))
    rcases (passWithin_of_le hle).2 with hall | ⟨place, hplace, hgone⟩
    · exact hall
    · exact absurd (find_of_blocked hparent ⟨place, hplace, blocked?_of_none hgone⟩).2 hother

end Parent

/-- **Making directories replays**, however many of them are there already. By induction over the
rounds; the two file systems may take the same branch or, if another party has made the parent,
different ones. -/
theorem replays_makeDirectoriesWithin (rounds : Nat) (files : FileSystem) (path : Path) :
    Replays (FileAction.makeDirectoriesWithin rounds path) files
      ((files.perform (FileAction.makeDirectoriesWithin rounds path)).2.passes path) := by
  induction rounds generalizing files path with
  | zero => exact .of_unchanged rfl fun _ _ => rfl
  | succ rounds ih =>
    by_cases hnone : path.components = []
    · have hperform : ∀ files : FileSystem,
          files.perform (FileAction.makeDirectoriesWithin (rounds + 1) path) = (.ok (), files) := by
        intro files
        rw [perform_makeDirectoriesWithin_succ, if_pos hnone]
      exact .of_unchanged (by rw [hperform]) fun other _ => by rw [hperform, hperform]
    · intro other hmeets
      by_cases hlast : path.parent? = none ∨ files.findNew path ≠ .error .missing
      · rw [perform_makeDirectoriesWithin_of_not_missing hnone hlast] at hmeets ⊢
        have hother : path.parent? = none ∨ other.findNew path ≠ .error .missing :=
          hlast.imp_right fun hfound hmissing => hfound (findNew_of_meets hmeets hmissing)
        rw [perform_makeDirectoriesWithin_of_not_missing hnone hother]
        exact replays_ensureDirectory files path other hmeets
      · rw [not_or, ne_eq, Classical.not_not, ← ne_eq, Option.ne_none_iff_exists'] at hlast
        obtain ⟨⟨parent, hparent⟩, hmissing⟩ := hlast
        rw [perform_makeDirectoriesWithin_of_missing hnone hmissing hparent] at hmeets ⊢
        -- The parent is made first. Where the directory is not missing in the other file system,
        -- the parent is there already, and the rounds differ: there it is made at once.
        by_cases hother : other.findNew path = .error .missing
        · rw [perform_makeDirectoriesWithin_of_missing hnone hother hparent]
          exact replays_bind_ensureDirectory hparent (ih files parent) other hmeets
        · obtain ⟨next, hunchanged, hnext, hsame⟩ := replays_ensureDirectory_of_parent hparent
            (grows_makeDirectoriesWithin rounds files parent) (ih files parent) hmissing hmeets
            hother
          rw [perform_makeDirectoriesWithin_of_not_missing hnone (.inr hother)]
          rw [hnext] at hmeets ⊢
          refine replays_ensureDirectory next path other fun place hplace => ?_
          by_cases hway : place ∈ next.passes parent
          · exact .inl (hsame place hway)
          · rw [hunchanged place hway]
            exact hmeets place hplace

/-- The same for one round more than the path has components, which is enough to come up to the
root. -/
theorem replays_makeDirectories (files : FileSystem) (path : Path) :
    Replays (FileAction.makeDirectories path) files
      ((files.perform (FileAction.makeDirectories path)).2.passes path) :=
  replays_makeDirectoriesWithin _ files path

theorem grows_makeDirectories (files : FileSystem) (path : Path) :
    files.Grows (files.perform (FileAction.makeDirectories path)).2 :=
  grows_makeDirectoriesWithin _ files path

end Directories

/-! ## Writing -/

section Writing

variable {files other : FileSystem} {path : Path} {bytes : ByteArray}

/-- A path that ends in a slash is not written to. With which error depends on what there is. -/
theorem perform_writeBytes_of_slash {before : List Piece} (h : path.pieces.reverse = [] :: before)
    (files : FileSystem) (bytes : ByteArray) :
    files.perform (FileAction.writeBytes path bytes) =
      (match files.followWithin true maxLinks
          (((before.dropWhile List.isEmpty).drop 1).reverse ++ [[]]) [] with
        | .error error => .error error
        | .ok _ => .error .isDirectory, files) := by
  rw [FileAction.writeBytes, perform_get_bind, h]
  dsimp only
  cases files.followWithin true maxLinks
      (((before.dropWhile List.isEmpty).drop 1).reverse ++ [[]]) [] with
  | error error => rfl
  | ok found => rfl

/-- Any other path is written to, if it leads to a file or to nothing. -/
theorem perform_writeBytes_of_find (h : ∀ before, path.pieces.reverse ≠ [] :: before)
    (files : FileSystem) (bytes : ByteArray) :
    files.perform (FileAction.writeBytes path bytes) =
      match files.find path with
      | .error error => (.error error, files)
      | .ok (.entry _ .directory) => (.error .isDirectory, files)
      | .ok (.entry place _) => (.ok (), files.put place (.file bytes))
      | .ok (.absent place) => (.ok (), files.put place (.file bytes)) := by
  rw [FileAction.writeBytes, perform_get_bind]
  split
  next before hpieces => exact absurd hpieces (h before)
  · rcases files.find path with _ | ⟨_, _ | _ | _⟩ | _ <;> rfl

/-- The way to the directory that a path with a slash at its end leads into is a part of its own
way. -/
theorem passWithin_slash_subset {before : List Piece} (h : path.pieces.reverse = [] :: before) :
    files.passWithin maxLinks (((before.dropWhile List.isEmpty).drop 1).reverse ++ [[]]) [] ⊆
      files.passes path := by
  have hpieces : path.pieces = ((before.dropWhile List.isEmpty).drop 1).reverse ++
      (((before.dropWhile List.isEmpty).take 1).reverse ++
        (before.takeWhile List.isEmpty).reverse ++ [[]]) := by
    rw [← List.append_assoc, ← List.append_assoc, ← List.reverse_append, List.take_append_drop,
      ← List.reverse_append, List.takeWhile_append_dropWhile, ← List.reverse_cons, ← h,
      List.reverse_reverse]
  have hsteps : Piece.steps (((before.dropWhile List.isEmpty).drop 1).reverse ++ [[]]) =
      Piece.steps ((before.dropWhile List.isEmpty).drop 1).reverse := by
    rw [Piece.steps_append]
    exact List.append_nil _
  rw [passWithin_congr_steps hsteps, passes, hpieces]
  exact passWithin_append maxLinks _ _ []

/-- Writing stores a file where the path leads, or fails and changes nothing. Both are said for any
other file system in which the path leads to the same, so nothing about the path has to be asked
again. -/
theorem writeBytes_cases (files : FileSystem) (path : Path) (bytes : ByteArray) :
    (∃ place found, files.find path = .ok found ∧ found.EndsAt place ∧
      ∀ (other : FileSystem) (found' : Found), other.find path = .ok found' →
        found'.EndsAt place → other.perform (FileAction.writeBytes path bytes) =
          (.ok (), other.put place (.file bytes))) ∨
    ∃ error, ∀ other : FileSystem,
      (∀ place ∈ files.passes path, other.get? place = files.get? place) →
        other.perform (FileAction.writeBytes path bytes) = (.error error, other) := by
  by_cases hslash : ∃ before, path.pieces.reverse = [] :: before
  -- A slash at the end asks for a directory, so this fails whatever is found.
  · obtain ⟨before, hbefore⟩ := hslash
    have hfollow : ∀ other : FileSystem,
        (∀ place ∈ files.passes path, other.get? place = files.get? place) →
          other.followWithin true maxLinks
              (((before.dropWhile List.isEmpty).drop 1).reverse ++ [[]]) [] =
            files.followWithin true maxLinks
              (((before.dropWhile List.isEmpty).drop 1).reverse ++ [[]]) [] := by
      intro other hsame
      exact followWithin_congr true fun place hplace =>
        hsame place (passWithin_slash_subset hbefore hplace)
    right
    cases hfound : files.followWithin true maxLinks
        (((before.dropWhile List.isEmpty).drop 1).reverse ++ [[]]) [] with
    | error error =>
      refine ⟨error, fun other hsame => ?_⟩
      rw [perform_writeBytes_of_slash hbefore, hfollow other hsame, hfound]
    | ok found =>
      refine ⟨.isDirectory, fun other hsame => ?_⟩
      rw [perform_writeBytes_of_slash hbefore, hfollow other hsame, hfound]
  · have hbefore : ∀ before, path.pieces.reverse ≠ [] :: before := not_exists.1 hslash
    -- Otherwise it is up to what is found whether it is written to.
    have hwrites : ∀ (place : Location) (other : FileSystem) (found' : Found),
        other.find path = .ok found' → found'.EndsAt place →
          other.perform (FileAction.writeBytes path bytes) =
            (.ok (), other.put place (.file bytes)) := by
      intro place other found' hfound hend
      rw [perform_writeBytes_of_find hbefore, hfound]
      cases hend <;> rfl
    cases hfound : files.find path with
    | error error =>
      refine .inr ⟨error, fun other hsame => ?_⟩
      rw [perform_writeBytes_of_find hbefore, find_congr hsame, hfound]
    | ok found =>
      cases found with
      | absent place => exact .inl ⟨place, _, rfl, .absent, hwrites place⟩
      | entry place stored =>
        cases stored with
        | file old => exact .inl ⟨place, _, rfl, .file old, hwrites place⟩
        | directory =>
          refine .inr ⟨.isDirectory, fun other hsame => ?_⟩
          rw [perform_writeBytes_of_find hbefore, find_congr hsame, hfound]
        | link target => exact absurd rfl (ne_link_of_followWithin hfound target)

theorem get?_put_file {found : Found} {place : Location} (h : files.find path = .ok found)
    (hend : found.EndsAt place) (bytes : ByteArray) (place' : Location) :
    (files.put place (.file bytes)).get? place' =
      if place' = place then some (.file bytes) else files.get? place' :=
  files.get?_put (.file bytes) (ne_nil_of_endsAt hend (mem_passWithin_of_endsAt h hend).2) place'

/-- **Writing replays.** If the file is there already, it is written once more with the same
bytes. -/
theorem replays_writeBytes (files : FileSystem) (path : Path) (bytes : ByteArray) :
    Replays (FileAction.writeBytes path bytes) files
      ((files.perform (FileAction.writeBytes path bytes)).2.passes path) := by
  rcases files.writeBytes_cases path bytes with
    ⟨place, found, hfound, hend, hwrites⟩ | ⟨error, hfails⟩
  · have hput := get?_put_file hfound hend bytes
    obtain ⟨hthere, hpasses⟩ := find_put hfound hend hput
    rw [Replays, hwrites files found hfound hend, hpasses]
    intro other hmeets
    have hbeside : ∀ place' ∈ files.passes path, place' ≠ place →
        other.get? place' = files.get? place' := by
      intro place' hmem hne
      rcases hmeets place' hmem with hsame | ⟨-, hsame⟩
      · exact hsame
      · rwa [hput, if_neg hne] at hsame
    -- Either way the path leads to the same place.
    have hother : ∃ found', other.find path = .ok found' ∧ found'.EndsAt place := by
      rcases hmeets place (mem_passWithin_of_endsAt hfound hend).1 with hsame | ⟨-, hsame⟩
      · refine ⟨found, (find_congr fun place' hmem => ?_).trans hfound, hend⟩
        by_cases heq : place' = place
        · rw [heq, hsame]
        · exact hbeside place' hmem heq
      · refine ⟨_, (find_congr fun place' hmem => ?_).trans hthere, .file bytes⟩
        by_cases heq : place' = place
        · rw [heq, hsame]
        · rw [hbeside place' (hpasses ▸ hmem) heq, hput, if_neg heq]
    obtain ⟨found', hfound', hend'⟩ := hother
    rw [hwrites other found' hfound' hend']
    refine ⟨rfl, fun place' hmem => ?_, fun place' hmem => ?_⟩
    · rw [get?_put_file hfound' hend', hput]
      by_cases heq : place' = place
      · rw [if_pos heq, if_pos heq]
      · rw [if_neg heq, if_neg heq, hbeside place' hmem heq]
    · rw [get?_put_file hfound' hend', if_neg]
      rintro rfl
      exact hmem (mem_passWithin_of_endsAt hfound hend).1
  · have hperform := hfails files fun _ _ => rfl
    rw [hperform]
    refine .of_unchanged (by rw [hperform]) fun other hsame => ?_
    rw [hfails other hsame, hperform]

theorem passes_writeBytes (files : FileSystem) (path : Path) (bytes : ByteArray) :
    (files.perform (FileAction.writeBytes path bytes)).2.passes path = files.passes path := by
  rcases files.writeBytes_cases path bytes with
    ⟨place, found, hfound, hend, hwrites⟩ | ⟨error, hfails⟩
  · rw [hwrites files found hfound hend]
    exact (find_put hfound hend (get?_put_file hfound hend bytes)).2
  · rw [hfails files fun _ _ => rfl]

/-- Writing changes no directory and no link, since a file is stored where nothing or a file was. -/
theorem keeps_writeBytes (files : FileSystem) (path : Path) (bytes : ByteArray) :
    files.Keeps (files.perform (FileAction.writeBytes path bytes)).2 := by
  rcases files.writeBytes_cases path bytes with
    ⟨place, found, hfound, hend, hwrites⟩ | ⟨error, hfails⟩
  · rw [hwrites files found hfound hend]
    intro place' stored hstored hnofile
    rw [get?_put_file hfound hend, if_neg, hstored]
    rintro rfl
    rw [(mem_passWithin_of_endsAt hfound hend).2] at hstored
    cases hend with
    | absent => cases hstored
    | file old => exact hnofile old (Option.some.inj hstored).symm
  · rw [hfails files fun _ _ => rfl]
    exact fun place stored hstored _ => hstored

/-- What is written is not on the way to the directory that it is in. A file on that way would have
blocked it. -/
theorem get?_writeBytes_of_mem_parent {parent : Path} (hparent : path.parent? = some parent)
    {place : Location} (h : place ∈ files.passes parent) :
    (files.perform (FileAction.writeBytes path bytes)).2.get? place = files.get? place := by
  rcases files.writeBytes_cases path bytes with
    ⟨made, found, hfound, hend, hwrites⟩ | ⟨error, hfails⟩
  · rw [hwrites files found hfound hend, get?_put_file hfound hend, if_neg]
    rintro rfl
    -- The way would have ended there.
    have hblocked : ∃ error, files.blocked? place = some error := by
      have hstored := (mem_passWithin_of_endsAt hfound hend).2
      cases hend with
      | absent => exact ⟨_, blocked?_of_none hstored⟩
      | file old => exact ⟨_, blocked?_of_file hstored⟩
    obtain ⟨error, hblocked⟩ := hblocked
    have herror := (find_of_blocked hparent ⟨place, h, hblocked⟩).1
    rw [hfound] at herror
    cases herror
  · rw [hfails files fun _ _ => rfl]

/-- Where a file has been written it is found, and nothing else has changed. -/
theorem exists_find_writeBytes
    (h : (files.perform (FileAction.writeBytes path bytes)).1.isOk = true) :
    ∃ place, (files.perform (FileAction.writeBytes path bytes)).2.find path =
        .ok (.entry place (.file bytes)) ∧
      ∀ other ≠ place,
        (files.perform (FileAction.writeBytes path bytes)).2.get? other = files.get? other := by
  rcases files.writeBytes_cases path bytes with
    ⟨place, found, hfound, hend, hwrites⟩ | ⟨error, hfails⟩
  · rw [hwrites files found hfound hend]
    refine ⟨place, (find_put hfound hend (get?_put_file hfound hend bytes)).1, ?_⟩
    intro other hother
    rw [get?_put_file hfound hend, if_neg hother]
  · rw [hfails files fun _ _ => rfl] at h
    cases h

end Writing

end FileSystem

end DefineWrap
