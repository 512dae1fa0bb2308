/-
Actions on files that may be done by several parties.

A directory that one party makes on the way to its file may be there already when another one
comes, which then makes the rest. `FileSystem.Replays` says that this is no matter: an action that
is limited to some places gives the same and leaves the same there, if it finds at each of these
places what was there when it was done for itself, or, provided it succeeded, what it left there.
Elsewhere it changes nothing.

One after the other two actions replay, too (`FileSystem.Replays.bind`), if the second changes
nothing at the places that the first is limited to.
-/
import DefineWrap.Proofs.Project.Following

set_option autoImplicit false

namespace DefineWrap

namespace FileSystem

/-! ## Doing an action -/

section Perform

variable {ε ε' α β : Type}

/-- What an action gives, and the file system after it. An action that fails may have changed files
before it did, so there is a file system in both cases. -/
def perform (files : FileSystem) (action : ExceptT ε (StateM FileSystem) α) :
    Except ε α × FileSystem :=
  action.run.run files

theorem perform_throw (files : FileSystem) (error : ε) :
    files.perform (throw error : ExceptT ε (StateM FileSystem) α) = (.error error, files) := rfl

/-- Two actions one after the other: the second one is done in what the first has left, unless the
first has failed. -/
theorem perform_bind (files : FileSystem) (action : ExceptT ε (StateM FileSystem) α)
    (f : α → ExceptT ε (StateM FileSystem) β) :
    files.perform (action >>= f) =
      match files.perform action with
      | (.ok value, next) => next.perform (f value)
      | (.error error, next) => (.error error, next) := by
  have hrun : files.perform (action >>= f) =
      (ExceptT.bindCont f (files.perform action).1).run (files.perform action).2 := rfl
  rw [hrun]
  rcases files.perform action with ⟨_ | _, next⟩ <;> rfl

/-- After an action that succeeds the next one is done in what it has left. The two cases of
`perform_bind`, for proofs that know which of them they are in. -/
theorem perform_bind_of_ok {files : FileSystem} {action : ExceptT ε (StateM FileSystem) α}
    {f : α → ExceptT ε (StateM FileSystem) β} {value : α}
    (h : (files.perform action).1 = .ok value) :
    files.perform (action >>= f) = (files.perform action).2.perform (f value) := by
  rw [perform_bind]
  rcases hperform : files.perform action with ⟨result, next⟩
  rw [hperform] at h
  subst h
  rfl

theorem perform_bind_of_error {files : FileSystem} {action : ExceptT ε (StateM FileSystem) α}
    {f : α → ExceptT ε (StateM FileSystem) β} {error : ε}
    (h : (files.perform action).1 = .error error) :
    files.perform (action >>= f) = (.error error, (files.perform action).2) := by
  rw [perform_bind]
  rcases hperform : files.perform action with ⟨result, next⟩
  rw [hperform] at h
  subst h
  rfl

/-- What is tried instead of an action that fails is done in the file system that it has left, and
not in the one before. -/
theorem perform_tryCatch (files : FileSystem) (action : ExceptT ε (StateM FileSystem) α)
    (handle : ε → ExceptT ε (StateM FileSystem) α) :
    files.perform (tryCatch action handle) =
      match files.perform action with
      | (.ok value, next) => (.ok value, next)
      | (.error error, next) => next.perform (handle error) := by
  have hrun : files.perform (tryCatch action handle) =
      StateT.run (match (files.perform action).1 with
        | .ok value => (pure (.ok value) : StateM FileSystem (Except ε α))
        | .error error => (handle error).run) (files.perform action).2 := rfl
  rw [hrun]
  rcases files.perform action with ⟨_ | _, next⟩ <;> rfl

theorem perform_get_bind (files : FileSystem) (f : FileSystem → ExceptT ε (StateM FileSystem) α) :
    files.perform (get >>= f) = files.perform (f files) := rfl

theorem perform_adapt (files : FileSystem) (action : ExceptT ε (StateM FileSystem) α)
    (f : ε → ε') :
    files.perform (action.adapt f) =
      ((files.perform action).1.mapError f, (files.perform action).2) := by
  rfl

end Perform

/-- What is stored after something is put at a place below the root. Nothing can be put at the root,
which is a directory whatever is stored. -/
theorem get?_put (files : FileSystem) {place : Location} (entry : Entry) (h : place ≠ [])
    (other : Location) :
    (files.put place entry).get? other =
      if other = place then some entry else files.get? other := by
  have hkept : other ≠ place →
      (files.entries.filter (·.1 ≠ place)).lookup other = files.entries.lookup other := by
    intro hother
    induction files.entries with
    | nil => rfl
    | cons stored rest ih =>
      by_cases hstored : stored.1 = place
      · have hne : (other == stored.1) = false := by simpa [hstored] using hother
        rw [List.filter_cons_of_neg (by simpa using hstored), ih, List.lookup_cons, hne]
      · rw [List.filter_cons_of_pos (by simpa using hstored), List.lookup_cons, List.lookup_cons,
          ih]
  rw [get?, get?, put]
  -- The root is always a directory, and it is not among the entries.
  by_cases hroot : other = []
  · rw [if_pos hroot, if_neg (by rw [hroot]; exact Ne.symm h), if_pos hroot]
  · rw [if_neg hroot, if_neg hroot, List.lookup_append]
    by_cases hother : other = place
    · have hnone : (files.entries.filter (·.1 ≠ place)).lookup place = none := by
        rw [List.lookup_eq_none_iff]
        intro stored hmem
        have hne : stored.1 ≠ place := by simpa using (List.mem_filter.1 hmem).2
        simpa using Ne.symm hne
      rw [if_pos hother, hother, hnone, Option.none_or, List.lookup_cons_self]
    · have hnone : [(place, entry)].lookup other = none := by
        simpa [List.lookup_eq_none_iff] using hother
      rw [if_neg hother, hkept hother, hnone, Option.or_none]

/-! ## Replaying -/

/-- A file system has at some places what was there before, or, if that is done, what is there
after. The places may differ in which of the two it is: another party may have made a part of the
way. -/
def Meets (before after : FileSystem) (done : Prop) (places : List Location)
    (other : FileSystem) : Prop :=
  ∀ place ∈ places,
    other.get? place = before.get? place ∨ done ∧ other.get? place = after.get? place

/-- An action gives the same, leaves the same at some places and changes nothing elsewhere, where it
finds at these places what was there before, or what it has left there with success. The second case
is there only for an action that succeeded: what a failed one has left may be in the way of the
next. -/
def Replays {ε α : Type} (action : ExceptT ε (StateM FileSystem) α) (files : FileSystem)
    (places : List Location) : Prop :=
  ∀ other,
    Meets files (files.perform action).2 ((files.perform action).1.isOk = true) places other →
      (other.perform action).1 = (files.perform action).1 ∧
        (∀ place ∈ places,
          (other.perform action).2.get? place = (files.perform action).2.get? place) ∧
        ∀ place ∉ places, (other.perform action).2.get? place = other.get? place

/-- Directories and links that are there stay. Files may be written over, so nothing is said of
them. -/
def Keeps (before after : FileSystem) : Prop :=
  ∀ place stored, before.get? place = some stored → (∀ bytes, stored ≠ .file bytes) →
    after.get? place = some stored

/-- Some directories are there that were missing, and everything else is as it was. -/
def Grows (before after : FileSystem) : Prop :=
  ∀ place, after.get? place = before.get? place ∨
    before.get? place = none ∧ after.get? place = some .directory

section Replays

variable {ε ε' α β : Type} {files before after other : FileSystem} {path parent : Path}
  {places : List Location}

theorem Grows.refl (files : FileSystem) : files.Grows files := fun _ => .inl rfl

/-- What grows twice grows, since a directory that has been made is not missing the next time. -/
theorem Grows.trans {next : FileSystem} (h : before.Grows next) (h' : next.Grows after) :
    before.Grows after := by
  intro place
  rcases h' place with hsame | ⟨hnone, hmade⟩
  · rw [hsame]
    exact h place
  · rcases h place with hsame | ⟨-, hdirectory⟩
    · rw [← hsame]
      exact .inr ⟨hnone, hmade⟩
    · rw [hnone] at hdirectory
      cases hdirectory

theorem Grows.keeps (h : before.Grows after) : before.Keeps after := by
  intro place stored hstored _
  rcases h place with hsame | ⟨hnone, -⟩
  · rw [hsame, hstored]
  · rw [hnone] at hstored
    cases hstored

theorem Keeps.refl (files : FileSystem) : files.Keeps files := fun _ _ hstored _ => hstored

theorem Keeps.trans {next : FileSystem} (h : before.Keeps next) (h' : next.Keeps after) :
    before.Keeps after :=
  fun place stored hstored hnofile => h' place stored (h place stored hstored hnofile) hnofile

theorem Keeps.adapt {action : ExceptT ε (StateM FileSystem) α} (f : ε → ε')
    (h : files.Keeps (files.perform action).2) :
    files.Keeps (files.perform (action.adapt f)).2 := by
  rwa [perform_adapt]

/-- Directories and links stay under two actions if they stay under each of them, whatever file
system the second one begins with. -/
theorem Keeps.bind {action : ExceptT ε (StateM FileSystem) α}
    {f : α → ExceptT ε (StateM FileSystem) β} (h : files.Keeps (files.perform action).2)
    (hf : ∀ (next : FileSystem) (value : α), next.Keeps (next.perform (f value)).2) :
    files.Keeps (files.perform (action >>= f)).2 := by
  cases hresult : (files.perform action).1 with
  | error error =>
    rw [perform_bind_of_error hresult]
    exact h
  | ok value =>
    rw [perform_bind_of_ok hresult]
    exact h.trans (hf _ value)

/-- Directories that are made later do not take places off a way. A way that broke off at a missing
place goes on past it now. -/
theorem Grows.passes_subset (h : before.Grows after) (path : Path) :
    before.passes path ⊆ after.passes path := by
  refine (passWithin_of_le fun place _ => ?_).1
  rcases h place with hsame | ⟨hnone, -⟩
  · exact .inl hsame.symm
  · exact .inr hnone

/-- An action that is done for itself changes nothing elsewhere. This is what `Replays` says of the
file system before, which meets itself. -/
theorem Replays.get?_of_notMem {action : ExceptT ε (StateM FileSystem) α}
    (h : Replays action files places) {place : Location} (hplace : place ∉ places) :
    (files.perform action).2.get? place = files.get? place :=
  (h files fun _ _ => .inl rfl).2.2 place hplace

/-- An action that changes nothing at all replays if what it gives depends on the places only.
Before and after are the same then, so there are not two cases. -/
theorem Replays.of_unchanged {action : ExceptT ε (StateM FileSystem) α}
    (hfiles : (files.perform action).2 = files)
    (h : ∀ other : FileSystem, (∀ place ∈ places, other.get? place = files.get? place) →
      other.perform action = ((files.perform action).1, other)) :
    Replays action files places := by
  intro other hmeets
  have hsame : ∀ place ∈ places, other.get? place = files.get? place := by
    intro place hplace
    rcases hmeets place hplace with h | ⟨-, h⟩
    · exact h
    · rwa [hfiles] at h
  rw [h other hsame, hfiles]
  exact ⟨rfl, hsame, fun _ _ => rfl⟩

theorem Replays.pure (value : α) :
    Replays (Pure.pure value : ExceptT ε (StateM FileSystem) α) files places :=
  .of_unchanged rfl fun _ _ => rfl

theorem Replays.throw (error : ε) :
    Replays (MonadExcept.throw error : ExceptT ε (StateM FileSystem) α) files places :=
  .of_unchanged rfl fun _ _ => rfl

/-- Another error for an action does not matter, since `Replays` asks only whether there is one. -/
theorem Replays.adapt {action : ExceptT ε (StateM FileSystem) α} (f : ε → ε')
    (h : Replays action files places) : Replays (action.adapt f) files places := by
  intro other hmeets
  rw [perform_adapt, perform_adapt] at *
  have hok : ∀ result : Except ε α, (result.mapError f).isOk = result.isOk := by
    rintro (_ | _) <;> rfl
  rw [hok] at hmeets
  obtain ⟨hresult, hinside, houtside⟩ := h other hmeets
  exact ⟨by rw [hresult], hinside, houtside⟩

/-- **One action after the other.** The second one must leave on the way of the first what is there.
Otherwise a file system could have on this way what the second has put there, and the first would
find neither what was before it nor what it left. -/
theorem Replays.bind {action : ExceptT ε (StateM FileSystem) α}
    {f : α → ExceptT ε (StateM FileSystem) β} {way : List Location}
    (h : Replays action files way)
    (hf : ∀ value, (files.perform action).1 = .ok value →
      Replays (f value) (files.perform action).2 places)
    (hsub : way ⊆ places)
    (hkept : ∀ place ∈ way, (files.perform (action >>= f)).2.get? place =
      (files.perform action).2.get? place) :
    Replays (action >>= f) files places := by
  intro other hmeets
  have hfirst : (files.perform (action >>= f)).1.isOk = true →
      (files.perform action).1.isOk = true := by
    rw [perform_bind]
    rcases files.perform action with ⟨_ | _, next⟩
    · exact id
    · exact fun _ => rfl
  -- The other file system has on the way what was there before or what is there after both actions,
  -- and this is what the first one has left there.
  have hbefore : Meets files (files.perform action).2 ((files.perform action).1.isOk = true) way
      other := by
    intro place hplace
    refine (hmeets place (hsub hplace)).imp_right fun ⟨hok, hsame⟩ => ⟨hfirst hok, ?_⟩
    rw [hsame, hkept place hplace]
  obtain ⟨hresult, hinside, houtside⟩ := h other hbefore
  have hunchanged : ∀ place ∉ way, (files.perform action).2.get? place = files.get? place :=
    fun place => h.get?_of_notMem
  rw [perform_bind, perform_bind files] at *
  rcases hperform : files.perform action with ⟨error | value, next⟩
  · rw [hperform] at hmeets hresult hinside hunchanged
    rcases hother : other.perform action with ⟨result, next'⟩
    rw [hother] at hresult hinside houtside
    subst hresult
    refine ⟨rfl, fun place hplace => ?_, fun place hplace => ?_⟩
    · by_cases hway : place ∈ way
      · exact hinside place hway
      · rcases hmeets place hplace with hsame | ⟨hok, -⟩
        · exact (houtside place hway).trans (hsame.trans (hunchanged place hway).symm)
        · cases hok
    · exact houtside place fun hway => hplace (hsub hway)
  · have hnext := hf value (by rw [hperform])
    rw [hperform] at hmeets hresult hinside hunchanged hnext
    rcases hother : other.perform action with ⟨result, next'⟩
    rw [hother] at hresult hinside houtside
    subst hresult
    -- Now the first action has been done in both. It has made the way alike, and left the rest
    -- alone.
    have hafter : Meets next (next.perform (f value)).2
        ((next.perform (f value)).1.isOk = true) places next' := by
      intro place hplace
      by_cases hway : place ∈ way
      · exact .inl (hinside place hway)
      · refine (hmeets place hplace).imp (fun hsame => ?_) fun ⟨hok, hsame⟩ => ⟨hok, ?_⟩
        · exact (houtside place hway).trans (hsame.trans (hunchanged place hway).symm)
        · exact (houtside place hway).trans hsame
    obtain ⟨hresult', hinside', houtside'⟩ := hnext next' hafter
    refine ⟨hresult', hinside', fun place hplace => ?_⟩
    exact (houtside' place hplace).trans (houtside place fun hway => hplace (hsub hway))

/-- **First on the way to the parent, then on the whole way.** The second action must leave the way
to the parent as it is. Making directories and then writing a file is of this form, and so is making
directories by itself. -/
theorem Replays.bind_of_parent {action : ExceptT ε (StateM FileSystem) α}
    {f : α → ExceptT ε (StateM FileSystem) β} (hparent : path.parent? = some parent)
    (h : Replays action files ((files.perform action).2.passes parent))
    (hf : ∀ (next : FileSystem) value,
      Replays (f value) next ((next.perform (f value)).2.passes path))
    (hsub : ∀ (next : FileSystem) value, next.passes path ⊆ (next.perform (f value)).2.passes path)
    (hkept : ∀ (next : FileSystem) value, ∀ place ∈ next.passes parent,
      (next.perform (f value)).2.get? place = next.get? place) :
    Replays (action >>= f) files ((files.perform (action >>= f)).2.passes path) := by
  cases hresult : (files.perform action).1 with
  | error error =>
    refine h.bind (fun value hok => ?_) ?_ fun place _ => ?_
    · rw [hresult] at hok
      cases hok
    · rw [perform_bind_of_error hresult]
      exact passes_parent_subset hparent
    · rw [perform_bind_of_error hresult]
  | ok value =>
    refine h.bind (fun value' hok => ?_) ?_ fun place hplace => ?_
    · rw [perform_bind_of_ok hok]
      exact hf _ value'
    · rw [perform_bind_of_ok hresult]
      exact List.Subset.trans (passes_parent_subset hparent) (hsub _ value)
    · rw [perform_bind_of_ok hresult]
      exact hkept _ value place hplace

end Replays

end FileSystem

end DefineWrap
