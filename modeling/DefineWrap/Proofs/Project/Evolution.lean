/-
How a file system evolves while modules are written.

Directories are made where nothing is, files are written where nothing or a file is, and nothing
else happens (`FileSystem.Evolves`). So all that has been there is still there, apart from what is
in the files, and no link is new (`FileSystem.Spreads`): paths that have led to a directory or to a
file lead there still. A file that is new is one that has been written
(`FileSystem.Evolves.exists_locate`).
-/
import DefineWrap.Proofs.Except
import DefineWrap.Proofs.Project.Modules
import DefineWrap.Proofs.Project.Trees

set_option autoImplicit false

namespace DefineWrap

namespace FileSystem

/-- One file system comes from another one by directories that are made, and by files that are
written at certain paths. Each step is found by following a path in the file system of that moment,
because what has been made before may be on the way. -/
inductive Evolves (written : Path → Prop) (before : FileSystem) : FileSystem → Prop
  | same : Evolves written before before
  | directory {files : FileSystem} {path : Path} {place : Location}
      (h : Evolves written before files) (hfound : files.findNew path = .ok (.absent place)) :
      Evolves written before (files.put place .directory)
  | file {files : FileSystem} {path : Path} {found : Found} {place : Location} (bytes : ByteArray)
      (h : Evolves written before files) (hpath : written path)
      (hfound : files.find path = .ok found) (hend : found.EndsAt place) :
      Evolves written before (files.put place (.file bytes))

/-- All that is in one file system is in another one, too, at the same places, but files may have
other bytes. No link is new, and if the one is a tree, so is the other. -/
structure Spreads (before after : FileSystem) : Prop where
  keeps : before.Keeps after
  files : ∀ place bytes, before.get? place = some (.file bytes) →
    ∃ bytes', after.get? place = some (.file bytes')
  links : ∀ place target, after.get? place = some (.link target) →
    before.get? place = some (.link target)
  tree : before.IsTree → after.IsTree

variable {files before after : FileSystem} {path other : Path} {place : Location} {found : Found}
  {written : Path → Prop} {bytes : ByteArray}

/-! ## What stays -/

namespace Spreads

theorem refl (files : FileSystem) : files.Spreads files :=
  ⟨.refl files, fun _ bytes hstored => ⟨bytes, hstored⟩, fun _ _ hstored => hstored, id⟩

theorem trans {next : FileSystem} (h : before.Spreads next) (h' : next.Spreads after) :
    before.Spreads after where
  keeps := h.keeps.trans h'.keeps
  files place bytes hstored := by
    obtain ⟨bytes', hnext⟩ := h.files place bytes hstored
    exact h'.files place bytes' hnext
  links place target hstored := h.links place target (h'.links place target hstored)
  tree htree := h'.tree (h.tree htree)

/-- What is stored somewhere is followed by something, though not by the same if it is a file. -/
theorem exists_get? (h : before.Spreads after) {stored : Entry}
    (hstored : before.get? place = some stored) : ∃ stored', after.get? place = some stored' := by
  cases stored with
  | file bytes =>
    obtain ⟨bytes', hafter⟩ := h.files place bytes hstored
    exact ⟨_, hafter⟩
  | directory => exact ⟨_, h.keeps place _ hstored fun _ => Entry.noConfusion⟩
  | link target => exact ⟨_, h.keeps place _ hstored fun _ => Entry.noConfusion⟩

end Spreads

/-- A tree is still one after something is stored where a way ends. The way has come through the
directory that the place is in, so that is there. -/
theorem IsTree.put {entry : Entry} (h : files.IsTree) (hend : found.EndsAt place)
    (hsits : found.Sits files) : (files.put place entry).IsTree := by
  -- The directory that the place is in is there, and nothing lies below the place.
  have hplace : place ≠ [] ∧ files.get? place.dropLast = some .directory ∧
      (∀ name ∈ place, IsProperName name) ∧ files.get? place ≠ some .directory := by
    cases hend with
    | absent =>
      obtain ⟨hnone, hparent, hnamed⟩ := hsits
      exact ⟨ne_nil_of_endsAt .absent hnone, hparent, hnamed, by rw [hnone]; exact nofun⟩
    | file bytes =>
      exact ⟨ne_nil_of_endsAt (.file bytes) hsits, h.inside _ _ hsits, h.named _ _ hsits,
        by rw [show files.get? place = _ from hsits]; exact nofun⟩
  obtain ⟨hroot, hparent, hnamed, hdirectory⟩ := hplace
  have hput := files.get?_put entry hroot
  constructor
  · have hfilter : ((files.entries.filter (·.1 ≠ place)).map Prod.fst).Nodup :=
      h.once.sublist (List.filter_sublist.map _)
    rw [FileSystem.put, List.map_append, List.map_singleton]
    refine hfilter.append (List.nodup_singleton _) fun other hother hmem => ?_
    obtain ⟨stored, hstored, rfl⟩ := List.mem_map.1 hother
    exact of_decide_eq_true (List.mem_filter.1 hstored).2 (List.mem_singleton.1 hmem)
  · intro other stored hstored
    have hinside : files.get? other.dropLast = some .directory := by
      by_cases hother : other = place
      · rwa [hother]
      · rw [hput, if_neg hother] at hstored
        exact h.inside other stored hstored
    rw [hput, if_neg, hinside]
    intro heq
    rw [heq] at hinside
    exact hdirectory hinside
  · intro other stored hstored
    by_cases hother : other = place
    · rwa [hother]
    · rw [hput, if_neg hother] at hstored
      exact h.named other stored hstored

/-- Nothing is lost when something is stored where a way ends, if a file stays a file. For a place
where nothing was it is one more entry, and for a file only its bytes change. -/
theorem spreads_put {entry : Entry} (hend : found.EndsAt place)
    (hstored : files.get? place = found.stored?) (hsits : files.IsTree → found.Sits files)
    (hnolink : ∀ target, entry ≠ .link target)
    (hfile : found.stored?.isSome = true → ∃ bytes, entry = .file bytes) :
    files.Spreads (files.put place entry) := by
  have hput := files.get?_put entry (ne_nil_of_endsAt hend hstored)
  -- The place is empty or that of a file, so what is stored apart from files is elsewhere.
  have hkept : ∀ other stored, files.get? other = some stored → (∀ bytes, stored ≠ .file bytes) →
      other ≠ place := by
    rintro _ stored hother hnofile rfl
    rw [hstored] at hother
    cases hend with
    | absent => cases hother
    | file bytes => exact hnofile bytes (Option.some.inj hother).symm
  constructor
  · intro other stored hother hnofile
    rw [hput, if_neg (hkept other stored hother hnofile), hother]
  · intro other bytes hother
    rw [hput]
    by_cases heq : other = place
    · rw [heq, hstored] at hother
      obtain ⟨bytes', rfl⟩ := hfile (by rw [hother, Option.isSome])
      exact ⟨bytes', if_pos heq⟩
    · exact ⟨bytes, by rw [if_neg heq, hother]⟩
  · intro other target hother
    rw [hput] at hother
    split at hother
    · exact absurd (Option.some.inj hother) (hnolink target)
    · exact hother
  · exact fun htree => htree.put hend (hsits htree)

/-- **All that has been there is there still**, in whatever way a file system has evolved. Step by
step: each of them stores a directory or a file where a way ends. -/
theorem Evolves.spreads (h : Evolves written before after) : before.Spreads after := by
  induction h with
  | same => exact .refl before
  | directory _ hfound ih =>
    exact ih.trans (spreads_put .absent (mem_passes_of_findNew hfound).2
      (fun htree => htree.sits_of_findNew hfound) (fun _ => Entry.noConfusion) nofun)
  | file bytes _ _ hfound hend ih =>
    exact ih.trans (spreads_put hend (mem_passWithin_of_endsAt hfound hend).2
      (fun htree => htree.sits_of_find hfound) (fun _ => Entry.noConfusion) fun _ => ⟨bytes, rfl⟩)

/-! ## Where paths lead -/

namespace Spreads

variable (h : before.Spreads after)
include h

/-- The way to a directory stays as it is, since it passes directories and links only, which
stay. -/
theorem locate_directory (htree : before.IsTree)
    (hlocate : before.locate path = .ok (place, .directory)) :
    after.locate path = .ok (place, .directory) ∧ after.findNew path = before.findNew path := by
  have hfound := find_of_locate hlocate
  -- The way passes no file, since it goes on until it ends in a directory.
  have hsame : ∀ passed ∈ before.passes path, after.get? passed = before.get? passed := by
    intro passed hpassed
    rcases get?_of_followWithin hfound passed hpassed with ⟨stored, hstored, hnofile⟩ | rfl
    · rw [hstored, h.keeps passed stored hstored hnofile]
    · have hdirectory := htree.get?_of_locate hlocate
      rw [hdirectory, h.keeps _ _ hdirectory fun _ => Entry.noConfusion]
  refine ⟨?_, findNew_congr hsame⟩
  rw [locate, find_congr hsame, hfound]
  rfl

/-- The way to a file passes what it has passed, and leads to the file that is there now. Its bytes
may have changed, and with them what it says of itself. -/
theorem locate_file (hlocate : before.locate path = .ok (place, .file bytes)) :
    (∃ bytes', after.locate path = .ok (place, .file bytes')) ∧
      after.passes path ⊆ before.passes path := by
  have hfound := find_of_locate hlocate
  have hplace := get?_of_locate hlocate
  obtain ⟨bytes', hafter⟩ := h.files place bytes hplace
  -- Storing the new bytes does not change the way, and after that nothing on it is different.
  have hput := before.get?_put (.file bytes') (ne_nil_of_endsAt (.file bytes) hplace)
  obtain ⟨hnow, hpasses⟩ := find_put hfound (.file bytes) hput
  have hsame : ∀ passed ∈ (before.put place (.file bytes')).passes path,
      after.get? passed = (before.put place (.file bytes')).get? passed := by
    intro passed hpassed
    rw [hput]
    rw [hpasses] at hpassed
    by_cases heq : passed = place
    · rw [if_pos heq, heq, hafter]
    · rw [if_neg heq]
      rcases get?_of_followWithin hfound passed hpassed with ⟨stored, hstored, hnofile⟩ | heq'
      · rw [hstored, h.keeps passed stored hstored hnofile]
      · exact absurd heq' heq
  refine ⟨⟨bytes', by rw [locate, find_congr hsame, hnow]; rfl⟩, ?_⟩
  rw [← hpasses]
  exact (passWithin_of_le fun passed hpassed => .inl (hsame passed hpassed)).1

theorem isDirectory (htree : before.IsTree) (hdirectory : before.isDirectory path = true) :
    after.isDirectory path = true := by
  rw [FileSystem.isDirectory] at hdirectory
  split at hdirectory
  next place hlocate => rw [FileSystem.isDirectory, (h.locate_directory htree hlocate).1]
  · cases hdirectory

theorem isFile (hfile : before.isFile path = true) : after.isFile path = true := by
  rw [FileSystem.isFile] at hfile
  split at hfile
  next place bytes hlocate =>
    obtain ⟨bytes', hafter⟩ := (h.locate_file hlocate).1
    rw [FileSystem.isFile, hafter]
  · cases hfile

/-- A path that leads to a file has led to one before if another path with the same steps has. The
two pass the same places, so what is there now for the one was there for the other. -/
theorem exists_locate_of_steps (hsteps : path.steps = other.steps)
    (hother : before.locate other = .ok (place, .file bytes)) (hpath : after.isFile path = true) :
    before.locate path = .ok (place, .file bytes) := by
  rw [FileSystem.isFile] at hpath
  split at hpath
  next place' bytes' hlocate =>
    have hfound := find_of_locate hother
    obtain ⟨⟨now, hnow⟩, hsub⟩ := h.locate_file hother
    have hpasses : after.passes path = after.passes other := by
      rw [passes_eq_steps, passes_eq_steps, hsteps]
    -- There is only one file on the way, and the way was the same up to there.
    have hway : ∀ passed ∈ after.passes path, passed ≠ place →
        ∃ stored, before.get? passed = some stored ∧ after.get? passed = some stored ∧
          ∀ bytes, stored ≠ .file bytes := by
      intro passed hpassed hne
      rw [hpasses] at hpassed
      rcases get?_of_followWithin hfound passed (hsub hpassed) with
        ⟨stored, hstored, hnofile⟩ | heq
      · exact ⟨stored, hstored, h.keeps passed stored hstored hnofile, hnofile⟩
      · exact absurd heq hne
    have hend : Found.EndsAt place' (.entry place' (.file bytes')) := .file bytes'
    have hplace' := mem_passWithin_of_endsAt (find_of_locate hlocate) hend
    have hplace : place' = place := by
      by_contra hne
      obtain ⟨stored, -, hstored, hnofile⟩ := hway place' hplace'.1 hne
      rw [hplace'.2] at hstored
      exact hnofile bytes' (Option.some.inj hstored).symm
    rw [hplace] at hlocate hend
    -- With the bytes of before the way in `after` is the way in `before`.
    have hstored := get?_of_locate hother
    have hput := after.get?_put (.file bytes) (ne_nil_of_endsAt (.file bytes) hstored)
    obtain ⟨hback, hsame⟩ := find_put (find_of_locate hlocate) hend hput
    have hbefore : before.find path = .ok (.entry place (.file bytes)) := by
      rw [← hback]
      refine find_congr fun passed hpassed => ?_
      rw [hput]
      rw [hsame] at hpassed
      by_cases heq : passed = place
      · rw [if_pos heq, heq, hstored]
      · obtain ⟨stored, hstored, hafter, -⟩ := hway passed hpassed heq
        rw [if_neg heq, hstored, hafter]
    rw [locate, hbefore]
    rfl
  · cases hpath

end Spreads

/-! ## New files -/

/-- **A file that is new has been written**: one of the paths written to leads there. It leads there
at the end as well, since what has been made after it is not in its way. -/
theorem Evolves.exists_locate (h : Evolves written before after)
    (hafter : after.get? place = some (.file bytes)) :
    (∃ bytes', before.get? place = some (.file bytes')) ∨
      ∃ path, written path ∧ ∃ bytes', after.locate path = .ok (place, .file bytes') := by
  induction h generalizing place bytes with
  | same => exact .inl ⟨bytes, hafter⟩
  | @directory files path made h hfound ih =>
    rw [get?_put_directory hfound] at hafter
    split at hafter
    · cases hafter
    · refine (ih hafter).imp_right fun ⟨path, hpath, bytes', hlocate⟩ => ⟨path, hpath, ?_⟩
      have hput : Evolves written files (files.put made .directory) := Evolves.same.directory hfound
      exact (hput.spreads.locate_file hlocate).1
  | @file files path found made bytes' h hpath hfound hend ih =>
    have hput := get?_put_file hfound hend bytes'
    rw [hput] at hafter
    split at hafter
    next heq =>
      -- The file is the one that has been written last.
      refine .inr ⟨path, hpath, bytes', ?_⟩
      rw [locate, (find_put hfound hend hput).1, heq]
      rfl
    · refine (ih hafter).imp_right fun ⟨path, hpath', bytes'', hlocate⟩ => ⟨path, hpath', ?_⟩
      have hput' : Evolves written files (files.put made (.file bytes')) :=
        Evolves.same.file bytes' hpath hfound hend
      exact (hput'.spreads.locate_file hlocate).1

/-! ## Actions -/

namespace Evolves

theorem trans {next : FileSystem} (h : Evolves written before next)
    (h' : Evolves written next after) : Evolves written before after := by
  induction h' with
  | same => exact h
  | directory _ hfound ih => exact ih.directory hfound
  | file bytes _ hpath hfound hend ih => exact ih.file bytes hpath hfound hend

theorem mono {written' : Path → Prop} (h : Evolves written before after)
    (hwritten : ∀ path, written path → written' path) : Evolves written' before after := by
  induction h with
  | same => exact .same
  | directory _ hfound ih => exact ih.directory hfound
  | file bytes _ hpath hfound hend ih => exact ih.file bytes (hwritten _ hpath) hfound hend

/-- Making sure of a directory is a step in which it is made, or none. -/
theorem ensureDirectory (files : FileSystem) (path : Path) :
    Evolves written files (files.perform (FileSystem.ensureDirectory path)).2 := by
  rcases files.ensureDirectory_cases path with ⟨place, hfound, hperform⟩ | ⟨hfiles, -⟩
  · rw [hperform]
    exact Evolves.same.directory hfound
  · rw [hfiles]
    exact .same

theorem makeDirectories (files : FileSystem) (path : Path) :
    Evolves written files (files.perform (FileAction.makeDirectories path)).2 :=
  makeDirectoriesWithin_induction (fun _ => .same) .trans .ensureDirectory _ files path

/-- Writing is a step at the path that is written to, if it succeeds, and otherwise none. -/
theorem writeBytes (files : FileSystem) (path : Path) (bytes : ByteArray)
    (hwritten : (files.perform (FileAction.writeBytes path bytes)).1.isOk = true → written path) :
    Evolves written files (files.perform (FileAction.writeBytes path bytes)).2 := by
  rcases files.writeBytes_cases path bytes with
    ⟨place, found, hfound, hend, hwrites⟩ | ⟨error, hfails⟩
  · rw [hwrites files found hfound hend] at hwritten ⊢
    exact Evolves.same.file bytes (hwritten rfl) hfound hend
  · rw [hfails files fun _ _ => rfl]
    exact .same

end Evolves

end FileSystem

/-! ## Modules -/

namespace Settings

open FileSystem

variable {settings : Settings} {files : FileSystem} {input path : Path} {text : String}
  {finished : FinishedModule} {written : Path → Prop}

/-- Writing the text of a module is at most one step, at its path. -/
theorem evolves_putText (files : FileSystem)
    (hwritten : (files.perform (putText path text finished)).1 = .ok finished → written path) :
    Evolves written files (files.perform (putText path text finished)).2 := by
  rw [perform_putText] at hwritten ⊢
  refine .writeBytes files path text.toUTF8 fun hok => hwritten ?_
  rw [FileAction.write]
  cases hresult : (files.perform (FileAction.writeBytes path text.toUTF8)).1 with
  | error error =>
    rw [hresult] at hok
    cases hok
  | ok value => rfl

/-- Putting a file makes directories and then writes, in this order, so one is a step after the
others. -/
theorem evolves_putFile (files : FileSystem)
    (hwritten : (files.perform (putFile path text finished)).1 = .ok finished → written path) :
    Evolves written files (files.perform (putFile path text finished)).2 := by
  rw [putFile] at hwritten ⊢
  split at hwritten
  next parent hparent =>
    rw [perform_bind, perform_adapt] at hwritten ⊢
    have hmade : Evolves written files (files.perform (FileAction.makeDirectories parent)).2 :=
      .makeDirectories files parent
    rcases hperform : files.perform (FileAction.makeDirectories parent) with ⟨_ | _, next⟩
    · rwa [hperform] at hmade
    · rw [hperform] at hmade hwritten
      exact hmade.trans (evolves_putText next hwritten)
  · exact evolves_putText files hwritten

/-- **What one module may do**: make directories, and write the file that it reports. What it
reports is known after it has been done, and so the paths that may be written to depend on the
result. -/
theorem evolves_finish (settings : Settings) (files : FileSystem) (input : Path)
    (result : Except ModuleError WrappedModule) :
    Evolves (fun path => ∃ finished, (files.perform (settings.finish input result)).1 =
        .ok finished ∧ finished.written = some path)
      files (files.perform (settings.finish input result)).2 := by
  cases result with
  | error error =>
    rw [finish_error]
    exact .same
  | ok wrapped =>
    rw [finish_ok, writeModule_eq]
    cases htarget : settings.target? input wrapped with
    | none => exact .same
    | some target =>
      refine evolves_putFile files fun hok => ⟨_, hok, ?_⟩
      rw [report, htarget]

/-- What is reported of a file that has been put is given beforehand. -/
theorem eq_of_putFile {value : FinishedModule}
    (h : (files.perform (putFile path text finished)).1 = .ok value) : value = finished := by
  have hput : ∀ next : FileSystem,
      (next.perform (putText path text finished)).1 = .ok value → value = finished := by
    intro next hnext
    rw [perform_putText] at hnext
    obtain ⟨-, -, heq⟩ := Except.map_ok hnext
    exact heq.symm
  rw [putFile] at h
  split at h
  next parent hparent =>
    rw [perform_bind, perform_adapt] at h
    rcases hperform : files.perform (FileAction.makeDirectories parent) with ⟨_ | _, next⟩
    · rw [hperform] at h
      cases h
    · rw [hperform] at h
      exact hput next h
  · exact hput files h

/-- A module reports the path that its file is to be put at, which depends on the path of the module
and the settings only, and not on the file system. -/
theorem exists_outputPath_of_finish {result : Except ModuleError WrappedModule}
    (hresult : (files.perform (settings.finish input result)).1 = .ok finished)
    (hwritten : finished.written = some path) :
    ∃ out, settings.outDir = some out ∧
      path = ModuleFile.outputPath input settings.rootDir out := by
  -- A module that failed, or that has no text or directory to be written to, reports no path.
  cases result with
  | error error =>
    rw [finish_error] at hresult
    cases hresult
  | ok wrapped =>
    rw [finish_ok, writeModule_eq] at hresult
    cases htarget : settings.target? input wrapped with
    | none =>
      rw [htarget] at hresult
      cases hresult
      rw [report, htarget] at hwritten
      cases hwritten
    | some target =>
      rw [htarget] at hresult
      have hreport := eq_of_putFile hresult
      rw [hreport, report, htarget] at hwritten
      rw [target?] at htarget
      split at htarget
      next text out _ hout =>
        cases htarget
        exact ⟨out, hout, (Option.some.inj hwritten).symm⟩
      · cases htarget

end Settings

end DefineWrap
