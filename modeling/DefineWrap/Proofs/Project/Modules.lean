/-
The two steps of a module, in a file system that is changed in between.

The first step reads one file, so it comes to the same if that file is still found and still has
what it had (`FileSystem.locate_of_keeps`): neither step of a module takes away a directory or a
link that the path leads through (`Settings.keeps_finish`). The second step replays on the way of
the file that is written (`Settings.replays_finish`).
-/
import DefineWrap.Project.Run
import DefineWrap.Proofs.Project.Making

set_option autoImplicit false

namespace DefineWrap

namespace FileSystem

section Reading

variable {files other : FileSystem}

/-- What a kept file system has to have in addition for a path to lead to the same. On the way there
are directories and links only, which are kept, so it is the place at the end alone. -/
theorem locate_of_keeps {path : Path} {place : Location} {entry : Entry}
    (h : files.locate path = .ok (place, entry)) (hkeeps : files.Keeps other)
    (hplace : other.get? place = files.get? place) : other.locate path = .ok (place, entry) := by
  have hfound := find_of_locate h
  have hsame : ∀ passed ∈ files.passes path, other.get? passed = files.get? passed := by
    intro passed hpassed
    rcases get?_of_followWithin hfound passed hpassed with ⟨stored, hstored, hnofile⟩ | rfl
    · rw [hstored, hkeeps passed stored hstored hnofile]
    · exact hplace
  rw [locate, find_congr hsame, hfound]
  rfl

/-- The text that was written to a file is read from it, because a text is written in UTF-8 and
reading undoes that. -/
theorem read_of_locate {path : Path} {place : Location} {text : String}
    (h : files.locate path = .ok (place, .file text.toUTF8)) : files.read path = .ok text := by
  have htext : String.fromUTF8? text.toUTF8 = some text := by
    rw [String.fromUTF8?, String.toUTF8, dif_pos text.isValidUTF8]
    rfl
  rw [FileSystem.read, h]
  dsimp only [bind, Except.bind]
  rw [htext]
  rfl

end Reading

end FileSystem

namespace Settings

open FileSystem

variable {settings : Settings} {files other : FileSystem} {input path : Path} {text : String}
  {finished : FinishedModule}

/-! ## Reading -/

/-- What comes of the first step depends on what the path of the module leads to. -/
theorem wrapModule_congr (h : other.locate input = files.locate input) :
    settings.wrapModule other input = settings.wrapModule files input := by
  rw [wrapModule, wrapModule, FileSystem.read, FileSystem.read, h]

/-- What the first step comes to when nothing goes wrong in it, put together from its parts. -/
theorem wrapModule_of_read {source : String} {program : Program} {wrapped : Wrapped}
    (hread : files.read input = .ok source) (hparse : Program.parse source = .ok program)
    (hwrap : program.wrap (settings.wrapOptions (ModuleFile.moduleId input settings.rootDir)) =
      .ok wrapped) :
    settings.wrapModule files input =
      .ok ⟨ModuleFile.moduleId input settings.rootDir, wrapped.dependencies,
        if settings.dependenciesOnly then none
        else some (wrapped.program.render (.ofPretty settings.pretty))⟩ := by
  rw [wrapModule, hread]
  dsimp only [Except.mapError, bind, Except.bind]
  rw [hparse]
  dsimp only
  rw [hwrap]
  rfl

/-! ## Writing -/

/-- Puts the text of a module in its file. -/
def putText (path : Path) (text : String) (finished : FinishedModule) :
    ExceptT ModuleError (StateM FileSystem) FinishedModule := do
  (FileAction.write path text).adapt (ModuleError.unwritable path)
  return finished

/-- Putting a text is writing it, with the error of a module instead of that of a file. -/
theorem perform_putText (files : FileSystem) :
    files.perform (putText path text finished) =
      ((files.perform (FileAction.write path text)).1.mapError (ModuleError.unwritable path)
          |>.map fun _ => finished,
        (files.perform (FileAction.write path text)).2) := by
  rw [putText, perform_bind, perform_adapt]
  rcases files.perform (FileAction.write path text) with ⟨_ | _, next⟩ <;> rfl

/-- Putting a text replays, since writing does and nothing else is done. -/
theorem replays_putText : Replays (putText path text finished) files
    ((files.perform (putText path text finished)).2.passes path) := by
  have hwrite : Replays ((FileAction.write path text).adapt (ModuleError.unwritable path)) files
      ((files.perform (putText path text finished)).2.passes path) := by
    rw [perform_putText]
    exact (replays_writeBytes files path text.toUTF8).adapt _
  refine hwrite.bind (fun _ _ => .pure _) (List.Subset.refl _) fun place _ => ?_
  rw [perform_bind]
  rcases files.perform ((FileAction.write path text).adapt _) with ⟨_ | _, next⟩ <;> rfl

theorem keeps_putText (files : FileSystem) :
    files.Keeps (files.perform (putText path text finished)).2 := by
  rw [perform_putText]
  exact keeps_writeBytes files path text.toUTF8

/-- Makes the directories that the file of a module is in, and puts its text there. A path without a
parent is written to as it is. -/
def putFile (path : Path) (text : String) (finished : FinishedModule) :
    ExceptT ModuleError (StateM FileSystem) FinishedModule :=
  match path.parent? with
  | some parent => do
    (FileAction.makeDirectories parent).adapt (ModuleError.uncreatable parent)
    putText path text finished
  | none => putText path text finished

/-- **Putting a file replays** on its way, also where some of the directories are there already.
Writing leaves the way to the parent as it is, by which the two parts can be put together. -/
theorem replays_putFile : Replays (putFile path text finished) files
    ((files.perform (putFile path text finished)).2.passes path) := by
  rw [putFile]
  split
  next parent hparent =>
    have hmake : Replays ((FileAction.makeDirectories parent).adapt
        (ModuleError.uncreatable parent)) files
        ((files.perform (FileAction.makeDirectories parent)).2.passes parent) :=
      (replays_makeDirectories files parent).adapt _
    refine hmake.bind_of_parent hparent (fun _ _ => replays_putText) (fun next _ => ?_)
      fun next _ place hplace => ?_
    · rw [perform_putText, FileAction.write, passes_writeBytes]
      exact List.Subset.refl _
    · rw [perform_putText]
      exact get?_writeBytes_of_mem_parent hparent hplace
  · exact replays_putText

theorem keeps_putFile (files : FileSystem) :
    files.Keeps (files.perform (putFile path text finished)).2 := by
  rw [putFile]
  split
  next parent _ =>
    exact ((grows_makeDirectories files parent).keeps.adapt _).bind fun next _ => keeps_putText next
  · exact keeps_putText files

/-- Where a file has been put it is found, and all else that has changed are directories that were
missing. -/
theorem exists_find_putFile (h : (files.perform (putFile path text finished)).1.isOk = true) :
    ∃ place, (files.perform (putFile path text finished)).2.find path =
        .ok (.entry place (.file text.toUTF8)) ∧
      ∀ other ≠ place,
        (files.perform (putFile path text finished)).2.get? other = files.get? other ∨
          files.get? other = none ∧
            (files.perform (putFile path text finished)).2.get? other = some .directory := by
  have hput : ∀ next : FileSystem, (next.perform (putText path text finished)).1.isOk = true →
      ∃ place, (next.perform (putText path text finished)).2.find path =
          .ok (.entry place (.file text.toUTF8)) ∧
        ∀ other ≠ place,
          (next.perform (putText path text finished)).2.get? other = next.get? other := by
    intro next hok
    rw [perform_putText] at hok ⊢
    have hwritten : (next.perform (FileAction.write path text)).1.isOk = true := by
      cases hresult : (next.perform (FileAction.write path text)).1 with
      | error error =>
        rw [hresult] at hok
        cases hok
      | ok value => rfl
    exact exists_find_writeBytes hwritten
  -- The directories are made first. They are what has changed besides the place of the file.
  rw [putFile] at h ⊢
  split at h
  next parent hparent =>
    cases hmake : (files.perform ((FileAction.makeDirectories parent).adapt
        (ModuleError.uncreatable parent))).1 with
    | error error =>
      rw [perform_bind_of_error hmake] at h
      cases h
    | ok value =>
      rw [perform_bind_of_ok hmake] at h ⊢
      obtain ⟨place, hfound, hbeside⟩ := hput _ h
      refine ⟨place, hfound, fun other hother => ?_⟩
      rw [hbeside other hother]
      exact grows_makeDirectories files parent other
  · obtain ⟨place, hfound, hbeside⟩ := hput files h
    exact ⟨place, hfound, fun other hother => .inl (hbeside other hother)⟩

/-! ## The second step -/

/-- The file that the text of a module is put in, and the text, if there is any. There is none if
only dependencies are asked for, or no output directory is given. -/
def target? (settings : Settings) (input : Path) (wrapped : WrappedModule) :
    Option (Path × String) :=
  match wrapped.text, settings.outDir with
  | some text, some outDir => some (ModuleFile.outputPath input settings.rootDir outDir, text)
  | _, _ => none

/-- What is reported of a module that is done. It is settled before anything is written. -/
def report (settings : Settings) (input : Path) (wrapped : WrappedModule) : FinishedModule :=
  match settings.target? input wrapped with
  | some (path, _) => ⟨wrapped.moduleId, wrapped.dependencies, none, some path⟩
  | none => ⟨wrapped.moduleId, wrapped.dependencies, wrapped.text, none⟩

theorem writeModule_eq (settings : Settings) (input : Path) (wrapped : WrappedModule) :
    settings.writeModule input wrapped =
      match settings.target? input wrapped with
      | some (path, text) => putFile path text (settings.report input wrapped)
      | none => pure (settings.report input wrapped) := by
  obtain ⟨moduleId, dependencies, text⟩ := wrapped
  rw [writeModule, report, target?]
  rcases text with _ | text
  · rfl
  · rcases settings.outDir with _ | outDir
    · rfl
    · dsimp only
      rw [putFile]
      rcases (ModuleFile.outputPath input settings.rootDir outDir).parent? with _ | parent <;> rfl

/-- The second step of a module, after what came of the first one. The two steps are apart so that
other modules can take theirs in between. -/
def finish (settings : Settings) (input : Path) (result : Except ModuleError WrappedModule) :
    ExceptT ModuleError (StateM FileSystem) FinishedModule := do
  let wrapped ← result
  settings.writeModule input wrapped

theorem finish_error (settings : Settings) (input : Path) (error : ModuleError) :
    settings.finish input (.error error) = throw error := rfl

theorem finish_ok (settings : Settings) (input : Path) (wrapped : WrappedModule) :
    settings.finish input (.ok wrapped) = settings.writeModule input wrapped := rfl

theorem perform_compileModule (files : FileSystem) :
    files.perform (settings.compileModule input) =
      files.perform (settings.finish input (settings.wrapModule files input)) := by
  rw [compileModule, perform_get_bind, finish]

/-- The places on the way of the file that a module is put in. Without such a file there are none,
and then the second step neither asks nor changes anything. -/
def targetPasses (settings : Settings) (files : FileSystem) (input : Path)
    (result : Except ModuleError WrappedModule) : List Location :=
  match result.toOption.bind (settings.target? input) with
  | some (path, _) => files.passes path
  | none => []

/-- **The second step of a module replays** on the way of its file. So it may be taken in any file
system that has there what there was, or what the step itself has left. -/
theorem replays_finish (settings : Settings) (files : FileSystem) (input : Path)
    (result : Except ModuleError WrappedModule) :
    Replays (settings.finish input result) files
      (settings.targetPasses (files.perform (settings.finish input result)).2 input result) := by
  cases result with
  | error error =>
    rw [finish_error]
    exact .throw error
  | ok wrapped =>
    rw [finish_ok, writeModule_eq, targetPasses, Except.toOption, Option.bind_some]
    split
    · exact replays_putFile
    · exact .pure _

/-- The second step takes away no directory and no link, whatever came of the first one. -/
theorem keeps_finish (settings : Settings) (files : FileSystem) (input : Path)
    (result : Except ModuleError WrappedModule) :
    files.Keeps (files.perform (settings.finish input result)).2 := by
  cases result with
  | error error =>
    rw [finish_error, perform_throw]
    exact .refl files
  | ok wrapped =>
    rw [finish_ok, writeModule_eq]
    split
    · exact keeps_putFile files
    · exact .refl files

end Settings

end DefineWrap
