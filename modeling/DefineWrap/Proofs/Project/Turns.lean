/-
Modules that take turns.

The modules of a run share the file system, and each of them takes two turns: it reads and wraps,
and then it writes. In which order the turns of all modules come is not settled. It does not matter
if the modules are independent of each other, that is if each of them, when it is alone, leaves
what another one reads, and does the same on the way of the other's file as that one, if anything
(`Settings.takeTurns_eq_run`): every module then comes to what it comes to when it is alone, and
all files are those of a run that does one module after the other. Modules are independent if none
of them is put where another one is read or is put or passes (`Settings.independent_of_putAt`);
directories that several of them need are made by each of them, and come to the same.

While the turns are taken the file system is merged: what has been changed is as the module that
has changed it leaves it when it is alone, and all else is as it was at first (`Merged`). A turn
preserves that, and so do all turns.

Modules that are not below the root directory need not be independent. Those of one name are put in
one file (`Settings.outputPath_of_elsewhere`), and the last one wins.
-/
import Mathlib.Data.List.FinRange
import DefineWrap.Proofs.Project.Modules
import DefineWrap.Proofs.Project.Taken

set_option autoImplicit false

namespace DefineWrap

/-! ## Turns -/

/-- How far a module has come. What it has read is kept between its two turns, whatever others do in
the meantime. -/
inductive Progress where
  | waiting
  /-- It has taken its first turn. -/
  | wrapped (result : Except ModuleError WrappedModule)
  /-- It has taken both of its turns. -/
  | finished (result : Except ModuleError FinishedModule)

/-- How many turns a module has taken. -/
def Progress.turns : Progress → Nat
  | .waiting => 0
  | .wrapped _ => 1
  | .finished _ => 2

theorem Progress.turns_le (progress : Progress) : progress.turns ≤ 2 := by
  cases progress <;> simp [turns]

/-- The file system, and how far each of some modules has come. Modules are told apart by their
position among the inputs, since one path may be given twice. -/
structure Stage (count : Nat) where
  files : FileSystem
  progress : Fin count → Progress

namespace Stage

variable {count : Nat} {stage : Stage count} {position other : Fin count}

/-- One module comes further, and leaves the given files. -/
def advance (stage : Stage count) (position : Fin count) (files : FileSystem)
    (progress : Progress) : Stage count :=
  ⟨files, Function.update stage.progress position progress⟩

@[simp]
theorem files_advance (files : FileSystem) (progress : Progress) :
    (stage.advance position files progress).files = files := rfl

@[simp]
theorem progress_advance_self (files : FileSystem) (progress : Progress) :
    (stage.advance position files progress).progress position = progress :=
  Function.update_self ..

theorem progress_advance_of_ne (h : other ≠ position) (files : FileSystem) (progress : Progress) :
    (stage.advance position files progress).progress other = stage.progress other :=
  Function.update_of_ne h ..

end Stage

namespace Settings

/-- A module takes its next turn. Where it has taken both, nothing happens, so an order may have a
position more than twice. -/
def turn (settings : Settings) (inputs : List Path) (stage : Stage inputs.length)
    (position : Fin inputs.length) : Stage inputs.length :=
  match stage.progress position with
  | .waiting =>
    stage.advance position stage.files (.wrapped (settings.wrapModule stage.files inputs[position]))
  | .wrapped result =>
    let (result, files) := stage.files.perform (settings.finish inputs[position] result)
    stage.advance position files (.finished result)
  | .finished _ => stage

/-- The modules take turns in the given order. Every way in which they can run beside each other is
such an order, as a turn is taken as a whole. -/
def takeTurns (settings : Settings) (files : FileSystem) (inputs : List Path)
    (order : List (Fin inputs.length)) : Stage inputs.length :=
  order.foldl (settings.turn inputs) ⟨files, fun _ => .waiting⟩

/-! ## Independent modules -/

/-- What a module comes to when it is alone, and the file system after that. -/
def alone (settings : Settings) (files : FileSystem) (input : Path) :
    Except ModuleError FinishedModule × FileSystem :=
  files.perform (settings.compileModule input)

/-- The places on the way of the file that a module is put in when it is alone. The way is taken in
the file system after it, where no directory is missing. -/
def passed (settings : Settings) (files : FileSystem) (input : Path) : List Location :=
  settings.targetPasses (settings.alone files input).2 input (settings.wrapModule files input)

/-- Whether a module has changed something at a place, when it is alone. -/
def Changes (settings : Settings) (files : FileSystem) (input : Path) (place : Location) : Prop :=
  (settings.alone files input).2.get? place ≠ files.get? place

/-- What one module changes does not matter to another one. It may be on the way of the other's file
if the other leaves the same there, as with a directory that both of them need. -/
structure Spares (settings : Settings) (files : FileSystem) (one other : Path) : Prop where
  /-- It is not what the other one reads. -/
  read : ∀ place entry, files.locate other = .ok (place, entry) →
    ¬ settings.Changes files one place
  /-- If it is on the way of the other's file, the other one leaves the same there. -/
  written : ∀ place ∈ settings.passed files other, settings.Changes files one place →
    (settings.alone files other).1.isOk = true ∧
      (settings.alone files other).2.get? place = (settings.alone files one).2.get? place

/-- What one module changes does not matter to any other one. -/
def Independent (settings : Settings) (files : FileSystem) (inputs : List Path) : Prop :=
  ∀ one other : Fin inputs.length, one ≠ other →
    settings.Spares files inputs[one] inputs[other]

/-! ## One module -/

section Alone

variable {settings : Settings} {files other : FileSystem} {input : Path} {place : Location}

theorem alone_eq_finish (settings : Settings) (files : FileSystem) (input : Path) :
    settings.alone files input =
      files.perform (settings.finish input (settings.wrapModule files input)) := by
  rw [alone, perform_compileModule]

theorem Changes.mem_passed (h : settings.Changes files input place) :
    place ∈ settings.passed files input := by
  rw [Changes, alone_eq_finish] at h
  rw [passed, alone_eq_finish]
  by_contra hplace
  exact h ((settings.replays_finish files input _).get?_of_notMem hplace)

theorem keeps_alone (settings : Settings) (files : FileSystem) (input : Path) :
    files.Keeps (settings.alone files input).2 := by
  rw [alone_eq_finish]
  exact settings.keeps_finish files input _

/-- A module that can be read, parsed and wrapped has a file to be put in, unless the run is about
dependencies only: its path is fixed by the settings, and its text by what the module becomes. -/
theorem exists_target_of_read {outDir path : Path} {stored : Location} {source : String}
    {program : Program} {wrapped : Wrapped}
    (hlocate : files.locate input = .ok (stored, .file source.toUTF8))
    (hparse : Program.parse source = .ok program)
    (hwrap : program.wrap (settings.wrapOptions (ModuleFile.moduleId input settings.rootDir)) =
      .ok wrapped)
    (hwrites : settings.dependenciesOnly = false) (hout : settings.outDir = some outDir)
    (hpath : ModuleFile.outputPath input settings.rootDir outDir = path) :
    ∃ module, settings.wrapModule files input = .ok module ∧
      settings.target? input module =
        some (path, wrapped.program.render (.ofPretty settings.pretty)) := by
  have hwrapped := wrapModule_of_read (FileSystem.read_of_locate hlocate) hparse hwrap
  rw [hwrites, if_neg Bool.false_ne_true] at hwrapped
  exact ⟨_, hwrapped, by rw [target?, hout, ← hpath]⟩

/-- What a module leaves that is wrapped and then put in its file. The file system after it is that
of putting the file, which can be computed for a given one without its text. -/
theorem alone_of_read {next : FileSystem} {outDir path : Path} {stored : Location}
    {source : String} {program : Program} {wrapped : Wrapped}
    (hlocate : files.locate input = .ok (stored, .file source.toUTF8))
    (hparse : Program.parse source = .ok program)
    (hwrap : program.wrap (settings.wrapOptions (ModuleFile.moduleId input settings.rootDir)) =
      .ok wrapped)
    (hwrites : settings.dependenciesOnly = false) (hout : settings.outDir = some outDir)
    (hpath : ModuleFile.outputPath input settings.rootDir outDir = path)
    (hput : ∀ finished, files.perform
        (putFile path (wrapped.program.render (.ofPretty settings.pretty)) finished) =
      (.ok finished, next)) :
    (∃ finished, settings.alone files input = (.ok finished, next)) ∧
      settings.passed files input = next.passes path := by
  obtain ⟨module, hwrapped, htarget⟩ :=
    exists_target_of_read hlocate hparse hwrap hwrites hout hpath
  have halone : ∃ finished, settings.alone files input = (.ok finished, next) := by
    rw [alone_eq_finish, hwrapped, finish_ok, writeModule_eq, htarget]
    exact ⟨_, hput _⟩
  refine ⟨halone, ?_⟩
  obtain ⟨finished, halone⟩ := halone
  rw [passed, targetPasses, hwrapped, Except.toOption, Option.bind_some, htarget, halone]

/-- The second turn of a module where on the way of its file is what was there at first, or what the
module leaves there. The result is that of the module alone, and outside the way nothing changes. -/
theorem perform_finish_of_meets
    (h : files.Meets (settings.alone files input).2
      ((settings.alone files input).1.isOk = true) (settings.passed files input) other) :
    ∃ next, other.perform (settings.finish input (settings.wrapModule files input)) =
        ((settings.alone files input).1, next) ∧
      (∀ place ∈ settings.passed files input,
        next.get? place = (settings.alone files input).2.get? place) ∧
      ∀ place ∉ settings.passed files input, next.get? place = other.get? place := by
  rw [passed, alone_eq_finish] at h ⊢
  obtain ⟨hresult, hinside, houtside⟩ := settings.replays_finish files input _ other h
  exact ⟨(other.perform (settings.finish input (settings.wrapModule files input))).2,
    Prod.ext hresult rfl, hinside, houtside⟩

end Alone

/-! ## Modules in different files -/

/-- The place of the file that a module is put in when it is alone. It is not the place that the
path spells, since there may be links on the way. -/
def PutAt (settings : Settings) (files : FileSystem) (input : Path) (place : Location) : Prop :=
  ∃ wrapped path text, settings.wrapModule files input = .ok wrapped ∧
    settings.target? input wrapped = some (path, text) ∧
    (settings.alone files input).2.find path = .ok (.entry place (.file text.toUTF8))

section PutAt

variable {settings : Settings} {files : FileSystem} {input : Path} {place : Location}

/-- Where a module is put is settled by what it is wrapped to: there is one file for it. -/
theorem PutAt.find (h : settings.PutAt files input place) {module : WrappedModule} {path : Path}
    {text : String} (hwrapped : settings.wrapModule files input = .ok module)
    (htarget : settings.target? input module = some (path, text)) :
    (settings.alone files input).2.find path = .ok (.entry place (.file text.toUTF8)) := by
  obtain ⟨other, otherPath, otherText, hother, hotherTarget, hfound⟩ := h
  cases hwrapped.symm.trans hother
  cases htarget.symm.trans hotherTarget
  exact hfound

/-- A module that is on the way of a file has one to be put in. -/
theorem exists_target_of_mem_passed (h : place ∈ settings.passed files input) :
    ∃ wrapped path text, settings.wrapModule files input = .ok wrapped ∧
      settings.target? input wrapped = some (path, text) ∧
      settings.passed files input = (settings.alone files input).2.passes path ∧
      settings.alone files input =
        files.perform (putFile path text (settings.report input wrapped)) := by
  rw [passed, targetPasses] at h
  split at h
  next path text htarget =>
    cases hwrapped : settings.wrapModule files input with
    | error error =>
      rw [hwrapped] at htarget
      cases htarget
    | ok wrapped =>
      rw [hwrapped, Except.toOption, Option.bind_some] at htarget
      refine ⟨wrapped, path, text, rfl, htarget, ?_, ?_⟩
      · rw [passed, targetPasses, hwrapped, Except.toOption, Option.bind_some, htarget]
      · rw [alone_eq_finish, hwrapped, finish_ok, writeModule_eq, htarget]
  · cases h

theorem Changes.putAt_or (h : settings.Changes files input place)
    (hok : (settings.alone files input).1.isOk = true) :
    settings.PutAt files input place ∨
      files.get? place = none ∧ (settings.alone files input).2.get? place = some .directory := by
  obtain ⟨wrapped, path, text, hwrapped, htarget, -, halone⟩ :=
    exists_target_of_mem_passed h.mem_passed
  have hput := hok
  rw [halone] at hput
  obtain ⟨made, hfound, hbeside⟩ := exists_find_putFile hput
  rw [← halone] at hfound hbeside
  by_cases hplace : place = made
  · exact .inl ⟨wrapped, path, text, hwrapped, htarget, hplace ▸ hfound⟩
  · exact .inr ((hbeside place hplace).resolve_left h)

/-- Nothing is missing on the way of a file that has been put. So a directory that one module makes
there has been made by the other one as well. -/
theorem putAt_or_stored_of_mem_passed (h : place ∈ settings.passed files input)
    (hok : (settings.alone files input).1.isOk = true) :
    settings.PutAt files input place ∨ (settings.alone files input).2.get? place ≠ none := by
  obtain ⟨wrapped, path, text, hwrapped, htarget, hpassed, halone⟩ :=
    exists_target_of_mem_passed h
  have hput := hok
  rw [halone] at hput
  obtain ⟨made, hfound, -⟩ := exists_find_putFile hput
  rw [← halone] at hfound
  rw [hpassed] at h
  rcases FileSystem.get?_of_followWithin hfound place h with ⟨stored, hstored, -⟩ | hplace
  · right
    rw [hstored]
    exact Option.some_ne_none stored
  · exact .inl ⟨wrapped, path, text, hwrapped, htarget, hplace ▸ hfound⟩

end PutAt

/-- **Modules are independent** if each that gets to its file is written when it is alone, and its
file is neither what another one reads nor on the way of another one's file. They may make the same
directories. This is the form in which it can be checked: it asks for one place for each module. -/
theorem independent_of_putAt {settings : Settings} {files : FileSystem} {inputs : List Path}
    (hfound : ∀ input ∈ inputs, ∃ place bytes, files.locate input = .ok (place, .file bytes))
    (hok : ∀ position : Fin inputs.length, settings.passed files inputs[position] ≠ [] →
      (settings.alone files inputs[position]).1.isOk = true)
    (hput : ∀ one other : Fin inputs.length, one ≠ other →
      ∀ place, settings.PutAt files inputs[one] place →
        place ∉ settings.passed files inputs[other] ∧
          ∀ entry, files.locate inputs[other] ≠ .ok (place, entry)) :
    settings.Independent files inputs := by
  intro one other hne
  have hone : ∀ place, settings.Changes files inputs[one] place →
      settings.PutAt files inputs[one] place ∨ files.get? place = none ∧
        (settings.alone files inputs[one]).2.get? place = some .directory := fun place hchanges =>
    hchanges.putAt_or (hok one (List.ne_nil_of_mem hchanges.mem_passed))
  constructor
  · intro place entry hlocate hchanges
    rcases hone place hchanges with hfile | ⟨hnone, -⟩
    · exact (hput one other hne place hfile).2 entry hlocate
    · -- What is read was there at first.
      obtain ⟨place', bytes, hlocate'⟩ := hfound _ (List.getElem_mem other.isLt)
      have hsame := hlocate.symm.trans hlocate'
      cases hsame
      rw [FileSystem.get?_of_locate hlocate] at hnone
      cases hnone
  · intro place hplace hchanges
    have hother := hok other (List.ne_nil_of_mem hplace)
    have hnotFile : ¬ settings.PutAt files inputs[other] place := fun hfile =>
      (hput other one hne.symm place hfile).1 hchanges.mem_passed
    rcases hone place hchanges with hfile | ⟨hnone, hdirectory⟩
    · exact absurd hplace (hput one other hne place hfile).1
    · -- The other one needs the directory, too, and makes it.
      have hstored := (putAt_or_stored_of_mem_passed hplace hother).resolve_left hnotFile
      have hchanges' : settings.Changes files inputs[other] place := by
        rwa [Changes, hnone]
      obtain ⟨-, hdirectory'⟩ := (hchanges'.putAt_or hother).resolve_left hnotFile
      exact ⟨hother, hdirectory'.trans hdirectory.symm⟩

/-! ## What some modules leave together -/

/-- A file system has what some modules have changed when they were alone, and all else as it was at
first. Two modules may have changed the same place, if both have left the same there. -/
structure Merged (settings : Settings) (files : FileSystem) (inputs : List Path)
    (done : Fin inputs.length → Prop) (merged : FileSystem) : Prop where
  changed : ∀ position, done position → ∀ place,
    settings.Changes files inputs[position] place →
      merged.get? place = (settings.alone files inputs[position]).2.get? place
  rest : ∀ place, (∀ position, done position → ¬ settings.Changes files inputs[position] place) →
    merged.get? place = files.get? place

namespace Merged

variable {settings : Settings} {files merged other : FileSystem} {inputs : List Path}
  {done : Fin inputs.length → Prop} {position : Fin inputs.length}

theorem start (settings : Settings) (files : FileSystem) (inputs : List Path) :
    settings.Merged files inputs (fun _ => False) files :=
  ⟨fun _ => False.elim, fun _ _ => rfl⟩

theorem congr {done' : Fin inputs.length → Prop} (h : settings.Merged files inputs done merged)
    (hdone : ∀ position, done' position ↔ done position) :
    settings.Merged files inputs done' merged :=
  ⟨fun position hposition => h.changed position ((hdone position).1 hposition),
    fun place hnone => h.rest place fun position hposition =>
      hnone position ((hdone position).2 hposition)⟩

/-- What is stored at a place is what was there at first, or what one of the modules has left
there. -/
theorem get?_or (h : settings.Merged files inputs done merged) (place : Location) :
    merged.get? place = files.get? place ∨
      ∃ position, done position ∧ settings.Changes files inputs[position] place ∧
        merged.get? place = (settings.alone files inputs[position]).2.get? place := by
  by_cases hchanged : ∃ position, done position ∧ settings.Changes files inputs[position] place
  · obtain ⟨position, hdone, hchanges⟩ := hchanged
    exact .inr ⟨position, hdone, hchanges, h.changed position hdone place hchanges⟩
  · exact .inl (h.rest place fun position hdone hchanges => hchanged ⟨position, hdone, hchanges⟩)

/-- The same modules leave the same together. So two orders of turns come to the same files,
although they go through different ones. -/
theorem get?_eq (h : settings.Merged files inputs done merged)
    (h' : settings.Merged files inputs done other) (place : Location) :
    other.get? place = merged.get? place := by
  rcases h.get?_or place with hsame | ⟨position, hdone, hchanges, hsame⟩
  · rcases h'.get?_or place with hother | ⟨position, hdone, hchanges, hother⟩
    · rw [hsame, hother]
    · rw [hother, h.changed position hdone place hchanges]
  · rw [hsame, h'.changed position hdone place hchanges]

/-- Directories and links are still there, because each module alone keeps them. -/
theorem keeps (h : settings.Merged files inputs done merged) : files.Keeps merged := by
  intro place stored hstored hnofile
  rcases h.get?_or place with hsame | ⟨position, -, -, hsame⟩
  · rw [hsame, hstored]
  · rw [hsame, settings.keeps_alone files _ place stored hstored hnofile]

/-- **The first turn.** A module reads what it reads when it is alone. What the others have changed
is not what it reads, and the way to that is kept. -/
theorem wrapModule_eq (h : settings.Merged files inputs done merged)
    (hindependent : settings.Independent files inputs) (hposition : ¬ done position)
    (hfound : ∃ place bytes, files.locate inputs[position] = .ok (place, .file bytes)) :
    settings.wrapModule merged inputs[position] = settings.wrapModule files inputs[position] := by
  obtain ⟨place, bytes, hlocate⟩ := hfound
  have hplace : merged.get? place = files.get? place := by
    apply h.rest
    intro other hdone
    have hne : other ≠ position := by
      rintro rfl
      exact hposition hdone
    exact (hindependent other position hne).read place _ hlocate
  apply wrapModule_congr
  rw [FileSystem.locate_of_keeps hlocate h.keeps hplace, hlocate]

/-- **The second turn.** A module comes to what it comes to when it is alone, and what it changes is
merged. On its way it finds what was there at first or what it leaves there itself, as `Replays`
asks. -/
theorem finish (h : settings.Merged files inputs done merged)
    (hindependent : settings.Independent files inputs) (hposition : ¬ done position) :
    ∃ next, merged.perform
        (settings.finish inputs[position] (settings.wrapModule files inputs[position])) =
          ((settings.alone files inputs[position]).1, next) ∧
      settings.Merged files inputs (fun other => done other ∨ other = position) next := by
  have hspares : ∀ other, done other →
      settings.Spares files inputs[other] inputs[position] := by
    intro other hdone
    apply hindependent
    rintro rfl
    exact hposition hdone
  -- On its way the module finds what was there at first, or what it would leave there itself.
  have hmeets : files.Meets (settings.alone files inputs[position]).2
      ((settings.alone files inputs[position]).1.isOk = true)
      (settings.passed files inputs[position]) merged := by
    intro place hplace
    rcases h.get?_or place with hsame | ⟨other, hdone, hchanges, hsame⟩
    · exact .inl hsame
    · obtain ⟨hok, hleft⟩ := (hspares other hdone).written place hplace hchanges
      exact .inr ⟨hok, hsame.trans hleft.symm⟩
  obtain ⟨next, hperform, hinside, houtside⟩ := perform_finish_of_meets hmeets
  refine ⟨next, hperform, ⟨?_, ?_⟩⟩
  -- Off its way nothing changes, and on it two modules leave the same where both change something.
  · rintro other (hdone | rfl) place hchanges
    · by_cases hplace : place ∈ settings.passed files inputs[position]
      · rw [hinside place hplace]
        exact ((hspares other hdone).written place hplace hchanges).2
      · rw [houtside place hplace]
        exact h.changed other hdone place hchanges
    · exact hinside place hchanges.mem_passed
  · intro place hnone
    by_cases hplace : place ∈ settings.passed files inputs[position]
    · rw [hinside place hplace]
      exact Classical.not_not.1 (hnone position (.inr rfl))
    · rw [houtside place hplace]
      exact h.rest place fun other hdone => hnone other (.inl hdone)

end Merged

/-! ## One turn -/

section Turn

variable {settings : Settings} {inputs : List Path} {stage : Stage inputs.length}
  {position : Fin inputs.length}

/-- The first turn of a module reads, and leaves all files as they are. -/
theorem turn_of_waiting (h : stage.progress position = .waiting) :
    settings.turn inputs stage position = stage.advance position stage.files
      (.wrapped (settings.wrapModule stage.files inputs[position])) := by
  simp only [turn, h]

/-- The second turn of a module goes on with what has been read in the first. -/
theorem turn_of_wrapped {result : Except ModuleError WrappedModule}
    (h : stage.progress position = .wrapped result) :
    settings.turn inputs stage position =
      stage.advance position (stage.files.perform (settings.finish inputs[position] result)).2
        (.finished (stage.files.perform (settings.finish inputs[position] result)).1) := by
  simp only [turn, h]

theorem turn_of_finished {result : Except ModuleError FinishedModule}
    (h : stage.progress position = .finished result) :
    settings.turn inputs stage position = stage := by
  simp only [turn, h]

/-- A turn is one more for the module that takes it, up to two. -/
theorem turns_turn_self : ((settings.turn inputs stage position).progress position).turns =
    min 2 ((stage.progress position).turns + 1) := by
  cases h : stage.progress position with
  | waiting =>
    rw [turn_of_waiting h, Stage.progress_advance_self]
    rfl
  | wrapped result =>
    rw [turn_of_wrapped h, Stage.progress_advance_self]
    rfl
  | finished result =>
    rw [turn_of_finished h, h]
    rfl

theorem progress_turn_of_ne {other : Fin inputs.length} (hother : other ≠ position) :
    (settings.turn inputs stage position).progress other = stage.progress other := by
  cases h : stage.progress position with
  | waiting => rw [turn_of_waiting h, Stage.progress_advance_of_ne hother]
  | wrapped result => rw [turn_of_wrapped h, Stage.progress_advance_of_ne hother]
  | finished result => rw [turn_of_finished h]

end Turn

/-- A module has come to what it comes to when it is alone, as far as it has come. -/
inductive AsAlone (settings : Settings) (files : FileSystem) (input : Path) : Progress → Prop
  | waiting : AsAlone settings files input .waiting
  | wrapped : AsAlone settings files input (.wrapped (settings.wrapModule files input))
  | finished : AsAlone settings files input (.finished (settings.alone files input).1)

/-- All modules are as if they were alone, and the file system is merged from those that have taken
both of their turns. This is the invariant of turns. -/
structure Consistent (settings : Settings) (files : FileSystem) (inputs : List Path)
    (stage : Stage inputs.length) : Prop where
  asAlone : ∀ position, settings.AsAlone files inputs[position] (stage.progress position)
  merged : settings.Merged files inputs (fun position => (stage.progress position).turns = 2)
    stage.files

namespace Consistent

variable {settings : Settings} {files next : FileSystem} {inputs : List Path}
  {stage : Stage inputs.length} {position : Fin inputs.length} {progress : Progress}

theorem start (settings : Settings) (files : FileSystem) (inputs : List Path) :
    settings.Consistent files inputs ⟨files, fun _ => .waiting⟩ :=
  ⟨fun _ => .waiting, (Merged.start settings files inputs).congr fun _ => by simp [Progress.turns]⟩

/-- A step of one module keeps the invariant if the module comes to what it comes to when it is
alone, and the files are merged with what it has done. -/
theorem advance (h : settings.Consistent files inputs stage)
    (hprogress : settings.AsAlone files inputs[position] progress)
    (hmerged : settings.Merged files inputs (fun other => (stage.progress other).turns = 2 ∨
      other = position ∧ progress.turns = 2) next)
    (hposition : (stage.progress position).turns ≠ 2) :
    settings.Consistent files inputs (stage.advance position next progress) := by
  refine ⟨fun other => ?_, hmerged.congr fun other => ?_⟩
  · by_cases hother : other = position
    · rw [hother, Stage.progress_advance_self]
      exact hprogress
    · rw [Stage.progress_advance_of_ne hother]
      exact h.asAlone other
  · by_cases hother : other = position
    · rw [hother, Stage.progress_advance_self]
      simp [hposition]
    · rw [Stage.progress_advance_of_ne hother]
      simp [hother]

/-- **A turn preserves what all turns preserve.** By how far the module has come that takes it. -/
theorem turn (h : settings.Consistent files inputs stage)
    (hindependent : settings.Independent files inputs)
    (hfound : ∀ input ∈ inputs, ∃ place bytes, files.locate input = .ok (place, .file bytes))
    (position : Fin inputs.length) :
    settings.Consistent files inputs (settings.turn inputs stage position) := by
  have hasAlone := h.asAlone position
  generalize hprogress : stage.progress position = progress at hasAlone
  cases hasAlone with
  | waiting =>
    have hundone : ¬ (stage.progress position).turns = 2 := by
      rw [hprogress]
      exact Nat.zero_ne_add_one 1
    -- Nothing is written, and what is read is what is read by the module alone.
    rw [turn_of_waiting hprogress, h.merged.wrapModule_eq hindependent hundone
      (hfound _ (List.getElem_mem position.isLt))]
    apply h.advance .wrapped (h.merged.congr fun other => ?_) hundone
    simp [Progress.turns]
  | wrapped =>
    have hundone : ¬ (stage.progress position).turns = 2 := by
      rw [hprogress]
      exact Nat.succ_ne_self 1 |>.symm
    obtain ⟨next, hperform, hmerged⟩ := h.merged.finish hindependent hundone
    rw [turn_of_wrapped hprogress, hperform]
    apply h.advance .finished (hmerged.congr fun other => ?_) hundone
    simp [Progress.turns]
  | finished =>
    rw [turn_of_finished hprogress]
    exact h

end Consistent

/-! ## All turns -/

section Run

variable {settings : Settings} {files merged : FileSystem} {inputs : List Path}

/-- A module that has taken both of its turns has come to what it comes to when it is alone. -/
theorem AsAlone.eq_finished {input : Path} {progress : Progress}
    (h : settings.AsAlone files input progress) (hturns : progress.turns = 2) :
    progress = .finished (settings.alone files input).1 := by
  cases h with
  | waiting => cases hturns
  | wrapped => cases hturns
  | finished => rfl

/-- **All turns preserve what a turn preserves.** -/
theorem consistent_foldl_turn (hindependent : settings.Independent files inputs)
    (hfound : ∀ input ∈ inputs, ∃ place bytes, files.locate input = .ok (place, .file bytes))
    (order : List (Fin inputs.length)) {stage : Stage inputs.length}
    (h : settings.Consistent files inputs stage) :
    settings.Consistent files inputs (order.foldl (settings.turn inputs) stage) := by
  induction order generalizing stage with
  | nil => exact h
  | cons position order ih => exact ih (h.turn hindependent hfound position)

/-- A module has taken as many turns as it has had, up to two. So in an order that has every
position twice all modules are finished. -/
theorem turns_foldl_turn (order : List (Fin inputs.length)) (stage : Stage inputs.length)
    (position : Fin inputs.length) :
    ((order.foldl (settings.turn inputs) stage).progress position).turns =
      min 2 ((stage.progress position).turns + order.count position) := by
  induction order generalizing stage with
  | nil =>
    have hle := (stage.progress position).turns_le
    rw [List.foldl_nil, List.count_nil]
    omega
  | cons first order ih =>
    rw [List.foldl_cons, ih]
    by_cases hfirst : position = first
    · rw [hfirst, turns_turn_self, List.count_cons_self]
      omega
    · rw [progress_turn_of_ne hfirst, List.count_cons_of_ne (Ne.symm hfirst)]

/-! ## One module after the other -/

/-- A run does one module, and then the rest in what that one has left. -/
theorem compileModules_cons (input : Path) (rest : List Path) (files : FileSystem) :
    (settings.compileModules (input :: rest)).run files =
      (⟨input, (files.perform (settings.compileModule input)).1⟩ ::
          ((settings.compileModules rest).run
            (files.perform (settings.compileModule input)).2).1,
        ((settings.compileModules rest).run
          (files.perform (settings.compileModule input)).2).2) := by
  rw [compileModules, List.mapM_cons]
  rfl

/-- A module that takes both of its turns at once, which is what a run that does one after the other
lets it do. -/
theorem Merged.compileModule {done : Fin inputs.length → Prop} {position : Fin inputs.length}
    (h : settings.Merged files inputs done merged)
    (hindependent : settings.Independent files inputs)
    (hfound : ∀ input ∈ inputs, ∃ place bytes, files.locate input = .ok (place, .file bytes))
    (hposition : ¬ done position) :
    ∃ next, merged.perform (settings.compileModule inputs[position]) =
        ((settings.alone files inputs[position]).1, next) ∧
      settings.Merged files inputs (fun other => done other ∨ other = position) next := by
  rw [perform_compileModule, h.wrapModule_eq hindependent hposition
    (hfound _ (List.getElem_mem position.isLt))]
  exact h.finish hindependent hposition

/-- Modules that are done one after the other come to what they come to when they are alone, and
what they change is merged. The positions must not repeat, as what a module has changed could be
what it reads. -/
theorem Merged.compileModules {done : Fin inputs.length → Prop}
    {positions : List (Fin inputs.length)} (h : settings.Merged files inputs done merged)
    (hindependent : settings.Independent files inputs)
    (hfound : ∀ input ∈ inputs, ∃ place bytes, files.locate input = .ok (place, .file bytes))
    (hpositions : ∀ position ∈ positions, ¬ done position) (hnodup : positions.Nodup) :
    ∃ after, (settings.compileModules (positions.map (inputs[·]))).run merged =
        (positions.map fun position =>
          ⟨inputs[position], (settings.alone files inputs[position]).1⟩, after) ∧
      settings.Merged files inputs (fun other => done other ∨ other ∈ positions) after := by
  induction positions generalizing done merged with
  | nil => exact ⟨merged, rfl, h.congr fun other => by simp⟩
  | cons position positions ih =>
    obtain ⟨hnotMem, hrest⟩ := List.nodup_cons.1 hnodup
    obtain ⟨next, hperform, hmerged⟩ :=
      h.compileModule hindependent hfound (hpositions position List.mem_cons_self)
    have hundone : ∀ other ∈ positions, ¬ (done other ∨ other = position) := by
      rintro other hother (hdone | rfl)
      · exact hpositions other (List.mem_cons_of_mem _ hother) hdone
      · exact hnotMem hother
    obtain ⟨after, hrun, hafter⟩ := ih hmerged hundone hrest
    refine ⟨after, ?_, hafter.congr fun other => by simp [or_assoc]⟩
    rw [List.map_cons, compileModules_cons, hperform, hrun, List.map_cons]

/-- A run that has found its files goes through them one after the other. -/
theorem perform_run (h : Discovery.run files settings.filter settings.inputs = .ok inputs) :
    files.perform settings.run = (.ok ((settings.compileModules inputs).run files).1,
      ((settings.compileModules inputs).run files).2) := by
  rw [run, FileSystem.perform_get_bind, h]
  rfl

end Run

/-- **The order of the turns does not matter.** If the modules of a run are independent, each of
them comes to what it comes to when it is alone, in whatever order they take their two turns, and
all files are those of a run that does one module after the other. -/
theorem takeTurns_eq_run (settings : Settings) (files : FileSystem) (inputs : List Path)
    (hinputs : Discovery.run files settings.filter settings.inputs = .ok inputs)
    (hindependent : settings.Independent files inputs) (order : List (Fin inputs.length))
    (horder : ∀ position, order.count position = 2) :
    ∃ after, files.perform settings.run =
        (.ok (inputs.map fun input => ⟨input, (settings.alone files input).1⟩), after) ∧
      (∀ position, (settings.takeTurns files inputs order).progress position =
        .finished (settings.alone files inputs[position]).1) ∧
      ∀ place, (settings.takeTurns files inputs order).files.get? place = after.get? place := by
  have hfound : ∀ input ∈ inputs, ∃ place bytes, files.locate input = .ok (place, .file bytes) :=
    fun input hinput => Discovery.exists_locate_of_run hinputs hinput
  have hconsistent : settings.Consistent files inputs (settings.takeTurns files inputs order) :=
    consistent_foldl_turn hindependent hfound order (.start settings files inputs)
  have hturns : ∀ position,
      ((settings.takeTurns files inputs order).progress position).turns = 2 := by
    intro position
    rw [takeTurns, turns_foldl_turn, horder]
    rfl
  -- The run does the same modules in the order of the inputs, and it merges what they come to
  -- alone, too.
  obtain ⟨after, hrun, hafter⟩ := (Merged.start settings files inputs).compileModules
    hindependent hfound (fun _ _ => id) (List.nodup_finRange inputs.length)
  refine ⟨after, ?_, fun position => ?_, fun place => ?_⟩
  · have hall : (List.finRange inputs.length).map (inputs[·]) = inputs := by
      rw [← List.ofFn_eq_map]
      exact List.ofFn_getElem
    have houtcomes : ((List.finRange inputs.length).map fun position =>
        (⟨inputs[position], (settings.alone files inputs[position]).1⟩ : ModuleOutcome)) =
          inputs.map fun input => ⟨input, (settings.alone files input).1⟩ := by
      conv_rhs => rw [← hall, List.map_map]
      rfl
    rw [hall, houtcomes] at hrun
    rw [perform_run hinputs, hrun]
  · exact (hconsistent.asAlone position).eq_finished (hturns position)
  · refine hafter.get?_eq (hconsistent.merged.congr fun other => ?_) place
    exact iff_of_true (.inr (List.mem_finRange other)) (hturns other)

/-! ## Modules that are independent -/

/-- A program without statements. -/
def emptyProgram : String := "\x7b\"type\":\"Program\",\"body\":[]\x7d"

theorem parse_emptyProgram : Program.parse emptyProgram = .ok ⟨[], none⟩ := by
  with_unfolding_all rfl

/-- What becomes of it: the wrapper without dependencies, and nothing in it. -/
def emptyWrapped (options : WrapOptions) : Wrapped :=
  ⟨⟨[wrapper [] [] options], some "script"⟩, []⟩

theorem wrap_emptyProgram (options : WrapOptions) :
    (⟨[], none⟩ : Program).wrap options = .ok (emptyWrapped options) := by with_unfolding_all rfl

/-- Two modules next to each other. There is no directory for the output, so both of them make
it. -/
def siblings : FileSystem :=
  ⟨[(["p"], .directory), (["p", "a.json"], .file emptyProgram.toUTF8),
    (["p", "b.json"], .file emptyProgram.toUTF8)]⟩

/-- The settings of a run that takes both of them. -/
def siblingSettings : Settings :=
  ⟨"define", false, ⟨"/p"⟩, some ⟨"/o"⟩, none, false, false, [⟨"/p/a.json"⟩, ⟨"/p/b.json"⟩]⟩

/-- What one of them leaves when it is alone, with the text that is written left open. -/
def siblingsAfter (name : String) (bytes : ByteArray) : FileSystem :=
  (siblings.put ["o"] .directory).put ["o", name] (.file bytes)

/-- A module is read from its place, and put in a file of its name in a new directory. -/
structure IsSibling (input : Path) (name : String) : Prop where
  locate : siblings.locate input = .ok (["p", name], .file emptyProgram.toUTF8)
  isOk : (siblingSettings.alone siblings input).1.isOk = true
  passed : siblingSettings.passed siblings input = [["o"], ["o", name]]
  putAt : ∀ place, siblingSettings.PutAt siblings input place → place = ["o", name]

/-- What is to be computed for one of the modules: what its path leads to, and what is stored when
its file is put. The text that is written does not come into it. -/
theorem IsSibling.of_put {input path : Path} {name : String}
    (hlocate : siblings.locate input = .ok (["p", name], .file emptyProgram.toUTF8))
    (hpath : ModuleFile.outputPath input ⟨"/p"⟩ ⟨"/o"⟩ = path)
    (hput : ∀ text finished, siblings.perform (putFile path text finished) =
      (.ok finished, siblingsAfter name text.toUTF8))
    (hpasses : ∀ bytes, (siblingsAfter name bytes).passes path = [["o"], ["o", name]])
    (hfind : ∀ bytes, (siblingsAfter name bytes).find path =
      .ok (.entry ["o", name] (.file bytes))) :
    IsSibling input name := by
  have hwrap := wrap_emptyProgram
    (siblingSettings.wrapOptions (ModuleFile.moduleId input siblingSettings.rootDir))
  obtain ⟨⟨finished, halone⟩, hpassed⟩ :=
    alone_of_read hlocate parse_emptyProgram hwrap rfl rfl hpath (hput _)
  obtain ⟨module, hwrapped, htarget⟩ :=
    exists_target_of_read hlocate parse_emptyProgram hwrap rfl rfl hpath
  refine ⟨hlocate, by rw [halone]; rfl, hpassed.trans (hpasses _), fun place hplace => ?_⟩
  have hfound := hplace.find hwrapped htarget
  rw [halone, hfind] at hfound
  cases hfound
  rfl

theorem isSibling_a : IsSibling ⟨"/p/a.json"⟩ "a.json" :=
  .of_put rfl rfl (fun _ _ => rfl) (fun _ => rfl) fun _ => rfl

theorem isSibling_b : IsSibling ⟨"/p/b.json"⟩ "b.json" :=
  .of_put rfl rfl (fun _ _ => rfl) (fun _ => rfl) fun _ => rfl

/-- Each of the two modules takes a turn before the other one has taken both of its turns. Both make
the directory for the output, which is where they meet. -/
theorem takeTurns_eq_run_siblings :
    Discovery.run siblings siblingSettings.filter siblingSettings.inputs =
        .ok [⟨"/p/a.json"⟩, ⟨"/p/b.json"⟩] ∧
      siblingSettings.Independent siblings [⟨"/p/a.json"⟩, ⟨"/p/b.json"⟩] ∧
      (∀ position : Fin 2, [0, 1, 1, 0].count position = 2) ∧
      ∃ after, siblings.perform siblingSettings.run =
          (.ok ([⟨"/p/a.json"⟩, ⟨"/p/b.json"⟩].map fun input =>
            ⟨input, (siblingSettings.alone siblings input).1⟩), after) ∧
        (∀ position, (siblingSettings.takeTurns siblings [⟨"/p/a.json"⟩, ⟨"/p/b.json"⟩]
          [(0 : Fin 2), 1, 1, 0]).progress position =
            .finished (siblingSettings.alone siblings
              [(⟨"/p/a.json"⟩ : Path), ⟨"/p/b.json"⟩][position]).1) ∧
        ∀ place, (siblingSettings.takeTurns siblings [⟨"/p/a.json"⟩, ⟨"/p/b.json"⟩]
          [(0 : Fin 2), 1, 1, 0]).files.get? place = after.get? place := by
  have hinputs : Discovery.run siblings siblingSettings.filter siblingSettings.inputs =
      .ok [⟨"/p/a.json"⟩, ⟨"/p/b.json"⟩] := by
    have hdistinct : Path.isSame ⟨"/p/a.json"⟩ ⟨"/p/b.json"⟩ = false := rfl
    rw [siblingSettings, Discovery.run_of_files, Discovery.dropRepeats_eq_self]
    · exact .cons_cons hdistinct (.singleton _)
    · intro input hinput
      rcases List.mem_pair.1 hinput with rfl | rfl
      · exact ⟨_, _, isSibling_a.locate⟩
      · exact ⟨_, _, isSibling_b.locate⟩
  -- The directory is made by both of them, and the files have two names.
  have hindependent : siblingSettings.Independent siblings [⟨"/p/a.json"⟩, ⟨"/p/b.json"⟩] := by
    have hsibling : ∀ position : Fin 2, IsSibling
        [(⟨"/p/a.json"⟩ : Path), ⟨"/p/b.json"⟩][position] ["a.json", "b.json"][position] :=
      Fin.forall_fin_two.2 ⟨isSibling_a, isSibling_b⟩
    have hnames : ∀ one other : Fin 2, one ≠ other →
        ["a.json", "b.json"][one] ≠ ["a.json", "b.json"][other] := by decide
    apply independent_of_putAt
    · intro input hinput
      obtain ⟨position, hposition, rfl⟩ := List.getElem_of_mem hinput
      exact ⟨_, _, (hsibling ⟨position, hposition⟩).locate⟩
    · exact fun position _ => (hsibling position).isOk
    · intro one other hne place hplace
      obtain rfl := (hsibling one).putAt place hplace
      refine ⟨?_, fun entry hlocate => ?_⟩
      · rw [(hsibling other).passed]
        simpa using hnames one other hne
      · rw [(hsibling other).locate] at hlocate
        simp at hlocate
  have horder : ∀ position : Fin 2, [0, 1, 1, 0].count position = 2 := by decide
  exact ⟨hinputs, hindependent, horder, takeTurns_eq_run siblingSettings siblings
    [⟨"/p/a.json"⟩, ⟨"/p/b.json"⟩] hinputs hindependent [(0 : Fin 2), 1, 1, 0] horder⟩

/-! ## Modules that are not -/

/-- Where a file is put that is not below the root directory depends on its name only. -/
theorem outputPath_of_elsewhere {path other root out : Path} (hpath : path.stripPrefix? root = none)
    (hother : other.stripPrefix? root = none) (hsame : path.fileName? = other.fileName?)
    (hname : other.fileName?.isSome = true) :
    ModuleFile.outputPath path root out = ModuleFile.outputPath other root out := by
  obtain ⟨name, hname⟩ := Option.isSome_iff_exists.1 hname
  rw [ModuleFile.outputPath, ModuleFile.outputPath, hpath, hother, hsame, hname]
  rfl

/-- A module that takes both of its turns at once leaves what it leaves when it is alone. -/
theorem turn_turn_of_waiting {settings : Settings} {inputs : List Path}
    {stage : Stage inputs.length} {position : Fin inputs.length}
    (h : stage.progress position = .waiting) :
    (settings.turn inputs (settings.turn inputs stage position) position).files =
        (settings.alone stage.files inputs[position]).2 ∧
      ∀ other, other ≠ position →
        (settings.turn inputs (settings.turn inputs stage position) position).progress other =
          stage.progress other := by
  have hwrapped : (settings.turn inputs stage position).progress position =
      .wrapped (settings.wrapModule stage.files inputs[position]) := by
    rw [turn_of_waiting h, Stage.progress_advance_self]
  refine ⟨?_, fun other hother => ?_⟩
  · rw [turn_of_wrapped hwrapped, turn_of_waiting h, Stage.files_advance, Stage.files_advance,
      alone_eq_finish]
  · rw [progress_turn_of_ne hother, progress_turn_of_ne hother]

/-- Two modules one after the other leave what the second one leaves where the first one has
been. -/
theorem files_takeTurns_pair (settings : Settings) (files : FileSystem) {inputs : List Path}
    {one other : Fin inputs.length} (h : other ≠ one) :
    (settings.takeTurns files inputs [one, one, other, other]).files =
      (settings.alone (settings.alone files inputs[one]).2 inputs[other]).2 := by
  have hwaiting : ∀ position : Fin inputs.length,
      (⟨files, fun _ => .waiting⟩ : Stage inputs.length).progress position = .waiting :=
    fun _ => rfl
  obtain ⟨hfiles, hprogress⟩ := turn_turn_of_waiting (hwaiting one)
  obtain ⟨hfiles', -⟩ := turn_turn_of_waiting ((hprogress other h).trans (hwaiting other))
  rw [takeTurns, List.foldl_cons, List.foldl_cons, List.foldl_cons, List.foldl_cons,
    List.foldl_nil, hfiles', hfiles]

/-- Two files of one name in two directories. -/
def namesakes : FileSystem :=
  ⟨[(["a"], .directory), (["a", "m.json"], .file emptyProgram.toUTF8),
    (["b"], .directory), (["b", "m.json"], .file emptyProgram.toUTF8)]⟩

/-- The settings of a run that takes both of them. The root directory is elsewhere, and modules are
named, so the two texts that are written differ. -/
def namesakeSettings : Settings :=
  ⟨"define", true, ⟨"/r"⟩, some ⟨"/o"⟩, none, false, false, [⟨"/a/m.json"⟩, ⟨"/b/m.json"⟩]⟩

/-- What one of them leaves: the one file for both of them, with its text. -/
def namesakesAfter (bytes : ByteArray) : FileSystem :=
  (namesakes.put ["o"] .directory).put ["o", "m.json"] (.file bytes)

/-- The text of a module without statements that has the given name. -/
def namesakeText (name : String) : String :=
  (emptyWrapped ⟨"define", some name⟩).program.render .compact

/-- A module is put in the one file, be it there or not. -/
structure IsNamesake (input : Path) (name : String) : Prop where
  locate : ∃ place, namesakes.locate input = .ok (place, .file emptyProgram.toUTF8)
  alone : (namesakeSettings.alone namesakes input).2 = namesakesAfter (namesakeText name).toUTF8
  alone_after : ∀ bytes, (namesakeSettings.alone (namesakesAfter bytes) input).2 =
    (namesakesAfter bytes).put ["o", "m.json"] (.file (namesakeText name).toUTF8)

/-- What is to be computed for one of the modules: that it is found before and after the other one
has been written. -/
theorem IsNamesake.of_locate {input : Path} {name : String} {place : Location}
    (hlocate : namesakes.locate input = .ok (place, .file emptyProgram.toUTF8))
    (hafter : ∀ bytes, (namesakesAfter bytes).locate input =
      .ok (place, .file emptyProgram.toUTF8))
    (hname : ModuleFile.moduleId input ⟨"/r"⟩ = name)
    (helsewhere : input.stripPrefix? ⟨"/r"⟩ = none) (hsame : input.fileName? = some "m.json") :
    IsNamesake input name := by
  have hpath : ModuleFile.outputPath input ⟨"/r"⟩ ⟨"/o"⟩ = ⟨"/o/m.json"⟩ :=
    outputPath_of_elsewhere helsewhere (show Path.stripPrefix? ⟨"m.json"⟩ ⟨"/r"⟩ = none from rfl)
      hsame rfl
  have hput : ∀ text finished, namesakes.perform (putFile ⟨"/o/m.json"⟩ text finished) =
      (.ok finished, namesakesAfter text.toUTF8) := fun _ _ => rfl
  -- The directory is missing for the first of the two and there for the second.
  have hputAfter : ∀ bytes text finished,
      (namesakesAfter bytes).perform (putFile ⟨"/o/m.json"⟩ text finished) =
        (.ok finished, (namesakesAfter bytes).put ["o", "m.json"] (.file text.toUTF8)) :=
    fun _ _ _ => rfl
  have hwrap := wrap_emptyProgram (namesakeSettings.wrapOptions name)
  rw [← hname] at hwrap ⊢
  refine ⟨⟨place, hlocate⟩, ?_, ?_⟩
  · obtain ⟨⟨finished, halone⟩, -⟩ := alone_of_read hlocate parse_emptyProgram hwrap rfl rfl hpath
      (hput _)
    rw [halone]
    rfl
  · intro bytes
    obtain ⟨⟨finished, halone⟩, -⟩ := alone_of_read (hafter bytes) parse_emptyProgram hwrap rfl
      rfl hpath (hputAfter bytes _)
    rw [halone]
    rfl

theorem isNamesake_a : IsNamesake ⟨"/a/m.json"⟩ "a/m" :=
  .of_locate rfl (fun _ => rfl) rfl rfl rfl

theorem isNamesake_b : IsNamesake ⟨"/b/m.json"⟩ "b/m" :=
  .of_locate rfl (fun _ => rfl) rfl rfl rfl

/-- The two texts differ in the names. Both are long, so what is compared is the list of
characters. -/
theorem namesakeText_ne : namesakeText "a/m" ≠ namesakeText "b/m" := by
  have htexts : ∀ name, namesakeText name = String.ofList
      (Json.print .compact 0 (emptyWrapped ⟨"define", some name⟩).program.toJson) := fun _ => rfl
  rw [htexts, htexts, Ne, String.ofList_inj]
  decide +kernel

theorem IsNamesake.get?_after {one other : Path} {name name' : String} (hone : IsNamesake one name)
    (hother : IsNamesake other name') :
    (namesakeSettings.alone (namesakeSettings.alone namesakes one).2 other).2.get? ["o", "m.json"] =
      some (.file (namesakeText name').toUTF8) := by
  rw [hone.alone, hother.alone_after, FileSystem.get?_put _ _ (List.cons_ne_nil _ _), if_pos rfl]

/-- **The last one wins.** Two modules of one name that are not below the root directory are put in
one file, and what is in it depends on the order of the turns. -/
theorem takeTurns_namesakes :
    Discovery.run namesakes namesakeSettings.filter namesakeSettings.inputs =
        .ok [⟨"/a/m.json"⟩, ⟨"/b/m.json"⟩] ∧
      (∀ position : Fin 2, [0, 0, 1, 1].count position = 2) ∧
      (∀ position : Fin 2, [1, 1, 0, 0].count position = 2) ∧
      (namesakeSettings.takeTurns namesakes [⟨"/a/m.json"⟩, ⟨"/b/m.json"⟩]
          [(0 : Fin 2), 0, 1, 1]).files.get? ["o", "m.json"] ≠
        (namesakeSettings.takeTurns namesakes [⟨"/a/m.json"⟩, ⟨"/b/m.json"⟩]
          [(1 : Fin 2), 1, 0, 0]).files.get? ["o", "m.json"] := by
  refine ⟨?_, by decide, by decide, ?_⟩
  · have hdistinct : Path.isSame ⟨"/a/m.json"⟩ ⟨"/b/m.json"⟩ = false := rfl
    rw [namesakeSettings, Discovery.run_of_files, Discovery.dropRepeats_eq_self]
    · exact .cons_cons hdistinct (.singleton _)
    · intro input hinput
      rcases List.mem_pair.1 hinput with rfl | rfl
      · exact isNamesake_a.locate.imp fun _ h => ⟨_, h⟩
      · exact isNamesake_b.locate.imp fun _ h => ⟨_, h⟩
  · intro h
    rw [files_takeTurns_pair _ _ Fin.zero_ne_one.symm,
      files_takeTurns_pair _ _ Fin.zero_ne_one] at h
    have htexts := (isNamesake_a.get?_after isNamesake_b).symm.trans
      (h.trans (isNamesake_b.get?_after isNamesake_a))
    have hbytes := Entry.file.inj (Option.some.inj htexts)
    exact namesakeText_ne (String.toByteArray_inj.1 hbytes).symm

end Settings

end DefineWrap
