/-
What a second run takes.

What is new after a run has been written by it, so a second run takes the same files exactly if no
input gives a file that the first one has made (`Settings.run_after_run`), in whatever order the
modules have taken their turns (`Settings.run_after_takeTurns`).

The output directory is passed over as it is spelled. A walk comes to files in it if it is spelled
with two dots, if a link leads there, or if the walk begins inside it. It does not if all paths are
plain, there are no links, and no directory that is given lies in the output directory
(`Settings.KeepsApart`).
-/
import DefineWrap.Proofs.Project.Plain
import DefineWrap.Proofs.Project.Rediscovery
import DefineWrap.Proofs.Project.Turns

set_option autoImplicit false

namespace DefineWrap

open FileSystem

/-- The path that a module has been written to, if it has. -/
def writtenPath? (result : Except ModuleError FinishedModule) : Option Path :=
  result.toOption.bind FinishedModule.written

namespace Settings

variable {settings : Settings} {files after : FileSystem} {input path : Path}
  {inputs paths : List Path} {outcomes : List ModuleOutcome} {written : Path → Prop}

/-! ## Output that is read back -/

/-- A path leads to a file that has been written, where nothing was stored before. It need not be
the path that was written to: another spelling or a link may lead there, too. -/
def Rereads (before after : FileSystem) (written : Path → Prop) (path : Path) : Prop :=
  ∃ target, written target ∧ ∃ place bytes, after.locate target = .ok (place, .file bytes) ∧
    after.locate path = .ok (place, .file bytes) ∧ before.get? place = none

/-- What is new has been written, and what has been written where nothing was is new. -/
theorem isNew_iff_rereads (h : Evolves written files after) :
    Discovery.IsNew files after path ↔ Rereads files after written path := by
  constructor
  · rintro ⟨place, bytes, hlocate, hnone⟩
    have hstored := get?_of_locate hlocate
    rcases h.exists_locate hstored with ⟨bytes', hbefore⟩ | ⟨target, htarget, bytes', hthere⟩
    · rw [hnone] at hbefore
      cases hbefore
    · have hsame := get?_of_locate hthere
      rw [hstored] at hsame
      cases hsame
      exact ⟨target, htarget, place, bytes, hthere, hlocate, hnone⟩
  · rintro ⟨target, -, place, bytes, -, hlocate, hnone⟩
    exact ⟨place, bytes, hlocate, hnone⟩

/-- All paths are plain, there are no links, and no directory that is given lies in the output
directory. Then what is written is recognized by how it is spelled. -/
structure KeepsApart (settings : Settings) (files : FileSystem) : Prop where
  links : files.HasNoLinks
  root : settings.rootDir.isAbsolute = true
  out : ∀ out ∈ settings.outDir, out.IsPlain
  inputs : ∀ input ∈ settings.inputs, input.IsPlain
  apart : ∀ out ∈ settings.outDir, ∀ input ∈ settings.inputs, files.isDirectory input = true →
    out.components <+: input.components → input.components = out.components

/-- What a plain input gives is plain, because a walk goes on by names. -/
theorem isPlain_of_gives {filter : Discovery.Filter} (htree : files.IsTree)
    (hinput : input.IsPlain) (h : Discovery.Gives files filter input path) : path.IsPlain := by
  cases h with
  | file => exact hinput
  | directory _ hfinds _ =>
    obtain ⟨names, hnames⟩ := hfinds.exists_components htree
    exact hinput.append hnames

/-- What a run takes has plain paths with names in them. A path without names would be the root,
which is no file. -/
theorem KeepsApart.isPlain (h : settings.KeepsApart files) (htree : files.IsTree)
    (hfound : Discovery.run files settings.filter settings.inputs = .ok paths)
    (hpath : path ∈ paths) : path.IsPlain ∧ path.place ≠ [] := by
  obtain ⟨input, hinput, hgives⟩ := Discovery.exists_gives_of_mem_run htree hfound hpath
  refine ⟨isPlain_of_gives htree (h.inputs input hinput) hgives, ?_⟩
  obtain ⟨place, bytes, hlocate⟩ := Discovery.exists_locate_of_run hfound hpath
  rw [← place_of_locate h.links hlocate]
  exact ne_nil_of_endsAt (.file bytes) (get?_of_locate hlocate)

/-- **Output is not read back** where it is kept apart. A path that leads to what was written has
the components of it, so it goes on from the output directory; and a walk that came there has passed
that directory over. -/
theorem KeepsApart.not_rereads (h : settings.KeepsApart files) (htree : files.IsTree)
    (hfound : Discovery.run files settings.filter settings.inputs = .ok paths)
    (hevolves : Evolves written files after)
    (hwritten : ∀ target, written target → ∃ input ∈ paths, ∃ out ∈ settings.outDir,
      target = ModuleFile.outputPath input settings.rootDir out)
    (hinput : input ∈ settings.inputs)
    (hgives : Discovery.Gives after settings.filter input path) :
    ¬ Rereads files after written path := by
  rintro ⟨target, htarget, place, bytes, hthere, hpath, hnone⟩
  have hspreads := hevolves.spreads
  have htree' := hspreads.tree htree
  have hlinks : after.HasNoLinks := fun place target hstored =>
    h.links place target (hspreads.links place target hstored)
  obtain ⟨module, hmodule, out, hout, rfl⟩ := hwritten target htarget
  obtain ⟨hplainModule, hplace⟩ := h.isPlain htree hfound hmodule
  obtain ⟨hplain, hbegins⟩ :=
    ModuleFile.isPlain_outputPath hplainModule hplace h.root (h.out out hout)
  -- The path that is given leads to the same place, so it has the same components.
  have hsame : path.components =
      (ModuleFile.outputPath module settings.rootDir out).components := by
    rw [(isPlain_of_gives htree' (h.inputs input hinput) hgives).components_eq,
      hplain.components_eq, ← place_of_locate hlinks hpath, ← place_of_locate hlinks hthere]
  rw [← hsame] at hbegins
  cases hgives with
  | file hfile =>
    have hfile' := Discovery.isFile_of_after htree hspreads hfound hinput hfile
    rw [Discovery.IsNew.isFile_eq_false hspreads ⟨place, bytes, hpath, hnone⟩] at hfile'
    cases hfile'
  | directory hdirectory hfinds htaken =>
    -- The walk has not begun in the output directory, so it has passed it over.
    have hbelow : input.components <+: out.components := by
      rcases List.prefix_or_prefix_of_prefix (hfinds.prefix_components htree') hbegins with
        hbelow | habove
      · exact hbelow
      · have hdirectory' :=
          Discovery.isDirectory_of_after hspreads hfound hinput hdirectory
        exact h.apart out hout input hinput hdirectory' habove ▸ List.prefix_rfl
    exact hfinds.not_prefix_components htree' hout hbelow hbegins

/-- **What is taken afterwards**, if some of the modules have been written to their files. How
they came to be written is left open, so this serves one run after another and modules that take
turns. -/
theorem run_after_eq_iff (htree : files.IsTree)
    (hfound : Discovery.run files settings.filter settings.inputs = .ok paths)
    (hevolves : Evolves written files after)
    (hwritten : ∀ target, written target → ∃ input ∈ paths, ∃ out ∈ settings.outDir,
      target = ModuleFile.outputPath input settings.rootDir out) :
    (Discovery.run after settings.filter settings.inputs =
        Discovery.run files settings.filter settings.inputs ↔
      ∀ input ∈ settings.inputs, ∀ path, Discovery.Gives after settings.filter input path →
        ¬ Rereads files after written path) ∧
    (settings.KeepsApart files →
      Discovery.run after settings.filter settings.inputs =
        Discovery.run files settings.filter settings.inputs) := by
  have hiff : Discovery.run after settings.filter settings.inputs =
      Discovery.run files settings.filter settings.inputs ↔
        ∀ input ∈ settings.inputs, ∀ path, Discovery.Gives after settings.filter input path →
          ¬ Rereads files after written path := by
    simp only [← isNew_iff_rereads hevolves]
    exact Discovery.run_after_eq_iff htree hevolves.spreads hfound
  refine ⟨hiff, fun hapart => hiff.2 fun input hinput path hgives => ?_⟩
  exact hapart.not_rereads htree hfound hevolves hwritten hinput hgives

/-! ## One module after the other -/

/-- A run over modules writes the files that it reports, one module after the other, and makes
directories. -/
theorem evolves_compileModules (settings : Settings) (inputs : List Path) (files : FileSystem) :
    Evolves (fun path => ∃ outcome ∈ ((settings.compileModules inputs).run files).1,
        path ∈ writtenPath? outcome.result)
      files ((settings.compileModules inputs).run files).2 := by
  induction inputs generalizing files with
  | nil => exact .same
  | cons input inputs ih =>
    have hfirst := settings.evolves_finish files input (settings.wrapModule files input)
    rw [← perform_compileModule] at hfirst
    rw [compileModules_cons]
    refine (hfirst.mono ?_).trans ((ih _).mono ?_)
    · rintro path ⟨finished, hresult, hwritten⟩
      refine ⟨_, List.mem_cons_self, ?_⟩
      rw [writtenPath?, hresult]
      exact hwritten
    · rintro path ⟨outcome, houtcome, hwritten⟩
      exact ⟨outcome, List.mem_cons_of_mem _ houtcome, hwritten⟩

/-- The path that a module has been written to is that of its file. -/
theorem outputPath_of_finish {result : Except ModuleError WrappedModule}
    (h : path ∈ writtenPath? (files.perform (settings.finish input result)).1) :
    ∃ out ∈ settings.outDir, path = ModuleFile.outputPath input settings.rootDir out := by
  rw [writtenPath?] at h
  cases hresult : (files.perform (settings.finish input result)).1 with
  | error error =>
    rw [hresult] at h
    cases h
  | ok finished =>
    rw [hresult] at h
    exact exists_outputPath_of_finish hresult h

theorem outputPath_of_compileModules (inputs : List Path) (files : FileSystem) :
    ∀ outcome ∈ ((settings.compileModules inputs).run files).1,
      ∀ path ∈ writtenPath? outcome.result, ∃ input ∈ inputs, ∃ out ∈ settings.outDir,
        path = ModuleFile.outputPath input settings.rootDir out := by
  induction inputs generalizing files with
  | nil => exact List.forall_mem_nil _
  | cons input inputs ih =>
    rw [compileModules_cons]
    refine List.forall_mem_cons.2 ⟨fun path hpath => ?_, fun outcome houtcome path hpath => ?_⟩
    · rw [perform_compileModule] at hpath
      exact ⟨input, List.mem_cons_self, outputPath_of_finish hpath⟩
    · obtain ⟨other, hother, hout⟩ := ih _ outcome houtcome path hpath
      exact ⟨other, List.mem_cons_of_mem _ hother, hout⟩

theorem exists_of_run (h : files.perform settings.run = (.ok outcomes, after)) :
    ∃ paths, Discovery.run files settings.filter settings.inputs = .ok paths ∧
      (settings.compileModules paths).run files = (outcomes, after) := by
  cases hfound : Discovery.run files settings.filter settings.inputs with
  | error error =>
    rw [run, perform_get_bind, hfound] at h
    cases h
  | ok paths =>
    rw [perform_run hfound] at h
    obtain ⟨houtcomes, rfl⟩ := Prod.mk.inj h
    cases houtcomes
    exact ⟨paths, rfl, rfl⟩

/-- **What a second run takes.** It is what the first one has taken exactly if no input gives a file
that the first run has made, and so if output is kept apart from the inputs. -/
theorem run_after_run (htree : files.IsTree)
    (h : files.perform settings.run = (.ok outcomes, after)) :
    (Discovery.run after settings.filter settings.inputs =
        Discovery.run files settings.filter settings.inputs ↔
      ∀ input ∈ settings.inputs, ∀ path, Discovery.Gives after settings.filter input path →
        ¬ Rereads files after (fun target => ∃ outcome ∈ outcomes,
          target ∈ writtenPath? outcome.result) path) ∧
    (settings.KeepsApart files →
      Discovery.run after settings.filter settings.inputs =
        Discovery.run files settings.filter settings.inputs) := by
  obtain ⟨paths, hfound, hmodules⟩ := exists_of_run h
  have hevolves := settings.evolves_compileModules paths files
  have hwritten := settings.outputPath_of_compileModules paths files
  rw [hmodules] at hevolves hwritten
  refine run_after_eq_iff htree hfound hevolves ?_
  rintro target ⟨outcome, houtcome, htarget⟩
  exact hwritten outcome houtcome target htarget

/-- A file is put in a directory that is missing, in one that is there. All that is done is to store
the directory and the file. -/
theorem perform_putFile_of_absent {parent : Path} {place place' : Location} {text : String}
    {finished : FinishedModule} (hparent : path.parent? = some parent)
    (hcomponents : parent.components ≠ []) (hmake : files.findNew parent = .ok (.absent place))
    (hfind : (files.put place .directory).find path = .ok (.absent place'))
    (hslash : ∀ before, path.pieces.reverse ≠ [] :: before) :
    files.perform (putFile path text finished) =
      (.ok finished, (files.put place .directory).put place' (.file text.toUTF8)) := by
  have hthere : files.findNew parent ≠ .error .missing := by
    rw [hmake]
    intro hmissing
    cases hmissing
  have hdirectories : files.perform (FileAction.makeDirectories parent) =
      (.ok (), files.put place .directory) := by
    rw [FileAction.makeDirectories,
      perform_makeDirectoriesWithin_of_not_missing hcomponents (.inr hthere),
      perform_ensureDirectory, hmake]
  rw [putFile, hparent]
  dsimp only
  rw [perform_bind, perform_adapt, hdirectories]
  dsimp only [Except.mapError]
  rw [perform_putText, FileAction.write, perform_writeBytes_of_find hslash, hfind]
  rfl

/-- One module in a directory. -/
def single : FileSystem :=
  ⟨[(["p"], .directory), (["p", "main.json"], .file emptyProgram.toUTF8)]⟩

/-- The settings of a run that takes the directory, with an output directory that is left open. -/
def singleSettings (out : Path) : Settings :=
  ⟨"define", false, ⟨"/p"⟩, some out, none, false, false, [⟨"/p"⟩]⟩

theorem isTree_single : single.IsTree := by
  refine .of_entries (by decide) ?_
  simp only [single, List.forall_mem_cons]
  exact ⟨⟨rfl, by decide⟩, ⟨rfl, by decide⟩, List.forall_mem_nil _⟩

/-- The module is all that is taken, as long as neither it nor the directory is the output
directory. -/
theorem run_single (out : Path) (hout : Path.isSame ⟨"/p"⟩ out = false)
    (hout' : Path.isSame ⟨"/p/main.json"⟩ out = false) :
    Discovery.run single (singleSettings out).filter (singleSettings out).inputs =
      .ok [⟨"/p/main.json"⟩] := by
  have hnames : single.names ["p"] = ["main.json"] := List.mergeSort_singleton _
  have hlocate : single.locate ⟨"/p"⟩ = .ok (["p"], .directory) := rfl
  have hjoin : Path.join ⟨"/p"⟩ ⟨"main.json"⟩ = ⟨"/p/main.json"⟩ := by decide
  have hwalk : (Discovery.Walk.mk single ⟨"/p"⟩ (some out)).run = .ok [⟨"/p/main.json"⟩] := by
    have hpassed : (Discovery.Walk.mk single ⟨"/p"⟩ (some out)).isPassedOver ⟨"/p"⟩ = false := hout
    refine (Discovery.Walk.run_of_files isTree_single hlocate hpassed ?_).trans ?_
    · rw [hnames, List.forall_mem_singleton, hjoin]
      exact ⟨hout', _, rfl⟩
    · rw [hnames, List.map_singleton, hjoin]
  have hexpand : Discovery.expand single (singleSettings out).filter ⟨"/p"⟩ =
      .ok [⟨"/p/main.json"⟩] := by
    refine Discovery.expand_eq_ok_iff.2 (.inl ⟨?_, _, hwalk, ?_⟩)
    · rw [FileSystem.isDirectory, hlocate]
    · rw [List.filter_singleton]
      rfl
  rw [Discovery.run, singleSettings, List.mapM_cons]
  rw [singleSettings] at hexpand
  rw [hexpand]
  exact congrArg Except.ok (Discovery.dropRepeats_eq_self (.singleton _))

/-- The output directory lies in the directory that is given, and is passed over. It is spelled as
the walk comes to it, so what is written there is not taken the next time. -/
theorem run_after_run_passedOver :
    single.IsTree ∧ ∃ outcomes after,
      single.perform (singleSettings ⟨"/p/out"⟩).run = (.ok outcomes, after) ∧
        (singleSettings ⟨"/p/out"⟩).KeepsApart single ∧
        Discovery.run after (singleSettings ⟨"/p/out"⟩).filter (singleSettings ⟨"/p/out"⟩).inputs =
          .ok [⟨"/p/main.json"⟩] := by
  have hfound := run_single ⟨"/p/out"⟩ (by decide) (by decide)
  have hapart : (singleSettings ⟨"/p/out"⟩).KeepsApart single := by
    constructor
    · refine .of_entries ?_
      simp only [single, List.forall_mem_cons]
      exact ⟨nofun, nofun, List.forall_mem_nil _⟩
    · decide
    · rintro out ⟨⟩
      exact ⟨["p", "out"], by decide⟩
    · exact List.forall_mem_singleton.2 ⟨["p"], by decide⟩
    · rintro out ⟨⟩
      exact List.forall_mem_singleton.2 fun _ => by decide
  exact ⟨isTree_single, _, _, perform_run hfound, hapart,
    ((run_after_run isTree_single (perform_run hfound)).2 hapart).trans hfound⟩

/-- What the run leaves, however the output directory is spelled. -/
def singleAfter (bytes : ByteArray) : FileSystem :=
  (single.put ["p", "out"] .directory).put ["p", "out", "main.json"] (.file bytes)

/-- A walk comes to the file that has been written, if the output directory is not passed over as it
is spelled. -/
theorem finds_singleAfter (bytes : ByteArray) {out : Path}
    (hout : ∀ path ∈ [⟨"/p"⟩, ⟨"/p/out"⟩, ⟨"/p/out/main.json"⟩], Path.isSame path out = false) :
    Discovery.Walk.Finds ⟨singleAfter bytes, ⟨"/p"⟩, some out⟩ ⟨"/p/out/main.json"⟩ ⟨"/p"⟩ := by
  have houter : (singleAfter bytes).locate ⟨"/p"⟩ = .ok (["p"], .directory) := rfl
  have hinner : (singleAfter bytes).locate ⟨"/p/out"⟩ = .ok (["p", "out"], .directory) := rfl
  have hfile : (singleAfter bytes).locate ⟨"/p/out/main.json"⟩ =
      .ok (["p", "out", "main.json"], .file bytes) := rfl
  have hjoin : Path.join ⟨"/p"⟩ ⟨"out"⟩ = ⟨"/p/out"⟩ := by decide
  have hjoin' : Path.join ⟨"/p/out"⟩ ⟨"main.json"⟩ = ⟨"/p/out/main.json"⟩ := by decide
  have hname : "out" ∈ (singleAfter bytes).names ["p"] := mem_names_iff.2 ⟨.directory, rfl⟩
  have hname' : "main.json" ∈ (singleAfter bytes).names ["p", "out"] :=
    mem_names_iff.2 ⟨.file bytes, rfl⟩
  simp only [List.forall_mem_cons] at hout
  obtain ⟨hkept, hkept', hkept'', -⟩ := hout
  refine .inside houter hkept hname ?_
  rw [hjoin]
  refine .inside hinner hkept' hname' ?_
  rw [hjoin']
  exact .here hfile hkept''

theorem perform_run_single :
    ∃ outcomes bytes, single.perform (singleSettings ⟨"/p/../p/out"⟩).run =
      (.ok outcomes, singleAfter bytes) := by
  have hlocate : single.locate ⟨"/p/main.json"⟩ =
      .ok (["p", "main.json"], .file emptyProgram.toUTF8) := rfl
  have hpath : ModuleFile.outputPath ⟨"/p/main.json"⟩ ⟨"/p"⟩ ⟨"/p/../p/out"⟩ =
      ⟨"/p/../p/out/main.json"⟩ := by decide
  have hput : ∀ text finished, single.perform (putFile ⟨"/p/../p/out/main.json"⟩ text finished) =
      (.ok finished, singleAfter text.toUTF8) := by
    intro text finished
    have hparent : Path.parent? ⟨"/p/../p/out/main.json"⟩ = some ⟨"/p/../p/out"⟩ := by decide
    refine perform_putFile_of_absent hparent (by decide) rfl rfl ?_
    rw [show (Path.pieces ⟨"/p/../p/out/main.json"⟩).reverse = _ from rfl]
    exact nofun
  obtain ⟨⟨finished, halone⟩, -⟩ := alone_of_read hlocate parse_emptyProgram
    (wrap_emptyProgram ((singleSettings ⟨"/p/../p/out"⟩).wrapOptions _)) rfl rfl hpath (hput _)
  rw [perform_run (run_single _ (by decide) (by decide)), compileModules_cons, ← alone, halone]
  exact ⟨_, _, rfl⟩

/-- **Output that is read back.** The output directory is the same, but is spelled with two dots.
The walk compares spellings and does not pass it over. -/
theorem run_after_run_twoDots :
    ∃ outcomes after, single.perform (singleSettings ⟨"/p/../p/out"⟩).run = (.ok outcomes, after) ∧
      Discovery.run after (singleSettings ⟨"/p/../p/out"⟩).filter
          (singleSettings ⟨"/p/../p/out"⟩).inputs ≠
        Discovery.run single (singleSettings ⟨"/p/../p/out"⟩).filter
          (singleSettings ⟨"/p/../p/out"⟩).inputs := by
  obtain ⟨outcomes, bytes, hrun⟩ := perform_run_single
  refine ⟨outcomes, _, hrun, fun heq => ?_⟩
  -- The file that has been written is found again, and is none of what has been taken.
  have htree : (singleAfter bytes).IsTree := by
    obtain ⟨paths, -, hmodules⟩ := exists_of_run hrun
    have hevolves := (singleSettings ⟨"/p/../p/out"⟩).evolves_compileModules paths single
    rw [hmodules] at hevolves
    exact hevolves.spreads.tree isTree_single
  rw [run_single _ (by decide) (by decide)] at heq
  have hgives : Discovery.Gives (singleAfter bytes) (singleSettings ⟨"/p/../p/out"⟩).filter ⟨"/p"⟩
      ⟨"/p/out/main.json"⟩ :=
    .directory rfl (finds_singleAfter bytes (by decide)) (by decide)
  obtain ⟨other, hother, hsame⟩ :=
    Discovery.exists_mem_run_of_gives htree heq List.mem_cons_self hgives
  rw [List.mem_singleton.1 hother] at hsame
  revert hsame
  decide

/-! ## Modules that take turns -/

/-- The paths that modules have been written to, as far as they have come. -/
def Written {count : Nat} (stage : Stage count) (path : Path) : Prop :=
  ∃ position result, stage.progress position = .finished result ∧ path ∈ writtenPath? result

/-- What has been written so far are files of modules. It is an invariant of turns: one turn
preserves it, and it holds before the first. -/
structure HasWritten (settings : Settings) (files : FileSystem) (inputs : List Path)
    (stage : Stage inputs.length) : Prop where
  evolves : Evolves (Written stage) files stage.files
  output : ∀ path, Written stage path → ∃ input ∈ inputs, ∃ out ∈ settings.outDir,
    path = ModuleFile.outputPath input settings.rootDir out

/-- One more turn preserves it. Only a module that takes its second turn writes, and what it writes
it reports. -/
theorem HasWritten.turn {stage : Stage inputs.length} (h : settings.HasWritten files inputs stage)
    (position : Fin inputs.length) :
    settings.HasWritten files inputs (settings.turn inputs stage position) := by
  -- A module that has taken both turns stays as it is.
  have hkept : ∀ path, Written stage path → Written (settings.turn inputs stage position) path := by
    rintro path ⟨other, result, hresult, hpath⟩
    refine ⟨other, result, ?_, hpath⟩
    by_cases hother : other = position
    · rw [← hother, turn_of_finished hresult, hresult]
    · rw [progress_turn_of_ne hother, hresult]
  cases hprogress : stage.progress position with
  | waiting =>
    -- A module that is read writes nothing.
    have hnew : ∀ path, Written (settings.turn inputs stage position) path →
        Written stage path := by
      rintro path ⟨other, result, hresult, hpath⟩
      rw [turn_of_waiting hprogress] at hresult
      by_cases hother : other = position
      · rw [hother, Stage.progress_advance_self] at hresult
        cases hresult
      · rw [Stage.progress_advance_of_ne hother] at hresult
        exact ⟨other, result, hresult, hpath⟩
    refine ⟨?_, fun path hpath => h.output path (hnew path hpath)⟩
    have hevolves := h.evolves.mono hkept
    rw [turn_of_waiting hprogress] at hevolves ⊢
    exact hevolves
  | wrapped wrapped =>
    -- What a module writes is added to what others have written.
    have hnext := settings.evolves_finish stage.files inputs[position] wrapped
    rw [turn_of_wrapped hprogress] at hkept ⊢
    constructor
    · refine (h.evolves.mono hkept).trans (hnext.mono ?_)
      rintro path ⟨finished, hresult, hpath⟩
      refine ⟨position, _, Stage.progress_advance_self .., ?_⟩
      rw [writtenPath?, hresult]
      exact hpath
    · rintro path ⟨other, result, hresult, hpath⟩
      by_cases hother : other = position
      · rw [hother, Stage.progress_advance_self] at hresult
        cases hresult
        exact ⟨inputs[position], List.getElem_mem position.isLt, outputPath_of_finish hpath⟩
      · rw [Stage.progress_advance_of_ne hother] at hresult
        exact h.output path ⟨other, result, hresult, hpath⟩
  | finished result => rwa [turn_of_finished hprogress]

/-- After any turns what has been written are files of modules. -/
theorem hasWritten_takeTurns (settings : Settings) (files : FileSystem) (inputs : List Path)
    (order : List (Fin inputs.length)) :
    settings.HasWritten files inputs (settings.takeTurns files inputs order) := by
  have hstart : settings.HasWritten files inputs ⟨files, fun _ => .waiting⟩ := by
    refine ⟨.same, ?_⟩
    rintro path ⟨position, result, hresult, -⟩
    cases hresult
  rw [takeTurns]
  generalize (⟨files, fun _ => .waiting⟩ : Stage inputs.length) = stage at hstart
  induction order generalizing stage with
  | nil => exact hstart
  | cons position order ih => exact ih _ (hstart.turn position)

/-- The same holds in whatever order the modules take their turns, and also before all have taken
both of them. -/
theorem run_after_takeTurns (htree : files.IsTree)
    (hfound : Discovery.run files settings.filter settings.inputs = .ok paths)
    (order : List (Fin paths.length)) :
    (Discovery.run (settings.takeTurns files paths order).files settings.filter settings.inputs =
        Discovery.run files settings.filter settings.inputs ↔
      ∀ input ∈ settings.inputs, ∀ path,
        Discovery.Gives (settings.takeTurns files paths order).files settings.filter input path →
          ¬ Rereads files (settings.takeTurns files paths order).files
            (Written (settings.takeTurns files paths order)) path) ∧
    (settings.KeepsApart files →
      Discovery.run (settings.takeTurns files paths order).files settings.filter settings.inputs =
        Discovery.run files settings.filter settings.inputs) :=
  have h := settings.hasWritten_takeTurns files paths order
  run_after_eq_iff htree hfound h.evolves h.output

end Settings

end DefineWrap
