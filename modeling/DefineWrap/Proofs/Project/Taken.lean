/-
The files that a run takes.

A step of a walk goes past a path, finds a file or goes through a directory
(`Discovery.Walk.filesWithin_succ_eq_ok_iff`), and it has followed the path before. So a path is
taken only after it has been followed to a file that is there, be it given or found in a directory
(`Discovery.exists_locate_of_run`).
-/
import DefineWrap.Project.Discovery
import DefineWrap.Proofs.Except
import DefineWrap.Proofs.Project.Following
import Mathlib.Data.List.Chain

set_option autoImplicit false

namespace DefineWrap

namespace Discovery

variable {files : FileSystem} {filter : Filter} {path : Path}

namespace Walk

variable {walk : Walk} {within : List Visited} {depth : Nat} {found : List Path}

/-- Where a walk goes, the path leads. The walk only asks in addition that it does not go round in a
circle. -/
theorem locate_of_resolve {located : Location × Entry}
    (h : walk.resolve within path = .ok located) : walk.files.locate path = .ok located := by
  rw [resolve] at h
  obtain ⟨⟨place, entry⟩, hlocate, h⟩ := Except.bind_ok h
  have hfound : walk.files.locate path = .ok (place, entry) := by
    cases hfound : walk.files.locate path with
    | error error =>
      rw [hfound] at hlocate
      cases hlocate
    | ok other =>
      rw [hfound] at hlocate
      exact congrArg _ (Except.ok.inj hlocate)
  dsimp only at h
  split at h
  · split at h
    · cases h
    · cases h
      exact hfound
  · cases h
    exact hfound

/-- What a walk comes to at a path. The order is that of the program: the path is followed first,
and only then it is asked whether it is passed over, so a path that leads nowhere is an error even
if it would be passed over. -/
inductive Arrives (walk : Walk) (depth : Nat) (within : List Visited) (path : Path) :
    List Path → Prop
  | passedOver {located : Location × Entry} (hresolve : walk.resolve within path = .ok located)
      (hpassed : walk.isPassedOver path = true) : Arrives walk depth within path []
  | file {place : Location} {bytes : ByteArray}
      (hresolve : walk.resolve within path = .ok (place, .file bytes))
      (hpassed : walk.isPassedOver path = false) : Arrives walk depth within path [path]
  | directory {place : Location} {below : List (List Path)}
      (hresolve : walk.resolve within path = .ok (place, .directory))
      (hpassed : walk.isPassedOver path = false)
      (hbelow : (walk.files.names place).mapM (fun name =>
        walk.filesWithin depth (⟨path, place⟩ :: within) (path.join ⟨name⟩)) = .ok below) :
      Arrives walk depth within path below.flatten

/-- A step of a walk goes past a path, finds a file or goes through a directory. A link is none of
these, as it has been followed. -/
theorem filesWithin_succ_eq_ok_iff :
    walk.filesWithin (depth + 1) within path = .ok found ↔
      Arrives walk depth within path found := by
  rw [filesWithin]
  constructor
  · intro h
    obtain ⟨⟨place, entry⟩, hresolve, h⟩ := Except.bind_ok h
    dsimp only at h
    split at h
    next hpassed =>
      cases h
      exact .passedOver hresolve hpassed
    next hpassed =>
      rw [Bool.not_eq_true] at hpassed
      cases entry with
      | directory =>
        obtain ⟨below, hbelow, h⟩ := Except.bind_ok h
        cases h
        exact .directory hresolve hpassed hbelow
      | file bytes =>
        cases h
        exact .file hresolve hpassed
      | link target =>
        exact absurd rfl (FileSystem.ne_link_of_locate (locate_of_resolve hresolve) target)
  · intro h
    cases h with
    | passedOver hresolve hpassed =>
      rw [hresolve]
      dsimp only [bind, Except.bind]
      rw [if_pos hpassed]
      rfl
    | file hresolve hpassed =>
      rw [hresolve]
      dsimp only [bind, Except.bind]
      rw [if_neg (by rw [hpassed]; exact Bool.false_ne_true)]
      rfl
    | directory hresolve hpassed hbelow =>
      rw [hresolve]
      dsimp only [bind, Except.bind]
      rw [if_neg (by rw [hpassed]; exact Bool.false_ne_true), hbelow]
      rfl

/-- A walk has followed each path that it finds to a file. -/
theorem exists_locate_of_filesWithin (h : walk.filesWithin depth within path = .ok found)
    {file : Path} (hfile : file ∈ found) :
    ∃ place bytes, walk.files.locate file = .ok (place, .file bytes) := by
  induction depth generalizing within path found with
  | zero =>
    cases h
    cases hfile
  | succ depth ih =>
    cases filesWithin_succ_eq_ok_iff.1 h with
    | passedOver hresolve hpassed => cases hfile
    | file hresolve hpassed =>
      rw [List.mem_singleton.1 hfile]
      exact ⟨_, _, locate_of_resolve hresolve⟩
    | directory hresolve hpassed hbelow =>
      obtain ⟨part, hpart, hfile⟩ := List.mem_flatten.1 hfile
      obtain ⟨name, -, hname⟩ := Except.mem_of_mapM_ok hbelow hpart
      exact ih hname hfile

end Walk

/-- What an input gives leads to a file, given or found. -/
theorem exists_locate_of_expand {input : Path} {found : List Path}
    (h : expand files filter input = .ok found) {file : Path} (hfile : file ∈ found) :
    ∃ place bytes, files.locate file = .ok (place, .file bytes) := by
  rw [expand] at h
  split at h
  · obtain ⟨all, hall, h⟩ := Except.bind_ok h
    cases h
    exact Walk.exists_locate_of_filesWithin hall (List.mem_filter.1 hfile).1
  · split at h
    next hisFile =>
      cases h
      rw [List.mem_singleton.1 hfile]
      rw [FileSystem.isFile] at hisFile
      split at hisFile
      next place bytes hlocate => exact ⟨place, bytes, hlocate⟩
      · cases hisFile
    · cases h

theorem dropRepeats_sublist (paths : List Path) : (dropRepeats paths).Sublist paths := by
  fun_induction dropRepeats paths with
  | case1 => exact .slnil
  | case2 path => exact .refl _
  | case3 path next rest _ ih => exact ih.trans (.cons_cons path (.cons next (.refl rest)))
  | case4 path next rest _ ih => exact .cons_cons path ih

theorem dropRepeats_eq_self {paths : List Path}
    (h : paths.IsChain fun path next => path.isSame next = false) : dropRepeats paths = paths := by
  fun_induction dropRepeats paths with
  | case1 => rfl
  | case2 path => rfl
  | case3 path next rest hsame _ =>
    rw [(List.isChain_cons_cons.1 h).1] at hsame
    cases hsame
  | case4 path next rest _ ih => rw [ih (List.isChain_cons_cons.1 h).2]

/-- **Every path that is taken leads to a file.** It did so when it was taken, that is in the file
system that the run has begun with. -/
theorem exists_locate_of_run {inputs paths : List Path} (h : run files filter inputs = .ok paths)
    {file : Path} (hfile : file ∈ paths) :
    ∃ place bytes, files.locate file = .ok (place, .file bytes) := by
  rw [run] at h
  obtain ⟨found, hfound, h⟩ := Except.bind_ok h
  cases h
  obtain ⟨part, hpart, hfile⟩ := List.mem_flatten.1 ((dropRepeats_sublist _).mem hfile)
  obtain ⟨input, -, hinput⟩ := Except.mem_of_mapM_ok hfound hpart
  exact exists_locate_of_expand hinput hfile

/-- Files that are given are taken as they are, whatever the filter is. -/
theorem run_of_files {inputs : List Path}
    (h : ∀ input ∈ inputs, ∃ place bytes, files.locate input = .ok (place, .file bytes)) :
    run files filter inputs = .ok (dropRepeats inputs) := by
  have hexpand : ∀ input ∈ inputs, expand files filter input = .ok [input] := by
    intro input hinput
    obtain ⟨place, bytes, hlocate⟩ := h input hinput
    have hdirectory : files.isDirectory input = false := by rw [FileSystem.isDirectory, hlocate]
    have hfile : files.isFile input = true := by rw [FileSystem.isFile, hlocate]
    rw [expand, hdirectory, if_neg Bool.false_ne_true, if_pos hfile]
    rfl
  have hall : inputs.mapM (expand files filter) = .ok (inputs.map ([·])) := by
    clear h
    induction inputs with
    | nil => rfl
    | cons input inputs ih =>
      rw [List.mapM_cons, hexpand input List.mem_cons_self,
        ih fun other hother => hexpand other (List.mem_cons_of_mem _ hother)]
      rfl
  have hflatten : (inputs.map ([·])).flatten = inputs := by
    rw [← List.flatMap_def, List.flatMap_singleton']
  rw [run, hall]
  exact congrArg (fun paths => Except.ok (dropRepeats paths)) hflatten

end Discovery

end DefineWrap
