/-
What is found in a file system that has evolved.

All that was there is there still, so a walk that has succeeded succeeds again. It finds what it
has found, in the same order, and perhaps new files in between
(`Discovery.exists_filesWithin_after`). So the same is taken as before exactly if nothing that is
taken is new (`Discovery.run_after_eq_iff`).
-/
import DefineWrap.Proofs.Project.Evolution
import DefineWrap.Proofs.Project.Listing

set_option autoImplicit false

namespace DefineWrap

open FileSystem

namespace Discovery

variable {before after : FileSystem} {filter : Filter} {path file : Path} {place : Location}
  {inputs paths found found' : List Path}

/-! ## New files among others -/

/-- A path leads to a file where nothing was stored before. That the path led nowhere before would
be less: it could have led to nothing by a link, and the file could have been there. -/
def IsNew (before after : FileSystem) (path : Path) : Prop :=
  ∃ place bytes, after.locate path = .ok (place, .file bytes) ∧ before.get? place = none

/-- A path to a new file has not led to a file before, since otherwise it would lead to that one
still. -/
theorem IsNew.isFile_eq_false (h : before.Spreads after) (hnew : IsNew before after path) :
    before.isFile path = false := by
  obtain ⟨place, bytes, hlocate, hnone⟩ := hnew
  rw [FileSystem.isFile]
  split
  next place' bytes' hbefore =>
    obtain ⟨_, hafter⟩ := (h.locate_file hbefore).1
    rw [hlocate] at hafter
    cases hafter
    rw [FileSystem.get?_of_locate hbefore] at hnone
    cases hnone
  · rfl

/-- To paths of files that were there before some paths of new files are added, anywhere. So without
the new files the two lists are equal, with their order. -/
structure Adds (before after : FileSystem) (found found' : List Path) : Prop where
  old : found'.filter before.isFile = found
  new : ∀ file ∈ found', before.isFile file = true ∨ IsNew before after file

namespace Adds

/-- If all files of a list are new, none of them was there before. -/
theorem nil_of_new (h : before.Spreads after)
    (hnew : ∀ file ∈ found', IsNew before after file) : Adds before after [] found' := by
  refine ⟨List.filter_eq_nil_iff.2 fun file hfile => ?_, fun file hfile => .inr (hnew file hfile)⟩
  rw [(hnew file hfile).isFile_eq_false h]
  exact Bool.false_ne_true

theorem singleton (h : before.isFile file = true) : Adds before after [file] [file] :=
  ⟨by rw [List.filter_singleton, h]; rfl, List.forall_mem_singleton.2 (.inl h)⟩

theorem append {more more' : List Path} (h : Adds before after found found')
    (hmore : Adds before after more more') :
    Adds before after (found ++ more) (found' ++ more') := by
  refine ⟨by rw [List.filter_append, h.old, hmore.old], fun file hfile => ?_⟩
  exact (List.mem_append.1 hfile).elim (h.new file) (hmore.new file)

/-- What is added is added also when both lists are filtered, because a filter looks at the paths
only. -/
theorem taken (h : Adds before after found found') (taken : Path → Bool) :
    Adds before after (found.filter taken) (found'.filter taken) := by
  refine ⟨?_, fun file hfile => h.new file (List.mem_filter.1 hfile).1⟩
  rw [← h.old, List.filter_filter, List.filter_filter]
  exact List.filter_congr fun file _ => Bool.and_comm _ _

/-- Two loops, of which the second one has additional rounds that find new files only. The names in
a directory are such items: the old ones among the new ones, in one order. -/
theorem exists_mapM_ok {ε α : Type} {first : α → Except ε (List Path)}
    (second : α → Except ε (List Path)) {items : List α} {isOld : α → Bool}
    {parts : List (List Path)} (h : (items.filter isOld).mapM first = .ok parts)
    (hold : ∀ item ∈ items, isOld item = true → ∀ part, first item = .ok part →
      ∃ part', second item = .ok part' ∧ Adds before after part part')
    (hnew : ∀ item ∈ items, ¬ isOld item = true →
      ∃ part', second item = .ok part' ∧ Adds before after [] part') :
    ∃ parts', items.mapM second = .ok parts' ∧
      Adds before after parts.flatten parts'.flatten := by
  induction items generalizing parts with
  | nil =>
    cases h
    exact ⟨[], rfl, rfl, List.forall_mem_nil _⟩
  | cons item items ih =>
    rw [List.forall_mem_cons] at hold hnew
    by_cases hitem : isOld item = true
    · rw [List.filter_cons_of_pos hitem] at h
      obtain ⟨part, rest, hpart, hrest, rfl⟩ := Except.mapM_cons_ok h
      obtain ⟨part', hpart', hadds⟩ := hold.1 hitem part hpart
      obtain ⟨rest', hrest', hmore⟩ := ih hrest hold.2 hnew.2
      exact ⟨part' :: rest', by rw [List.mapM_cons, hpart', hrest']; rfl, hadds.append hmore⟩
    · rw [List.filter_cons_of_neg hitem] at h
      obtain ⟨part', hpart', hadds⟩ := hnew.1 hitem
      obtain ⟨rest', hrest', hmore⟩ := ih h hold.2 hnew.2
      exact ⟨part' :: rest', by rw [List.mapM_cons, hpart', hrest']; rfl, hadds.append hmore⟩

end Adds

/-! ## Walks -/

section Walks

variable {root : Path} {out : Option Path} {depth : Nat} {within : List Visited}
  (htree : before.IsTree) (h : before.Spreads after)
include htree h

/-- The names that a directory has had are in the order in which they have been. Names are put in
order, and so an order of more names is the order of fewer. -/
theorem names_eq_filter :
    before.names place = (after.names place).filter (· ∈ before.names place) := by
  have hsub : before.names place ⊆ after.names place := by
    intro name hname
    obtain ⟨stored, hstored⟩ := mem_names_iff.1 hname
    exact mem_names_iff.2 (h.exists_get? hstored)
  have hperm : (before.names place).Perm
      ((after.names place).filter (· ∈ before.names place)) := by
    rw [List.perm_ext_iff_of_nodup htree.nodup_names ((h.tree htree).nodup_names.filter _)]
    intro name
    rw [List.mem_filter, decide_eq_true_eq]
    exact ⟨fun hname => ⟨hsub hname, hname⟩, And.right⟩
  exact hperm.eq_of_pairwise (fun _ _ _ _ => String.le_antisymm) (before.pairwise_names place)
    ((after.pairwise_names place).filter _)

/-- A new name leads to something new, which is no link, since no links are made. -/
theorem locate_join_new {name : String} {stored : Entry}
    (hlocate : after.locate path = .ok (place, .directory))
    (hstored : after.get? (place ++ [name]) = some stored)
    (hnone : before.get? (place ++ [name]) = none) :
    after.locate (path.join ⟨name⟩) = .ok (place ++ [name], stored) ∧
      ¬ after.LeadsToLink (path.join ⟨name⟩) := by
  have hnolink : ∀ target, stored ≠ .link target := by
    rintro target rfl
    rw [h.links _ target hstored] at hnone
    cases hnone
  have hproper := (h.tree htree).isProperName (mem_names_iff.2 ⟨stored, hstored⟩)
  obtain ⟨hlocate', hfound⟩ := locate_join hlocate hproper hstored hnolink
  refine ⟨hlocate', ?_⟩
  rintro ⟨place', target, hisLink⟩
  rw [hfound] at hisLink
  cases hisLink
  exact hnolink target rfl

/-- **Where nothing was, all is new**: a walk succeeds there, and comes to new files only. It cannot
fail, as the only things that are new are directories and files. -/
theorem exists_filesWithin_new {entry : Entry} (hlocate : after.locate path = .ok (place, entry))
    (hlink : ¬ after.LeadsToLink path) (hnone : before.get? place = none) :
    ∃ found, (Walk.mk after root out).filesWithin depth within path = .ok found ∧
      Adds before after [] found := by
  induction depth generalizing within path place entry with
  | zero => exact ⟨[], rfl, .nil_of_new h (List.forall_mem_nil _)⟩
  | succ depth ih =>
    have hresolve : (Walk.mk after root out).resolve within path = .ok (place, entry) :=
      Walk.resolve_eq_ok_iff.2 ⟨hlocate, fun _ hisLink => absurd hisLink hlink⟩
    by_cases hpassed : (Walk.mk after root out).isPassedOver path = true
    · exact ⟨[], Walk.filesWithin_succ_eq_ok_iff.2 (.passedOver hresolve hpassed),
        .nil_of_new h (List.forall_mem_nil _)⟩
    · rw [Bool.not_eq_true] at hpassed
      cases entry with
      | file bytes =>
        exact ⟨[path], Walk.filesWithin_succ_eq_ok_iff.2 (.file hresolve hpassed),
          .nil_of_new h (List.forall_mem_singleton.2 ⟨place, bytes, hlocate, hnone⟩)⟩
      | link target => exact absurd rfl (ne_link_of_locate hlocate target)
      | directory =>
        have hbelow : ∀ name ∈ after.names place, ∃ part,
            (Walk.mk after root out).filesWithin depth (⟨path, place⟩ :: within)
              (path.join ⟨name⟩) = .ok part ∧ Adds before after [] part := by
          intro name hname
          obtain ⟨stored, hstored⟩ := mem_names_iff.1 hname
          -- Where nothing was, nothing was inside.
          have hnone' : before.get? (place ++ [name]) = none := by
            cases hbefore : before.get? (place ++ [name]) with
            | none => rfl
            | some stored =>
              have hparent := htree.inside _ _ hbefore
              rw [List.dropLast_concat, hnone] at hparent
              cases hparent
          obtain ⟨hlocate', hlink'⟩ := locate_join_new htree h hlocate hstored hnone'
          exact ih hlocate' hlink' hnone'
        -- The directory is new, so that no round of the loop is an old one.
        have hold : ((after.names place).filter fun _ => false).mapM
            (fun _ => (.ok [] : Except DiscoveryError (List Path))) = .ok [] := by
          rw [List.filter_false]
          rfl
        obtain ⟨below, hall, hadds⟩ := Adds.exists_mapM_ok _ hold (fun _ _ => nofun)
          fun name hname _ => hbelow name hname
        exact ⟨below.flatten,
          Walk.filesWithin_succ_eq_ok_iff.2 (.directory hresolve hpassed hall), hadds⟩

/-- A walk goes through a directory where it has, and round in a circle only where it has. -/
theorem resolve_directory_after
    (hresolve : (Walk.mk before root out).resolve within path = .ok (place, .directory)) :
    (Walk.mk after root out).resolve within path = .ok (place, .directory) := by
  obtain ⟨hlocate, hcircle⟩ := Walk.resolve_eq_ok_iff.1 hresolve
  obtain ⟨hlocate', hsame⟩ := h.locate_directory htree hlocate
  refine Walk.resolve_eq_ok_iff.2 ⟨hlocate', fun heq hisLink => hcircle heq ?_⟩
  rwa [LeadsToLink, hsame] at hisLink

omit htree in
/-- A walk finds a file where it has found one, perhaps with other bytes. -/
theorem resolve_file_after {bytes : ByteArray}
    (hresolve : (Walk.mk before root out).resolve within path = .ok (place, .file bytes)) :
    ∃ bytes', (Walk.mk after root out).resolve within path = .ok (place, .file bytes') := by
  obtain ⟨bytes', hlocate⟩ := (h.locate_file (Walk.locate_of_resolve hresolve)).1
  exact ⟨bytes', Walk.resolve_eq_ok_iff.2 ⟨hlocate, nofun⟩⟩

/-- **What was found is found again**, with new files added. By induction over the depth; of the
names in a directory the old ones are walked as before, and behind the new ones all is new. -/
theorem exists_filesWithin_after
    (hfound : (Walk.mk before root out).filesWithin depth within path = .ok found) :
    ∃ found', (Walk.mk after root out).filesWithin depth within path = .ok found' ∧
      Adds before after found found' := by
  induction depth generalizing within path found with
  | zero =>
    cases hfound
    exact ⟨[], rfl, .nil_of_new h (List.forall_mem_nil _)⟩
  | succ depth ih =>
    cases Walk.filesWithin_succ_eq_ok_iff.1 hfound with
    | @passedOver located hresolve hpassed =>
      obtain ⟨place, entry⟩ := located
      have hresolve' : ∃ located,
          (Walk.mk after root out).resolve within path = .ok located := by
        cases entry with
        | directory => exact ⟨_, resolve_directory_after htree h hresolve⟩
        | file bytes =>
          obtain ⟨bytes', hresolve'⟩ := resolve_file_after h hresolve
          exact ⟨_, hresolve'⟩
        | link target =>
          exact absurd rfl (ne_link_of_locate (Walk.locate_of_resolve hresolve) target)
      obtain ⟨located, hresolve'⟩ := hresolve'
      exact ⟨[], Walk.filesWithin_succ_eq_ok_iff.2 (.passedOver hresolve' hpassed),
        .nil_of_new h (List.forall_mem_nil _)⟩
    | @file place bytes hresolve hpassed =>
      obtain ⟨bytes', hresolve'⟩ := resolve_file_after h hresolve
      refine ⟨[path], Walk.filesWithin_succ_eq_ok_iff.2 (.file hresolve' hpassed), .singleton ?_⟩
      rw [FileSystem.isFile, Walk.locate_of_resolve hresolve]
    | @directory place below hresolve hpassed hbelow =>
      have hresolve' := resolve_directory_after htree h hresolve
      have hlocate' := Walk.locate_of_resolve hresolve'
      -- Below the names that were there the walk comes to what it came to, and what it comes to
      -- below the others is new.
      rw [names_eq_filter htree h] at hbelow
      obtain ⟨below', hbelow', hadds⟩ := Adds.exists_mapM_ok
        (fun name => (Walk.mk after root out).filesWithin depth (⟨path, place⟩ :: within)
          (path.join ⟨name⟩))
        hbelow (fun name _ _ part hpart => ih hpart) fun name hname hisNew => by
          obtain ⟨stored, hstored⟩ := mem_names_iff.1 hname
          have hnone : before.get? (place ++ [name]) = none := by
            rw [decide_eq_true_eq, mem_names_iff] at hisNew
            exact Option.eq_none_iff_forall_ne_some.2 (not_exists.1 hisNew)
          obtain ⟨hlocate, hlink⟩ := locate_join_new htree h hlocate' hstored hnone
          exact exists_filesWithin_new htree h hlocate hlink hnone
      exact ⟨below'.flatten,
        Walk.filesWithin_succ_eq_ok_iff.2 (.directory hresolve' hpassed hbelow'), hadds⟩

/-- A whole walk finds what it has found, with new files added. The bounds of the two walks differ
with the number of entries, and both are never reached. -/
theorem exists_walk_after (hfound : (Walk.mk before root out).run = .ok found) :
    ∃ found', (Walk.mk after root out).run = .ok found' ∧ Adds before after found found' := by
  -- The two walks are bounded by different numbers.
  have hbefore : (Walk.mk before root out).filesWithin
      (max (Walk.maxDepth before) (Walk.maxDepth after)) [] root = (Walk.mk before root out).run :=
    Walk.filesWithin_of_le htree (Nat.le_max_left _ _)
  have hafter : (Walk.mk after root out).filesWithin
      (max (Walk.maxDepth before) (Walk.maxDepth after)) [] root = (Walk.mk after root out).run :=
    Walk.filesWithin_of_le (h.tree htree) (Nat.le_max_right _ _)
  rw [← hbefore] at hfound
  obtain ⟨found', hfound', hadds⟩ := exists_filesWithin_after htree h hfound
  exact ⟨found', hafter ▸ hfound', hadds⟩

end Walks

/-! ## All inputs -/

section Inputs

variable (htree : before.IsTree) (h : before.Spreads after)
include htree h

theorem exists_expand_after {input : Path} (hfound : expand before filter input = .ok found) :
    ∃ found', expand after filter input = .ok found' ∧ Adds before after found found' := by
  rcases expand_eq_ok_iff.1 hfound with ⟨hdirectory, all, hall, rfl⟩ | ⟨hfile, rfl⟩
  · obtain ⟨all', hall', hadds⟩ := exists_walk_after htree h hall
    exact ⟨_, expand_eq_ok_iff.2 (.inl ⟨h.isDirectory htree hdirectory, all', hall', rfl⟩),
      hadds.taken _⟩
  · exact ⟨_, expand_eq_ok_iff.2 (.inr ⟨h.isFile hfile, rfl⟩), .singleton hfile⟩

omit htree in
/-- An input is a directory as before. It was something before, because the run has succeeded, and
it cannot have changed. -/
theorem isDirectory_of_after {input : Path} (hrun : run before filter inputs = .ok paths)
    (hinput : input ∈ inputs) (hafter : after.isDirectory input = true) :
    before.isDirectory input = true := by
  have hexpand := (eq_dropRepeats_of_run hrun).1 input hinput
  rcases expand_eq_ok_iff.1 hexpand with ⟨hdirectory, -⟩ | ⟨hfile, -⟩
  · exact hdirectory
  · rw [isDirectory_eq_false_of_isFile (h.isFile hfile)] at hafter
    cases hafter

theorem isFile_of_after {input : Path} (hrun : run before filter inputs = .ok paths)
    (hinput : input ∈ inputs) (hafter : after.isFile input = true) :
    before.isFile input = true := by
  have hexpand := (eq_dropRepeats_of_run hrun).1 input hinput
  rcases expand_eq_ok_iff.1 hexpand with ⟨hdirectory, -⟩ | ⟨hfile, -⟩
  · have hdirectory' := h.isDirectory htree hdirectory
    rw [isDirectory_eq_false_of_isFile hafter] at hdirectory'
    cases hdirectory'
  · exact hfile

/-- **What the inputs give** is what they have given, with new files added. A second run cannot fail
where the first one has succeeded. -/
theorem exists_run_after (hrun : run before filter inputs = .ok paths) :
    (∃ paths', run after filter inputs = .ok paths') ∧
      Adds before after (inputs.flatMap (listing before filter))
        (inputs.flatMap (listing after filter)) := by
  -- No input is new: the walk through each is compared with what it was.
  have hall := Except.mapM_eq_ok (eq_dropRepeats_of_run hrun).1
  rw [← List.filter_true inputs] at hall
  obtain ⟨parts, hparts, hadds⟩ := Adds.exists_mapM_ok (expand after filter) hall
    (fun input _ _ part hpart => exists_expand_after htree h hpart) fun _ _ => nofun
  have hrun' : run after filter inputs = .ok (dropRepeats parts.flatten) := by
    rw [run, hparts]
    rfl
  have hlistings := Except.mapM_eq_ok (eq_dropRepeats_of_run hrun').1
  rw [hparts] at hlistings
  rw [List.filter_true, ← List.flatMap_def, Except.ok.inj hlistings, ← List.flatMap_def] at hadds
  exact ⟨⟨_, hrun'⟩, hadds⟩

/-- **The same is taken exactly if nothing that is taken is new.** If a new file is given, it is
taken or a path that is the same; and that was not taken before. -/
theorem run_after_eq_iff (hrun : run before filter inputs = .ok paths) :
    run after filter inputs = run before filter inputs ↔
      ∀ input ∈ inputs, ∀ path, Gives after filter input path → ¬ IsNew before after path := by
  obtain ⟨⟨paths', hrun'⟩, hadds⟩ := exists_run_after htree h hrun
  have hlisted : ∀ input ∈ inputs, ∀ path, Gives after filter input path →
      path ∈ inputs.flatMap (listing after filter) := fun input hinput path hgives =>
    List.mem_flatMap.2 ⟨input, hinput, (mem_listing_iff (h.tree htree) hrun' hinput).2 hgives⟩
  constructor
  · rintro hsame input hinput path hgives ⟨place, bytes, hlocate, hnone⟩
    -- Some path with the same steps is taken in both cases, so it has led to a file before.
    rw [hrun', hrun] at hsame
    cases hsame
    obtain ⟨other, hother, hpath⟩ := exists_mem_run_of_gives (h.tree htree) hrun' hinput hgives
    obtain ⟨place', bytes', hbefore⟩ := exists_locate_of_run hrun hother
    have hsteps : path.steps = other.steps := by
      rw [Path.steps_eq, Path.steps_eq, Path.isSame_iff.1 hpath]
    have hpathBefore := h.exists_locate_of_steps hsteps hbefore (by
      rw [FileSystem.isFile, hlocate])
    obtain ⟨_, hafter⟩ := (h.locate_file hpathBefore).1
    rw [hlocate] at hafter
    cases hafter
    rw [FileSystem.get?_of_locate hpathBefore] at hnone
    cases hnone
  · -- What is given is not new, so nothing has been added to what was given.
    intro hnew
    have hold : (inputs.flatMap (listing after filter)).filter before.isFile =
        inputs.flatMap (listing after filter) := by
      refine List.filter_eq_self.2 fun file hfile => (hadds.new file hfile).resolve_right ?_
      obtain ⟨input, hinput, hgiven⟩ := List.mem_flatMap.1 hfile
      exact hnew input hinput file ((mem_listing_iff (h.tree htree) hrun' hinput).1 hgiven)
    rw [hrun', hrun, (eq_dropRepeats_of_run hrun').2, ← hold, hadds.old,
      (eq_dropRepeats_of_run hrun).2]

end Inputs

end Discovery

end DefineWrap
