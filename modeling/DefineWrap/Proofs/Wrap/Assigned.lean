/-
Assignments to a member of the exports in what is done.

A statement that assigns to the member itself leaves an assignment in the result
(`assigns.exists_of_assign`). Otherwise there is one pass that exports a local name under
the name of the member, and the result has an assignment exactly if a statement has one
before anything is taken, or writes to the local name in the round of that pass
(`assigns.gather_exportAs_eq_nil`).
-/
import DefineWrap.Proofs.Wrap.Exporting

set_option autoImplicit false

namespace DefineWrap

/-! ## One statement among those that are taken -/

namespace TakesAll

variable {table : Dependencies}

/-- Every pass is for a local name that some statement gives up, and it exports the name under one
of the names that are exported. The statement is the one in the text: passes make it give up no
further names. -/
theorem mem_passes {statements : List Node} {names : List String} {effects : List Effect}
    (h : TakesAll table statements names effects) {pass : Pass}
    (hmem : pass ∈ Effect.passes effects) :
    ∃ statement ∈ statements, ∃ name ∈ exportedLocals table statement, ∃ exported ∈ names,
      pass = Effect.exportPass name exported := by
  induction h with
  | nil => cases hmem
  | @cons statement rest names names' effects effects' first others ih =>
    rw [Effect.passes_append] at hmem
    rcases List.mem_append.1 hmem with hfirst | hothers
    · obtain ⟨name, hname, exported, hexported, rfl⟩ := first.mem_passes hfirst
      exact ⟨statement, List.mem_cons_self, name, hname, exported,
        List.mem_append_left _ hexported, rfl⟩
    · obtain ⟨other, hother, name, hname, exported, hexported, rfl⟩ := ih hothers
      obtain ⟨original, horiginal, rfl⟩ := List.mem_map.1 hother
      have hobjects : ∀ pass ∈ Effect.passes effects,
          table.injects pass.access.object = true := by
        intro pass hpass
        obtain ⟨other, -, member, -, rfl⟩ := first.mem_passes hpass
        exact table.injects_exportsParam
      exact ⟨original, List.mem_cons_of_mem _ horiginal, name,
        exportedLocals_replaceAll_subset hobjects original hname, exported,
        List.mem_append_right _ hexported, rfl⟩

/-- A statement is taken between those before it and those after it. What comes before is as if the
list ended there, and what comes after has gone through the passes so far. -/
theorem split {statements : List Node} {names : List String} {effects : List Effect}
    (h : TakesAll table statements names effects) {first rest : List Node} {statement : Node}
    (hsplit : statements = first ++ statement :: rest) :
    ∃ names₁ effects₁ names' effects' names₂ effects₂,
      names = names₁ ++ names' ++ names₂ ∧ effects = effects₁ ++ effects' ++ effects₂ ∧
      TakesAll table first names₁ effects₁ ∧
      Takes table (Pass.replaceAll (Effect.passes effects₁) statement) names' effects' ∧
      TakesAll table (rest.map (Pass.replaceAll (Effect.passes (effects₁ ++ effects')))) names₂
        effects₂ := by
  induction h generalizing first rest statement with
  | nil => exact absurd hsplit (by simp)
  | @cons head tail names₀ names effects₀ effects htakes hothers ih =>
    cases first with
    | nil =>
      cases hsplit
      exact ⟨[], [], names₀, effects₀, names, effects, rfl, rfl, .nil, htakes, hothers⟩
    | cons other first =>
      cases hsplit
      obtain ⟨names₁, effects₁, names', effects', names₂, effects₂, rfl, rfl, hfirst, hstatement,
        hrest⟩ := ih (List.map_append.trans (congrArg _ List.map_cons))
      -- The statements behind the first one have gone through its passes before they are split.
      refine ⟨names₀ ++ names₁, effects₀ ++ effects₁, names', effects', names₂, effects₂, ?_, ?_,
        .cons htakes hfirst, ?_, ?_⟩
      · simp only [List.append_assoc]
      · simp only [List.append_assoc]
      · rwa [Effect.passes_append, Pass.replaceAll_append]
      · rw [List.map_map] at hrest
        have hpasses : Pass.replaceAll (Effect.passes (effects₀ ++ effects₁ ++ effects')) =
            Pass.replaceAll (Effect.passes (effects₁ ++ effects')) ∘
              Pass.replaceAll (Effect.passes effects₀) := by
          funext node
          rw [List.append_assoc, Effect.passes_append, Pass.replaceAll_append]
          rfl
        rwa [hpasses]

end TakesAll

namespace assigns

variable {exported : String}

/-! ## What a statement assigns itself -/

/-- A pass that exports another name than the exports takes no assignment away. Under the same
member it may add some, under another one it changes nothing. -/
theorem gather_exportPass_ne_nil {name other : String} (hname : name ≠ exportsParam) {node : Node}
    (h : (assigns exported).gather () node ≠ []) :
    (assigns exported).gather () ((Effect.exportPass name other).replace node) ≠ [] := by
  by_cases hother : other = exported
  · subst hother
    exact fun hnil => h ((gather_replace_eq_nil rfl hname node).1 hnil).1
  · rwa [(stable_exportPass hname hother).gather_replace]

/-- What is assigned stays assigned. The passes after it may change the value, but not the member
that is assigned to, since none is for the name of the exports. -/
theorem exists_of_assign {effects : List Effect} {value : Node}
    (h : .assign exported value ∈ effects)
    (hpasses : ∀ pass ∈ Effect.passes effects, ∃ name other,
      pass = Effect.exportPass name other ∧ name ≠ exportsParam) (done : List Node) :
    (Effect.applyAll done effects).flatMap ((assigns exported).gather ()) ≠ [] := by
  obtain ⟨before, after, rfl⟩ := List.append_of_mem h
  have hafter : ∀ (passes : List Pass) (node : Node), passes ⊆ Effect.passes after →
      (assigns exported).gather () node ≠ [] →
      (assigns exported).gather () (Pass.replaceAll passes node) ≠ [] := by
    intro passes
    induction passes with
    | nil => exact fun node _ hnode => hnode
    | cons pass rest ih =>
      intro node hsubset hnode
      rw [List.cons_subset] at hsubset
      obtain ⟨name, other, rfl, hname⟩ := hpasses pass (by
        rw [Effect.passes_append]
        exact List.mem_append_right _ hsubset.1)
      exact ih _ hsubset.2 (gather_exportPass_ne_nil hname hnode)
  -- The assignment is put after what is done, and from then on goes through all later passes.
  have hmem : Pass.replaceAll (Effect.passes after)
      (.assignmentStatement (.access exportsParam exported) value) ∈
      Effect.applyAll done (before ++ .assign exported value :: after) := by
    have hstep : Effect.applyAll done (before ++ .assign exported value :: after) =
        Effect.applyAll (Effect.applyAll done before ++
          [.assignmentStatement (.access exportsParam exported) value]) after :=
      Effect.applyAll_append ..
    rw [hstep, Effect.applyAll_eq, List.map_append]
    exact List.mem_append_left _ (List.mem_append_right _ (List.mem_singleton_self _))
  intro hnil
  exact hafter _ _ (List.Subset.refl _) (gather_assignmentStatement_ne_nil value)
    (List.flatMap_eq_nil_iff.1 hnil _ hmem)

/-! ## What the pass for a local name assigns -/

/-- A pass that exports a local name, but not under the name of the member. Exported names are
distinct, so all passes but one are of this kind. -/
def Elsewhere (exported : String) (pass : Pass) : Prop :=
  ∃ name other, pass = Effect.exportPass name other ∧ name ≠ exportsParam ∧ other ≠ exported

theorem Elsewhere.exists_eq {pass : Pass} (h : Elsewhere exported pass) :
    ∃ name other, pass = Effect.exportPass name other := by
  obtain ⟨name, other, rfl, -, -⟩ := h
  exact ⟨name, other, rfl⟩

/-- The survey of the assignments to the member does not see such a pass. -/
theorem Elsewhere.stable {pass : Pass} (h : Elsewhere exported pass) :
    (assigns exported).Stable pass := by
  obtain ⟨name, other, rfl, hname, hother⟩ := h
  exact stable_exportPass hname hother

/-- The passes of statements that export other names are elsewhere. That no local name is that of
the exports is needed, since the survey finds assignments by it. -/
theorem elsewhere_of_mem_passes {table : Dependencies} {statements : List Node}
    {names : List String} {effects : List Effect} (htakes : TakesAll table statements names effects)
    (hlocals : ∀ statement ∈ statements, ∀ name ∈ exportedLocals table statement,
      name ≠ exportsParam)
    (hnames : ∀ other ∈ names, other ≠ exported) :
    ∀ pass ∈ Effect.passes effects, Elsewhere exported pass := by
  intro pass hmem
  obtain ⟨statement, hstatement, name, hname, other, hother, rfl⟩ := htakes.mem_passes hmem
  exact ⟨name, other, rfl, hlocals statement hstatement name hname, hnames other hother⟩

/-- For this survey a statement is settled if it does not give up the name of the exports, as no
other name matters to it. -/
theorem settled_of_locals {table : Dependencies} {statement : Node}
    (h : ∀ name ∈ exportedLocals table statement, name ≠ exportsParam) :
    Survey.Carries.Settled (assigns exported) () (· ≠ exportsParam) table statement :=
  ⟨h, fun name _ => gather_identifier name⟩

/-- What has no assignment and no write that the pass comes to has no assignment after it and after
passes elsewhere. The passes before it count only by their names, for the round. -/
theorem gather_replaceAll_eq_nil {name : String} (hname : name ≠ exportsParam)
    {before after : List Pass} (hbefore : ∀ pass ∈ before, Elsewhere exported pass)
    (hafter : ∀ pass ∈ after, Elsewhere exported pass) (node : Node) :
    (assigns exported).gather ()
        (Pass.replaceAll (before ++ Effect.exportPass name exported :: after) node) = [] ↔
      (assigns exported).gather () node = [] ∧
        (writes name).gather (Round.first.after (before.map (·.name)) name) node = [] := by
  have hobjects : ∀ pass ∈ before, pass.access.object ≠ name := by
    intro pass hpass
    obtain ⟨other, member, rfl, -, -⟩ := hbefore pass hpass
    exact Ne.symm hname
  rw [Pass.replaceAll_append, Pass.replaceAll_cons,
    Survey.gather_replaceAll fun pass hmem => (hafter pass hmem).stable]
  refine (gather_replace_eq_nil rfl hname _).trans ?_
  rw [Survey.gather_replaceAll fun pass hmem => (hbefore pass hmem).stable]
  exact and_congr_right fun _ => by
    rw [show (Effect.exportPass name exported).name = name from rfl,
      writes.gather_replaceAll hobjects]

/-- What is done when the pass starts: no statement before it has an assignment or a write left
exactly if none has one in the text, in the round after the passes so far. The effects of the same
statement before the pass are kept apart. -/
theorem gather_before_eq_nil {table : Dependencies} {name : String}
    (hparam : table.injects name = false) {first : List Node} {names₁ : List String}
    {effects₁ before : List Effect} (hfirst : TakesAll table first names₁ effects₁)
    (hlocals : ∀ statement ∈ first, ∀ other ∈ exportedLocals table statement,
      other ≠ exportsParam)
    (hquiet : ∀ statement ∈ first, writes.Quiet name statement)
    (hnames : ∀ other ∈ names₁, other ≠ exported)
    (hbefore : ∀ pass ∈ Effect.passes before, Elsewhere exported pass) :
    (∀ node ∈ Effect.applyAll [] (effects₁ ++ before),
        (assigns exported).gather () node = [] ∧ (writes name).gather .first node = []) ↔
      (∀ statement ∈ first, (assigns exported).gather () statement.content = [] ∧
        (writes name).gather (Round.first.after (Effect.passed (effects₁ ++ before)) name)
          statement.content = []) ∧
      ((Effect.emitted before).flatMap ((assigns exported).gather ()) = [] ∧
        ∀ node ∈ Effect.applyAll [] before, (writes name).gather .first node = []) := by
  have hobjects : ∀ pass ∈ Effect.passes before, pass.access.object ≠ name := by
    intro pass hpass
    obtain ⟨other, member, rfl, -, -⟩ := hbefore pass hpass
    exact Dependencies.ne_of_injects hparam table.injects_exportsParam
  have hassigns : (∀ node ∈ Effect.applyAll [] (effects₁ ++ before),
      (assigns exported).gather () node = []) ↔
      (∀ statement ∈ first, (assigns exported).gather () statement.content = []) ∧
        (Effect.emitted before).flatMap ((assigns exported).gather ()) = [] := by
    have hsettled : ∀ statement ∈ first,
        Survey.Carries.Settled (assigns exported) () (· ≠ exportsParam) table statement :=
      fun statement hmem => settled_of_locals (hlocals statement hmem)
    have hstable := fun pass hmem => (hbefore pass hmem).stable
    rw [← List.flatMap_eq_nil_iff, Effect.applyAll_append,
      Survey.Carries.gather_apply hstable, List.append_eq_nil_iff,
      (carries table).gather_applyAll hfirst hsettled hnames, List.flatMap_nil, List.nil_append,
      List.flatMap_eq_nil_iff]
  have hwrites : (∀ node ∈ Effect.applyAll [] (effects₁ ++ before),
      (writes name).gather .first node = []) ↔
      (∀ statement ∈ first,
        (writes name).gather (Round.first.after (Effect.passed (effects₁ ++ before)) name)
          statement.content = []) ∧
      ∀ node ∈ Effect.applyAll [] before, (writes name).gather .first node = [] := by
    have hdone := writes.gather_takesAll_eq_nil hparam hfirst hquiet
      (Round.first.after (Effect.passed before) name) []
    rw [Effect.applyAll_append, Effect.applyAll_eq, List.forall_mem_append, List.forall_mem_map]
    simp only [writes.gather_replaceAll hobjects]
    refine and_congr_left fun _ => hdone.trans ?_
    rw [Round.after_after, Effect.passed_append]
    exact and_iff_right fun _ hmem => by cases hmem
  -- Both kinds of findings are told apart for all that is done, and put together again for each
  -- statement.
  rw [forall₂_and, hassigns, hwrites, forall₂_and]
  exact and_and_and_comm

/-- **Which assignments the pass for a local name leaves.** The statements before and after the one
that starts the pass have to write nothing in the round of the pass. Those after it are still to be
taken and so go through the same passes. -/
theorem gather_exportAs_eq_nil {table : Dependencies} {name : String}
    (hparam : table.injects name = false) {first rest : List Node} {names₁ names₂ : List String}
    {effects₁ before after effects₂ : List Effect} (hfirst : TakesAll table first names₁ effects₁)
    (hrest : TakesAll table (rest.map (Pass.replaceAll (Effect.passes
      (effects₁ ++ (before ++ .exportAs name exported :: after))))) names₂ effects₂)
    (hlocals : ∀ statement ∈ first ++ rest, ∀ other ∈ exportedLocals table statement,
      other ≠ exportsParam)
    (hquiet : ∀ statement ∈ first, writes.Quiet name statement)
    (hnames : ∀ other ∈ names₁ ++ names₂, other ≠ exported)
    (hpasses : ∀ pass ∈ Effect.passes (before ++ after), Elsewhere exported pass) :
    (Effect.applyAll [] (effects₁ ++ (before ++ .exportAs name exported :: after) ++
        effects₂)).flatMap ((assigns exported).gather ()) = [] ↔
      (∀ statement ∈ first ++ rest, (assigns exported).gather () statement.content = [] ∧
        (writes name).gather (Round.first.after (Effect.passed (effects₁ ++ before)) name)
          statement.content = []) ∧
      ((Effect.emitted (before ++ after)).flatMap ((assigns exported).gather ()) = [] ∧
        ∀ node ∈ Effect.applyAll [] before, (writes name).gather .first node = []) := by
  have hname : name ≠ exportsParam :=
    (Dependencies.ne_of_injects hparam table.injects_exportsParam).symm
  rw [Effect.passes_append, List.forall_mem_append] at hpasses
  rw [List.forall_mem_append] at hnames hlocals
  have hearlier := elsewhere_of_mem_passes hfirst hlocals.1 hnames.1
  have hpassed : Effect.passes (effects₁ ++ (before ++ .exportAs name exported :: after)) =
      Effect.passes (effects₁ ++ before) ++
        Effect.exportPass name exported :: Effect.passes after := by
    simp [Effect.passes, Effect.exportAs]
  have hprevious : ∀ pass ∈ Effect.passes (effects₁ ++ before), Elsewhere exported pass := by
    rw [Effect.passes_append, List.forall_mem_append]
    exact ⟨hearlier, hpasses.1⟩
  -- The statements after the one that starts the pass have gone through all passes.
  have hlater : ((rest.map (Pass.replaceAll (Effect.passes
        (effects₁ ++ (before ++ .exportAs name exported :: after))))).flatMap
          fun statement => (assigns exported).gather () statement.content) = [] ↔
      ∀ statement ∈ rest, (assigns exported).gather () statement.content = [] ∧
        (writes name).gather (Round.first.after (Effect.passed (effects₁ ++ before)) name)
          statement.content = [] := by
    rw [List.flatMap_map, List.flatMap_eq_nil_iff, hpassed]
    refine forall₂_congr fun statement _ => ?_
    rw [Pass.content_replaceAll, gather_replaceAll_eq_nil hname hprevious hpasses.2]
    rfl
  -- What has been done by then has gone through the pass itself.
  have hdone : Effect.applyAll [] (effects₁ ++ (before ++ .exportAs name exported :: after)) =
      Effect.applyAll ((Effect.applyAll [] (effects₁ ++ before)).map
        (Effect.exportPass name exported).replace) after := by
    rw [Effect.applyAll_append, Effect.applyAll_append, Effect.applyAll_append]
    rfl
  have hsettled : ∀ statement ∈ rest.map (Pass.replaceAll (Effect.passes
        (effects₁ ++ (before ++ .exportAs name exported :: after)))),
      Survey.Carries.Settled (assigns exported) () (· ≠ exportsParam) table statement := by
    intro statement hmem
    obtain ⟨original, horiginal, rfl⟩ := List.mem_map.1 hmem
    refine (settled_of_locals (hlocals.2 original horiginal)).replaceAll fun pass hpass => ?_
    have hexports : ∃ other member, pass = Effect.exportPass other member := by
      rw [hpassed] at hpass
      rcases List.mem_append.1 hpass with hmem | hmem
      · exact (hprevious pass hmem).exists_eq
      · rcases List.mem_cons.1 hmem with rfl | hmem
        · exact ⟨_, _, rfl⟩
        · exact (hpasses.2 pass hmem).exists_eq
    obtain ⟨other, member, rfl⟩ := hexports
    exact table.injects_exportsParam
  have hreplaced : (∀ node ∈ Effect.applyAll [] (effects₁ ++ before),
        (assigns exported).gather () ((Effect.exportPass name exported).replace node) = []) ↔
      ∀ node ∈ Effect.applyAll [] (effects₁ ++ before),
        (assigns exported).gather () node = [] ∧ (writes name).gather .first node = [] :=
    forall₂_congr fun node _ => gather_replace_eq_nil rfl hname node
  rw [Effect.applyAll_append, (carries table).gather_applyAll hrest hsettled hnames.2,
    List.append_eq_nil_iff, hlater, hdone,
    Survey.Carries.gather_apply fun pass hmem => (hpasses.2 pass hmem).stable,
    List.append_eq_nil_iff, List.flatMap_map, List.flatMap_eq_nil_iff, hreplaced,
    gather_before_eq_nil hparam hfirst hlocals.1 hquiet hnames.1 hpasses.1,
    Effect.emitted_append, List.flatMap_append, List.append_eq_nil_iff, List.forall_mem_append]
  tauto

/-! ## The statements that start the pass -/

section

variable {table : Dependencies} {name : String} {first rest : List Node}
  {names₁ names₂ : List String} {effects₁ effects₂ : List Effect}

/-- A name that is exported once is none of the other names, neither of those of the same statement
nor of those of the others. -/
theorem ne_of_nodup {earlier later : List String}
    (h : (names₁ ++ (earlier ++ name :: later) ++ names₂).Nodup) :
    (∀ other ∈ earlier ++ later, other ≠ name) ∧ ∀ other ∈ names₁ ++ names₂, other ≠ name := by
  have hmiddle : (names₁ ++ earlier ++ name :: (later ++ names₂)).Nodup := by simpa using h
  have hfresh := (List.nodup_cons.1 (List.nodup_middle.1 hmiddle)).1
  simp only [List.mem_append, not_or] at hfresh
  constructor
  · rintro other hmem rfl
    exact (List.mem_append.1 hmem).elim hfresh.1.2 hfresh.2.1
  · rintro other hmem rfl
    exact (List.mem_append.1 hmem).elim hfresh.1.1 hfresh.2.2

/-- An entry of an export list. The list itself neither assigns nor writes anything, so only the
other statements count. -/
theorem gather_entry_eq_nil (hparam : table.injects name = false) {specifiers : List Node}
    {earlier later : List (Node × String)}
    (hentries : specifiers.mapM exportEntry =
      .ok (earlier ++ (.identifier name, exported) :: later))
    (hfirst : TakesAll table first names₁ effects₁)
    (hrest : TakesAll table (rest.map (Pass.replaceAll (Effect.passes (effects₁ ++
      (earlier ++ (.identifier name, exported) :: later).map (entryEffect table))))) names₂
      effects₂)
    (hlocals : ∀ statement ∈ first ++ rest, ∀ other ∈ exportedLocals table statement,
      other ≠ exportsParam)
    (hquiet : ∀ statement ∈ first, writes.Quiet name statement)
    (hlist : writes.Quiet name (.exportNamedDeclaration none specifiers none))
    (hentry : ∀ specifier ∈ specifiers, (assigns exported).gather () specifier = [])
    (hnodup : (names₁ ++ (earlier ++ (.identifier name, exported) :: later).map (·.2) ++
      names₂).Nodup) :
    (Effect.applyAll [] (effects₁ ++ (earlier ++ (.identifier name, exported) :: later).map
        (entryEffect table) ++ effects₂)).flatMap ((assigns exported).gather ()) = [] ↔
      ∀ statement ∈ first ++ rest, (assigns exported).gather () statement.content = [] ∧
        (writes name).gather (Round.first.after
          (Effect.passed (effects₁ ++ earlier.map (entryEffect table))) name)
          statement.content = [] := by
  have hsplit : (earlier ++ (.identifier name, exported) :: later).map (entryEffect table) =
      earlier.map (entryEffect table) ++
        .exportAs name exported :: later.map (entryEffect table) := by
    simp [entryEffect, hparam]
  rw [List.map_append, List.map_cons] at hnodup
  obtain ⟨hothers, hnames⟩ := ne_of_nodup hnodup
  rw [← List.map_append, List.forall_mem_map] at hothers
  have hsubset : earlier ++ later ⊆ earlier ++ (.identifier name, exported) :: later := by
    intro entry hmem
    rcases List.mem_append.1 hmem with hmem | hmem <;> simp [hmem]
  rw [hsplit] at hrest ⊢
  rw [gather_exportAs_eq_nil hparam hfirst hrest hlocals hquiet hnames]
  -- The other entries of the list export other names, so they neither assign to this one nor write
  -- it.
  · refine and_iff_left ⟨?_, hlist.gather_entries hparam hentries ?_ .first⟩
    · rw [← List.map_append, List.flatMap_eq_nil_iff]
      intro statement hmem
      obtain ⟨localName, node, other, hread, hspecifier, rfl⟩ :=
        mem_emitted_entries hentries hsubset hmem
      have hassign := (seesThrough_exported (hothers _ hread)).gather_assignmentStatement ()
        localName
      exact hassign.trans (((carries table).entry_eq localName node).symm.trans
        (hentry _ hspecifier))
    · exact List.subset_append_left _ _
  · rw [← List.map_append]
    intro pass hmem
    obtain ⟨other, hother, entry, hread, rfl⟩ := mem_passes_entries hmem
    exact ⟨other, entry.2, rfl, (Dependencies.ne_of_injects hother table.injects_exportsParam).symm,
      hothers entry hread⟩

theorem exists_initial {declarations : List Node} {value : Node}
    (h : .variableDeclarator (.identifier name) (some value) ∈ declarations) :
    .assign name value ∈ declarations.flatMap initialEffects :=
  List.mem_flatMap.2 ⟨_, h, List.mem_singleton_self _⟩

/-- The values of a declaration are assigned without any pass. The passes for its names come after
all of them. -/
theorem passes_initialEffects (declarations : List Node) :
    Effect.passes (declarations.flatMap initialEffects) = [] := by
  refine (List.flatMap_assoc ..).trans (List.flatMap_eq_nil_iff.2 fun declarator _ => ?_)
  unfold initialEffects
  split <;> rfl

/-- The effects of a declaration up to the pass for one of its names: first the initial values,
then the passes for the names before it. -/
theorem passes_declared (declarations : List Node) (earlier : List String) :
    Effect.passes (declarations.flatMap initialEffects ++
      earlier.map fun other => .exportAs other other) =
        earlier.map fun other => Effect.exportPass other other := by
  rw [Effect.passes_append, passes_initialEffects, List.nil_append, Effect.passes_exportAs]

/-- The effects of a declaration up to the pass for one of its names put the assigned values and
nothing else. -/
theorem emitted_declared (declarations : List Node) (earlier : List String) :
    Effect.emitted (declarations.flatMap initialEffects ++
      earlier.map fun other => .exportAs other other) =
        Effect.emitted (declarations.flatMap initialEffects) := by
  rw [Effect.emitted_append, Survey.Carries.emitted_exportAs, List.append_nil]

/-- The passes for other names leave the round of a pass as it is, and these are all that come
before it in a declaration. -/
theorem after_passed_declared {earlier : List String} (hearlier : name ∉ earlier)
    (effects : List Effect) (declarations : List Node) :
    Round.first.after (Effect.passed (effects ++ (declarations.flatMap initialEffects ++
      earlier.map fun other => .exportAs other other))) name =
        Round.first.after (Effect.passed effects) name := by
  have hpassed : name ∉ Effect.passed (declarations.flatMap initialEffects ++
      earlier.map fun other => .exportAs other other) := by
    rw [Effect.passed, passes_declared, List.map_map]
    exact fun hmem => hearlier (by simpa [Effect.exportPass] using hmem)
  rw [Effect.passed_append]
  simp [Round.after, hpassed]

/-- What is set in a declaration are other names of it, if the name has no initial value. -/
theorem mem_others_of_set {declarations : List Node}
    (hunset : ∀ value, .variableDeclarator (.identifier name) (some value) ∉ declarations)
    {earlier later : List String}
    (hsplit : declarations.flatMap Node.declaratorNames = earlier ++ name :: later)
    {other : String} {value : Node}
    (hmem : .variableDeclarator (.identifier other) (some value) ∈ declarations) :
    other ∈ earlier ++ later ∧ other ≠ name := by
  have hother : other ≠ name := by
    rintro rfl
    exact hunset value hmem
  have hdeclares := Node.mem_declaratorNames_of_mem hmem
  rw [hsplit] at hdeclares
  simp only [List.mem_append, List.mem_cons] at hdeclares ⊢
  tauto

/-- A variable of an exported declaration that has no initial value there. Besides the other
statements the declaration itself counts, since the values of the other variables may assign or
write as well. -/
theorem gather_declared_eq_nil (hparam : table.injects name = false) {declarations : List Node}
    (kind : VariableKind) (hids : ∀ id init, .variableDeclarator id init ∈ declarations →
      ∃ other, id = .identifier other)
    (hunset : ∀ value, .variableDeclarator (.identifier name) (some value) ∉ declarations)
    {earlier later : List String}
    (hsplit : declarations.flatMap Node.declaratorNames = earlier ++ name :: later)
    (hfirst : TakesAll table first names₁ effects₁)
    (hrest : TakesAll table (rest.map (Pass.replaceAll (Effect.passes (effects₁ ++
      (declarations.flatMap initialEffects ++
        (earlier ++ name :: later).map fun other => .exportAs other other))))) names₂ effects₂)
    (hlocals : ∀ statement ∈ first ++ rest, ∀ other ∈ exportedLocals table statement,
      other ≠ exportsParam)
    (hdeclared : ∀ other ∈ earlier ++ later, other ≠ exportsParam)
    (hquiet : ∀ statement ∈ first, writes.Quiet name statement)
    (hnodup : (names₁ ++ (earlier ++ name :: later) ++ names₂).Nodup) :
    (Effect.applyAll [] (effects₁ ++ (declarations.flatMap initialEffects ++
        (earlier ++ name :: later).map fun other => .exportAs other other) ++
        effects₂)).flatMap ((assigns name).gather ()) = [] ↔
      (∀ statement ∈ first ++ rest, (assigns name).gather () statement.content = [] ∧
        (writes name).gather (Round.first.after (Effect.passed effects₁) name)
          statement.content = []) ∧
      (assigns name).gather () (.variableDeclaration declarations kind) = [] ∧
        (writes name).gather .first (.variableDeclaration declarations kind) = [] := by
  obtain ⟨hothers, hnames⟩ := ne_of_nodup hnodup
  have hset : ∀ other value, .variableDeclarator (.identifier other) (some value) ∈ declarations →
      other ≠ exportsParam ∧ other ≠ name := by
    intro other value hmem
    obtain ⟨hdeclares, hother⟩ := mem_others_of_set hunset hsplit hmem
    exact ⟨hdeclared other hdeclares, hother⟩
  have hearlier : name ∉ earlier :=
    fun hmem => hothers name (List.mem_append_left _ hmem) rfl
  have heffects : declarations.flatMap initialEffects ++
      (earlier ++ name :: later).map (fun other => Effect.exportAs other other) =
        (declarations.flatMap initialEffects ++ earlier.map fun other => .exportAs other other) ++
          .exportAs name name :: later.map fun other => .exportAs other other := by
    simp
  have hstable : ∀ pass ∈ earlier.map fun other => Effect.exportPass other other,
      (writes name).Stable pass := by
    intro pass hmem
    obtain ⟨other, hother, rfl⟩ := List.mem_map.1 hmem
    exact (writes.carries hparam .first).stable other other
      (hothers other (List.mem_append_left _ hother)) trivial
  rw [heffects] at hrest ⊢
  rw [gather_exportAs_eq_nil hparam hfirst hrest hlocals hquiet hnames,
    after_passed_declared hearlier]
  -- The declaration is taken away: what is left of it are the assignments of its initial values.
  · refine and_congr_right fun _ => and_congr ?_ ?_
    · rw [Effect.emitted_append, emitted_declared, Survey.Carries.emitted_exportAs,
        List.append_nil, (carries table).gather_declarators hids hset,
        Survey.gather_variableDeclaration]
    · rw [← List.flatMap_eq_nil_iff,
        Survey.Carries.gather_apply (by rwa [passes_declared]), emitted_declared,
        (writes.carries hparam .first).gather_declarators hids
          fun other value hmem => ⟨(hset other value hmem).2, trivial⟩,
        Survey.gather_variableDeclaration]
      rfl
  · rw [Effect.passes_append, passes_declared, Effect.passes_exportAs, ← List.map_append]
    intro pass hmem
    obtain ⟨other, hother, rfl⟩ := List.mem_map.1 hmem
    exact ⟨other, other, rfl, hdeclared other hother, hothers other hother⟩

end

end assigns

end DefineWrap
