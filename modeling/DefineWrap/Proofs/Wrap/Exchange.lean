/-
Pending statements in the place of others.

What taking a statement does is determined by the statement and the table (`Takes.unique`), and
whether it can be taken does not depend on the statements behind it (`takeStatement_reframe`).
So it has the same effects whatever stands behind it (`takeStatement_behind`).

So statements that are taken alike can stand for each other behind any others. The others run
passes over them before they are taken, and so there has to be a relation that these passes keep
(`Exchangeable`). Then it is of no consequence which of the related statements fill the gap that
is left by the others (`takeStatements_fill`).
-/
import DefineWrap.Proofs.Wrap.Conservation
import DefineWrap.Proofs.Wrap.Rebinding
import DefineWrap.Proofs.Wrap.Slots

set_option autoImplicit false

namespace DefineWrap

/-- A statement can be taken in one way only. With this a run on one module tells what the same
statement does in another one, because both have to be the same case. -/
theorem Takes.unique {table : Dependencies} {statement : Node} {names names' : List String}
    {effects effects' : List Effect} (first : Takes table statement names effects)
    (second : Takes table statement names' effects') : names' = names ∧ effects' = effects := by
  -- What is read of a statement decides which case applies and what comes of it.
  cases first with
  | defaultValue hname =>
    cases second with
    | defaultValue => exact ⟨rfl, rfl⟩
    | defaultNamed hname' => cases hname.symm.trans hname'
    | other hexport => cases hexport
  | defaultNamed hname =>
    cases second with
    | defaultValue hname' => cases hname.symm.trans hname'
    | defaultNamed hname' =>
      cases hname.symm.trans hname'
      exact ⟨rfl, rfl⟩
    | other hexport => cases hexport
  | declarators =>
    cases second with
    | declarators => exact ⟨rfl, rfl⟩
    | declaration hname => cases hname
    | other hexport => cases hexport
  | declaration hname =>
    cases second with
    | declarators => cases hname
    | declaration hname' =>
      cases hname.symm.trans hname'
      exact ⟨rfl, rfl⟩
    | other hexport => cases hexport
  | reexport hsource _ hnames =>
    cases second with
    | reexport hsource' _ hnames' =>
      cases hsource.symm.trans hsource'
      cases hnames.symm.trans hnames'
      exact ⟨rfl, rfl⟩
    | other hexport => cases hexport
  | list hentries =>
    cases second with
    | list hentries' =>
      cases hentries.symm.trans hentries'
      exact ⟨rfl, rfl⟩
    | other hexport => cases hexport
  | other hexport =>
    cases second with
    | other => exact ⟨rfl, rfl⟩
    | _ => cases hexport

namespace Wrapping

/-! ## What stands behind a statement -/

/-- One round of the loop, at a module that is given by its parts. The statement that is taken is no
longer among the pending ones. -/
theorem takeStatements_cons (table : Dependencies) (exported : List String)
    (done pending : List Node) (statement : Node) (count : Nat) :
    takeStatements (count + 1) ⟨table, exported, done, statement :: pending⟩ =
      Wrapping.takeStatement ⟨table, exported, done, pending⟩ statement >>=
        takeStatements count := rfl

section Behind

variable {table : Dependencies} {exported : List String} {done : List Node}

/-- A statement is refused for the same reason whatever stands behind it. With the pending
statements forgotten, both results are one result. -/
theorem takeStatement_refused {pending : List Node} {statement : Node} {error : WrapError}
    (h : Wrapping.takeStatement ⟨table, exported, done, pending⟩ statement = .error error)
    (pending' : List Node) :
    Wrapping.takeStatement ⟨table, exported, done, pending'⟩ statement = .error error := by
  -- Both results are the same once the statements that are still to be taken are forgotten.
  have hforget : ∀ state : Wrapping, (state.reframe [] fun _ => []).takeStatement statement =
      (state.takeStatement statement).map (reframe [] fun _ => []) := fun state =>
    takeStatement_reframe [] (fun _ _ => rfl) state statement
  have hsame := (hforget ⟨table, exported, done, pending⟩).symm.trans
    (hforget ⟨table, exported, done, pending'⟩)
  rw [h] at hsame
  cases hother : Wrapping.takeStatement ⟨table, exported, done, pending'⟩ statement with
  | ok other =>
    rw [hother] at hsame
    cases hsame
  | error other =>
    rw [hother] at hsame
    cases hsame
    rfl

/-- **A statement has the same effects whatever stands behind it.** The pending statements go
through its passes, and nothing else happens to them. -/
theorem takeStatement_behind {pending : List Node} {next : Wrapping} {statement : Node}
    (hknown : ∀ specifier, namedSource? statement = some specifier →
      specifier ∈ table.specifiers)
    (h : Wrapping.takeStatement ⟨table, exported, done, pending⟩ statement = .ok next) :
    ∃ names effects, Takes table statement names effects ∧
      ∀ pending, Wrapping.takeStatement ⟨table, exported, done, pending⟩ statement =
        .ok ⟨table, exported ++ names, Effect.applyAll done effects,
          pending.map (Pass.replaceAll (Effect.passes effects))⟩ := by
  obtain ⟨names, effects, htakes, -⟩ := takeStatement_ok hknown h
  refine ⟨names, effects, htakes, fun pending' => ?_⟩
  cases hother : Wrapping.takeStatement ⟨table, exported, done, pending'⟩ statement with
  | error error =>
    rw [takeStatement_refused hother pending] at h
    cases h
  | ok other =>
    obtain ⟨names', effects', htakes', rfl, -⟩ := takeStatement_ok hknown hother
    obtain ⟨rfl, rfl⟩ := htakes.unique htakes'
    rfl

end Behind

/-- Taking some statements and then others is taking all of them, so a run can be cut at the gap. -/
theorem takeStatements_add (first second : Nat) (state : Wrapping) :
    takeStatements (first + second) state =
      takeStatements first state >>= takeStatements second := by
  induction first generalizing state with
  | zero =>
    rw [Nat.zero_add]
    rfl
  | succ first ih =>
    rw [Nat.add_right_comm, takeStatements, takeStatements]
    cases hpending : state.pending with
    | nil =>
      -- With nothing left to take the loop does nothing, however often it is to go round.
      cases second with
      | zero => rfl
      | succ second =>
        change _ = takeStatements (second + 1) state
        rw [takeStatements, hpending]
    | cons statement pending =>
      change _ >>= _ = (_ >>= _) >>= _
      rw [bind_assoc]
      exact congrArg _ (funext ih)

/-! ## Statements that fill a gap -/

/-- A module with a gap in the statements that are still to be taken. The statements before and
after it are kept apart, since only those before run passes over the filling. -/
structure Gap where
  dependencies : Dependencies
  exported : List String
  done : List Node
  before : List Node
  after : List Node

/-- The module with statements in the gap. -/
def Gap.fill (gap : Gap) (filling : List Node) : Wrapping :=
  ⟨gap.dependencies, gap.exported, gap.done, gap.before ++ (filling ++ gap.after)⟩

/-- The statements before the gap name modules that have slots, and give up other local names than
the given one. So no pass that goes over the filling is for this name. -/
structure Gap.Spares (gap : Gap) (name : String) : Prop where
  known : AllNamed gap.dependencies.specifiers gap.before
  spared : ∀ statement ∈ gap.before, name ∉ exportedLocals gap.dependencies statement

/-- A relation between statements that may fill a gap. A pass for another name keeps it, and
statements that are related are taken alike where the modules have the given slots. -/
structure Exchangeable (slots : List String) (name : String)
    (related : List Node → List Node → Prop) : Prop where
  replaced : ∀ {first second : List Node}, related first second → ∀ pass : Pass,
    pass.name ≠ name → related (first.map pass.replace) (second.map pass.replace)
  taken : ∀ {first second : List Node}, related first second → ∀ state : Wrapping,
    state.dependencies.specifiers = slots →
    takeStatements first.length { state with pending := first ++ state.pending } =
      takeStatements second.length { state with pending := second ++ state.pending }

/-- Related statements stay related under any number of passes for other names. -/
theorem Exchangeable.replacedAll {slots : List String} {name : String}
    {related : List Node → List Node → Prop} (h : Exchangeable slots name related)
    {first second : List Node} (hrelated : related first second) {passes : List Pass}
    (hnames : ∀ pass ∈ passes, pass.name ≠ name) :
    related (first.map (Pass.replaceAll passes)) (second.map (Pass.replaceAll passes)) := by
  induction passes generalizing first second with
  | nil =>
    have hnil : Pass.replaceAll [] = id := rfl
    rwa [hnil, List.map_id, List.map_id]
  | cons pass rest ih =>
    have hcons : Pass.replaceAll (pass :: rest) = Pass.replaceAll rest ∘ pass.replace := rfl
    rw [hcons, ← List.map_map, ← List.map_map]
    apply ih
    · exact h.replaced hrelated pass (hnames pass List.mem_cons_self)
    · exact fun other hmem => hnames other (List.mem_cons_of_mem _ hmem)

/-- What the statements before the gap spare, they spare after passes to parameters, as they give up
no new names by these. -/
theorem Gap.Spares.map {table : Dependencies} {exported exported' : List String}
    {done done' before after after' : List Node} {name : String}
    (hgap : Gap.Spares ⟨table, exported, done, before, after⟩ name) {passes : List Pass}
    (hobjects : ∀ pass ∈ passes, table.injects pass.access.object = true) :
    Gap.Spares ⟨table, exported', done', before.map (Pass.replaceAll passes), after'⟩ name := by
  constructor
  · intro statement hmem specifier hspecifier
    obtain ⟨original, horiginal, rfl⟩ := List.mem_map.1 hmem
    rw [namedSource?_replaceAll] at hspecifier
    exact hgap.known original horiginal specifier hspecifier
  · intro statement hmem hname
    obtain ⟨original, horiginal, rfl⟩ := List.mem_map.1 hmem
    apply hgap.spared original horiginal
    exact exportedLocals_replaceAll_subset hobjects original hname

/-- **Related statements fill a gap alike.** The induction is on the number of statements before the
gap: the first one is taken alike on both sides, and its passes go over the others and over both
fillings. -/
theorem takeStatements_fill {gap : Gap} {name : String} {related : List Node → List Node → Prop}
    (h : Exchangeable gap.dependencies.specifiers name related) (hgap : gap.Spares name)
    {first second : List Node} (hrelated : related first second) (count : Nat) :
    takeStatements (gap.before.length + (first.length + count)) (gap.fill first) =
      takeStatements (gap.before.length + (second.length + count)) (gap.fill second) := by
  obtain ⟨table, exported, done, before, after⟩ := gap
  -- The induction is on the number of statements, as each goes through the passes of the others.
  induction hlength : before.length generalizing before after first second exported done with
  | zero =>
    obtain rfl := List.eq_nil_of_length_eq_zero hlength
    have htaken := h.taken hrelated ⟨table, exported, done, after⟩ rfl
    simp only [Nat.zero_add, takeStatements_add, Gap.fill, List.nil_append]
    exact congrArg (· >>= _) htaken
  | succ length ih =>
    cases before with
    | nil => cases hlength
    | cons statement before =>
      have hcount : ∀ more, length + 1 + more = length + more + 1 := fun more => by omega
      simp only [Gap.fill, hcount, List.cons_append, takeStatements_cons]
      cases hnext : Wrapping.takeStatement ⟨table, exported, done, before ++ (first ++ after)⟩
          statement with
      | error error =>
        rw [takeStatement_refused hnext]
        rfl
      | ok next =>
        obtain ⟨names, effects, htakes, hbehind⟩ :=
          takeStatement_behind (hgap.known statement List.mem_cons_self) hnext
        rw [← hnext, hbehind, hbehind]
        have hnames : ∀ pass ∈ Effect.passes effects, pass.name ≠ name := by
          intro pass hpass heq
          obtain ⟨localName, hlocal, exported, -, rfl⟩ := htakes.mem_passes hpass
          exact hgap.spared statement List.mem_cons_self (heq ▸ hlocal)
        have hobjects : ∀ pass ∈ Effect.passes effects,
            table.injects pass.access.object = true := by
          intro pass hpass
          obtain ⟨localName, -, exported, -, rfl⟩ := htakes.mem_passes hpass
          exact table.injects_exportsParam
        have hrest : Gap.Spares ⟨table, exported, done, before, after⟩ name :=
          ⟨hgap.known.mono (List.subset_cons_self _ _),
            fun other hmem => hgap.spared other (List.mem_cons_of_mem _ hmem)⟩
        have hfilled := ih (h.replacedAll hrelated hnames) (exported ++ names)
          (Effect.applyAll done effects) _ (after.map (Pass.replaceAll (Effect.passes effects)))
          h (hrest.map hobjects) (by rw [List.length_map]; exact Nat.succ.inj hlength)
        simp only [Gap.fill, List.length_map] at hfilled
        simp only [List.map_append]
        exact hfilled

/-! ## Imports around a gap -/

/-- Two modules that differ in what fills a gap, with the numbers of the statements before the gap
and in the two fillings. -/
inductive Beside (slots : List String) (name : String) (related : List Node → List Node → Prop) :
    Nat → Nat → Nat → Wrapping → Wrapping → Prop
  | fill {gap : Gap} {first second : List Node} (hslots : gap.dependencies.specifiers = slots)
    (hgap : gap.Spares name) (hrelated : related first second) :
    Beside slots name related gap.before.length first.length second.length (gap.fill first)
      (gap.fill second)

section Imports

variable {slots : List String} {name : String} {related : List Node → List Node → Prop}
  (hexchange : Exchangeable slots name related)
  (hrefused : ∀ {first second : List Node}, related first second → ∀ pass : Pass,
    pass.name ≠ name →
    first.findSome? pass.firstViolation? = second.findSome? pass.firstViolation?)

include hexchange hrefused in
/-- **Binding an import does not tell the fillings apart.** It is refused on both sides or on
neither, and otherwise its pass goes over both fillings and keeps them related. -/
theorem Beside.bindImport {lead length length' : Nat} {state other : Wrapping}
    (h : Beside slots name related lead length length' state other) {specifier : String}
    (hknown : specifier ∈ slots) {node : Node}
    (hname : ∀ localName imported, importBinding node = .ok (localName, imported) →
      localName ≠ name) :
    Except.Both (Beside slots name related lead length length')
      (Wrapping.bindImport specifier state node) (Wrapping.bindImport specifier other node) := by
  obtain @⟨⟨⟨slots, bindings⟩, exported, done, before, after⟩, first, second, rfl, hgap,
    hrelated⟩ := h
  unfold Wrapping.bindImport
  cases hread : importBinding node with
  | error error => exact .error error
  | ok read =>
    obtain ⟨localName, imported⟩ := read
    change Except.Both _ (Dependencies.bind ⟨slots, bindings⟩ localName specifier imported >>= _)
      (Dependencies.bind ⟨slots, bindings⟩ localName specifier imported >>= _)
    rw [Dependencies.bind, Dependencies.register_of_mem hknown]
    split
    · exact .error _
    -- The binding is the same, and so is its pass.
    let binding : Binding := ⟨localName, slots.idxOf specifier, imported⟩
    have hpass : binding.pass.name ≠ name := hname localName imported hread
    have hobject : Dependencies.injects ⟨slots, bindings⟩ binding.pass.access.object = true := by
      rw [Binding.pass, binding.access_object]
      exact Dependencies.injects_dependencyParam (List.idxOf_lt_length_of_mem hknown)
    change Except.Both _
      (substitute ⟨⟨slots, bindings ++ [binding]⟩, exported, done, before ++ (first ++ after)⟩
        binding.pass)
      (substitute ⟨⟨slots, bindings ++ [binding]⟩, exported, done, before ++ (second ++ after)⟩
        binding.pass)
    -- What it refuses in the fillings is the same, and what it makes of them is related.
    rw [substitute_eq, substitute_eq]
    simp only [List.findSome?_append, hrefused hrelated binding.pass hpass]
    split
    · exact .error _
    · let next : Gap := ⟨⟨slots, bindings ++ [binding]⟩, exported, done.map binding.pass.replace,
        before.map binding.pass.replace, after.map binding.pass.replace⟩
      have hmapped : Gap.Spares ⟨⟨slots, bindings⟩, exported, done,
          before.map (Pass.replaceAll [binding.pass]), after⟩ name := by
        apply hgap.map
        intro pass hmem
        rwa [List.mem_singleton.1 hmem]
      have hnext : next.Spares name := ⟨hmapped.known, hmapped.spared⟩
      have hbeside : Beside slots name related _ _ _ (next.fill (first.map binding.pass.replace))
          (next.fill (second.map binding.pass.replace)) :=
        .fill rfl hnext (hexchange.replaced hrelated binding.pass hpass)
      simp only [next, List.length_map] at hbeside
      simp only [List.map_append]
      exact .ok hbeside

end Imports

/-! ## Whole modules with a gap -/

section Modules

variable {before after filling : List Node}

/-- What names no module takes no part in the first scan, so both modules have the same slots. -/
theorem registered_fill (hplain : ∀ statement ∈ filling, sourceNode? statement = none)
    (table : Dependencies) :
    (before ++ (filling ++ after)).foldlM registerSource table =
      (before ++ after).foldlM registerSource table := by
  have hfilling : ∀ next, filling.foldlM registerSource next = .ok next := by
    intro next
    induction filling with
    | nil => rfl
    | cons statement rest ih =>
      have hstatement : registerSource next statement = .ok next := by
        rw [registerSource, hplain statement List.mem_cons_self]
      rw [List.foldlM_cons, hstatement]
      exact ih fun other hmem => hplain other (List.mem_cons_of_mem _ hmem)
  rw [List.foldlM_append, List.foldlM_append]
  refine congrArg _ (funext fun next => ?_)
  rw [List.foldlM_append, hfilling]
  rfl

theorem importActions_fill (hplain : ∀ statement ∈ filling, sourceNode? statement = none) :
    (before ++ (filling ++ after)).flatMap importActions =
      (before ++ after).flatMap importActions := by
  have hfilling : filling.flatMap importActions = [] := by
    rw [List.flatMap_eq_nil_iff]
    intro statement hmem
    have hnone := hplain statement hmem
    cases statement
    case importDeclaration => cases hnone
    all_goals rfl
  rw [List.flatMap_append, List.flatMap_append, hfilling, List.nil_append, List.flatMap_append]

theorem statements_fill (hplain : ∀ statement ∈ filling, sourceNode? statement = none) :
    statements (before ++ (filling ++ after)) =
      statements before ++ (filling ++ statements after) := by
  have hfilling : statements filling = filling := by
    rw [statements, List.filter_eq_self]
    intro statement hmem
    have hnone := hplain statement hmem
    cases statement
    case importDeclaration => cases hnone
    all_goals rfl
  have happend : ∀ first second, statements (first ++ second) =
      statements first ++ statements second := fun _ _ => List.filter_append ..
  rw [happend, happend, hfilling]

/-- What an action for an import binds is a local name of an import. The condition on the name of
the gap is one on these. -/
theorem mem_importedLocals {body : List Node} {specifier : String} {node : Node}
    (hmem : .bind specifier node ∈ body.flatMap importActions) {localName : String}
    {imported : Imported} (hread : importBinding node = .ok (localName, imported)) :
    localName ∈ importedLocals body := by
  obtain ⟨statement, hstatement, haction⟩ := List.mem_flatMap.1 hmem
  obtain ⟨specifiers, source, other, binding, rfl, -, hbinding, heq⟩ := mem_importActions haction
  cases heq
  refine List.mem_flatMap.2 ⟨_, hstatement, List.mem_flatMap.2 ⟨node, hbinding, ?_⟩⟩
  rw [hread]
  exact List.mem_singleton_self localName

end Modules

/-- **Related statements can stand for each other in a module**, if no import binds the name, and
no statement before them gives up a local of the name. The two modules come to the same, or are
refused for the same reason. -/
theorem run_exchange {before after first second : List Node} {name : String}
    {related : List Node → List Node → Prop}
    (hexchange : Exchangeable (sources (before ++ after)).eraseDups name related)
    (hrefused : ∀ {first second : List Node}, related first second → ∀ pass : Pass,
      pass.name ≠ name →
      first.findSome? pass.firstViolation? = second.findSome? pass.firstViolation?)
    (hfirst : ∀ statement ∈ first, sourceNode? statement = none)
    (hsecond : ∀ statement ∈ second, sourceNode? statement = none)
    (hrelated : related first second) (himported : name ∉ importedLocals (before ++ after))
    (hspared : ∀ statement ∈ before,
      name ∉ exportedLocals ⟨(sources (before ++ after)).eraseDups, []⟩ statement) :
    run (before ++ (first ++ after)) = run (before ++ (second ++ after)) := by
  rw [run_eq_foldlM, run_eq_foldlM, registered_fill hfirst, registered_fill hsecond]
  cases hregistered : (before ++ after).foldlM registerSource .empty with
  | error error => rfl
  | ok dependencies =>
    obtain ⟨specifiers, bindings⟩ := dependencies
    obtain ⟨rfl, rfl⟩ : specifiers = (sources (before ++ after)).eraseDups ∧ bindings = [] :=
      specifiers_of_registered hregistered
    generalize hslots : (sources (before ++ after)).eraseDups = slots at *
    change (actions (before ++ (first ++ after))).foldlM perform _ =
      (actions (before ++ (second ++ after))).foldlM perform _
    rw [actions, actions, List.foldlM_append, List.foldlM_append, importActions_fill hfirst,
      importActions_fill hsecond]
    have hnamed := (allNamed_of_registered hregistered).mono (List.subset_append_left before after)
    let gap : Gap := ⟨⟨slots, []⟩, [], [], statements before, statements after⟩
    have hgap : gap.Spares name :=
      ⟨hnamed.mono (List.filter_subset_self _), fun statement hmem =>
        hspared statement (List.mem_filter.1 hmem).1⟩
    have hstart : Beside slots name related (statements before).length first.length second.length
        (start ⟨slots, []⟩ (before ++ (first ++ after)))
        (start ⟨slots, []⟩ (before ++ (second ++ after))) := by
      rw [start, start, statements_fill hfirst, statements_fill hsecond]
      have hfill : Beside slots name related _ _ _ (gap.fill first) (gap.fill second) :=
        .fill rfl hgap hrelated
      exact hfill
    -- The imports leave the two modules beside each other, and then the gap is filled alike.
    apply (Except.Both.foldlM ?_ hstart).bind_eq
    · intro state other h
      rw [← takeStatements_eq, ← takeStatements_eq, statements_fill hfirst,
        statements_fill hsecond]
      simp only [List.length_append]
      generalize first.length = length at h
      generalize second.length = length' at h
      generalize (statements before).length = lead at h
      obtain ⟨rfl, hspares, hfilling⟩ := h
      exact takeStatements_fill hexchange hspares hfilling _
    · intro action haction state other h
      obtain ⟨statement, hstatement, hmem⟩ := List.mem_flatMap.1 haction
      obtain ⟨_, _, specifier, node, -, -, -, rfl⟩ := mem_importActions hmem
      apply h.bindImport hexchange hrefused
      · exact mem_specifiers_of_mem_importActions hregistered haction
      · rintro localName imported hread rfl
        exact himported (mem_importedLocals haction hread)

/-! ## Statements that can stand for each other -/

/-- Two statements that are taken alike where the modules have the given slots, and that no pass
changes that is not for the name of the given parameter. -/
structure Interchangeable (slots : List String) (param : String) (first second : Node) : Prop where
  fixed : ∀ pass : Pass, pass.name ≠ param →
    pass.replace first = first ∧ pass.replace second = second
  taken : ∀ state : Wrapping, state.dependencies.specifiers = slots →
    state.takeStatement first = state.takeStatement second

namespace Interchangeable

variable {slots : List String} {param : String} {first second : Node}

theorem symm (h : Interchangeable slots param first second) :
    Interchangeable slots param second first :=
  ⟨fun pass hname => (h.fixed pass hname).symm, fun state hslots => (h.taken state hslots).symm⟩

/-- Interchangeable statements are a relation that passes keep, if they are not for the parameter:
no such pass changes either of them. -/
theorem exchangeable (h : Interchangeable slots param first second) :
    Exchangeable slots param fun filling other => filling = [first] ∧ other = [second] := by
  constructor
  · rintro _ _ ⟨rfl, rfl⟩ pass hname
    obtain ⟨hfirst, hsecond⟩ := h.fixed pass hname
    rw [List.map_singleton, List.map_singleton, hfirst, hsecond]
    exact ⟨rfl, rfl⟩
  · rintro _ _ ⟨rfl, rfl⟩ state hslots
    have hone : ∀ statement, takeStatements [statement].length
        { state with pending := [statement] ++ state.pending } =
        state.takeStatement statement >>= takeStatements 0 := fun _ => rfl
    rw [hone, hone, h.taken state hslots]

end Interchangeable

/-- **Interchangeable statements can stand for each other** behind statements that give up no
local name that is spelled like the parameter. This is the case of a gap that is filled by one
statement. -/
theorem takeStatements_exchange {table : Dependencies} {param : String} {first second : Node}
    (h : Interchangeable table.specifiers param first second) {before rest : List Node}
    {exported : List String} {done : List Node} {final : Wrapping}
    (hknown : AllNamed table.specifiers before)
    (hlocals : ∀ statement ∈ before, ∀ name ∈ exportedLocals table statement, name ≠ param)
    {count : Nat}
    (htaken : takeStatements (before.length + (count + 1))
      ⟨table, exported, done, before ++ first :: rest⟩ = .ok final) :
    takeStatements (before.length + (count + 1))
      ⟨table, exported, done, before ++ second :: rest⟩ = .ok final := by
  have hgap : Gap.Spares ⟨table, exported, done, before, rest⟩ param :=
    ⟨hknown, fun statement hmem hname => hlocals statement hmem param hname rfl⟩
  have hfilled := takeStatements_fill h.exchangeable hgap ⟨rfl, rfl⟩ count
  rw [Nat.add_comm count] at htaken ⊢
  exact hfilled ▸ htaken

end Wrapping

end DefineWrap
