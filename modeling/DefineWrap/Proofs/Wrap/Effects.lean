/-
What the statements of a module come to, one after the other.

A statement that is no import is taken as the passes before it have left it. Taking it
exports some names and has some effects: statements are put after those that are done,
and passes go over everything. `Takes` lists the possibilities, one for each form of
statement, and `Wrapping.takeStatement_ok` says that there are no others. So nothing
below this module has to look into the functions that take statements.

`TakesAll` puts the effects of all statements in a row, and `Wrapping.run_effects` says
that the statements of a finished module are what these effects make of nothing.
-/
import DefineWrap.Proofs.Wrap.Imports

set_option autoImplicit false

namespace DefineWrap

/-! ## Effects -/

/-- One thing that is done for a statement. Two kinds are enough for all forms of export, and apart
from the names of the exports nothing else of a module changes. -/
inductive Effect where
  /-- A statement is put after those that are done. -/
  | emit (statement : Node)
  /-- A pass goes over all statements. -/
  | substitute (pass : Pass)

namespace Effect

/-- An assignment to a member of the exports. It is put where the statement stood, so that the value
is evaluated at its place in the text. -/
def assign (exported : String) (value : Node) : Effect :=
  .emit (.assignmentStatement (.access exportsParam exported) value)

/-- The pass that exports a local name under a name. It is not strict, since a local name may be
assigned to, and then the export changes with it. -/
def exportPass (localName exported : String) : Pass :=
  ⟨localName, .member exportsParam exported, false⟩

/-- A local name is exported under a name: nothing is put anywhere, but the export takes the place
of the name in all statements, also in those before. -/
def exportAs (localName exported : String) : Effect :=
  .substitute (exportPass localName exported)

/-- The passes among some effects, in their order. These are what later statements are subject to
before they are taken. -/
def passes (effects : List Effect) : List Pass :=
  effects.flatMap fun
    | .emit _ => []
    | .substitute pass => [pass]

/-- The statements that are done after an effect. A pass changes what is done already, but a
statement that is put last has not gone through the passes before it. -/
def apply (done : List Node) : Effect → List Node
  | .emit statement => done ++ [statement]
  | .substitute pass => done.map pass.replace

/-- The statements that are done after several effects, the first effect first. -/
def applyAll (done : List Node) (effects : List Effect) : List Node := effects.foldl apply done

/-- The passes of effects in a row are those of the first and then those of the second. -/
theorem passes_append (first second : List Effect) :
    passes (first ++ second) = passes first ++ passes second :=
  List.flatMap_append

/-- A declaration exports its names one after the other, so it has one pass for each of them. -/
theorem passes_exportAs (names : List String) :
    passes (names.map fun name => .exportAs name name) =
      names.map fun name => exportPass name name := by
  rw [passes, List.flatMap_map, List.map_eq_flatMap]
  rfl

theorem applyAll_append (done : List Node) (first second : List Effect) :
    applyAll done (first ++ second) = applyAll (applyAll done first) second :=
  List.foldl_append

/-- What is done before some effects goes through their passes and stays in front. So the effects
can be looked at apart from what was done before them. -/
theorem applyAll_eq (done : List Node) (effects : List Effect) :
    applyAll done effects =
      done.map (Pass.replaceAll (passes effects)) ++ applyAll [] effects := by
  induction effects generalizing done with
  | nil =>
    rw [applyAll, applyAll, List.foldl_nil, List.foldl_nil, List.append_nil]
    exact (List.map_id done).symm
  | cons effect rest ih =>
    have hstep : ∀ nodes, applyAll nodes (effect :: rest) = applyAll (apply nodes effect) rest :=
      fun _ => rfl
    rw [hstep, hstep, ih, ih (apply [] effect), ← List.append_assoc]
    congr 1
    cases effect with
    | emit statement => simp [apply, passes]
    | substitute pass => simp [apply, passes]

end Effect

/-! ## The effects of a statement -/

/-- Whether a name is a parameter of the wrapper: that of the exports or that of a slot. Such a name
in an export list is no local of the module. -/
def Dependencies.injects (table : Dependencies) (name : String) : Bool :=
  name = exportsParam || table.isParam name

/-- The value of an exported declarator is assigned to the exports at its place. A declarator
without a value has no effect here, but the pass for its name comes later. -/
def initialEffects : Node → List Effect
  | .variableDeclarator (.identifier name) (some value) => [.assign name value]
  | _ => []

/-- An entry of an export list is assigned if it is no name, or the name of a parameter;
otherwise the name is exported. -/
def entryEffect (table : Dependencies) (entry : Node × String) : Effect :=
  match entry.1.identifierName? with
  | some name =>
    if table.injects name then .assign entry.2 entry.1 else .exportAs name entry.2
  | none => .assign entry.2 entry.1

/-- A re-export is assigned from the parameter of the module. There is no local name that a pass
could be for. -/
def reexportEffect (param : String) (names : String × String) : Effect :=
  .assign names.2 (.access param names.1)

/-- Whether a statement is an export. All others are put after those that are done as they are. -/
def isExport : Node → Bool
  | .exportDefaultDeclaration _ => true
  | .exportNamedDeclaration _ _ _ => true
  | .exportAllDeclaration _ _ => true
  | _ => false

/-- There are five forms of export, and a statement of no such form is none. The hypotheses are what
is left of the text after the cases in which a statement is taken. -/
theorem isExport_eq_false {statement : Node}
    (hdefault : ∀ declaration, statement ≠ .exportDefaultDeclaration declaration)
    (hdeclaration : ∀ declaration specifiers source,
      statement ≠ .exportNamedDeclaration (some declaration) specifiers source)
    (hreexport : ∀ specifiers source,
      statement ≠ .exportNamedDeclaration none specifiers (some source))
    (hlist : ∀ specifiers, statement ≠ .exportNamedDeclaration none specifiers none)
    (hall : ∀ source exported, statement ≠ .exportAllDeclaration source exported) :
    isExport statement = false := by
  cases statement
  case exportDefaultDeclaration => exact (hdefault _ rfl).elim
  case exportNamedDeclaration declaration specifiers source =>
    cases declaration with
    | some _ => exact (hdeclaration _ _ _ rfl).elim
    | none =>
      cases source with
      | some _ => exact (hreexport _ _ rfl).elim
      | none => exact (hlist _ rfl).elim
  case exportAllDeclaration => exact (hall _ _ rfl).elim
  all_goals rfl

/-- Which names a statement exports and which effects it has when it is taken, for each
form of statement that can be taken. -/
inductive Takes (table : Dependencies) : Node → List String → List Effect → Prop
  | defaultValue {declaration : Node} (h : declarationName? declaration = none) :
    Takes table (.exportDefaultDeclaration declaration) [defaultMember]
      [.assign defaultMember declaration.asExpression]
  | defaultNamed {declaration : Node} {name : String}
    (h : declarationName? declaration = some name) :
    Takes table (.exportDefaultDeclaration declaration) [defaultMember]
      [.emit declaration, .assign defaultMember (.identifier name)]
  | declarators {declarations specifiers : List Node} {kind : VariableKind} {source : Option Node}
    (h : ∀ id init, .variableDeclarator id init ∈ declarations → ∃ name, id = .identifier name) :
    Takes table
      (.exportNamedDeclaration (some (.variableDeclaration declarations kind)) specifiers source)
      (declarations.flatMap Node.declaratorNames)
      (declarations.flatMap initialEffects ++
        (declarations.flatMap Node.declaratorNames).map fun name => .exportAs name name)
  | declaration {declaration : Node} {name : String} {specifiers : List Node}
    {source : Option Node} (h : declarationName? declaration = some name) :
    Takes table (.exportNamedDeclaration (some declaration) specifiers source) [name]
      [.assign name declaration.asExpression, .exportAs name name]
  | reexport {specifiers : List Node} {source : Node} {specifier : String}
    {names : List (String × String)} (hsource : source.stringValue? = some specifier)
    (hknown : specifier ∈ table.specifiers) (hnames : specifiers.mapM reexportNames = .ok names) :
    Takes table (.exportNamedDeclaration none specifiers (some source)) (names.map (·.2))
      (names.map (reexportEffect (dependencyParam (table.specifiers.idxOf specifier))))
  | list {specifiers : List Node} {entries : List (Node × String)}
    (h : specifiers.mapM exportEntry = .ok entries) :
    Takes table (.exportNamedDeclaration none specifiers none) (entries.map (·.2))
      (entries.map (entryEffect table))
  | other {statement : Node} (h : isExport statement = false) :
    Takes table statement [] [.emit statement]

namespace Wrapping

/-! ## What a step makes of a module -/

/-- A module after some names have been exported and some effects have taken place. The pending
statements go through the passes, and the bindings of imports are complete by then and stay. -/
def after (state : Wrapping) (names : List String) (effects : List Effect) : Wrapping :=
  ⟨state.dependencies, state.exported ++ names, Effect.applyAll state.done effects,
    state.pending.map (Pass.replaceAll (Effect.passes effects))⟩

theorem after_nil (state : Wrapping) : state.after [] [] = state := by
  have hpending : state.pending.map (Pass.replaceAll (Effect.passes [])) = state.pending :=
    List.map_id _
  rw [after, hpending, List.append_nil]
  rfl

/-- Names and effects can be put in a row, so what a statement does is found step by step and stated
at once. -/
theorem after_after (state : Wrapping) (names names' : List String)
    (effects effects' : List Effect) :
    (state.after names effects).after names' effects' =
      state.after (names ++ names') (effects ++ effects') := by
  simp only [after, List.append_assoc, Effect.applyAll_append, Effect.passes_append,
    List.map_map, Wrapping.mk.injEq, true_and]
  exact List.map_congr_left fun statement _ => (Pass.replaceAll_append _ _ statement).symm

/-- A step has made this of a module, and every name is still exported once. The second part travels
along because the table of the names is what a step refuses by. -/
def Makes (state : Wrapping) (names : List String) (effects : List Effect) (next : Wrapping) :
    Prop :=
  next = state.after names effects ∧ (state.exported.Nodup → (state.exported ++ names).Nodup)

/-- Doing nothing makes of a module what no names and no effects make of it. -/
theorem Makes.refl (state : Wrapping) : state.Makes [] [] state :=
  ⟨state.after_nil.symm, fun h => by rwa [List.append_nil]⟩

/-- What two steps make is put in a row. All loops and sequences in the functions that take
statements come down to this one lemma. -/
theorem Makes.trans {state next final : Wrapping} {names names' : List String}
    {effects effects' : List Effect} (first : state.Makes names effects next)
    (second : next.Makes names' effects' final) :
    state.Makes (names ++ names') (effects ++ effects') final := by
  obtain ⟨rfl, hfirst⟩ := first
  obtain ⟨rfl, hsecond⟩ := second
  refine ⟨state.after_after .., fun h => ?_⟩
  rw [← List.append_assoc]
  exact hsecond (hfirst h)

/-- A step that exports no name has only to be described by its effects. -/
theorem Makes.of_eq {state next : Wrapping} {effects : List Effect}
    (h : next = state.after [] effects) : state.Makes [] effects next :=
  ⟨h, fun hnodup => by rwa [List.append_nil]⟩

/-- What each round of a loop makes is put in a row. The table of the slots stays the same over the
rounds, so the effects of a round depend on its item alone. -/
theorem makes_foldlM {α : Type} {f : Wrapping → α → Except WrapError Wrapping}
    {names : α → List String} {effects : α → List Effect} {table : Dependencies}
    (round : ∀ state item next, state.dependencies = table → f state item = .ok next →
      state.Makes (names item) (effects item) next)
    {items : List α} {state final : Wrapping} (htable : state.dependencies = table)
    (h : items.foldlM f state = .ok final) :
    state.Makes (items.flatMap names) (items.flatMap effects) final := by
  induction items generalizing state with
  | nil =>
    cases h
    exact .refl _
  | cons item rest ih =>
    obtain ⟨next, hnext, hrest⟩ := Except.foldlM_cons_ok h
    have hfirst := round state item next htable hnext
    exact hfirst.trans (ih (by rw [hfirst.1]; exact htable) hrest)

/-- Exporting a name succeeds only if the name is new, and this is where the exported names stay
distinct. -/
theorem recordExport_ok {state next : Wrapping} {name : String}
    (h : state.recordExport name = .ok next) : state.Makes [name] [] next := by
  rw [recordExport] at h
  split at h
  · cases h
  next hfresh =>
    cases h
    refine ⟨?_, fun hnodup => ?_⟩
    · have hpending : state.pending.map (Pass.replaceAll (Effect.passes [])) = state.pending :=
        List.map_id _
      rw [after, hpending]
      rfl
    · rw [List.nodup_append]
      refine ⟨hnodup, List.pairwise_singleton _ _, fun other hother _ hmem => ?_⟩
      rw [List.mem_singleton.1 hmem]
      rintro rfl
      exact hfresh hother

/-- Putting a statement after the others is the effect of that name and touches nothing that is
pending. -/
theorem emit_eq (state : Wrapping) (statement : Node) :
    state.emit statement = state.after [] [.emit statement] := by
  have hpending : state.pending.map (Pass.replaceAll (Effect.passes [.emit statement])) =
      state.pending := List.map_id _
  rw [after, hpending, List.append_nil]
  rfl

/-- Exporting a local name under a name is the pass for it. The pass is not strict and so refuses
nothing. -/
theorem exportAs_ok {state next : Wrapping} {localName exported : String}
    (h : state.exportAs localName exported = .ok next) :
    state.Makes [] [.exportAs localName exported] next := by
  obtain ⟨rfl, -⟩ := substitute_ok h
  refine .of_eq ?_
  rw [after, List.append_nil]
  rfl

/-- A local name that is exported under itself is first recorded and then replaced everywhere. -/
theorem exportLocal_ok {state next : Wrapping} {name : String}
    (h : state.exportLocal name = .ok next) :
    state.Makes [name] [.exportAs name name] next := by
  obtain ⟨recorded, hrecorded, h⟩ := Except.bind_ok h
  exact (recordExport_ok hrecorded).trans (exportAs_ok h)

/-! ## Taking each form of statement -/

/-- What a default export does when it succeeds: a declaration with a name is put in the text and
the name is assigned, and everything else is assigned as an expression. -/
theorem takeExportDefault_ok {state next : Wrapping} {declaration : Node}
    (h : state.takeExportDefault declaration = .ok next) :
    ∃ effects, Takes state.dependencies (.exportDefaultDeclaration declaration) [defaultMember]
      effects ∧ state.Makes [defaultMember] effects next := by
  obtain ⟨recorded, hrecorded, h⟩ := Except.bind_ok h
  obtain ⟨-, -, h⟩ := Except.bind_ok h
  have hfirst := recordExport_ok hrecorded
  cases hname : declarationName? declaration with
  | none =>
    refine ⟨_, .defaultValue hname, hfirst.trans (.of_eq ?_)⟩
    split at h
    · cases h
    · rw [hname] at h
      cases h
      exact emit_eq _ _
  | some name =>
    refine ⟨_, .defaultNamed hname, hfirst.trans (.of_eq ?_)⟩
    split at h
    · cases h
    · rw [hname] at h
      cases h
      rw [emitExport, emit_eq, emit_eq, after_after]
      rfl

/-- The loop over the declarators of an exported declaration: the values are assigned, the names are
collected for the passes after the loop, and no declarator has a pattern. -/
theorem takeDeclarators_ok {declarations : List Node} {state next : Wrapping}
    {names names' : List String}
    (h : declarations.foldlM takeDeclarator (state, names) = .ok (next, names')) :
    state.Makes [] (declarations.flatMap initialEffects) next ∧
      names' = names ++ declarations.flatMap Node.declaratorNames ∧
      ∀ id init, .variableDeclarator id init ∈ declarations → ∃ name, id = .identifier name := by
  induction declarations generalizing state names with
  | nil =>
    cases h
    exact ⟨.refl _, (List.append_nil _).symm, fun _ _ hmem => by cases hmem⟩
  | cons declarator rest ih =>
    obtain ⟨⟨middle, between⟩, hfirst, hrest⟩ := Except.foldlM_cons_ok h
    obtain ⟨hmakes, hnames, hids⟩ := ih hrest
    -- The first declarator is either one of a single name or no declarator at all.
    have hone : state.Makes [] (initialEffects declarator) middle ∧
        between = names ++ declarator.declaratorNames ∧
        ∀ id init, .variableDeclarator id init = declarator → ∃ name, id = .identifier name := by
      cases declarator
      case variableDeclarator id init =>
        rw [takeDeclarator] at hfirst
        cases id
        case identifier name =>
          cases init with
          | none =>
            cases hfirst
            exact ⟨.refl state, by rw [Node.declaratorNames, Node.boundNames_identifier],
              fun _ _ heq => ⟨name, by cases heq; rfl⟩⟩
          | some value =>
            cases hfirst
            exact ⟨.of_eq (emit_eq _ _),
              by rw [Node.declaratorNames, Node.boundNames_identifier],
              fun _ _ heq => ⟨name, by cases heq; rfl⟩⟩
        all_goals cases hfirst
      all_goals
        cases hfirst
        exact ⟨.refl state, (List.append_nil _).symm, fun _ _ heq => by cases heq⟩
    obtain ⟨hmakes', hnames', hid⟩ := hone
    refine ⟨hmakes'.trans hmakes, ?_, fun id init hmem => ?_⟩
    · rw [hnames, hnames', List.append_assoc, List.flatMap_cons]
    · rcases List.mem_cons.1 hmem with heq | hmem
      · exact hid id init heq
      · exact hids id init hmem

/-- What an exported declaration does when it succeeds. For variables all values are assigned before
the first of the names is replaced. -/
theorem takeExportDeclaration_ok {state next : Wrapping} {declaration : Node}
    (specifiers : List Node) (source : Option Node)
    (h : state.takeExportDeclaration declaration = .ok next) :
    ∃ names effects, Takes state.dependencies
      (.exportNamedDeclaration (some declaration) specifiers source) names effects ∧
      state.Makes names effects next := by
  obtain ⟨-, -, h⟩ := Except.bind_ok h
  split at h
  next declarations kind =>
    obtain ⟨⟨middle, names⟩, hfold, h⟩ := Except.bind_ok h
    obtain ⟨hmakes, hnames, hids⟩ := takeDeclarators_ok hfold
    refine ⟨_, _, .declarators hids, ?_⟩
    rw [List.nil_append] at hnames
    subst hnames
    -- The initial values have been assigned, and then the names are exported one by one.
    have round : ∀ (other : Wrapping) (name : String) (next : Wrapping),
        other.dependencies = middle.dependencies → other.exportLocal name = .ok next →
        other.Makes [name] [.exportAs name name] next :=
      fun _ _ _ _ hround => exportLocal_ok hround
    have hexports := makes_foldlM round rfl h
    rw [List.flatMap_singleton', ← List.map_eq_flatMap] at hexports
    exact hmakes.trans hexports
  · split at h
    · cases h
    next name hname =>
      refine ⟨_, _, .declaration hname, ?_⟩
      exact (Makes.of_eq (emit_eq _ _)).trans (exportLocal_ok h)

/-- What `takeReexport` does once the names are read. Reading an entry and exporting it are
interleaved in the source, and apart from each other here. -/
def assignReexport (param : String) (state : Wrapping) (names : String × String) :
    Except WrapError Wrapping := do
  let state ← state.recordExport names.2
  return state.emitExport names.2 (.access param names.1)

/-- What `takeExportEntry` does once the entry is read. It looks at the state to see whether the
name is a parameter. -/
def exportRead (state : Wrapping) (entry : Node × String) : Except WrapError Wrapping := do
  let state ← state.recordExport entry.2
  match entry.1.identifierName? with
  | some name =>
    if state.isInjected name then return state.emitExport entry.2 entry.1
    else state.exportAs name entry.2
  | none => return state.emitExport entry.2 entry.1

theorem assignReexport_ok {param : String} {state next : Wrapping} {names : String × String}
    (h : assignReexport param state names = .ok next) :
    state.Makes [names.2] [reexportEffect param names] next := by
  obtain ⟨recorded, hrecorded, h⟩ := Except.bind_ok h
  cases h
  exact (recordExport_ok hrecorded).trans (.of_eq (emit_eq _ _))

/-- An entry of an export list, once read, exports one name. What else it does depends only on the
table of the slots, and this stays for the whole list. -/
theorem exportRead_ok {state next : Wrapping} {entry : Node × String}
    (h : exportRead state entry = .ok next) :
    state.Makes [entry.2] [entryEffect state.dependencies entry] next := by
  obtain ⟨recorded, hrecorded, h⟩ := Except.bind_ok h
  have hfirst := recordExport_ok hrecorded
  refine hfirst.trans ?_
  have hsame : recorded.isInjected = state.dependencies.injects := by
    rw [hfirst.1]
    rfl
  unfold entryEffect
  cases hname : entry.1.identifierName? with
  | none =>
    rw [hname] at h
    cases h
    exact .of_eq (emit_eq _ _)
  | some name =>
    simp only [hname, hsame] at h
    by_cases hinjected : state.dependencies.injects name = true
    · simp only [hinjected, if_true] at h ⊢
      cases h
      exact .of_eq (emit_eq _ _)
    · simp only [hinjected] at h ⊢
      exact exportAs_ok h

/-- An entry of a re-export is first read and then exported, so a loop that succeeds has read all
entries (`Except.foldlM_read_ok`). -/
theorem takeReexport_eq (param : String) (state : Wrapping) (specifier : Node) :
    takeReexport param state specifier =
      reexportNames specifier >>= assignReexport param state := rfl

theorem takeExportEntry_eq (state : Wrapping) (specifier : Node) :
    takeExportEntry state specifier = exportEntry specifier >>= exportRead state := rfl

/-- What a re-export does when it succeeds: all its entries can be read, and each of them is
assigned from the parameter of the module. -/
theorem takeReexports_ok {state next : Wrapping} {specifiers : List Node} {source : Node}
    {specifier : String} (hsource : source.stringValue? = some specifier)
    (hknown : specifier ∈ state.dependencies.specifiers) (h : specifiers.foldlM
      (takeReexport (dependencyParam (state.dependencies.specifiers.idxOf specifier))) state =
        .ok next) :
    ∃ names effects, Takes state.dependencies
      (.exportNamedDeclaration none specifiers (some source)) names effects ∧
      state.Makes names effects next := by
  obtain ⟨pairs, hpairs, hfold⟩ := Except.foldlM_read_ok (takeReexport_eq _) h
  refine ⟨_, _, .reexport hsource hknown hpairs, ?_⟩
  have round : ∀ (param : String) (other : Wrapping) (names : String × String) (next : Wrapping),
      other.dependencies = state.dependencies → assignReexport param other names = .ok next →
      other.Makes [names.2] [reexportEffect param names] next :=
    fun _ _ _ _ _ hround => assignReexport_ok hround
  have hmakes := makes_foldlM (round _) rfl hfold
  rwa [← List.map_eq_flatMap, ← List.map_eq_flatMap] at hmakes

/-- What an export list does when it succeeds: all its entries can be read, and each of them has the
effect that its name has in the table. -/
theorem takeExportEntries_ok {state next : Wrapping} {specifiers : List Node}
    (h : specifiers.foldlM takeExportEntry state = .ok next) :
    ∃ names effects, Takes state.dependencies
      (.exportNamedDeclaration none specifiers none) names effects ∧
      state.Makes names effects next := by
  obtain ⟨entries, hentries, hfold⟩ := Except.foldlM_read_ok takeExportEntry_eq h
  refine ⟨_, _, .list hentries, ?_⟩
  have round : ∀ (other : Wrapping) (entry : Node × String) (next : Wrapping),
      other.dependencies = state.dependencies → exportRead other entry = .ok next →
      other.Makes [entry.2] [entryEffect state.dependencies entry] next :=
    fun _ _ _ htable hround => htable ▸ exportRead_ok hround
  have hmakes := makes_foldlM round rfl hfold
  rwa [← List.map_eq_flatMap, ← List.map_eq_flatMap] at hmakes

/-- **What a statement comes to.** If it can be taken, it is one of the forms of `Takes`,
and its effects there are all that happens. -/
theorem takeStatement_ok {state next : Wrapping} {statement : Node}
    (hknown : ∀ specifier, namedSource? statement = some specifier →
      specifier ∈ state.dependencies.specifiers)
    (h : state.takeStatement statement = .ok next) :
    ∃ names effects, Takes state.dependencies statement names effects ∧
      state.Makes names effects next := by
  unfold takeStatement at h
  split at h
  · obtain ⟨effects, htakes, hmakes⟩ := takeExportDefault_ok h
    exact ⟨_, effects, htakes, hmakes⟩
  · exact takeExportDeclaration_ok _ _ h
  next specifiers source =>
    obtain ⟨specifier, hspecifier, h⟩ := Except.bind_ok h
    have hsource : source.stringValue? = some specifier := by
      unfold moduleSpecifier at hspecifier
      split at hspecifier
      next hvalue =>
        cases hspecifier
        exact hvalue
      · cases hspecifier
    rw [Dependencies.register_of_mem (hknown specifier hsource)] at h
    exact takeReexports_ok hsource (hknown specifier hsource) h
  · exact takeExportEntries_ok h
  · cases h
  next hdefault hdeclaration hreexport hlist hall =>
    obtain ⟨-, -, h⟩ := Except.bind_ok h
    cases h
    exact ⟨_, _, .other (isExport_eq_false hdefault hdeclaration hreexport hlist hall),
      .of_eq (emit_eq _ _)⟩

end Wrapping

/-! ## The effects of all statements -/

/-- The names and the effects of statements that are taken one after the other. Each is
taken as the passes of those before it have left it. -/
inductive TakesAll (table : Dependencies) : List Node → List String → List Effect → Prop
  | nil : TakesAll table [] [] []
  | cons {statement : Node} {rest : List Node} {names names' : List String}
    {effects effects' : List Effect} (first : Takes table statement names effects)
    (others : TakesAll table (rest.map (Pass.replaceAll (Effect.passes effects))) names'
      effects') :
    TakesAll table (statement :: rest) (names ++ names') (effects ++ effects')

namespace Wrapping

/-- A pass does not change which module a statement names: sources are no uses of a name, and what
is replaced as a whole names none. -/
theorem sourceNode?_replace (pass : Pass) (node : Node) :
    sourceNode? (pass.replace node) = sourceNode? node := by
  induction node using pass.replace_induction with
  | reference =>
    rcases pass.access.node_eq_access_or_identifier with ⟨name, heq⟩ | heq
    · obtain ⟨member, computed, haccess, -⟩ := Node.exists_access_eq pass.access.object name
      rw [heq, haccess]
      rfl
    · rw [heq]
      rfl
  | function id params body generator isAsync hid => rfl
  | shadowed node hreplaced hshadowed => rfl
  | declaration declarations kind ih => rfl
  | entered node henters ih => cases node <;> rfl

/-- So the slot of a statement is that of its text, however many passes come before it is taken. -/
theorem namedSource?_replaceAll (passes : List Pass) (node : Node) :
    namedSource? (Pass.replaceAll passes node) = namedSource? node := by
  refine Pass.replaceAll_invariant (fun pass _ other => ?_) node
  rw [namedSource?, sourceNode?_replace]
  rfl

/-- A module with nothing left to take. It is what the effects of the statements act on, since by
then each of them has been taken out. -/
def finished (state : Wrapping) : Wrapping := { state with pending := [] }

/-- Taking the next statement has its effects on everything else. Its module has to be in the table,
which holds for all statements of the text. -/
theorem takeNext_ok {state next : Wrapping} {statement : Node} {pending : List Node}
    (hpending : state.pending = statement :: pending)
    (hknown : ∀ specifier, namedSource? statement = some specifier →
      specifier ∈ state.dependencies.specifiers)
    (h : state.takeNext = .ok next) :
    ∃ names effects, Takes state.dependencies statement names effects ∧
      Makes { state with pending } names effects next := by
  rw [takeNext, hpending] at h
  exact @takeStatement_ok { state with pending } next statement hknown h

/-- The next statement is taken as some passes have left it. The table is asked for the module of
the original statement, which is the one in the text. -/
theorem takeNext_replaceAll_ok {state next : Wrapping} {statement : Node} {rest : List Node}
    {passes : List Pass}
    (hpending : state.pending = (statement :: rest).map (Pass.replaceAll passes))
    (hknown : ∀ specifier, namedSource? statement = some specifier →
      specifier ∈ state.dependencies.specifiers)
    (h : state.takeNext = .ok next) :
    ∃ names effects, Takes state.dependencies (Pass.replaceAll passes statement) names effects ∧
      Makes { state with pending := rest.map (Pass.replaceAll passes) } names effects next := by
  refine takeNext_ok hpending (fun specifier hspecifier => hknown specifier ?_) h
  rwa [namedSource?_replaceAll] at hspecifier

/-- Taking all pending statements has their effects. The induction is on the number of the actions,
and each action takes the front statement after the passes of those before it. -/
theorem takesAll_of_performed {taken : List Node} {state final : Wrapping}
    (hlength : state.pending.length = taken.length)
    (hknown : ∀ statement ∈ state.pending, ∀ specifier, namedSource? statement = some specifier →
      specifier ∈ state.dependencies.specifiers)
    (h : (taken.map .take).foldlM perform state = .ok final) :
    ∃ names effects, TakesAll state.dependencies state.pending names effects ∧
      state.finished.Makes names effects final := by
  induction taken generalizing state with
  | nil =>
    have hnone : state.pending = [] := List.eq_nil_of_length_eq_zero hlength
    cases h
    refine ⟨[], [], by rw [hnone]; exact .nil, .of_eq ?_⟩
    rw [after_nil, finished, ← hnone]
  | cons first rest ih =>
    obtain ⟨next, hnext, hrest⟩ := Except.foldlM_cons_ok h
    rw [perform] at hnext
    cases hpending : state.pending with
    | nil =>
      rw [hpending] at hlength
      cases hlength
    | cons statement pending =>
      rw [hpending] at hlength hknown
      obtain ⟨names, effects, htakes, hmakes⟩ :=
        takeNext_ok hpending (hknown statement List.mem_cons_self) hnext
      -- Passes leave the sources of the pending statements as they are.
      obtain ⟨names', effects', htakes', hmakes'⟩ := @ih next
        (by rw [hmakes.1]; simpa [after] using hlength)
        (by
          rw [hmakes.1]
          intro other hother specifier hspecifier
          obtain ⟨original, horiginal, rfl⟩ := List.mem_map.1 hother
          rw [namedSource?_replaceAll] at hspecifier
          exact hknown original (List.mem_cons_of_mem _ horiginal) specifier hspecifier)
        hrest
      rw [hmakes.1] at htakes'
      refine ⟨names ++ names', effects ++ effects', .cons htakes htakes', ?_⟩
      have hfirst : state.finished.Makes names effects next.finished := by
        refine ⟨?_, hmakes.2⟩
        rw [hmakes.1]
        rfl
      exact hfirst.trans hmakes'

/-! ## A whole run -/

/-- The names that the imports of a module bind, in the order of the text. A run that succeeds has
them all different. -/
def importedLocals (body : List Node) : List String := body.flatMap importedNames

/-- **What a run does.** First the imports are bound, which takes every statement through
their passes. Then the effects of the statements, put in a row, make the result. -/
theorem run_effects {body : List Node} {final : Wrapping} (h : run body = .ok final) :
    ∃ imported names effects,
      Importing (sources body).eraseDups (statements body) imported ∧
      imported.dependencies = final.dependencies ∧
      imported.dependencies.bindings.map (·.localName) = importedLocals body ∧
      TakesAll final.dependencies imported.pending names effects ∧
      final.done = Effect.applyAll [] effects ∧ names.Nodup := by
  obtain ⟨dependencies, hslots, hfold⟩ := run_ok h
  obtain ⟨imported, himports, htaken⟩ := Except.foldlM_append_ok hfold
  have himporting := importing_of_performed hslots (fun _ hmem => hmem) himports
  have hspecifiers := (specifiers_of_registered hslots).1
  have hpending := himporting.pending_eq
  -- What the statements name has got a slot, and passes leave the sources alone.
  obtain ⟨names, effects, htakes, hfinal, hnodup⟩ := takesAll_of_performed
    (by rw [hpending, List.length_map]) (by
      intro statement hmem specifier hspecifier
      rw [hpending] at hmem
      obtain ⟨original, horiginal, rfl⟩ := List.mem_map.1 hmem
      rw [namedSource?_replaceAll] at hspecifier
      rw [himporting.specifiers_eq]
      exact mem_specifiers_of_named hslots (List.mem_filter.1 horiginal).1 hspecifier) htaken
  subst hfinal
  refine ⟨imported, names, effects, by rwa [← hspecifiers], rfl, ?_, htakes, ?_, ?_⟩
  · rw [bindings_of_imported hslots himports]
    exact localNames_boundBy fun statement hmem source hsource =>
      stringValue?_of_registered hslots hmem hsource
  · rw [after, finished, himporting.done_eq]
  · rw [finished, himporting.exported_eq, List.nil_append] at hnodup
    exact hnodup List.nodup_nil

end Wrapping

end DefineWrap
