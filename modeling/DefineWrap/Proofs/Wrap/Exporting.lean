/-
What becomes of assignments to the exports and of writes while statements are taken.

Everything that a statement assigns to the exports is in the result. Apart from that, an
assignment to a member of the exports comes from the one pass that exports a local name
under the name of the member. What this pass comes to depends on the passes before it: a
pass for the same local name has left nothing but initial values. So whether the result
has an assignment to the member can be read off the statements before anything is taken
(`TakesAll.gather_assigns_eq_nil`).

Export lists are taken to write nothing themselves, which is so if their entries are names.
-/
import DefineWrap.Proofs.Wrap.Imported
import DefineWrap.Proofs.Wrap.Writes

set_option autoImplicit false

namespace DefineWrap

/-! ## What the surveys carry over -/

namespace assigns

variable {exported : String}

/-- A use of a name is no assignment, so this survey may be asked about any name that is exported or
given up. -/
theorem gather_identifier (name : String) :
    (assigns exported).gather () (.identifier name) = [] := by
  rw [Survey.gather_eq _ _ (.identifier name) (of_decide_eq_false rfl)]
  rfl

/-- An assignment to another member of the exports shows the survey its value only. -/
theorem seesThrough_exported {other : String} (h : other ≠ exported) :
    (assigns exported).SeesThrough (.member exportsParam other) :=
  seesThrough (by rw [Access.node, Node.isAccess_access, decide_eq_false h, Bool.and_false])

/-- Nothing that is done for other members touches the assignments to this one. All local names are
foreign to the survey but that of the exports, by which it finds the assignments. -/
theorem carries (table : Dependencies) :
    (assigns exported).Carries () table (· ≠ exportsParam) (· ≠ exported) where
  stable _ _ hname hother := stable_exportPass hname hother
  seesThrough _ hother := seesThrough_exported hother
  import_eq param name _ := gather_access (.member param name)
  name_eq name _ := gather_identifier name
  export_eq node hnode := by
    cases node <;>
      first | exact ⟨rfl, fun _ => rfl⟩ | (rcases hnode with hnode | hnode <;> cases hnode)
  expression_eq declaration _ := by
    cases declaration
    case functionDeclaration => exact (gather_isFunction rfl).trans (gather_isFunction rfl).symm
    case classDeclaration id superClass body =>
      rw [Node.asExpression, Survey.gather_eq _ _ (.classExpression ..) (of_decide_eq_false rfl),
        Survey.gather_eq _ _ (.classDeclaration ..) (of_decide_eq_false rfl)]
      rfl
    all_goals rfl
  declarator_eq name init _ := by
    rw [gatherDeclarator_eq, Node.patternExpressions_identifier]
    rfl

end assigns

namespace writes

variable {name : String}

/-- A declaration of another name writes the same as an expression. One of the name itself would be
a write that the expression is not. -/
theorem gather_asExpression {declaration : Node}
    (h : ∀ other, declarationName? declaration = some other → other ≠ name) (round : Round) :
    (writes name).gather round declaration.asExpression =
      (writes name).gather round declaration := by
  cases declaration
  case functionDeclaration id params body generator isAsync =>
    rw [Node.asExpression, gather_functionExpression, gather_isFunction round rfl]
    simp [writes, Node.any_isIdentifier_eq_false h]
  case classDeclaration id superClass body =>
    have hbelow : ∀ child, (writes name).below round (.classExpression id superClass body) child =
        some round := fun child => by
      simp [writes, Node.isFunction, Node.rebinds, Node.any_isIdentifier_eq_false h]
    rw [Node.asExpression, Survey.gather_eq _ _ (.classExpression ..) (of_decide_eq_false rfl),
      Survey.gather_eq _ _ (.classDeclaration ..) (of_decide_eq_false rfl)]
    simp only [hbelow]
    rfl
  all_goals rfl

/-- Nothing that is done for other local names touches the writes to this one, whatever the names
are exported under. -/
theorem carries {table : Dependencies} (hparam : table.injects name = false) (round : Round) :
    (writes name).Carries round table (· ≠ name) fun _ => True := by
  have hne : ∀ param, table.injects param = true → param ≠ name := fun _ =>
    Dependencies.ne_of_injects hparam
  have hexports : exportsParam ≠ name := hne exportsParam table.injects_exportsParam
  refine
    { stable := fun other exported hother _ => stable (Ne.symm hother) (Ne.symm hexports)
      seesThrough := fun exported _ => seesThrough hexports
      import_eq := fun param member hinjects => ?_
      name_eq := fun other _ => gather_identifier round other
      export_eq := fun node hnode => ?_
      expression_eq := fun declaration hdeclaration => gather_asExpression hdeclaration round
      declarator_eq := fun other init hother => ?_ }
  · have haccess : (Access.member param member).object ≠ name := hne param hinjects
    exact (seesThrough haccess).access_eq round
  · cases node <;>
      first | exact ⟨rfl, fun _ => rfl⟩ | (rcases hnode with hnode | hnode <;> cases hnode)
  · rw [gatherDeclarator_eq]
    cases init with
    | none => simp
    | some value =>
      have hname : other ≠ name := hother rfl
      simp [Node.binds, hname, Ne.symm hname]

end writes

/-! ## Statements that are put after those that are done -/

namespace Effect

/-- What is done after some effects was done before or has been put there, and has gone
through some of the passes. -/
theorem mem_applyAll {effects : List Effect} {done : List Node} {node : Node}
    (h : node ∈ applyAll done effects) :
    ∃ statement ∈ done ++ emitted effects, ∃ others ⊆ passes effects,
      node = Pass.replaceAll others statement := by
  induction effects generalizing done with
  | nil => exact ⟨node, List.mem_append_left _ h, [], List.nil_subset _, rfl⟩
  | cons effect rest ih =>
    obtain ⟨statement, hstatement, others, hothers, rfl⟩ := ih h
    cases effect with
    | emit first =>
      refine ⟨statement, ?_, others, hothers, rfl⟩
      simpa [apply, emitted] using hstatement
    | substitute pass =>
      rcases List.mem_append.1 hstatement with hdone | hemitted
      · obtain ⟨original, horiginal, rfl⟩ := List.mem_map.1 hdone
        exact ⟨original, List.mem_append_left _ horiginal, pass :: others,
          List.cons_subset_cons pass hothers, rfl⟩
      · exact ⟨statement, List.mem_append_right _ hemitted, others,
          List.subset_cons_of_subset pass hothers, rfl⟩

/-- The local names that there are passes for among some effects. What later statements write is
asked in the round after these. -/
def passed (effects : List Effect) : List String := (passes effects).map (·.name)

/-- The names of effects in a row are put in a row like their passes. -/
theorem passed_append (first second : List Effect) :
    passed (first ++ second) = passed first ++ passed second := by
  rw [passed, passes_append, List.map_append]
  rfl

end Effect

/-- Rounds after two groups of names are one round after both. The passes of a statement come before
those of the statements after it, and the names of both count. -/
theorem Round.after_after (round : Round) (first second : List String) (name : String) :
    (round.after second name).after first name = round.after (first ++ second) name := by
  unfold Round.after
  by_cases hfirst : name ∈ first
  · simp [hfirst]
  · simp [hfirst]

theorem Round.after_congr (round : Round) {first second : List String} {name : String}
    (h : name ∈ first ↔ name ∈ second) : round.after first name = round.after second name := by
  simp only [Round.after, h]

theorem Round.after_of_not_mem (round : Round) {names : List String} {name : String}
    (h : name ∉ names) : round.after names name = round := if_neg h

/-! ## Declarations and lists -/

/-- The names that an exported declaration declares. These are the locals that a statement gives up
without any list. -/
def declaredLocals : Node → List String
  | .exportNamedDeclaration (some declaration) _ _ => declaration.directDeclarations?.getD []
  | _ => []

/-- Whether a statement is an export list. A list is the one form that gives up names declared
elsewhere. -/
def isExportList : Node → Bool
  | .exportNamedDeclaration none _ none => true
  | _ => false

theorem isExportList_iff {node : Node} :
    isExportList node = true ↔
      ∃ specifiers, node = .exportNamedDeclaration none specifiers none := by
  constructor
  · intro h
    unfold isExportList at h
    split at h
    · exact ⟨_, rfl⟩
    · cases h
  · rintro ⟨specifiers, rfl⟩
    rfl

/-- What is no list gives up the names that it declares, and so this does not depend on the table of
the slots. -/
theorem exportedLocals_eq {table : Dependencies} {node : Node} (h : isExportList node = false) :
    exportedLocals table node = declaredLocals node := by
  cases node
  case exportNamedDeclaration declaration specifiers source =>
    cases declaration with
    | some declaration => rfl
    | none =>
      cases source with
      | some source => rfl
      | none => cases h
  all_goals rfl

/-- A declared name is always given up, also if it is that of a parameter: only the entries of lists
are asked for this. -/
theorem declaredLocals_subset_exportedLocals (table : Dependencies) (node : Node) :
    declaredLocals node ⊆ exportedLocals table node := by
  cases hlist : isExportList node with
  | true =>
    obtain ⟨specifiers, rfl⟩ := isExportList_iff.1 hlist
    exact List.nil_subset _
  | false => rw [exportedLocals_eq hlist]; exact List.Subset.refl _

/-- A local name that is given up is that of no parameter, if none is that is declared. For the
entries of a list it holds by the definition of what they give up. -/
theorem injects_of_mem_exportedLocals {table : Dependencies} {node : Node}
    (hdeclared : ∀ name ∈ declaredLocals node, table.injects name = false) {name : String}
    (h : name ∈ exportedLocals table node) : table.injects name = false := by
  cases hlist : isExportList node with
  | false =>
    rw [exportedLocals_eq hlist] at h
    exact hdeclared name h
  | true =>
    obtain ⟨specifiers, rfl⟩ := isExportList_iff.1 hlist
    obtain ⟨specifier, -, hentry⟩ := List.mem_flatMap.1 h
    unfold entryLocals at hentry
    split at hentry
    · simpa using (List.mem_filter.1 hentry).2
    · cases hentry

namespace Pass

/-- Several passes, too, make no node one of a kind that it is not, apart from the three kinds that
a pass makes. -/
theorem kind_replaceAll_ne {kind : Kind} {node : Node} (h : node.kind ≠ kind)
    (hother : kind ≠ .memberExpression ∧ kind ≠ .identifier ∧ kind ≠ .expressionStatement)
    (passes : List Pass) : (replaceAll passes node).kind ≠ kind := by
  induction passes generalizing node with
  | nil => exact h
  | cons pass rest ih => exact ih (pass.kind_replace_ne h hother)

/-- What is an exported declaration, a re-export or a list after passes was one before, and its
parts went through the passes. So a form that is met in a run is a form in the text. -/
theorem exists_of_replaceAll_eq {passes : List Pass} {node : Node} {declaration : Option Node}
    {specifiers : List Node} {source : Option Node}
    (h : replaceAll passes node = .exportNamedDeclaration declaration specifiers source) :
    ∃ original others, node = .exportNamedDeclaration original others source ∧
      declaration = original.map (replaceAll passes) ∧
      specifiers = if source.isNone then others.map (replaceAll passes) else others := by
  have hkind : node.kind = .exportNamedDeclaration := by
    by_contra hkind
    exact kind_replaceAll_ne hkind (by decide) passes (by rw [h]; rfl)
  cases node
  case exportNamedDeclaration original others source' =>
    rw [replaceAll_exportNamedDeclaration] at h
    cases h
    exact ⟨original, others, rfl, rfl, rfl⟩
  all_goals cases hkind

/-- An exported declaration declares no name after passes that it did not declare in the text. -/
theorem declaredLocals_replaceAll_subset (passes : List Pass) (node : Node) :
    declaredLocals (replaceAll passes node) ⊆ declaredLocals node := by
  have hdeclaration : ∀ declaration : Node,
      (replaceAll passes declaration).directDeclarations?.getD [] ⊆
        declaration.directDeclarations?.getD [] := by
    intro declaration
    induction passes generalizing declaration with
    | nil => exact fun _ hmem => hmem
    | cons pass rest ih =>
      exact List.Subset.trans (ih (pass.replace declaration))
        (pass.directDeclarations?_replace_sublist _).subset
  intro name hmem
  unfold declaredLocals at hmem
  split at hmem
  next heq =>
    obtain ⟨original, others, rfl, hsome, -⟩ := exists_of_replaceAll_eq heq
    obtain ⟨declaration, rfl, rfl⟩ := Option.map_eq_some_iff.1 hsome.symm
    exact hdeclaration declaration hmem
  · cases hmem

end Pass

/-- An entry of an export list starts a pass or is assigned. It starts one only for a name that is
no parameter. -/
theorem entryEffect_cases (table : Dependencies) (entry : Node × String) :
    (∃ name, table.injects name = false ∧ entryEffect table entry = .exportAs name entry.2) ∨
      entryEffect table entry = .assign entry.2 entry.1 := by
  unfold entryEffect
  split
  next name _ =>
    by_cases hparam : table.injects name = true
    · exact .inr (if_pos hparam)
    · exact .inl ⟨name, Bool.eq_false_iff.2 hparam, if_neg hparam⟩
  · exact .inr rfl

/-- What an export list puts after those that are done are assignments of its entries, each to the
name that the entry has in the list. It is stated for some of the entries, since those before a pass
are looked at apart. -/
theorem mem_emitted_entries {table : Dependencies} {specifiers : List Node}
    {entries read : List (Node × String)} (hentries : specifiers.mapM exportEntry = .ok entries)
    (hread : read ⊆ entries) {statement : Node}
    (h : statement ∈ Effect.emitted (read.map (entryEffect table))) :
    ∃ localName node exported, (localName, exported) ∈ read ∧
      .exportSpecifier localName node ∈ specifiers ∧
      statement = .assignmentStatement (.access exportsParam exported) localName := by
  obtain ⟨effect, heffect, hstatement⟩ := List.mem_flatMap.1 h
  obtain ⟨⟨localName, exported⟩, hentry, rfl⟩ := List.mem_map.1 heffect
  obtain ⟨specifier, hspecifier, hentry'⟩ := Except.mem_of_mapM_ok hentries (hread hentry)
  obtain ⟨node, rfl⟩ := exportEntry_ok hentry'
  refine ⟨localName, node, exported, hentry, hspecifier, ?_⟩
  rcases entryEffect_cases table (localName, exported) with ⟨name, -, heq⟩ | heq
  · rw [heq] at hstatement
    cases hstatement
  · rw [heq] at hstatement
    exact List.mem_singleton.1 hstatement

/-- What passes an export list starts: each exports a local name, no parameter, under the name of
one of the entries. -/
theorem mem_passes_entries {table : Dependencies} {read : List (Node × String)} {pass : Pass}
    (h : pass ∈ Effect.passes (read.map (entryEffect table))) :
    ∃ name, table.injects name = false ∧ ∃ entry ∈ read, pass = Effect.exportPass name entry.2 := by
  obtain ⟨effect, heffect, hpass⟩ := List.mem_flatMap.1 h
  obtain ⟨entry, hentry, rfl⟩ := List.mem_map.1 heffect
  rcases entryEffect_cases table entry with ⟨name, hparam, heq⟩ | heq
  · rw [heq] at hpass
    exact ⟨name, hparam, entry, hentry, List.mem_singleton.1 hpass⟩
  · rw [heq] at hpass
    cases hpass

/-! ## Writes in what is done -/

namespace writes

variable {name : String}

/-- A statement that does not export a declaration of a name, and that writes nothing in
its entries if it is an export list. -/
structure Quiet (name : String) (statement : Node) : Prop where
  undeclared : name ∉ declaredLocals statement
  entries : ∀ specifiers, statement = .exportNamedDeclaration none specifiers none →
    ∀ specifier ∈ specifiers, ∀ round, (writes name).gather round specifier = []

/-- A statement that is quiet remains so through passes to the exports: none of them brings the name
into an entry or makes a declaration of it. -/
theorem Quiet.replaceAll {statement : Node} (h : Quiet name statement) {passes : List Pass}
    (hobjects : ∀ pass ∈ passes, pass.access.object ≠ name) :
    Quiet name (Pass.replaceAll passes statement) := by
  refine ⟨fun hmem => h.undeclared (Pass.declaredLocals_replaceAll_subset passes statement hmem),
    fun specifiers heq specifier hmem round => ?_⟩
  obtain ⟨original, others, rfl, hnone, rfl⟩ := Pass.exists_of_replaceAll_eq heq
  cases original with
  | some declaration => cases hnone
  | none =>
    obtain ⟨other, hother, rfl⟩ := List.mem_map.1 hmem
    rw [gather_replaceAll hobjects]
    exact h.entries others rfl other hother _

theorem Quiet.gather_list {specifiers : List Node}
    (h : Quiet name (.exportNamedDeclaration none specifiers none)) {table : Dependencies}
    (hparam : table.injects name = false) (round : Round) :
    (writes name).gather round (.exportNamedDeclaration none specifiers none) = [] := by
  rw [(carries hparam round).list_eq, List.flatMap_eq_nil_iff]
  exact fun specifier hmem => h.entries specifiers rfl specifier hmem round

/-- What an export list assigns writes nothing either. This is asked of any part of its entries, as
the effects are cut where the pass for a name starts. -/
theorem Quiet.gather_entries {specifiers : List Node}
    (h : Quiet name (.exportNamedDeclaration none specifiers none)) {table : Dependencies}
    (hparam : table.injects name = false) {entries : List (Node × String)}
    (hentries : specifiers.mapM exportEntry = .ok entries) {read : List (Node × String)}
    (hread : read ⊆ entries) (round : Round) :
    ∀ node ∈ Effect.applyAll [] (read.map (entryEffect table)),
      (writes name).gather round node = [] := by
  intro node hmem
  have hexports : exportsParam ≠ name :=
    Dependencies.ne_of_injects hparam table.injects_exportsParam
  obtain ⟨statement, hstatement, passes, hpasses, rfl⟩ := Effect.mem_applyAll hmem
  obtain ⟨localName, node, exported, -, hspecifier, rfl⟩ :=
    mem_emitted_entries hentries hread hstatement
  have hobjects : ∀ pass ∈ passes, pass.access.object ≠ name := fun pass hpass => by
    obtain ⟨other, -, entry, -, rfl⟩ := mem_passes_entries (hpasses hpass)
    exact hexports
  have hsees : (writes name).SeesThrough (.member exportsParam exported) := seesThrough hexports
  rw [gather_replaceAll hobjects]
  exact (hsees.gather_assignmentStatement _ localName).trans
    (((carries hparam _).entry_eq localName node).symm.trans
      (h.entries specifiers rfl _ hspecifier _))

/-- **What is written for one statement** is what the statement writes, in the round after its own
passes. The declaration is put before the passes for its names start, and so its writes are seen by
them. -/
theorem gather_takes_eq_nil {table : Dependencies} (hparam : table.injects name = false)
    {statement : Node} {names : List String} {effects : List Effect}
    (htakes : Takes table statement names effects) (hquiet : Quiet name statement)
    (round : Round) :
    (∀ node ∈ Effect.applyAll [] effects, (writes name).gather round node = []) ↔
      (writes name).gather (round.after (Effect.passed effects) name) statement.content = [] := by
  -- A list is the only export that may be of a name that is declared elsewhere. Any other statement
  -- starts passes for its own names only.
  cases hlist : isExportList statement with
  | true =>
    obtain ⟨specifiers, rfl⟩ := isExportList_iff.1 hlist
    cases htakes with
    | list hentries =>
      exact ⟨fun _ => hquiet.gather_list hparam _,
        fun _ => hquiet.gather_entries hparam hentries (List.Subset.refl _) round⟩
    | other hexport => cases hexport
  | false =>
    have hforeign : ∀ other ∈ exportedLocals table statement, other ≠ name := by
      rintro other hother rfl
      rw [exportedLocals_eq hlist] at hother
      exact hquiet.undeclared hother
    have hpassed : name ∉ Effect.passed effects := by
      intro hmem
      obtain ⟨pass, hpass, hname⟩ := List.mem_map.1 hmem
      obtain ⟨other, hother, exported, -, rfl⟩ := htakes.mem_passes hpass
      exact hforeign other hother hname
    have hstable : ∀ pass ∈ Effect.passes effects, (writes name).Stable pass := by
      intro pass hpass
      obtain ⟨other, hother, exported, -, rfl⟩ := htakes.mem_passes hpass
      exact (carries hparam round).stable other exported (hforeign other hother) trivial
    have hemitted := (carries hparam round).gather_emitted htakes hforeign
      (fun other _ => gather_identifier round other) fun _ _ => trivial
    have hgather : (Effect.applyAll [] effects).flatMap ((writes name).gather round) =
        [].flatMap ((writes name).gather round) ++
          (Effect.emitted effects).flatMap ((writes name).gather round) :=
      Survey.Carries.gather_apply hstable []
    rw [hemitted] at hgather
    rw [round.after_of_not_mem hpassed, ← List.flatMap_eq_nil_iff, hgather]
    exact Iff.rfl

/-- **What is written while statements are taken.** Nothing is written in what is done
exactly if nothing was written before, and the statements write nothing, both in the round
after all passes. -/
theorem gather_takesAll_eq_nil {table : Dependencies} (hparam : table.injects name = false)
    {statements : List Node} {names : List String} {effects : List Effect}
    (htakes : TakesAll table statements names effects)
    (hquiet : ∀ statement ∈ statements, Quiet name statement) (round : Round) (done : List Node) :
    (∀ node ∈ Effect.applyAll done effects, (writes name).gather round node = []) ↔
      (∀ node ∈ done,
        (writes name).gather (round.after (Effect.passed effects) name) node = []) ∧
      ∀ statement ∈ statements,
        (writes name).gather (round.after (Effect.passed effects) name) statement.content = [] := by
  have hexports : exportsParam ≠ name :=
    Dependencies.ne_of_injects hparam table.injects_exportsParam
  induction htakes generalizing done with
  | nil => exact ⟨fun h => ⟨h, fun _ hmem => by cases hmem⟩, fun h => h.1⟩
  | @cons statement rest names names' effects effects' first others ih =>
    have hobjects : ∀ pass ∈ Effect.passes effects, pass.access.object ≠ name := by
      intro pass hpass
      obtain ⟨other, -, exported, -, rfl⟩ := first.mem_passes hpass
      exact hexports
    have hrest := ih (by
      intro other hother
      obtain ⟨original, horiginal, rfl⟩ := List.mem_map.1 hother
      exact (hquiet original (List.mem_cons_of_mem _ horiginal)).replaceAll hobjects)
      (Effect.applyAll done effects)
    have hfirst := gather_takes_eq_nil hparam first (hquiet statement List.mem_cons_self)
      (round.after (Effect.passed effects') name)
    rw [Effect.applyAll_append]
    -- What the first statement has emitted goes through the passes of the others as well.
    refine hrest.trans ?_
    rw [Effect.applyAll_eq, List.forall_mem_append, hfirst,
      List.forall_mem_map, List.forall_mem_map, List.forall_mem_cons, Effect.passed_append,
      ← Round.after_after, and_assoc]
    simp only [Pass.content_replaceAll, gather_replaceAll hobjects]
    exact Iff.rfl

end writes

end DefineWrap
