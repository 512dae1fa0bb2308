/-
Statements are taken without a look at the bindings and at the statements behind them.

Once the imports are bound, the table is only asked which modules have slots. So the same
statements can be taken in a module with other bindings, with the same result but for the
bindings (`Wrapping.takeStatements_rebind`). The passes of a statement go over those that are
still to be taken, but none of them is refused, so one statement can be taken no matter what
stands behind it (`Wrapping.takeStatement_reframe`).
-/
import DefineWrap.Proofs.Wrap.Rewrite
import DefineWrap.Wrap.Module

set_option autoImplicit false

namespace DefineWrap

namespace Except

variable {ε α β γ : Type}

/-- What is done to the result of a sequence is done to the result of its last step. -/
theorem map_bind (f : β → γ) (x : Except ε α) (g : α → Except ε β) :
    (x >>= g).map f = x >>= fun value => (g value).map f := by
  cases x <;> rfl

/-- What is done to the result of a step can be left to the step after it. Together these two move a
change of the state through a function from its beginning to its end. -/
theorem bind_map (f : α → β) (x : Except ε α) (g : β → Except ε γ) :
    x.map f >>= g = x >>= fun value => g (f value) := by
  cases x <;> rfl

/-- A loop whose rounds do not see a change does not see it either. The change may be any function
of the state that commutes with the rounds. -/
theorem foldlM_map {σ : Type} {round : σ → α → Except ε σ} {change : σ → σ}
    (h : ∀ state item, round (change state) item = (round state item).map change)
    (items : List α) (state : σ) :
    items.foldlM round (change state) = (items.foldlM round state).map change := by
  induction items generalizing state with
  | nil => rfl
  | cons item rest ih =>
    rw [List.foldlM_cons, List.foldlM_cons, h, bind_map, map_bind]
    exact congrArg _ (funext ih)

end Except

namespace Wrapping

/-- The module with other bindings, and with everything else as it is. -/
def rebind (bindings : List Binding) (state : Wrapping) : Wrapping :=
  { state with dependencies := ⟨state.dependencies.specifiers, bindings⟩ }

/-- Modules that agree on everything else differ in their bindings. Two modules with the same
imports in another order are found to be such after the first phase. -/
theorem eq_rebind {state other : Wrapping}
    (hspecifiers : other.dependencies.specifiers = state.dependencies.specifiers)
    (hexported : other.exported = state.exported) (hdone : other.done = state.done)
    (hpending : other.pending = state.pending) :
    other = state.rebind other.dependencies.bindings := by
  rw [rebind, ← hspecifiers, ← hexported, ← hdone, ← hpending]

/-- The module with other bindings and other statements that are still to be taken. Both are changed
at once, since each function is opened only once for it. -/
def reframe (bindings : List Binding) (change : List Node → List Node) (state : Wrapping) :
    Wrapping :=
  ⟨⟨state.dependencies.specifiers, bindings⟩, state.exported, state.done, change state.pending⟩

section Reframing

variable (bindings : List Binding) {change : List Node → List Node}
  (hchange : ∀ (pass : Pass) (nodes : List Node),
    (change nodes).map pass.replace = change (nodes.map pass.replace))
  (state : Wrapping)

/-! ## What is done for an export -/

theorem recordExport_reframe (change : List Node → List Node) (name : String) :
    (state.reframe bindings change).recordExport name =
      (state.recordExport name).map (reframe bindings change) := by
  unfold recordExport
  by_cases h : name ∈ state.exported
  · rw [if_pos h, if_pos (show name ∈ (state.reframe bindings change).exported from h)]
    rfl
  · rw [if_neg h, if_neg (show name ∉ (state.reframe bindings change).exported from h)]
    rfl

include hchange in
/-- The pass of an export is never refused, and what it makes of other statements is no matter. So
the change has to commute with passes and need not be the identity. -/
theorem exportAs_reframe (localName exported : String) :
    (state.reframe bindings change).exportAs localName exported =
      (state.exportAs localName exported).map (reframe bindings change) := by
  unfold exportAs substitute
  simp only [Pass.applyAll_of_not_strict]
  simp only [reframe, bind, Except.bind, pure, Except.pure, Except.map, hchange]

include hchange in
/-- The two steps of exporting a local name see neither change, and so the whole does not. -/
theorem exportLocal_reframe (name : String) :
    (state.reframe bindings change).exportLocal name =
      (state.exportLocal name).map (reframe bindings change) := by
  unfold exportLocal
  rw [recordExport_reframe, Except.bind_map, Except.map_bind]
  exact congrArg _ (funext fun recorded => exportAs_reframe bindings hchange recorded name name)

/-! ## Each form of statement -/

/-- A default export records a name and puts statements, without a look at what is pending. -/
theorem takeExportDefault_reframe (change : List Node → List Node) (declaration : Node) :
    (state.reframe bindings change).takeExportDefault declaration =
      (state.takeExportDefault declaration).map (reframe bindings change) := by
  unfold takeExportDefault
  rw [recordExport_reframe, Except.bind_map, Except.map_bind]
  refine congrArg _ (funext fun recorded => ?_)
  rw [Except.map_bind]
  refine congrArg _ (funext fun _ => ?_)
  split
  · rfl
  · split <;> rfl

/-- A declarator of an exported declaration puts its value and collects its name. The state is one
half of what the loop carries, hence the map on pairs. -/
theorem takeDeclarator_reframe (change : List Node → List Node)
    (before : Wrapping × List String) (declarator : Node) :
    takeDeclarator (before.map (reframe bindings change) id) declarator =
      (takeDeclarator before declarator).map fun result =>
        result.map (reframe bindings change) id := by
  obtain ⟨state, names⟩ := before
  cases declarator
  case variableDeclarator id init =>
    simp only [takeDeclarator, Prod.map]
    cases id.identifierName? with
    | none => rfl
    | some name => cases init <;> rfl
  all_goals rfl

include hchange in
/-- For an exported declaration the loop over the declarators and the one over the names are the
same for the changed state. -/
theorem takeExportDeclaration_reframe (declaration : Node) :
    (state.reframe bindings change).takeExportDeclaration declaration =
      (state.takeExportDeclaration declaration).map (reframe bindings change) := by
  unfold takeExportDeclaration
  rw [Except.map_bind]
  refine congrArg _ (funext fun _ => ?_)
  split
  next declarations kind =>
    have hfold :=
      Except.foldlM_map (takeDeclarator_reframe bindings change) declarations (state, [])
    change (declarations.foldlM takeDeclarator
      (Prod.map (reframe bindings change) id (state, [])) >>= _) = _
    rw [hfold, Except.bind_map, Except.map_bind]
    exact congrArg _ (funext fun result => Except.foldlM_map
      (fun other name => exportLocal_reframe bindings hchange other name) result.2 result.1)
  · split
    · rfl
    next name hname =>
      exact exportLocal_reframe bindings hchange (state.emitExport name _) name

theorem takeReexport_reframe (change : List Node → List Node) (param : String)
    (specifier : Node) :
    takeReexport param (state.reframe bindings change) specifier =
      (takeReexport param state specifier).map (reframe bindings change) := by
  unfold takeReexport
  rw [Except.map_bind]
  refine congrArg _ (funext fun names => ?_)
  obtain ⟨localName, exported⟩ := names
  simp only
  rw [recordExport_reframe, Except.bind_map, Except.map_bind]
  rfl

include hchange in
/-- An entry of an export list asks whether its name is a parameter, and that is a question to the
slots and not to the bindings. -/
theorem takeExportEntry_reframe (specifier : Node) :
    (state.reframe bindings change).takeExportEntry specifier =
      (state.takeExportEntry specifier).map (reframe bindings change) := by
  unfold takeExportEntry
  rw [Except.map_bind]
  refine congrArg _ (funext fun entry => ?_)
  obtain ⟨localNode, exported⟩ := entry
  simp only
  rw [recordExport_reframe, Except.bind_map, Except.map_bind]
  refine congrArg _ (funext fun recorded => ?_)
  have hinjected : ∀ name,
      (recorded.reframe bindings change).isInjected name = recorded.isInjected name :=
    fun _ => rfl
  cases localNode.identifierName? with
  | none => rfl
  | some name =>
    simp only [hinjected]
    cases recorded.isInjected name with
    | true => rfl
    | false => exact exportAs_reframe bindings hchange recorded name exported

theorem register_reframe (change : List Node → List Node) (specifier : String) :
    (state.reframe bindings change).dependencies.register specifier =
      ((state.dependencies.register specifier).1,
        ⟨(state.dependencies.register specifier).2.specifiers, bindings⟩) := by
  have hsame : (state.reframe bindings change).dependencies.specifiers =
      state.dependencies.specifiers := rfl
  unfold Dependencies.register
  rw [hsame]
  cases state.dependencies.specifiers.idxOf? specifier <;> rfl

include hchange in
/-- **A statement is taken without a look at the bindings and at the statements behind it**, also if
it is refused: the failures agree as well. -/
theorem takeStatement_reframe (statement : Node) :
    (state.reframe bindings change).takeStatement statement =
      (state.takeStatement statement).map (reframe bindings change) := by
  unfold takeStatement
  split
  · exact takeExportDefault_reframe ..
  · exact takeExportDeclaration_reframe bindings hchange ..
  next specifiers source =>
    rw [Except.map_bind]
    refine congrArg _ (funext fun specifier => ?_)
    rw [register_reframe]
    obtain ⟨slot, dependencies⟩ := state.dependencies.register specifier
    exact Except.foldlM_map
      (fun other node => takeReexport_reframe bindings other change (dependencyParam slot) node)
      specifiers { state with dependencies }
  · exact Except.foldlM_map
      (fun other node => takeExportEntry_reframe bindings hchange other node) _ _
  · rfl
  · rw [Except.map_bind]
    rfl

end Reframing

/-! ## All statements -/

theorem takeStatement_rebind (bindings : List Binding) (state : Wrapping) (statement : Node) :
    (state.rebind bindings).takeStatement statement =
      (state.takeStatement statement).map (rebind bindings) :=
  show (state.reframe bindings id).takeStatement statement = _ from
    takeStatement_reframe bindings (fun _ _ => rfl) state statement

/-- **Taking statements neither reads nor changes the bindings.** By induction on their number, each
round being the lemma for one statement. -/
theorem takeStatements_rebind (bindings : List Binding) (state : Wrapping) (count : Nat) :
    takeStatements count (state.rebind bindings) =
      (takeStatements count state).map (rebind bindings) := by
  induction count generalizing state with
  | zero => rfl
  | succ count ih =>
    have hsame : (state.rebind bindings).pending = state.pending := rfl
    rw [takeStatements, takeStatements, hsame]
    cases state.pending with
    | nil => rfl
    | cons statement pending =>
      have hfirst := takeStatement_rebind bindings { state with pending } statement
      rw [Except.map_bind, ← funext ih, ← Except.bind_map, ← hfirst]
      rfl

end Wrapping

end DefineWrap
