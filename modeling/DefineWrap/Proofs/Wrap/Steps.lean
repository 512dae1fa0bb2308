/-
A wrapping as a sequence of steps.

`Wrapping.run` goes over the imports in one loop and over the other statements in a
second one, with a loop over the specifiers inside the first. `Wrapping.run_eq_foldlM`
says that this is one loop over a list of actions that can be read off the module
before anything is done: bind one specifier of an import, or take one statement. So
what every action preserves holds at every point of a run, and a point of a run is a
split of the list of actions (`Except.foldlM_append_ok`).
-/
import DefineWrap.Proofs.Except
import DefineWrap.Proofs.Wrap.Rewrite
import DefineWrap.Wrap.Module

set_option autoImplicit false

namespace DefineWrap

namespace Wrapping

/-! ## Actions -/

/-- One step of a run. The actions are read off the module before anything is done, so a run over
them is a loop whose list does not change on the way. -/
inductive Action where
  /-- A specifier of an import from the given module is bound. -/
  | bind (specifier : String) (binding : Node)
  /-- The next statement is taken; it is given as it stands in the module. -/
  | take (statement : Node)

/-- The actions for the specifiers of an import, in their order. A source that is no string gives
none, which is no loss: such a module has been refused before. -/
def importActions : Node → List Action
  | .importDeclaration specifiers source =>
    source.stringValue?.toList.flatMap fun specifier => specifiers.map (.bind specifier)
  | _ => []

/-- The statements of a module that are no imports. These are what is pending at the start of a run,
in the order of the text. -/
def statements (body : List Node) : List Node := body.filter (!isImport ·)

/-- All actions for a module: the imports come first, wherever they stand, and then the statements
in their order. -/
def actions (body : List Node) : List Action :=
  body.flatMap importActions ++ (statements body).map .take

/-- Takes the next pending statement, if there is one. It is taken as it is by now, after all passes
of the actions before it, and not as it stands in the module. -/
def takeNext (state : Wrapping) : Except WrapError Wrapping :=
  match state.pending with
  | [] => .ok state
  | statement :: pending => { state with pending }.takeStatement statement

/-- Does one step. A binding needs its specifier and module from the action, but the statement that
is taken is the next pending one, whatever the action gives. -/
def perform (state : Wrapping) : Action → Except WrapError Wrapping
  | .bind specifier binding => bindImport specifier state binding
  | .take _ => state.takeNext

/-- The module before the first step: no name is exported and nothing is done, and all statements
but the imports are pending as they stand. -/
def start (dependencies : Dependencies) (body : List Node) : Wrapping :=
  ⟨dependencies, [], [], statements body⟩

/-! ## A run is a loop over the actions -/

/-- If all modules can get a slot, they are all named by strings, since the scan for the slots fails
on any other source. So no action is lost in `importActions`. -/
theorem stringValue?_of_registered {body : List Node} {table dependencies : Dependencies}
    (h : body.foldlM registerSource table = .ok dependencies) {statement source : Node}
    (hmem : statement ∈ body) (hsource : sourceNode? statement = some source) :
    ∃ specifier, source.stringValue? = some specifier := by
  induction body generalizing table with
  | nil => cases hmem
  | cons first rest ih =>
    obtain ⟨next, hnext, hrest⟩ := Except.foldlM_cons_ok h
    rcases List.mem_cons.1 hmem with rfl | hmem
    · rw [registerSource, hsource] at hnext
      obtain ⟨specifier, hspecifier, -⟩ := Except.bind_ok hnext
      unfold moduleSpecifier at hspecifier
      split at hspecifier
      next value heq => exact ⟨value, heq⟩
      · cases hspecifier
    · exact ih hrest hmem

/-- The inner loop of a run, over the specifiers of one import, is the loop over its actions, if the
source is a string. -/
theorem takeImport_eq {statement : Node}
    (h : ∀ source, sourceNode? statement = some source →
      ∃ specifier, source.stringValue? = some specifier) (state : Wrapping) :
    state.takeImport statement = (importActions statement).foldlM perform state := by
  cases statement
  case importDeclaration specifiers source =>
    obtain ⟨specifier, hspecifier⟩ := h source rfl
    have hread : moduleSpecifier source = .ok specifier := by rw [moduleSpecifier, hspecifier]
    rw [takeImport, hread, importActions, hspecifier, Option.toList_some,
      List.flatMap_singleton, List.foldlM_map]
    rfl
  all_goals rfl

/-- The loop over the imports of a module with the loops inside it is one loop over the actions of
all of them. Statements that are no imports have no such actions, so it may as well be read over the
whole body. -/
theorem takeImports_eq {body : List Node}
    (h : ∀ statement ∈ body, ∀ source, sourceNode? statement = some source →
      ∃ specifier, source.stringValue? = some specifier) (state : Wrapping) :
    (body.filter isImport).foldlM takeImport state =
      (body.flatMap importActions).foldlM perform state := by
  induction body generalizing state with
  | nil => rfl
  | cons first rest ih =>
    have hrest := ih fun statement hmem => h statement (List.mem_cons_of_mem _ hmem)
    have hfirst := takeImport_eq (h first List.mem_cons_self)
    rw [List.flatMap_cons, List.foldlM_append, ← hfirst]
    by_cases himport : isImport first = true
    · rw [List.filter_cons_of_pos himport, List.foldlM_cons]
      exact congrArg _ (funext hrest)
    · rw [List.filter_cons_of_neg himport, hrest]
      have hkept : state.takeImport first = .ok state := by
        cases first
        case importDeclaration => exact absurd rfl himport
        all_goals rfl
      rw [hkept]
      rfl

/-- Taking as many statements as are given is the loop over the actions that take them. Only the
number of the statements counts, which is why `perform` need not look at them. -/
theorem takeStatements_eq (taken : List Node) (state : Wrapping) :
    state.takeStatements taken.length = (taken.map .take).foldlM perform state := by
  induction taken generalizing state with
  | nil => rfl
  | cons statement rest ih =>
    rw [List.length_cons, takeStatements, List.map_cons, List.foldlM_cons, perform, takeNext]
    cases hpending : state.pending with
    | nil =>
      -- With nothing left to take the remaining steps do nothing, as the loop does.
      have hnone := ih state
      cases rest with
      | nil => rfl
      | cons _ _ =>
        rw [List.length_cons, takeStatements, hpending] at hnone
        exact hnone
    | cons _ _ => exact congrArg _ (funext ih)

/-- **A run is one loop over the actions of the module**, once its modules have slots. Failures are
the same as well, so what is said about the loop is said about every run. -/
theorem run_eq_foldlM (body : List Node) :
    run body = body.foldlM registerSource .empty >>= fun dependencies =>
      (actions body).foldlM perform (start dependencies body) := by
  rw [run]
  cases hslots : body.foldlM registerSource .empty with
  | error _ => rfl
  | ok dependencies =>
    have himports := takeImports_eq
      (fun _ hmem _ hsource => stringValue?_of_registered hslots hmem hsource)
      (start dependencies body)
    have hpartition : body.partition isImport = (body.filter isImport, statements body) := by
      rw [List.partition_eq_filter_filter]
      rfl
    change _ = (actions body).foldlM perform (start dependencies body)
    rw [actions, List.foldlM_append, ← himports]
    simp only [hpartition]
    exact congrArg _ (funext fun state => takeStatements_eq (statements body) state)

/-- A run that succeeds has given out the slots first and has then performed every action. Most
proofs about results of a run begin here. -/
theorem run_ok {body : List Node} {final : Wrapping} (h : run body = .ok final) :
    ∃ dependencies, body.foldlM registerSource .empty = .ok dependencies ∧
      (actions body).foldlM perform (start dependencies body) = .ok final := by
  rw [run_eq_foldlM] at h
  exact Except.bind_ok h

end Wrapping

end DefineWrap
