/-
Where a walk goes, and how far.

A node below another one has an address: the numbers of the children to go down by. Two nodes
that look alike have two addresses, so a visit is a visit to an address. The addresses are
compared like the words of a dictionary, by which a node comes before what is below it, and that
before the next child of the same parent. A walk goes through all addresses in this order, each
once (`Node.pairwise_addresses`, `Node.mem_addresses`).

A visitor may keep a state of its own and may fail. `Node.Visits` says which calls of it belong
to a walk that stops at the first failure, and `Node.forM_visits` that these are the calls that
are made. The check for misplaced imports and exports is such a walk.
-/
import DefineWrap.Proofs.Wrap.ModuleForms
import Mathlib.Data.List.FinRange

set_option autoImplicit false

namespace DefineWrap

namespace Node

/-! ## Addresses -/

/-- The node at an address: the children to go down by, from the root on. An address that leads
nowhere has none. -/
def at? (node : Node) : List Nat → Option Node
  | [] => some node
  | place :: address => node.children[place]?.bind (·.at? address)

/-- The addresses of the nodes below a node: each child, and then what is below it. Two equal nodes
have two addresses, and so they can be told apart here. -/
def addresses (node : Node) : List (List Nat) :=
  (List.finRange node.children.length).flatMap fun place =>
    ([] :: addresses (node.children.get place)).map (place.1 :: ·)
termination_by sizeOf node
decreasing_by exact sizeOf_lt_of_mem_children (List.get_mem _ _)

/-- The nodes at the addresses are the nodes below, in their order. So a statement on addresses is
one about the list that the walk goes through. -/
theorem map_at?_addresses (node : Node) :
    node.addresses.map node.at? = node.descendants.map some := by
  induction node using children_induction with
  | step node ih =>
    have hbelow : ∀ place : Fin node.children.length,
        (([] :: (node.children.get place).addresses).map (place.1 :: ·)).map node.at? =
          (node.children.get place :: (node.children.get place).descendants).map some := by
      intro place
      have hat : node.at? ∘ (place.1 :: ·) = (node.children.get place).at? := by
        funext address
        rw [Function.comp_apply, at?, List.getElem?_eq_getElem place.2]
        rfl
      rw [List.map_map, hat, List.map_cons, List.map_cons, ih _ (List.get_mem _ _)]
      rfl
    rw [addresses, descendants_eq, List.map_flatMap, List.map_flatMap, funext hbelow]
    conv_rhs => rw [← List.map_get_finRange node.children, List.flatMap_map]

/-- An address leads to a child, and from there on to the child itself or below it. -/
theorem cons_mem_addresses {node : Node} {place : Nat} {address : List Nat} :
    place :: address ∈ node.addresses ↔
      ∃ child, node.children[place]? = some child ∧ (address = [] ∨ address ∈ child.addresses) := by
  simp only [addresses.eq_def node, List.mem_flatMap, List.mem_finRange, true_and, List.mem_map,
    List.cons.injEq, List.mem_cons]
  constructor
  · rintro ⟨place, _, hmem, rfl, rfl⟩
    exact ⟨_, List.getElem?_eq_getElem place.2, hmem⟩
  · rintro ⟨child, hchild, hmem⟩
    obtain ⟨hplace, rfl⟩ := List.getElem?_eq_some_iff.1 hchild
    exact ⟨⟨place, hplace⟩, address, hmem, rfl, rfl⟩

/-- The root is not below itself, so it has no address here and is not visited. -/
theorem nil_notMem_addresses (node : Node) : [] ∉ node.addresses := by
  simp [addresses.eq_def node]

/-- The addresses are those at which there is a node, but for the root. So none is left out. -/
theorem mem_addresses {node : Node} {address : List Nat} :
    address ∈ node.addresses ↔ address ≠ [] ∧ (node.at? address).isSome := by
  induction address generalizing node with
  | nil => simp [nil_notMem_addresses]
  | cons place address ih =>
    rw [cons_mem_addresses, at?]
    cases node.children[place]? with
    | none => simp
    | some child =>
      have hroot : address = [] → (child.at? address).isSome := by rintro rfl; rfl
      simp only [Option.some.injEq, exists_eq_left', Option.bind_some, ih]
      grind

/-- **The addresses come in the order of a dictionary**, so each of them comes once. By induction
over the tree: those of one child come before those of the next. -/
theorem pairwise_addresses (node : Node) : node.addresses.Pairwise (· < ·) := by
  induction node using children_induction with
  | step node ih =>
    rw [addresses, List.pairwise_flatMap]
    refine ⟨fun place _ => List.pairwise_map.2 ?_, (List.pairwise_lt_finRange _).imp ?_⟩
    · -- A child comes before what is below it.
      have hbelow : ([] :: (node.children.get place).addresses).Pairwise (· < ·) := by
        refine List.pairwise_cons.2 ⟨fun address hmem => ?_, ih _ (List.get_mem _ _)⟩
        obtain ⟨_, _, rfl⟩ := List.exists_cons_of_ne_nil (mem_addresses.1 hmem).1
        exact List.nil_lt_cons _ _
      exact hbelow.imp fun hlt => List.cons_lt_cons_iff.2 (.inr ⟨rfl, hlt⟩)
    · -- Whatever starts with one child comes before what starts with a later one.
      intro place later hlt address hmem other hother
      obtain ⟨_, _, rfl⟩ := List.mem_map.1 hmem
      obtain ⟨_, _, rfl⟩ := List.mem_map.1 hother
      exact List.cons_lt_cons_iff.2 (.inl hlt)

/-! ## Visits -/

section Visits

variable {ε σ : Type} (visit : Node → ExceptT ε (StateM σ) Unit)

/-- The calls of a visitor on some nodes in their order, from one state to another, up to its
first failure: the nodes it is called on, and how it ends. -/
inductive Visits : List Node → σ → List Node → Except ε Unit → σ → Prop
  | none (state : σ) : Visits [] state [] (.ok ()) state
  | failed {node : Node} {state next : σ} {error : ε} (rest : List Node)
    (h : (visit node).run.run state = (.error error, next)) :
    Visits (node :: rest) state [node] (.error error) next
  | passed {node : Node} {state next final : σ} {rest calls : List Node} {outcome : Except ε Unit}
    (h : (visit node).run.run state = (.ok (), next))
    (hrest : Visits rest next calls outcome final) :
    Visits (node :: rest) state (node :: calls) outcome final

/-- A visitor that also writes down the nodes it is called on, also the one that it fails on. -/
def recording (node : Node) : ExceptT ε (StateM (List Node × σ)) Unit :=
  ExceptT.mk fun (calls, state) =>
    let (outcome, next) := (visit node).run.run state
    (outcome, (calls ++ [node], next))

/-- Writing a call down changes neither its outcome nor its state, so the calls of the recording
visitor are those of the visitor. -/
theorem run_recording {node : Node} {state next : σ} {outcome : Except ε Unit}
    (h : (visit node).run.run state = (outcome, next)) (before : List Node) :
    (recording visit node).run.run (before, state) = (outcome, (before ++ [node], next)) := by
  change (((visit node).run.run state).1, (before ++ [node], ((visit node).run.run state).2)) = _
  rw [h]

/-- **Going through some nodes makes the calls up to the first failure**, and no others. -/
theorem forM_visits (nodes : List Node) (state : σ) :
    ∃ calls outcome final, Visits visit nodes state calls outcome final ∧
      (nodes.forM visit).run.run state = (outcome, final) ∧
      ∀ before, (nodes.forM (recording visit)).run.run (before, state) =
        (outcome, (before ++ calls, final)) := by
  induction nodes generalizing state with
  | nil => exact ⟨[], .ok (), state, .none state, rfl, fun before => by rw [List.append_nil]; rfl⟩
  | cons node rest ih =>
    rw [List.forM_eq_forM, List.forM_eq_forM, List.forM_cons, List.forM_cons]
    obtain ⟨outcome, next, hrun⟩ : ∃ outcome next,
      (visit node).run.run state = (outcome, next) := ⟨_, _, rfl⟩
    -- The first failure ends the calls, and nothing is written down after it.
    cases outcome with
    | error error =>
      refine ⟨[node], .error error, next, .failed rest hrun, ?_, fun before => ?_⟩
      · rw [ExceptT.run_bind, StateT.run_bind, hrun]
        rfl
      · rw [ExceptT.run_bind, StateT.run_bind, run_recording visit hrun]
        rfl
    | ok =>
      obtain ⟨calls, outcome, final, hvisits, hrest, hrecorded⟩ := ih next
      refine ⟨node :: calls, outcome, final, .passed hrun hvisits, ?_, fun before => ?_⟩
      · rw [ExceptT.run_bind, StateT.run_bind, hrun, ← hrest]
        rfl
      · have hrecorded := hrecorded (before ++ [node])
        rw [List.append_assoc, List.singleton_append] at hrecorded
        rw [ExceptT.run_bind, StateT.run_bind, run_recording visit hrun, ← hrecorded]
        rfl

end Visits

/-- **A walk visits what is below a node in the order of the text, up to the first failure.** The
check for misplaced forms is such a walk, and reports the first of them. -/
theorem walk_visits {ε σ : Type} (node : Node) (visit : Node → ExceptT ε (StateM σ) Unit)
    (state : σ) :
    node.addresses.Pairwise (· < ·) ∧
    (∀ address, address ∈ node.addresses ↔ address ≠ [] ∧ (node.at? address).isSome) ∧
    node.addresses.map node.at? = node.descendants.map some ∧
    (∃ calls outcome final, Visits visit node.descendants state calls outcome final ∧
      (node.walk visit).run.run state = (outcome, final) ∧
      (node.walk (recording visit)).run.run ([], state) = (outcome, (calls, final))) ∧
    node.refuseNestedModuleForms =
      match node.descendants.find? (·.kind.isModuleForm) with
      | none => .ok ()
      | some form => .error (.misplacedModuleForm form.kind) := by
  obtain ⟨calls, outcome, final, hvisits, hrun, hrecorded⟩ :=
    forM_visits visit node.descendants state
  refine ⟨pairwise_addresses node, fun _ => mem_addresses, map_at?_addresses node,
    ⟨calls, outcome, final, hvisits, ?_, ?_⟩, refuseNestedModuleForms_eq node⟩
  · rw [walk_eq, hrun]
  · rw [walk_eq, hrecorded, List.nil_append]

end Node

end DefineWrap
