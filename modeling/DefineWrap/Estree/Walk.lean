/-
The nodes below a node, in the order of the text.

Every node below comes after the node that it is a child of and before the next
child of that node. `walk` goes through them with an action that may stop it, and
`walk_eq` says that this is the same as going through the list of them.
-/
import DefineWrap.Estree.Children

set_option autoImplicit false

namespace DefineWrap

namespace Node

/-- The nodes below a node. -/
def descendants (node : Node) : List Node :=
  node.children.attach.flatMap fun child => child.1 :: descendants child.1
termination_by sizeOf node
decreasing_by exact sizeOf_lt_of_mem_children child.2

theorem descendants_eq (node : Node) :
    node.descendants = node.children.flatMap fun child => child :: child.descendants := by
  rw [descendants, List.flatMap_subtype (g := fun child => child :: descendants child)
    fun _ _ => rfl, List.unattach_attach]

/-- Does an action at every node below a node. -/
def walk {m : Type → Type} [Monad m] (visit : Node → m Unit) (node : Node) : m Unit :=
  node.children.attach.forM fun child => do
    visit child.1
    walk visit child.1
termination_by sizeOf node
decreasing_by exact sizeOf_lt_of_mem_children child.2

/-- Does an action at each of some nodes and at every node below it. -/
def walkEach {m : Type → Type} [Monad m] (visit : Node → m Unit) (nodes : List Node) : m Unit :=
  nodes.forM fun node => do
    visit node
    walk visit node

theorem walk_eq_walkEach {m : Type → Type} [Monad m] (visit : Node → m Unit) (node : Node) :
    node.walk visit = walkEach visit node.children := by
  have key : ∀ (nodes : List Node) (P : Node → Prop) (h : ∀ n ∈ nodes, P n),
      ((nodes.attachWith P h).forM fun child => do
        visit child.1
        walk visit child.1) = walkEach visit nodes := by
    intro nodes P h
    induction nodes with
    | nil => rfl
    | cons node rest ih => exact congrArg _ (funext fun _ => ih _)
  rw [walk]
  exact key _ _ _

/-- A walk goes through the list of the nodes below. -/
theorem walk_eq {m : Type → Type} [Monad m] [LawfulMonad m] (visit : Node → m Unit)
    (node : Node) : node.walk visit = node.descendants.forM visit := by
  have each : ∀ nodes : List Node, (∀ n ∈ nodes, n.walk visit = n.descendants.forM visit) →
      walkEach visit nodes =
        (nodes.flatMap fun child => child :: child.descendants).forM visit := by
    intro nodes h
    induction nodes with
    | nil => rfl
    | cons node rest ih =>
      have hrest := ih fun n hn => h n (List.mem_cons_of_mem _ hn)
      simp only [walkEach, List.forM_eq_forM, List.forM_cons, List.flatMap_cons,
        List.cons_append, List.forM_append, bind_assoc] at hrest ⊢
      rw [hrest, h node List.mem_cons_self, List.forM_eq_forM]
  induction h : sizeOf node using Nat.strongRecOn generalizing node with
  | _ size ih =>
    subst h
    rw [walk_eq_walkEach, descendants_eq]
    exact each _ fun child hchild => ih _ (sizeOf_lt_of_mem_children hchild) child rfl

end Node

end DefineWrap
