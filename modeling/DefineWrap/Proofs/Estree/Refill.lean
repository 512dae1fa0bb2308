/-
What the table of child places does when every child is replaced by its image.

The table gives for each node the children and a way to put other nodes in their
places. Here every child `c` is replaced by `f c`, which is the only way a pass uses
the table. What the result is for one kind is computed by `simp` from the `mapped_`
lemmas, because each combinator of the table uses up exactly its own nodes
(`Places.Exact`).
-/
import DefineWrap.Estree.Children

set_option autoImplicit false

namespace DefineWrap

namespace Places

variable {α β : Type} {f : Node → Node}

/-! ## The nodes of each combinator -/

@[simp] theorem nodes_keep (value : α) : (keep value).nodes = [] := rfl

@[simp] theorem nodes_seq (g : Places (α → β)) (x : Places α) :
    (g <*> x).nodes = g.nodes ++ x.nodes := rfl

@[simp] theorem nodes_map (g : α → β) (x : Places α) : (g <$> x).nodes = x.nodes := rfl

@[simp] theorem nodes_one (node : Node) : (one node).nodes = [node] := rfl

@[simp] theorem nodes_oneIf (condition : Bool) (node : Node) :
    (oneIf condition node).nodes = if condition then [node] else [] := by
  cases condition <;> rfl

@[simp] theorem nodes_option (node : Option Node) : (option node).nodes = node.toList := by
  cases node <;> rfl

@[simp] theorem nodes_many (nodes : List Node) : (many nodes).nodes = nodes := by
  induction nodes with
  | nil => rfl
  | cons node rest ih => rw [many, nodes_seq, nodes_map, nodes_one, ih, List.singleton_append]

@[simp] theorem nodes_manyIf (condition : Bool) (nodes : List Node) :
    (manyIf condition nodes).nodes = if condition then nodes else [] := by
  cases condition
  · rfl
  · exact nodes_many nodes

@[simp] theorem nodes_holes (elements : List (Option Node)) :
    (holes elements).nodes = elements.filterMap id := by
  induction elements with
  | nil => rfl
  | cons element rest ih =>
    rw [holes, nodes_seq, nodes_map, nodes_option, ih]
    cases element <;> rfl

/-! ## The value with every node replaced by its image -/

/-- The value with the image of each node in its place. Nothing says yet that the images come out
where their nodes were: that is what `Exact` is for. -/
def mapped (f : Node → Node) (places : Places α) : α := (places.refill (places.nodes.map f)).1

/-- Refilling takes the images of the nodes and leaves the rest of the supply. It is a class, so
that for the table of a kind it is found by the way the table is put together. -/
class Exact (f : Node → Node) (places : Places α) : Prop where
  refill_append : ∀ rest, places.refill (places.nodes.map f ++ rest) = (places.mapped f, rest)

/-- A sequence is refilled from left to right, the second part from what the first one has left. -/
theorem refill_seq (g : Places (α → β)) (x : Places α) (supply : List Node) :
    (g <*> x).refill supply =
      ((g.refill supply).1 (x.refill (g.refill supply).2).1,
        (x.refill (g.refill supply).2).2) := rfl

instance exact_keep (value : α) : (keep value).Exact f := ⟨fun _ => rfl⟩

instance exact_pure (value : α) : (pure value : Places α).Exact f := ⟨fun _ => rfl⟩

instance exact_one (node : Node) : (one node).Exact f := ⟨fun _ => rfl⟩

@[simp] theorem mapped_keep (value : α) : (keep value).mapped f = value := rfl

@[simp] theorem mapped_one (node : Node) : (one node).mapped f = f node := rfl

/-- The first part of a sequence takes exactly its own images, so the second part finds its own at
the head of what is left. -/
@[simp] theorem mapped_seq {g : Places (α → β)} {x : Places α} [g.Exact f] :
    (g <*> x).mapped f = g.mapped f (x.mapped f) := by
  rw [mapped, refill_seq, nodes_seq, List.map_append, Exact.refill_append]
  rfl

/-- Exact parts make an exact sequence, so the property has to be proved for the combinators only
and never for one of the kinds. -/
instance exact_seq {g : Places (α → β)} {x : Places α} [g.Exact f] [x.Exact f] :
    (g <*> x).Exact f := by
  refine ⟨fun rest => ?_⟩
  rw [refill_seq, nodes_seq, List.map_append, List.append_assoc, Exact.refill_append,
    Exact.refill_append, mapped_seq]

@[simp] theorem mapped_map (g : α → β) (x : Places α) : (g <$> x).mapped f = g (x.mapped f) :=
  mapped_seq

instance exact_map (g : α → β) {x : Places α} [x.Exact f] : (g <$> x).Exact f :=
  exact_seq

instance exact_oneIf (condition : Bool) (node : Node) : (oneIf condition node).Exact f := by
  cases condition
  · exact exact_keep node
  · exact exact_one node

@[simp] theorem mapped_oneIf (condition : Bool) (node : Node) :
    (oneIf condition node).mapped f = if condition then f node else node := by
  cases condition <;> rfl

instance exact_option (node : Option Node) : (option node).Exact f := by
  cases node with
  | none => exact exact_keep none
  | some node => exact exact_map some

@[simp] theorem mapped_option (node : Option Node) : (option node).mapped f = node.map f := by
  cases node <;> rfl

/-- A list of values with places of their own is exact if each of them is. Declarators are the case
that needs it: some of them have a place and some have none. -/
instance exact_each {p : Node → Places Node} [∀ node, (p node).Exact f] (nodes : List Node) :
    (each p nodes).Exact f := by
  induction nodes with
  | nil => exact exact_keep []
  | cons node rest ih => exact exact_seq

/-- In a list of values with places of their own each is mapped by itself. -/
@[simp] theorem mapped_each {p : Node → Places Node} [∀ node, (p node).Exact f]
    (nodes : List Node) : (each p nodes).mapped f = nodes.map fun node => (p node).mapped f := by
  induction nodes with
  | nil => rfl
  | cons node rest ih => rw [each, mapped_seq, ih, mapped_map, List.map_cons]

theorem many_eq_each (nodes : List Node) : many nodes = each one nodes := by
  induction nodes with
  | nil => rfl
  | cons node rest ih => rw [many, each, ih]

instance exact_many (nodes : List Node) : (many nodes).Exact f := by
  rw [many_eq_each]
  exact exact_each nodes

@[simp] theorem mapped_many (nodes : List Node) : (many nodes).mapped f = nodes.map f := by
  rw [many_eq_each, mapped_each]
  rfl

instance exact_manyIf (condition : Bool) (nodes : List Node) :
    (manyIf condition nodes).Exact f := by
  cases condition
  · exact exact_keep nodes
  · exact exact_many nodes

@[simp] theorem mapped_manyIf (condition : Bool) (nodes : List Node) :
    (manyIf condition nodes).mapped f = if condition then nodes.map f else nodes := by
  cases condition
  · rfl
  · exact mapped_many nodes

/-- A gap in a list takes nothing from the supply, so the nodes after it find their own images. -/
instance exact_holes (elements : List (Option Node)) : (holes elements).Exact f := by
  induction elements with
  | nil => exact exact_keep []
  | cons element rest ih => exact exact_seq

@[simp] theorem mapped_holes (elements : List (Option Node)) :
    (holes elements).mapped f = elements.map (Option.map f) := by
  induction elements with
  | nil => rfl
  | cons element rest ih =>
    rw [holes, mapped_seq, ih, mapped_map, mapped_option, List.map_cons]

end Places

namespace Node

/-! ## Nodes -/

/-- The node with the image of each child in its place. Whatever a pass does to the children of a
node is of this form. -/
def mapChildren (f : Node → Node) (node : Node) : Node := node.withChildren (node.children.map f)

/-- A node is mapped as its table of places is. In this form `simp` computes it for a given kind. -/
theorem mapChildren_eq_mapped (f : Node → Node) (node : Node) :
    node.mapChildren f = node.places.mapped f := rfl

theorem filterMap_id_map (f : Node → Node) (elements : List (Option Node)) :
    (elements.map (Option.map f)).filterMap id = (elements.filterMap id).map f := by
  rw [List.filterMap_map, List.map_filterMap]
  rfl

end Node

end DefineWrap
