/-
Children can be read and written independently of everything else in a node.

The table of child places gives the children of a node and puts others there. A node with its
children taken out is its frame (`Node.frame`): the kind, and the fields with a blank for each
child. Writing children keeps the frame (`Node.frame_withChildren`) and makes the children those
that are written (`Node.children_withChildren`), and a node is determined by the two of them
(`Node.eq_of_frame_eq`). Every law of the two operations follows from these three.

The table has a line for each kind. Which fields hold children is stated here by the names of the
fields (`Node.isChildField`), and that the table says the same is found by going through its
lines once (`Node.fields_refill`). The rest is about one field at a time.
-/
import DefineWrap.Proofs.Estree.Codec
import DefineWrap.Proofs.Estree.Refill

set_option autoImplicit false

namespace DefineWrap

/-! ## Places and what is around them -/

namespace Places

variable {α β γ α' β' γ' : Type}

/-- The places of a value tell it apart into the nodes at them and a rest: refilling takes as many
nodes as there are places, puts them there, and keeps the rest. The rest is kept even if the supply
is too short, so `frame_withChildren` needs no condition. -/
structure Separates (places : Places α) (value : α) (inside : α → List Node) (rest : α → α') :
    Prop where
  nodes : places.nodes = inside value
  rest_refill : ∀ supply, rest (places.refill supply).1 = rest value
  left : ∀ supply, (places.refill supply).2 = supply.drop (inside value).length
  inside_refill : ∀ supply, (inside value).length ≤ supply.length →
    inside (places.refill supply).1 = supply.take (inside value).length

variable {inside : α → List Node} {inside₂ : β → List Node} {inside' : γ → List Node}
  {rest : α → α'} {rest₂ : β → β'} {rest' : γ → γ'}

theorem Separates.keep {value : α} (h : inside value = []) :
    (Places.keep value).Separates value inside rest := by
  refine ⟨h.symm, fun _ => rfl, fun supply => ?_, fun supply _ => ?_⟩
  · rw [h]
    rfl
  · rw [h]
    exact h

/-- A single node is all inside: what is left of it when it is taken out says nothing about it. -/
theorem Separates.one (node : Node) :
    (Places.one node).Separates node (fun node => [node]) fun _ => () := by
  refine ⟨rfl, fun _ => rfl, fun supply => ?_, fun supply hlength => ?_⟩
  · cases supply <;> rfl
  · cases supply with
    | nil => cases hlength
    | cons other supply => rfl

/-- A value that is made of another one has the places of that one. What is inside may be asked in
another way, and less may be asked of the rest. -/
theorem Separates.map {places : Places α} {value : α} (h : places.Separates value inside rest)
    (f : α → γ) (hinside : ∀ value, inside' (f value) = inside value)
    (hrest : ∀ value other, rest value = rest other → rest' (f value) = rest' (f other)) :
    (f <$> places).Separates (f value) inside' rest' := by
  refine ⟨?_, fun supply => hrest _ _ (h.rest_refill supply), fun supply => ?_,
    fun supply hlength => ?_⟩
  · rw [nodes_map, h.nodes, hinside]
  · rw [hinside]
    exact h.left supply
  · rw [hinside] at hlength ⊢
    exact (hinside _).trans (h.inside_refill supply hlength)

/-- Two values side by side: the first one takes its nodes, and the second one from what is left.
That each part takes exactly its own (`left`) is what makes the sequence work. -/
theorem Separates.map₂ {places : Places α} {places₂ : Places β} {value : α} {value₂ : β}
    (h : places.Separates value inside rest) (h₂ : places₂.Separates value₂ inside₂ rest₂)
    (f : α → β → γ) (hinside : ∀ value value₂, inside' (f value value₂) =
      inside value ++ inside₂ value₂)
    (hrest : ∀ value other value₂ other₂, rest value = rest other → rest₂ value₂ = rest₂ other₂ →
      rest' (f value value₂) = rest' (f other other₂)) :
    (f <$> places <*> places₂).Separates (f value value₂) inside' rest' := by
  have hrefill : ∀ supply, (f <$> places <*> places₂).refill supply =
      (f (places.refill supply).1 (places₂.refill (places.refill supply).2).1,
        (places₂.refill (places.refill supply).2).2) := fun _ => rfl
  refine ⟨?_, fun supply => ?_, fun supply => ?_, fun supply hlength => ?_⟩
  · rw [nodes_seq, nodes_map, h.nodes, h₂.nodes, hinside]
  · rw [hrefill]
    exact hrest _ _ _ _ (h.rest_refill _) (h₂.rest_refill _)
  · rw [hrefill, h₂.left, h.left, List.drop_drop, hinside, List.length_append]
  · rw [hinside, List.length_append] at hlength ⊢
    have hleft : (inside₂ value₂).length ≤ (supply.drop (inside value).length).length := by
      rw [List.length_drop]
      omega
    rw [hrefill, hinside, h.left, h.inside_refill supply (by omega), h₂.inside_refill _ hleft,
      List.take_add]

/-- A node that may be missing is one place or none, and the rest says which. -/
theorem Separates.option (node : Option Node) :
    (Places.option node).Separates node Option.toList fun node => node.map fun _ => () := by
  cases node with
  | none => exact .keep rfl
  | some node => exact (Separates.one node).map some (fun _ => rfl) fun _ _ _ => rfl

theorem Separates.many (nodes : List Node) :
    (Places.many nodes).Separates nodes id fun nodes => nodes.map fun _ => () := by
  induction nodes with
  | nil => exact .keep rfl
  | cons node nodes ih =>
    exact (Separates.one node).map₂ ih List.cons (fun _ _ => rfl)
      fun _ _ _ _ _ hnodes => congrArg (List.cons ()) hnodes

/-- A list with gaps: the nodes are inside, and the rest says where the gaps are, so they cannot
move when the nodes are replaced. -/
theorem Separates.holes (elements : List (Option Node)) :
    (Places.holes elements).Separates elements (List.filterMap id)
      fun elements => elements.map (Option.map fun _ => ()) := by
  induction elements with
  | nil => exact .keep rfl
  | cons element elements ih =>
    exact (Separates.option element).map₂ ih List.cons (fun element _ => by cases element <;> rfl)
      fun _ _ _ _ helement helements => List.cons_eq_cons.2 ⟨helement, helements⟩

/-- The places of the values of a list, one value after the other. -/
def inTurn (p : α → Places α) : List α → Places (List α)
  | [] => .keep []
  | value :: values => List.cons <$> p value <*> inTurn p values

/-- What holds of the places of each value of a list holds of the whole list. With this one field is
enough to look at, and the fields of a node follow. -/
theorem Separates.inTurn {p : α → Places α} (h : ∀ value, (p value).Separates value inside rest)
    (values : List α) :
    (Places.inTurn p values).Separates values (List.flatMap inside) (List.map rest) := by
  induction values with
  | nil => exact .keep rfl
  | cons value values ih =>
    exact (h value).map₂ ih List.cons (fun _ _ => rfl)
      fun _ _ _ _ hvalue hvalues => List.cons_eq_cons.2 ⟨hvalue, hvalues⟩

end Places

/-! ## Values of fields -/

namespace FieldValue

variable {ν μ : Type}

/-- The places of everything inside a value. -/
def places : FieldValue Node → Places (FieldValue Node)
  | .node value => .node <$> .one value
  | .maybeNode value => .maybeNode <$> .option value
  | .nodes values => .nodes <$> .many values
  | .holes values => .holes <$> .holes values
  | value => .keep value

/-- Every form of value is told apart into its nodes and its form by the combinator that its places
are made with. -/
theorem separates_places (value : FieldValue Node) :
    value.places.Separates value inner (map fun _ => ()) := by
  cases value with
  | node value =>
    exact (Places.Separates.one value).map FieldValue.node (fun _ => rfl) fun _ _ _ => rfl
  | maybeNode value =>
    exact (Places.Separates.option value).map FieldValue.maybeNode (fun _ => rfl)
      fun _ _ hvalue => congrArg FieldValue.maybeNode hvalue
  | nodes values =>
    exact (Places.Separates.many values).map FieldValue.nodes (fun _ => rfl)
      fun _ _ hvalues => congrArg FieldValue.nodes hvalues
  | holes values =>
    exact (Places.Separates.holes values).map FieldValue.holes (fun _ => rfl)
      fun _ _ hvalues => congrArg FieldValue.holes hvalues
  | _ => exact .keep rfl

/-- What is inside some elements, and where the holes are, determine them. By induction over the
elements: a hole takes nothing from the list of nodes, and an element takes its first. -/
theorem holes_eq_of_map_eq {f : ν → μ} {elements others : List (Option ν)}
    (hmap : elements.map (Option.map f) = others.map (Option.map f))
    (hinner : elements.filterMap id = others.filterMap id) : elements = others := by
  induction elements generalizing others with
  | nil => exact (List.map_eq_nil_iff.1 hmap.symm).symm
  | cons element elements ih =>
    cases others with
    | nil => cases hmap
    | cons other others =>
      obtain ⟨hfirst, hrest⟩ := List.cons_eq_cons.1 hmap
      cases element with
      | none =>
        obtain rfl := Option.map_eq_none_iff.1 hfirst.symm
        exact congrArg (none :: ·) (ih hrest hinner)
      | some value =>
        obtain ⟨_, rfl, -⟩ := Option.map_eq_some_iff.1 hfirst.symm
        obtain ⟨hvalue, hmore⟩ := List.cons_eq_cons.1 hinner
        rw [hvalue, ih hrest hmore]

/-- **The form of a value and what is inside determine it.** Its form is what is left when something
else is put inside, such as a blank for every node. -/
theorem eq_of_map_eq {f : ν → μ} {value other : FieldValue ν}
    (hmap : value.map f = other.map f) (hinner : value.inner = other.inner) : value = other := by
  cases value <;> cases other <;> try cases hmap
  case node.node => exact congrArg node (List.singleton_inj.1 hinner)
  case maybeNode.maybeNode value other =>
    have hhead := congrArg List.head? hinner
    rw [inner, inner, Option.head?_toList, Option.head?_toList] at hhead
    exact congrArg maybeNode hhead
  case nodes.nodes => exact congrArg nodes hinner
  case holes.holes => exact congrArg holes (holes_eq_of_map_eq (holes.inj hmap) hinner)
  all_goals rfl

/-- Values of one form have the same number of nodes in them. So in a row of fields the nodes can be
handed out to the fields again. -/
theorem length_inner_of_map_eq {f : ν → μ} {value other : FieldValue ν}
    (h : value.map f = other.map f) : value.inner.length = other.inner.length := by
  have hlength := congrArg (List.length ∘ inner) h
  simpa only [Function.comp_apply, inner_map, List.length_map] using hlength

end FieldValue

/-! ## Fields that hold children -/

/-- Whether there may be nodes in a field, children or not. -/
def FieldType.holdsNodes : FieldType → Bool
  | .node | .maybeNode | .nodes | .holes => true
  | _ => false

namespace Node

/-- Whether the key or the member of a node is an expression in brackets. Only then it is evaluated,
and only then it is a child. -/
def isComputed : Node → Bool
  | .methodDefinition _ _ _ computed _ | .property _ _ _ computed _ _ => computed
  | .propertyDefinition _ _ computed _ | .memberExpression _ _ computed _ => computed
  | _ => false

/-- Whether a node is part of an export without a source, so that it names variables of the module
itself. -/
def exportsVariables : Node → Bool
  | .exportNamedDeclaration _ _ source => source.isNone
  | .exportSpecifier .. => true
  | _ => false

/-- Whether the nodes in a field are children. Declared names, labels, names after a dot, keys
without brackets, and what is imported or exported from another module are not. -/
def isChildField (node : Node) (spec : FieldSpec) : Bool :=
  spec.type.holdsNodes &&
    match spec.name with
    | "id" | "label" | "meta" | "imported" | "exported" => false
    | "key" | "property" => node.isComputed
    | "specifiers" | "local" => node.exportsVariables
    | "source" => (node matches .importExpression ..)
    | _ => true

end Node

/-- A field of a node with its value, and whether the nodes in it are children. -/
structure NodeField where
  spec : FieldSpec
  isChild : Bool
  value : FieldValue Node

namespace NodeField

/-- The children in a field. A field is taken as a whole: either all nodes in it are children, or
none of them. -/
def children (field : NodeField) : List Node := if field.isChild then field.value.inner else []

/-- The field with a blank for each child in it. A node in it that is no child stays, so that the
frame shows when one is changed. -/
def frame (field : NodeField) : FieldSpec × Bool × FieldValue (Option Node) :=
  (field.spec, field.isChild, field.value.map fun node => if field.isChild then none else some node)

/-- The places of the children in a field. -/
def places (field : NodeField) : Places NodeField :=
  (fun value => { field with value }) <$>
    if field.isChild then field.value.places else .keep field.value

/-- A field that holds children has the places of its value, and one that holds none has no
places. -/
theorem separates_places (field : NodeField) : field.places.Separates field children frame := by
  obtain ⟨spec, isChild, value⟩ := field
  cases isChild with
  | false =>
    have hkeep : (Places.keep value).Separates value (fun _ => []) id := .keep rfl
    exact hkeep.map (NodeField.mk spec false) (fun _ => rfl)
      fun _ _ hvalue => congrArg (frame ∘ NodeField.mk spec false) hvalue
  | true =>
    refine value.separates_places.map (NodeField.mk spec true) (fun _ => rfl) fun _ _ hvalue => ?_
    have hblank := congrArg (FieldValue.map fun _ => (none : Option Node)) hvalue
    rw [FieldValue.map_map, FieldValue.map_map] at hblank
    exact congrArg (spec, true, ·) hblank

/-- **A field is determined by its children and the rest.** For a field without children the frame
is the field itself; for one with children it is `FieldValue.eq_of_map_eq`. -/
theorem eq_of_frame_eq {field other : NodeField} (hframe : field.frame = other.frame)
    (hchildren : field.children = other.children) : field = other := by
  obtain ⟨spec, isChild, value⟩ := field
  obtain ⟨otherSpec, otherChild, other⟩ := other
  simp only [frame, Prod.mk.injEq] at hframe
  obtain ⟨rfl, rfl, hvalue⟩ := hframe
  have hinner : value.inner = other.inner := by
    cases isChild with
    | false =>
      have hinner := congrArg FieldValue.inner hvalue
      rw [FieldValue.inner_map, FieldValue.inner_map] at hinner
      exact List.map_inj_right (fun _ _ => Option.some.inj) |>.1 hinner
    | true => exact hchildren
  rw [FieldValue.eq_of_map_eq hvalue hinner]

/-- Fields with one frame have the same number of children, which is how the children of a row of
fields are cut into those of each field. -/
theorem length_children_of_frame_eq {field other : NodeField} (hframe : field.frame = other.frame) :
    field.children.length = other.children.length := by
  obtain ⟨spec, isChild, value⟩ := field
  obtain ⟨otherSpec, otherChild, other⟩ := other
  simp only [frame, Prod.mk.injEq] at hframe
  obtain ⟨rfl, rfl, hvalue⟩ := hframe
  cases isChild with
  | false => rfl
  | true => exact FieldValue.length_inner_of_map_eq hvalue

/-- Some fields are determined by all their children and the rest. By induction over the fields: the
frame of the first says how many of the children are its own. -/
theorem eq_of_map_frame_eq {fields others : List NodeField}
    (hframe : fields.map frame = others.map frame)
    (hchildren : fields.flatMap children = others.flatMap children) : fields = others := by
  induction fields generalizing others with
  | nil => exact (List.map_eq_nil_iff.1 hframe.symm).symm
  | cons field fields ih =>
    cases others with
    | nil => cases hframe
    | cons other others =>
      obtain ⟨hfirst, hrest⟩ := List.cons_eq_cons.1 hframe
      obtain ⟨hown, hothers⟩ := List.append_inj hchildren (length_children_of_frame_eq hfirst)
      rw [eq_of_frame_eq hfirst hown, ih hrest hothers]

/-- The fields without children are part of the rest, so whatever keeps the frame of a node keeps
them as they are. -/
theorem filter_eq_of_map_frame_eq {fields others : List NodeField}
    (h : fields.map frame = others.map frame) :
    fields.filter (!·.isChild) = others.filter (!·.isChild) := by
  induction fields generalizing others with
  | nil => rw [List.map_eq_nil_iff.1 h.symm]
  | cons field fields ih =>
    cases others with
    | nil => cases h
    | cons other others =>
      obtain ⟨hfirst, hrest⟩ := List.cons_eq_cons.1 h
      have hchild : field.isChild = other.isChild := congrArg (·.2.1) hfirst
      rw [List.filter_cons, List.filter_cons, ih hrest, ← hchild]
      cases hfield : field.isChild with
      | true => rfl
      | false =>
        have hnone : field.children = other.children := by
          rw [children, children, ← hchild, hfield]
          rfl
        rw [eq_of_frame_eq hfirst hnone]

end NodeField

namespace Kind

/-- The fields of a kind, or something for each of them, in the order of the text in which their
children are counted: the body of a `do` loop comes after its test. -/
def inTextOrder {α : Type} (kind : Kind) (items : List α) : List α :=
  if kind = .doWhileStatement then items.reverse else items

end Kind

namespace Kind

variable {α β : Type}

/-- Turning the order round and mapping can change places, since the order is a matter of the kind
only. -/
theorem map_inTextOrder (kind : Kind) (f : α → β) (items : List α) :
    (kind.inTextOrder items).map f = kind.inTextOrder (items.map f) := by
  rw [inTextOrder, inTextOrder]
  split
  · exact List.map_reverse
  · rfl

/-- No field is lost when the fields are put in the order of the text. -/
theorem inTextOrder_injective (kind : Kind) {items others : List α}
    (h : kind.inTextOrder items = kind.inTextOrder others) : items = others := by
  rw [inTextOrder, inTextOrder] at h
  split at h
  · exact List.reverse_inj.1 h
  · exact h

end Kind

namespace Node

/-- The fields of a node with their values, in the order in which children are counted. This is
where the table and the names of the fields meet. -/
def fields (node : Node) : List NodeField :=
  node.kind.inTextOrder <| (node.kind.fields.zip node.fieldValues).map fun (spec, value) =>
    ⟨spec, node.isChildField spec, value⟩

/-- A node with a blank for each child. Writing children is what leaves the frame as it is and may
change nothing else. -/
def frame (node : Node) : Kind × List (FieldSpec × Bool × FieldValue (Option Node)) :=
  (node.kind, node.fields.map NodeField.frame)

/-- **The children of a node are those in its fields.** One side is the table of child places, the
other one goes by the names of the fields: neither is made from the other. This is checked for each
kind once. -/
theorem children_eq_flatMap (node : Node) :
    node.children = node.fields.flatMap NodeField.children := by
  cases node
  -- Where a flag or the source decides which places count, it decides alike on both sides.
  case' methodDefinition _ _ _ computed _ | property _ _ _ computed _ _
      | memberExpression _ _ computed _ | propertyDefinition _ _ computed _ => cases computed
  case' exportNamedDeclaration _ _ source => cases source
  all_goals
    first
    | rfl
    | simp [children, places, fields, kind, fieldValues, record, Kind.inTextOrder, Kind.fields,
        FieldSpec.required, FieldSpec.optional, FieldSpec.flag, FieldSpec.hide, isChildField,
        FieldType.holdsNodes, isComputed, exportsVariables, NodeField.children, FieldValue.inner]

/-- **Refilling a node refills its fields one after the other.** As in `children_eq_flatMap` all
kinds are gone through here; what follows is about one field. -/
theorem fields_refill (node : Node) (supply : List Node) :
    ((node.places.refill supply).1.fields, (node.places.refill supply).2) =
      (Places.inTurn NodeField.places node.fields).refill supply := by
  cases node
  case' methodDefinition _ _ _ computed _ | property _ _ _ computed _ _
      | memberExpression _ _ computed _ | propertyDefinition _ _ computed _ => cases computed
  case' exportNamedDeclaration _ _ source => cases source
  all_goals rfl

theorem kind_refill (node : Node) (supply : List Node) :
    (node.places.refill supply).1.kind = node.kind := by
  cases node <;> rfl

/-! ## The laws -/

/-- The values of the fields are those of the record, as there is one for each field. -/
theorem map_value_fields (node : Node) :
    node.fields.map NodeField.value = node.kind.inTextOrder node.fieldValues := by
  have hlength := Record.HasTypes.length_eq node.hasTypes_record
  rw [fields, Kind.map_inTextOrder, List.map_map]
  exact congrArg _ (List.map_snd_zip (Nat.le_of_eq hlength))

/-- A node is determined by its kind and its fields, since it can be made again from its record. -/
theorem eq_of_fields_eq {node other : Node} (hkind : node.kind = other.kind)
    (hfields : node.fields = other.fields) : node = other := by
  have hvalues := congrArg (List.map NodeField.value) hfields
  rw [map_value_fields, map_value_fields, hkind] at hvalues
  have hrecord : node.record = other.record := by
    rw [Record.mk.injEq]
    exact ⟨hkind, Kind.inTextOrder_injective _ hvalues⟩
  have hnode := congrArg ofRecord? hrecord
  rw [ofRecord?_record, ofRecord?_record] at hnode
  exact Option.some.inj hnode

/-- **The places of a node tell its children apart from its frame.** The three laws of reading and
writing are the three parts of this, with a supply of the right length. -/
theorem separates_places (node : Node) : node.places.Separates node children frame := by
  have hfields := Places.Separates.inTurn NodeField.separates_places node.fields
  have hrefill := fun supply => Prod.mk.inj (node.fields_refill supply)
  refine ⟨rfl, fun supply => ?_, fun supply => ?_, fun supply hlength => ?_⟩
  · rw [frame, frame, kind_refill, (hrefill supply).1, hfields.rest_refill]
  · rw [(hrefill supply).2, hfields.left, children_eq_flatMap]
  · rw [children_eq_flatMap] at hlength ⊢
    rw [children_eq_flatMap, (hrefill supply).1, hfields.inside_refill supply hlength]

/-- **A node is determined by its children and its frame.** So to see that two nodes are equal it is
enough to see what was written into them, and that nothing else was touched. -/
theorem eq_of_frame_eq {node other : Node} (hframe : node.frame = other.frame)
    (hchildren : node.children = other.children) : node = other := by
  obtain ⟨hkind, hfields⟩ := Prod.mk.inj hframe
  rw [children_eq_flatMap, children_eq_flatMap] at hchildren
  exact eq_of_fields_eq hkind (NodeField.eq_of_map_frame_eq hfields hchildren)

/-- Writing children leaves the frame, also if there are too many of them or too few. -/
theorem frame_withChildren (node : Node) (others : List Node) :
    (node.withChildren others).frame = node.frame := node.separates_places.rest_refill others

/-- Children that are written are read. There have to be as many as the node has places; of a longer
list the rest would be left over. -/
theorem children_withChildren {node : Node} {others : List Node}
    (h : others.length = node.children.length) : (node.withChildren others).children = others := by
  have hchildren := node.separates_places.inside_refill others (Nat.le_of_eq h.symm)
  rwa [← h, List.take_length] at hchildren

/-- The children of a node in which every child is replaced by its image are the images. There is
one image for each child, so the condition on the number is met. -/
@[simp] theorem children_mapChildren (f : Node → Node) (node : Node) :
    (node.mapChildren f).children = node.children.map f := children_withChildren (List.length_map f)

/-- Writing back what is read changes nothing, because frame and children are those of the node. -/
theorem withChildren_children (node : Node) : node.withChildren node.children = node :=
  eq_of_frame_eq (node.frame_withChildren _) (children_withChildren rfl)

/-- What is written last counts, because nothing of what was written before is in the frame. -/
theorem withChildren_withChildren {node : Node} {others further : List Node}
    (hothers : others.length = node.children.length)
    (hfurther : further.length = node.children.length) :
    (node.withChildren others).withChildren further = node.withChildren further := by
  have hlength : further.length = (node.withChildren others).children.length := by
    rw [children_withChildren hothers, hfurther, hothers]
  refine eq_of_frame_eq ?_ ?_
  · rw [frame_withChildren, frame_withChildren, frame_withChildren]
  · rw [children_withChildren hlength, children_withChildren hfurther]

/-- The fields of a node that hold no children. They are said to stay by themselves, since in the
frame they stand among others that have blanks in them. -/
def rest (node : Node) : List NodeField := node.fields.filter (!·.isChild)

theorem rest_eq_of_frame_eq {node other : Node} (h : node.frame = other.frame) :
    node.rest = other.rest := NodeField.filter_eq_of_map_frame_eq (Prod.mk.inj h).2

/-- **Children are read and written independently of the rest.** A node has as many places as it
has children, which stand in its fields in the order of the text. Children that are written are
read, those that are read may be written back, what is written last counts, and everything else
stays: the kind, the fields without children, and the form of those with children. -/
theorem withChildren_lens (node : Node) :
    node.children = node.fields.flatMap NodeField.children ∧
    (∀ supply, (node.places.refill supply).2 = supply.drop node.children.length) ∧
    node.withChildren node.children = node ∧
    ∀ others, others.length = node.children.length →
      (node.withChildren others).kind = node.kind ∧
      (node.withChildren others).children = others ∧
      (∀ further, further.length = node.children.length →
        (node.withChildren others).withChildren further = node.withChildren further) ∧
      (node.withChildren others).rest = node.rest ∧
      (node.withChildren others).frame = node.frame := by
  refine ⟨children_eq_flatMap node, node.separates_places.left, withChildren_children node,
    fun others hothers => ⟨node.kind_refill others, children_withChildren hothers,
      fun further hfurther => withChildren_withChildren hothers hfurther,
      rest_eq_of_frame_eq (node.frame_withChildren others), node.frame_withChildren others⟩⟩

/-- In `[a, , b]` the gap stays between the elements. -/
theorem withChildren_gap :
    let array : Node := .arrayExpression [some (.identifier "a"), none, some (.identifier "b")]
    let others : List Node := [.super, .thisExpression]
    others.length = array.children.length ∧
    (array.withChildren others).children = others ∧
    (array.withChildren others).withChildren array.children = array ∧
    (array.withChildren others).frame = array.frame ∧
    array.withChildren others = .arrayExpression [some .super, none, some .thisExpression] := by
  intro array others
  obtain ⟨-, -, hback, hwritten⟩ := withChildren_lens array
  obtain ⟨-, hchildren, hagain, -, hframe⟩ := hwritten others rfl
  exact ⟨rfl, hchildren, (hagain array.children rfl).trans hback, hframe, rfl⟩

end Node

end DefineWrap
