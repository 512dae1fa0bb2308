/-
Fields and records: one layer of a syntax tree.

A field has a name, a type and perhaps a default. A record is a kind with values
for its fields, and its type is stated over the type `ν` of what stands inside
it: a record of nodes is a node seen from outside, a record of JSON values is the
JSON form of a node before anything is made of the nodes inside.

Recursion through a tree goes one record at a time. To descend, the recursion has
to know that what it meets is inside the record; `attach` adds that fact, and
`attach_map` and `attach_traverse` say that it changes nothing else.
-/
import DefineWrap.Estree.Node

set_option autoImplicit false

namespace DefineWrap

/-! ## Fields -/

/-- What a field of a node may hold. -/
inductive FieldType where
  | node
  | maybeNode
  | nodes
  /-- Nodes with gaps between them. -/
  | holes
  | text
  | maybeText
  | flag
  | json
  | maybeJson
  | variableKind
  deriving DecidableEq, Repr

/-- The value of a field, in which `ν` stands for the nodes. -/
inductive FieldValue (ν : Type) where
  | node (value : ν)
  | maybeNode (value : Option ν)
  | nodes (values : List ν)
  | holes (values : List (Option ν))
  | text (value : String)
  | maybeText (value : Option String)
  | flag (value : Bool)
  | json (value : Json)
  | maybeJson (value : Option Json)
  | variableKind (value : VariableKind)

/-- What a field holds when it is not written down. -/
inductive FieldDefault where
  /-- The field has to be written. -/
  | required
  /-- No node, no text, no value, or no items. -/
  | empty
  | off
  | on
  deriving DecidableEq, Repr

/-- A field of a kind of nodes. -/
structure FieldSpec where
  name : String
  type : FieldType
  default : FieldDefault
  /-- Whether the field is left out when it holds its default. -/
  hidden : Bool
  /-- A second name under which the field is found. -/
  otherName : Option String
  deriving DecidableEq, Repr

namespace FieldSpec

/-- A field that has to be written. -/
def required (name : String) (type : FieldType) : FieldSpec := ⟨name, type, .required, false, none⟩

/-- A field that may be missing, but is always written. -/
def optional (name : String) (type : FieldType) : FieldSpec := ⟨name, type, .empty, false, none⟩

/-- A truth value that is false if missing. -/
def flag (name : String) : FieldSpec := ⟨name, .flag, .off, false, none⟩

/-- The same field, left out when it holds its default. -/
def hide (spec : FieldSpec) : FieldSpec := { spec with hidden := true }

/-- The names under which a field is found. -/
def names (spec : FieldSpec) : List String := spec.name :: spec.otherName.toList

/-- The value of a missing field, if it may be missing. -/
def absent? {ν : Type} (spec : FieldSpec) : Option (FieldValue ν) :=
  match spec.default, spec.type with
  | .empty, .maybeNode => some (.maybeNode none)
  | .empty, .maybeText => some (.maybeText none)
  | .empty, .maybeJson => some (.maybeJson none)
  | .empty, .nodes => some (.nodes [])
  | .off, .flag => some (.flag false)
  | .on, .flag => some (.flag true)
  | _, _ => none

end FieldSpec

/-! ## Values of fields -/

namespace FieldValue

variable {ν μ : Type}

/-- What stands inside the value of a field. -/
def inner : FieldValue ν → List ν
  | .node value => [value]
  | .maybeNode value => value.toList
  | .nodes values => values
  | .holes values => values.filterMap id
  | _ => []

/-- The value with everything inside it replaced. -/
def map (f : ν → μ) : FieldValue ν → FieldValue μ
  | .node value => .node (f value)
  | .maybeNode value => .maybeNode (value.map f)
  | .nodes values => .nodes (values.map f)
  | .holes values => .holes (values.map (Option.map f))
  | .text value => .text value
  | .maybeText value => .maybeText value
  | .flag value => .flag value
  | .json value => .json value
  | .maybeJson value => .maybeJson value
  | .variableKind value => .variableKind value

/-- The value with everything inside it replaced, if everything has a replacement. -/
def traverse (f : ν → Option μ) : FieldValue ν → Option (FieldValue μ)
  | .node value => (f value).map .node
  | .maybeNode none => some (.maybeNode none)
  | .maybeNode (some value) => (f value).map fun value => .maybeNode (some value)
  | .nodes values => (values.mapM f).map .nodes
  | .holes values =>
    (values.mapM fun
      | none => some none
      | some value => (f value).map some).map .holes
  | .text value => some (.text value)
  | .maybeText value => some (.maybeText value)
  | .flag value => some (.flag value)
  | .json value => some (.json value)
  | .maybeJson value => some (.maybeJson value)
  | .variableKind value => some (.variableKind value)

theorem mem_inner_node (value : ν) : value ∈ (node value).inner := List.mem_singleton.2 rfl

theorem mem_inner_maybeNode (value : ν) : value ∈ (maybeNode (some value)).inner :=
  List.mem_singleton.2 rfl

theorem mem_inner_nodes {value : ν} {values : List ν} (h : value ∈ values) :
    value ∈ (nodes values).inner := h

theorem mem_inner_holes {value : ν} {values : List (Option ν)} (h : some value ∈ values) :
    value ∈ (holes values).inner := List.mem_filterMap.2 ⟨some value, h, rfl⟩

/-- The value in which everything inside it carries the fact that it is inside. -/
def attach : (value : FieldValue ν) → FieldValue { x : ν // x ∈ value.inner }
  | .node value => .node ⟨value, mem_inner_node value⟩
  | .maybeNode none => .maybeNode none
  | .maybeNode (some value) => .maybeNode (some ⟨value, mem_inner_maybeNode value⟩)
  | .nodes values => .nodes (values.attach.map fun x => ⟨x.1, mem_inner_nodes x.2⟩)
  | .holes values =>
    .holes (values.attach.map fun
      | ⟨none, _⟩ => none
      | ⟨some value, h⟩ => some ⟨value, mem_inner_holes h⟩)
  | .text value => .text value
  | .maybeText value => .maybeText value
  | .flag value => .flag value
  | .json value => .json value
  | .maybeJson value => .maybeJson value
  | .variableKind value => .variableKind value

theorem map_map {ρ : Type} (value : FieldValue ν) (f : ν → μ) (g : μ → ρ) :
    (value.map f).map g = value.map fun x => g (f x) := by
  cases value with
  | maybeNode value => cases value <;> rfl
  | nodes values => simp [map, Function.comp_def]
  | holes values => simp [map, Function.comp_def]
  | _ => rfl

theorem traverse_map {ρ : Type} (value : FieldValue ν) (f : ν → μ) (g : μ → Option ρ) :
    (value.map f).traverse g = value.traverse fun x => g (f x) := by
  cases value with
  | maybeNode value => cases value <;> rfl
  | nodes values =>
    simp only [map, traverse, List.mapM_map]
    rfl
  | holes values =>
    simp only [map, traverse, List.mapM_map]
    congr 2
    funext x
    cases x <;> rfl
  | _ => rfl

/-- Forgetting that everything is inside gives the value back. -/
theorem attach_map (value : FieldValue ν) (f : ν → μ) :
    (value.attach.map fun x => f x.1) = value.map f := by
  cases value with
  | maybeNode value => cases value <;> rfl
  | nodes values =>
    simp only [attach, map, List.map_map, nodes.injEq]
    exact (List.map_subtype (g := f) fun _ _ => rfl).trans (by rw [List.unattach_attach])
  | holes values =>
    simp only [attach, map, List.map_map, holes.injEq]
    refine (List.map_subtype (g := Option.map f) fun x _ => ?_).trans
      (by rw [List.unattach_attach])
    cases x <;> rfl
  | _ => rfl

theorem attach_traverse (value : FieldValue ν) (f : ν → Option μ) :
    (value.attach.traverse fun x => f x.1) = value.traverse f := by
  cases value with
  | maybeNode value => cases value <;> rfl
  | nodes values =>
    simp only [attach, traverse, List.mapM_map]
    congr 1
    exact (List.mapM_subtype (g := f) fun _ _ => rfl).trans (by rw [List.unattach_attach])
  | holes values =>
    simp only [attach, traverse, List.mapM_map]
    congr 1
    refine (List.mapM_subtype fun x h => ?_).trans (by rw [List.unattach_attach])
    cases x <;> rfl
  | _ => rfl

end FieldValue

/-! ## Records -/

/-- A kind, and values for its fields. -/
structure Record (ν : Type) where
  kind : Kind
  values : List (FieldValue ν)

namespace Record

variable {ν μ : Type}

/-- What stands inside a record. -/
def inner (record : Record ν) : List ν := record.values.flatMap FieldValue.inner

/-- The record with everything inside it replaced. -/
def map (f : ν → μ) (record : Record ν) : Record μ :=
  ⟨record.kind, record.values.map (FieldValue.map f)⟩

/-- The record with everything inside it replaced, if everything has a replacement. -/
def traverse (f : ν → Option μ) (record : Record ν) : Option (Record μ) :=
  (record.values.mapM (FieldValue.traverse f)).map (⟨record.kind, ·⟩)

/-- The record in which everything inside it carries the fact that it is inside. -/
def attach (record : Record ν) : Record { x : ν // x ∈ record.inner } :=
  ⟨record.kind, record.values.attach.map fun ⟨value, h⟩ =>
    value.attach.map fun x => ⟨x.1, List.mem_flatMap.2 ⟨value, h, x.2⟩⟩⟩

theorem attach_map (record : Record ν) (f : ν → μ) :
    (record.attach.map fun x => f x.1) = record.map f := by
  simp only [attach, map, List.map_map, mk.injEq, true_and]
  refine (List.map_subtype (g := FieldValue.map f) fun value h => ?_).trans
    (by rw [List.unattach_attach])
  rw [← FieldValue.attach_map value f]
  exact FieldValue.map_map _ _ _

theorem attach_traverse (record : Record ν) (f : ν → Option μ) :
    (record.attach.traverse fun x => f x.1) = record.traverse f := by
  simp only [attach, traverse, List.mapM_map]
  congr 1
  refine (List.mapM_subtype (g := FieldValue.traverse f) fun value h => ?_).trans
    (by rw [List.unattach_attach])
  rw [← FieldValue.attach_traverse value f]
  exact FieldValue.traverse_map _ _ _

end Record

end DefineWrap
