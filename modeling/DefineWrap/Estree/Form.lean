/-
The JSON form of a node, in both directions.

A node is written as an object with its kind under `type` and one member for each
field. It is read from such an object, in which the members may stand in any
order and others are ignored, or from an array with the kind first and the fields
in their order, of which those at the end may be missing if they have a default.

One layer at a time: a record of JSON values is written and read here, and what
stands inside it is written and read by recursion. Writing descends into smaller
nodes, reading into smaller JSON values; `Node.toJson_eq` and `Node.ofJson?_eq`
state the two functions without the proofs of that.
-/
import DefineWrap.Estree.Record

set_option autoImplicit false

namespace DefineWrap

/-! ## Writing one layer -/

namespace FieldValue

/-- The value of a field in JSON. -/
def toJson : FieldValue Json → Json
  | .node value => value
  | .maybeNode value => value.getD .null
  | .nodes values => .array values
  | .holes values => .array (values.map (·.getD .null))
  | .text value => .string value
  | .maybeText none => .null
  | .maybeText (some value) => .string value
  | .flag value => .bool value
  | .json value => value
  | .maybeJson value => value.getD .null
  | .variableKind value => .string value.name

/-- Whether a value is the given default. -/
def isDefault {ν : Type} : FieldDefault → FieldValue ν → Bool
  | .empty, .maybeNode none => true
  | .empty, .maybeText none => true
  | .empty, .maybeJson none => true
  | .empty, .nodes [] => true
  | .off, .flag value => !value
  | .on, .flag value => value
  | _, _ => false

end FieldValue

namespace FieldSpec

/-- The member of a field, unless it is left out. -/
def member? (spec : FieldSpec) (value : FieldValue Json) : Option (String × Json) :=
  if spec.hidden && value.isDefault spec.default then none else some (spec.name, value.toJson)

end FieldSpec

/-- The name of the member that holds the kind. -/
def kindMember : String := "type"

namespace Record

/-- The members of the fields of a record. -/
def members (record : Record Json) : List (String × Json) :=
  (record.kind.fields.zip record.values).filterMap fun (spec, value) => spec.member? value

/-- A record of JSON values as an object, the kind first. -/
def toJson (record : Record Json) : Json :=
  .object ((kindMember, .string record.kind.name) :: record.members)

end Record

/-! ## Reading one layer -/

/-- What is written of the fields of a node. -/
inductive Given where
  /-- Members of an object, by name. -/
  | named (members : List (String × Json))
  /-- Items of an array, by place. -/
  | placed (items : List Json)

namespace Given

/-- All that is written. -/
def values : Given → List Json
  | .named members => members.map Prod.snd
  | .placed items => items

/-- Whether something is written twice for one of the fields, or for no field at a
place beyond the last one. -/
def isExcessive (given : Given) (fields : List FieldSpec) : Bool :=
  match given with
  | .named members =>
    fields.any fun spec => 1 < (members.filter (·.1 ∈ spec.names)).length
  | .placed items => fields.length < items.length

/-- What is written for each of the fields. -/
def perField (given : Given) (fields : List FieldSpec) : List (FieldSpec × Option Json) :=
  match given with
  | .named members =>
    fields.map fun spec => (spec, (members.find? (·.1 ∈ spec.names)).map Prod.snd)
  | .placed items =>
    fields.zipIdx.map fun (spec, place) => (spec, items[place]?)

theorem mem_values_of_mem_perField {given : Given} {fields : List FieldSpec} {spec : FieldSpec}
    {value : Json} (h : (spec, some value) ∈ given.perField fields) : value ∈ given.values := by
  cases given with
  | named members =>
    obtain ⟨spec, _, heq⟩ := List.mem_map.1 h
    obtain ⟨member, hfind, hval⟩ := Option.map_eq_some_iff.1 (Prod.mk.inj heq).2
    exact List.mem_map.2 ⟨member, List.mem_of_find?_eq_some hfind, hval⟩
  | placed items =>
    obtain ⟨⟨spec, place⟩, _, heq⟩ := List.mem_map.1 h
    exact List.mem_of_getElem? (Prod.mk.inj heq).2

end Given

namespace VariableKind

/-- The keyword of a declaration is a string, or an object that has the keyword as
its only name and nothing under it. -/
def ofJson? : Json → Option VariableKind
  | .string name => ofName? name
  | .object [(name, .null)] => ofName? name
  | .object [(name, .object [])] => ofName? name
  | _ => none

end VariableKind

namespace FieldType

/-- A node, or none. -/
def presence : Json → Option Json
  | .null => none
  | value => some value

/-- A JSON value as a value of a field, before anything is made of what is inside. -/
def ofJson? : FieldType → Json → Option (FieldValue Json)
  | .node, value => some (.node value)
  | .maybeNode, value => some (.maybeNode (presence value))
  | .nodes, .array items => some (.nodes items)
  | .holes, .array items => some (.holes (items.map presence))
  | .text, .string value => some (.text value)
  | .maybeText, .null => some (.maybeText none)
  | .maybeText, .string value => some (.maybeText (some value))
  | .flag, .bool value => some (.flag value)
  | .json, value => some (.json value.settle)
  | .maybeJson, value => some (.maybeJson ((presence value).map Json.settle))
  | .variableKind, value => (VariableKind.ofJson? value).map .variableKind
  | _, _ => none

theorem eq_of_presence_eq_some {value other : Json} (h : presence value = some other) :
    other = value := by
  cases value <;> simp_all [presence]

theorem sizeOf_le_of_mem_inner {type : FieldType} {value part : Json} {field : FieldValue Json}
    (h : type.ofJson? value = some field) (hmem : part ∈ field.inner) :
    sizeOf part ≤ sizeOf value := by
  unfold ofJson? at h
  split at h
  all_goals
    first
    | (cases h; simp only [FieldValue.inner] at hmem)
    | (obtain ⟨_, _, rfl⟩ := Option.map_eq_some_iff.1 h; simp [FieldValue.inner] at hmem)
    | cases h
  all_goals try simp at hmem
  case h_1 => exact Nat.le_of_eq (congrArg sizeOf hmem)
  case h_2 => exact Nat.le_of_eq (congrArg sizeOf (eq_of_presence_eq_some hmem))
  case h_3 =>
    have := List.sizeOf_lt_of_mem hmem
    simp only [Json.array.sizeOf_spec]; omega
  case h_4 =>
    obtain ⟨item, hitem, heq⟩ := hmem
    rw [eq_of_presence_eq_some heq]
    have := List.sizeOf_lt_of_mem hitem
    simp only [Json.array.sizeOf_spec]; omega

end FieldType

namespace FieldSpec

/-- The value of a field from what is written for it, if anything is. -/
def read? (spec : FieldSpec) : Option Json → Option (FieldValue Json)
  | some value => spec.type.ofJson? value
  | none => spec.absent?

theorem inner_absent? {ν : Type} {spec : FieldSpec} {field : FieldValue ν}
    (h : spec.absent? = some field) : field.inner = [] := by
  unfold absent? at h
  split at h <;> first | (cases h; rfl) | cases h

end FieldSpec

namespace Kind

/-- The kind that the member of its name holds: a name, or a place in the list. -/
def ofJson? : Json → Option Kind
  | .string name => ofName? name
  | .number (.integer place) => if 0 ≤ place then ofOrdinal? place.toNat else none
  | _ => none

end Kind

namespace Record

/-- The record of a kind from what is written of its fields. -/
def ofGiven? (kind : Kind) (given : Given) : Option (Record Json) :=
  if given.isExcessive kind.fields then none
  else
    ((given.perField kind.fields).mapM fun (entry : FieldSpec × Option Json) =>
      entry.1.read? entry.2).map (⟨kind, ·⟩)

/-- The record that a JSON value is written for. An object names its kind once. -/
def ofJson? : Json → Option (Record Json)
  | .object members =>
    match members.filter (·.1 = kindMember) with
    | [(_, kind)] => do
      let kind ← Kind.ofJson? kind
      ofGiven? kind (.named (members.filter (·.1 ≠ kindMember)))
    | _ => none
  | .array (kind :: items) => do
    let kind ← Kind.ofJson? kind
    ofGiven? kind (.placed items)
  | _ => none

end Record

/-! ## What is read is smaller -/

/-- Each result of a successful pass over a list comes from an item of it. -/
theorem exists_of_mem_mapM {α β : Type} {f : α → Option β} {items : List α} {results : List β}
    {result : β} (h : items.mapM f = some results) (hmem : result ∈ results) :
    ∃ item ∈ items, f item = some result := by
  induction items generalizing results with
  | nil => simp_all
  | cons item rest ih =>
    simp only [List.mapM_cons, Option.bind_eq_bind, Option.bind_eq_some_iff] at h
    obtain ⟨first, hfirst, more, hmore, heq⟩ := h
    cases heq
    rcases List.mem_cons.1 hmem with rfl | hrest
    · exact ⟨item, List.mem_cons_self, hfirst⟩
    · obtain ⟨other, hother, hres⟩ := ih hmore hrest
      exact ⟨other, List.mem_cons_of_mem _ hother, hres⟩

namespace Record

theorem exists_of_mem_inner_ofGiven? {kind : Kind} {given : Given} {record : Record Json}
    {part : Json} (h : ofGiven? kind given = some record) (hmem : part ∈ record.inner) :
    ∃ value ∈ given.values, sizeOf part ≤ sizeOf value := by
  unfold ofGiven? at h
  split at h
  · cases h
  · obtain ⟨fields, hfields, rfl⟩ := Option.map_eq_some_iff.1 h
    obtain ⟨field, hfield, hpart⟩ := List.mem_flatMap.1 hmem
    obtain ⟨⟨spec, written⟩, hin, hread⟩ := exists_of_mem_mapM hfields hfield
    cases written with
    | none => rw [FieldSpec.inner_absent? hread] at hpart; cases hpart
    | some value =>
      exact ⟨value, Given.mem_values_of_mem_perField hin,
        FieldType.sizeOf_le_of_mem_inner hread hpart⟩

/-- What stands inside a record is smaller than the JSON value of the record. -/
theorem sizeOf_lt_of_mem_ofJson? {value part : Json} {record : Record Json}
    (h : ofJson? value = some record) (hmem : part ∈ record.inner) :
    sizeOf part < sizeOf value := by
  have key : ∃ other ∈ value.parts, sizeOf part ≤ sizeOf other := by
    unfold ofJson? at h
    split at h
    · split at h
      · simp only [Option.bind_eq_bind, Option.bind_eq_some_iff] at h
        obtain ⟨kind, _, h⟩ := h
        obtain ⟨other, hother, hle⟩ := exists_of_mem_inner_ofGiven? h hmem
        obtain ⟨member, hmember, rfl⟩ := List.mem_map.1 hother
        exact ⟨member.2, List.mem_map.2 ⟨member, (List.mem_filter.1 hmember).1, rfl⟩, hle⟩
      · cases h
    · simp only [Option.bind_eq_bind, Option.bind_eq_some_iff] at h
      obtain ⟨kind, _, h⟩ := h
      obtain ⟨other, hother, hle⟩ := exists_of_mem_inner_ofGiven? h hmem
      exact ⟨other, List.mem_cons_of_mem _ hother, hle⟩
    · cases h
  obtain ⟨other, hother, hle⟩ := key
  have := Json.sizeOf_lt_of_mem_parts hother
  omega

end Record

/-! ## Whole nodes -/

namespace Node

/-- The JSON form of a node. -/
def toJson (node : Node) : Json :=
  (node.record.attach.map fun x => toJson x.1).toJson
termination_by sizeOf node
decreasing_by exact sizeOf_lt_of_mem_record x.2

theorem toJson_eq (node : Node) : node.toJson = (node.record.map toJson).toJson := by
  rw [toJson, Record.attach_map]

/-- The node of a JSON value, if the value is of the form of a node. -/
def ofJson? (value : Json) : Option Node :=
  match _h : Record.ofJson? value with
  | none => none
  | some record => (record.attach.traverse fun x => ofJson? x.1).bind ofRecord?
termination_by sizeOf value
decreasing_by exact Record.sizeOf_lt_of_mem_ofJson? _h x.2

/-- The node of a record, in which what stands inside is still to be read. -/
def ofJsonRecord? (record : Record Json) : Option Node :=
  (record.traverse ofJson?).bind ofRecord?

theorem ofJson?_eq (value : Json) : ofJson? value = (Record.ofJson? value).bind ofJsonRecord? := by
  rw [ofJson?]
  split <;> simp_all [ofJsonRecord?, Record.attach_traverse]

end Node

/-! ## Programs -/

namespace Program

/-- The name under which a program stands in `type`. It is written, but not checked. -/
def typeName : String := "Program"

/-- The JSON form of a program. -/
def toJson (program : Program) : Json :=
  .object ([(kindMember, .string typeName), ("body", .array (program.body.map Node.toJson))] ++
    (program.sourceType.map fun type => ("sourceType", Json.string type)).toList)

end Program

end DefineWrap
