/-
Nodes are read back from their JSON form.

A node that has been read once, from whatever form of JSON, has only fields that are
read back from what is written for them, because what is read is settled. So the node is
read back (`Node.ofJson?_toJson`). What is written for it may nest one level deeper than
what it was read from: lists that are missing are written as empty arrays
(`Node.nestsWithin_toJson`). The numbers in it are those of the JSON values that the
nodes keep as such (`Node.values`), since no other field holds numbers.
-/
import DefineWrap.Proofs.Estree.Fields

set_option autoImplicit false

namespace DefineWrap

/-! ## Records of nodes -/

namespace Record

variable {ν μ : Type}

/-- A record stays as it is if everything inside it does. In this form what is read from the parts
of a node is put together again. -/
theorem traverse_eq_self {f : ν → Option ν} {record : Record ν}
    (h : ∀ part ∈ record.inner, f part = some part) : record.traverse f = some record := by
  rw [traverse, mapM_eq_some_map (g := id), List.map_id]
  · rfl
  · exact fun value hvalue => FieldValue.traverse_eq_self fun part hpart =>
      h part (List.mem_flatMap.2 ⟨value, hvalue, hpart⟩)

/-- Reading what is inside after it has been written is reading and writing it on one way. So the
parts of a node can be taken one by one. -/
theorem traverse_map {ρ : Type} (record : Record ν) (f : ν → μ) (g : μ → Option ρ) :
    (record.map f).traverse g = record.traverse fun part => g (f part) := by
  rw [traverse, traverse, map, List.mapM_map]
  simp only [Function.comp_def, FieldValue.traverse_map]

/-- Every value of a record whose parts have been read comes from a value of the record before. -/
theorem exists_of_mem_values_traverse {f : ν → Option μ} {record : Record ν} {result : Record μ}
    (h : record.traverse f = some result) {value : FieldValue μ} (hmem : value ∈ result.values) :
    ∃ source ∈ record.values, source.traverse f = some value := by
  obtain ⟨values, hvalues, rfl⟩ := Option.map_eq_some_iff.1 h
  exact exists_of_mem_mapM hvalues hmem

/-- What is inside a record whose parts have been read has been read from something inside the
record before. By this the induction hypothesis about smaller values reaches the nodes of the
result. -/
theorem exists_of_mem_inner_traverse {f : ν → Option μ} {record : Record ν} {result : Record μ}
    (h : record.traverse f = some result) {part : μ} (hmem : part ∈ result.inner) :
    ∃ source ∈ record.inner, f source = some part := by
  obtain ⟨value, hvalue, hpart⟩ := List.mem_flatMap.1 hmem
  obtain ⟨field, hfield, htraverse⟩ := exists_of_mem_values_traverse h hvalue
  obtain ⟨source, hsource, heq⟩ := FieldValue.exists_of_mem_inner_traverse htraverse hpart
  exact ⟨source, List.mem_flatMap.2 ⟨field, hfield, hsource⟩, heq⟩

/-- What is inside a record that has been mapped is the image of what was inside it, in the same
order and number, since no field loses or gains a part. -/
theorem inner_map (f : ν → μ) (record : Record ν) :
    (record.map f).inner = record.inner.map f := by
  rw [inner, inner, map, List.flatMap_map, List.map_flatMap]
  simp only [FieldValue.inner_map]

/-- The types of the values are kept when what is inside is mapped, since a type says how many parts
a value has and not what they are. -/
theorem HasTypes.map {record : Record ν} (h : record.HasTypes) (f : ν → μ) :
    (record.map f).HasTypes := by
  rw [HasTypes, Record.map, List.map_map]
  simp only [Function.comp_def, FieldValue.type_map]
  exact h

/-- The types of the values are kept when what is inside is read. Together with `exists_ofRecord?`
this is why a record that has been read is always one of a node. -/
theorem HasTypes.traverse {record : Record ν} (htypes : record.HasTypes) {f : ν → Option μ}
    {result : Record μ} (h : record.traverse f = some result) : result.HasTypes := by
  obtain ⟨values, hvalues, rfl⟩ := Option.map_eq_some_iff.1 h
  exact (map_of_mapM hvalues fun _ _ => FieldValue.type_of_traverse).trans htypes

/-- What is given is handed out to the fields one by one, in the order in which they are declared,
whether it was given with names or by places. -/
theorem map_fst_perField (given : Given) (fields : List FieldSpec) :
    (given.perField fields).map Prod.fst = fields := by
  cases given with
  | named members =>
    rw [Given.perField, List.map_map]
    exact List.map_id fields
  | placed items =>
    rw [Given.perField, List.map_map]
    exact List.zipIdx_map_fst 0 fields

/-- The values of a record are read one for each field. The tests that come before, for members that
are left over or that occur twice, do not change what is read. -/
theorem values_of_ofGiven? {kind : Kind} {given : Given} {record : Record Json}
    (h : ofGiven? kind given = some record) : record.kind = kind ∧
      (given.perField kind.fields).mapM (fun entry => entry.1.read? entry.2) =
        some record.values := by
  unfold ofGiven? at h
  split at h
  · cases h
  · obtain ⟨values, hvalues, rfl⟩ := Option.map_eq_some_iff.1 h
    exact ⟨rfl, hvalues⟩

/-- A record that has been read is of its kind, each value of the type of its field, because no type
has a reader that gives a value of another type. -/
theorem hasTypes_of_ofGiven? {kind : Kind} {given : Given} {record : Record Json}
    (h : ofGiven? kind given = some record) : record.HasTypes := by
  obtain ⟨hkind, hvalues⟩ := values_of_ofGiven? h
  have hfields := congrArg (List.map FieldSpec.type) (map_fst_perField given kind.fields)
  rw [List.map_map] at hfields
  rw [HasTypes, map_of_mapM hvalues fun _ _ => FieldSpec.type_of_read?, hkind]
  exact hfields

/-- Everything that is read for the fields of a node is settled, by which a node that has been read
once can be written and read again without a loss. -/
theorem settled_of_ofGiven? {kind : Kind} {given : Given} {record : Record Json}
    (h : ofGiven? kind given = some record) : ∀ value ∈ record.values, value.Settled := by
  intro value hmem
  obtain ⟨_, -, hread⟩ := exists_of_mem_mapM (values_of_ofGiven? h).2 hmem
  exact FieldSpec.settled_of_read? hread

/-- A record is read from what is directly inside a value. So reading ends, and a statement about
what is read can be proved by induction over the size of the value. -/
theorem exists_ofGiven? {value : Json} {record : Record Json} (h : ofJson? value = some record) :
    ∃ kind given, ofGiven? kind given = some record ∧
      ∀ part ∈ given.values, part ∈ value.parts := by
  unfold ofJson? at h
  split at h
  next members =>
    split at h
    · simp only [Option.bind_eq_bind, Option.bind_eq_some_iff] at h
      obtain ⟨kind, -, h⟩ := h
      refine ⟨kind, _, h, fun part hmem => ?_⟩
      obtain ⟨member, hmember, rfl⟩ := List.mem_map.1 hmem
      exact List.mem_map_of_mem (List.mem_filter.1 hmember).1
    · cases h
  next items =>
    simp only [Option.bind_eq_bind, Option.bind_eq_some_iff] at h
    obtain ⟨kind, -, h⟩ := h
    exact ⟨kind, _, h, fun part hmem => List.mem_cons_of_mem _ hmem⟩
  · cases h

/-- Only an object or an array can be a node. A value that holds nothing, such as a number or
`null`, is refused before its kind is looked for. -/
theorem isContainer {value : Json} {record : Record Json} (h : ofJson? value = some record) :
    value.isContainer = true := by
  cases value <;> first | rfl | cases h

end Record

/-! ## Nodes -/

namespace Node

/-- The record of a node is of the kind of the node, by the definition of `record` for each of the
seventy kinds. -/
theorem hasTypes_record (node : Node) : node.record.HasTypes := by
  cases node <;> rfl

/-- **Values of the right types make a node**, and the node has these values. So `ofRecord?` undoes
`record`, and it fails on nothing that has the types. -/
theorem exists_ofRecord? {record : Record Node} (h : record.HasTypes) :
    ∃ node, ofRecord? record = some node ∧ node.record = record := by
  obtain ⟨kind, values⟩ := record
  change values.map FieldValue.type = kind.fields.map FieldSpec.type at h
  cases kind
  -- The types are taken one by one, and each of them leaves one form of value.
  all_goals
    repeat
      obtain ⟨value, rest, rfl, htype, hrest⟩ := List.map_eq_cons_iff.1 h
      clear h
      cases value <;> cases htype
      have h := hrest
      clear hrest
  all_goals
    obtain rfl := List.map_eq_nil_iff.1 h
    exact ⟨_, rfl, rfl⟩

/-- The parts of a node that has been read are what has been read from the parts of the record, each
of them one by one and in their places. -/
theorem traverse_of_ofJsonRecord? {record : Record Json} (htypes : record.HasTypes) {node : Node}
    (h : ofJsonRecord? record = some node) : record.traverse ofJson? = some node.record := by
  obtain ⟨result, hresult, hnode⟩ := Option.bind_eq_some_iff.1 h
  obtain ⟨other, hother, hrecord⟩ := exists_ofRecord? (htypes.traverse hresult)
  rw [hnode] at hother
  cases hother
  rw [hresult, hrecord]

/-- Once a text of a node has been read, the node is made of its members. The text reader looks for
the kind first and then reads members one after the other; here this is what reading the whole JSON
value does. -/
theorem ofGiven?_members (node : Node) :
    ((Record.ofGiven? node.kind (.named (node.record.map toJson).members)).bind ofJsonRecord?) =
      ofJson? node.toJson := by
  rw [ofJson?_eq, toJson_eq, Record.ofJson?_toJson_eq]
  rfl

/-- No node is written as `null`. That matters since `null` stands for a node that is missing: what
is written for a field with a node in it is not taken for an empty one. -/
theorem toJson_ne_null (node : Node) : node.toJson ≠ .null := by
  rw [toJson_eq]
  rintro ⟨⟩

/-- A node is read back if its fields are settled and what is inside is read back. One layer of the
induction: the fields by `Record.ofJson?_toJson`, the parts by hypothesis. -/
theorem ofJson?_toJson_of_parts {node : Node}
    (hsettled : ∀ value ∈ node.record.values, value.Settled)
    (hparts : ∀ part ∈ node.record.inner, ofJson? part.toJson = some part) :
    ofJson? node.toJson = some node := by
  have hrecord :
      Record.ofJson? (node.record.map toJson).toJson = some (node.record.map toJson) := by
    refine Record.ofJson?_toJson (node.hasTypes_record.map toJson) ?_ ?_
    · exact List.forall_mem_map.2 fun value hmem => (hsettled value hmem).map toJson
    · rw [Record.inner_map]
      exact List.forall_mem_map.2 fun part _ => toJson_ne_null part
  rw [toJson_eq, ofJson?_eq, hrecord, Option.bind_some, ofJsonRecord?, Record.traverse_map,
    Record.traverse_eq_self hparts, Option.bind_some, ofRecord?_record]

/-- A node that has been read, from names or from places, is read back from what is written for it,
if that is so for the nodes inside. In this form the step serves the reader of JSON values and the
reader of texts. -/
theorem ofJson?_toJson_of_ofGiven? {kind : Kind} {given : Given} {record : Record Json}
    (hgiven : Record.ofGiven? kind given = some record) {node : Node}
    (h : ofJsonRecord? record = some node)
    (hparts : ∀ part ∈ record.inner, ∀ node, ofJson? part = some node →
      ofJson? node.toJson = some node) : ofJson? node.toJson = some node := by
  have htraverse := traverse_of_ofJsonRecord? (Record.hasTypes_of_ofGiven? hgiven) h
  refine ofJson?_toJson_of_parts (fun value hmem => ?_) fun part hmem => ?_
  · obtain ⟨source, hsource, hvalue⟩ := Record.exists_of_mem_values_traverse htraverse hmem
    exact (Record.settled_of_ofGiven? hgiven source hsource).traverse hvalue
  · obtain ⟨source, hsource, hpart⟩ := Record.exists_of_mem_inner_traverse htraverse hmem
    exact hparts source hsource part hpart

/-- **A node that has been read from JSON is read back from its own JSON form.** By induction over
the size of the value it was read from, since the node itself is not smaller than its fields show.
It would not hold of every node: a JSON value with a member twice is no result of reading. -/
theorem ofJson?_toJson {value : Json} {node : Node} (h : ofJson? value = some node) :
    ofJson? node.toJson = some node := by
  induction hsize : sizeOf value using Nat.strongRecOn generalizing value node with
  | _ size ih =>
    subst hsize
    rw [ofJson?_eq] at h
    obtain ⟨record, hrecord, hnode⟩ := Option.bind_eq_some_iff.1 h
    obtain ⟨kind, given, hgiven, -⟩ := Record.exists_ofGiven? hrecord
    exact ofJson?_toJson_of_ofGiven? hgiven hnode fun part hmem other hother =>
      ih _ (Record.sizeOf_lt_of_mem_ofJson? hrecord hmem) hother rfl

end Node

/-! ## Nesting -/

namespace FieldType

/-- A value that is missing and a value that is `null` are the same when they are written. -/
theorem getD_presence (value : Json) : (presence value).getD .null = value := by
  cases value <;> rfl

/-- The same for a value that is settled on the way, since `null` is settled already. -/
theorem getD_map_settle_presence (value : Json) :
    ((presence value).map Json.settle).getD .null = value.settle := by
  cases value with
  | null => exact (Json.settle_of_scalar rfl).symm
  | _ => rfl

/-- What is read for a field nests no deeper than what is written for it. For a kept value this is
because settling only drops members; the other types hold texts, flags or parts. -/
theorem nestsWithin_of_ofJson? {type : FieldType} {value : Json} {field : FieldValue Json}
    (h : type.ofJson? value = some field) {depth : Nat} (hvalue : value.NestsWithin depth) :
    field.toJson.NestsWithin depth := by
  unfold ofJson? at h
  -- By the type of the field and the shape of its value. Only the types of nodes and of JSON values
  -- let anything deeper in.
  split at h
  case h_1 | h_3 =>
    cases h
    exact hvalue
  case h_2 =>
    cases h
    rwa [FieldValue.toJson, getD_presence]
  case h_4 items =>
    have hitems : (items.map presence).map (·.getD .null) = items := by
      rw [List.map_map]
      exact List.map_id'' getD_presence items
    cases h
    rwa [FieldValue.toJson, hitems]
  case h_9 =>
    cases h
    exact hvalue.settle
  case h_10 =>
    cases h
    rw [FieldValue.toJson, getD_map_settle_presence]
    exact hvalue.settle
  case h_11 =>
    obtain ⟨_, -, rfl⟩ := Option.map_eq_some_iff.1 h
    exact Json.nestsWithin_of_scalar rfl depth
  case h_12 => cases h
  all_goals
    cases h
    exact Json.nestsWithin_of_scalar rfl depth

end FieldType

namespace FieldValue

/-- A missing field is written without anything inside, as `null`, a flag or an empty array. The
empty array is the one level that a node can gain. -/
theorem nestsWithin_of_absent? {spec : FieldSpec} {field : FieldValue Json}
    (h : spec.absent? = some field) {result : FieldValue Node}
    (htraverse : field.traverse Node.ofJson? = some result) :
    (result.map Node.toJson).toJson.NestsWithin 1 := by
  unfold FieldSpec.absent? at h
  split at h <;> cases h <;> cases htraverse <;> rintro _ ⟨⟩

/-- The value of a field gets one level deeper if every node inside it does, and no more: a field
adds the same level for its list before and after. -/
theorem nestsWithin_traverse {field : FieldValue Json} {result : FieldValue Node}
    (h : field.traverse Node.ofJson? = some result) {depth : Nat}
    (hdepth : field.toJson.NestsWithin depth)
    (hparts : ∀ part ∈ field.inner, ∀ node, Node.ofJson? part = some node → ∀ depth,
      part.NestsWithin depth → node.toJson.NestsWithin (depth + 1)) :
    (result.map Node.toJson).toJson.NestsWithin (depth + 1) := by
  -- The lists are one level deep themselves, so the nodes in them start one level down.
  cases field with
  | node part =>
    obtain ⟨node, hnode, rfl⟩ := Option.map_eq_some_iff.1 h
    exact hparts part (mem_inner_node part) node hnode depth hdepth
  | maybeNode part =>
    cases part with
    | none =>
      cases h
      exact Json.nestsWithin_of_scalar rfl _
    | some part =>
      obtain ⟨node, hnode, rfl⟩ := Option.map_eq_some_iff.1 h
      exact hparts part (mem_inner_maybeNode part) node hnode depth hdepth
  | nodes parts =>
    obtain ⟨nodes, hnodes, rfl⟩ := Option.map_eq_some_iff.1 h
    refine List.forall_mem_map.2 fun node hmem => ?_
    obtain ⟨part, hpart, hnode⟩ := exists_of_mem_mapM hnodes hmem
    obtain ⟨inner, rfl, hinner⟩ := hdepth.part hpart
    exact hparts part (mem_inner_nodes hpart) node hnode inner hinner
  | holes parts =>
    obtain ⟨nodes, hnodes, rfl⟩ := Option.map_eq_some_iff.1 h
    refine List.forall_mem_map.2 (List.forall_mem_map.2 fun node hmem => ?_)
    obtain ⟨part, hpart, hnode⟩ := exists_of_mem_mapM hnodes hmem
    obtain ⟨inner, rfl, hinner⟩ := hdepth.part (List.mem_map_of_mem hpart)
    cases part with
    | none =>
      cases hnode
      exact Json.nestsWithin_of_scalar rfl _
    | some part =>
      obtain ⟨other, hother, rfl⟩ := Option.map_eq_some_iff.1 hnode
      exact hparts part (mem_inner_holes hpart) other hother inner hinner
  | maybeText text =>
    cases h
    cases text <;> exact Json.nestsWithin_of_scalar rfl _
  | _ =>
    cases h
    exact hdepth.succ

end FieldValue

namespace Node

/-- One layer of `nestsWithin_toJson`, for names and for places alike: what is given is one level
inside, so the node is one level above it, and one more is for lists that were missing. -/
theorem nestsWithin_toJson_of_ofGiven? {kind : Kind} {given : Given} {record : Record Json}
    (hgiven : Record.ofGiven? kind given = some record) {node : Node}
    (h : ofJsonRecord? record = some node) {depth : Nat}
    (hdepth : ∀ value ∈ given.values, value.NestsWithin depth)
    (hparts : ∀ part ∈ record.inner, ∀ node, ofJson? part = some node → ∀ depth,
      part.NestsWithin depth → node.toJson.NestsWithin (depth + 1)) :
    node.toJson.NestsWithin (depth + 2) := by
  have htraverse := traverse_of_ofJsonRecord? (Record.hasTypes_of_ofGiven? hgiven) h
  rw [toJson_eq]
  refine List.forall_mem_map.2 (List.forall_mem_cons.2 ⟨Json.nestsWithin_of_scalar rfl _, ?_⟩)
  intro member hmember
  obtain ⟨entry, hentry, rfl⟩ := Record.name_mem_of_mem_members hmember
  obtain ⟨value, hvalue, heq⟩ := List.mem_map.1 (List.of_mem_zip hentry).2
  obtain ⟨field, hfield, hresult⟩ := Record.exists_of_mem_values_traverse htraverse hvalue
  obtain ⟨⟨spec, written⟩, hwritten, hread⟩ :=
    exists_of_mem_mapM (Record.values_of_ofGiven? hgiven).2 hfield
  rw [← heq]
  cases written with
  | none => exact (FieldValue.nestsWithin_of_absent? hread hresult).mono (Nat.le_add_left 1 depth)
  | some json =>
    have hjson := hdepth json (Given.mem_values_of_mem_perField hwritten)
    exact FieldValue.nestsWithin_traverse hresult (FieldType.nestsWithin_of_ofJson? hread hjson)
      fun part hpart => hparts part (List.mem_flatMap.2 ⟨field, hfield, hpart⟩)

/-- **What is written for a node nests at most one level deeper than what it was read from.** The
level is not added again for each node inside: only a list that was missing adds it, and nothing is
inside such a list. -/
theorem nestsWithin_toJson {value : Json} {node : Node} (h : ofJson? value = some node)
    {depth : Nat} (hdepth : value.NestsWithin depth) : node.toJson.NestsWithin (depth + 1) := by
  induction hsize : sizeOf value using Nat.strongRecOn generalizing value node depth with
  | _ size ih =>
    subst hsize
    rw [ofJson?_eq] at h
    obtain ⟨record, hrecord, hnode⟩ := Option.bind_eq_some_iff.1 h
    obtain ⟨kind, given, hgiven, hvalues⟩ := Record.exists_ofGiven? hrecord
    cases depth with
    | zero => exact absurd hdepth (by rw [Json.NestsWithin, Record.isContainer hrecord]; decide)
    | succ depth =>
      exact nestsWithin_toJson_of_ofGiven? hgiven hnode
        (fun part hmem => hdepth part (hvalues part hmem)) fun part hmem other hother depth hpart =>
          ih _ (Record.sizeOf_lt_of_mem_ofJson? hrecord hmem) hother hpart rfl

end Node

/-! ## Numbers -/

/-- The numbers in what is written for a field are those of the values that are kept in it and those
of the nodes inside. -/
theorem FieldValue.hasWords_toJson {field : FieldValue Json}
    (hkept : ∀ value ∈ field.kept, value.HasWords)
    (hinner : ∀ part ∈ field.inner, part.HasWords) : field.toJson.HasWords := by
  cases field with
  | node part => exact hinner part (mem_inner_node part)
  | maybeNode part =>
    cases part with
    | none => exact Json.hasWords_null
    | some part => exact hinner part (mem_inner_maybeNode part)
  | nodes parts => exact Json.hasWords_array hinner
  | holes parts =>
    refine Json.hasWords_array (List.forall_mem_map.2 fun part hmem => ?_)
    cases part with
    | none => exact Json.hasWords_null
    | some part => exact hinner part (mem_inner_holes hmem)
  | text value => exact Json.hasWords_string value
  | maybeText value =>
    cases value with
    | none => exact Json.hasWords_null
    | some value => exact Json.hasWords_string value
  | flag value => exact Json.hasWords_bool value
  | json value => exact hkept value List.mem_cons_self
  | maybeJson value =>
    cases value with
    | none => exact Json.hasWords_null
    | some value => exact hkept value List.mem_cons_self
  | variableKind kind => exact Json.hasWords_string kind.name

namespace Node

/-- The JSON values that a tree keeps as such: values of literals and of pieces of templates, and
what describes regular expressions. No other part of a tree can hold a number. -/
def values (node : Node) : List Json :=
  node.record.values.flatMap FieldValue.kept ++
    node.record.inner.attach.flatMap fun part => values part.1
termination_by sizeOf node
decreasing_by exact sizeOf_lt_of_mem_record part.2

/-- The values that a tree keeps, without the proofs that the recursion ends: those in its own
fields, and those of the nodes inside it. -/
theorem values_eq (node : Node) :
    node.values =
      node.record.values.flatMap FieldValue.kept ++ node.record.inner.flatMap values := by
  rw [values, List.flatMap_subtype (g := values) fun _ _ => rfl, List.unattach_attach]

/-- What holds of a node if it holds of the nodes inside it holds of every node. There is one case
instead of seventy, since a record says for every kind what is inside. -/
theorem record_induction {motive : Node → Prop}
    (step : ∀ node, (∀ part ∈ node.record.inner, motive part) → motive node) (node : Node) :
    motive node := by
  induction hsize : sizeOf node using Nat.strongRecOn generalizing node with
  | _ size ih =>
    subst hsize
    exact step node fun part hmem => ih _ (sizeOf_lt_of_mem_record hmem) part rfl

/-- **The numbers of a JSON form are those of the values that the tree keeps.** So whether the text
of a tree is read back is decided by looking at these values only. -/
theorem hasWords_toJson {node : Node} (h : ∀ value ∈ node.values, value.HasWords) :
    node.toJson.HasWords := by
  induction node using record_induction with
  | step node ih =>
    rw [values_eq, List.forall_mem_append] at h
    obtain ⟨hown, hinner⟩ := h
    have hparts : ∀ part ∈ node.record.inner, part.toJson.HasWords := fun part hmem =>
      ih part hmem fun value hvalue => hinner value (List.mem_flatMap.2 ⟨part, hmem, hvalue⟩)
    rw [toJson_eq]
    refine Json.hasWords_object (List.forall_mem_cons.2 ⟨Json.hasWords_string _, ?_⟩)
    intro member hmember
    -- The values of the members are those of the fields, and those hold kept values and nodes.
    obtain ⟨entry, hentry, rfl⟩ := Record.name_mem_of_mem_members hmember
    obtain ⟨field, hfield, heq⟩ := List.mem_map.1 (List.of_mem_zip hentry).2
    change entry.2.toJson.HasWords
    rw [← heq]
    refine FieldValue.hasWords_toJson (fun value hvalue => ?_) fun part hpart => ?_
    · rw [FieldValue.kept_map] at hvalue
      exact hown value (List.mem_flatMap.2 ⟨field, hfield, hvalue⟩)
    · rw [FieldValue.inner_map] at hpart
      obtain ⟨child, hchild, rfl⟩ := List.mem_map.1 hpart
      exact hparts child (List.mem_flatMap.2 ⟨field, hfield, hchild⟩)

end Node

end DefineWrap
