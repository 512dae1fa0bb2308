/-
One layer of a tree is read back from its JSON form.

Every field is read back from its member, or from the lack of one if it is left out
(`FieldSpec.read?_member?`). The names of the fields of a kind are apart from each other, so
what is found under the names of a field is its own member and nothing else. So the record is
read back, whatever its kind (`Record.ofJson?_toJson`).
-/
import DefineWrap.Estree.Form
import DefineWrap.Proofs.Json.Settling

set_option autoImplicit false

namespace DefineWrap

/-! ## Passes over a list -/

/-- Reading that fails for no item of a list is a map. The form of `Except.mapM_eq_ok` for readers
that give no reason for a failure. -/
theorem mapM_eq_some_map {α β : Type} {f : α → Option β} {g : α → β} {items : List α}
    (h : ∀ item ∈ items, f item = some (g item)) : items.mapM f = some (items.map g) := by
  induction items with
  | nil => rfl
  | cons item items ih =>
    rw [List.mapM_cons, h item List.mem_cons_self,
      ih fun other hmem => h other (List.mem_cons_of_mem _ hmem)]
    rfl

/-- What is the same for an item and for what is read from it is the same for all, in the same
order. Used for types: those of the values that were read are those of the fields they were read
for. -/
theorem map_of_mapM {α β γ : Type} {f : α → Option β} {g : α → γ} {k : β → γ} {items : List α}
    {results : List β} (h : items.mapM f = some results)
    (heq : ∀ item result, f item = some result → k result = g item) :
    results.map k = items.map g := by
  induction items generalizing results with
  | nil =>
    cases h
    rfl
  | cons item items ih =>
    simp only [List.mapM_cons, Option.bind_eq_bind, Option.bind_eq_some_iff] at h
    obtain ⟨first, hfirst, rest, hrest, heq'⟩ := h
    cases heq'
    rw [List.map_cons, List.map_cons, heq item first hfirst, ih hrest]

/-! ## Values of fields -/

namespace FieldValue

variable {ν μ : Type}

/-- The type of the fields that may hold a value. It is a function of the value, so a record of
values has the types of a kind exactly if two lists are equal. -/
def type : FieldValue ν → FieldType
  | .node _ => .node
  | .maybeNode _ => .maybeNode
  | .nodes _ => .nodes
  | .holes _ => .holes
  | .text _ => .text
  | .maybeText _ => .maybeText
  | .flag _ => .flag
  | .json _ => .json
  | .maybeJson _ => .maybeJson
  | .variableKind _ => .variableKind

/-- The JSON values that are kept as such. They are not looked into by any part of the program, so
what they hold comes out as it went in. -/
def kept : FieldValue ν → List Json
  | .json value => [value]
  | .maybeJson value => value.toList
  | _ => []

/-- The JSON values that are kept name no member twice, and `null` is none of those that may be
missing. These are the values that are read back: of a member that is named twice only the last
would be left, and `null` would be read as a missing value. -/
def Settled : FieldValue ν → Prop
  | .json value => value.settle = value
  | .maybeJson (some value) => value.settle = value ∧ value ≠ .null
  | _ => True

@[simp] theorem type_map (f : ν → μ) (value : FieldValue ν) : (value.map f).type = value.type := by
  cases value <;> rfl

@[simp] theorem kept_map (f : ν → μ) (value : FieldValue ν) : (value.map f).kept = value.kept := by
  cases value <;> rfl

/-- What is inside a value that has been mapped is the image of what was inside it. Mapping a list
with holes in it keeps the holes, so none of the parts is lost. -/
theorem inner_map (f : ν → μ) (value : FieldValue ν) :
    (value.map f).inner = value.inner.map f := by
  cases value with
  | maybeNode value => cases value <;> rfl
  | holes values =>
    simp only [map, inner, List.filterMap_map, List.map_filterMap]
    rfl
  | _ => rfl

/-- Whether a value is settled is not changed by what happens to the nodes in it, since a value that
is kept has no nodes in it. -/
theorem Settled.map {value : FieldValue ν} (h : value.Settled) (f : ν → μ) :
    (value.map f).Settled := by
  cases value with
  | maybeJson value => cases value <;> exact h
  | _ => exact h

/-! ### Replacing what is inside -/

/-- A value stays as it is if every part of it is read as itself. -/
theorem traverse_eq_self {f : ν → Option ν} {value : FieldValue ν}
    (h : ∀ part ∈ value.inner, f part = some part) : value.traverse f = some value := by
  cases value with
  | node part => rw [traverse, h part (mem_inner_node part), Option.map_some]
  | maybeNode part =>
    cases part with
    | none => rfl
    | some part => rw [traverse, h part (mem_inner_maybeNode part), Option.map_some]
  | nodes parts =>
    rw [traverse, mapM_eq_some_map fun part hmem => h part (mem_inner_nodes hmem), List.map_id',
      Option.map_some]
  | holes parts =>
    rw [traverse, mapM_eq_some_map (g := id), List.map_id, Option.map_some]
    intro part hmem
    cases part with
    | none => rfl
    | some part => exact congrArg (Option.map some) (h part (mem_inner_holes hmem))
  | _ => rfl

/-- What is inside the result comes from what is inside the value: reading the parts adds none. -/
theorem exists_of_mem_inner_traverse {f : ν → Option μ} {value : FieldValue ν}
    {result : FieldValue μ} (h : value.traverse f = some result) {part : μ}
    (hmem : part ∈ result.inner) : ∃ source ∈ value.inner, f source = some part := by
  -- The values without nodes in them come last: nothing is inside their results.
  cases value with
  | node source =>
    obtain ⟨other, hother, rfl⟩ := Option.map_eq_some_iff.1 h
    rw [List.mem_singleton.1 hmem]
    exact ⟨source, mem_inner_node source, hother⟩
  | maybeNode source =>
    cases source with
    | none =>
      cases h
      cases hmem
    | some source =>
      obtain ⟨other, hother, rfl⟩ := Option.map_eq_some_iff.1 h
      rw [List.mem_singleton.1 hmem]
      exact ⟨source, mem_inner_maybeNode source, hother⟩
  | nodes sources =>
    obtain ⟨others, hothers, rfl⟩ := Option.map_eq_some_iff.1 h
    exact exists_of_mem_mapM hothers hmem
  | holes sources =>
    obtain ⟨others, hothers, rfl⟩ := Option.map_eq_some_iff.1 h
    obtain ⟨other, hother, heq⟩ := List.mem_filterMap.1 hmem
    obtain ⟨source, hsource, hresult⟩ := exists_of_mem_mapM hothers hother
    cases source with
    | none =>
      cases hresult
      cases heq
    | some source =>
      obtain ⟨result, hpart, rfl⟩ := Option.map_eq_some_iff.1 hresult
      cases heq
      exact ⟨source, mem_inner_holes hsource, hpart⟩
  | _ =>
    cases h
    cases hmem

/-- Reading the parts of a value does not change its type, and a value without parts is not changed
at all. -/
theorem type_of_traverse {f : ν → Option μ} {value : FieldValue ν} {result : FieldValue μ}
    (h : value.traverse f = some result) : result.type = value.type := by
  cases value with
  | maybeNode source =>
    cases source with
    | none =>
      cases h
      rfl
    | some source =>
      obtain ⟨_, -, rfl⟩ := Option.map_eq_some_iff.1 h
      rfl
  | node _ | nodes _ | holes _ =>
    obtain ⟨_, -, rfl⟩ := Option.map_eq_some_iff.1 h
    rfl
  | _ =>
    cases h
    rfl

/-- A settled value is still settled when its parts have been read, by the same reason as in
`Settled.map`. -/
theorem Settled.traverse {f : ν → Option μ} {value : FieldValue ν} (hsettled : value.Settled)
    {result : FieldValue μ} (h : value.traverse f = some result) : result.Settled := by
  cases value with
  | maybeNode source =>
    cases source with
    | none =>
      cases h
      trivial
    | some source =>
      obtain ⟨_, -, rfl⟩ := Option.map_eq_some_iff.1 h
      trivial
  | maybeJson value =>
    cases h
    cases value <;> exact hsettled
  | json value =>
    cases h
    exact hsettled
  | node _ | nodes _ | holes _ =>
    obtain ⟨_, -, rfl⟩ := Option.map_eq_some_iff.1 h
    trivial
  | _ =>
    cases h
    trivial

end FieldValue

/-! ## Fields -/

/-- A value counts as there unless it is `null`. The two are told apart in one place, so that proofs
about fields split once and not for every form of JSON. -/
theorem FieldType.presence_of_ne_null {value : Json} (h : value ≠ .null) :
    presence value = some value := by
  cases value with
  | null => exact absurd rfl h
  | _ => rfl

/-- The value of a field is of its type, and is read back from what is written for it. Both
conditions are needed: a member named twice would be dropped in the value, and a part that is `null`
would be read as missing. -/
theorem FieldType.ofJson?_toJson {value : FieldValue Json} (hsettled : value.Settled)
    (hinner : ∀ part ∈ value.inner, part ≠ .null) :
    value.type.ofJson? value.toJson = some value := by
  cases value with
  | maybeNode part =>
    cases part with
    | none => rfl
    | some part =>
      change some (FieldValue.maybeNode (presence part)) = _
      rw [presence_of_ne_null (hinner part (FieldValue.mem_inner_maybeNode part))]
  | holes parts =>
    change some (FieldValue.holes ((parts.map (·.getD .null)).map presence)) = _
    rw [List.map_map, List.map_congr_left (g := id), List.map_id]
    intro part hmem
    cases part with
    | none => rfl
    | some part => exact presence_of_ne_null (hinner part (FieldValue.mem_inner_holes hmem))
  | maybeText text => cases text <;> rfl
  | json value => exact congrArg (some ∘ FieldValue.json) hsettled
  | maybeJson value =>
    cases value with
    | none => rfl
    | some value =>
      change some (FieldValue.maybeJson ((presence value).map Json.settle)) = _
      rw [presence_of_ne_null hsettled.2, Option.map_some, hsettled.1]
  | variableKind kind =>
    change ((VariableKind.ofName? kind.name).map FieldValue.variableKind) = _
    rw [VariableKind.ofName?_name, Option.map_some]
  | _ => rfl

namespace FieldSpec

/-- A field that holds its default may be missing. What is read for a missing field is this default,
so leaving it out in writing loses nothing. -/
theorem absent?_of_isDefault {ν : Type} {spec : FieldSpec} {value : FieldValue ν}
    (htype : value.type = spec.type) (h : value.isDefault spec.default = true) :
    spec.absent? = some value := by
  obtain ⟨name, type, default, hidden, otherName⟩ := spec
  change value.type = type at htype
  subst htype
  change value.isDefault default = true at h
  unfold FieldValue.isDefault at h
  split at h
  case h_5 value => cases value <;> first | rfl | cases h
  case h_6 value => cases value <;> first | rfl | cases h
  case h_7 => cases h
  all_goals rfl

/-- **A field is read back from its member**, or from the lack of one. Whether the member is left
out is decided by the writer; the reader needs no word about that, by `absent?_of_isDefault`. -/
theorem read?_member? {spec : FieldSpec} {value : FieldValue Json} (htype : value.type = spec.type)
    (hsettled : value.Settled) (hinner : ∀ part ∈ value.inner, part ≠ .null) :
    spec.read? ((spec.member? value).map Prod.snd) = some value := by
  unfold member?
  split
  next h => exact absent?_of_isDefault htype (Bool.and_eq_true_iff.1 h).2
  next =>
    rw [Option.map_some, read?, ← htype]
    exact FieldType.ofJson?_toJson hsettled hinner

/-- The member that is written for a field bears the name of the field, and not one of the other
names under which it may be read. -/
theorem fst_of_mem_member? {spec : FieldSpec} {value : FieldValue Json} {member : String × Json}
    (h : member ∈ spec.member? value) : member = (spec.name, value.toJson) := by
  unfold member? at h
  split at h
  · cases h
  · exact (Option.some.inj h).symm

/-- What is read for a field is of its type, from a member and from the lack of one. -/
theorem type_of_read? {spec : FieldSpec} {written : Option Json} {value : FieldValue Json}
    (h : spec.read? written = some value) : value.type = spec.type := by
  obtain ⟨name, type, default, hidden, otherName⟩ := spec
  cases written with
  | none =>
    change absent? _ = _ at h
    unfold absent? at h
    split at h <;> cases h <;> simp_all [FieldValue.type]
  | some json =>
    change type.ofJson? json = _ at h
    unfold FieldType.ofJson? at h
    split at h
    case h_11 =>
      obtain ⟨_, -, rfl⟩ := Option.map_eq_some_iff.1 h
      rfl
    case h_12 => cases h
    all_goals
      cases h
      rfl

/-- A value that may be missing is settled as it is read, and `null` is not kept. It stands
apart from the other types of fields, because here it has to be asked what the settled value
looks like. -/
theorem settled_maybeJson (json : Json) :
    (FieldValue.maybeJson ((FieldType.presence json).map Json.settle) :
      FieldValue Json).Settled := by
  cases json with
  | null => trivial
  | array items => exact ⟨Json.settle_settle _, by rw [Json.settle_array]; rintro ⟨⟩⟩
  | object members => exact ⟨Json.settle_settle _, by rw [Json.settle_object]; rintro ⟨⟩⟩
  | _ => exact ⟨Json.settle_settle _, by rw [Json.settle_of_scalar rfl]; rintro ⟨⟩⟩

/-- What is read for a field is settled, also where the member was not. So the condition of
`read?_member?` is met by everything that has been read. -/
theorem settled_of_read? {spec : FieldSpec} {written : Option Json} {value : FieldValue Json}
    (h : spec.read? written = some value) : value.Settled := by
  cases written with
  | none =>
    change spec.absent? = _ at h
    unfold absent? at h
    split at h <;> cases h <;> trivial
  | some json =>
    change spec.type.ofJson? json = _ at h
    unfold FieldType.ofJson? at h
    split at h
    case h_9 =>
      cases h
      exact Json.settle_settle _
    case h_10 =>
      cases h
      exact settled_maybeJson _
    case h_11 =>
      obtain ⟨_, -, rfl⟩ := Option.map_eq_some_iff.1 h
      trivial
    case h_12 => cases h
    all_goals
      cases h
      trivial

end FieldSpec

/-! ## Records -/

namespace Kind

/-- Every kind is found by its name, since no two of them share one. -/
theorem ofName?_name (kind : Kind) : ofName? kind.name = some kind := by
  cases kind <;> rfl

/-- No two fields of a kind share a name, and none is named like the kind. Everything that is proved
about reading members in any order rests on this property of the table. -/
theorem nodup_names (kind : Kind) : (kindMember :: kind.fields.flatMap FieldSpec.names).Nodup := by
  cases kind <;> decide

end Kind

namespace Record

/-- Every member that is written is that of one of the fields, with its name and its value. -/
theorem name_mem_of_mem_members {entries : List (FieldSpec × FieldValue Json)}
    {member : String × Json}
    (h : member ∈ entries.filterMap fun entry => entry.1.member? entry.2) :
    ∃ entry ∈ entries, member = (entry.1.name, entry.2.toJson) := by
  obtain ⟨entry, hentry, hmember⟩ := List.mem_filterMap.1 h
  exact ⟨entry, hentry, FieldSpec.fst_of_mem_member? hmember⟩

/-- **What is found under the names of a field is its own member.** No other field writes one under
any of these names, which is more than that the names of fields differ: a field may be read under
several names. -/
theorem filter_members {entries : List (FieldSpec × FieldValue Json)}
    (h : (entries.flatMap (·.1.names)).Nodup) {entry : FieldSpec × FieldValue Json}
    (hmem : entry ∈ entries) :
    (entries.filterMap fun entry => entry.1.member? entry.2).filter (·.1 ∈ entry.1.names) =
      (entry.1.member? entry.2).toList := by
  induction entries with
  | nil => cases hmem
  | cons first entries ih =>
    rw [List.flatMap_cons, List.nodup_append] at h
    obtain ⟨-, hrest, hapart⟩ := h
    have hsplit : (first :: entries).filterMap (fun entry => entry.1.member? entry.2) =
        (first.1.member? first.2).toList ++
          entries.filterMap (fun entry => entry.1.member? entry.2) := by
      rw [List.filterMap_cons]
      cases first.1.member? first.2 <;> rfl
    rw [hsplit, List.filter_append]
    -- The names of two fields are apart, so only one of the two parts has members of the field.
    rcases List.mem_cons.1 hmem with rfl | hmem
    · have hown : ((entry.1.member? entry.2).toList.filter (·.1 ∈ entry.1.names)) =
          (entry.1.member? entry.2).toList := by
        refine List.filter_eq_self.2 fun member hmember => decide_eq_true ?_
        rw [FieldSpec.fst_of_mem_member? (Option.mem_toList.1 hmember)]
        exact List.mem_cons_self
      have hother : ((entries.filterMap fun entry => entry.1.member? entry.2).filter
          (·.1 ∈ entry.1.names)) = [] := by
        refine List.filter_eq_nil_iff.2 fun member hmember hname => ?_
        obtain ⟨other, hother, rfl⟩ := name_mem_of_mem_members hmember
        exact hapart _ (of_decide_eq_true hname) _
          (List.mem_flatMap.2 ⟨other, hother, List.mem_cons_self⟩) rfl
      rw [hown, hother, List.append_nil]
    · have hfirst : ((first.1.member? first.2).toList.filter (·.1 ∈ entry.1.names)) = [] := by
        refine List.filter_eq_nil_iff.2 fun member hmember hname => ?_
        rw [FieldSpec.fst_of_mem_member? (Option.mem_toList.1 hmember)] at hname
        exact hapart _ List.mem_cons_self _
          (List.mem_flatMap.2 ⟨entry, hmem, of_decide_eq_true hname⟩) rfl
      rw [hfirst, List.nil_append, ih hrest hmem]

variable {record : Record Json}

/-- The fields of a record with their values. For a record that has the types of its kind there is
one value for each field, so nothing is cut off by this. -/
def entries (record : Record Json) : List (FieldSpec × FieldValue Json) :=
  record.kind.fields.zip record.values

/-- The values of a record are of the types that its kind asks for. All records of nodes are such,
and a record that is such is one of a node. -/
def HasTypes {ν : Type} (record : Record ν) : Prop :=
  record.values.map FieldValue.type = record.kind.fields.map FieldSpec.type

/-- There is one value for each field, no more and no fewer, since the two lists of types are
one. -/
theorem HasTypes.length_eq {ν : Type} {record : Record ν} (h : record.HasTypes) :
    record.values.length = record.kind.fields.length := by
  have hlength := congrArg List.length h
  rwa [List.length_map, List.length_map] at hlength

/-- Taking the fields with their values and then the fields alone gives the fields of the kind,
since there are enough values. -/
theorem HasTypes.map_fst_entries (h : record.HasTypes) :
    record.entries.map Prod.fst = record.kind.fields :=
  List.map_fst_zip (Nat.le_of_eq h.length_eq.symm)

/-- Taking the fields with their values and then the values alone gives the values, since there are
enough fields. -/
theorem HasTypes.map_snd_entries (h : record.HasTypes) :
    record.entries.map Prod.snd = record.values :=
  List.map_snd_zip (Nat.le_of_eq h.length_eq)

theorem HasTypes.type_eq (h : record.HasTypes) {entry : FieldSpec × FieldValue Json}
    (hmem : entry ∈ record.entries) : entry.2.type = entry.1.type := by
  obtain ⟨place, hplace, rfl⟩ := List.getElem_of_mem hmem
  have hvalues : place < record.values.length := List.lt_length_right_of_zip hplace
  have hfields : place < record.kind.fields.length := List.lt_length_left_of_zip hplace
  have heq := List.getElem_of_eq h (i := place) (by rwa [List.length_map])
  rw [List.getElem_map, List.getElem_map] at heq
  simp only [entries, List.getElem_zip]
  exact heq

/-- The names of the fields are apart in a record, as they are in its kind. The form of
`Kind.nodup_names` that `filter_members` asks for. -/
theorem HasTypes.nodup_names (h : record.HasTypes) :
    (record.entries.flatMap (·.1.names)).Nodup := by
  have hnodup := (List.nodup_cons.1 record.kind.nodup_names).2
  rwa [← h.map_fst_entries, List.flatMap_map] at hnodup

/-- The fields of an object of members are found, and nothing is left over, since every member that
is written is that of a field. So what is read is the record itself. -/
theorem ofGiven?_members (htypes : record.HasTypes)
    (hsettled : ∀ value ∈ record.values, value.Settled)
    (hinner : ∀ part ∈ record.inner, part ≠ .null) :
    ofGiven? record.kind (.named record.members) = some record := by
  have hown : ∀ entry ∈ record.entries, record.members.filter (·.1 ∈ entry.1.names) =
      (entry.1.member? entry.2).toList := fun entry hmem =>
    filter_members htypes.nodup_names hmem
  have hexcess : (Given.named record.members).isExcessive record.kind.fields = false := by
    rw [← htypes.map_fst_entries]
    refine List.any_eq_false.2 fun spec hspec => ?_
    obtain ⟨entry, hentry, rfl⟩ := List.mem_map.1 hspec
    rw [hown entry hentry]
    cases entry.1.member? entry.2 <;> simp
  -- Each field finds its own member, or none if that has been left out, and reads its value from
  -- it.
  have hread : ((Given.named record.members).perField record.kind.fields).mapM
      (fun entry => entry.1.read? entry.2) = some record.values := by
    rw [← htypes.map_fst_entries, Given.perField, List.map_map, List.mapM_map,
      ← htypes.map_snd_entries]
    refine mapM_eq_some_map fun entry hentry => ?_
    have hvalue : entry.2 ∈ record.values := (List.of_mem_zip hentry).2
    have hfind : record.members.find? (·.1 ∈ entry.1.names) = entry.1.member? entry.2 := by
      rw [← List.head?_filter, hown entry hentry]
      cases entry.1.member? entry.2 <;> rfl
    change entry.1.read? ((record.members.find? (·.1 ∈ entry.1.names)).map Prod.snd) = _
    rw [hfind]
    exact FieldSpec.read?_member? (htypes.type_eq hentry) (hsettled _ hvalue)
      fun part hpart => hinner part (List.mem_flatMap.2 ⟨_, hvalue, hpart⟩)
  rw [ofGiven?, hexcess, if_neg Bool.false_ne_true, hread]
  rfl

/-- No member that is written for a field bears the name under which the kind is written. So the
kind is found in an object, wherever its member stands. -/
theorem ne_kindMember_of_mem_members (record : Record Json) :
    ∀ member ∈ record.members, member.1 ≠ kindMember := by
  intro member hmem hname
  obtain ⟨entry, hentry, rfl⟩ := name_mem_of_mem_members hmem
  have hkind := (List.nodup_cons.1 record.kind.nodup_names).1
  refine hkind (List.mem_flatMap.2 ⟨entry.1, (List.of_mem_zip hentry).1, ?_⟩)
  rw [← hname]
  exact List.mem_cons_self

/-- The kind of a record is found in its JSON form, and then its members are what is given for the
fields. Reading a record is so cut in two: the kind is settled here. -/
theorem ofJson?_toJson_eq (record : Record Json) :
    ofJson? record.toJson = ofGiven? record.kind (.named record.members) := by
  have hnames := record.ne_kindMember_of_mem_members
  have hkind : ((kindMember, Json.string record.kind.name) :: record.members).filter
      (·.1 = kindMember) = [(kindMember, .string record.kind.name)] := by
    rw [List.filter_cons_of_pos (by simp), List.filter_eq_nil_iff.2]
    exact fun member hmem heq => hnames member hmem (of_decide_eq_true heq)
  have hothers : ((kindMember, Json.string record.kind.name) :: record.members).filter
      (·.1 ≠ kindMember) = record.members := by
    rw [List.filter_cons_of_neg (by simp), List.filter_eq_self]
    exact fun member hmem => decide_eq_true (hnames member hmem)
  rw [toJson, ofJson?]
  simp only [hkind, hothers, Kind.ofJson?, Kind.ofName?_name]
  rfl

/-- **A record is read back from its JSON form**, whatever its kind. The parts of it are still JSON
values here, so this is one layer of a tree and needs no induction. -/
theorem ofJson?_toJson (htypes : record.HasTypes)
    (hsettled : ∀ value ∈ record.values, value.Settled)
    (hinner : ∀ part ∈ record.inner, part ≠ .null) : ofJson? record.toJson = some record := by
  rw [ofJson?_toJson_eq, ofGiven?_members htypes hsettled hinner]

end Record

end DefineWrap
