/-
The order of members does not matter, nor do members that a node does not know.

A JSON value is read as a node one layer at a time, and what is written for a field is found by
its name, or by its place in an array. So an object that is read as a node may have its members
in any order and further members under names that its kind does not know, wherever it stands in
the value (`Rearranged`): inside the field of a node that holds nodes, and that again in one, but
not inside a value that is kept as it is.

One layer is a row of fields, each of which is read by itself (`FieldSpec.decode?`). Two ways of
writing the fields of a kind are read alike if each field is (`Record.decode?_of_alike`). So both
the rearranged object and the layers around it are settled field by field.
-/
import DefineWrap.Proofs.Estree.Codec
import DefineWrap.Proofs.Estree.Reading

set_option autoImplicit false

namespace DefineWrap

/-! ## One field at a time -/

/-- Passing over a list twice is passing over it once. A field is read in two steps, first as JSON
and then its nodes, and by this both are taken for one field before the next. -/
theorem mapM_bind_mapM {α β γ : Type} (f : α → Option β) (g : β → Option γ) (items : List α) :
    (items.mapM f).bind (·.mapM g) = items.mapM fun item => (f item).bind g := by
  induction items with
  | nil => rfl
  | cons item items ih =>
    simp only [List.mapM_cons, Option.bind_eq_bind, Option.pure_def, ← ih]
    cases f item with
    | none => rfl
    | some first =>
      cases items.mapM f with
      | none => simp only [Option.bind_some, Option.bind_none, Option.bind_fun_none]
      | some others =>
        simp only [Option.bind_some, List.mapM_cons, Option.bind_eq_bind, Option.pure_def]

/-- At most one item has only one order. A name that is found at most once is found the same
whatever the order of the members is. -/
theorem eq_of_perm_of_length {α : Type} {items others : List α} (h : others.Perm items)
    (hlength : items.length ≤ 1) : others = items := by
  match items, hlength with
  | [], _ => exact List.perm_nil.1 h
  | [_], _ => exact List.perm_singleton.1 h

/-- What is picked from a list stays, up to the order, if nothing that is added is picked. -/
theorem filter_perm_of_perm {α : Type} {p : α → Bool} {items added others : List α}
    (h : (items ++ added).Perm others) (hadded : ∀ item ∈ added, ¬ p item) :
    (others.filter p).Perm (items.filter p) := by
  have hfilter := h.symm.filter p
  rwa [List.filter_append, List.filter_eq_nil_iff.2 hadded, List.append_nil] at hfilter

/-- A field with the nodes inside it, from what is written for it. It does not depend on the other
fields, so fields can be compared one by one. -/
def FieldSpec.decode? (spec : FieldSpec) (written : Option Json) : Option (FieldValue Node) :=
  (spec.read? written).bind (·.traverse Node.ofJson?)

/-- The fields of a kind, each from what is written for it. A failure is kept in its place, since
what is compared is the whole row. -/
def Given.decoded (given : Given) (fields : List FieldSpec) : List (Option (FieldValue Node)) :=
  (given.perField fields).map fun entry => entry.1.decode? entry.2

namespace Record

/-- A node is read by its fields: nothing may be left over, each field has to be read, and then they
are put together. -/
theorem decode?_eq (kind : Kind) (given : Given) :
    decode? kind given = if given.isExcessive kind.fields then none else
      ((given.decoded kind.fields).mapM id).bind fun values => Node.ofRecord? ⟨kind, values⟩ := by
  rw [decode?, ofGiven?]
  split
  · rfl
  · have htraverse : ∀ values, Node.ofJsonRecord? ⟨kind, values⟩ =
        (values.mapM (FieldValue.traverse Node.ofJson?)).bind
          fun values => Node.ofRecord? ⟨kind, values⟩ := by
      intro values
      rw [Node.ofJsonRecord?, traverse, Option.bind_map]
      rfl
    rw [Option.bind_map, Given.decoded, List.mapM_map]
    change Option.bind _ (fun values => Node.ofJsonRecord? ⟨kind, values⟩) = _
    simp only [htraverse]
    rw [← Option.bind_assoc, mapM_bind_mapM]
    rfl

/-- Two ways of writing the fields of a kind are read alike if each field is. The fields need not
agree if something is left over, because then neither of the two is read. -/
theorem decode?_of_alike {kind : Kind} {given other : Given}
    (hexcessive : other.isExcessive kind.fields = given.isExcessive kind.fields)
    (hfields : given.isExcessive kind.fields = false →
      other.decoded kind.fields = given.decoded kind.fields) :
    decode? kind other = decode? kind given := by
  rw [decode?_eq, decode?_eq, hexcessive]
  cases h : given.isExcessive kind.fields with
  | true => rfl
  | false => rw [hfields h]

end Record

/-! ## Members by name -/

namespace Kind

/-- The names that mean something in an object of a kind. Members of all other names are passed
over. -/
def names (kind : Kind) : List String := kindMember :: kind.fields.flatMap FieldSpec.names

/-- A name leads to one field only. Checked on the table for every kind; it would fail if a second
name of a field were the name of another. -/
theorem eq_of_mem_names (kind : Kind) : ∀ spec ∈ kind.fields, ∀ other ∈ kind.fields,
    ∀ name ∈ spec.names, name ∈ other.names → other = spec := by
  cases kind <;> decide

end Kind

namespace Record

variable {kind : Kind}

/-- What is written for a field in an object is the first member that has one of its names. -/
theorem decoded_named (members : List (String × Json)) :
    (Given.named members).decoded kind.fields = kind.fields.map fun spec =>
      spec.decode? ((members.find? (·.1 ∈ spec.names)).map Prod.snd) := by
  rw [Given.decoded, Given.perField, List.map_map]
  rfl

/-- Something is left over in an object if there are two members for one field. The order of them
does not count. -/
theorem isExcessive_named (members : List (String × Json)) :
    (Given.named members).isExcessive kind.fields =
      (kind.fields.map fun spec => (members.filter (·.1 ∈ spec.names)).length).any (1 < ·) := by
  rw [List.any_map]
  rfl

/-- **Members are read alike in any order**, and with others that the kind does not know. Where a
field has two members both orders are refused, and otherwise there is one member at most and so
nothing to order. -/
theorem decode?_named_of_perm {members added others : List (String × Json)}
    (hperm : (members ++ added).Perm others)
    (hadded : ∀ member ∈ added, ∀ spec ∈ kind.fields, member.1 ∉ spec.names) :
    decode? kind (.named others) = decode? kind (.named members) := by
  have hown : ∀ spec ∈ kind.fields,
      (others.filter (·.1 ∈ spec.names)).Perm (members.filter (·.1 ∈ spec.names)) :=
    fun spec hspec => filter_perm_of_perm hperm fun member hmember hname =>
      hadded member hmember spec hspec (of_decide_eq_true hname)
  refine decode?_of_alike ?_ fun hsingle => ?_
  · rw [isExcessive_named, isExcessive_named]
    exact congrArg (List.any · _)
      (List.map_congr_left fun spec hspec => (hown spec hspec).length_eq)
  · rw [decoded_named, decoded_named]
    refine List.map_congr_left fun spec hspec => ?_
    -- Nothing is written twice for the field, so there is only one order.
    have hlength : ¬ 1 < (members.filter (·.1 ∈ spec.names)).length := fun htwice =>
      List.any_eq_false.1 hsingle spec hspec (decide_eq_true htwice)
    rw [← List.head?_filter, ← List.head?_filter,
      eq_of_perm_of_length (hown spec hspec) (Nat.le_of_not_lt hlength)]

/-- A field is read alike if the value of its member is. The names are kept, so what is found for
the other fields is not touched. -/
theorem decode?_named_replaced {before after : List (String × Json)} {name : String}
    {value other : Json} {spec : FieldSpec} (hspec : spec ∈ kind.fields) (hname : name ∈ spec.names)
    (hvalue : spec.decode? (some other) = spec.decode? (some value)) :
    decode? kind (.named (before ++ (name, other) :: after)) =
      decode? kind (.named (before ++ (name, value) :: after)) := by
  refine decode?_of_alike ?_ fun _ => ?_
  · rw [isExcessive_named, isExcessive_named]
    refine congrArg (List.any · _) (List.map_congr_left fun found _ => ?_)
    rw [List.filter_append, List.filter_append, List.filter_cons, List.filter_cons]
    split <;> simp only [List.length_append, List.length_cons]
  · rw [decoded_named, decoded_named]
    refine List.map_congr_left fun found hfound => ?_
    rw [List.find?_append, List.find?_append]
    cases before.find? (·.1 ∈ found.names) with
    | some member => rfl
    | none =>
      by_cases hown : name ∈ found.names
      · obtain rfl := kind.eq_of_mem_names spec hspec found hfound name hname hown
        simpa [hown] using hvalue
      · simp [hown]

/-- A field is read alike if the item at its place is. As many items stand before and behind it, so
all other places are what they were. -/
theorem decode?_placed_replaced {before after : List Json} {value other : Json} {spec : FieldSpec}
    (hspec : kind.fields[before.length]? = some spec)
    (hvalue : spec.decode? (some other) = spec.decode? (some value)) :
    decode? kind (.placed (before ++ other :: after)) =
      decode? kind (.placed (before ++ value :: after)) := by
  refine decode?_of_alike ?_ fun _ => ?_
  · simp only [Given.isExcessive, List.length_append, List.length_cons]
  · rw [Given.decoded, Given.decoded, Given.perField, Given.perField, List.map_map, List.map_map]
    refine List.map_congr_left fun entry hmem => ?_
    obtain ⟨found, place⟩ := entry
    have hfound : kind.fields[place]? = some found := List.mem_zipIdx_iff_getElem?.1 hmem
    change found.decode? ((before ++ other :: after)[place]?) =
      found.decode? ((before ++ value :: after)[place]?)
    rcases Nat.lt_trichotomy place before.length with hbefore | rfl | hafter
    · rw [List.getElem?_append_left hbefore, List.getElem?_append_left hbefore]
    · obtain rfl := Option.some.inj (hspec.symm.trans hfound)
      rw [List.getElem?_append_right (Nat.le_refl _), List.getElem?_append_right (Nat.le_refl _),
        Nat.sub_self]
      exact hvalue
    · rw [List.getElem?_append_right (Nat.le_of_lt hafter),
        List.getElem?_append_right (Nat.le_of_lt hafter)]
      obtain ⟨more, hmore⟩ := Nat.exists_eq_add_of_lt hafter
      rw [show place - before.length = more + 1 by omega, List.getElem?_cons_succ,
        List.getElem?_cons_succ]

end Record

namespace Node

/-- Two objects are read alike if they have the same tags and the fields of the kind that one of the
tags names are read alike. If there is a second tag both are refused. -/
theorem ofJson?_object_of_alike {kind : Kind} {tag : Json} {members others : List (String × Json)}
    (htag : (kindMember, tag) ∈ members) (hkind : Kind.ofJson? tag = some kind)
    (htags : (others.filter (·.1 = kindMember)).Perm (members.filter (·.1 = kindMember)))
    (hfields : Record.decode? kind (.named (others.filter (·.1 ≠ kindMember))) =
      Record.decode? kind (.named (members.filter (·.1 ≠ kindMember)))) :
    ofJson? (.object others) = ofJson? (.object members) := by
  have hmem : (kindMember, tag) ∈ members.filter (·.1 = kindMember) :=
    List.mem_filter.2 ⟨htag, decide_eq_true rfl⟩
  rw [ofJson?_object, ofJson?_object]
  generalize members.filter (·.1 = kindMember) = tags at htags hmem
  generalize others.filter (·.1 = kindMember) = otherTags at htags
  match tags, htags with
  | [], _ => cases hmem
  | [_], htags =>
    obtain rfl := List.perm_singleton.1 htags
    obtain rfl := List.mem_singleton.1 hmem
    dsimp only
    rw [hkind, Option.bind_some, Option.bind_some, hfields]
  | _ :: _ :: _, htags =>
    -- A node that names its kind twice is none.
    match otherTags, htags.length_eq with
    | _ :: _ :: _, _ => rfl

end Node

/-! ## Where nodes stand in a value -/

/-- The places in a value of a type where a node stands, each as what is around it. A place is a
function, so the same place can be filled with the one value and with the other. -/
inductive FieldType.Holds : FieldType → (Json → Json) → Prop
  | node : Holds .node fun part => part
  | maybeNode : Holds .maybeNode fun part => part
  | nodes (before after : List Json) : Holds .nodes fun part => .array (before ++ part :: after)
  | holes (before after : List Json) : Holds .holes fun part => .array (before ++ part :: after)

/-- A value of a type is read alike if the node in it is. It must not be `null` on either side,
since where a node may be missing this would be read as none. -/
theorem FieldType.Holds.ofJson?_alike {type : FieldType} {place : Json → Json}
    (hplace : type.Holds place) {part other : Json} (hpart : part ≠ .null)
    (hother : other ≠ .null) (h : Node.ofJson? other = Node.ofJson? part) :
    (type.ofJson? (place other)).bind (·.traverse Node.ofJson?) =
      (type.ofJson? (place part)).bind (·.traverse Node.ofJson?) := by
  cases hplace with
  | node => simp only [ofJson?, Option.bind_some, FieldValue.traverse, h]
  | maybeNode =>
    simp only [ofJson?, presence_of_ne_null hpart, presence_of_ne_null hother,
      Option.bind_some, FieldValue.traverse, h]
  | nodes before after =>
    simp only [ofJson?, Option.bind_some, FieldValue.traverse, List.mapM_append, List.mapM_cons, h]
  | holes before after =>
    simp only [ofJson?, Option.bind_some, FieldValue.traverse, List.map_append, List.map_cons,
      List.mapM_append, List.mapM_cons, presence_of_ne_null hpart,
      presence_of_ne_null hother, h]

/-- One JSON value is another one in which one object that is read as a node has its members in
another order, and further members that its kind does not know. -/
inductive Rearranged : Json → Json → Prop
  /-- The object itself is read as a node. -/
  | members {kind : Kind} {tag : Json} {members added others : List (String × Json)}
    (htag : (kindMember, tag) ∈ members) (hkind : Kind.ofJson? tag = some kind)
    (hadded : ∀ member ∈ added, member.1 ∉ kind.names)
    (hperm : (members ++ added).Perm others) :
    Rearranged (.object members) (.object others)
  /-- The object stands in a field of an object that is read as a node. -/
  | member {kind : Kind} {tag : Json} {before after : List (String × Json)} {name : String}
    {spec : FieldSpec} {place : Json → Json} {part other : Json}
    (htag : (kindMember, tag) ∈ before ++ after) (hkind : Kind.ofJson? tag = some kind)
    (hspec : spec ∈ kind.fields) (hname : name ∈ spec.names) (hplace : spec.type.Holds place)
    (hpart : Rearranged part other) :
    Rearranged (.object (before ++ (name, place part) :: after))
      (.object (before ++ (name, place other) :: after))
  /-- The object stands in a field of an array that is read as a node. -/
  | item {kind : Kind} {tag : Json} {before after : List Json} {spec : FieldSpec}
    {place : Json → Json} {part other : Json} (hkind : Kind.ofJson? tag = some kind)
    (hspec : kind.fields[before.length]? = some spec) (hplace : spec.type.Holds place)
    (hpart : Rearranged part other) :
    Rearranged (.array (tag :: before ++ place part :: after))
      (.array (tag :: before ++ place other :: after))

theorem filter_kind_of_perm {members added others : List (String × Json)}
    (hperm : (members ++ added).Perm others) (hadded : ∀ member ∈ added, member.1 ≠ kindMember) :
    (others.filter (·.1 = kindMember)).Perm (members.filter (·.1 = kindMember)) :=
  filter_perm_of_perm hperm fun member hmember hname =>
    hadded member hmember (of_decide_eq_true hname)

/-- A member of another name does not give the kind, whatever its value is. -/
theorem filter_kind_replaced {before after : List (String × Json)} {name : String}
    (hname : name ≠ kindMember) (value : Json) :
    (before ++ (name, value) :: after).filter (·.1 = kindMember) =
      (before ++ after).filter (·.1 = kindMember) := by
  rw [List.filter_append, List.filter_cons_of_neg (by simpa using hname), List.filter_append]

theorem Kind.ne_kindMember_of_mem_names {kind : Kind} {spec : FieldSpec} {name : String}
    (hspec : spec ∈ kind.fields) (hname : name ∈ spec.names) : name ≠ kindMember := fun heq =>
  (List.nodup_cons.1 kind.nodup_names).1 (List.mem_flatMap.2 ⟨spec, hspec, heq ▸ hname⟩)

namespace Rearranged

variable {value other : Json}

/-- A value that is rearranged is an object or an array, and stays one. -/
theorem ne_null (h : Rearranged value other) : value ≠ .null ∧ other ≠ .null := by
  cases h <;> exact ⟨nofun, nofun⟩

/-- **A rearranged value is read alike.** By induction over the way to the object that is
rearranged: there by its members, and in each layer around it by the one field in which the way goes
on. -/
theorem ofJson?_eq (h : Rearranged value other) : Node.ofJson? other = Node.ofJson? value := by
  -- One case for a new order at the node itself, and one for each way to a node inside that is read
  -- alike: by a member and by an item.
  induction h with
  | @members kind tag members added others htag hkind hadded hperm =>
    have hfields := hperm.filter (·.1 ≠ kindMember)
    rw [List.filter_append] at hfields
    refine Node.ofJson?_object_of_alike htag hkind
      (filter_kind_of_perm hperm fun member hmember =>
        List.ne_of_not_mem_cons (hadded member hmember))
      (Record.decode?_named_of_perm hfields fun member hmember spec hspec hname => ?_)
    exact hadded member (List.mem_filter.1 hmember).1
      (List.mem_cons_of_mem _ (List.mem_flatMap.2 ⟨spec, hspec, hname⟩))
  | @member kind tag before after name spec place part other htag hkind hspec hname hplace hpart
      ih =>
    have halike := hplace.ofJson?_alike hpart.ne_null.1 hpart.ne_null.2 ih
    have hfield := Kind.ne_kindMember_of_mem_names hspec hname
    have hmem : (kindMember, tag) ∈ before ++ (name, place part) :: after :=
      List.mem_append.2 ((List.mem_append.1 htag).imp_right (List.mem_cons_of_mem _))
    have hfields : ∀ value, (before ++ (name, value) :: after).filter (·.1 ≠ kindMember) =
        before.filter (·.1 ≠ kindMember) ++ (name, value) :: after.filter (·.1 ≠ kindMember) :=
      fun value => by
        rw [List.filter_append, List.filter_cons_of_pos (by simpa using hfield)]
    refine Node.ofJson?_object_of_alike hmem hkind ?_ ?_
    · rw [filter_kind_replaced hfield, filter_kind_replaced hfield]
    · rw [hfields, hfields]
      exact Record.decode?_named_replaced hspec hname halike
  | item hkind hspec hplace hpart ih =>
    have halike := hplace.ofJson?_alike hpart.ne_null.1 hpart.ne_null.2 ih
    rw [List.cons_append, List.cons_append, Node.ofJson?_array, Node.ofJson?_array, hkind,
      Option.bind_some, Option.bind_some]
    exact Record.decode?_placed_replaced hspec halike

/-- The kind is spelled in both values or in none of them, because what gives the kind of the
outermost node is the same in both. -/
theorem spellsKind_eq (h : Rearranged value other) :
    Node.spellsKind other = Node.spellsKind value := by
  cases h with
  | members htag hkind hadded hperm =>
    exact (filter_kind_of_perm hperm fun member hmember =>
      List.ne_of_not_mem_cons (hadded member hmember)).all_eq
  | member htag hkind hspec hname hplace hpart =>
    have hfield := Kind.ne_kindMember_of_mem_names hspec hname
    rw [Node.spellsKind, Node.spellsKind, filter_kind_replaced hfield, filter_kind_replaced hfield]
  | item => rfl

end Rearranged

/-- **The order of members does not matter, nor do members that a node does not know.** A JSON
value, and the same in which an object that is read as a node has its members in another order
and further members that its kind does not know, are read as the same node, and so are the texts
of the two. -/
theorem Node.read_rearranged {value other : Json} (h : Rearranged value other) :
    ofJson? other = ofJson? value ∧
    ∀ text otherText, Json.parse text = .ok value → Json.parse otherText = .ok other →
      ∀ node, parse otherText = .ok node ↔ parse text = .ok node := by
  refine ⟨h.ofJson?_eq, fun text otherText htext hother node => ?_⟩
  have hsame : ofSpelled? other = ofSpelled? value := by
    rw [ofSpelled?, ofSpelled?, h.spellsKind_eq, h.ofJson?_eq]
  rw [← Except.toOption_eq_some_iff, ← Except.toOption_eq_some_iff, toOption_parse hother,
    toOption_parse htext, hsame]

/-- The text of `await a`, with the kinds where they are usually written. -/
def kindFirst : String :=
  "\x7b\"type\":\"AwaitExpression\",\"argument\":\x7b\"type\":\"Identifier\",\"name\":\"a\"\x7d\x7d"

/-- The same with a position in the identifier, and its kind last. -/
def kindLast : String :=
  "\x7b\"type\":\"AwaitExpression\",\"argument\":" ++
    "\x7b\"start\":6,\"name\":\"a\",\"type\":\"Identifier\"\x7d\x7d"

/-- One identifier deep in a text has its kind last and its position in the text as a further
member, and the whole is still read as `await a`. -/
theorem Node.read_rearranged_kindLast :
    ∃ value other, Rearranged value other ∧ Json.parse kindFirst = .ok value ∧
      Json.parse kindLast = .ok other ∧ ofJson? other = ofJson? value ∧
      parse kindLast = .ok (.awaitExpression (.identifier "a")) := by
  have hadded : ∀ member ∈ [("start", Json.number (.integer 6))],
      member.1 ∉ Kind.identifier.names := List.forall_mem_singleton.2 (by decide)
  -- Only the identifier is rearranged. The other node has it as the member of a field.
  have hpart : Rearranged (.object [("type", .string "Identifier"), ("name", .string "a")])
      (.object [("start", .number (.integer 6)), ("name", .string "a"),
        ("type", .string "Identifier")]) :=
    .members List.mem_cons_self (by rfl) hadded (List.reverse_perm _).symm
  have htag : ("type", Json.string "AwaitExpression") ∈
      [("type", .string "AwaitExpression")] ++ [] := List.mem_cons_self
  have hplace : FieldType.Holds .node fun part => part := .node
  have h := Rearranged.member htag (by rfl : _ = some Kind.awaitExpression) List.mem_cons_self
    List.mem_cons_self hplace hpart
  have hargument : ofJson? (.object [("type", .string "Identifier"), ("name", .string "a")]) =
      some (.identifier "a") := by
    rw [ofJson?_eq]
    rfl
  have hfirst : Json.parse kindFirst = .ok (.object [("type", .string "AwaitExpression"),
      ("argument", .object [("type", .string "Identifier"), ("name", .string "a")])]) := by rfl
  have hnode : parse kindFirst = .ok (.awaitExpression (.identifier "a")) := by
    refine Except.toOption_eq_some_iff.1 ((toOption_parse hfirst).trans ?_)
    change ofJson? _ = _
    rw [ofJson?_eq]
    change ofJsonRecord? ⟨.awaitExpression, [.node _]⟩ = _
    simp only [ofJsonRecord?, Record.traverse, List.mapM_cons, List.mapM_nil, FieldValue.traverse,
      hargument]
    rfl
  obtain ⟨hsame, htexts⟩ := read_rearranged h
  exact ⟨_, _, h, hfirst, by rfl, hsame, (htexts kindFirst kindLast hfirst (by rfl) _).2 hnode⟩

end DefineWrap
