/-
Programs are read back from their texts.

What is read from a text nests within the text, up to one level, and is read back from its own
JSON form (`Node.keeps_read`). Where numbers are integers of at most 64 bits, the text of a
JSON form is split into the tokens of the form in both layouts, and from these tokens the
program is read (`Program.read_reads`). So a program that has been read from a text is read
back from the text that is written for it, unless the text nests to the very limit.
-/
import DefineWrap.Estree.Text
import DefineWrap.Proofs.Estree.Codec
import DefineWrap.Proofs.Json.ReadingBack

set_option autoImplicit false

namespace DefineWrap

open Reader Token

namespace Kind

/-- Reading a kind goes no deeper into the text, since the kind is a string. -/
theorem keeps_read {opened bound : Nat} : Keeps opened bound Kind.read fun _ => True := by
  intro tokens kind rest h hfits
  obtain ⟨⟨name, more⟩, hname, h⟩ := Except.bind_ok h
  obtain ⟨-, hmore⟩ := keeps_string _ _ _ hname hfits
  dsimp only at h
  split at h <;> cases h
  exact ⟨trivial, hmore⟩

theorem read_reads (kind : Kind) : Reads Kind.read [.ofString kind.name] kind := by
  intro rest
  have hstring : Reader.string ([.ofString kind.name] ++ rest) = .ok (kind.name, rest) := rfl
  rw [read, hstring]
  simp only [bind, Except.bind, ofName?_name]
  rfl

end Kind

/-! ## Nodes -/

namespace Node

variable {opened bound : Nat}

/-- A node that has been made of what was read is that of a record. The kind was found, since
without it there is an error. -/
theorem exists_of_ofGiven? {kind : Option Kind} {given : Given} {node : Node}
    (h : ofGiven? kind given = .ok node) :
    ∃ kind record, Record.ofGiven? kind given = some record ∧ ofJsonRecord? record = some node := by
  unfold ofGiven? at h
  split at h
  next heq =>
    cases h
    obtain ⟨kind, -, heq⟩ := Option.bind_eq_some_iff.1 heq
    obtain ⟨record, hrecord, hnode⟩ := Option.bind_eq_some_iff.1 heq
    exact ⟨kind, record, hrecord, hnode⟩
  · cases h

/-- One more member keeps what is known of those before, and its own value nests within what is left
of the bound at this place. -/
theorem keeps_readMember (depth : Nat) {before : Members}
    (hbefore : ∀ member ∈ before.others, member.2.NestsWithin (bound - opened))
    (name : Lexeme String) :
    Keeps opened bound (readMember depth before name) fun after =>
      ∀ member ∈ after.others, member.2.NestsWithin (bound - opened) := by
  intro tokens after rest h hfits
  obtain ⟨name, -, h⟩ := Except.bind_ok h
  dsimp only at h
  split at h
  · split at h
    · cases h
    · obtain ⟨⟨_, more⟩, hcolon, h⟩ := Except.bind_ok h
      obtain ⟨-, hmore⟩ := keeps_colon _ _ _ hcolon hfits
      obtain ⟨⟨kind, more⟩, hkind, h⟩ := Except.bind_ok h
      cases h
      exact ⟨hbefore, (Kind.keeps_read _ _ _ hkind hmore).2⟩
  · obtain ⟨⟨_, more⟩, hcolon, h⟩ := Except.bind_ok h
    obtain ⟨-, hmore⟩ := keeps_colon _ _ _ hcolon hfits
    obtain ⟨⟨value, more⟩, hvalue, h⟩ := Except.bind_ok h
    cases h
    obtain ⟨hnests, hrest⟩ := keeps_value depth _ _ _ hvalue hmore
    exact ⟨List.forall_mem_append.2 ⟨hbefore, List.forall_mem_singleton.2 hnests⟩, hrest⟩

theorem keeps_readItem (depth : Nat) {before : Items}
    (hbefore : ∀ value ∈ before.others, value.NestsWithin (bound - opened)) :
    Keeps opened bound (readItem depth before) fun after =>
      ∀ value ∈ after.others, value.NestsWithin (bound - opened) := by
  intro tokens after rest h hfits
  unfold readItem at h
  split at h
  · obtain ⟨⟨kind, more⟩, hkind, h⟩ := Except.bind_ok h
    cases h
    exact ⟨List.forall_mem_nil _, (Kind.keeps_read _ _ _ hkind hfits).2⟩
  · obtain ⟨⟨value, more⟩, hvalue, h⟩ := Except.bind_ok h
    cases h
    obtain ⟨hnests, hrest⟩ := keeps_value depth _ _ _ hvalue hfits
    exact ⟨List.forall_mem_append.2 ⟨hbefore, List.forall_mem_singleton.2 hnests⟩, hrest⟩

/-- A node is read back from its JSON form, and the form nests within a bound. The two go together:
a form that is too deep for the reader is not read back from its text. -/
def ReadsBack (depth : Nat) (node : Node) : Prop :=
  ofJson? node.toJson = some node ∧ node.toJson.NestsWithin depth

/-- What is made of values that nest within a bound is read back. The node is one level around them,
and the second level is for lists that were missing. -/
theorem readsBack_of_ofGiven? {kind : Option Kind} {given : Given} {node : Node}
    (h : ofGiven? kind given = .ok node) {depth : Nat}
    (hdepth : ∀ value ∈ given.values, value.NestsWithin depth) : node.ReadsBack (depth + 2) := by
  obtain ⟨kind, record, hrecord, hnode⟩ := exists_of_ofGiven? h
  exact ⟨ofJson?_toJson_of_ofGiven? hrecord hnode fun _ _ _ hother => ofJson?_toJson hother,
    nestsWithin_toJson_of_ofGiven? hrecord hnode hdepth
      fun _ _ _ hother _ hpart => nestsWithin_toJson hother hpart⟩

/-- **A node that is read from a text is read back**, and what is written for it nests at most one
level deeper than the text. For the nodes inside, which are read as JSON values first, this is
`ofJson?_toJson` and `nestsWithin_toJson`. -/
theorem keeps_read (depth : Nat) :
    Keeps opened bound (Node.read depth) (ReadsBack (bound + 1 - opened)) := by
  intro tokens node rest h hfits
  unfold Node.read at h
  split at h
  · obtain ⟨⟨members, more⟩, hmembers, h⟩ := Except.bind_ok h
    obtain ⟨node, hnode, h⟩ := Except.bind_ok h
    cases h
    have hbound := hfits.openObject.opened_le
    obtain ⟨hothers, hrest⟩ := keeps_members (fun _ name hbefore => keeps_readMember _ hbefore name)
      (List.forall_mem_nil _) hmembers hfits.openObject
    refine ⟨?_, hrest⟩
    rw [show bound + 1 - opened = bound - (opened + 1) + 2 by omega]
    exact readsBack_of_ofGiven? hnode (List.forall_mem_map.2 hothers)
  · obtain ⟨⟨items, more⟩, hitems, h⟩ := Except.bind_ok h
    obtain ⟨node, hnode, h⟩ := Except.bind_ok h
    cases h
    have hbound := hfits.openArray.opened_le
    obtain ⟨hothers, hrest⟩ := keeps_items (fun _ hbefore => keeps_readItem _ hbefore)
      (List.forall_mem_nil _) hitems hfits.openArray
    refine ⟨?_, hrest⟩
    rw [show bound + 1 - opened = bound - (opened + 1) + 2 by omega]
    exact readsBack_of_ofGiven? hnode hothers
  all_goals cases h

/-- A member that is no kind is kept, with the value that its tokens are those of. -/
theorem readMember_reads {depth : Nat} {name : String} (hname : name ≠ kindMember) {value : Json}
    (h : value.NestsWithin depth) (before : Members) :
    Reads (readMember depth before ⟨.ok name, .ok ()⟩) (.colon :: value.tokens)
      ⟨before.kind, before.others ++ [(name, value)]⟩ := by
  intro rest
  change (if name = kindMember then _ else
    Reader.value depth (value.tokens ++ rest) >>= fun next =>
      Except.ok ((⟨before.kind, before.others ++ [(name, next.1)]⟩ : Members), next.2)) = _
  rw [if_neg hname, value_reads h]
  rfl

/-- The member of the kind is read from its name, if no kind is known yet. In what is written it
comes first. -/
theorem readMember_kind_reads (depth : Nat) (kind : Kind) (others : List (String × Json)) :
    Reads (readMember depth ⟨none, others⟩ ⟨.ok kindMember, .ok ()⟩)
      [.colon, .ofString kind.name] ⟨some kind, others⟩ := by
  intro rest
  change (Kind.read ([.ofString kind.name] ++ rest) >>= fun next =>
    Except.ok ((⟨some next.1, others⟩ : Members), next.2)) = _
  rw [kind.read_reads]
  rfl

theorem foldl_members (kind : Option Kind) (before others : List (String × Json)) :
    others.foldl
      (fun (state : Members) member => ⟨state.kind, state.others ++ [(member.1, member.2)]⟩)
      ⟨kind, before⟩ = ⟨kind, before ++ others⟩ := by
  induction others generalizing before with
  | nil => rw [List.foldl_nil, List.append_nil]
  | cons member others ih => rw [List.foldl_cons, ih, List.append_assoc, List.singleton_append]

/-- **A node is read from the tokens of its JSON form.** The members are read one after the other,
and what is then known of the node is what the JSON form was made of. -/
theorem read_reads {depth : Nat} {node : Node} (h : node.ReadsBack depth) :
    Reads (Node.read depth) node.toJson.tokens node := by
  obtain ⟨hback, hdepth⟩ := h
  rw [toJson_eq] at hdepth ⊢
  cases depth with
  | zero => cases hdepth
  | succ depth =>
    have hentry : ∀ (before : Members), ∀ member ∈ (node.record.map toJson).members,
        Reads (readMember depth before ⟨.ok member.1, .ok ()⟩) (.colon :: member.2.tokens)
          ⟨before.kind, before.others ++ [(member.1, member.2)]⟩ := fun before member hmem =>
      readMember_reads ((node.record.map toJson).ne_kindMember_of_mem_members member hmem)
        (hdepth member.2 (List.mem_cons_of_mem _ (List.mem_map_of_mem hmem))) before
    have hmembers := members_reads (readMember_kind_reads depth node.kind []) hentry
    intro rest
    rw [Record.toJson, Json.tokens_object, Json.tokens, List.cons_append, List.cons_append,
      List.cons_append, List.append_assoc, List.append_assoc, List.singleton_append, Node.read]
    have hread := hmembers rest
    rw [foldl_members, List.nil_append] at hread
    change (members _ _ _ >>= _) = _
    rw [List.singleton_append] at hread ⊢
    rw [show (node.record.map toJson).kind = node.kind from rfl, hread]
    change (ofGiven? (some node.kind) (.named (node.record.map toJson).members) >>= fun node =>
      Except.ok (node, rest)) = _
    rw [ofGiven?, Option.bind_some, ofGiven?_members, hback]
    rfl

end Node

/-! ## Programs -/

namespace Program

/-- The JSON values that a program keeps as such, in all its statements. -/
def values (program : Program) : List Json := program.body.flatMap Node.values

variable {opened bound : Nat}

/-- Every field of a program that is read keeps that the statements read so far are read back. Only
one of the fields holds statements, and the others leave them. -/
theorem keeps_fields : ∀ field ∈ fields, ∀ depth draft,
    (∀ body ∈ draft.body, ∀ node ∈ body, node.ReadsBack (bound - opened)) →
    Keeps opened bound (field.read depth draft) fun draft =>
      ∀ body ∈ draft.body, ∀ node ∈ body, node.ReadsBack (bound - opened) := by
  intro field hmem depth draft hdraft tokens result rest h hfits
  rcases List.mem_cons.1 hmem with rfl | hmem
  · obtain ⟨⟨body, more⟩, hbody, h⟩ := Except.bind_ok h
    cases h
    obtain ⟨hnodes, hrest⟩ :=
      keeps_list (fun depth => Node.keeps_read depth) depth _ _ _ hbody hfits
    refine ⟨fun other hother => ?_, hrest⟩
    cases hother
    rwa [Nat.add_sub_add_right] at hnodes
  · rw [List.mem_singleton.1 hmem] at h
    obtain ⟨⟨sourceType, more⟩, htype, h⟩ := Except.bind_ok h
    cases h
    exact ⟨hdraft, (keeps_optional keeps_string _ _ _ htype hfits).2⟩

/-- The statements of a program that is read from a text are read back, one level inside the
program. -/
theorem keeps_read (depth : Nat) :
    Keeps opened bound (Program.read depth) fun program =>
      ∀ node ∈ program.body, node.ReadsBack (bound - (opened + 1)) := by
  intro tokens program rest h hfits
  obtain ⟨⟨draft, more⟩, hdraft, h⟩ := Except.bind_ok h
  obtain ⟨hbody, hrest⟩ := keeps_record keeps_fields
    (fun _ hnone => absurd hnone (Option.not_mem_none _)) depth _ _ _ hdraft hfits
  dsimp only at h
  split at h
  next body hbody' =>
    cases h
    exact ⟨hbody body hbody', hrest⟩
  · cases h

/-- The numbers that are written for a program are those of the values it keeps, since the fields of
a program itself hold none. -/
theorem hasWords_toJson {program : Program} (h : ∀ value ∈ program.values, value.HasWords) :
    program.toJson.HasWords := by
  have hbody : (Json.array (program.body.map Node.toJson)).HasWords :=
    Json.hasWords_array (List.forall_mem_map.2 fun node hmem =>
      Node.hasWords_toJson fun value hvalue => h value (List.mem_flatMap.2 ⟨node, hmem, hvalue⟩))
  refine Json.hasWords_object (List.forall_mem_cons.2 ⟨Json.hasWords_string _,
    List.forall_mem_cons.2 ⟨hbody, fun member hmem => ?_⟩⟩)
  obtain ⟨type, -, rfl⟩ := Option.map_eq_some_iff.1 (Option.mem_toList.1 hmem)
  exact Json.hasWords_string type

section Fields

variable (depth : Nat) (body : List Node)

/-- What stands under the name of the kind is passed over, as a program is the only thing that can
be read here. -/
theorem typeName_reads (state : List String × Draft) :
    Reads (recordMember fields depth state ⟨.ok kindMember, .ok ()⟩)
      [.colon, .ofString typeName] state := fun _ => rfl

/-- The list of statements is read from its tokens, if each statement is read back. -/
theorem body_reads {depth : Nat} {body : List Node}
    (h : ∀ node ∈ body, node.ReadsBack depth) :
    Reads (recordMember fields (depth + 1) ([], ⟨none, none⟩) ⟨.ok "body", .ok ()⟩)
      (.colon :: (Json.array (body.map Node.toJson)).tokens) (["body"], ⟨some body, none⟩) := by
  intro rest
  have hlist := list_reads (fun node _ => Json.beginsItem_tokens (Node.toJson node))
    fun node hmem => Node.read_reads (h node hmem)
  rw [Json.tokens_array, listTokens_map, List.cons_append]
  change ((Reader.list (depth + 1) Node.read _ >>= _) >>= _) = _
  rw [hlist]
  rfl

/-- The type of the source is read from its tokens when the statements have been read, which is the
order in which the two are written. -/
theorem sourceType_reads (type : String) :
    Reads (recordMember fields depth (["body"], ⟨some body, none⟩) ⟨.ok "sourceType", .ok ()⟩)
      [.colon, .ofString type] (["sourceType", "body"], ⟨some body, some type⟩) := fun _ => rfl

end Fields

/-- The tokens of a program, in the order in which the fields are read. The type of the source is
missing if there is none. -/
theorem tokens_toJson (program : Program) (rest : List Token) :
    program.toJson.tokens ++ rest =
      .openObject :: .ofString kindMember :: .colon :: ([.ofString typeName] ++
        (.comma :: .ofString "body" :: .colon ::
          ((Json.array (program.body.map Node.toJson)).tokens ++
            (program.sourceType.toList.flatMap (fun type =>
              [.comma, .ofString "sourceType", .colon, .ofString type]) ++
                .closeObject :: rest)))) := by
  obtain ⟨body, sourceType⟩ := program
  rw [toJson, List.cons_append, Json.tokens_object, Json.tokens]
  cases sourceType with
  | none => simp
  | some type => simp [Json.tokens]

/-- **A program is read from the tokens of its JSON form**, if its statements are read back. The
level of the program and that of its list are where the two levels of the bound go. -/
theorem read_reads {depth : Nat} {program : Program}
    (h : ∀ node ∈ program.body, node.ReadsBack depth) :
    Reads (Program.read (depth + 2)) program.toJson.tokens program := by
  intro rest
  rw [tokens_toJson]
  change (members (recordMember fields (depth + 1)) ([], ⟨none, none⟩) _ >>= _) >>= _ = _
  rw [members_first (typeName_reads (depth + 1) _), moreMembers_step (body_reads h)]
  obtain ⟨body, sourceType⟩ := program
  cases sourceType with
  | none => rfl
  | some type =>
    change (moreMembers _ (_ :: _) _
      (.comma :: .ofString "sourceType" :: .colon :: ([.ofString type] ++ .closeObject :: rest)) >>=
        _) >>= _ = _
    rw [moreMembers_step (sourceType_reads (depth + 1) body type)]
    rfl

/-- **Parsing undoes rendering.** What has been read from a text is read again from the text that is
written for it, in both layouts. The text must not nest to the very limit, because a list that was
missing is written as an empty one and is a level more; and a number that is kept in a literal must
be an integer of at most 64 bits, as others need not come back as they were. -/
theorem parse_render {text : String} {program : Program} (hparse : parse text = .ok program)
    (hnesting : nesting 0 (scan text.toList) < maxDepth)
    (hwords : ∀ value ∈ program.values, value.HasWords) (pretty : Bool) :
    parse (program.render (.ofPretty pretty)) = .ok program := by
  obtain ⟨⟨other, rest⟩, hread, h⟩ := Except.bind_ok hparse
  have hfits : Fits 0 126 (scan text.toList) :=
    ⟨Nat.le_of_lt_succ hnesting, fun _ => isPlain_of_mem_scan⟩
  obtain ⟨hbody, -⟩ := keeps_read maxDepth _ _ _ hread hfits
  have hprogram : other = program := by
    dsimp only at h
    split at h <;> cases h
    rfl
  subst hprogram
  have hback := read_reads hbody []
  rw [List.append_nil] at hback
  rw [parse, run, render, Json.scan_render _ (hasWords_toJson hwords)]
  change (Program.read 127 _ >>= _) = _
  rw [hback]
  rfl

/-- The text of an export in which the list is missing. It is written as an empty one. -/
def missingList : String := "\x7b\"body\":[\x7b\"type\":\"ExportNamedDeclaration\"\x7d]\x7d"

theorem parse_render_missingList :
    ∃ program, parse missingList = .ok program ∧ nesting 0 (scan missingList.toList) < maxDepth ∧
      (∀ value ∈ program.values, value.HasWords) ∧
      parse (program.render .indented) = .ok program := by
  have hparse : parse missingList = .ok ⟨[.exportNamedDeclaration none [] none], none⟩ := by rfl
  have hnesting : nesting 0 (scan missingList.toList) < maxDepth := by decide +kernel
  have hwords : ∀ value ∈ values ⟨[.exportNamedDeclaration none [] none], none⟩,
      value.HasWords := by
    simp [values, Node.values_eq, Node.record, Record.inner, FieldValue.inner, FieldValue.kept]
  exact ⟨_, hparse, hnesting, hwords, parse_render hparse hnesting hwords true⟩

end Program

end DefineWrap
