/-
Reading a value back from its tokens.

A reader reads a value from some tokens (`Reader.Reads`) if it takes exactly these, whatever
follows them. The items of an array are read back one after the other if each of them is
(`Reader.items_reads`), and likewise the members of an object. So a value is read back as
soon as it nests within the limit of the reader (`Reader.value_reads`).
-/
import DefineWrap.Proofs.Json.Nesting
import DefineWrap.Proofs.Json.Printing

set_option autoImplicit false

namespace DefineWrap

/-! ## Tokens of containers -/

/-- Tokens of an item: they do not close the array. The reader of an array looks at one token to see
whether it is empty. -/
def Token.BeginsItem (tokens : List Token) : Prop :=
  ∃ token more, tokens = token :: more ∧ token ≠ .closeArray

namespace Json

/-- The further items of an array are a comma and the tokens of each, and then the end. -/
theorem itemTokens_eq (items : List Json) :
    itemTokens items = items.flatMap (fun item => .comma :: item.tokens) ++ [.closeArray] := by
  induction items with
  | nil => rw [itemTokens, List.flatMap_nil, List.nil_append]
  | cons item items ih =>
    rw [itemTokens, ih, List.flatMap_cons, List.append_assoc, List.cons_append]

/-- The further members of an object are a comma, the name, a colon and the tokens of the value of
each, and then the end. -/
theorem memberTokens_eq (members : List (String × Json)) :
    memberTokens members =
      members.flatMap (fun member => .comma :: .ofString member.1 :: .colon :: member.2.tokens) ++
        [.closeObject] := by
  induction members with
  | nil => rw [memberTokens, List.flatMap_nil, List.nil_append]
  | cons member members ih =>
    rw [memberTokens, ih, List.flatMap_cons, List.append_assoc]
    rfl

theorem beginsItem_tokens (value : Json) : Token.BeginsItem value.tokens := by
  cases value with
  | null => exact ⟨.scalar _, _, by rw [tokens], by rintro ⟨⟩⟩
  | bool value => exact ⟨.scalar _, _, by rw [tokens], by rintro ⟨⟩⟩
  | number value => exact ⟨.scalar _, _, by rw [tokens], by rintro ⟨⟩⟩
  | string value => exact ⟨.ofString value, _, by rw [tokens], by rintro ⟨⟩⟩
  | array items => cases items <;> exact ⟨.openArray, _, by rw [tokens], by rintro ⟨⟩⟩
  | object members => cases members <;> exact ⟨.openObject, _, by rw [tokens], by rintro ⟨⟩⟩

end Json

namespace Reader

open Token

variable {σ α : Type}

/-- A reader reads a value from the given tokens and leaves what follows them. It must not look at
what follows, so what stands behind the value may be anything. -/
def Reads (reader : Reader α) (tokens : List Token) (value : α) : Prop :=
  ∀ rest, reader (tokens ++ rest) = .ok (value, rest)

/-! ## Containers -/

section Containers

variable {push : σ → α → σ} {tokensOf : α → List Token} {values : List α}

/-- Every further item or member takes a comma, so the tokens bound the rounds. The reader takes the
tokens for its fuel, and there are more of them than items. -/
theorem length_lt_rounds (before : List Token) (more : α → List Token) (last : Token)
    (rest : List Token) : values.length <
      (before ++ (values.flatMap (fun value => .comma :: more value) ++ last :: rest)).length := by
  have hle : values.length ≤ (values.flatMap fun value => Token.comma :: more value).length := by
    induction values with
    | nil => exact Nat.le_refl _
    | cons value values ih =>
      rw [List.flatMap_cons, List.length_append, List.length_cons, List.length_cons]
      omega
  rw [List.length_append, List.length_append, List.length_cons]
  omega

/-- Further items are read one after the other if each is read in every state. The induction is over
the items, with a round for each. -/
theorem moreItems_reads {item : σ → Reader σ}
    (hbegins : ∀ value ∈ values, BeginsItem (tokensOf value))
    (hitem : ∀ state, ∀ value ∈ values, Reads (item state) (tokensOf value) (push state value))
    {rounds : List Token} (hrounds : values.length < rounds.length) (state : σ)
    (rest : List Token) :
    moreItems item rounds state
        (values.flatMap (fun value => .comma :: tokensOf value) ++ .closeArray :: rest) =
      .ok (values.foldl push state, rest) := by
  induction values generalizing rounds state with
  | nil =>
    cases rounds with
    | nil => cases hrounds
    | cons _ rounds => rfl
  | cons value values ih =>
    cases rounds with
    | nil => cases hrounds
    | cons _ rounds =>
      obtain ⟨token, more, htokens, htoken⟩ := hbegins value List.mem_cons_self
      have hread := hitem state value List.mem_cons_self
        (values.flatMap (fun value => .comma :: tokensOf value) ++ .closeArray :: rest)
      have hrest := ih (fun other hmem => hbegins other (List.mem_cons_of_mem _ hmem))
        (fun state other hmem => hitem state other (List.mem_cons_of_mem _ hmem))
        (Nat.lt_of_succ_lt_succ hrounds) (push state value)
      rw [List.flatMap_cons, List.cons_append, List.cons_append, List.append_assoc]
      -- The reader looks at the token after the comma, which is not the end of the list.
      rw [htokens, List.cons_append] at hread ⊢
      unfold moreItems
      dsimp only
      split
      next heq => cases heq
      next heq => exact absurd (List.cons.inj heq).1 htoken
      next =>
        rw [hread]
        exact hrest

/-- The first member of an object is read, and then the further ones. It is kept apart because the
kind of a node is read there, before the state knows of any field. -/
theorem members_first {entry : σ → Lexeme String → Reader σ} {name : String}
    {tokens : List Token} {state next : σ}
    (h : Reads (entry state ⟨.ok name, .ok ()⟩) (.colon :: tokens) next) (rest : List Token) :
    members entry state (.ofString name :: .colon :: (tokens ++ rest)) =
      moreMembers entry (.ofString name :: .colon :: (tokens ++ rest)) next rest := by
  have hread := h rest
  rw [List.cons_append] at hread
  change (entry state _ _ >>= fun next => moreMembers entry _ next.1 next.2) = _
  rw [hread]
  rfl

theorem moreMembers_step {entry : σ → Lexeme String → Reader σ} {name : String}
    {tokens : List Token} {state next : σ}
    (h : Reads (entry state ⟨.ok name, .ok ()⟩) (.colon :: tokens) next) (round : Token)
    (rounds rest : List Token) :
    moreMembers entry (round :: rounds) state
        (.comma :: .ofString name :: .colon :: (tokens ++ rest)) =
      moreMembers entry rounds next rest := by
  have hread := h rest
  rw [List.cons_append] at hread
  change (entry state _ _ >>= fun next => moreMembers entry _ next.1 next.2) = _
  rw [hread]
  rfl

/-- Further members are read one after the other if each is read in every state. -/
theorem moreMembers_reads {entry : σ → Lexeme String → Reader σ} {name : α → String}
    (hentry : ∀ state, ∀ value ∈ values,
      Reads (entry state ⟨.ok (name value), .ok ()⟩) (.colon :: tokensOf value) (push state value))
    {rounds : List Token} (hrounds : values.length < rounds.length) (state : σ)
    (rest : List Token) :
    moreMembers entry rounds state
        (values.flatMap
          (fun value => .comma :: .ofString (name value) :: .colon :: tokensOf value) ++
          .closeObject :: rest) =
      .ok (values.foldl push state, rest) := by
  induction values generalizing rounds state with
  | nil =>
    cases rounds with
    | nil => cases hrounds
    | cons _ rounds => rfl
  | cons value values ih =>
    cases rounds with
    | nil => cases hrounds
    | cons _ rounds =>
      have hread := hentry state value List.mem_cons_self
      have hrest := ih (fun state other hmem => hentry state other (List.mem_cons_of_mem _ hmem))
        (Nat.lt_of_succ_lt_succ hrounds) (push state value)
      rw [List.flatMap_cons, List.append_assoc, List.cons_append, List.cons_append,
        List.cons_append, moreMembers_step hread]
      exact hrest

/-- The tokens of items that follow each other, and of the end of their array. The items may be
anything that has tokens, not only JSON values. -/
def listTokens (tokensOf : α → List Token) : List α → List Token
  | [] => [.closeArray]
  | value :: values =>
    tokensOf value ++ (values.flatMap (fun value => .comma :: tokensOf value) ++ [.closeArray])

/-- The tokens of images are the tokens that the items have by their images. -/
theorem listTokens_map {β : Type} (f : β → α) (values : List β) :
    listTokens tokensOf (values.map f) = listTokens (fun value => tokensOf (f value)) values := by
  cases values with
  | nil => rfl
  | cons value values => rw [List.map_cons, listTokens, listTokens, List.flatMap_map]

/-- The items of an array are read one after the other if each is read in every state. An array
without items is closed at once, and so an item must not begin with that token. -/
theorem items_reads {item : σ → Reader σ} (hbegins : ∀ value ∈ values, BeginsItem (tokensOf value))
    (hitem : ∀ state, ∀ value ∈ values, Reads (item state) (tokensOf value) (push state value))
    (state : σ) (rest : List Token) :
    items item state (listTokens tokensOf values ++ rest) =
      .ok (values.foldl push state, rest) := by
  cases values with
  | nil => rfl
  | cons value values =>
    obtain ⟨token, more, htokens, htoken⟩ := hbegins value List.mem_cons_self
    have hread := hitem state value List.mem_cons_self
      (values.flatMap (fun value => .comma :: tokensOf value) ++ .closeArray :: rest)
    have hmore := moreItems_reads (fun other hmem => hbegins other (List.mem_cons_of_mem _ hmem))
      (fun state other hmem => hitem state other (List.mem_cons_of_mem _ hmem))
      (length_lt_rounds (tokensOf value) tokensOf .closeArray rest) (push state value) rest
    rw [listTokens, List.append_assoc, List.append_assoc, List.singleton_append]
    rw [htokens, List.cons_append] at hread hmore ⊢
    unfold items
    split
    next heq => cases heq
    next heq => exact absurd (List.cons.inj heq).1 htoken
    next =>
      rw [hread]
      exact hmore

/-- The first member of an object may be read in another way than the further ones. An object
without members does not come up, as a node names its kind. -/
theorem members_reads {entry : σ → Lexeme String → Reader σ} {name : α → String}
    {first : String} {tokens : List Token} {state next : σ}
    (hfirst : Reads (entry state ⟨.ok first, .ok ()⟩) (.colon :: tokens) next)
    (hentry : ∀ state, ∀ value ∈ values,
      Reads (entry state ⟨.ok (name value), .ok ()⟩) (.colon :: tokensOf value) (push state value))
    (rest : List Token) :
    members entry state (.ofString first :: .colon :: (tokens ++
        (values.flatMap (fun value =>
          .comma :: .ofString (name value) :: .colon :: tokensOf value) ++ .closeObject :: rest))) =
      .ok (values.foldl push next, rest) := by
  rw [members_first hfirst]
  exact moreMembers_reads hentry
    (length_lt_rounds (.ofString first :: .colon :: tokens) (fun value =>
      .ofString (name value) :: .colon :: tokensOf value) .closeObject rest) next rest

end Containers

/-! ## Whole values -/

theorem snoc_reads {item : Reader α} {tokens : List Token} {value : α}
    (h : Reads item tokens value) (before : List α) :
    Reads (snoc item before) tokens (before ++ [value]) := by
  intro rest
  rw [snoc, h]
  rfl

theorem snocMember_reads {item : Reader α} {tokens : List Token} {value : α}
    (h : Reads item tokens value) (before : List (String × α)) (name : String) :
    Reads (snocMember item before ⟨.ok name, .ok ()⟩) (.colon :: tokens)
      (before ++ [(name, value)]) := by
  intro rest
  change (item (tokens ++ rest) >>= _) = _
  rw [h]
  rfl

theorem foldl_snoc (before values : List α) :
    values.foldl (fun before value => before ++ [value]) before = before ++ values := by
  rw [List.foldl_append_eq_append, ← List.flatMap_def, List.flatMap_singleton']

/-- A list of values is read from the tokens of an array, if each of them is read from its own. -/
theorem list_reads {item : Nat → Reader α} {tokensOf : α → List Token} {values : List α}
    {depth : Nat} (hbegins : ∀ value ∈ values, BeginsItem (tokensOf value))
    (hitem : ∀ value ∈ values, Reads (item depth) (tokensOf value) value) :
    Reads (list (depth + 1) item) (.openArray :: listTokens tokensOf values) values := by
  intro rest
  have hitems := items_reads hbegins
    (fun before value hmem => snoc_reads (hitem value hmem) before) [] rest
  rw [foldl_snoc, List.nil_append] at hitems
  exact hitems

end Reader

namespace Json

/-- The tokens of an array are those of its items, in the form in which arrays of anything are
read. -/
theorem tokens_array (items : List Json) :
    (array items).tokens = .openArray :: Reader.listTokens tokens items := by
  cases items with
  | nil => rw [tokens, Reader.listTokens]
  | cons item items => rw [tokens, itemTokens_eq, Reader.listTokens]

theorem tokens_object (name : String) (value : Json) (members : List (String × Json)) :
    (object ((name, value) :: members)).tokens =
      .openObject :: .ofString name :: .colon :: (value.tokens ++
        (members.flatMap (fun member =>
          .comma :: .ofString member.1 :: .colon :: member.2.tokens) ++ [.closeObject])) := by
  rw [tokens, memberTokens_eq]

end Json

namespace Reader

/-- **A value is read back from its tokens** if it nests within the limit of the reader. The
induction is over the limit, which every container lowers by one as it lowers what may be inside. -/
theorem value_reads {depth : Nat} {value : Json} (h : value.NestsWithin depth) :
    Reads (Reader.value depth) value.tokens value := by
  -- The limit of the reader falls by one for each container, as what may nest in its parts does.
  induction depth generalizing value with
  | zero =>
    cases value with
    | array _ => cases h
    | object _ => cases h
    | _ =>
      rw [Json.tokens]
      exact fun _ => rfl
  | succ depth ih =>
    cases value with
    | array items =>
      have hlist := items_reads (fun item (_ : item ∈ items) => Json.beginsItem_tokens item)
        (fun before item hmem => snoc_reads (ih (h item hmem)) before) []
      intro rest
      rw [Json.tokens_array, List.cons_append, Reader.value, hlist, foldl_snoc]
      rfl
    | object members =>
      cases members with
      | nil =>
        rw [Json.tokens]
        exact fun _ => rfl
      | cons member members =>
        have hparts : ∀ other ∈ member :: members, other.2.NestsWithin depth :=
          fun other hmem => h other.2 (List.mem_map_of_mem hmem)
        have hmembers := members_reads
          (snocMember_reads (ih (hparts member List.mem_cons_self)) [] member.1)
          (fun before other hmem =>
            snocMember_reads (ih (hparts other (List.mem_cons_of_mem _ hmem))) before other.1)
        intro rest
        rw [Json.tokens_object, List.cons_append, List.cons_append, List.cons_append,
          List.append_assoc, List.append_assoc, List.singleton_append, Reader.value, hmembers,
          foldl_snoc]
        rfl
    | _ =>
      rw [Json.tokens]
      exact fun _ => rfl

end Reader

end DefineWrap
