/-
A node is read from a text as it is read from the JSON value of the text.

A text is read as a node while it is read: the kind in its place, and everything else as JSON
values. What comes out is what is read from the JSON value of the text (`Node.toOption_parse`),
except that the kind has to be spelled, while a node inside another one may also give it by its
place in the list of kinds.

Both readers go through the same tokens, one behind the other (`Reader.Follows`): where one reads
a value, the other one reads what is made of the value, or fails. One item or member is a step of
a fold, so a container is a fold over what stands in it.
-/
import DefineWrap.Estree.Text
import DefineWrap.Proofs.Json.Nesting

set_option autoImplicit false

namespace DefineWrap

open Reader Token

namespace Json

/-- The value that a text is written for. The program never makes it of a text of a module, which it
reads as nodes at once; it is what that reading is compared with. -/
def parse (text : String) : Except Fault Json := Reader.run (Reader.value Reader.maxDepth) text

/-- The text of a string, and nothing for another value. A kind can only be spelled by a string. -/
def text? : Json → Option String
  | .string text => some text
  | _ => none

end Json

/-! ## One reader behind another -/

namespace Reader

variable {α β σ : Type} {opened bound : Nat}

/-- Where a reader reads a value, another one reads what a function makes of it, or fails if that is
nothing, and both leave the same tokens. Nothing is said where the first one fails, since then the
whole text is no JSON. -/
def Follows (opened bound : Nat) (reader : Reader α) (other : Reader β) (f : α → Option β) : Prop :=
  ∀ tokens value rest, reader tokens = .ok (value, rest) → Fits opened bound tokens →
    (other tokens).toOption = (f value).map (·, rest)

/-- One step of a loop that follows another one, and then the rest of the loop. If the step fails
the fold fails, whatever comes after it, so the loops need not be compared from there on. -/
theorem toOption_step {f : σ → α → Option σ} {step : Except Fault (σ × List Token)}
    {loop : σ × List Token → Except Fault (σ × List Token)} {state : σ} {value : α}
    {values : List α} {more rest : List Token}
    (hstep : step.toOption = (f state value).map (·, more))
    (hloop : ∀ next, (loop (next, more)).toOption = (values.foldlM f next).map (·, rest)) :
    (step >>= loop).toOption = ((value :: values).foldlM f state).map (·, rest) := by
  rw [Except.toOption_bind, hstep, List.foldlM_cons]
  cases f state value with
  | none => rfl
  | some next => exact hloop next

section Items

variable {reader : Reader α} {item : σ → Reader σ} {f : σ → α → Option σ}
  (hkeeps : Keeps (opened + 1) bound reader fun _ => True)
  (hitem : ∀ state, Follows (opened + 1) bound reader (item state) (f state))

include hkeeps hitem

/-- The loop behind the first item. The reader of values collects a list, so what it adds from here
on is split off first, and that part is folded. -/
theorem moreItems_follows {rounds tokens rest : List Token} {before values : List α}
    (h : moreItems (snoc reader) rounds before tokens = .ok (values, rest))
    (hfits : Fits (opened + 1) bound tokens) :
    ∃ added, values = before ++ added ∧ ∀ state,
      (moreItems item rounds state tokens).toOption = (added.foldlM f state).map (·, rest) := by
  -- Along the run of the reader of values, which succeeds. The other reader takes the same steps
  -- for as long as it goes on.
  induction rounds generalizing before tokens with
  | nil => cases h
  | cons _ rounds ih =>
    cases tokens with
    | nil => cases h
    | cons token tokens =>
      unfold moreItems at h ⊢
      dsimp only at h ⊢
      split at h
      · cases h
        exact ⟨[], (List.append_nil _).symm, fun _ => rfl⟩
      · split at h
        · cases h
        · cases h
        · obtain ⟨⟨_, more⟩, hnext, h⟩ := Except.bind_ok h
          obtain ⟨⟨value, _⟩, hvalue, hnext⟩ := Except.bind_ok hnext
          cases hnext
          obtain ⟨added, rfl, hadded⟩ := ih h (hkeeps _ _ _ hvalue hfits.comma).2
          refine ⟨value :: added, List.append_assoc .., fun state => ?_⟩
          exact toOption_step (hitem state _ _ _ hvalue hfits.comma) hadded
      · cases h

/-- **The items of an array are folded** by a reader that follows the reader of values. An empty
array is the case of no step. -/
theorem items_follows {tokens rest : List Token} {values : List α}
    (h : items (snoc reader) [] tokens = .ok (values, rest))
    (hfits : Fits (opened + 1) bound tokens) (state : σ) :
    (items item state tokens).toOption = (values.foldlM f state).map (·, rest) := by
  unfold items at h ⊢
  split at h
  · cases h
  · cases h
    rfl
  · obtain ⟨⟨_, more⟩, hnext, h⟩ := Except.bind_ok h
    obtain ⟨⟨value, _⟩, hvalue, hnext⟩ := Except.bind_ok hnext
    cases hnext
    obtain ⟨added, rfl, hadded⟩ := moreItems_follows hkeeps hitem h (hkeeps _ _ _ hvalue hfits).2
    exact toOption_step (hitem state _ _ _ hvalue hfits) hadded

end Items

section Members

variable {reader : Reader α} {entry : σ → Lexeme String → Reader σ}
  {f : σ → String × α → Option σ}
  (hkeeps : Keeps (opened + 1) bound reader fun _ => True)
  (hentry : ∀ name text tokens more value rest, name.read = .ok text →
    colon tokens = .ok ((), more) → reader more = .ok (value, rest) →
    Fits (opened + 1) bound more → ∀ state,
      (entry state name tokens).toOption = (f state (text, value)).map (·, rest))

include hkeeps hentry

/-- One member is a step of the fold. The name is read by both readers alike, so only what follows
the colon is asked of the entry. -/
theorem member_follows {tokens rest : List Token} {before values : List (String × α)}
    (h : member (snocMember reader) before tokens = .ok (values, rest))
    (hfits : Fits (opened + 1) bound tokens) :
    ∃ added, values = before ++ [added] ∧ Fits (opened + 1) bound rest ∧ ∀ state,
      (member entry state tokens).toOption = (f state added).map (·, rest) := by
  unfold member at h ⊢
  split at h
  · cases h
  next name tokens =>
    obtain ⟨text, htext, h⟩ := Except.bind_ok h
    obtain ⟨⟨_, more⟩, hcolon, h⟩ := Except.bind_ok h
    obtain ⟨⟨value, _⟩, hvalue, h⟩ := Except.bind_ok h
    cases h
    have hmore := (keeps_colon _ _ _ hcolon hfits.quoted).2
    exact ⟨(text, value), rfl, (hkeeps _ _ _ hvalue hmore).2,
      hentry name text tokens more value rest htext hcolon hvalue hmore⟩
  · cases h

/-- The loop behind the first member, along the run of the reader of values as in
`moreItems_follows`. -/
theorem moreMembers_follows {rounds tokens rest : List Token} {before values : List (String × α)}
    (h : moreMembers (snocMember reader) rounds before tokens = .ok (values, rest))
    (hfits : Fits (opened + 1) bound tokens) :
    ∃ added, values = before ++ added ∧ ∀ state,
      (moreMembers entry rounds state tokens).toOption = (added.foldlM f state).map (·, rest) := by
  induction rounds generalizing before tokens with
  | nil => cases h
  | cons _ rounds ih =>
    cases tokens with
    | nil => cases h
    | cons token tokens =>
      unfold moreMembers at h ⊢
      dsimp only at h ⊢
      split at h
      · cases h
        exact ⟨[], (List.append_nil _).symm, fun _ => rfl⟩
      · obtain ⟨⟨_, more⟩, hnext, h⟩ := Except.bind_ok h
        obtain ⟨value, rfl, hmore, hvalue⟩ := member_follows hkeeps hentry hnext hfits.comma
        obtain ⟨added, rfl, hadded⟩ := ih h hmore
        exact ⟨value :: added, List.append_assoc ..,
          fun state => toOption_step (hvalue state) hadded⟩
      · cases h

/-- **The members of an object are folded** by a reader that follows the reader of values. -/
theorem members_follows {tokens rest : List Token} {values : List (String × α)}
    (h : members (snocMember reader) [] tokens = .ok (values, rest))
    (hfits : Fits (opened + 1) bound tokens) (state : σ) :
    (members entry state tokens).toOption = (values.foldlM f state).map (·, rest) := by
  unfold members at h ⊢
  split at h
  · cases h
  · cases h
    rfl
  · obtain ⟨⟨_, more⟩, hnext, h⟩ := Except.bind_ok h
    obtain ⟨value, rfl, hmore, hvalue⟩ := member_follows hkeeps hentry hnext hfits
    obtain ⟨added, rfl, hadded⟩ := moreMembers_follows hkeeps hentry h hmore
    exact toOption_step (hvalue state) hadded

end Members

/-- A string is read where a value is read that is one. Any other value makes the reader of strings
fail at its first token. -/
theorem string_follows (depth : Nat) : Follows opened bound (value depth) string Json.text? := by
  intro tokens value rest h hfits
  unfold Reader.value at h
  split at h
  next lexeme tokens =>
    obtain ⟨text, htext, heq⟩ := Except.map_ok h
    cases heq
    change (lexeme.read.map (·, rest)).toOption = _
    rw [htext]
    rfl
  next lexeme tokens =>
    obtain ⟨value, hvalue, heq⟩ := Except.map_ok h
    cases heq
    have hatom : value.isAtom = true := hfits.plain _ List.mem_cons_self value hvalue
    cases value <;> first | rfl | cases hatom
  · obtain ⟨_, -, heq⟩ := Except.map_ok h
    cases heq
    rfl
  · obtain ⟨_, -, heq⟩ := Except.map_ok h
    cases heq
    rfl
  · cases h
  · cases h

end Reader

/-- A kind is read where a string is read that is its name. A name that is none of a kind makes it
fail, and a value that is no string did so before. -/
theorem Kind.read_follows {opened bound : Nat} (depth : Nat) :
    Follows opened bound (value depth) Kind.read fun value => value.text?.bind Kind.ofName? := by
  intro tokens value rest h hfits
  rw [Kind.read, Except.toOption_bind, string_follows depth _ _ _ h hfits]
  dsimp only
  cases value.text? with
  | none => rfl
  | some name =>
    dsimp only [Option.map_some, Option.bind_some]
    cases Kind.ofName? name <;> rfl

/-! ## Nodes -/

namespace Record

/-- The node of a kind, from what is written of its fields. What both readers end with, after they
have found the kind in their own ways. -/
def decode? (kind : Kind) (given : Given) : Option Node :=
  (ofGiven? kind given).bind Node.ofJsonRecord?

end Record

namespace Node

/-- How a node is read from an object: there has to be one member that gives the kind, anywhere in
it, and all others are given for the fields. -/
theorem ofJson?_object (members : List (String × Json)) :
    ofJson? (.object members) =
      match members.filter (·.1 = kindMember) with
      | [(_, tag)] => (Kind.ofJson? tag).bind fun kind =>
          Record.decode? kind (.named (members.filter (·.1 ≠ kindMember)))
      | _ => none := by
  rw [ofJson?_eq, Record.ofJson?]
  generalize members.filter (·.1 = kindMember) = tags
  match tags with
  | [] => rfl
  | [(_, tag)] => exact Option.bind_assoc ..
  | _ :: _ :: _ => rfl

/-- How a node is read from an array: the first item gives the kind, and the others are for the
fields by their places. -/
theorem ofJson?_array (tag : Json) (items : List Json) :
    ofJson? (.array (tag :: items)) =
      (Kind.ofJson? tag).bind fun kind => Record.decode? kind (.placed items) := by
  rw [ofJson?_eq, Record.ofJson?]
  exact Option.bind_assoc ..

/-- Whether a value that is read as a node names the kind, and does not give its place. The reader
of texts asks for a name at the outermost node, where the reader of values would take a number as
well. -/
def spellsKind : Json → Bool
  | .object members => (members.filter (·.1 = kindMember)).all (·.2.text?.isSome)
  | .array (tag :: _) => tag.text?.isSome
  | _ => false

/-- What is known of a node after one more member. A second member that gives the kind is refused
even if it gives the same one. -/
def Members.add? (before : Members) (member : String × Json) : Option Members :=
  if member.1 = kindMember then
    match before.kind with
    | some _ => none
    | none => (member.2.text?.bind Kind.ofName?).map fun kind => ⟨some kind, before.others⟩
  else some ⟨before.kind, before.others ++ [member]⟩

/-- What is known of a node after one more item. The first one is for the kind, so the state says
which of the two an item is. -/
def Items.add? (before : Items) (item : Json) : Option Items :=
  match before.kind with
  | none => (item.text?.bind Kind.ofName?).map fun kind => ⟨some kind, []⟩
  | some kind => some ⟨some kind, before.others ++ [item]⟩

variable {opened bound depth : Nat}

/-- Reading one member of a node is `Members.add?` after the value of the member has been read. -/
theorem readMember_follows {name : Lexeme String} {text : String} {tokens more rest : List Token}
    {value : Json} (hname : name.read = .ok text) (hcolon : colon tokens = .ok ((), more))
    (hvalue : Reader.value depth more = .ok (value, rest)) (hfits : Fits opened bound more)
    (before : Members) :
    (readMember depth before name tokens).toOption = (before.add? (text, value)).map (·, rest) := by
  rw [readMember, hname, Members.add?]
  change (if text = kindMember then _ else _ : Except Fault (Members × List Token)).toOption = _
  split
  · cases before.kind with
    | some _ => rfl
    | none =>
      dsimp only
      rw [hcolon]
      change (Kind.read more >>= _).toOption = _
      rw [Except.toOption_bind, Kind.read_follows depth _ _ _ hvalue hfits]
      dsimp only
      cases value.text?.bind Kind.ofName? <;> rfl
  · rw [hcolon]
    change (Reader.value depth more >>= _).toOption = _
    rw [hvalue]
    rfl

/-- Reading one item of a node is `Items.add?` after the value of the item has been read. -/
theorem readItem_follows (before : Items) :
    Follows opened bound (Reader.value depth) (readItem depth before) before.add? := by
  intro tokens value rest h hfits
  rw [readItem, Items.add?]
  cases before.kind with
  | none =>
    dsimp only
    rw [Except.toOption_bind, Kind.read_follows depth _ _ _ h hfits]
    dsimp only
    cases value.text?.bind Kind.ofName? <;> rfl
  | some kind =>
    dsimp only
    rw [h]
    rfl

/-- The kind after some more members that name it. At most one of them can, together with what was
known before. -/
def kindAfter? : Option Kind → List (String × Json) → Option (Option Kind)
  | kind, [] => some kind
  | none, tag :: tags =>
    (tag.2.text?.bind Kind.ofName?).bind fun kind => kindAfter? (some kind) tags
  | some _, _ :: _ => none

/-- All members together: those that name the kind, and the others in their order. So in an object
it does not matter where the kind stands, although it is read one member after the other. -/
theorem foldlM_members (members : List (String × Json)) (before : Members) :
    members.foldlM Members.add? before =
      (kindAfter? before.kind (members.filter (·.1 = kindMember))).map fun kind =>
        ⟨kind, before.others ++ members.filter (·.1 ≠ kindMember)⟩ := by
  -- Members that name the kind and others are added apart, so the order between the two does not
  -- matter.
  induction members generalizing before with
  | nil =>
    rw [List.filter_nil, List.filter_nil, List.append_nil, kindAfter?]
    rfl
  | cons member members ih =>
    rw [List.foldlM_cons, Members.add?]
    by_cases htag : member.1 = kindMember
    · have htags : (member :: members).filter (·.1 = kindMember) =
          member :: members.filter (·.1 = kindMember) :=
            List.filter_cons_of_pos (decide_eq_true htag)
      have hothers : (member :: members).filter (·.1 ≠ kindMember) =
          members.filter (·.1 ≠ kindMember) := List.filter_cons_of_neg (by simpa using htag)
      rw [if_pos htag, htags, hothers]
      obtain ⟨kind, others⟩ := before
      cases kind with
      | some kind => rfl
      | none =>
        dsimp only
        rw [kindAfter?]
        cases member.2.text?.bind Kind.ofName? with
        | none => rfl
        | some kind => exact ih ⟨some kind, others⟩
    · have htags : (member :: members).filter (·.1 = kindMember) =
          members.filter (·.1 = kindMember) := List.filter_cons_of_neg (by simpa using htag)
      have hothers : (member :: members).filter (·.1 ≠ kindMember) =
          member :: members.filter (·.1 ≠ kindMember) :=
        List.filter_cons_of_pos (by simpa using htag)
      rw [if_neg htag, htags, hothers]
      refine (ih _).trans ?_
      rw [List.append_assoc, List.singleton_append]

/-- Items after the kind are all kept, so only the first item of an array can make the fold fail. -/
theorem foldlM_items (items : List Json) (kind : Kind) (others : List Json) :
    items.foldlM Items.add? ⟨some kind, others⟩ = some ⟨some kind, others ++ items⟩ := by
  induction items generalizing others with
  | nil => rw [List.append_nil]; rfl
  | cons item items ih =>
    rw [List.foldlM_cons, Items.add?]
    change items.foldlM Items.add? ⟨some kind, others ++ [item]⟩ = _
    rw [ih, List.append_assoc, List.singleton_append]

/-- What is read from a value if the kind has to be named. -/
def ofSpelled? (value : Json) : Option Node := if spellsKind value then ofJson? value else none

/-- Only the text of the error differs from `Record.decode?`, and the case that no kind has been
found. -/
theorem toOption_ofGiven? (kind : Option Kind) (given : Given) :
    (ofGiven? kind given).toOption = kind.bind fun kind => Record.decode? kind given := by
  change _ = kind.bind fun kind => (Record.ofGiven? kind given).bind ofJsonRecord?
  rw [ofGiven?]
  cases kind.bind fun kind => (Record.ofGiven? kind given).bind ofJsonRecord? <;> rfl

/-- A kind that is spelled is the kind of its name, and a place in the list of kinds is no name. -/
theorem bind_ofName?_text? (tag : Json) : (tag.text?.bind Kind.ofName?) =
    if tag.text?.isSome then Kind.ofJson? tag else none := by
  cases tag <;> rfl

/-- What is read from an object as a whole is what comes of its members one by one. -/
theorem ofSpelled?_object (members : List (String × Json)) :
    ofSpelled? (.object members) = (members.foldlM Members.add? ⟨none, []⟩).bind fun members =>
      (ofGiven? members.kind (.named members.others)).toOption := by
  rw [ofSpelled?, spellsKind, ofJson?_object, foldlM_members]
  generalize members.filter (·.1 ≠ kindMember) = others
  generalize members.filter (·.1 = kindMember) = tags
  simp only [Option.bind_map, Function.comp_def, toOption_ofGiven?, List.nil_append]
  match tags with
  | [] => rfl
  | [(_, tag)] =>
    rw [kindAfter?, bind_ofName?_text?, List.all_cons, List.all_nil, Bool.and_true]
    dsimp only
    cases tag.text?.isSome <;> cases Kind.ofJson? tag <;> rfl
  | first :: second :: more =>
    have htwice : kindAfter? none (first :: second :: more) = none := by
      rw [kindAfter?]
      exact Option.bind_fun_none _
    rw [htwice]
    exact ite_self none

/-- What is read from an array as a whole is what comes of its items one by one. -/
theorem ofSpelled?_array (items : List Json) :
    ofSpelled? (.array items) = (items.foldlM Items.add? ⟨none, []⟩).bind fun items =>
      (ofGiven? items.kind (.placed items.others)).toOption := by
  cases items with
  | nil => rfl
  | cons tag items =>
    rw [ofSpelled?, spellsKind, ofJson?_array, List.foldlM_cons, Items.add?]
    dsimp only
    rw [bind_ofName?_text?]
    cases tag.text?.isSome with
    | false => rfl
    | true =>
      cases Kind.ofJson? tag with
      | none => rfl
      | some kind =>
        change _ = (items.foldlM Items.add? ⟨some kind, []⟩).bind _
        rw [foldlM_items]
        exact (toOption_ofGiven? (some kind) (.placed items)).symm

/-- What has been read of a node is made a node, and the tokens after it stay. The last step of both
containers. -/
theorem toOption_bind_ofGiven? {τ : Type} (state : Option τ) (kind : τ → Option Kind)
    (given : τ → Given) (rest : List Token) :
    ((state.map (·, rest)).bind fun next =>
        ((ofGiven? (kind next.1) (given next.1)).bind fun node => .ok (node, next.2)).toOption) =
      (state.bind fun next => (ofGiven? (kind next) (given next)).toOption).map (·, rest) := by
  cases state with
  | none => rfl
  | some state =>
    change ((ofGiven? (kind state) (given state)).bind _).toOption =
      (ofGiven? (kind state) (given state)).toOption.map _
    cases ofGiven? (kind state) (given state) <;> rfl

/-- **Where a value is read, the node of the value is read.** By the first token: an object is a
fold over its members, an array one over its items, and nothing else is a node. -/
theorem read_follows : Follows opened bound (Reader.value depth) (Node.read depth) ofSpelled? := by
  intro tokens value rest h hfits
  have hkeeps : ∀ opened depth, Keeps opened bound (Reader.value depth) fun _ => True :=
    fun _ depth tokens value rest h hfits =>
      ⟨trivial, (keeps_value depth tokens value rest h hfits).2⟩
  -- Where the value is no array and no object, no node is read, as none is from its text.
  unfold Reader.value at h
  split at h
  · obtain ⟨_, -, heq⟩ := Except.map_ok h
    cases heq
    cases depth <;> rfl
  next lexeme tokens =>
    obtain ⟨value, hvalue, heq⟩ := Except.map_ok h
    cases heq
    have hatom : value.isAtom = true := hfits.plain _ List.mem_cons_self value hvalue
    cases depth <;> cases value <;> first | rfl | cases hatom
  next depth tokens =>
    obtain ⟨⟨items, _⟩, hitems, heq⟩ := Except.map_ok h
    cases heq
    rw [ofSpelled?_array, Node.read, Except.toOption_bind,
      items_follows (hkeeps _ _) readItem_follows hitems hfits.openArray]
    exact toOption_bind_ofGiven? _ Items.kind (fun items => .placed items.others) rest
  next depth tokens =>
    obtain ⟨⟨members, _⟩, hmembers, heq⟩ := Except.map_ok h
    cases heq
    rw [ofSpelled?_object, Node.read, Except.toOption_bind, members_follows (hkeeps _ _)
      (fun _ _ _ _ _ _ hname hcolon hvalue hfits before =>
        readMember_follows hname hcolon hvalue hfits before) hmembers hfits.openObject]
    exact toOption_bind_ofGiven? _ Members.kind (fun members => .named members.others) rest
  · cases h
  · cases h

/-- **A node is read from a text as from the value of the text.** So what is proved about JSON
values holds of texts, where the same tokens are gone through. -/
theorem toOption_parse {text : String} {value : Json} (h : Json.parse text = .ok value) :
    (parse text).toOption = ofSpelled? value := by
  obtain ⟨⟨_, rest⟩, hvalue, h⟩ := Except.bind_ok h
  have hfits : Fits 0 (nesting 0 (scan text.toList)) (scan text.toList) :=
    ⟨Nat.le_refl _, fun _ => isPlain_of_mem_scan⟩
  have hnode := read_follows _ _ _ hvalue hfits
  rw [parse, run, Except.toOption_bind, hnode]
  cases rest with
  | nil =>
    cases h
    cases ofSpelled? value <;> rfl
  | cons => cases h

end Node

end DefineWrap
