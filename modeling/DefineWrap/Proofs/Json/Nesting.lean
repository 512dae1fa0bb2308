/-
How deep a text and a value nest.

The nesting of a text is read off its tokens, without reading values: it is the greatest
number of containers that are open at the same place (`Token.nesting`). A value that is read
from a text nests no deeper than the text.

This is shown reader by reader. A reader keeps to a bound (`Reader.Keeps`) if tokens that
nest within it leave a rest that does, and then something is known of what has been read. The
items of an array and the members of an object go through a state, so what is known of them
is an invariant of the state, and one item or member preserves it.
-/
import DefineWrap.Json.Record
import DefineWrap.Proofs.Except

set_option autoImplicit false

namespace DefineWrap

/-! ## Nesting of a value -/

namespace Json

/-- Whether a value is an array or an object. Of all other values the size and the nesting are
plain. -/
def isContainer : Json → Bool
  | .array _ | .object _ => true
  | _ => false

/-- Whether a value is written as a word or a numeral. Such a value is one token that holds the
value itself, so it must not be a container in disguise. -/
def isAtom : Json → Bool
  | .null | .bool _ | .number _ => true
  | _ => false

theorem isContainer_of_isAtom {value : Json} (h : value.isAtom = true) :
    value.isContainer = false := by
  cases value <;> first | rfl | cases h

/-- At most the given number of containers in a value stand inside each other. It is a bound and no
number, so it can be carried through a proof without being computed. -/
def NestsWithin : Nat → Json → Prop
  | 0, value => value.isContainer = false
  | depth + 1, value => ∀ part ∈ value.parts, part.NestsWithin depth

theorem parts_of_scalar {value : Json} (h : value.isContainer = false) : value.parts = [] := by
  cases value <;> first | rfl | cases h

theorem nestsWithin_of_scalar {value : Json} (h : value.isContainer = false) (depth : Nat) :
    value.NestsWithin depth := by
  cases depth with
  | zero => exact h
  | succ depth =>
    intro part hmem
    rw [parts_of_scalar h] at hmem
    cases hmem

theorem NestsWithin.succ {depth : Nat} {value : Json} (h : value.NestsWithin depth) :
    value.NestsWithin (depth + 1) := by
  induction depth generalizing value with
  | zero => exact nestsWithin_of_scalar h 1
  | succ depth ih => exact fun part hmem => ih (h part hmem)

theorem NestsWithin.mono {depth bound : Nat} (hle : depth ≤ bound) {value : Json}
    (h : value.NestsWithin depth) : value.NestsWithin bound := by
  induction hle with
  | refl => exact h
  | step _ ih => exact ih.succ

/-- The parts of a value nest one level less. There are no parts if the bound is zero, so the bound
is one more than something. -/
theorem NestsWithin.part {depth : Nat} {value part : Json} (h : value.NestsWithin depth)
    (hmem : part ∈ value.parts) : ∃ inner, depth = inner + 1 ∧ part.NestsWithin inner := by
  cases depth with
  | zero =>
    rw [parts_of_scalar h] at hmem
    cases hmem
  | succ depth => exact ⟨depth, rfl, h part hmem⟩

end Json

/-! ## Nesting of a text -/

namespace Token

/-- The greatest number of containers that are open at the same place of some tokens, before which
the given number is open. It is defined for all tokens, also where brackets do not match, since the
text may be no JSON at all. -/
def nesting : Nat → List Token → Nat
  | opened, [] => opened
  | opened, .openObject :: rest => nesting (opened + 1) rest
  | opened, .openArray :: rest => nesting (opened + 1) rest
  | opened, .closeObject :: rest => max opened (nesting (opened - 1) rest)
  | opened, .closeArray :: rest => max opened (nesting (opened - 1) rest)
  | opened, _ :: rest => nesting opened rest

theorem le_nesting (opened : Nat) (tokens : List Token) : opened ≤ nesting opened tokens := by
  induction tokens generalizing opened with
  | nil => exact Nat.le_refl _
  | cons token rest ih =>
    cases token with
    | openObject => exact Nat.le_trans (Nat.le_succ _) (ih (opened + 1))
    | openArray => exact Nat.le_trans (Nat.le_succ _) (ih (opened + 1))
    | closeObject => exact Nat.le_max_left _ _
    | closeArray => exact Nat.le_max_left _ _
    | _ => exact ih opened

/-- A word or a numeral stands for no container and no text. The type of tokens would allow it, but
no token of a text is such. -/
def IsPlain : Token → Prop
  | .scalar lexeme => ∀ value, lexeme.read = .ok value → value.isAtom = true
  | _ => True

theorem isPlain_mark {c : Char} {token : Token} (h : mark? c = some token) : token.IsPlain := by
  have hmark : token ∈ [openObject, closeObject, openArray, closeArray, colon, comma] := by
    unfold mark? at h
    repeat' split at h
    all_goals simp_all
  simp only [List.mem_cons, List.not_mem_nil, or_false] at hmark
  rcases hmark with rfl | rfl | rfl | rfl | rfl | rfl <;> trivial

theorem isPlain_scanValue {letters : List Char} {value : Json} (h : value.isAtom = true)
    (text : List Char) : (scanValue letters value text).1.IsPlain := by
  unfold scanValue
  split
  · intro other hother
    cases hother
    exact h
  · rintro _ ⟨⟩

/-- What is read from any character of a text is a plain token: the values of words are known, and a
numeral gives a number. -/
theorem isPlain_scanFrom (c : Char) (text : List Char) : (scanFrom c text).1.IsPlain := by
  unfold scanFrom
  split
  next h => exact isPlain_mark h
  repeat' split
  · unfold scanText
    split <;> trivial
  · unfold scanNumber
    split
    · intro value hvalue
      obtain ⟨number, -, rfl⟩ := Except.map_ok hvalue
      rfl
    · rintro _ ⟨⟩
  all_goals first | exact isPlain_scanValue rfl text | trivial

/-- Words and numerals of a text stand for no containers and no texts. So the nesting of a value can
be read off the brackets of its text. -/
theorem isPlain_of_mem_scan {text : List Char} {token : Token} (h : token ∈ scan text) :
    token.IsPlain := by
  have hwithin : ∀ rounds text, token ∈ scanWithin rounds text → token.IsPlain := by
    intro rounds
    induction rounds with
    | nil => rintro _ ⟨⟩
    | cons _ rounds ih =>
      intro text hmem
      cases text with
      | nil => cases hmem
      | cons c text =>
        rw [scanWithin] at hmem
        split at hmem
        · exact ih text hmem
        · rcases List.mem_cons.1 hmem with rfl | hmem
          · exact isPlain_scanFrom c text
          · exact ih _ hmem
  exact hwithin text text h

/-- Tokens before which the given number of containers is open nest within a bound. This is what a
reader asks of the tokens that it begins with, and what it says of those it leaves. -/
structure Fits (opened bound : Nat) (tokens : List Token) : Prop where
  nesting : nesting opened tokens ≤ bound
  plain : ∀ token ∈ tokens, token.IsPlain

namespace Fits

variable {opened bound : Nat} {rest : List Token}

/-- Behind an opening bracket one more container is open; the bound is for the whole text and
stays. -/
theorem openArray (h : Fits opened bound (.openArray :: rest)) : Fits (opened + 1) bound rest :=
  ⟨h.nesting, fun token hmem => h.plain token (List.mem_cons_of_mem _ hmem)⟩

theorem openObject (h : Fits opened bound (.openObject :: rest)) : Fits (opened + 1) bound rest :=
  ⟨h.nesting, fun token hmem => h.plain token (List.mem_cons_of_mem _ hmem)⟩

theorem closeArray (h : Fits (opened + 1) bound (.closeArray :: rest)) : Fits opened bound rest :=
  ⟨Nat.le_trans (Nat.le_max_right _ _) h.nesting,
    fun token hmem => h.plain token (List.mem_cons_of_mem _ hmem)⟩

theorem closeObject (h : Fits (opened + 1) bound (.closeObject :: rest)) : Fits opened bound rest :=
  ⟨Nat.le_trans (Nat.le_max_right _ _) h.nesting,
    fun token hmem => h.plain token (List.mem_cons_of_mem _ hmem)⟩

theorem comma (h : Fits opened bound (.comma :: rest)) : Fits opened bound rest :=
  ⟨h.nesting, fun token hmem => h.plain token (List.mem_cons_of_mem _ hmem)⟩

theorem colon (h : Fits opened bound (.colon :: rest)) : Fits opened bound rest :=
  ⟨h.nesting, fun token hmem => h.plain token (List.mem_cons_of_mem _ hmem)⟩

theorem quoted {lexeme : Lexeme String} (h : Fits opened bound (.quoted lexeme :: rest)) :
    Fits opened bound rest :=
  ⟨h.nesting, fun token hmem => h.plain token (List.mem_cons_of_mem _ hmem)⟩

theorem scalar {lexeme : Lexeme Json} (h : Fits opened bound (.scalar lexeme :: rest)) :
    Fits opened bound rest :=
  ⟨h.nesting, fun token hmem => h.plain token (List.mem_cons_of_mem _ hmem)⟩

/-- No more can be open than the bound allows, as what is open counts itself. -/
theorem opened_le {tokens : List Token} (h : Fits opened bound tokens) : opened ≤ bound :=
  Nat.le_trans (le_nesting opened tokens) h.nesting

end Fits

end Token

/-! ## Readers keep to a bound -/

namespace Reader

open Token

variable {σ α : Type} {opened bound : Nat}

/-- From tokens that nest within the bound, a reader reads a value of which something is known and
leaves tokens that nest within the bound. Nothing is said of a reader that fails. -/
def Keeps (opened bound : Nat) (reader : Reader α) (P : α → Prop) : Prop :=
  ∀ tokens value rest, reader tokens = .ok (value, rest) → Fits opened bound tokens →
    P value ∧ Fits opened bound rest

theorem keeps_colon : Keeps opened bound colon fun _ => True := by
  intro tokens value rest hread hfits
  unfold colon at hread
  split at hread <;> cases hread
  exact ⟨trivial, hfits.colon⟩

/-! ### Containers -/

section Containers

variable {P : σ → Prop}

/-- Every further item finds the state as the items before it have left it. What is known of the
state is the invariant, and the closing bracket takes one level back. -/
theorem keeps_moreItems {item : σ → Reader σ}
    (hitem : ∀ state, P state → Keeps (opened + 1) bound (item state) P) {rounds : List Token}
    {state final : σ} (hstate : P state) {tokens rest : List Token}
    (h : moreItems item rounds state tokens = .ok (final, rest))
    (hfits : Fits (opened + 1) bound tokens) : P final ∧ Fits opened bound rest := by
  induction rounds generalizing state tokens with
  | nil => cases h
  | cons _ rounds ih =>
    cases tokens with
    | nil => cases h
    | cons token tokens =>
      unfold moreItems at h
      dsimp only at h
      split at h
      · cases h
        exact ⟨hstate, hfits.closeArray⟩
      · split at h
        · cases h
        · cases h
        · obtain ⟨⟨next, more⟩, hnext, h⟩ := Except.bind_ok h
          obtain ⟨hstate', hmore⟩ := hitem state hstate _ _ _ hnext hfits.comma
          exact ih hstate' h hmore
      · cases h

theorem keeps_items {item : σ → Reader σ}
    (hitem : ∀ state, P state → Keeps (opened + 1) bound (item state) P)
    {state final : σ} (hstate : P state) {tokens rest : List Token}
    (h : items item state tokens = .ok (final, rest))
    (hfits : Fits (opened + 1) bound tokens) : P final ∧ Fits opened bound rest := by
  unfold items at h
  split at h
  · cases h
  · cases h
    exact ⟨hstate, hfits.closeArray⟩
  · obtain ⟨⟨next, more⟩, hnext, h⟩ := Except.bind_ok h
    obtain ⟨hstate', hmore⟩ := hitem state hstate _ _ _ hnext hfits
    exact keeps_moreItems hitem hstate' h hmore

/-- What an entry preserves is preserved by the member, since its name is no container. -/
theorem keeps_member {entry : σ → Lexeme String → Reader σ}
    (hentry : ∀ state name, P state → Keeps opened bound (entry state name) P) {state : σ}
    (hstate : P state) : Keeps opened bound (member entry state) P := by
  intro tokens final rest h hfits
  unfold member at h
  split at h
  · cases h
  · exact hentry state _ hstate _ _ _ h hfits.quoted
  · cases h

/-- Every further member finds the state as the members before it have left it, as in
`keeps_moreItems`. -/
theorem keeps_moreMembers {entry : σ → Lexeme String → Reader σ}
    (hentry : ∀ state name, P state → Keeps (opened + 1) bound (entry state name) P)
    {rounds : List Token} {state final : σ} (hstate : P state) {tokens rest : List Token}
    (h : moreMembers entry rounds state tokens = .ok (final, rest))
    (hfits : Fits (opened + 1) bound tokens) : P final ∧ Fits opened bound rest := by
  induction rounds generalizing state tokens with
  | nil => cases h
  | cons _ rounds ih =>
    cases tokens with
    | nil => cases h
    | cons token tokens =>
      unfold moreMembers at h
      dsimp only at h
      split at h
      · cases h
        exact ⟨hstate, hfits.closeObject⟩
      · obtain ⟨⟨next, more⟩, hnext, h⟩ := Except.bind_ok h
        obtain ⟨hstate', hmore⟩ := keeps_member hentry hstate _ _ _ hnext hfits.comma
        exact ih hstate' h hmore
      · cases h

theorem keeps_members {entry : σ → Lexeme String → Reader σ}
    (hentry : ∀ state name, P state → Keeps (opened + 1) bound (entry state name) P)
    {state final : σ} (hstate : P state) {tokens rest : List Token}
    (h : members entry state tokens = .ok (final, rest))
    (hfits : Fits (opened + 1) bound tokens) : P final ∧ Fits opened bound rest := by
  unfold members at h
  split at h
  · cases h
  · cases h
    exact ⟨hstate, hfits.closeObject⟩
  · obtain ⟨⟨next, more⟩, hnext, h⟩ := Except.bind_ok h
    obtain ⟨hstate', hmore⟩ := keeps_member hentry hstate _ _ _ hnext hfits
    exact keeps_moreMembers hentry hstate' h hmore

end Containers

/-! ### Whole values -/

/-- If every item is known to be something, so is all that has been collected with one more of
them. -/
theorem keeps_snoc {item : Reader α} {P : α → Prop} (hitem : Keeps opened bound item P)
    {before : List α} (hbefore : ∀ value ∈ before, P value) :
    Keeps opened bound (snoc item before) fun values => ∀ value ∈ values, P value := by
  intro tokens values rest h hfits
  obtain ⟨⟨value, more⟩, hvalue, h⟩ := Except.bind_ok h
  cases h
  obtain ⟨hP, hmore⟩ := hitem _ _ _ hvalue hfits
  exact ⟨List.forall_mem_append.2 ⟨hbefore, List.forall_mem_singleton.2 hP⟩, hmore⟩

theorem keeps_snocMember {item : Reader α} {P : α → Prop} (hitem : Keeps opened bound item P)
    {before : List (String × α)} (hbefore : ∀ member ∈ before, P member.2)
    (name : Lexeme String) :
    Keeps opened bound (snocMember item before name) fun members =>
      ∀ member ∈ members, P member.2 := by
  intro tokens members rest h hfits
  obtain ⟨name, -, h⟩ := Except.bind_ok h
  obtain ⟨⟨_, more⟩, hcolon, h⟩ := Except.bind_ok h
  obtain ⟨-, hmore⟩ := keeps_colon _ _ _ hcolon hfits
  obtain ⟨⟨value, more⟩, hvalue, h⟩ := Except.bind_ok h
  cases h
  obtain ⟨hP, hrest⟩ := hitem _ _ _ hvalue hmore
  exact ⟨List.forall_mem_append.2 ⟨hbefore, List.forall_mem_singleton.2 hP⟩, hrest⟩

/-- **A value nests no deeper than its text.** The bound is on what is open in the text, so a value
that begins where some containers are open has only what they leave of it. -/
theorem keeps_value (depth : Nat) :
    Keeps opened bound (value depth) fun value => value.NestsWithin (bound - opened) := by
  -- The text opens a bracket where the value gets one level deeper, so the bound that is left for
  -- the parts is one less on both sides.
  induction depth using Nat.strongRecOn generalizing opened with
  | _ depth ih =>
    intro tokens result rest h hfits
    unfold value at h
    split at h
    next lexeme rest =>
      obtain ⟨text, -, heq⟩ := Except.map_ok h
      cases heq
      exact ⟨Json.nestsWithin_of_scalar rfl _, hfits.quoted⟩
    next lexeme rest =>
      obtain ⟨value, hvalue, heq⟩ := Except.map_ok h
      cases heq
      have hplain := hfits.plain _ List.mem_cons_self
      exact ⟨Json.nestsWithin_of_scalar (Json.isContainer_of_isAtom (hplain _ hvalue)) _,
        hfits.scalar⟩
    next depth rest =>
      obtain ⟨⟨items, more⟩, hitems, heq⟩ := Except.map_ok h
      cases heq
      have hbound := hfits.openArray.opened_le
      obtain ⟨hparts, hrest⟩ := keeps_items
        (fun _ hbefore => keeps_snoc (ih depth (Nat.lt_succ_self _)) hbefore)
        (List.forall_mem_nil _) hitems hfits.openArray
      refine ⟨?_, hrest⟩
      rw [show bound - opened = bound - (opened + 1) + 1 by omega]
      exact hparts
    next depth rest =>
      obtain ⟨⟨members, more⟩, hmembers, heq⟩ := Except.map_ok h
      cases heq
      have hbound := hfits.openObject.opened_le
      obtain ⟨hparts, hrest⟩ := keeps_members
        (fun _ name hbefore => keeps_snocMember (ih depth (Nat.lt_succ_self _)) hbefore name)
        (List.forall_mem_nil _) hmembers hfits.openObject
      refine ⟨?_, hrest⟩
      rw [show bound - opened = bound - (opened + 1) + 1 by omega]
      exact List.forall_mem_map.2 hparts
    · cases h
    · cases h

/-- A value that is passed over leaves what a value leaves that is read. There is no value to say
anything of, so the induction is over the tokens. -/
theorem keeps_skipWithin (depth : List Token) :
    Keeps opened bound (skipWithin depth) fun _ => True := by
  induction hlength : depth.length using Nat.strongRecOn generalizing depth opened with
  | _ length ih =>
    subst hlength
    intro tokens result rest h hfits
    unfold skipWithin at h
    split at h
    · obtain ⟨_, -, heq⟩ := Except.map_ok h
      cases heq
      exact ⟨trivial, hfits.quoted⟩
    · obtain ⟨_, -, heq⟩ := Except.map_ok h
      cases heq
      exact ⟨trivial, hfits.scalar⟩
    next _ inner tokens =>
      have hinner : ∀ opened, Keeps opened bound (skipWithin inner) fun _ => True :=
        fun _ => ih inner.length (Nat.lt_succ_self _) inner rfl
      exact keeps_items (P := fun _ => True) (fun _ _ => hinner _) trivial h hfits.openArray
    next _ inner tokens =>
      have hinner : ∀ opened, Keeps opened bound (skipWithin inner) fun _ => True :=
        fun _ => ih inner.length (Nat.lt_succ_self _) inner rfl
      refine keeps_members (P := fun _ => True) (fun _ name _ => ?_) trivial h hfits.openObject
      intro tokens result rest h hfits
      obtain ⟨_, -, h⟩ := Except.bind_ok h
      obtain ⟨⟨_, more⟩, hcolon, h⟩ := Except.bind_ok h
      obtain ⟨-, hmore⟩ := keeps_colon _ _ _ hcolon hfits
      exact hinner _ _ _ _ h hmore
    · cases h
    · cases h

theorem keeps_skip : Keeps opened bound skip fun _ => True :=
  fun tokens => keeps_skipWithin tokens tokens

theorem keeps_string : Keeps opened bound string fun _ => True := by
  intro tokens value rest h hfits
  unfold string at h
  split at h
  · obtain ⟨_, -, heq⟩ := Except.map_ok h
    cases heq
    exact ⟨trivial, hfits.quoted⟩
  · cases h

/-- What is known of a value is known of one that may be missing, if it is there. -/
theorem keeps_optional {reader : Reader α} {P : α → Prop} (h : Keeps opened bound reader P) :
    Keeps opened bound (optional reader) fun value => ∀ present ∈ value, P present := by
  intro tokens result rest hread hfits
  unfold optional at hread
  split at hread
  · cases hread
    exact ⟨fun _ hpresent => absurd hpresent (Option.not_mem_none _), hfits.scalar⟩
  · obtain ⟨⟨value, more⟩, hvalue, heq⟩ := Except.map_ok hread
    cases heq
    obtain ⟨hP, hrest⟩ := h _ _ _ hvalue hfits
    exact ⟨fun present hmem => Option.some.inj hmem ▸ hP, hrest⟩

/-- What is known of each item is known of all items of a list. -/
theorem keeps_list {item : Nat → Reader α} {P : α → Prop}
    (hitem : ∀ depth, Keeps (opened + 1) bound (item depth) P) (depth : Nat) :
    Keeps opened bound (list depth item) fun values => ∀ value ∈ values, P value := by
  intro tokens values rest h hfits
  unfold list at h
  split at h
  · split at h
    · cases h
    next depth =>
      exact keeps_items (fun _ hbefore => keeps_snoc (hitem depth) hbefore)
        (List.forall_mem_nil _) h hfits.openArray
  · cases h

/-! ### Records -/

section Records

variable {P : σ → Prop} {fields : List (RecordField σ)}

/-- One member of a record preserves what every field preserves, also where the member is of no
field and is passed over. -/
theorem keeps_recordMember {depth : Nat}
    (hfields : ∀ field ∈ fields, ∀ depth state, P state →
      Keeps opened bound (field.read depth state) P)
    {state : List String × σ} (hstate : P state.2) (name : Lexeme String) :
    Keeps opened bound (recordMember fields depth state name) fun state => P state.2 := by
  intro tokens final rest h hfits
  obtain ⟨name, -, h⟩ := Except.bind_ok h
  dsimp only at h
  split at h
  · obtain ⟨⟨_, more⟩, hcolon, h⟩ := Except.bind_ok h
    obtain ⟨-, hmore⟩ := keeps_colon _ _ _ hcolon hfits
    obtain ⟨⟨_, more⟩, hskip, h⟩ := Except.bind_ok h
    cases h
    exact ⟨hstate, (keeps_skip _ _ _ hskip hmore).2⟩
  next field hfind =>
    split at h
    · cases h
    · obtain ⟨⟨_, more⟩, hcolon, h⟩ := Except.bind_ok h
      obtain ⟨-, hmore⟩ := keeps_colon _ _ _ hcolon hfits
      obtain ⟨⟨_, more⟩, hread, h⟩ := Except.bind_ok h
      cases h
      exact hfields field (List.mem_of_find?_eq_some hfind) _ _ hstate _ _ _ hread hmore

/-- The fields of a record that is written as an array, one after the other. What each of them
preserves, all of them do. -/
theorem keeps_moreFields {depth : Nat}
    (hfields : ∀ field ∈ fields, ∀ depth state, P state →
      Keeps (opened + 1) bound (field.read depth state) P)
    {state final : σ} (hstate : P state) {tokens rest : List Token}
    (h : moreFields depth fields state tokens = .ok (final, rest))
    (hfits : Fits (opened + 1) bound tokens) : P final ∧ Fits opened bound rest := by
  -- The list may end before its fields do, so the closing bracket comes up in both cases.
  induction fields generalizing state tokens with
  | nil =>
    cases tokens with
    | nil => cases h
    | cons token tokens =>
      cases token with
      | closeArray =>
        cases h
        exact ⟨hstate, hfits.closeArray⟩
      | _ => cases h
  | cons field fields ih =>
    cases tokens with
    | nil => cases h
    | cons token tokens =>
      cases token with
      | closeArray =>
        cases h
        exact ⟨hstate, hfits.closeArray⟩
      | comma =>
        unfold moreFields at h
        dsimp only at h
        split at h
        · cases h
        · cases h
        · obtain ⟨⟨next, more⟩, hread, h⟩ := Except.bind_ok h
          obtain ⟨hstate', hmore⟩ :=
            hfields field List.mem_cons_self _ _ hstate _ _ _ hread hfits.comma
          exact ih (fun other hmem => hfields other (List.mem_cons_of_mem _ hmem)) hstate' h hmore
      | _ => cases h

/-- A record that is written as an array preserves what its fields do. -/
theorem keeps_positional {depth : Nat}
    (hfields : ∀ field ∈ fields, ∀ depth state, P state →
      Keeps (opened + 1) bound (field.read depth state) P)
    {state final : σ} (hstate : P state) {tokens rest : List Token}
    (h : positional depth fields state tokens = .ok (final, rest))
    (hfits : Fits (opened + 1) bound tokens) : P final ∧ Fits opened bound rest := by
  unfold positional at h
  split at h
  · cases h
    exact ⟨hstate, hfits.closeArray⟩
  · cases h
  · split at h
    · cases h
    next field fields =>
      obtain ⟨⟨next, more⟩, hread, h⟩ := Except.bind_ok h
      obtain ⟨hstate', hmore⟩ := hfields field List.mem_cons_self _ _ hstate _ _ _ hread hfits
      exact keeps_moreFields (fun other hmem => hfields other (List.mem_cons_of_mem _ hmem))
        hstate' h hmore

/-- What each field of a record preserves is preserved in both forms of the record. With this a
reader of records is settled by looking at its fields. -/
theorem keeps_record (hfields : ∀ field ∈ fields, ∀ depth state, P state →
      Keeps (opened + 1) bound (field.read depth state) P)
    {state : σ} (hstate : P state) (depth : Nat) :
    Keeps opened bound (record depth fields state) P := by
  intro tokens final rest h hfits
  unfold record at h
  split at h
  · split at h
    · cases h
    · obtain ⟨⟨⟨_, next⟩, more⟩, hmembers, h⟩ := Except.bind_ok h
      cases h
      exact keeps_members (P := fun state => P state.2)
        (fun _ name hstate => keeps_recordMember hfields hstate name) hstate hmembers
        hfits.openObject
  · split at h
    · cases h
    · exact keeps_positional hfields hstate h hfits.openArray
  · cases h

end Records

end Reader

end DefineWrap
