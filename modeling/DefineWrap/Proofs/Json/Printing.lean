/-
The tokens of a printed value.

A printed value is split into the tokens that one would write down for it by hand
(`Json.tokens`), whatever the layout: the layouts differ in blanks, and blanks make no tokens.
`Token.Scans` says that a piece of text is split into some tokens with a given rest left over,
no matter how the rounds of the scan are counted; texts that follow each other are put together
by `Token.Scans.trans`.
-/
import DefineWrap.Json.Printer
import DefineWrap.Proofs.Json.Spelling

set_option autoImplicit false

namespace DefineWrap

namespace Json

/-! ## Induction over values -/

/-- Induction over a value: a container comes after what is inside it. The values in an object are
reached through its members, which the recursor of the type would show as pairs. -/
@[elab_as_elim]
theorem induction {motive : Json → Prop} (null : motive .null)
    (bool : ∀ value, motive (.bool value)) (number : ∀ value, motive (.number value))
    (string : ∀ value, motive (.string value))
    (array : ∀ items, (∀ item ∈ items, motive item) → motive (.array items))
    (object : ∀ members, (∀ member ∈ members, motive member.2) → motive (.object members))
    (value : Json) : motive value := by
  induction hsize : sizeOf value using Nat.strongRecOn generalizing value with
  | _ size ih =>
    subst hsize
    have hpart : ∀ part ∈ value.parts, motive part := fun part hmem =>
      ih _ (sizeOf_lt_of_mem_parts hmem) part rfl
    cases value with
    | null => exact null
    | bool value => exact bool value
    | number value => exact number value
    | string value => exact string value
    | array items => exact array items hpart
    | object members => exact object members fun member hmem => hpart _ (List.mem_map_of_mem hmem)

/-! ## Tokens of a value -/

mutual

/-- The tokens of a value, in the order of its text. They are what one would write down by hand, and
know of no layout. -/
def tokens : Json → List Token
  | .null => [.scalar ⟨.ok .null, .ok ()⟩]
  | .bool value => [.scalar ⟨.ok (.bool value), .ok ()⟩]
  | .number value => [.scalar ⟨.ok (.number value), .ok ()⟩]
  | .string value => [.ofString value]
  | .array [] => [.openArray, .closeArray]
  | .array (item :: rest) => .openArray :: (tokens item ++ itemTokens rest)
  | .object [] => [.openObject, .closeObject]
  | .object ((name, value) :: rest) =>
    .openObject :: .ofString name :: .colon :: (tokens value ++ memberTokens rest)

/-- The tokens of the further items of an array, and of its end. The first item has no comma before
it, so it is not among them. -/
def itemTokens : List Json → List Token
  | [] => [.closeArray]
  | item :: rest => .comma :: (tokens item ++ itemTokens rest)

/-- The tokens of the further members of an object, and of its end. -/
def memberTokens : List (String × Json) → List Token
  | [] => [.closeObject]
  | (name, value) :: rest =>
    .comma :: .ofString name :: .colon :: (tokens value ++ memberTokens rest)

end

/-! ## Numbers in a value -/

mutual

/-- The numbers in a value, at any depth. Only they can be lost in a text: a real number need not
come back as it was. -/
def numbers : Json → List Number
  | .number value => [value]
  | .array items => numbersOfItems items
  | .object members => numbersOfMembers members
  | _ => []

/-- The numbers in the items of an array, which is a recursion of its own since the items are a
list. -/
def numbersOfItems : List Json → List Number
  | [] => []
  | item :: rest => numbers item ++ numbersOfItems rest

/-- The numbers in the values of an object. -/
def numbersOfMembers : List (String × Json) → List Number
  | [] => []
  | (_, value) :: rest => numbers value ++ numbersOfMembers rest

end

theorem numbersOfItems_eq (items : List Json) : numbersOfItems items = items.flatMap numbers := by
  induction items with
  | nil => simp [numbersOfItems]
  | cons item rest ih => simp [numbersOfItems, ih]

theorem numbersOfMembers_eq (members : List (String × Json)) :
    numbersOfMembers members = members.flatMap fun member => numbers member.2 := by
  induction members with
  | nil => simp [numbersOfMembers]
  | cons member rest ih => simp [numbersOfMembers, ih]

theorem numbers_array (items : List Json) : (array items).numbers = items.flatMap numbers := by
  rw [numbers, numbersOfItems_eq]

theorem numbers_object (members : List (String × Json)) :
    (object members).numbers = members.flatMap fun member => numbers member.2 := by
  rw [numbers, numbersOfMembers_eq]

/-- All numbers in a value are integers of at most 64 bits. These are the numbers of which the
digits are read back exactly. -/
def HasWords (value : Json) : Prop := ∀ number ∈ value.numbers, number.IsWord

/-- What holds of the numbers of an array holds of those of its items. -/
theorem HasWords.item {items : List Json} (h : (array items).HasWords) {item : Json}
    (hmem : item ∈ items) : item.HasWords := by
  intro number hnumber
  refine h number ?_
  rw [numbers_array]
  exact List.mem_flatMap.2 ⟨item, hmem, hnumber⟩

theorem HasWords.member {members : List (String × Json)} (h : (object members).HasWords)
    {member : String × Json} (hmem : member ∈ members) : member.2.HasWords := by
  intro number hnumber
  refine h number ?_
  rw [numbers_object]
  exact List.mem_flatMap.2 ⟨member, hmem, hnumber⟩

theorem hasWords_array {items : List Json} (h : ∀ item ∈ items, item.HasWords) :
    (array items).HasWords := by
  intro number hnumber
  rw [numbers_array] at hnumber
  obtain ⟨item, hitem, hmem⟩ := List.mem_flatMap.1 hnumber
  exact h item hitem number hmem

/-- An object has only the numbers of its values, since names are no numbers. -/
theorem hasWords_object {members : List (String × Json)}
    (h : ∀ member ∈ members, member.2.HasWords) : (object members).HasWords := by
  intro number hnumber
  rw [numbers_object] at hnumber
  obtain ⟨member, hmember, hmem⟩ := List.mem_flatMap.1 hnumber
  exact h member hmember number hmem

theorem hasWords_null : null.HasWords := by
  rw [HasWords, numbers] <;> rintro _ ⟨⟩

theorem hasWords_bool (value : Bool) : (bool value).HasWords := by
  rw [HasWords, numbers] <;> rintro _ ⟨⟩

theorem hasWords_string (value : String) : (string value).HasWords := by
  rw [HasWords, numbers] <;> rintro _ ⟨⟩

end Json

namespace Token

/-! ## Pieces of text -/

/-- A text is split into the given tokens, and the given rest is left of it. The scan counts rounds,
which are enough if there are as many as characters; that some are left for the rest is part of the
statement. -/
def Scans (text : List Char) (tokens : List Token) (rest : List Char) : Prop :=
  ∀ rounds : List Char, text.length ≤ rounds.length →
    ∃ rounds' : List Char, rest.length ≤ rounds'.length ∧
      scanWithin rounds text = tokens ++ scanWithin rounds' rest

namespace Scans

theorem refl (text : List Char) : Scans text [] text :=
  fun rounds hrounds => ⟨rounds, hrounds, rfl⟩

/-- Texts that follow each other are split one after the other. With this the scan of a printed
value is put together like its print. -/
theorem trans {text middle rest : List Char} {first second : List Token}
    (hfirst : Scans text first middle) (hsecond : Scans middle second rest) :
    Scans text (first ++ second) rest := by
  intro rounds hrounds
  obtain ⟨rounds₁, hrounds₁, hscan₁⟩ := hfirst rounds hrounds
  obtain ⟨rounds₂, hrounds₂, hscan₂⟩ := hsecond rounds₁ hrounds₁
  exact ⟨rounds₂, hrounds₂, by rw [hscan₁, hscan₂, List.append_assoc]⟩

/-- Blanks make no tokens, wherever they stand. So layouts that differ in blanks have the same
tokens. -/
theorem blanks {text : List Char} {cs : List Char} (h : ∀ c ∈ cs, isBlank c = true) :
    Scans (cs ++ text) [] text := by
  induction cs with
  | nil => exact refl text
  | cons c cs ih =>
    have hfirst : Scans (c :: (cs ++ text)) [] (cs ++ text) := by
      intro rounds hrounds
      cases rounds with
      | nil => cases hrounds
      | cons _ rounds =>
        refine ⟨rounds, Nat.le_of_succ_le_succ hrounds, ?_⟩
        rw [scanWithin, if_pos (h c List.mem_cons_self)]
        rfl
    exact hfirst.trans (ih fun other hmem => h other (List.mem_cons_of_mem _ hmem))

/-- A text that begins with a token: its first character is no blank, and the scan goes on behind
what the token takes. -/
theorem token {c : Char} {text rest : List Char} {token : Token} (hblank : isBlank c = false)
    (h : scanFrom c text = (token, rest)) (hle : rest.length ≤ text.length) :
    Scans (c :: text) [token] rest := by
  intro rounds hrounds
  cases rounds with
  | nil => cases hrounds
  | cons _ rounds =>
    refine ⟨rounds, Nat.le_trans hle (Nat.le_of_succ_le_succ hrounds), ?_⟩
    rw [scanWithin, if_neg (by simp [hblank]), h]
    rfl

theorem mark {c : Char} {token : Token} (hblank : isBlank c = false) (h : mark? c = some token)
    (text : List Char) : Scans (c :: text) [token] text :=
  .token hblank (by rw [scanFrom, h]) (Nat.le_refl _)

/-- A line break with the blanks behind it makes no token, and in the compact layout there is
none. -/
theorem lineBreak (layout : Layout) (depth : Nat) (text : List Char) :
    Scans (layout.lineBreak depth ++ text) [] text := by
  refine blanks fun c hmem => ?_
  cases layout with
  | compact => cases hmem
  | indented =>
    rcases List.mem_cons.1 hmem with rfl | hmem
    · rfl
    · rw [(List.mem_replicate.1 hmem).2]
      rfl

/-- The colon of a member is one token in both layouts, with a blank behind it or without. -/
theorem colon (layout : Layout) (text : List Char) :
    Scans (layout.colon ++ text) [.colon] text := by
  cases layout with
  | compact => exact .mark rfl rfl text
  | indented =>
    have hmark : Scans (':' :: ([' '] ++ text)) [.colon] ([' '] ++ text) := .mark rfl rfl _
    exact hmark.trans (blanks (List.forall_mem_singleton.2 rfl))

/-- A string is one token between its quotes, since its spelling ends nowhere before the closing
one. -/
theorem quoted (value : String) (text : List Char) :
    Scans (Json.quoteString value ++ text) [ofString value] text := by
  have hquote : Json.quoteString value ++ text =
      '"' :: (Quoted.encode value.toList ++ '"' :: text) := by
    rw [Json.quoteString, Quoted.quote, List.cons_append, List.append_assoc]
    rfl
  rw [hquote]
  refine .token rfl (scanText_quote value text) ?_
  rw [List.length_append, List.length_cons]
  omega

/-- A word is a token of its own. The scan compares it letter by letter and asks for nothing behind
it. -/
theorem word {c : Char} {value : Json} (letters : List Char) (hblank : isBlank c = false)
    (h : ∀ text, scanFrom c text = scanValue letters value text) (text : List Char) :
    Scans (c :: (letters ++ text)) [.scalar ⟨.ok value, .ok ()⟩] text := by
  have hword : ∀ letters, scanWord letters (letters ++ text) = .ok text := by
    intro letters
    induction letters with
    | nil => cases text <;> rfl
    | cons letter letters ih => rw [List.cons_append, scanWord, if_pos rfl, ih]
  refine .token hblank ?_ ?_
  · rw [h, scanValue, hword]
  · rw [List.length_append]
    omega

/-- A digit is no blank, no mark and no quote, so where one stands the scan reads a numeral. -/
theorem plain_of_isDigit {c : Char} (h : c.isDigit = true) :
    isBlank c = false ∧ mark? c = none ∧ c ≠ '"' := by
  have hother : ∀ other : Char, other.isDigit = false → c ≠ other := by
    rintro other hother rfl
    exact absurd h (by simp [hother])
  refine ⟨?_, ?_, hother _ (by decide)⟩
  · simp only [isBlank, hother ' ' (by decide), hother '\n' (by decide), hother '\t' (by decide),
      hother '\r' (by decide), decide_false, Bool.or_false]
  · simp only [mark?, hother '\x7b' (by decide), hother '\x7d' (by decide), hother '[' (by decide),
      hother ']' (by decide), hother ':' (by decide), hother ',' (by decide), if_false]

/-- An integer of at most 64 bits is a token, if it ends where a value ends. A digit behind it would
be read as a part of it. -/
theorem integer {number : Number} (hword : number.IsWord) {text : List Char} (h : Ends text) :
    Scans (number.text ++ text) [.scalar ⟨.ok (.number number), .ok ()⟩] text := by
  cases number with
  | real x => exact hword.elim
  | integer value =>
    obtain ⟨numeral, hscan, hvalue⟩ := Numeral.scan_integerText hword h
    have hnumber : scanNumber (Number.integerText value ++ text) =
        (.scalar ⟨.ok (.number (.integer value)), .ok ()⟩, text) := by
      rw [scanNumber, hscan]
      simp only [hvalue]
      rfl
    -- The first character is a sign or a digit.
    have hhead : ∃ c digits, Number.integerText value = c :: digits ∧
        (c = '-' ∨ c.isDigit = true) := by
      rw [Number.integerText]
      split
      · exact ⟨'-', _, rfl, .inl rfl⟩
      · cases hdigits : Number.digitsOf value.natAbs with
        | nil => exact absurd hdigits (Numeral.digitsOf_ne_nil _)
        | cons c digits =>
          refine ⟨c, digits, rfl, .inr (Numeral.isDigit_of_mem_digitsOf (n := value.natAbs) ?_)⟩
          rw [hdigits]
          exact List.mem_cons_self
    obtain ⟨c, digits, htext, hc⟩ := hhead
    have hplain : isBlank c = false ∧ mark? c = none ∧ c ≠ '"' := by
      rcases hc with rfl | hdigit
      · decide
      · exact plain_of_isDigit hdigit
    change Scans (Number.integerText value ++ text) _ _
    rw [htext, List.cons_append] at hnumber ⊢
    refine .token hplain.1 ?_ ?_
    · rw [scanFrom, hplain.2.1]
      simp only [hplain.2.2, hc, if_false, if_true]
      exact hnumber
    · rw [List.length_append]
      omega

end Scans

end Token

/-! ## Printed values -/

namespace Json

open Token

/-- A value is split into its tokens wherever it is printed, at any depth and before anything that
ends a value. That it is so general is what lets the parts of a container be printed deeper than the
container. -/
def Splits (layout : Layout) (value : Json) : Prop :=
  ∀ depth rest, Ends rest → Scans (value.print layout depth ++ rest) value.tokens rest

/-- A line break or a mark of the end follows a value, whatever the layout, so a numeral before it
has its end. -/
theorem ends_lineBreak (layout : Layout) (depth : Nat) {c : Char}
    (h : c ∈ [',', ']', '\x7d', '\n']) (rest : List Char) :
    Ends (layout.lineBreak depth ++ c :: rest) := by
  cases layout with
  | compact => exact ends_cons h rest
  | indented => exact ends_cons (by decide) _

/-- What is printed behind an item begins with a comma, a line break or a closing bracket. -/
theorem ends_printItems (layout : Layout) (depth : Nat) (items : List Json) (rest : List Char) :
    Ends (printItems layout depth items ++ rest) := by
  cases items with
  | nil =>
    rw [printItems, List.append_assoc]
    exact ends_lineBreak layout depth (by decide) rest
  | cons item items =>
    rw [printItems]
    exact ends_cons (by decide) _

theorem ends_printMembers (layout : Layout) (depth : Nat) (members : List (String × Json))
    (rest : List Char) : Ends (printMembers layout depth members ++ rest) := by
  cases members with
  | nil =>
    rw [printMembers, List.append_assoc]
    exact ends_lineBreak layout depth (by decide) rest
  | cons member members =>
    rw [printMembers]
    exact ends_cons (by decide) _

/-- An item, on a line of its own or not, and what is printed behind it. -/
theorem scans_item {layout : Layout} {item : Json} (hitem : item.Splits layout) (depth : Nat)
    {more rest : List Char} {tokens : List Token} (hmore : Ends more) (h : Scans more tokens rest) :
    Scans (layout.lineBreak depth ++ (item.print layout depth ++ more)) (item.tokens ++ tokens)
      rest :=
  (Scans.lineBreak layout depth _).trans ((hitem depth more hmore).trans h)

theorem scans_member {layout : Layout} {value : Json} (hvalue : value.Splits layout)
    (name : String) (depth : Nat) {more rest : List Char} {tokens : List Token}
    (hmore : Ends more) (h : Scans more tokens rest) :
    Scans (layout.lineBreak depth ++ (quoteString name ++ (layout.colon ++
        (value.print layout depth ++ more))))
      (.ofString name :: .colon :: (value.tokens ++ tokens)) rest :=
  (Scans.lineBreak layout depth _).trans ((Scans.quoted name _).trans
    ((Scans.colon layout _).trans ((hvalue depth more hmore).trans h)))

/-- The further items of an array are split into their tokens, if each of them is a value that is
split into its own. -/
theorem scans_printItems {layout : Layout} (depth : Nat) {items : List Json}
    (hitems : ∀ item ∈ items, item.Splits layout) (rest : List Char) :
    Scans (printItems layout depth items ++ rest) (itemTokens items) rest := by
  induction items with
  | nil =>
    rw [printItems, itemTokens, List.append_assoc]
    exact (Scans.lineBreak layout depth _).trans (.mark rfl rfl rest)
  | cons item items ih =>
    have hmore := ih fun other hmem => hitems other (List.mem_cons_of_mem _ hmem)
    have hcomma : Scans (',' :: (layout.lineBreak (depth + 1) ++
        (item.print layout (depth + 1) ++ (printItems layout depth items ++ rest))))
        [.comma] _ := .mark rfl rfl _
    rw [printItems, itemTokens, List.cons_append, List.append_assoc, List.append_assoc]
    exact hcomma.trans (scans_item (hitems item List.mem_cons_self) (depth + 1)
      (ends_printItems layout depth items rest) hmore)

/-- The further members of an object are split into their tokens, as in `scans_printItems`. -/
theorem scans_printMembers {layout : Layout} (depth : Nat) {members : List (String × Json)}
    (hmembers : ∀ member ∈ members, member.2.Splits layout) (rest : List Char) :
    Scans (printMembers layout depth members ++ rest) (memberTokens members) rest := by
  induction members with
  | nil =>
    rw [printMembers, memberTokens, List.append_assoc]
    exact (Scans.lineBreak layout depth _).trans (.mark rfl rfl rest)
  | cons member members ih =>
    have hmore := ih fun other hmem => hmembers other (List.mem_cons_of_mem _ hmem)
    have hcomma : Scans (',' :: (layout.lineBreak (depth + 1) ++ (quoteString member.1 ++
        (layout.colon ++ (member.2.print layout (depth + 1) ++
          (printMembers layout depth members ++ rest)))))) [.comma] _ := .mark rfl rfl _
    rw [printMembers, memberTokens, List.cons_append]
    simp only [List.append_assoc]
    exact hcomma.trans (scans_member (hmembers member List.mem_cons_self) member.1 (depth + 1)
      (ends_printMembers layout depth members rest) hmore)

/-- **A value is split into its tokens**, in either layout and at any depth. By induction over the
value, of which the numbers have to be words. -/
theorem splits (layout : Layout) {value : Json} (h : value.HasWords) : value.Splits layout := by
  intro depth rest hends
  -- At any depth and before any rest that ends a word: so the parts of a container are split where
  -- they stand.
  induction value using Json.induction generalizing depth rest with
  | null =>
    rw [print, tokens]
    exact .word ['u', 'l', 'l'] rfl (fun _ => rfl) rest
  | bool value =>
    cases value <;> rw [print, tokens]
    · exact .word ['a', 'l', 's', 'e'] rfl (fun _ => rfl) rest
    · exact .word ['r', 'u', 'e'] rfl (fun _ => rfl) rest
  | number value =>
    rw [print, tokens]
    exact .integer (h value (by rw [numbers]; exact List.mem_cons_self)) hends
  | string value =>
    rw [print, tokens]
    exact .quoted value rest
  | array items ih =>
    have hitems : ∀ item ∈ items, item.Splits layout := fun item hmem depth rest =>
      ih item hmem (h.item hmem) depth rest
    have hopen : ∀ text, Scans ('[' :: text) [.openArray] text := .mark rfl rfl
    cases items with
    | nil =>
      rw [print, tokens]
      exact (hopen _).trans (.mark rfl rfl rest)
    | cons item items =>
      rw [print, tokens, List.cons_append, List.append_assoc, List.append_assoc]
      exact (hopen _).trans (scans_item (hitems item List.mem_cons_self) (depth + 1)
        (ends_printItems layout depth items rest)
        (scans_printItems depth
          (fun other hmem => hitems other (List.mem_cons_of_mem _ hmem)) rest))
  | object members ih =>
    have hmembers : ∀ member ∈ members, member.2.Splits layout := fun member hmem depth rest =>
      ih member hmem (h.member hmem) depth rest
    have hopen : ∀ text, Scans ('\x7b' :: text) [.openObject] text := .mark rfl rfl
    cases members with
    | nil =>
      rw [print, tokens]
      exact (hopen _).trans (.mark rfl rfl rest)
    | cons member members =>
      rw [print, tokens, List.cons_append]
      simp only [List.append_assoc]
      exact (hopen _).trans (scans_member (hmembers member List.mem_cons_self) member.1 (depth + 1)
        (ends_printMembers layout depth members rest)
        (scans_printMembers depth (fun other hmem => hmembers other (List.mem_cons_of_mem _ hmem))
          rest))

/-- **The tokens of a printed value do not depend on the layout.** So reading back need not know in
which layout a text was written. -/
theorem scan_render (layout : Layout) {value : Json} (h : value.HasWords) :
    scan (value.render layout).toList = value.tokens := by
  have hsplits := splits layout h 0 [] ends_nil
  rw [List.append_nil] at hsplits
  obtain ⟨rounds, -, hscan⟩ := hsplits (value.print layout 0) (Nat.le_refl _)
  rw [render, String.toList_ofList, scan, hscan]
  cases rounds <;> exact List.append_nil _

end Json

end DefineWrap
