/-
The grammar of quoted text.

Between its quotes a string is spelled character by character. What stands for a character
(`Quoted.Stands`) is the character itself, unless it is a quote, a backslash or a control
character, or it is an escape: by a letter, by the number of the character, or by the numbers of
the two halves of a surrogate pair. A string has many spellings, but a spelling has one string,
and its end is where the first quote stands that is not escaped (`Quoted.Spells.ends_unique`).

The reader knows nothing of the grammar: it splits a text into pieces and joins the pieces
afterwards. It accepts exactly the texts that begin with a spelling and a closing quote
(`Quoted.decode_eq_ok_iff`). What the writer makes of a string is one of the spellings of the
string (`Quoted.spells_encode`).
-/
import DefineWrap.Json.Quoted
import DefineWrap.Proofs.Except

set_option autoImplicit false

namespace DefineWrap

namespace Quoted

/-! ## The grammar -/

/-- The letters of the short escapes, each with the character that the escape stands for. A table,
and not a function as the reader has it, so that a character can also be looked up by what it stands
for. -/
def letterEscapes : List (Char × Char) :=
  [('"', '"'), ('\\', '\\'), ('/', '/'), ('b', '\x08'), ('f', '\x0c'), ('n', '\n'), ('r', '\r'),
    ('t', '\t')]

/-- The hexadecimal digits in the order of their values, in lower and in upper case. Both cases are
read, and only the lower one is written. -/
def hexDigits : List (List Char) := ["0123456789abcdef".toList, "0123456789ABCDEF".toList]

/-- A hexadecimal digit of either case and its value, which is its place in one of the two rows. -/
def IsHexDigit (c : Char) (value : Nat) : Prop := ∃ digits ∈ hexDigits, digits[value]? = some c

/-- Four hexadecimal digits and their number. There are always four, so an escape by number has an
end without a mark for it. -/
inductive HexNumber : List Char → Nat → Prop
  | digits {a b c d : Char} {i j k l : Nat} (ha : IsHexDigit a i) (hb : IsHexDigit b j)
    (hc : IsHexDigit c k) (hd : IsHexDigit d l) :
    HexNumber [a, b, c, d] (i * 0x1000 + j * 0x100 + k * 0x10 + l)

/-- A backslash with what belongs to it. Of an escape by number only the first of a pair is meant:
the second one begins with a backslash of its own. -/
inductive IsEscape : List Char → Prop
  | letter {letter c : Char} (h : (letter, c) ∈ letterEscapes) : IsEscape ['\\', letter]
  | number {digits : List Char} {n : Nat} (h : HexNumber digits n) :
    IsEscape ('\\' :: 'u' :: digits)

/-- A character that needs no escape. All other characters may be escaped as well, which is why a
string has many spellings. -/
def IsBare (c : Char) : Prop := c ≠ '"' ∧ c ≠ '\\' ∧ 0x20 ≤ c.toNat

instance : DecidablePred IsBare := fun c =>
  inferInstanceAs (Decidable (c ≠ '"' ∧ c ≠ '\\' ∧ 0x20 ≤ c.toNat))

/-- What stands for a character between quotes. There is no constructor for half a pair, so a text
with one of them alone is no spelling. -/
inductive Stands : List Char → Char → Prop
  | itself {c : Char} (h : IsBare c) : Stands [c] c
  | letter {letter c : Char} (h : (letter, c) ∈ letterEscapes) : Stands ['\\', letter] c
  | number {digits : List Char} {c : Char} (h : HexNumber digits c.toNat) :
    Stands ('\\' :: 'u' :: digits) c
  /-- A character that does not fit 16 bits is split into two halves of ten bits each. -/
  | pair {first second : List Char} {high low : Nat} {c : Char} (hhigh : high < 0x400)
    (hlow : low < 0x400) (hfirst : HexNumber first (0xD800 + high))
    (hsecond : HexNumber second (0xDC00 + low)) (hc : c.toNat = 0x10000 + high * 0x400 + low) :
    Stands ('\\' :: 'u' :: (first ++ '\\' :: 'u' :: second)) c

/-- What is between the quotes of a string: one unit after the other, each standing for a
character. -/
inductive Spells : List Char → List Char → Prop
  | nil : Spells [] []
  | cons {unit spelling text : List Char} {c : Char} (hunit : Stands unit c)
    (hrest : Spells spelling text) : Spells (unit ++ spelling) (c :: text)

/-! ## The reader accepts what is spelled -/

theorem hexValue?_hexDigits :
    ∀ digits ∈ hexDigits, ∀ value < 16, digits[value]?.bind hexValue? = some value := by decide

/-- What the grammar says of a digit is what the reader finds for it. -/
theorem IsHexDigit.hexValue? {c : Char} {value : Nat} (h : IsHexDigit c value) :
    hexValue? c = some value ∧ value < 16 := by
  obtain ⟨digits, hmem, hget⟩ := h
  have hlength : ∀ digits ∈ hexDigits, digits.length = 16 := by decide
  have hvalue : value < 16 := by
    rw [← hlength digits hmem]
    exact (List.getElem?_eq_some_iff.1 hget).1
  refine ⟨?_, hvalue⟩
  have hread := hexValue?_hexDigits digits hmem value hvalue
  rwa [hget] at hread

theorem shortEscape?_of_mem : ∀ entry ∈ letterEscapes,
    shortEscape? entry.1 = some entry.2 ∧ entry.1 ≠ 'u' := by decide

/-- Four digits have a number of at most 16 bits, so a larger character takes a pair. -/
theorem HexNumber.lt {digits : List Char} {n : Nat} (h : HexNumber digits n) : n < 0x10000 := by
  obtain ⟨ha, hb, hc, hd⟩ := h
  have hi := ha.hexValue?.2
  have hj := hb.hexValue?.2
  have hk := hc.hexValue?.2
  have hl := hd.hexValue?.2
  omega

/-- An escape by a letter is one piece. The letter of an escape by number is kept out, since it
begins more than it says. -/
theorem pieces_shortEscape {letter c : Char} (hletter : letter ≠ 'u')
    (h : shortEscape? letter = some c) (text : List Char) :
    pieces ('\\' :: letter :: text) = (.char c :: (pieces text).1, (pieces text).2) := by
  rw [pieces]
  · simp only [h]
  · intro _ _ _ _ _ hu
    exact absurd hu hletter
  · exact hletter

theorem HexNumber.pieces {digits : List Char} {n : Nat} (h : HexNumber digits n)
    (rest : List Char) :
    pieces ('\\' :: 'u' :: (digits ++ rest)) = (pieceOf n :: (pieces rest).1, (pieces rest).2) := by
  obtain ⟨ha, hb, hc, hd⟩ := h
  change Quoted.pieces ('\\' :: 'u' :: _ :: _ :: _ :: _ :: rest) = _
  rw [Quoted.pieces, hexNumber?, ha.hexValue?.1, hb.hexValue?.1, hc.hexValue?.1, hd.hexValue?.1]
  simp only [Prod.mk.injEq, List.cons.injEq, and_true]
  congr 1
  omega

/-- The pieces of a text that is spelled: they are put before those of the rest, and they join to
the string. Both are said for anything behind, so that two such texts can be put one after the
other. -/
def IsRead (spelling text : List Char) : Prop :=
  ∃ found, (∀ rest, pieces (spelling ++ rest) = (found ++ (pieces rest).1, (pieces rest).2)) ∧
    ∀ ending more, join ending (found ++ more) = (join ending more).map (text ++ ·)

/-- The character of a number has this number, if it is that of a character at all. -/
theorem toNat_ofNat {n : Nat} (h : n < 0xD800 ∨ (0xDFFF < n ∧ n < 0x110000)) :
    (Char.ofNat n).toNat = n := by
  rw [Char.ofNat, dif_pos h]
  rfl

/-- The first half of a pair is told by its number, and the ten bits of it are read off the
number. -/
theorem pieceOf_eq_lead_iff {n high : Nat} :
    pieceOf n = .lead high ↔ n = 0xD800 + high ∧ high < 0x400 := by
  unfold pieceOf
  split
  · rw [Piece.lead.injEq]
    omega
  · split <;> simp <;> omega

theorem pieceOf_eq_trail_iff {n low : Nat} :
    pieceOf n = .trail low ↔ n = 0xDC00 + low ∧ low < 0x400 := by
  unfold pieceOf
  split
  · simp
    omega
  · split <;> simp <;> omega

/-- A number that is no half of a pair is that of a character. The halves are not numbers of
characters, so of the three kinds of pieces only this one is left. -/
theorem pieceOf_eq_char_iff {n : Nat} {c : Char} (h : n < 0x10000) :
    pieceOf n = .char c ↔ n = c.toNat := by
  have hvalid : c.toNat < 0xD800 ∨ (0xDFFF < c.toNat ∧ c.toNat < 0x110000) := c.valid
  unfold pieceOf
  split
  · simp
    omega
  split
  · simp
    omega
  rw [Piece.char.injEq]
  constructor
  · rintro rfl
    exact (toNat_ofNat (by omega)).symm
  · rintro rfl
    exact Char.ofNat_toNat c

/-- A character that stands for itself is one piece. It is none of those that the reader stops or
turns at. -/
theorem pieces_itself {c : Char} (h : IsBare c) (rest : List Char) :
    pieces (c :: rest) = (.char c :: (pieces rest).1, (pieces rest).2) := by
  obtain ⟨hquote, hslash, hcontrol⟩ := h
  rw [pieces.eq_def]
  split <;> simp_all

/-- What stands for a character is read as one piece, or as two for a pair. The two are joined again
by what comes after them, so here the joining has to be looked at with the rest. -/
theorem Stands.isRead {unit : List Char} {c : Char} (h : Stands unit c) : IsRead unit [c] := by
  cases h with
  | itself hbare => exact ⟨[.char c], pieces_itself hbare, fun ending more => rfl⟩
  | letter hmem =>
    have hletter := shortEscape?_of_mem _ hmem
    exact ⟨[.char c], pieces_shortEscape hletter.2 hletter.1, fun ending more => rfl⟩
  | number hdigits =>
    refine ⟨[.char c], fun rest => ?_, fun ending more => rfl⟩
    rw [← (pieceOf_eq_char_iff hdigits.lt).2 rfl]
    exact hdigits.pieces rest
  | @pair first second high low _ hhigh hlow hfirst hsecond hc =>
    refine ⟨[.lead high, .trail low], fun rest => ?_, fun ending more => ?_⟩
    · have hlead : pieceOf (0xD800 + high) = .lead high := pieceOf_eq_lead_iff.2 ⟨rfl, hhigh⟩
      have htrail : pieceOf (0xDC00 + low) = .trail low := pieceOf_eq_trail_iff.2 ⟨rfl, hlow⟩
      have htext : '\\' :: 'u' :: (first ++ '\\' :: 'u' :: second) ++ rest =
          '\\' :: 'u' :: (first ++ '\\' :: 'u' :: (second ++ rest)) := by simp
      rw [htext, hfirst.pieces, hsecond.pieces, hlead, htrail]
      rfl
    · have hchar : pairChar high low = c := by
        rw [pairChar, ← hc, Char.ofNat_toNat]
      rw [← hchar]
      rfl

/-- A spelling is read unit by unit, in the order in which it is made. -/
theorem Spells.isRead {spelling text : List Char} (h : Spells spelling text) :
    IsRead spelling text := by
  induction h with
  | nil =>
    refine ⟨[], fun _ => rfl, fun ending more => ?_⟩
    rw [List.nil_append]
    cases join ending more <;> rfl
  | cons hunit _ ih =>
    obtain ⟨first, hfirst, hjoin⟩ := hunit.isRead
    obtain ⟨others, hothers, hjoins⟩ := ih
    refine ⟨first ++ others, fun rest => ?_, fun ending more => ?_⟩
    · rw [List.append_assoc, hfirst, hothers, List.append_assoc]
    · rw [List.append_assoc, hjoin, hjoins]
      cases join ending more <;> rfl

/-- **What is spelled is read**, up to the closing quote and no further. The quote ends the pieces,
and whatever stands behind it is left as it is. -/
theorem Spells.decode {spelling text : List Char} (h : Spells spelling text) (rest : List Char) :
    decode (spelling ++ '"' :: rest) = .ok (text, rest) := by
  obtain ⟨found, hpieces, hjoin⟩ := h.isRead
  have hread := hjoin (.ok ()) []
  rw [List.append_nil] at hread
  rw [Quoted.decode, hpieces, pieces, List.append_nil]
  simp only [hread]
  change Except.ok (text ++ [], rest) = _
  rw [List.append_nil]

/-- **A string has one end.** Two spellings that begin a text, each with a closing quote behind it,
are the same, and they are of one string. It follows from the reader, which has one result for a
text, and needs no comparison of the two spellings. -/
theorem Spells.ends_unique {first second text other rest others : List Char}
    (h : Spells first text) (hother : Spells second other)
    (heq : first ++ '"' :: rest = second ++ '"' :: others) :
    first = second ∧ text = other ∧ rest = others := by
  have hread := h.decode rest
  rw [heq, hother.decode, Except.ok.injEq, Prod.mk.injEq] at hread
  obtain ⟨rfl, rfl⟩ := hread
  exact ⟨List.append_cancel_right heq, rfl, rfl⟩

/-- A spelling is that of one string, since with a closing quote behind it the text is read once. -/
theorem Spells.unique {spelling text other : List Char} (h : Spells spelling text)
    (hother : Spells spelling other) : text = other := by
  have hends : spelling ++ ['"'] = spelling ++ ['"'] := rfl
  exact (h.ends_unique hother hends).2.1

/-! ## The reader accepts nothing else -/

/-- A character in a row of digits is a digit, of the value that its place in the row gives. The
reader asks for ranges, and each of its three ranges is a part of a row. -/
theorem isHexDigit_of_range {c : Char} {count first value : Nat}
    (hrow : ∀ n < count, IsHexDigit (Char.ofNat (first + n)) (value + n))
    (hc : first ≤ c.toNat ∧ c.toNat < first + count) :
    IsHexDigit c (value + (c.toNat - first)) := by
  have hdigit := hrow (c.toNat - first) (by omega)
  rwa [Nat.add_sub_cancel' hc.1, Char.ofNat_toNat] at hdigit

/-- The reader takes no other characters for digits than the grammar has. -/
theorem isHexDigit_of_hexValue? {c : Char} {value : Nat} (h : hexValue? c = some value) :
    IsHexDigit c value := by
  have hdecimal : ∀ n < 10, IsHexDigit (Char.ofNat (48 + n)) (0 + n) := by
    unfold IsHexDigit
    decide
  have hlower : ∀ n < 6, IsHexDigit (Char.ofNat (97 + n)) (10 + n) := by
    unfold IsHexDigit
    decide
  have hupper : ∀ n < 6, IsHexDigit (Char.ofNat (65 + n)) (10 + n) := by
    unfold IsHexDigit
    decide
  -- The three rows of digits, each by its range of characters.
  unfold hexValue? at h
  split at h
  next hrange =>
    have hbounds : 48 ≤ c.toNat ∧ c.toNat ≤ 57 := Char.isDigit_iff_toNat.1 hrange
    have hvalue : 0 + (c.toNat - 48) = value := by rw [← Option.some.inj h, Nat.zero_add]
    exact hvalue ▸ isHexDigit_of_range hdecimal (by omega)
  split at h
  next hrange =>
    have hbounds : 97 ≤ c.toNat ∧ c.toNat ≤ 102 := hrange
    have hvalue : 10 + (c.toNat - 97) = value := by
      rw [← Option.some.inj h]
      omega
    exact hvalue ▸ isHexDigit_of_range hlower (by omega)
  split at h
  next hrange =>
    have hbounds : 65 ≤ c.toNat ∧ c.toNat ≤ 70 := hrange
    have hvalue : 10 + (c.toNat - 65) = value := by
      rw [← Option.some.inj h]
      omega
    exact hvalue ▸ isHexDigit_of_range hupper (by omega)
  · cases h

theorem hexNumber_of_hexNumber? {a b c d : Char} {n : Nat} (h : hexNumber? a b c d = some n) :
    HexNumber [a, b, c, d] n := by
  unfold hexNumber? at h
  split at h
  next i j k l ha hb hc hd =>
    have hn : i * 0x1000 + j * 0x100 + k * 0x10 + l = n := by
      have := Option.some.inj h
      omega
    rw [← hn]
    exact .digits (isHexDigit_of_hexValue? ha) (isHexDigit_of_hexValue? hb)
      (isHexDigit_of_hexValue? hc) (isHexDigit_of_hexValue? hd)
  · cases h

/-- The reader takes no other letters for escapes than the table has. -/
theorem mem_letterEscapes_of_shortEscape? {letter c : Char} (h : shortEscape? letter = some c) :
    (letter, c) ∈ letterEscapes := by
  unfold shortEscape? at h
  split at h
  next hself =>
    obtain rfl := Option.some.inj h
    rcases hself with rfl | rfl | rfl <;> decide
  have hnumbered : ∀ {n : Nat}, (letter, Char.ofNat n) ∈ letterEscapes →
      some (Char.ofNat n) = some c → (letter, c) ∈ letterEscapes := by
    intro n hmem hn
    rwa [← Option.some.inj hn]
  -- The five letters that stand for control characters.
  iterate 5
    split at h
    next hletter =>
      subst hletter
      exact hnumbered (by decide) h
  cases h

/-- What one piece is read from. Other than `Stands` this speaks of halves of pairs as well, because
the reader finds them one at a time. -/
inductive Denotes : List Char → Piece → Prop
  | itself {c : Char} (h : IsBare c) : Denotes [c] (.char c)
  | letter {letter c : Char} (h : (letter, c) ∈ letterEscapes) : Denotes ['\\', letter] (.char c)
  | number {digits : List Char} {n : Nat} {piece : Piece} (h : HexNumber digits n)
    (hpiece : pieceOf n = piece) : Denotes ('\\' :: 'u' :: digits) piece

/-- What several pieces are read from, one behind the other. -/
inductive Splits : List Char → List Piece → Prop
  | nil : Splits [] []
  | cons {unit spelling : List Char} {piece : Piece} {found : List Piece}
    (hunit : Denotes unit piece) (hrest : Splits spelling found) :
    Splits (unit ++ spelling) (piece :: found)

/-- Where the reader of pieces finds a closing quote, all that stands before it are units of the
grammar. The induction follows the reader, whose cases they are. -/
theorem splits_of_pieces {text rest : List Char} {found : List Piece}
    (h : pieces text = (found, .ok rest)) :
    ∃ spelling, text = spelling ++ '"' :: rest ∧ Splits spelling found := by
  -- The cases are those where the text goes on. All others end in a fault, and leave no rest.
  fun_induction pieces text generalizing found with
  | case2 after =>
    obtain ⟨rfl, hrest⟩ := Prod.mk.inj h
    obtain rfl := Except.ok.inj hrest
    exact ⟨[], rfl, .nil⟩
  | case4 a b c d after n hnumber more ending hmore ih =>
    obtain ⟨rfl, rfl⟩ := Prod.mk.inj h
    obtain ⟨spelling, rfl, hsplits⟩ := ih hmore
    exact ⟨_, rfl, .cons (.number (hexNumber_of_hexNumber? hnumber) rfl) hsplits⟩
  | case7 letter after _ _ c hletter more ending hmore ih =>
    obtain ⟨rfl, rfl⟩ := Prod.mk.inj h
    obtain ⟨spelling, rfl, hsplits⟩ := ih hmore
    exact ⟨_, rfl, .cons (.letter (mem_letterEscapes_of_shortEscape? hletter)) hsplits⟩
  | case10 c after hquote _ _ hescape hend hcontrol more ending hmore ih =>
    obtain ⟨rfl, rfl⟩ := Prod.mk.inj h
    obtain ⟨spelling, rfl, hsplits⟩ := ih hmore
    -- A backslash at the end of the text would leave no closing quote.
    have hslash : c ≠ '\\' := by
      intro hc
      cases spelling with
      | nil => exact hescape '"' _ hc rfl
      | cons letter others => exact hescape letter _ hc rfl
    exact ⟨_, rfl, .cons (.itself ⟨hquote, hslash, Nat.le_of_not_lt hcontrol⟩) hsplits⟩
  | _ => cases (Prod.mk.inj h).2

/-- A piece that is a character is read from something that stands for it. -/
theorem Denotes.stands {unit : List Char} {c : Char} (h : Denotes unit (.char c)) :
    Stands unit c := by
  cases h with
  | itself hbare => exact .itself hbare
  | letter hletter => exact .letter hletter
  | number hnumber hpiece =>
    rw [(pieceOf_eq_char_iff hnumber.lt).1 hpiece] at hnumber
    exact .number hnumber

/-- Two halves are read from two escapes by number, and the escapes together stand for the character
that the halves make. -/
theorem stands_of_denotes_pair {first second : List Char} {high low : Nat}
    (hfirst : Denotes first (.lead high)) (hsecond : Denotes second (.trail low)) :
    Stands (first ++ second) (pairChar high low) := by
  cases hfirst with
  | number hnumber hpiece =>
    cases hsecond with
    | number hother hpair =>
      obtain ⟨rfl, hhigh⟩ := pieceOf_eq_lead_iff.1 hpiece
      obtain ⟨rfl, hlow⟩ := pieceOf_eq_trail_iff.1 hpair
      exact .pair hhigh hlow hnumber hother (toNat_ofNat (by omega))

/-- Pieces that are followed by a fault join to nothing, so a text without a closing quote is no
string. -/
theorem join_error_ne_ok (fault : Fault) (found : List Piece) (text : List Char) :
    join (.error fault) found ≠ .ok text := by
  generalize hending : Except.error fault = ending
  intro h
  fun_induction join ending found generalizing text with
  | case1 => subst hending; cases h
  | case2 c rest ih =>
    obtain ⟨others, hothers, -⟩ := Except.map_ok h
    exact ih others hothers
  | case3 high low rest ih =>
    obtain ⟨others, hothers, -⟩ := Except.map_ok h
    exact ih others hothers
  | _ => cases h

/-- Pieces that join to a string are read from a spelling of it. Where they join, no half is left
alone. -/
theorem Splits.spells {spelling text : List Char} {found : List Piece} (h : Splits spelling found)
    (hjoin : join (.ok ()) found = .ok text) : Spells spelling text := by
  -- Joining takes two pieces at once where a lead stands, and so does this induction.
  generalize hending : Except.ok () = ending at hjoin
  fun_induction join ending found generalizing spelling text with
  | case1 =>
    subst hending
    obtain rfl := Except.ok.inj hjoin
    cases h
    exact .nil
  | case2 c rest ih =>
    obtain ⟨others, hothers, rfl⟩ := Except.map_ok hjoin
    cases h with
    | cons hunit hrest => exact .cons hunit.stands (ih hrest hothers)
  | case3 high low rest ih =>
    obtain ⟨others, hothers, rfl⟩ := Except.map_ok hjoin
    cases h with
    | cons hlead hrest =>
      cases hrest with
      | cons htrail hrest =>
        rw [← List.append_assoc]
        exact .cons (stands_of_denotes_pair hlead htrail) (ih hrest hothers)
  | _ => cases hjoin

/-- **The reader accepts what the grammar spells**, and nothing else. One direction is
`Spells.decode`; the other one finds the spelling by following the reader. -/
theorem decode_eq_ok_iff {text value rest : List Char} :
    decode text = .ok (value, rest) ↔
      ∃ spelling, text = spelling ++ '"' :: rest ∧ Spells spelling value := by
  constructor
  · intro h
    unfold decode at h
    split at h
    next found after hpieces =>
      obtain ⟨others, hjoin, heq⟩ := Except.map_ok h
      obtain ⟨rfl, rfl⟩ := Prod.mk.inj heq
      obtain ⟨spelling, rfl, hsplits⟩ := splits_of_pieces hpieces
      exact ⟨spelling, rfl, hsplits.spells hjoin⟩
    next found fault hpieces =>
      obtain ⟨others, hjoin, -⟩ := Except.map_ok h
      exact absurd hjoin (join_error_ne_ok fault found others)
  · rintro ⟨spelling, rfl, hspells⟩
    exact hspells.decode rest

/-! ## The writer spells -/

theorem isHexDigit_hexDigit : ∀ value < 16, IsHexDigit (hexDigit value) value := by
  unfold IsHexDigit
  decide

/-- **What is written for a character stands for it.** By the table for those that have a letter, by
number for the other control characters, and as itself for all others. -/
theorem stands_escape (c : Char) : Stands (escape c) c := by
  have hnumbered : ∀ {letter : Char} {n : Nat}, (letter, Char.ofNat n) ∈ letterEscapes →
      c.toNat = n → Stands ['\\', letter] c := by
    intro letter n hmem hn
    rw [← hn, Char.ofNat_toNat] at hmem
    exact .letter hmem
  -- The cases are the branches of the writer, in order.
  unfold escape
  split
  next hquote =>
    subst hquote
    exact .letter (by decide)
  split
  next hslash =>
    subst hslash
    exact .letter (by decide)
  next hquote hslash =>
  split
  next hback => exact hnumbered (by decide) hback
  split
  next htab => exact hnumbered (by decide) htab
  split
  next hline => exact hnumbered (by decide) hline
  split
  next hpage => exact hnumbered (by decide) hpage
  split
  next hreturn => exact hnumbered (by decide) hreturn
  split
  next hcontrol =>
    have hzero : IsHexDigit '0' 0 := isHexDigit_hexDigit 0 (by decide)
    have hdigits : HexNumber ['0', '0', hexDigit (c.toNat / 16), hexDigit (c.toNat % 16)]
        (0 * 0x1000 + 0 * 0x100 + c.toNat / 16 * 0x10 + c.toNat % 16) :=
      .digits hzero hzero (isHexDigit_hexDigit _ (by omega)) (isHexDigit_hexDigit _ (by omega))
    have hnumber : 0 * 0x1000 + 0 * 0x100 + c.toNat / 16 * 0x10 + c.toNat % 16 = c.toNat := by omega
    rw [hnumber] at hdigits
    exact .number hdigits
  next hcontrol => exact .itself ⟨hquote, hslash, Nat.le_of_not_lt hcontrol⟩

/-- **What is written for a string spells it**, character by character. So all that is known of
spellings holds of what is written. -/
theorem spells_encode (text : List Char) : Spells (encode text) text := by
  induction text with
  | nil => exact .nil
  | cons c text ih => exact .cons (stands_escape c) ih

/-! ## What is seen of a spelling from outside -/

/-- The ends of a text that begin with a character that no backslash escapes. It passes over the
character behind a backslash, whatever it is, as a reader would that knows nothing else of
escapes. -/
def exposed : List Char → List (List Char)
  | [] => []
  | '\\' :: c :: rest => ('\\' :: c :: rest) :: exposed rest
  | c :: rest => (c :: rest) :: exposed rest

/-- A place in a text where no string ends: there is no quote, and a backslash only if an escape
begins with it. -/
def IsOpen (tail : List Char) : Prop :=
  ∀ c ∈ tail.head?, c ≠ '"' ∧ (c = '\\' → ∃ escape, IsEscape escape ∧ escape <+: tail)

theorem exposed_of_ne {c : Char} (h : c ≠ '\\') (rest : List Char) :
    exposed (c :: rest) = (c :: rest) :: exposed rest := by
  rw [exposed.eq_def]
  split <;> simp_all

theorem isOpen_of_ne {c : Char} (hquote : c ≠ '"') (hslash : c ≠ '\\') (rest : List Char) :
    IsOpen (c :: rest) := by
  intro other hother
  obtain rfl : c = other := Option.some.inj hother
  exact ⟨hquote, fun h => absurd h hslash⟩

theorem IsEscape.isOpen {escape : List Char} (h : IsEscape escape) (rest : List Char) :
    IsOpen (escape ++ rest) := by
  intro c hc
  have hhead : (escape ++ rest).head? = some '\\' := by cases h <;> rfl
  obtain rfl : '\\' = c := Option.some.inj (hhead.symm.trans hc)
  exact ⟨by decide, fun _ => ⟨escape, h, List.prefix_append _ _⟩⟩

theorem isBare_of_isHexDigit {c : Char} {value : Nat} (h : IsHexDigit c value) : IsBare c := by
  have hall : ∀ digits ∈ hexDigits, digits.all (fun c => decide (IsBare c)) = true := by decide
  obtain ⟨digits, hmem, hget⟩ := h
  exact of_decide_eq_true (List.all_eq_true.1 (hall digits hmem) c (List.mem_of_getElem? hget))

theorem HexNumber.isBare {digits : List Char} {n : Nat} (h : HexNumber digits n) :
    ∀ c ∈ digits, IsBare c := by
  obtain ⟨ha, hb, hc, hd⟩ := h
  simp only [List.forall_mem_cons]
  exact ⟨isBare_of_isHexDigit ha, isBare_of_isHexDigit hb, isBare_of_isHexDigit hc,
    isBare_of_isHexDigit hd, fun _ hmem => absurd hmem List.not_mem_nil⟩

/-- Characters that stand for themselves are open places. What is left are the places behind them,
as none of them is a backslash that could hide one. -/
theorem isOpen_of_mem_exposed_bare {bare rest tail : List Char} (h : ∀ c ∈ bare, IsBare c)
    (hmem : tail ∈ exposed (bare ++ rest)) : IsOpen tail ∨ tail ∈ exposed rest := by
  induction bare with
  | nil => exact .inr hmem
  | cons c bare ih =>
    have hc := h c List.mem_cons_self
    rw [List.cons_append, exposed_of_ne hc.2.1] at hmem
    rcases List.mem_cons.1 hmem with rfl | hmem
    · exact .inl (isOpen_of_ne hc.1 hc.2.1 _)
    · exact ih (fun other hother => h other (List.mem_cons_of_mem _ hother)) hmem

/-- An escape has one open place at its beginning, and its letters or digits are no other. -/
theorem IsEscape.isOpen_of_mem_exposed {escape rest tail : List Char} (h : IsEscape escape)
    (hmem : tail ∈ exposed (escape ++ rest)) : IsOpen tail ∨ tail ∈ exposed rest := by
  have hopen := h.isOpen rest
  cases h with
  | letter hletter =>
    change tail ∈ _ :: exposed rest at hmem
    rcases List.mem_cons.1 hmem with rfl | hmem
    · exact .inl hopen
    · exact .inr hmem
  | @number digits n hdigits =>
    change tail ∈ _ :: exposed (digits ++ rest) at hmem
    rcases List.mem_cons.1 hmem with rfl | hmem
    · exact .inl hopen
    · exact isOpen_of_mem_exposed_bare hdigits.isBare hmem

/-- The places in a unit are open. A pair is two escapes here, as from outside it looks like two
characters. -/
theorem Stands.isOpen_of_mem_exposed {unit rest tail : List Char} {c : Char} (h : Stands unit c)
    (hmem : tail ∈ exposed (unit ++ rest)) : IsOpen tail ∨ tail ∈ exposed rest := by
  cases h with
  | itself hbare =>
    have hall : ∀ other ∈ [c], IsBare other := by
      intro other hother
      rwa [List.mem_singleton.1 hother]
    exact isOpen_of_mem_exposed_bare hall hmem
  | letter hletter => exact (IsEscape.letter hletter).isOpen_of_mem_exposed hmem
  | number hdigits => exact (IsEscape.number hdigits).isOpen_of_mem_exposed hmem
  | pair _ _ hfirst hsecond _ =>
    -- The escapes of the two halves stand one after the other.
    rw [List.cons_append, List.cons_append, List.append_assoc] at hmem
    rcases (IsEscape.number hfirst).isOpen_of_mem_exposed hmem with hopen | hmem
    · exact .inl hopen
    · exact (IsEscape.number hsecond).isOpen_of_mem_exposed hmem

/-- **No place in a spelling looks like its end**, and no backslash is out of place. By induction
over the units, each of which has open places only. -/
theorem Spells.isOpen {spelling text : List Char} (h : Spells spelling text) :
    ∀ tail ∈ exposed spelling, IsOpen tail := by
  induction h with
  | nil => exact fun _ hmem => absurd hmem List.not_mem_nil
  | cons hunit _ ih =>
    intro tail hmem
    exact (hunit.isOpen_of_mem_exposed hmem).elim id (ih tail)

/-- No unit has a control character in it: those that need an escape are written with letters and
digits. -/
theorem Stands.printable {unit : List Char} {c : Char} (h : Stands unit c) :
    ∀ other ∈ unit, 0x20 ≤ other.toNat := by
  have hletters : ∀ entry ∈ letterEscapes, 0x20 ≤ entry.1.toNat := by decide
  have hmarks : 0x20 ≤ '\\'.toNat ∧ 0x20 ≤ 'u'.toNat := by decide
  have hdigits : ∀ {digits : List Char} {n : Nat}, HexNumber digits n →
      ∀ other ∈ digits, 0x20 ≤ other.toNat := fun h other hmem => (h.isBare other hmem).2.2
  cases h with
  | itself hbare =>
    intro other hmem
    rw [List.mem_singleton.1 hmem]
    exact hbare.2.2
  | letter hletter =>
    simp only [List.forall_mem_cons]
    exact ⟨hmarks.1, hletters _ hletter, fun _ hmem => absurd hmem List.not_mem_nil⟩
  | number hnumber =>
    simp only [List.forall_mem_cons]
    exact ⟨hmarks.1, hmarks.2, hdigits hnumber⟩
  | pair _ _ hfirst hsecond _ =>
    simp only [List.forall_mem_cons, List.forall_mem_append]
    exact ⟨hmarks.1, hmarks.2, hdigits hfirst, hmarks.1, hmarks.2, hdigits hsecond⟩

/-- A spelling has no control characters, so it stands on one line of a text whatever the string
is. -/
theorem Spells.printable {spelling text : List Char} (h : Spells spelling text) :
    ∀ c ∈ spelling, 0x20 ≤ c.toNat := by
  induction h with
  | nil => exact fun _ hmem => absurd hmem List.not_mem_nil
  | cons hunit _ ih => exact List.forall_mem_append.2 ⟨hunit.printable, ih⟩

end Quoted

end DefineWrap
