/-
Strings and integers read back as they are written.

What is written for a string is one of its spellings, and a spelling is read up to its end and no
further. So a quoted text is one token, that of the string (`Token.scanText_quote`).

An integer is written by its digits. Read as one word, the digits give the integer back as long
as it fits (`takeWhole_digitsOf`), and the numeral ends where a value in a text ends
(`Token.Ends`): before a comma, a closing bracket or a line break.
-/
import DefineWrap.Json.Token
import DefineWrap.Proofs.Json.Grammar

set_option autoImplicit false

namespace DefineWrap

/-! ## Strings -/

namespace Token

/-- The token of a string, as it is when nothing is wrong with the text between the quotes. -/
def ofString (value : String) : Token := .quoted ⟨.ok value, .ok ()⟩

/-- What is read between quotes is the token of a string exactly if the string is what the text says
up to the closing quote. -/
theorem scanText_eq_ofString_iff {text rest : List Char} {value : String} :
    scanText text = (ofString value, rest) ↔ Quoted.decode text = .ok (value.toList, rest) := by
  unfold scanText Quoted.decode
  cases Quoted.pieces text with
  | mk found ending =>
    cases ending with
    | error fault =>
      -- Without a closing quote there is a fault in the token, and nothing to join.
      refine iff_of_false (fun h => ?_) fun h => ?_
      · injection (Prod.mk.inj h).1 with hlexeme
        cases (Lexeme.mk.inj hlexeme).2
      · obtain ⟨joined, hjoin, -⟩ := Except.map_ok h
        exact Quoted.join_error_ne_ok fault found joined hjoin
    | ok after =>
      dsimp only
      cases Quoted.join (.ok ()) found with
      | error fault => exact iff_of_false (by rintro ⟨⟩) (by rintro ⟨⟩)
      | ok joined =>
        simp only [Except.map, ofString, Prod.mk.injEq, Token.quoted.injEq, Lexeme.mk.injEq,
          Except.ok.injEq, and_true]
        rw [← String.toList_inj, String.toList_ofList]

/-- **A string reads back as it is written**, and what stands behind it is left. What is written is
one of the spellings of the string, so this is a case of `Quoted.Spells.decode`. -/
theorem scanText_quote (value : String) (rest : List Char) :
    scanText (Quoted.encode value.toList ++ '"' :: rest) = (ofString value, rest) :=
  scanText_eq_ofString_iff.2 ((Quoted.spells_encode value.toList).decode rest)

end Token

/-! ## Integers -/

/-- Whether a number is an integer of at most 64 bits, signed or unsigned. Larger integers become
real numbers when they are read, and lose digits. -/
def Number.IsWord : Number → Prop
  | .integer value => -0x8000000000000000 ≤ value ∧ value ≤ 0xFFFFFFFFFFFFFFFF
  | .real _ => False

instance : DecidablePred Number.IsWord := fun number => by
  cases number <;> unfold Number.IsWord <;> infer_instance

namespace Token

/-- What follows a value in a text: nothing, or a character that goes on with no value. In a printed
text no blank stands there but a line break. -/
def Ends (rest : List Char) : Prop := ∀ c ∈ rest.head?, c ∈ [',', ']', '\x7d', '\n']

theorem ends_nil : Ends [] := fun _ hc => absurd hc (Option.not_mem_none _)

theorem ends_cons {c : Char} (h : c ∈ [',', ']', '\x7d', '\n']) (rest : List Char) :
    Ends (c :: rest) := by
  intro other hother
  rw [List.head?_cons, Option.mem_some_iff] at hother
  rwa [← hother]

end Token

namespace Numeral

open Number

theorem digitsOf_ne_nil (n : Nat) : digitsOf n ≠ [] := Nat.toDigits_ne_nil

theorem isDigit_of_mem_digitsOf {n : Nat} {c : Char} (h : c ∈ digitsOf n) : c.isDigit = true :=
  Nat.isDigit_of_mem_toDigits (by decide) (by decide) h

/-- Only zero begins with a zero, so the digits of a number are a numeral as JSON has it. -/
theorem head?_digitsOf {n : Nat} (h : (digitsOf n).head? = some '0') : n = 0 := by
  have hdigit : ∀ n < 10, Nat.digitChar n = '0' → n = 0 := by decide
  induction n using Nat.strongRecOn with
  | _ n ih =>
    rw [digitsOf, Nat.toDigits_eq_if (by decide)] at h
    split at h
    next hlt =>
      rw [List.head?_cons, Option.some_inj] at h
      exact hdigit n hlt h
    next hge =>
      have hfirst : (digitsOf (n / 10)).head? = some '0' := by
        cases hdigits : digitsOf (n / 10) with
        | nil => exact absurd hdigits (digitsOf_ne_nil (n / 10))
        | cons c digits =>
          rw [digitsOf] at hdigits
          rwa [hdigits] at h
      have hzero := ih (n / 10) (by omega) hfirst
      omega

theorem length_digitsOf_zero : (digitsOf 0).length = 1 := by decide

/-- Further digits make a number no smaller. If the whole number fits a word, so do all beginnings
of it. -/
theorem le_ofDigitChars (digits : List Char) (word : Nat) :
    word ≤ Nat.ofDigitChars 10 digits word := by
  rw [Nat.ofDigitChars_eq_foldl]
  induction digits generalizing word with
  | nil => exact Nat.le_refl _
  | cons c digits ih =>
    rw [List.foldl_cons]
    exact Nat.le_trans (by omega) (ih _)

/-- Digits that fit one word are taken as one. The reader goes on with what fits and counts the
digits that do not; for such digits it never has to. -/
theorem takeWhole_aux (digits : List Char) (word : Nat)
    (h : Nat.ofDigitChars 10 digits word ≤ maxWord) :
    digits.foldl
      (fun l c =>
        let next := l.word * 10 + digitValue c
        if l.full ∨ maxWord < next then ⟨l.word, l.power + 1, true⟩ else ⟨next, l.power, false⟩)
      (⟨word, 0, false⟩ : Leading) = ⟨Nat.ofDigitChars 10 digits word, 0, false⟩ := by
  induction digits generalizing word with
  | nil => rw [Nat.ofDigitChars_eq_foldl]; rfl
  | cons c digits ih =>
    have hnext : Nat.ofDigitChars 10 (c :: digits) word =
        Nat.ofDigitChars 10 digits (word * 10 + digitValue c) := by
      rw [Nat.ofDigitChars_eq_foldl, Nat.ofDigitChars_eq_foldl, List.foldl_cons, Nat.mul_comm]
      rfl
    rw [hnext] at h ⊢
    have hfits : ¬ maxWord < word * 10 + digitValue c :=
      Nat.not_lt.2 (Nat.le_trans (le_ofDigitChars digits _) h)
    rw [List.foldl_cons]
    simp only [hfits, Bool.false_eq_true, or_false, if_false]
    exact ih _ h

/-- The digits of a number that fits a word are taken back as the number. -/
theorem takeWhole_digitsOf {n : Nat} (h : n ≤ maxWord) :
    takeWhole (digitsOf n) = ⟨n, 0, false⟩ := by
  have hvalue : Nat.ofDigitChars 10 (digitsOf n) 0 = n :=
    Nat.ofDigitChars_toDigits (by decide) (by decide)
  rw [takeWhole, takeWhole_aux _ _ (by rwa [hvalue]), hvalue]

/-- The characters behind an integer are no part of it: no digit, no point and no exponent begins
with them. -/
theorem not_isDigit_of_ends {rest : List Char} (h : Token.Ends rest) :
    rest.takeWhile Char.isDigit = [] ∧ rest.dropWhile Char.isDigit = rest ∧
      scanFraction rest = .ok (none, rest) ∧ scanExponent rest = .ok (none, rest) := by
  cases rest with
  | nil => exact ⟨rfl, rfl, rfl, rfl⟩
  | cons c rest =>
    have hc := h c rfl
    have hmark : c.isDigit = false ∧ c ≠ '.' ∧ c ≠ 'e' ∧ c ≠ 'E' := by
      simp only [List.mem_cons, List.not_mem_nil, or_false] at hc
      rcases hc with rfl | rfl | rfl | rfl <;> exact ⟨rfl, by decide, by decide, by decide⟩
    obtain ⟨hdigit, hpoint, he, hE⟩ := hmark
    refine ⟨?_, ?_, ?_, ?_⟩
    · rw [List.takeWhile_cons_of_neg (by simp [hdigit])]
    · rw [List.dropWhile_cons_of_neg (by simp [hdigit])]
    · rw [scanFraction]
      exact fun other heq => hpoint (List.cons.inj heq).1
    · simp only [scanExponent, he, hE, or_self, if_false]

/-- The digits of a natural number are a numeral, with or without a sign before them. It ends with
the last digit, by what follows it. -/
theorem scan_digitsOf (negative : Bool) (n : Nat) {rest : List Char} (h : Token.Ends rest) :
    scan ((if negative then ['-'] else []) ++ digitsOf n ++ rest) =
      .ok (⟨negative, digitsOf n, none, none⟩, rest) := by
  obtain ⟨htake, hdrop, hfraction, hexponent⟩ := not_isDigit_of_ends h
  have hall : ∀ c ∈ digitsOf n, c.isDigit = true := fun c => isDigit_of_mem_digitsOf
  have htake' : (digitsOf n ++ rest).takeWhile Char.isDigit = digitsOf n := by
    rw [List.takeWhile_append_of_pos hall, htake, List.append_nil]
  have hdrop' : (digitsOf n ++ rest).dropWhile Char.isDigit = rest := by
    rw [List.dropWhile_append_of_pos hall, hdrop]
  have hnonempty : (digitsOf n).isEmpty = false :=
    List.isEmpty_eq_false_iff.2 (digitsOf_ne_nil n)
  have hzero : ¬ ((digitsOf n).head? = some '0' ∧ (digitsOf n).length ≠ 1) := by
    rintro ⟨hhead, hlength⟩
    rw [head?_digitsOf hhead] at hlength
    exact hlength length_digitsOf_zero
  cases negative with
  | true =>
    change scan ('-' :: (digitsOf n ++ rest)) = _
    rw [scan, htake', hdrop', hnonempty, if_neg Bool.false_ne_true, if_neg hzero, hfraction]
    change (scanExponent rest >>= _) = _
    rw [hexponent]
    rfl
  | false =>
    rw [if_neg Bool.false_ne_true, List.nil_append, scan]
    · rw [htake', hdrop', hnonempty, if_neg Bool.false_ne_true, if_neg hzero, hfraction]
      change (scanExponent rest >>= _) = _
      rw [hexponent]
      rfl
    · -- The first digit is no sign.
      intro other hminus
      cases hdigits : digitsOf n with
      | nil => exact digitsOf_ne_nil n hdigits
      | cons c digits =>
        rw [hdigits, List.cons_append] at hminus
        have hdigit := hall c (by rw [hdigits]; exact List.mem_cons_self)
        rw [(List.cons.inj hminus).1] at hdigit
        exact absurd hdigit (by decide)

/-- **An integer of at most 64 bits is what its numeral denotes.** A sign is read apart from the
digits, and the two limits are those of signed and of unsigned words. -/
theorem scan_integerText {number : Int} (hword : (Number.integer number).IsWord)
    {rest : List Char} (h : Token.Ends rest) :
    ∃ numeral, scan (integerText number ++ rest) = .ok (numeral, rest) ∧
      numeral.value = .ok (.integer number) := by
  obtain ⟨hlow, hhigh⟩ := hword
  refine ⟨⟨decide (number < 0), digitsOf number.natAbs, none, none⟩, ?_, ?_⟩
  · have htext : integerText number =
        (if decide (number < 0) then ['-'] else []) ++ digitsOf number.natAbs := by
      rw [integerText]
      by_cases hnegative : number < 0 <;> simp [hnegative]
    rw [htext]
    exact scan_digitsOf _ _ h
  · have hfits : number.natAbs ≤ maxWord := by
      rw [maxWord]
      omega
    rw [value]
    simp only [takeWhole_digitsOf hfits, Bool.false_eq_true, if_false, decide_eq_true_eq]
    by_cases hnegative : number < 0
    · have hrange : 0 < number.natAbs ∧ number.natAbs ≤ 0x8000000000000000 := by omega
      have hback : -(number.natAbs : Int) = number := by omega
      rw [if_neg (not_not_intro hnegative), if_pos hrange, hback]
    · have hback : (number.natAbs : Int) = number := by omega
      rw [if_pos hnegative, hback]

end Numeral

end DefineWrap
