/-
The names of the parameters.

The parameter of a slot is named by the numeral of the slot, between a beginning and an ending
that all of them have. Whether a name is a parameter is found by reading the numeral, and more
numerals are read than are written: with a plus sign, with zeros in front, and of any length. So
the parameter of the slot that was read is compared with the name. That this finds all parameters
and nothing else (`Dependencies.isParam_iff`) rests on one equation: the numeral of a slot reads
back as the slot (`paramSlot?_dependencyParam`). It also keeps the parameters apart.
-/
import DefineWrap.Wrap.Wrapper
import Mathlib.Data.List.Nodup

set_option autoImplicit false

namespace DefineWrap

/-! ## Numerals -/

/-- The value of a list of digits is that of the library, which has the lemma on reading back the
digits of a number. -/
theorem digitsValue_eq (digits : List Char) :
    digitsValue digits = Nat.ofDigitChars 10 digits 0 := by
  rw [digitsValue, Nat.ofDigitChars_eq_foldl]
  simp only [digitValue, Nat.mul_comm]

/-- A numeral without a sign is read by its digits. The case for a plus sign does not apply, since a
sign is no digit. -/
theorem readNumeral?_digits {digits : List Char} (hne : digits ≠ [])
    (hdigits : ∀ c ∈ digits, c.isDigit = true) :
    readNumeral? digits = some (digitsValue digits) := by
  have hall : digits.all Char.isDigit = true := List.all_eq_true.2 hdigits
  cases digits with
  | nil => exact absurd rfl hne
  | cons first rest =>
    -- A digit is no sign, so nothing is taken off.
    have hsign : first ≠ '+' := by
      rintro rfl
      exact absurd (hdigits '+' List.mem_cons_self) (by decide)
    rw [readNumeral?.eq_def]
    split
    next heq => exact absurd (List.cons.inj heq).1 hsign
    · change (if (false || !(first :: rest).all Char.isDigit) = true then none else _) = _
      rw [hall]
      rfl

/-- **The numeral of a number reads back as the number.** The digits of a number are not empty and
are digits, so the cases with a sign or with an error are out. -/
theorem readNumeral?_toDigits (n : Nat) : readNumeral? (Nat.toDigits 10 n) = some n := by
  rw [readNumeral?_digits Nat.toDigits_ne_nil fun c hc =>
      Nat.isDigit_of_mem_toDigits (by decide) (by decide) hc,
    digitsValue_eq, Nat.ofDigitChars_toDigits (by decide) (by decide)]

/-! ## Parameters -/

/-- The characters of a parameter: the beginning, the digits of the slot and the ending. Reading it
takes off the first and the last of these. -/
theorem toList_dependencyParam (slot : Nat) :
    (dependencyParam slot).toList =
      "__uDep".toList ++ (Nat.toDigits 10 slot ++ "__".toList) := by
  have hdigits : (toString slot).toList = Nat.toDigits 10 slot := by
    rw [Nat.toString_eq_ofList_toDigits, String.toList_ofList]
  rw [dependencyParam, String.toList_append, String.toList_append, hdigits, List.append_assoc]

/-- **The slot is read off its parameter.** What is left between the beginning and the ending is the
numeral of the slot. -/
theorem paramSlot?_dependencyParam (slot : Nat) :
    paramSlot? (dependencyParam slot) = some slot := by
  have hrest : "__uDep".toList.isPrefixOf? (dependencyParam slot).toList =
      some (Nat.toDigits 10 slot ++ "__".toList) := by
    rw [List.isPrefixOf?_eq_some_iff_append_eq, toList_dependencyParam]
  have hnumeral : "__".toList.isSuffixOf? (Nat.toDigits 10 slot ++ "__".toList) =
      some (Nat.toDigits 10 slot) := List.isSuffixOf?_eq_some_iff_append_eq.2 rfl
  rw [paramSlot?, hrest, Option.bind_eq_bind, Option.bind_some, hnumeral]
  exact readNumeral?_toDigits slot

/-- Two slots have two parameters, because a parameter tells its slot. -/
theorem dependencyParam_injective : Function.Injective dependencyParam := by
  intro first second h
  have hslot : paramSlot? (dependencyParam first) = paramSlot? (dependencyParam second) := by rw [h]
  rwa [paramSlot?_dependencyParam, paramSlot?_dependencyParam, Option.some.injEq] at hslot

/-- The parameters of dependencies are none for the exports: that one does not read as a slot at
all. -/
theorem dependencyParam_ne_exportsParam (slot : Nat) : dependencyParam slot ≠ exportsParam := by
  intro h
  have hslot : paramSlot? (dependencyParam slot) = paramSlot? exportsParam := by rw [h]
  have hnone : paramSlot? exportsParam = none := by decide
  rw [paramSlot?_dependencyParam, hnone] at hslot
  cases hslot

/-- The parameters of a wrapper are distinct, those of the dependencies among themselves and from
the one for the exports. -/
theorem nodup_params (slots : Nat) :
    ((List.range slots).map dependencyParam ++ [exportsParam]).Nodup := by
  refine List.Nodup.append (List.nodup_range.map dependencyParam_injective)
    (List.nodup_singleton _) (List.disjoint_singleton.2 ?_)
  rw [List.mem_map]
  rintro ⟨slot, -, h⟩
  exact dependencyParam_ne_exportsParam slot h

/-- The same for the identifiers in the list of parameters, so the function that is written can be
strict code, which allows no parameter twice. -/
theorem nodup_wrapperParams (dependencies : List String) : (wrapperParams dependencies).Nodup :=
  (nodup_params dependencies.length).map fun _ _ => Node.identifier.inj

namespace Dependencies

/-- **A name is found to be a parameter if it is that of one of the slots.** Reading accepts more
spellings than that, and the comparison with the spelling of the slot takes them out again. -/
theorem isParam_iff (table : Dependencies) (name : String) :
    table.isParam name = true ↔ ∃ slot < table.specifiers.length, name = dependencyParam slot := by
  rw [isParam, Option.any_eq_true]
  simp only [Bool.and_eq_true, decide_eq_true_iff]
  constructor
  · rintro ⟨slot, -, hslot, hname⟩
    exact ⟨slot, hslot, hname.symm⟩
  · rintro ⟨slot, hslot, rfl⟩
    exact ⟨slot, paramSlot?_dependencyParam slot, hslot, rfl⟩

/-- Whether a name is found to be a parameter where numbers have a limit, so that a numeral for a
larger number is refused when it is read. -/
def isParamBelow (limit : Nat) (table : Dependencies) (name : String) : Bool :=
  ((paramSlot? name).filter (· < limit)).any fun slot =>
    slot < table.specifiers.length && dependencyParam slot = name

/-- A limit makes no difference if all slots are below it: a larger number is no slot anyway. -/
theorem isParamBelow_eq {limit : Nat} {table : Dependencies} (h : table.specifiers.length ≤ limit)
    (name : String) : table.isParamBelow limit name = table.isParam name := by
  rw [isParamBelow, isParam]
  cases paramSlot? name with
  | none => rfl
  | some slot =>
    by_cases hlimit : slot < limit
    · rw [Option.filter_some, if_pos (decide_eq_true hlimit)]
    · -- What the limit refuses is beyond the table.
      have hslot : decide (slot < table.specifiers.length) = false :=
        decide_eq_false fun hslot => hlimit (Nat.lt_of_lt_of_le hslot h)
      rw [Option.filter_some, if_neg (by simpa using hlimit), Option.any_some, hslot]
      rfl

/-- **The parameters are exact.** A name is found to be a parameter exactly if it is that of one of
the slots of the table, and a limit for numbers that admits the slots changes nothing about it. The
parameters of any number of slots are distinct from each other and from that of the exports, so
none is repeated among the parameters of a wrapper. -/
theorem params_exact (table : Dependencies) (name : String) :
    (table.isParam name = true ↔ ∃ slot < table.specifiers.length, name = dependencyParam slot) ∧
    (∀ limit ≥ table.specifiers.length, table.isParamBelow limit name = table.isParam name) ∧
    (∀ slots, ((List.range slots).map dependencyParam ++ [exportsParam]).Nodup) ∧
    ∀ dependencies, (wrapperParams dependencies).Nodup :=
  ⟨table.isParam_iff name, fun _ h => isParamBelow_eq h name, nodup_params, nodup_wrapperParams⟩

/-- Of the numerals of a slot only the one without sign and zeros in front makes a parameter. -/
example : ["__uDep0__", "__uDep00__", "__uDep+0__", "__uDep__", "__uDep_", "__uDep1__"].filter
    (isParam ⟨["./m"], []⟩) = ["__uDep0__"] := by decide

end Dependencies

end DefineWrap
