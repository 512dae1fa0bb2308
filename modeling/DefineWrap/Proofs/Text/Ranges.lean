/-
Sets of characters compared by their ranges.

That one set lies in another, or that two have no character in common, is a matter of a few
thousand comparisons of range ends, though there are more than a million code points. A set lies in
others if nothing is left of its ranges when theirs have been taken away
(`Ranges.contains_of_covers`). Two sets have nothing in common if one of them lies in the gaps of
the other (`Ranges.contains_eq_false_of_gaps`).

The computations rely on ranges that are in order, and would find too little otherwise. What they
find is right in any case.
-/
import DefineWrap.Text.Ranges

set_option autoImplicit false

namespace DefineWrap

namespace Ranges

variable {ranges others : Ranges} {c : Char}

/-- A character is in a set if it is in one of the ranges. -/
theorem contains_iff :
    ranges.contains c = true ↔ ∃ range ∈ ranges, range.1 ≤ c.toNat ∧ c.toNat ≤ range.2 := by
  simp [contains]

@[simp] theorem contains_append (ranges others : Ranges) (c : Char) :
    contains (ranges ++ others) c = (ranges.contains c || others.contains c) := List.any_append

/-! ## Inclusion -/

/-- What is left of a range before and behind another one. -/
def sides (range first : Nat × Nat) : Ranges :=
  (if first.1 < range.1 then [(first.1, range.1 - 1)] else []) ++
    if range.2 < first.2 then [(range.2 + 1, first.2)] else []

/-- Ranges without what another range covers. Behind a range that begins behind it there is nothing
to be taken away, as the ranges are in order. -/
def without (range : Nat × Nat) : Ranges → Ranges
  | [] => []
  | first :: rest =>
    if first.2 < range.1 then first :: without range rest
    else if range.2 < first.1 then first :: rest
    else sides range first ++ without range rest

/-- Whether nothing is left of ranges without what some others cover. It takes as many steps as
there are pairs of ranges near each other, and none for each character. -/
def covers (others ranges : Ranges) : Bool :=
  (others.foldl (fun left range => left.without range) ranges).isEmpty

/-- A character of a range that is not in another one is on one of its sides. -/
theorem contains_sides {range first : Nat × Nat} (hfirst : first.1 ≤ c.toNat ∧ c.toNat ≤ first.2)
    (hrange : ¬ (range.1 ≤ c.toNat ∧ c.toNat ≤ range.2)) :
    contains (sides range first) c = true := by
  rw [sides, contains_append, Bool.or_eq_true]
  rcases Nat.lt_or_ge c.toNat range.1 with hbefore | hbehind
  · left
    rw [if_pos (by omega), contains_iff]
    exact ⟨_, List.mem_singleton_self _, hfirst.1, Nat.le_sub_one_of_lt hbefore⟩
  · right
    have hafter : range.2 < c.toNat := by omega
    rw [if_pos (by omega), contains_iff]
    exact ⟨_, List.mem_singleton_self _, hafter, hfirst.2⟩

theorem contains_cons {first : Nat × Nat} {rest : Ranges} :
    contains (first :: rest) c = true ↔
      (first.1 ≤ c.toNat ∧ c.toNat ≤ first.2) ∨ rest.contains c = true := by
  simp [contains]

/-- Only characters of the range are taken away. That the others stay is all that is needed, and
holds whatever the order of the ranges is. -/
theorem contains_without {range : Nat × Nat} (h : ranges.contains c = true)
    (hrange : ¬ (range.1 ≤ c.toNat ∧ c.toNat ≤ range.2)) :
    (ranges.without range).contains c = true := by
  induction ranges with
  | nil => exact h
  | cons first rest ih =>
    rw [without]
    split
    · exact contains_cons.2 ((contains_cons.1 h).imp_right ih)
    split
    · exact h
    · rw [contains_append, Bool.or_eq_true]
      exact (contains_cons.1 h).imp (fun hfirst => contains_sides hfirst hrange) ih

/-- **A set lies in the others** if nothing of it is left. Each of the others takes away its own
characters only, so a character that is gone was in one of them. -/
theorem contains_of_covers (h : covers others ranges = true) (hc : ranges.contains c = true) :
    others.contains c = true := by
  induction others generalizing ranges with
  | nil =>
    obtain rfl : ranges = [] := List.isEmpty_iff.1 h
    exact hc
  | cons range others ih =>
    rw [contains_cons]
    by_cases hrange : range.1 ≤ c.toNat ∧ c.toNat ≤ range.2
    · exact .inl hrange
    · exact .inr (ih h (contains_without hc hrange))

/-! ## Disjointness -/

/-- The ranges between ranges, from the first code point to the last. -/
def gaps (ranges : Ranges) : Ranges :=
  (0 :: ranges.map (·.2 + 1)).zip (ranges.map (·.1 - 1) ++ [0x10FFFF])

/-- Whether no range meets one of the others. -/
def apart (ranges others : Ranges) : Bool :=
  ranges.all fun range => others.all fun other => range.2 < other.1 || other.2 < range.1

theorem contains_eq_false_of_apart (h : apart ranges others = true)
    (hc : ranges.contains c = true) : others.contains c = false := by
  obtain ⟨range, hrange, hlo, hhi⟩ := contains_iff.1 hc
  rw [Bool.eq_false_iff]
  intro hother
  obtain ⟨other, hmem, hfrom, hto⟩ := contains_iff.1 hother
  have hapart := List.all_eq_true.1 (List.all_eq_true.1 h range hrange) other hmem
  simp only [Bool.or_eq_true, decide_eq_true_iff] at hapart
  omega

/-- **Two sets have nothing in common** if one lies in the gaps of the other. With many ranges in
the one and few in the other this is a smaller computation than comparing all pairs. -/
theorem contains_eq_false_of_gaps (hgaps : apart (gaps others) others = true)
    (h : covers (gaps others) ranges = true) (hc : ranges.contains c = true) :
    others.contains c = false :=
  contains_eq_false_of_apart hgaps (contains_of_covers h hc)

end Ranges

end DefineWrap
