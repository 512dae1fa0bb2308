/-
Literals and accesses that are made are well formed as texts.

The spelling of a string literal is a text between quotes that is read as the string and ends
nowhere before its closing quote (`Node.stringLiteral_quoted`). So a name of a module cannot reach
beyond its literal, whatever it is.

An access to a member is written with brackets, or with a dot if the name of the member may follow
one. Brackets are always right. A dot is not: what may follow it is decided by properties of
characters that are wider than those of names, and `Node.access_byDot` says by how much. So there
are accesses that are no expressions of the language (`Node.not_forall_byDot_isName`).
-/
import DefineWrap.Proofs.Json.Grammar
import DefineWrap.Proofs.Text.Identifier

set_option autoImplicit false

namespace DefineWrap

namespace Node

/-! ## Literals -/

/-- The spelling of a literal, if it has one. It is what is printed for the literal, so two literals
are apart in a text if their spellings are. -/
def spelling? : Node → Option String
  | .literal _ raw _ => raw
  | _ => none

/-- A literal that is made has its value between quotes. The quotes are split off here, since all
that is said about the spelling is about what stands between them. -/
theorem stringLiteral_eq (value : String) :
    stringLiteral value = .literal (.string value)
      (some (String.ofList ('"' :: (Quoted.encode value.toList ++ ['"'])))) none := rfl

/-- Two literals of one spelling are of one string: the characters between the quotes are a spelling
of both strings, and they are a spelling of one only. -/
theorem eq_of_spelling?_eq {first second : String}
    (h : (stringLiteral first).spelling? = (stringLiteral second).spelling?) : first = second := by
  have hquoted := String.ofList_injective (Option.some.inj h)
  have hbetween : Quoted.encode first.toList = Quoted.encode second.toList :=
    List.append_cancel_right (List.cons.inj hquoted).2
  have hspells := Quoted.spells_encode first.toList
  rw [hbetween] at hspells
  exact String.toList_inj.1 (hspells.unique (Quoted.spells_encode second.toList))

/-- **A string literal is quoted faithfully.** Its spelling is a text between quotes. In that text
there is no control character, no quote that is not escaped, and no backslash that is out of place.
It is a spelling of the string and of no other; and wherever the literal stands, what is read from
its opening quote on ends at its closing quote. So different strings have different spellings. -/
theorem stringLiteral_quoted (value : String) :
    ∃ between : List Char,
      stringLiteral value =
        .literal (.string value) (some (String.ofList ('"' :: (between ++ ['"'])))) none ∧
      (∀ c ∈ between, 0x20 ≤ c.toNat) ∧
      (∀ tail ∈ Quoted.exposed between, Quoted.IsOpen tail) ∧
      (∀ text, Quoted.Spells between text ↔ text = value.toList) ∧
      (∀ spelling text rest others, Quoted.Spells spelling text →
        between ++ '"' :: rest = spelling ++ '"' :: others →
          spelling = between ∧ text = value.toList ∧ others = rest) ∧
      ∀ other, (stringLiteral other).spelling? = (stringLiteral value).spelling? →
        other = value := by
  have hspells := Quoted.spells_encode value.toList
  refine ⟨_, stringLiteral_eq value, hspells.printable, hspells.isOpen, fun text => ?_, ?_, ?_⟩
  · constructor
    · exact fun htext => htext.unique hspells
    · rintro rfl
      exact hspells
  · intro spelling text rest others htext heq
    exact htext.ends_unique hspells heq.symm
  · exact fun other heq => eq_of_spelling?_eq heq

/-- A quote behind a backslash, and a control character before a digit. -/
example : (stringLiteral "\\\"\x01f").spelling? = some "\"\\\\\\\"\\u0001f\"" := by decide

/-! ## Accesses -/

/-- The access `object.member`, as it is written if the name may follow a dot. -/
def dotAccess (object member : String) : Node :=
  .memberExpression (.identifier object) (.identifier member) false false

/-- The access `object["member"]`, which is right for any name, since the name is a literal in
it. -/
def bracketAccess (object member : String) : Node :=
  .memberExpression (.identifier object) (stringLiteral member) true false

/-- The two forms of an access are never one node, since the one is computed and the other is not.
So the form of an access can be told from the node. -/
theorem dotAccess_ne_bracketAccess (object member : String) :
    dotAccess object member ≠ bracketAccess object member := by
  intro h
  cases h

/-- There is a dot in an access exactly if the name passes the test of the program and is not that
of the default export, which is a word of the language and always stands in brackets. -/
theorem access_eq_dotAccess_iff {object member : String} :
    access object member = dotAccess object member ↔
      member ≠ defaultMember ∧ IdentifierName.isValid member = true := by
  unfold access
  split
  next hbracket =>
    refine iff_of_false (dotAccess_ne_bracketAccess object member).symm ?_
    rintro ⟨hdefault, hvalid⟩
    exact hbracket.elim hdefault fun hinvalid => hinvalid hvalid
  next hdot =>
    rw [not_or, Classical.not_not] at hdot
    exact iff_of_true rfl hdot

/-- **The two forms of an access.** There is a dot in it exactly if its name is not that of the
default export, begins with a dollar sign, a low line or an alphabetic character, and goes on with
these, with numbers or with joiners. Then it is a name unless it begins with a character that may
only go on with a name, or has a character that stands in no name. -/
theorem access_byDot (object member : String) :
    (access object member = bracketAccess object member ∨
      access object member = dotAccess object member) ∧
    (access object member = dotAccess object member ↔
      member ≠ defaultMember ∧ ∃ first rest, member.toList = first :: rest ∧
        IdentifierName.isStart first = true ∧ ∀ c ∈ rest, IdentifierName.isPart c = true) ∧
    (access object member = dotAccess object member →
      (IdentifierName.IsName member ↔
        (∀ c ∈ member.toList.head?, IdentifierName.MayFollow c → IdentifierName.MayBegin c) ∧
          ∀ c ∈ member.toList, Text.isStray c = false)) := by
  refine ⟨?_, ?_, fun hdot => ?_⟩
  · unfold access
    split
    · exact .inl rfl
    · exact .inr rfl
  · rw [access_eq_dotAccess_iff, IdentifierName.isValid_iff]
  · exact IdentifierName.isName_iff (access_eq_dotAccess_iff.1 hdot).2

/-- A mark below a Greek letter is alphabetic, and a name may go on with it but not begin. -/
theorem access_byDot_markFirst :
    access "o" "\u0345x" = dotAccess "o" "\u0345x" ∧ ¬ IdentifierName.IsName "\u0345x" := by
  have hpart : IdentifierName.isPart 'x' = true := by decide
  have hdot : access "o" "\u0345x" = dotAccess "o" "\u0345x" :=
    (access_byDot "o" "\u0345x").2.1.2 ⟨by decide, '\u0345', ['x'], rfl, by decide,
      fun _ hc => List.mem_singleton.1 hc ▸ hpart⟩
  refine ⟨hdot, fun hname => ?_⟩
  have hfirst := (((access_byDot "o" "\u0345x").2.2 hdot).1 hname).1
  have hfollow : IdentifierName.MayFollow '\u0345' := .inr (.inr (.inr (by decide)))
  rcases hfirst '\u0345' rfl hfollow with hdollar | hline | hstart
  · cases hdollar
  · cases hline
  · have hno : Text.isIdStart '\u0345' = false := by decide +kernel
    rw [hno] at hstart
    cases hstart

/-- A superscript two is a number, and stands in no name. -/
theorem not_forall_byDot_isName : ¬ ∀ object member : String,
    access object member = dotAccess object member → IdentifierName.IsName member := by
  intro h
  have hpart : IdentifierName.isPart '²' = true :=
    IdentifierName.isPart_of_isNumeric (by decide)
  have hvalid : IdentifierName.isValid "x²" = true :=
    IdentifierName.isValid_iff.2 ⟨'x', ['²'], rfl, by decide,
      fun _ hc => List.mem_singleton.1 hc ▸ hpart⟩
  have hdot : access "o" "x²" = dotAccess "o" "x²" :=
    access_eq_dotAccess_iff.2 ⟨by decide, hvalid⟩
  obtain ⟨first, rest, htext, -, hrest⟩ := h "o" "x²" hdot
  have hparts : ['x', '²'] = first :: rest := htext
  obtain ⟨-, rfl⟩ := List.cons.inj hparts
  have hstray : Text.isStray '²' = true := by decide
  rw [(hrest '²' (List.mem_singleton_self _)).isStray_eq_false] at hstray
  cases hstray

end Node

end DefineWrap
