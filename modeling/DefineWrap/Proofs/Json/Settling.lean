/-
What is left of a value in which repeated names have been settled.

Settling gives every object each name once, so settling again changes nothing
(`Json.settle_settle`). It drops values and makes no new ones, so the value nests no deeper.
-/
import DefineWrap.Proofs.Json.Nesting
import DefineWrap.Proofs.Json.Printing

set_option autoImplicit false

namespace DefineWrap

namespace Json

theorem settleValues_eq_map (members : List (String × Json)) :
    settleValues members = members.map fun member => (member.1, member.2.settle) := by
  induction members with
  | nil => rw [settleValues, List.map_nil]
  | cons member members ih => rw [settleValues, ih, List.map_cons]

theorem settle_array (items : List Json) : (array items).settle = array (items.map settle) := by
  rw [settle, settleItems_eq_map]

/-- Settling an object is settling its values first and then its names, since a value that is
dropped could have been settled as well. -/
theorem settle_object (members : List (String × Json)) :
    (object members).settle =
      object (settleMembers (members.map fun member => (member.1, member.2.settle))) := by
  rw [settle, settleValues_eq_map]

theorem settle_of_scalar {value : Json} (h : value.isContainer = false) : value.settle = value := by
  cases value with
  | array _ => cases h
  | object _ => cases h
  | _ =>
    rw [settle] <;> rintro _ ⟨⟩

/-! ## Setting a member -/

/-- A member after one is set is that one, or has been there before. -/
theorem mem_setMember {name : String} {value : Json} {members : List (String × Json)}
    {member : String × Json} (h : member ∈ setMember name value members) :
    member = (name, value) ∨ member ∈ members := by
  induction members with
  | nil => exact .inl (List.mem_singleton.1 h)
  | cons first members ih =>
    rw [setMember] at h
    split at h
    · rcases List.mem_cons.1 h with rfl | h
      · exact .inl rfl
      · exact .inr (List.mem_cons_of_mem _ h)
    · rcases List.mem_cons.1 h with rfl | h
      · exact .inr List.mem_cons_self
      · exact (ih h).imp_right (List.mem_cons_of_mem _)

/-- The names after a member is set: its name comes last if it is new, and otherwise they stay as
they are and where they are. -/
theorem names_setMember (name : String) (value : Json) (members : List (String × Json)) :
    (setMember name value members).map Prod.fst =
      if name ∈ members.map Prod.fst then members.map Prod.fst
      else members.map Prod.fst ++ [name] := by
  induction members with
  | nil => rfl
  | cons first members ih =>
    rw [setMember]
    by_cases hname : first.1 = name
    · rw [if_pos hname, List.map_cons, List.map_cons, if_pos (List.mem_cons.2 (.inl hname.symm)),
        hname]
    · have hiff : name ∈ first.1 :: members.map Prod.fst ↔ name ∈ members.map Prod.fst :=
        List.mem_cons.trans (or_iff_right (Ne.symm hname))
      rw [if_neg hname, List.map_cons, List.map_cons, ih]
      simp only [hiff]
      split <;> rfl

/-- Setting a member repeats no name, as a name that is there keeps its place. -/
theorem nodup_setMember {name : String} {value : Json} {members : List (String × Json)}
    (h : (members.map Prod.fst).Nodup) : ((setMember name value members).map Prod.fst).Nodup := by
  rw [names_setMember]
  split
  · exact h
  next hnew =>
    refine List.nodup_append.2 ⟨h, List.pairwise_singleton _ _, ?_⟩
    rintro other hmem _ hname rfl
    rw [List.mem_singleton.1 hname] at hmem
    exact hnew hmem

theorem setMember_of_notMem {name : String} {value : Json} {members : List (String × Json)}
    (h : name ∉ members.map Prod.fst) :
    setMember name value members = members ++ [(name, value)] := by
  induction members with
  | nil => rfl
  | cons first members ih =>
    rw [List.map_cons, List.mem_cons, not_or] at h
    rw [setMember, if_neg (Ne.symm h.1), ih h.2, List.cons_append]

/-! ## Settling the members of an object -/

/-- Settling makes no new members; it only drops some. -/
theorem mem_settleMembers {members : List (String × Json)} {member : String × Json}
    (h : member ∈ settleMembers members) : member ∈ members := by
  have hfold : ∀ settled : List (String × Json),
      member ∈ members.foldl (fun settled member => setMember member.1 member.2 settled) settled →
        member ∈ settled ∨ member ∈ members := by
    clear h
    induction members with
    | nil => exact fun settled h => .inl h
    | cons first members ih =>
      intro settled h
      rcases ih _ h with h | h
      · rcases mem_setMember h with rfl | h
        · exact .inr List.mem_cons_self
        · exact .inl h
      · exact .inr (List.mem_cons_of_mem _ h)
  exact (hfold [] h).resolve_left (List.not_mem_nil)

/-- After settling, no name stands twice. By induction over the members, of which each is set in
what has been settled before. -/
theorem nodup_settleMembers (members : List (String × Json)) :
    ((settleMembers members).map Prod.fst).Nodup := by
  have hfold : ∀ settled : List (String × Json), (settled.map Prod.fst).Nodup →
      ((members.foldl (fun settled member => setMember member.1 member.2 settled) settled).map
        Prod.fst).Nodup := by
    induction members with
    | nil => exact fun settled h => h
    | cons first members ih => exact fun settled h => ih _ (nodup_setMember h)
  exact hfold [] List.nodup_nil

/-- Members without repeated names are settled already, and stay in their order. -/
theorem settleMembers_of_nodup {members : List (String × Json)}
    (h : (members.map Prod.fst).Nodup) : settleMembers members = members := by
  have hfold : ∀ settled : List (String × Json), ((settled ++ members).map Prod.fst).Nodup →
      members.foldl (fun settled member => setMember member.1 member.2 settled) settled =
        settled ++ members := by
    clear h
    induction members with
    | nil => exact fun settled _ => (List.append_nil settled).symm
    | cons first members ih =>
      intro settled h
      have hnew : first.1 ∉ settled.map Prod.fst := by
        intro hmem
        rw [List.map_append, List.nodup_append] at h
        exact h.2.2 _ hmem _ List.mem_cons_self rfl
      rw [List.append_cons] at h ⊢
      rw [List.foldl_cons, setMember_of_notMem hnew]
      exact ih _ h
  exact hfold [] h

/-! ## Whole values -/

/-- **Settling again changes nothing.** After the first time every object names each member once,
and settling what is inside changes no names. -/
theorem settle_settle (value : Json) : value.settle.settle = value.settle := by
  induction value using Json.induction with
  | array items ih =>
    rw [settle_array, settle_array, List.map_map]
    exact congrArg array (List.map_congr_left ih)
  | object members ih =>
    have hvalues : ∀ member ∈ settleMembers (members.map fun member => (member.1, member.2.settle)),
        (member.1, member.2.settle) = member := by
      intro member hmem
      obtain ⟨other, hother, rfl⟩ := List.mem_map.1 (mem_settleMembers hmem)
      rw [ih other hother]
    rw [settle_object, settle_object, List.map_congr_left hvalues, List.map_id',
      settleMembers_of_nodup (nodup_settleMembers _)]
  | _ => rw [settle_of_scalar rfl, settle_of_scalar rfl]

/-- A value that is settled nests no deeper than before, since all parts of it are settled parts of
the value. -/
theorem NestsWithin.settle {depth : Nat} {value : Json} (h : value.NestsWithin depth) :
    value.settle.NestsWithin depth := by
  induction depth generalizing value with
  | zero =>
    cases value with
    | array _ => cases h
    | object _ => cases h
    | _ => rwa [settle_of_scalar rfl]
  | succ depth ih =>
    cases value with
    | array items =>
      rw [settle_array]
      exact List.forall_mem_map.2 fun item hmem => ih (h item hmem)
    | object members =>
      rw [settle_object]
      refine List.forall_mem_map.2 fun member hmem => ?_
      obtain ⟨other, hother, rfl⟩ := List.mem_map.1 (mem_settleMembers hmem)
      exact ih (h other.2 (List.mem_map_of_mem hother))
    | _ => rwa [settle_of_scalar rfl]

end Json

end DefineWrap
