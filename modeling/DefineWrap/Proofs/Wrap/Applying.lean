/-
One way through a tree, and the two things that are done on it.

A pass checks and changes a tree on one way: a node is checked when the pass comes to it, and then
what is below it is changed. Nothing that the pass has changed by then is looked at by the check,
so the way can be gone twice. On the first way the whole tree is checked (`Pass.firstViolation?`),
on the second one it is changed (`Pass.replace`), and the pass is the one after the other
(`Pass.apply_eq`). What is said about passes in this library is said about one of the two.
-/
import DefineWrap.Proofs.Except
import DefineWrap.Wrap.Pass

set_option autoImplicit false

namespace DefineWrap

namespace Pass

/-! ## The two ways -/

/-- The tree with every free use of the name replaced, whatever there is to be refused in it. -/
def replace (pass : Pass) (node : Node) : Node :=
  match pass.replacement? node with
  | some other => other
  | none =>
    ((pass.places node).refill ((pass.places node).nodes.attach.map fun x => replace pass x.1)).1
termination_by sizeOf node
decreasing_by exact sizeOf_lt_of_mem_onward x.2

/-- The first thing in a tree that a strict pass refuses, in the order of the text. -/
def firstViolation? (pass : Pass) (node : Node) : Option WrapError :=
  match pass.replacement? node with
  | some _ => none
  | none =>
    (pass.violation? node).or
      ((pass.places node).nodes.attach.findSome? fun x => firstViolation? pass x.1)
termination_by sizeOf node
decreasing_by exact sizeOf_lt_of_mem_onward x.2

/-- The error that a pass ends with. A pass that is not strict has none. -/
def refusal? (pass : Pass) (node : Node) : Option WrapError :=
  if pass.strict then pass.firstViolation? node else none

variable (pass : Pass)

/-- What becomes of a node, without the proofs that the recursion ends: what takes its place, or
the node with what becomes of the nodes that the pass goes on to. -/
theorem replace_eq (node : Node) :
    pass.replace node =
      (pass.replacement? node).getD
        ((pass.places node).refill ((pass.onward node).map pass.replace)).1 := by
  rw [replace, List.map_subtype (g := pass.replace) fun _ _ => rfl, List.unattach_attach]
  cases pass.replacement? node <;> rfl

/-- What is wrong with a node comes before what is wrong below it, since a pass checks a node
when it comes to it. -/
theorem firstViolation?_eq {node : Node} (h : pass.replacement? node = none) :
    pass.firstViolation? node =
      (pass.violation? node).or ((pass.onward node).findSome? pass.firstViolation?) := by
  rw [firstViolation?, h, List.findSome?_subtype (g := pass.firstViolation?) fun _ _ => rfl,
    List.unattach_attach]
  rfl

/-- What takes the place of a whole node is not looked into, so nothing in it is refused. -/
theorem firstViolation?_of_replaced {node : Node} (h : pass.replacement? node ≠ none) :
    pass.firstViolation? node = none := by
  rw [firstViolation?]
  cases hreplaced : pass.replacement? node with
  | none => exact absurd hreplaced h
  | some other => rfl

/-! ## One way instead of two -/

/-- Induction over the nodes that a pass goes on to, along which `apply`, `replace` and
`firstViolation?` are recursive. It asks for nothing about the other children, since none of the
three comes to them. -/
theorem onward_induction {motive : Node → Prop}
    (step : ∀ node, (∀ other ∈ pass.onward node, motive other) → motive node) (node : Node) :
    motive node := by
  induction hsize : sizeOf node using Nat.strongRecOn generalizing node with
  | _ size ih =>
    subst hsize
    exact step node fun other hother => ih _ (sizeOf_lt_of_mem_onward hother) other rfl

/-- A pass comes to a node that it replaces as a whole. The node is not checked then: what is
refused are nodes that stay, with the name somewhere in them. -/
theorem apply_of_replaced {node other : Node} (h : pass.replacement? node = some other) :
    pass.apply node = .ok other := by
  rw [apply, h]
  rfl

/-- A pass comes to a node that stays: first it checks the node, then it goes on. -/
theorem apply_of_kept {node : Node} (h : pass.replacement? node = none) :
    pass.apply node = do
      pass.check node
      let parts ← (pass.onward node).mapM pass.apply
      return ((pass.places node).refill parts).1 := by
  rw [apply, h, List.mapM_subtype (g := pass.apply) fun _ _ => rfl, List.unattach_attach]
  rfl

/-- Strictness is a matter of the pass, and not of the tree that it comes to. So it is asked once,
also for many trees. -/
theorem findSome?_refusal? (nodes : List Node) :
    nodes.findSome? pass.refusal? =
      if pass.strict then nodes.findSome? pass.firstViolation? else none := by
  unfold refusal?
  cases pass.strict
  · exact List.findSome?_eq_none_iff.2 fun node _ => rfl
  · rfl

/-- What a pass refuses at a node that it comes to, and then what it refuses below. This is how
`apply` goes through the tree, with nothing in it about what is changed. -/
theorem refusal?_of_kept {node : Node} (h : pass.replacement? node = none) :
    pass.refusal? node =
      (if pass.strict then pass.violation? node else none).or
        ((pass.onward node).findSome? pass.refusal?) := by
  rw [findSome?_refusal?, refusal?, pass.firstViolation?_eq h]
  cases pass.strict <;> rfl

/-- **A pass is a check of the whole tree, and then a change of it.** It ends with the first error
on its way if it is strict and there is one, and otherwise with the changed tree. -/
theorem apply_eq (node : Node) :
    pass.apply node = (pass.refusal? node).elim (.ok (pass.replace node)) .error := by
  -- The checks of a node and those below it have been made before anything that they look at is
  -- changed: they see the tree as it was, so the induction needs no word about what is changed.
  induction node using pass.onward_induction with
  | step node ih =>
    cases hreplaced : pass.replacement? node with
    | some other =>
      have hkept : pass.replacement? node ≠ none := by simp [hreplaced]
      rw [pass.apply_of_replaced hreplaced, replace_eq, hreplaced, refusal?,
        pass.firstViolation?_of_replaced hkept, ite_self]
      rfl
    | none =>
      rw [pass.apply_of_kept hreplaced, Except.mapM_eq_elim ih, pass.refusal?_of_kept hreplaced,
        replace_eq, hreplaced, check]
      cases pass.violation? node <;> cases pass.strict <;>
        cases (pass.onward node).findSome? pass.refusal? <;> rfl

/-- A pass over several trees ends with the first error in one of them, and a tree before it is
changed in vain. -/
theorem applyAll_eq (nodes : List Node) :
    pass.applyAll nodes =
      (nodes.findSome? pass.refusal?).elim (.ok (nodes.map pass.replace)) .error :=
  Except.mapM_eq_elim fun node _ => pass.apply_eq node

variable {pass : Pass}

/-- What a pass refuses is a violation, and the pass is strict. The error lemmas about one tree and
about many both end with it. -/
theorem refusal?_eq_some_iff {node : Node} {error : WrapError} :
    pass.refusal? node = some error ↔
      pass.strict = true ∧ pass.firstViolation? node = some error :=
  Option.ite_none_right_eq_some

/-- A pass succeeds if it is not strict or accepts the tree, and then it has replaced in it. With
this, statements about results of passes become statements about `replace`, which is total. -/
theorem apply_ok_iff {node other : Node} :
    pass.apply node = .ok other ↔
      pass.replace node = other ∧ (pass.strict = true → pass.firstViolation? node = none) := by
  rw [apply_eq, refusal?]
  cases pass.strict
  · simp
  · cases pass.firstViolation? node <;> simp

/-- A pass that is not strict has no error to end with, whatever the tree is. -/
theorem apply_of_not_strict (h : pass.strict = false) (node : Node) :
    pass.apply node = .ok (pass.replace node) := by
  rw [apply_eq, refusal?, h]
  rfl

/-- A pass fails only if it is strict, and then with the first thing that it refuses. -/
theorem apply_error_iff {node : Node} {error : WrapError} :
    pass.apply node = .error error ↔
      pass.strict = true ∧ pass.firstViolation? node = some error := by
  rw [apply_eq, ← refusal?_eq_some_iff]
  cases pass.refusal? node <;> simp

/-- A pass can be applied to trees if it is not strict, or refuses nothing in any of them, and
then it replaces in each of them. -/
theorem applyAll_ok_iff {nodes others : List Node} :
    pass.applyAll nodes = .ok others ↔ nodes.map pass.replace = others ∧
      (pass.strict = true → ∀ node ∈ nodes, pass.firstViolation? node = none) := by
  rw [applyAll_eq, findSome?_refusal?, ← List.findSome?_eq_none_iff]
  cases pass.strict
  · simp
  · cases nodes.findSome? pass.firstViolation? <;> simp

/-- What a pass over trees fails with is the first thing that it refuses in one of them. -/
theorem applyAll_error {nodes : List Node} {error : WrapError}
    (h : pass.applyAll nodes = .error error) :
    ∃ node ∈ nodes, pass.firstViolation? node = some error := by
  rw [applyAll_eq] at h
  have hfirst : nodes.findSome? pass.refusal? = some error := by
    cases hrefused : nodes.findSome? pass.refusal? with
    | none => simp [hrefused] at h
    | some found => simpa [hrefused] using h
  obtain ⟨node, hmem, hrefused⟩ := List.exists_of_findSome?_eq_some hfirst
  exact ⟨node, hmem, (refusal?_eq_some_iff.1 hrefused).2⟩

/-- A pass that is not strict changes all trees, whatever stands in them. Passes for exports are of
this kind, and so they never end a run. -/
theorem applyAll_of_not_strict (h : pass.strict = false) (nodes : List Node) :
    pass.applyAll nodes = .ok (nodes.map pass.replace) :=
  Except.mapM_eq_ok fun node _ => apply_of_not_strict h node

/-- A pass over trees that it accepts, strict or not, changes every one of them. -/
theorem applyAll_of_accepted {nodes : List Node}
    (h : ∀ node ∈ nodes, pass.firstViolation? node = none) :
    pass.applyAll nodes = .ok (nodes.map pass.replace) :=
  applyAll_ok_iff.2 ⟨rfl, fun _ => h⟩

end Pass

end DefineWrap
