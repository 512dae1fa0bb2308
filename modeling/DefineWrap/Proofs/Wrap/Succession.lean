/-
Two passes in a row over the same trees.

A pass that is strict may refuse a tree, and then nothing comes after it. So whether two passes
can be applied one after the other might depend on which one comes first: the first changes what
the second has to go through. It does not, if the passes are apart from each other. What each of
them refuses is the same before and after the other, and where neither refuses anything they
commute (`Pass.applyAll_comm`).
-/
import DefineWrap.Proofs.Wrap.Hoisting

set_option autoImplicit false

namespace DefineWrap

namespace Pass

/-! ## When a pass can be applied -/

/-- Two passes can be applied one after the other if the first refuses nothing in the trees and
the second refuses nothing in what the first makes of them. -/
theorem applyAll_bind_ok_iff {first second : Pass} {nodes others : List Node} :
    (first.applyAll nodes >>= second.applyAll) = .ok others ↔
      (nodes.map first.replace).map second.replace = others ∧
        (first.strict = true → ∀ node ∈ nodes, first.firstViolation? node = none) ∧
        (second.strict = true →
          ∀ node ∈ nodes.map first.replace, second.firstViolation? node = none) := by
  constructor
  · intro h
    obtain ⟨middle, hfirst, hsecond⟩ := Except.bind_ok h
    obtain ⟨rfl, haccepted⟩ := applyAll_ok_iff.1 hfirst
    obtain ⟨rfl, haccepted'⟩ := applyAll_ok_iff.1 hsecond
    exact ⟨rfl, haccepted, haccepted'⟩
  · rintro ⟨rfl, haccepted, haccepted'⟩
    rw [applyAll_ok_iff.2 ⟨rfl, haccepted⟩]
    exact applyAll_ok_iff.2 ⟨rfl, haccepted'⟩

/-! ## Either order -/

namespace Apart

variable {first second : Pass}

/-- What a pass accepts in trees it accepts in what a pass for another name makes of them, and
the other way round. -/
theorem accepts_map_replace (h : first.Apart second) (nodes : List Node) :
    (∀ node ∈ nodes.map second.replace, first.firstViolation? node = none) ↔
      ∀ node ∈ nodes, first.firstViolation? node = none := by
  rw [List.forall_mem_map]
  exact forall₂_congr fun node _ => by rw [h.firstViolation?_replace]

/-- Trees that go through both passes are the same in either order, one by one. -/
theorem map_replace_comm (h : first.Apart second) (nodes : List Node) :
    (nodes.map second.replace).map first.replace =
      (nodes.map first.replace).map second.replace := by
  rw [List.map_map, List.map_map]
  exact List.map_congr_left fun node _ => h.replace_comm node

end Apart

/-- **Passes for different names can be applied in either order.** If one order succeeds, so
does the other, with the same trees. It is enough that neither access is on the name of the other
pass; strict or not, the passes may refuse what they like. -/
theorem applyAll_comm {first second : Pass} (hname : first.name ≠ second.name)
    (hfirst : first.access.object ≠ second.name) (hsecond : second.access.object ≠ first.name)
    (nodes others : List Node) :
    (first.applyAll nodes >>= second.applyAll) = .ok others ↔
      (second.applyAll nodes >>= first.applyAll) = .ok others := by
  have hapart : first.Apart second := ⟨hname, hfirst, hsecond⟩
  rw [applyAll_bind_ok_iff, applyAll_bind_ok_iff, hapart.map_replace_comm,
    hapart.accepts_map_replace, hapart.symm.accepts_map_replace,
    and_comm (a := first.strict = true → _)]

/-- The pass of an import `b` from the module in slot 0, which is strict. -/
def importB : Pass := ⟨"b", .member (dependencyParam 0) "b", true⟩

/-- The pass of an exported variable `a`, which is not strict. -/
def exportA : Pass := ⟨"a", .member exportsParam "a", false⟩

/-- The statements `var a = b; function f() \x7b a = \x7b b \x7d; \x7d`, in which both names stand
next to each other. -/
def sharedPlaces : List Node :=
  [.variableDeclaration [.variableDeclarator (.identifier "a") (some (.identifier "b"))] .var,
    .functionDeclaration (some (.identifier "f")) [] (.blockStatement [
      .assignmentStatement (.identifier "a") (.objectExpression
        [.property (.identifier "b") (.identifier "b") "init" false false true])]) false false]

/-- The initial value of the exported variable is the import, and the pass that comes first puts
it where the other one goes on, or takes it out of its way. -/
theorem applyAll_comm_sharedPlaces :
    importB.name ≠ exportA.name ∧ importB.access.object ≠ exportA.name ∧
      exportA.access.object ≠ importB.name ∧
      ∃ others, (importB.applyAll sharedPlaces >>= exportA.applyAll) = .ok others ∧
        (exportA.applyAll sharedPlaces >>= importB.applyAll) = .ok others := by
  have hname : importB.name ≠ exportA.name := by decide
  have hfirst : importB.access.object ≠ exportA.name := by decide
  have hsecond : exportA.access.object ≠ importB.name := by decide
  have h : (importB.applyAll sharedPlaces >>= exportA.applyAll) = .ok
      [.variableDeclaration [.variableDeclarator (.identifier "a") (some
          (.assignment (.access exportsParam "a") (.access (dependencyParam 0) "b")))] .var,
        .functionDeclaration (some (.identifier "f")) [] (.blockStatement [
          .assignmentStatement (.access exportsParam "a") (.objectExpression
            [.property (.identifier "b") (.access (dependencyParam 0) "b") "init" false false
              false])]) false false] := by with_unfolding_all rfl
  exact ⟨hname, hfirst, hsecond, _, h, (applyAll_comm hname hfirst hsecond _ _).1 h⟩

end Pass

end DefineWrap
