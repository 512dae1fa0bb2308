/-
What is left of a scope when a pass has gone over it.

Of the names that a scope declares, a pass can only take its own away, where it makes an
assignment of a function declaration. It adds none, and the others stay in their order
(`Pass.scopeDeclarations_replace_sublist`, `Pass.filter_scopeDeclarations_replace`). A pattern
binds the other names as before, with one exception: where the name of the pass stands for a
whole module, the pattern binds the parameter of the module in its place (`Pass.binds_replace_iff`).
-/
import DefineWrap.Proofs.Wrap.Reached

set_option autoImplicit false

namespace DefineWrap

/-- An access binds a name only if it is that variable. So a whole-module access is the one
exception among the names that patterns bind. -/
theorem Access.mem_boundNames_node {access : Access} {name : String} :
    name ∈ access.node.boundNames ↔ access = .whole name := by
  cases access with
  | member object member =>
    have hnil : (Access.member object member).node.boundNames = [] := by
      rw [Access.node, Node.access_eq]
      exact Node.boundNames_eq_nil rfl rfl
    simp [hnil]
  | whole object => simp [Access.node, eq_comm]

namespace Pass

variable (pass : Pass)

/-- **What a pass makes of the names that a scope declares.** It may leave some out, namely
functions of its name that become assignments, and it neither adds nor moves any. -/
theorem scopeDeclarations_replace_sublist (node : Node) :
    (pass.replace node).scopeDeclarations.Sublist node.scopeDeclarations := by
  induction node using pass.replace_induction with
  -- An access declares nothing, nor does the assignment that takes the place of a function.
  | reference =>
    rw [scopeDeclarations_access]
    exact List.nil_sublist _
  | function id params body generator isAsync hid =>
    rw [scopeDeclarations_assignmentStatement]
    exact List.nil_sublist _
  | shadowed node hreplaced hshadowed => exact List.Sublist.refl _
  -- Declarators get new initialisers and keep their patterns.
  | declaration declarations kind ih =>
    rw [Node.scopeDeclarations_eq, Node.scopeDeclarations_eq]
    simp only [Node.directDeclarations?, Option.getD_some, List.flatMap_map,
      declaratorNames_replaceDeclarator]
    exact List.Sublist.refl _
  | entered node henters ih =>
    -- A node that declares names itself keeps them. Of any other the children are asked.
    rw [Node.scopeDeclarations_eq, Node.scopeDeclarations_eq,
      pass.directDeclarations?_rewrite henters.undeclared, children_rewrite]
    cases node.directDeclarations? with
    | some names => exact List.Sublist.refl _
    | none =>
      rw [Option.getD_none, Option.getD_none, List.flatMap_map]
      exact List.Sublist.flatMap_right _ ih

/-- **A pattern binds the other names as before**, unless the name stands for a whole module: then
it also binds the parameter of the module. -/
theorem binds_replace_iff {name : String} (hname : name ≠ pass.name) (node : Node) :
    (pass.replace node).binds name = true ↔
      node.binds name = true ∨ (pass.access = .whole name ∧ node.binds pass.name = true) := by
  simp only [Node.binds_iff, boundNames_replace, List.mem_flatMap]
  constructor
  · rintro ⟨other, hother, hmem⟩
    rw [boundAs] at hmem
    split at hmem
    next hself => exact .inr ⟨Access.mem_boundNames_node.1 hmem, hself ▸ hother⟩
    · exact .inl (List.mem_singleton.1 hmem ▸ hother)
  · rintro (hmem | ⟨haccess, hmem⟩)
    · refine ⟨name, hmem, ?_⟩
      rw [boundAs, if_neg hname]
      exact List.mem_singleton_self _
    · refine ⟨pass.name, hmem, ?_⟩
      rw [boundAs, if_pos rfl]
      exact Access.mem_boundNames_node.2 haccess

variable {pass}

/-- **A pass does not disturb the scopes of other names.** Of the declarations in a scope it leaves
some of its own name out at most. Every other name is declared as often as before and in the same
places among the others, and it is bound by a pattern exactly if it was, unless it is the variable
that the pass puts into the pattern. -/
theorem apply_scopes {node result : Node} (h : pass.apply node = .ok result) :
    result.scopeDeclarations.Sublist node.scopeDeclarations ∧
    (result.declares pass.name = true → node.declares pass.name = true) ∧
    result.scopeDeclarations.filter (· ≠ pass.name) =
      node.scopeDeclarations.filter (· ≠ pass.name) ∧
    ∀ name ≠ pass.name,
      result.scopeDeclarations.filter (· = name) = node.scopeDeclarations.filter (· = name) ∧
      result.declares name = node.declares name ∧
      (pass.access ≠ .whole name → result.binds name = node.binds name) := by
  obtain ⟨rfl, -⟩ := apply_ok_iff.1 h
  have hsublist := pass.scopeDeclarations_replace_sublist node
  refine ⟨hsublist, ?_, ?_, fun name hname => ⟨?_, ?_, fun haccess => ?_⟩⟩
  · rw [Node.declares_iff, Node.declares_iff]
    exact fun hmem => hsublist.subset hmem
  · exact pass.filter_scopeDeclarations_replace _ (by simp) node
  · exact pass.filter_scopeDeclarations_replace _ (decide_eq_false hname.symm) node
  · exact pass.declares_replace hname node
  · rw [Bool.eq_iff_iff, pass.binds_replace_iff hname]
    exact or_iff_left fun hwhole => haccess hwhole.1

/-- `\x7b function f() \x7b\x7d var \x7b f: g = f \x7d = f, [h, ...f] = f; class g \x7b\x7d
try \x7b\x7d catch (f) \x7b function f() \x7b\x7d \x7d \x7d` -/
def overloadedName : Node :=
  .blockStatement [
    .functionDeclaration (some (.identifier "f")) [] (.blockStatement []) false false,
    .variableDeclaration [
      .variableDeclarator (.objectPattern [.property (.identifier "f")
        (.assignmentPattern (.identifier "g") (.identifier "f")) "init" false false false])
        (some (.identifier "f")),
      .variableDeclarator (.arrayPattern [some (.identifier "h"),
        some (.restElement (.identifier "f"))]) (some (.identifier "f"))] .var,
    .classDeclaration (some (.identifier "g")) none (.classBody []),
    .tryStatement (.blockStatement []) (some (.catchClause (some (.identifier "f"))
      (.blockStatement [
        .functionDeclaration (some (.identifier "f")) [] (.blockStatement []) false false])))
      none]

/-- The first function becomes an assignment. The variable and the function in the clause stay,
and so do both declarations of `g`. -/
theorem apply_scopes_overloadedName :
    overloadedName.scopeDeclarations = ["f", "g", "h", "f", "g", "f"] ∧
      ∃ result, (Pass.mk "f" (.whole "__uDep0__") false).apply overloadedName = .ok result ∧
        result.scopeDeclarations.Sublist ["f", "g", "h", "f", "g", "f"] ∧
        result.scopeDeclarations.filter (· ≠ "f") = ["g", "h", "g"] ∧
        result.scopeDeclarations.filter (· = "g") = ["g", "g"] := by
  have hnames : overloadedName.scopeDeclarations = ["f", "g", "h", "f", "g", "f"] := by
    with_unfolding_all rfl
  have happly : (Pass.mk "f" (.whole "__uDep0__") false).apply overloadedName =
    .ok ((Pass.mk "f" (.whole "__uDep0__") false).replace overloadedName) :=
    apply_of_not_strict rfl overloadedName
  obtain ⟨hsublist, -, hothers, hsame⟩ := apply_scopes happly
  have hg := (hsame "g" (by decide)).1
  rw [hnames] at hsublist hothers hg
  exact ⟨hnames, _, happly, hsublist, hothers, hg⟩

end Pass

end DefineWrap
