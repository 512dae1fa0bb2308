/-
Assignments to the exports, and what they are made of.

`assigns` is the survey of the assignments to one member of the exports, outside all
functions. `writes` is the survey of what gives a local name its value, as far as a pass
comes to it: function declarations, assignments to the name, and initial values. The pass
that exports the name makes each of these an assignment to the exports and makes no others
(`assigns.gather_replace_eq_nil`). After it only the initial values are left, and a second
pass for the name finds nothing else (`writes.gather_replaceAll`).

Classes and patterns give a name its value, too. But no pass changes them.
-/
import DefineWrap.Proofs.Wrap.Conservation

set_option autoImplicit false

namespace DefineWrap

/-! ## Accesses -/

namespace Node

/-- Whether the member of a variable is accessed in brackets: if it is no name of the language, and
always for the default member. -/
def isBracketed (member : String) : Bool :=
  member = defaultMember || !IdentifierName.isValid member

/-- Whether a node is the access to a member of a variable, in the way this member is written. The
other way to write it counts as something else, because no pass makes it. -/
def isAccess (object member : String) : Node → Bool
  | .memberExpression base name computed false =>
    base.isIdentifier object && computed = isBracketed member &&
      if computed then name.stringValue? = some member else name.isIdentifier member
  | _ => false

/-- An access as one form with two parameters. A proof about accesses can so leave open which way
the member is written. -/
theorem access_eq (object member : String) :
    access object member = .memberExpression (.identifier object)
      (if isBracketed member then stringLiteral member else .identifier member)
      (isBracketed member) false := by
  unfold access isBracketed
  by_cases h : member = defaultMember ∨ ¬ IdentifierName.isValid member
  · have hbracketed : (member = defaultMember || !IdentifierName.isValid member : Bool) = true := by
      simpa using h
    rw [if_pos h, hbracketed]
    rfl
  · have hbracketed :
        (member = defaultMember || !IdentifierName.isValid member : Bool) = false := by
      simpa using h
    rw [if_neg h, hbracketed]
    rfl

/-- An access is one to its own object and member only, also if one of the two members is written in
brackets and the other is not. -/
@[simp] theorem isAccess_access (object member object' member' : String) :
    (access object member).isAccess object' member' =
      (object = object' && member = member' : Bool) := by
  by_cases hmember : member = member'
  · subst hmember
    rw [access_eq, isAccess]
    cases isBracketed member <;> simp [stringLiteral, stringValue?]
  · rw [access_eq, isAccess]
    cases isBracketed member <;> simp [stringLiteral, stringValue?, hmember]

@[simp] theorem isIdentifier_access (object member name : String) :
    (access object member).isIdentifier name = false := by
  rw [access_eq]
  rfl

/-- Whether a node is a function. What is inside one is done when it is called, and the two surveys
here stay outside. -/
def isFunction : Node → Bool
  | .functionDeclaration _ _ _ _ _ => true
  | .functionExpression _ _ _ _ _ => true
  | .arrowFunctionExpression _ _ _ _ => true
  | _ => false

end Node

/-- An access is a use of no name but that of its object, and even of that only if the whole module
is accessed. -/
theorem Access.isIdentifier_node_eq_false {access : Access} {name : String}
    (h : access.object ≠ name) : access.node.isIdentifier name = false := by
  cases access with
  | member object member => exact Node.isIdentifier_access object member name
  | whole object => simpa [Access.node, Access.object] using h

/-- An access to another object is no access to a member of the given one. -/
theorem Access.isAccess_node_eq_false {access : Access} {object : String}
    (h : access.object ≠ object) (member : String) :
    access.node.isAccess object member = false := by
  cases access with
  | member other name =>
    have hother : other ≠ object := h
    rw [Access.node, Node.isAccess_access, decide_eq_false hother, Bool.false_and]
  | whole other => rfl

namespace Pass

variable (pass : Pass)

theorem stringValue?_replace (node : Node) :
    (pass.replace node).stringValue? = node.stringValue? := by
  induction node using pass.replace_induction with
  | reference =>
    rcases pass.access.node_eq_access_or_identifier with ⟨name, heq⟩ | heq
    · rw [heq, Node.access_eq]
      rfl
    · rw [heq]
      rfl
  | function id params body generator isAsync hid => rfl
  | shadowed node hreplaced hshadowed => rfl
  | declaration declarations kind ih => rfl
  | entered node henters ih => cases node <;> rfl

/-- A pass changes none of the uses of another name, and makes no new ones unless the access is a
use of that name itself. -/
theorem isIdentifier_replace {name : String} (hname : name ≠ pass.name)
    (haccess : pass.access.node.isIdentifier name = false) (node : Node) :
    (pass.replace node).isIdentifier name = node.isIdentifier name := by
  induction node using pass.replace_induction with
  | reference => simpa [haccess] using Ne.symm hname
  | function id params body generator isAsync hid => rfl
  | shadowed node hreplaced hshadowed => rfl
  | declaration declarations kind ih => rfl
  | entered node henters ih =>
    rw [Node.isIdentifier, Node.isIdentifier, pass.identifierName?_rewrite]

/-- What is an access to another variable after a pass was one before, or it is what the
pass puts in the place of its name. -/
theorem isAccess_replace {object : String} (hname : object ≠ pass.name)
    (haccess : pass.access.node.isIdentifier object = false) (member : String) (node : Node) :
    (pass.replace node).isAccess object member =
      (node.isAccess object member ||
        node.isIdentifier pass.name && pass.access.node.isAccess object member) := by
  induction node using pass.replace_induction with
  | reference => simp [Node.isAccess]
  | function id params body generator isAsync hid => rfl
  | shadowed node hreplaced hshadowed =>
    have hother : node.isIdentifier pass.name = false := by
      cases node <;> first | rfl | cases hshadowed
    rw [hother, Bool.false_and, Bool.or_false]
  | declaration declarations kind ih => rfl
  | entered node henters ih =>
    cases node
    case identifier other =>
      have hother : other ≠ pass.name := by
        rintro rfl
        simpa [replacement?] using henters.unreplaced
      rw [Node.isIdentifier_identifier, decide_eq_false hother]
      rfl
    case memberExpression base name computed isOptional =>
      have hbase := pass.isIdentifier_replace hname haccess base
      have hother : (Node.memberExpression base name computed isOptional).isIdentifier pass.name =
        false := rfl
      rw [hother, Bool.false_and, Bool.or_false]
      cases isOptional with
      | true => rfl
      | false =>
        cases computed with
        | false => simp [rewrite_eq_mapped, spellOut, Node.places, Node.isAccess, hbase]
        | true =>
          simp [rewrite_eq_mapped, spellOut, Node.places, Node.isAccess, hbase,
            pass.stringValue?_replace name]
    all_goals rfl

end Pass

/-! ## The two surveys -/

/-- The assignments to a member of the exports, outside all functions. Other operators than `=` read
the member as well and are not made by a pass. -/
def assigns (exported : String) : Survey Unit String where
  found _ node :=
    match node with
    | .assignmentExpression operator left _ =>
      if operator = "=" && left.isAccess exportsParam exported then [exported] else []
    | _ => []
  below _ node _ := if node.isFunction then none else some ()
  declared _ _ _ := []
  pattern _ _ := some ()
  value _ _ := some ()

/-- Whether there has been a pass for a name. After it the name stands nowhere as a use, and only
declarators of the name can still give it a value. -/
inductive Round where
  | first
  | later
  deriving DecidableEq, Repr

/-- The round after passes for some names. Only whether the name is among them counts, since a
second pass finds what the first has left. -/
def Round.after (round : Round) (names : List String) (name : String) : Round :=
  if name ∈ names then .later else round

/-- What gives a local name its value where a pass for the name comes to it. In a later
round the function declarations and the assignments are gone. -/
def writes (name : String) : Survey Round String where
  found round node :=
    match node with
    | .functionDeclaration id _ _ _ _ =>
      if round = .first && id.any (·.isIdentifier name) then [name] else []
    | .assignmentExpression operator left _ =>
      if round = .first && operator = "=" && left.isIdentifier name then [name] else []
    | _ => []
  below round node _ := if node.isFunction || node.rebinds name then none else some round
  declared _ id init := if id.isIdentifier name && init.isSome then [name] else []
  pattern _ _ := none
  value round id := if id.binds name then none else some round

/-! ## Assignments to the exports -/

namespace assigns

variable {exported : String}

theorem gather_isFunction {node : Node} (h : node.isFunction = true) :
    (assigns exported).gather () node = [] := by
  have hkind : node.kind ≠ .variableDeclaration := by
    intro hkind
    obtain ⟨declarations, kind, rfl⟩ := Node.hasFormOf_of_kind_eq hkind
    cases h
  have hfound : (assigns exported).found () node = [] := by
    cases node <;> first | rfl | cases h
  rw [Survey.gather_eq_nil_iff _ _ _ hkind]
  refine ⟨hfound, fun child _ => ?_⟩
  have hbelow : (assigns exported).below () node child = none := if_pos h
  rw [hbelow]
  rfl

theorem gather_access (access : Access) : (assigns exported).gather () access.node = [] :=
  Survey.gather_access (fun _ _ _ _ => rfl) (fun _ => rfl) (fun _ _ _ => rfl) ()

/-- What assigns to the member itself. Whatever the value is, there is one assignment at least. -/
theorem gather_assignment_ne_nil (value : Node) :
    (assigns exported).gather () (.assignment (.access exportsParam exported) value) ≠ [] := by
  rw [Ne, Survey.gather_eq_nil_iff _ _ (.assignment ..) (of_decide_eq_false rfl)]
  rintro ⟨hfound, -⟩
  simp [assigns, Node.assignment] at hfound

theorem gather_assignmentStatement_ne_nil (value : Node) :
    (assigns exported).gather () (.assignmentStatement (.access exportsParam exported) value) ≠
      [] := by
  rw [Ne, Survey.gather_eq_nil_iff _ _ (.assignmentStatement ..) (of_decide_eq_false rfl)]
  rintro ⟨-, hbelow⟩
  exact gather_assignment_ne_nil value (hbelow _ (List.mem_singleton_self _))

/-- An assignment to anything but the member shows the survey no more than its value. -/
theorem seesThrough {access : Access} (h : access.node.isAccess exportsParam exported = false) :
    (assigns exported).SeesThrough access where
  access_eq _ := gather_access access
  assignment_eq _ _ := by simp [assigns, Node.assignment, h]
  value_eq _ _ := rfl
  statement_eq _ _ := rfl
  expression_eq _ _ := rfl

/-- A pass that does not bring in an access to the member changes no assignments. It must not be for
the parameter of the exports, as the assignments are found by it. -/
theorem stable {pass : Pass} (hname : exportsParam ≠ pass.name)
    (hidentifier : pass.access.node.isIdentifier exportsParam = false)
    (haccess : pass.access.node.isAccess exportsParam exported = false) :
    (assigns exported).Stable pass where
  seesThrough := seesThrough haccess
  reference state := by
    rw [Survey.gather_eq _ state (.identifier _) (of_decide_eq_false rfl)]
    rfl
  function _ _ _ _ _ _ _ := by rw [gather_isFunction rfl, gather_isFunction rfl]
  found_eq _ node henters := by
    cases node
    case assignmentExpression operator left right =>
      have hleft := pass.isAccess_replace hname hidentifier exported left
      rw [haccess, Bool.and_false, Bool.or_false] at hleft
      simp [assigns, Pass.rewrite_eq_mapped, Pass.spellOut, Node.places, hleft]
    all_goals rfl
  below_eq _ node _ _ _ := by
    have hsame : (pass.rewrite node).isFunction = node.isFunction := by cases node <;> rfl
    simp only [assigns, hsame]
  declared_eq _ _ _ := rfl

/-- In particular this holds of the passes that export a local name under another member. -/
theorem stable_exportPass {name other : String} (hname : name ≠ exportsParam)
    (hother : other ≠ exported) : (assigns exported).Stable (Effect.exportPass name other) :=
  stable (Ne.symm hname) (Node.isIdentifier_access ..) (by
    rw [Effect.exportPass, Access.node, Node.isAccess_access, decide_eq_false hother,
      Bool.and_false])

end assigns

/-! ## Writes to a local name -/

namespace writes

variable {name : String}

/-- A use of a name writes to nothing: what is found at an assignment is found at the assignment and
not at its target. -/
theorem gather_identifier (round : Round) (other : String) :
    (writes name).gather round (.identifier other) = [] := by
  rw [Survey.gather_eq _ round (.identifier other) (of_decide_eq_false rfl)]
  rfl

/-- Inside a function nothing is found. A function declaration of the name is still found as such,
so it is not the empty list here. -/
theorem gather_isFunction {node : Node} (round : Round) (h : node.isFunction = true) :
    (writes name).gather round node = (writes name).found round node := by
  have hkind : node.kind ≠ .variableDeclaration := by
    intro hkind
    obtain ⟨declarations, kind, rfl⟩ := Node.hasFormOf_of_kind_eq hkind
    cases h
  have hbelow : ∀ child, (writes name).below round node child = none := fun child => by
    simp [writes, h]
  rw [Survey.gather_eq _ _ _ hkind]
  simp only [hbelow]
  exact (congrArg _ (List.flatMap_eq_nil_iff.2 fun _ _ => rfl)).trans (List.append_nil _)

theorem gather_functionExpression (round : Round) (id : Option Node) (params : List Node)
    (body : Node) (generator isAsync : Bool) :
    (writes name).gather round (.functionExpression id params body generator isAsync) = [] :=
  gather_isFunction round rfl

theorem seesThrough {access : Access} (h : access.object ≠ name) :
    (writes name).SeesThrough access where
  access_eq := Survey.gather_access (fun _ _ _ _ => rfl) (fun _ => rfl) (fun _ _ _ => rfl)
  assignment_eq _ _ := by simp [writes, Node.assignment, Access.isIdentifier_node_eq_false h]
  value_eq _ _ := rfl
  statement_eq _ _ := rfl
  expression_eq _ _ := rfl

/-- A pass for another name changes no writes, if its accesses are not to the name, either. -/
theorem stable {pass : Pass} (hname : name ≠ pass.name) (hobject : name ≠ pass.access.object) :
    (writes name).Stable pass where
  seesThrough := seesThrough (Ne.symm hobject)
  reference round := gather_identifier round pass.name
  function round id params body generator isAsync hid := by
    rw [gather_functionExpression, gather_isFunction round rfl]
    simp [writes, pass.any_isIdentifier_of_isOwnName hname hid]
  found_eq round node henters := by
    cases node
    case assignmentExpression operator left right =>
      have hleft := pass.isIdentifier_replace hname
        (Access.isIdentifier_node_eq_false (Ne.symm hobject)) left
      simp [writes, Pass.rewrite_eq_mapped, Pass.spellOut, Node.places, hleft]
    all_goals rfl
  below_eq round node child henters hmem := by
    have hsame : (pass.rewrite node).isFunction = node.isFunction := by cases node <;> rfl
    simp only [writes, hsame, pass.rebinds_rewrite hname hobject]
  declared_eq round id init := by simp only [writes, pass.isSome_replaceValue]

/-- What is found at a declarator: an initial value of the name itself, and what is in the value.
Default values of patterns are left out, since a pass does not go into them. -/
theorem gatherDeclarator_eq (round : Round) (id : Node) (init : Option Node) :
    (writes name).gatherDeclarator round (.variableDeclarator id init) =
      (if id.isIdentifier name && init.isSome then [name] else []) ++
        if id.binds name then [] else init.toList.flatMap ((writes name).gather round) := by
  have hpattern : id.patternExpressions.flatMap
      ((writes name).gatherIf ((writes name).pattern round id)) = [] :=
    List.flatMap_eq_nil_iff.2 fun _ _ => rfl
  rw [Survey.gatherDeclarator, hpattern, List.append_nil]
  by_cases hbinds : id.binds name = true
  · have hvalue : (writes name).value round id = none := by simp [writes, hbinds]
    have hnone : init.toList.flatMap ((writes name).gatherIf none) = [] :=
      List.flatMap_eq_nil_iff.2 fun _ _ => rfl
    rw [hvalue, hnone, if_pos hbinds]
    rfl
  · have hvalue : (writes name).value round id = some round := by simp [writes, hbinds]
    rw [hvalue, if_neg hbinds]
    rfl

/-! ## The pass for the name -/

variable {pass : Pass}

/-- A node that shadows the name is passed by. So the survey sees as far as the pass does and no
further, which is what makes the two agree. -/
theorem gather_shadowed {node : Node} (round : Round) (hreplaced : pass.replacement? node = none)
    (hshadowed : pass.isShadowedBy node = true) : (writes pass.name).gather round node = [] := by
  have hkind := pass.kind_ne_of_shadowed hshadowed
  rw [Survey.gather_eq_nil_iff _ _ _ hkind]
  constructor
  · cases node
    case functionDeclaration id params body generator isAsync =>
      have hid : id.any (·.isIdentifier pass.name) = false := pass.isOwnName_eq_false hreplaced
      simp [writes, hid]
    case assignmentExpression => cases hshadowed
    all_goals rfl
  · intro child hchild
    rw [pass.isShadowedBy_eq, Bool.or_eq_true] at hshadowed
    rcases hshadowed with hrebinds | himport
    · have hbelow : (writes pass.name).below round node child = none := by simp [writes, hrebinds]
      rw [hbelow]
      rfl
    · cases node
      case importDeclaration => cases hchild
      all_goals simp [Node.kind, Node.record] at himport

/-- In a later round nothing is found but at declarators, because these are all that a first pass
leaves. -/
theorem found_later (node : Node) : (writes name).found .later node = [] := by
  cases node <;> rfl

/-- At a node that the pass has entered the name stands no longer, and so it writes to nothing
itself. The access must not be to the name, or it would bring it back. -/
theorem found_rewrite_self (hobject : pass.access.object ≠ pass.name) {node : Node}
    (henters : pass.Enters node) (round : Round) :
    (writes pass.name).found round (pass.rewrite node) = [] := by
  cases node
  case functionDeclaration id params body generator isAsync =>
    have hid : id.any (·.isIdentifier pass.name) = false :=
      pass.isOwnName_eq_false henters.unreplaced
    have hsame : (writes pass.name).found round (pass.rewrite
          (.functionDeclaration id params body generator isAsync)) =
        if round = .first && id.any (·.isIdentifier pass.name) then [pass.name] else [] := rfl
    rw [hsame, hid, Bool.and_false, if_neg Bool.false_ne_true]
  case assignmentExpression operator left right =>
    have hleft : (pass.replace left).isIdentifier pass.name = false :=
      decide_eq_false (Pass.identifierName?_replace_ne hobject left)
    simp [writes, Pass.rewrite_eq_mapped, Pass.spellOut, Node.places, hleft]
  all_goals rfl

/-- After a pass for the name only initial values are left, in whatever round it is. A second pass
for the name assigns these once more. -/
theorem gather_replace_self (hobject : pass.access.object ≠ pass.name) (round : Round)
    (node : Node) :
    (writes pass.name).gather round (pass.replace node) =
      (writes pass.name).gather .later node := by
  induction node using pass.replace_induction with
  | reference => rw [(seesThrough hobject).access_eq, gather_identifier]
  | function id params body generator isAsync hid =>
    rw [(seesThrough hobject).gather_assignmentStatement, gather_functionExpression,
      gather_isFunction .later rfl]
    rfl
  | shadowed node hreplaced hshadowed =>
    rw [gather_shadowed round hreplaced hshadowed, gather_shadowed .later hreplaced hshadowed]
  | declaration declarations kind ih =>
    rw [Survey.gather_variableDeclaration, Survey.gather_variableDeclaration, List.flatMap_map]
    refine List.flatMap_congr fun declarator hmem => ?_
    cases declarator
    case variableDeclarator id init =>
      rw [Pass.replaceDeclarator, gatherDeclarator_eq, gatherDeclarator_eq,
        pass.isSome_replaceValue]
      congr 1
      -- What a declarator counts is that there is an initial value, and this stays so.
      by_cases hbinds : id.binds pass.name = true
      · rw [if_pos hbinds, if_pos hbinds]
      · have hself : id.isIdentifier pass.name = false :=
          Bool.eq_false_iff.2 fun h => hbinds (Node.binds_of_isIdentifier h)
        rw [if_neg hbinds, if_neg hbinds, Pass.replaceValue, hself, if_neg Bool.false_ne_true,
          if_neg hbinds]
        cases init with
        | none => rfl
        | some value => simpa using ih id value hmem
    all_goals rfl
  | entered node henters ih =>
    have hkind := henters.rewrite_undeclared
    have hfunction : (pass.rewrite node).isFunction = node.isFunction := by cases node <;> rfl
    rw [Survey.gather_eq _ _ _ hkind, Survey.gather_eq _ _ _ henters.undeclared,
      found_rewrite_self hobject henters, found_later, pass.children_rewrite, List.flatMap_map]
    congr 1
    refine List.flatMap_congr fun child hmem => ?_
    simp only [writes, hfunction, pass.rebinds_rewrite_self henters, henters.rebinds_eq_false]
    split
    · rfl
    · exact ih child hmem

/-- **Several passes.** One for the name takes the writes to the later round, and the
others change nothing. -/
theorem gather_replaceAll {passes : List Pass}
    (hobjects : ∀ pass ∈ passes, pass.access.object ≠ name)
    (round : Round) (node : Node) :
    (writes name).gather round (Pass.replaceAll passes node) =
      (writes name).gather (round.after (passes.map (·.name)) name) node := by
  induction passes generalizing node with
  | nil => rfl
  | cons pass rest ih =>
    rw [Pass.replaceAll_cons, ih fun other hmem => hobjects other (List.mem_cons_of_mem _ hmem)]
    have hobject := hobjects pass List.mem_cons_self
    by_cases hname : name = pass.name
    · subst hname
      rw [gather_replace_self hobject]
      simp [Round.after]
    · rw [(stable hname (Ne.symm hobject)).gather_replace]
      simp [Round.after, hname]

end writes

/-! ## The pass that exports a name -/

namespace assigns

variable {exported : String} {pass : Pass}

/-- An initial value is no assignment in the sense of this survey, but one can be in it, or in a
default value of the pattern. -/
theorem gatherDeclarator_eq (id : Node) (init : Option Node) :
    (assigns exported).gatherDeclarator () (.variableDeclarator id init) =
      id.patternExpressions.flatMap ((assigns exported).gather ()) ++
        init.toList.flatMap ((assigns exported).gather ()) := rfl

/-- At a node that the pass goes on from, it makes an assignment to the exports of an
assignment to the name. -/
theorem found_rewrite_eq_nil (haccess : pass.access = .member exportsParam exported)
    (hname : pass.name ≠ exportsParam) {node : Node} (henters : pass.Enters node) :
    (assigns exported).found () (pass.rewrite node) = [] ↔
      (assigns exported).found () node = [] ∧ (writes pass.name).found .first node = [] := by
  have hnode : pass.access.node = .access exportsParam exported := by rw [haccess, Access.node]
  cases node
  case functionDeclaration id params body generator isAsync =>
    have hid : id.any (·.isIdentifier pass.name) = false :=
      pass.isOwnName_eq_false henters.unreplaced
    have hwrites : (writes pass.name).found .first
        (.functionDeclaration id params body generator isAsync) = [] := by simp [writes, hid]
    exact ⟨fun _ => ⟨rfl, hwrites⟩, fun _ => rfl⟩
  case assignmentExpression operator left right =>
    have hleft := pass.isAccess_replace (Ne.symm hname)
      (by rw [hnode]; exact Node.isIdentifier_access ..) exported left
    rw [hnode, Node.isAccess_access, decide_eq_true rfl, decide_eq_true rfl, Bool.and_true,
      Bool.and_true] at hleft
    by_cases hoperator : operator = "="
    · simp [assigns, writes, Pass.rewrite_eq_mapped, Pass.spellOut, Node.places, hleft, hoperator]
    · simp [assigns, writes, Pass.rewrite_eq_mapped, Pass.spellOut, Node.places, hoperator]
  all_goals exact ⟨fun _ => ⟨rfl, rfl⟩, fun _ => rfl⟩

/-- The same at a declarator: an initial value is assigned to the exports if the name alone
is declared. -/
theorem gatherDeclarator_replace_eq_nil (hnode : pass.access.node = .access exportsParam exported)
    (id : Node) (init : Option Node)
    (ih : ∀ value ∈ init, (assigns exported).gather () (pass.replace value) = [] ↔
      (assigns exported).gather () value = [] ∧ (writes pass.name).gather .first value = []) :
    (assigns exported).gatherDeclarator () (pass.replaceDeclarator (.variableDeclarator id init)) =
        [] ↔
      (assigns exported).gatherDeclarator () (.variableDeclarator id init) = [] ∧
        (writes pass.name).gatherDeclarator .first (.variableDeclarator id init) = [] := by
  rw [Pass.replaceDeclarator, gatherDeclarator_eq, gatherDeclarator_eq,
    writes.gatherDeclarator_eq, Pass.replaceValue, hnode]
  cases init with
  | none => simp
  | some value =>
    by_cases hself : id.isIdentifier pass.name = true
    · have hassigned := @gather_assignment_ne_nil exported value
      simp [hself, Node.binds_of_isIdentifier hself, hassigned]
    · by_cases hbinds : id.binds pass.name = true
      · simp [hself, hbinds]
      · simp [hself, hbinds, ih value rfl, and_assoc]

/-- **Where the assignments to the exports come from.** After the pass that exports a name
there is none exactly if there was none before and the pass has come to no write. -/
theorem gather_replace_eq_nil (haccess : pass.access = .member exportsParam exported)
    (hname : pass.name ≠ exportsParam) (node : Node) :
    (assigns exported).gather () (pass.replace node) = [] ↔
      (assigns exported).gather () node = [] ∧ (writes pass.name).gather .first node = [] := by
  have hnode : pass.access.node = .access exportsParam exported := by rw [haccess, Access.node]
  induction node using pass.replace_induction with
  | reference =>
    rw [gather_access, writes.gather_identifier,
      Survey.gather_eq _ _ (.identifier _) (of_decide_eq_false rfl)]
    exact ⟨fun _ => ⟨rfl, rfl⟩, fun _ => rfl⟩
  | function id params body generator isAsync hid =>
    have hfound : (writes pass.name).found .first
        (.functionDeclaration id params body generator isAsync) = [pass.name] := by
      have hid' : id.any (·.isIdentifier pass.name) = true := hid
      simp [writes, hid']
    rw [hnode, writes.gather_isFunction .first rfl, hfound]
    exact ⟨fun h => absurd h (gather_assignmentStatement_ne_nil _), fun h => by cases h.2⟩
  | shadowed node hreplaced hshadowed =>
    rw [writes.gather_shadowed .first hreplaced hshadowed]
    exact ⟨fun h => ⟨h, rfl⟩, fun h => h.1⟩
  | declaration declarations kind ih =>
    simp only [Survey.gather_variableDeclaration, List.flatMap_map, List.flatMap_eq_nil_iff,
      ← forall₂_and]
    refine forall₂_congr fun declarator hmem => ?_
    cases declarator
    case variableDeclarator id init =>
      refine gatherDeclarator_replace_eq_nil hnode id init fun value hvalue => ?_
      rw [Option.mem_def.1 hvalue] at hmem
      exact ih id value hmem
    all_goals exact ⟨fun _ => ⟨rfl, rfl⟩, fun _ => rfl⟩
  | entered node henters ih =>
    have hkind := henters.rewrite_undeclared
    have hfunction : (pass.rewrite node).isFunction = node.isFunction := by cases node <;> rfl
    rw [Survey.gather_eq_nil_iff _ _ _ hkind, Survey.gather_eq_nil_iff _ _ _ henters.undeclared,
      Survey.gather_eq_nil_iff _ _ _ henters.undeclared,
      found_rewrite_eq_nil haccess hname henters, pass.children_rewrite, List.forall_mem_map,
      and_and_and_comm, ← forall₂_and]
    -- The construct does not bind the name, so both surveys go on from it, unless it is a function.
    refine and_congr_right fun _ => forall₂_congr fun child hmem => ?_
    simp only [assigns, writes, hfunction, henters.rebinds_eq_false, Bool.or_false]
    split
    · exact ⟨fun _ => ⟨rfl, rfl⟩, fun _ => rfl⟩
    · exact ih child hmem

end assigns

end DefineWrap
