/-
The names that a pattern binds.

A pattern is an identifier or takes a value apart: into properties, into elements,
into a rest, or with a default value. A member access, which may stand where a
value is assigned, binds nothing, and neither do default values and computed
keys. The names come in the order of the text, and a name that stands in a
pattern twice is listed twice.
-/
import DefineWrap.Estree.Node

set_option autoImplicit false

namespace DefineWrap

namespace Node

/-- The pattern of a property of an object pattern. -/
def propertyPattern : Node → Node
  | .property _ value _ _ _ _ => value
  | other => other

/-- The patterns directly inside a pattern. -/
def subpatterns : Node → List Node
  | .objectPattern properties => properties.map propertyPattern
  | .arrayPattern elements => elements.filterMap id
  | .restElement argument => [argument]
  | .assignmentPattern left _ => [left]
  | _ => []

theorem sizeOf_propertyPattern_le (node : Node) : sizeOf node.propertyPattern ≤ sizeOf node := by
  unfold propertyPattern
  split
  · simp +arith
  · exact Nat.le_refl _

/-- The patterns inside a pattern are smaller than it. -/
theorem sizeOf_lt_of_mem_subpatterns {node part : Node} (h : part ∈ node.subpatterns) :
    sizeOf part < sizeOf node := by
  unfold subpatterns at h
  split at h
  · obtain ⟨property, hmem, rfl⟩ := List.mem_map.1 h
    have := List.sizeOf_lt_of_mem hmem
    have := sizeOf_propertyPattern_le property
    simp only [objectPattern.sizeOf_spec]; omega
  next elements =>
    have hmem : some part ∈ elements := by simpa using h
    have := List.sizeOf_lt_of_mem hmem
    simp only [Option.some.sizeOf_spec] at this
    simp only [arrayPattern.sizeOf_spec]; omega
  · simp only [List.mem_singleton] at h
    simp only [h, restElement.sizeOf_spec]; omega
  · simp only [List.mem_singleton] at h
    simp only [h, assignmentPattern.sizeOf_spec]; omega
  · cases h

/-- The names that a pattern binds. -/
def boundNames (node : Node) : List String :=
  match node with
  | .identifier name => [name]
  | node => node.subpatterns.attach.flatMap fun part => boundNames part.1
termination_by sizeOf node
decreasing_by exact sizeOf_lt_of_mem_subpatterns part.2

@[simp] theorem boundNames_identifier (name : String) : (identifier name).boundNames = [name] := by
  rw [boundNames]

/-- What is no identifier binds what the patterns inside it bind. -/
theorem boundNames_eq {node : Node} (h : node.identifierName? = none) :
    node.boundNames = node.subpatterns.flatMap boundNames := by
  cases node
  case identifier => simp [identifierName?] at h
  all_goals
    rw [boundNames, List.flatMap_subtype (g := boundNames) fun _ _ => rfl, List.unattach_attach]
    exact fun _ => Node.noConfusion

/-- Whether a pattern binds a name. -/
def binds (node : Node) (name : String) : Bool := name ∈ node.boundNames

theorem binds_iff {node : Node} {name : String} :
    node.binds name = true ↔ name ∈ node.boundNames := by simp [binds]

end Node

end DefineWrap
