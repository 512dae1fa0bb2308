/-
JSON values.

An object is a list of members in the order of the text, and it may name a
member twice: what a repeated name means is for the reader of the value to
decide. Where an object is kept as a value of its own, `Json.settle` gives it the
usual meaning, in which the last value of a name counts and stands at the place
of the first.
-/
import DefineWrap.Json.Number

set_option autoImplicit false

namespace DefineWrap

/-- A JSON value. -/
inductive Json where
  | null
  | bool (value : Bool)
  | number (value : Number)
  | string (value : String)
  | array (items : List Json)
  | object (members : List (String × Json))

namespace Json

/-! ## Parts of a value -/

/-- The values directly inside a value. -/
def parts : Json → List Json
  | .array items => items
  | .object members => members.map Prod.snd
  | _ => []

/-- A member of a list of members is smaller than the list. -/
theorem sizeOf_snd_lt_of_mem {members : List (String × Json)} {member : String × Json}
    (h : member ∈ members) : sizeOf member.2 < sizeOf members := by
  have hm := List.sizeOf_lt_of_mem h
  have hs : sizeOf member = 1 + sizeOf member.1 + sizeOf member.2 := by
    cases member; rfl
  omega

/-- The values inside a value are smaller than it. -/
theorem sizeOf_lt_of_mem_parts {value part : Json} (h : part ∈ value.parts) :
    sizeOf part < sizeOf value := by
  cases value with
  | array items =>
    have := List.sizeOf_lt_of_mem (show part ∈ items from h)
    simp only [array.sizeOf_spec]; omega
  | object members =>
    obtain ⟨member, hm, rfl⟩ := List.mem_map.1 (show part ∈ members.map Prod.snd from h)
    have := sizeOf_snd_lt_of_mem hm
    simp only [object.sizeOf_spec]; omega
  | _ => simp [parts] at h

/-! ## Repeated names -/

/-- Sets a member: at the place of the first member of that name, or at the end. -/
def setMember (name : String) (value : Json) : List (String × Json) → List (String × Json)
  | [] => [(name, value)]
  | member :: rest =>
    if member.1 = name then (name, value) :: rest else member :: setMember name value rest

/-- The members with each name once, at its first place and with its last value. -/
def settleMembers (members : List (String × Json)) : List (String × Json) :=
  members.foldl (fun settled member => setMember member.1 member.2 settled) []

mutual

/-- The value in which no object names a member twice. -/
def settle : Json → Json
  | .array items => .array (settleItems items)
  | .object members => .object (settleMembers (settleValues members))
  | value => value

/-- `settle` for each item of an array. -/
def settleItems : List Json → List Json
  | [] => []
  | item :: rest => settle item :: settleItems rest

/-- `settle` for each value of an object, repeated names included. -/
def settleValues : List (String × Json) → List (String × Json)
  | [] => []
  | (name, value) :: rest => (name, settle value) :: settleValues rest

end

@[simp] theorem settleItems_nil : settleItems [] = [] := by simp [settleItems]

@[simp] theorem settleItems_cons (item : Json) (rest : List Json) :
    settleItems (item :: rest) = settle item :: settleItems rest := by simp [settleItems]

theorem settleItems_eq_map (items : List Json) : settleItems items = items.map settle := by
  induction items with
  | nil => rfl
  | cons item rest ih => simp [ih]

end Json

end DefineWrap
