/-
Records: values with a fixed set of named fields, read while the text is read.

A record is written as an object, in which the fields stand in any order and
other members are passed over, or as an array, in which they stand in a fixed
order. A field that is named twice is a mismatch as soon as its second name has
been read. An array may end early; whether a field may be missing is for the
owner of the record to say. An array that goes on after the last field is
malformed.

The fields fill in a state that begins with all of them missing.
-/
import DefineWrap.Json.Reader

set_option autoImplicit false

namespace DefineWrap

/-- A field of a record with state `σ`: its name, and how its value is read at a
place where the given number of containers may still be opened. -/
structure RecordField (σ : Type) where
  name : String
  read : Nat → σ → Reader σ

namespace Reader

/-- Reads one member of a record. The names seen so far come with the state. -/
def recordMember {σ : Type} (fields : List (RecordField σ)) (depth : Nat)
    (state : List String × σ) (name : Lexeme String) : Reader (List String × σ) :=
  fun tokens => do
    let name ← name.read
    match fields.find? (·.name = name) with
    | none =>
      let ((), rest) ← colon tokens
      let ((), rest) ← skip rest
      return (state, rest)
    | some field =>
      if name ∈ state.1 then .error .mismatched
      else
        let ((), rest) ← colon tokens
        let (value, rest) ← field.read depth state.2 rest
        return ((name :: state.1, value), rest)

/-- Reads the further fields of a record that is written as an array. -/
def moreFields {σ : Type} (depth : Nat) : List (RecordField σ) → σ → Reader σ
  | _, state, .closeArray :: rest => .ok (state, rest)
  | _, _, [] => .error .truncated
  | [], _, _ :: _ => .error .malformed
  | field :: fields, state, .comma :: rest =>
    match rest with
    | [] => .error .truncated
    | .closeArray :: _ => .error .malformed
    | _ => do
      let (state, rest) ← field.read depth state rest
      moreFields depth fields state rest
  | _ :: _, _, _ :: _ => .error .malformed

/-- Reads the fields of a record that is written as an array, after its opening
bracket. -/
def positional {σ : Type} (depth : Nat) (fields : List (RecordField σ)) (state : σ) : Reader σ
  | .closeArray :: rest => .ok (state, rest)
  | [] => .error .truncated
  | tokens =>
    match fields with
    | [] => .error .malformed
    | field :: fields => do
      let (state, rest) ← field.read depth state tokens
      moreFields depth fields state rest

/-- Reads a record in either form. -/
def record {σ : Type} (depth : Nat) (fields : List (RecordField σ)) (state : σ) : Reader σ
  | .openObject :: rest =>
    match depth with
    | 0 => .error .malformed
    | depth + 1 => do
      let ((_, state), rest) ← members (recordMember fields depth) ([], state) rest
      return (state, rest)
  | .openArray :: rest =>
    match depth with
    | 0 => .error .malformed
    | depth + 1 => positional depth fields state rest
  | tokens => .error (unexpected tokens)

end Reader

end DefineWrap
