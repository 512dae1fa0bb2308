/-
Readers of JSON values from tokens.

A reader takes the tokens from its place on and gives a value and the tokens
after it, or the first fault in reading order. Arrays and objects may be nested
up to a limit, so a reader of values is given the number of containers that may
still be opened, and its recursion is on that number. Reading the items of one
container is a loop, and since every item takes a token, the tokens themselves
bound its rounds.

A skipped value is not built and has no limit on nesting.
-/
import DefineWrap.Json.Token

set_option autoImplicit false

namespace DefineWrap

/-- Reads a value from the beginning of a list of tokens. -/
abbrev Reader (α : Type) := List Token → Except Fault (α × List Token)

namespace Reader

/-! ## Steps inside a container -/

/-- The colon between a name and its value. -/
def colon : Reader Unit
  | .colon :: rest => .ok ((), rest)
  | [] => .error .truncated
  | _ => .error .malformed

/-- What is wrong where a value of another kind was expected: a faulty token has
its own fault, every other value is a mismatch, and a token that begins no value
is a fault of the text. -/
def unexpected : List Token → Fault
  | [] => .truncated
  | .openObject :: _ => .mismatched
  | .openArray :: _ => .mismatched
  | .quoted lexeme :: _ =>
    match lexeme.read with
    | .ok _ => .mismatched
    | .error fault => fault
  | .scalar lexeme :: _ =>
    match lexeme.read with
    | .ok _ => .mismatched
    | .error fault => fault
  | _ => .malformed

/-- Reads the further items of an array, each with the state so far. -/
def moreItems {σ : Type} (item : σ → Reader σ) : List Token → σ → Reader σ
  | [], _, _ => .error .truncated
  | _ :: _, _, [] => .error .truncated
  | _ :: rounds, state, token :: rest =>
    match token with
    | .closeArray => .ok (state, rest)
    | .comma =>
      match rest with
      | [] => .error .truncated
      | .closeArray :: _ => .error .malformed
      | _ => do
        let (state, rest) ← item state rest
        moreItems item rounds state rest
    | _ => .error .malformed

/-- Reads the items of an array after its opening bracket. -/
def items {σ : Type} (item : σ → Reader σ) (state : σ) (tokens : List Token) :
    Except Fault (σ × List Token) :=
  match tokens with
  | [] => .error .truncated
  | .closeArray :: rest => .ok (state, rest)
  | _ => do
    let (state, rest) ← item state tokens
    moreItems item tokens state rest

/-- Reads one member of an object: its name, and with it the rest from the colon on. -/
def member {σ : Type} (entry : σ → Lexeme String → Reader σ) (state : σ) : Reader σ
  | [] => .error .truncated
  | .quoted name :: rest => entry state name rest
  | _ => .error .malformed

/-- Reads the further members of an object, each with the state so far. -/
def moreMembers {σ : Type} (entry : σ → Lexeme String → Reader σ) :
    List Token → σ → Reader σ
  | [], _, _ => .error .truncated
  | _ :: _, _, [] => .error .truncated
  | _ :: rounds, state, token :: rest =>
    match token with
    | .closeObject => .ok (state, rest)
    | .comma => do
      let (state, rest) ← member entry state rest
      moreMembers entry rounds state rest
    | _ => .error .malformed

/-- Reads the members of an object after its opening brace. -/
def members {σ : Type} (entry : σ → Lexeme String → Reader σ) (state : σ)
    (tokens : List Token) : Except Fault (σ × List Token) :=
  match tokens with
  | [] => .error .truncated
  | .closeObject :: rest => .ok (state, rest)
  | _ => do
    let (state, rest) ← member entry state tokens
    moreMembers entry tokens state rest

/-! ## Whole values -/

/-- Reads an item and puts it after those before it. -/
def snoc {α : Type} (item : Reader α) (before : List α) : Reader (List α) := fun tokens => do
  let (value, rest) ← item tokens
  return (before ++ [value], rest)

/-- Reads a member whose value is read by the given reader, and puts it after
those before it. -/
def snocMember {α : Type} (value : Reader α) (before : List (String × α))
    (name : Lexeme String) : Reader (List (String × α)) := fun tokens => do
  let name ← name.read
  let ((), rest) ← colon tokens
  let (value, rest) ← value rest
  return (before ++ [(name, value)], rest)

/-- Reads any value in which at most the given number of containers are open at
the same place. -/
def value : Nat → Reader Json
  | _, .quoted lexeme :: rest => lexeme.read.map fun s => (.string s, rest)
  | _, .scalar lexeme :: rest => lexeme.read.map (·, rest)
  | depth + 1, .openArray :: rest =>
    (items (snoc (value depth)) [] rest).map fun (items, rest) => (.array items, rest)
  | depth + 1, .openObject :: rest =>
    (members (snocMember (value depth)) [] rest).map fun (members, rest) =>
      (.object members, rest)
  | _, [] => .error .truncated
  | _, _ :: _ => .error .malformed

/-- Passes over a value. Each open container took a token, so the tokens bound the
nesting. -/
def skipWithin : List Token → Reader Unit
  | _, .quoted lexeme :: rest => lexeme.skip.map (·, rest)
  | _, .scalar lexeme :: rest => lexeme.skip.map (·, rest)
  | _ :: depth, .openArray :: rest => items (fun _ => skipWithin depth) () rest
  | _ :: depth, .openObject :: rest =>
    members
      (fun _ name tokens => do
        name.skip
        let ((), rest) ← colon tokens
        skipWithin depth rest)
      () rest
  | _, [] => .error .truncated
  | _, _ :: _ => .error .malformed

/-- Passes over a value of any depth. -/
def skip : Reader Unit := fun tokens => skipWithin tokens tokens

/-- Reads a string, and nothing else. -/
def string : Reader String
  | .quoted lexeme :: rest => lexeme.read.map (·, rest)
  | tokens => .error (unexpected tokens)

/-- Reads a truth value, and nothing else. -/
def bool : Reader Bool
  | .scalar ⟨.ok (.bool value), _⟩ :: rest => .ok (value, rest)
  | tokens => .error (unexpected tokens)

/-- Reads `null` or what the given reader reads. -/
def optional {α : Type} (reader : Reader α) : Reader (Option α)
  | .scalar ⟨.ok .null, _⟩ :: rest => .ok (none, rest)
  | tokens => (reader tokens).map fun (value, rest) => (some value, rest)

/-- Reads an array of what the given reader reads, if a container may be opened. -/
def list {α : Type} (depth : Nat) (item : Nat → Reader α) : Reader (List α)
  | .openArray :: rest =>
    match depth with
    | 0 => .error .malformed
    | depth + 1 => items (snoc (item depth)) [] rest
  | tokens => .error (unexpected tokens)

/-! ## Whole texts -/

/-- The number of containers that may be open at the same place of a text. -/
def maxDepth : Nat := 127

/-- Reads a text that holds one value and nothing after it. -/
def run {α : Type} (reader : Reader α) (text : String) : Except Fault α := do
  let (value, rest) ← reader (Token.scan text.toList)
  match rest with
  | [] => return value
  | _ => .error .malformed

end Reader

end DefineWrap
