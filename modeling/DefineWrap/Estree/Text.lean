/-
Nodes and programs as JSON texts.

A node is read in two steps. While its text is read, only its kind is looked at;
all other members are kept as JSON values. Once the text of the node has ended,
the values are given their shape. So whatever is malformed in the text of a node
is found before anything that only has the wrong shape, except for a wrong or
repeated kind, which is found in its place.

A program is a record: its statements are read as nodes one after the other, and
members that it does not know are skipped.
-/
import DefineWrap.Estree.Form
import DefineWrap.Json.Printer
import DefineWrap.Json.Record

set_option autoImplicit false

namespace DefineWrap

/-- Reads the name of a kind. -/
def Kind.read : Reader Kind := fun tokens => do
  let (name, rest) ← Reader.string tokens
  match ofName? name with
  | some kind => return (kind, rest)
  | none => .error .mismatched

/-! ## Nodes -/

namespace Node

/-- What has been read of a node that is written as an object. -/
structure Members where
  kind : Option Kind
  others : List (String × Json)

/-- What has been read of a node that is written as an array. -/
structure Items where
  kind : Option Kind
  others : List Json

/-- Reads one member of a node. -/
def readMember (depth : Nat) (before : Members) (name : Lexeme String) : Reader Members :=
  fun tokens => do
    let name ← name.read
    if name = kindMember then
      match before.kind with
      | some _ => .error .mismatched
      | none =>
        let ((), rest) ← Reader.colon tokens
        let (kind, rest) ← Kind.read rest
        return (⟨some kind, before.others⟩, rest)
    else
      let ((), rest) ← Reader.colon tokens
      let (value, rest) ← Reader.value depth rest
      return (⟨before.kind, before.others ++ [(name, value)]⟩, rest)

/-- Reads one item of a node; the first is its kind. -/
def readItem (depth : Nat) (before : Items) : Reader Items := fun tokens =>
  match before.kind with
  | none => do
    let (kind, rest) ← Kind.read tokens
    return (⟨some kind, []⟩, rest)
  | some kind => do
    let (value, rest) ← Reader.value depth tokens
    return (⟨some kind, before.others ++ [value]⟩, rest)

/-- The node of a kind with what is written of its fields. -/
def ofGiven? (kind : Option Kind) (given : Given) : Except Fault Node :=
  match kind.bind fun kind => (Record.ofGiven? kind given).bind ofJsonRecord? with
  | some node => .ok node
  | none => .error .mismatched

/-- Reads a node in either form. -/
def read : Nat → Reader Node
  | depth + 1, .openObject :: rest => do
    let (members, rest) ← Reader.members (readMember depth) ⟨none, []⟩ rest
    let node ← ofGiven? members.kind (.named members.others)
    return (node, rest)
  | depth + 1, .openArray :: rest => do
    let (items, rest) ← Reader.items (readItem depth) ⟨none, []⟩ rest
    let node ← ofGiven? items.kind (.placed items.others)
    return (node, rest)
  | 0, .openObject :: _ => .error .malformed
  | 0, .openArray :: _ => .error .malformed
  | _, tokens => .error (Reader.unexpected tokens)

/-- The node that a text is written for. -/
def parse (text : String) : Except Fault Node := Reader.run (read Reader.maxDepth) text

/-- The text of a node. -/
def render (layout : Layout) (node : Node) : String := node.toJson.render layout

end Node

/-! ## Programs -/

namespace Program

/-- What has been read of a program. -/
structure Draft where
  body : Option (List Node)
  sourceType : Option String

/-- The fields of a program, in their order. -/
def fields : List (RecordField Draft) := [
  ⟨"body", fun depth before tokens => do
    let (body, rest) ← Reader.list depth Node.read tokens
    return (⟨some body, before.sourceType⟩, rest)⟩,
  ⟨"sourceType", fun _ before tokens => do
    let (sourceType, rest) ← Reader.optional Reader.string tokens
    return (⟨before.body, sourceType⟩, rest)⟩]

/-- Reads a program. Its statements have to be there. -/
def read (depth : Nat) : Reader Program := fun tokens => do
  let (draft, rest) ← Reader.record depth fields ⟨none, none⟩ tokens
  match draft.body with
  | some body => return (⟨body, draft.sourceType⟩, rest)
  | none => .error .mismatched

/-- The program that a text is written for. -/
def parse (text : String) : Except Fault Program := Reader.run (read Reader.maxDepth) text

/-- The text of a program. -/
def render (layout : Layout) (program : Program) : String := program.toJson.render layout

end Program

end DefineWrap
