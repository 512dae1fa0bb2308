/-
The tokens of a JSON text.

A text is split into tokens once, before anything is made of it. Some tokens may
turn out to be faulty, and whether they are may depend on what is done with
them: a number beyond the range of the format, or half of a surrogate pair, is a
fault only if the value is read, not if it is skipped. So a token holds two
answers, one for each use, and the fault is raised by the reader that comes to
the token. A token that is faulty in both uses is the last one, since no reader
gets past it.
-/
import DefineWrap.Json.Basic
import DefineWrap.Json.Quoted

set_option autoImplicit false

namespace DefineWrap

/-- What a piece of text means to a reader of its value, and to one that skips it. -/
structure Lexeme (α : Type) where
  read : Except Fault α
  skip : Except Fault Unit

/-- A token of a JSON text. -/
inductive Token where
  | openObject
  | closeObject
  | openArray
  | closeArray
  | colon
  | comma
  /-- A quoted string. -/
  | quoted (lexeme : Lexeme String)
  /-- A number or one of the three words, as a value. -/
  | scalar (lexeme : Lexeme Json)
  /-- A character that begins no token. -/
  | stray

namespace Token

/-! ## Single tokens -/

/-- The four blanks of a JSON text. -/
def isBlank (c : Char) : Bool := c = ' ' || c = '\n' || c = '\t' || c = '\r'

/-- The token of a punctuation mark. -/
def mark? (c : Char) : Option Token :=
  if c = '\x7b' then some .openObject
  else if c = '\x7d' then some .closeObject
  else if c = '[' then some .openArray
  else if c = ']' then some .closeArray
  else if c = ':' then some .colon
  else if c = ',' then some .comma
  else none

/-- Reads the letters of a word, of which the first is already known. -/
def scanWord : List Char → List Char → Except Fault (List Char)
  | [], text => .ok text
  | _ :: _, [] => .error .truncated
  | letter :: letters, c :: text => if c = letter then scanWord letters text else .error .malformed

/-- The token of a word, and what follows it. -/
def scanValue (letters : List Char) (value : Json) (text : List Char) : Token × List Char :=
  match scanWord letters text with
  | .ok rest => (.scalar ⟨.ok value, .ok ()⟩, rest)
  | .error fault => (.scalar ⟨.error fault, .error fault⟩, [])

/-- The token of a quoted string after its opening quote, and what follows it. -/
def scanText (text : List Char) : Token × List Char :=
  match Quoted.pieces text with
  | (pieces, .ok rest) =>
    (.quoted ⟨(Quoted.join (.ok ()) pieces).map String.ofList, .ok ()⟩, rest)
  | (pieces, .error fault) =>
    (.quoted ⟨(Quoted.join (.error fault) pieces).map String.ofList, .error fault⟩, [])

/-- The token of a number, and what follows it. A skipped number that breaks off
is malformed even if the text ends there. -/
def scanNumber (text : List Char) : Token × List Char :=
  match Numeral.scan text with
  | .ok (numeral, rest) => (.scalar ⟨numeral.value.map .number, .ok ()⟩, rest)
  | .error fault => (.scalar ⟨.error fault, .error .malformed⟩, [])

/-- The token that begins with the given character, and what follows it. -/
def scanFrom (c : Char) (rest : List Char) : Token × List Char :=
  match mark? c with
  | some token => (token, rest)
  | none =>
    if c = '"' then scanText rest
    else if c = '-' ∨ c.isDigit then scanNumber (c :: rest)
    else if c = 'n' then scanValue ['u', 'l', 'l'] .null rest
    else if c = 't' then scanValue ['r', 'u', 'e'] (.bool true) rest
    else if c = 'f' then scanValue ['a', 'l', 's', 'e'] (.bool false) rest
    else (.stray, [])

/-! ## The tokens of a text -/

/-- The tokens of a text. Each takes at least one character, so the characters of
the first list bound the number of rounds. -/
def scanWithin : List Char → List Char → List Token
  | [], _ => []
  | _ :: _, [] => []
  | _ :: rounds, c :: rest =>
    if isBlank c then scanWithin rounds rest
    else
      let (token, rest) := scanFrom c rest
      token :: scanWithin rounds rest

/-- The tokens of a text. -/
def scan (text : List Char) : List Token := scanWithin text text

end Token

end DefineWrap
