/-
Quoted text: how a string stands in a JSON text, in both directions.

Writing replaces a quote, a backslash and every control character by an escape;
every other character stands for itself. Reading has two stages. The first
splits the text up to the closing quote into units, one for each character or
escape: this is all that matters when a string is skipped. The second joins
units to characters, where two units for the two halves of a surrogate pair make
one character and a half alone is a fault.

The stages are kept apart because a string that is skipped may hold half pairs,
and a string that is read may not.
-/
import DefineWrap.Json.Fault

set_option autoImplicit false

namespace DefineWrap

namespace Quoted

/-! ## Writing -/

/-- The hexadecimal digit of a number below sixteen, in lower case. -/
def hexDigit (n : Nat) : Char := if n < 10 then Char.ofNat (48 + n) else Char.ofNat (87 + n)

/-- One character inside quotes. Five control characters have escapes of their
own, the others are written by their number. -/
def escape (c : Char) : List Char :=
  if c = '"' then ['\\', '"']
  else if c = '\\' then ['\\', '\\']
  else if c.toNat = 8 then ['\\', 'b']
  else if c.toNat = 9 then ['\\', 't']
  else if c.toNat = 10 then ['\\', 'n']
  else if c.toNat = 12 then ['\\', 'f']
  else if c.toNat = 13 then ['\\', 'r']
  else if c.toNat < 32 then
    ['\\', 'u', '0', '0', hexDigit (c.toNat / 16), hexDigit (c.toNat % 16)]
  else [c]

/-- The characters between the quotes. -/
def encode (text : List Char) : List Char := text.flatMap escape

/-- A whole quoted string. -/
def quote (text : List Char) : List Char := '"' :: (encode text ++ ['"'])

@[simp] theorem encode_nil : encode [] = [] := rfl

@[simp] theorem encode_cons (c : Char) (text : List Char) :
    encode (c :: text) = escape c ++ encode text := rfl

/-! ## Units -/

/-- What one character or one escape inside quotes stands for. -/
inductive Piece where
  /-- A character of its own. -/
  | char (c : Char)
  /-- The first half of a surrogate pair, less the bits that mark it. -/
  | lead (bits : Nat)
  /-- The second half, likewise. -/
  | trail (bits : Nat)
  deriving DecidableEq, Repr

/-- The value of a hexadecimal digit of either case. -/
def hexValue? (c : Char) : Option Nat :=
  if c.isDigit then some (c.toNat - 48)
  else if 'a' ≤ c ∧ c ≤ 'f' then some (c.toNat - 87)
  else if 'A' ≤ c ∧ c ≤ 'F' then some (c.toNat - 55)
  else none

/-- The number of four hexadecimal digits. -/
def hexNumber? (a b c d : Char) : Option Nat :=
  match hexValue? a, hexValue? b, hexValue? c, hexValue? d with
  | some a, some b, some c, some d => some (((a * 16 + b) * 16 + c) * 16 + d)
  | _, _, _, _ => none

/-- What a 16-bit number stands for. -/
def pieceOf (n : Nat) : Piece :=
  if 0xD800 ≤ n ∧ n < 0xDC00 then .lead (n - 0xD800)
  else if 0xDC00 ≤ n ∧ n < 0xE000 then .trail (n - 0xDC00)
  else .char (Char.ofNat n)

/-- What an escape by a letter stands for. -/
def shortEscape? (c : Char) : Option Char :=
  if c = '"' ∨ c = '\\' ∨ c = '/' then some c
  else if c = 'b' then some (Char.ofNat 8)
  else if c = 't' then some (Char.ofNat 9)
  else if c = 'n' then some (Char.ofNat 10)
  else if c = 'f' then some (Char.ofNat 12)
  else if c = 'r' then some (Char.ofNat 13)
  else none

/-- The fault of an escape by number that has no four digits: the text has ended
if fewer than four bytes are left of it. -/
def missingHex (rest : List Char) : Fault :=
  if (String.ofList rest).utf8ByteSize < 4 then .truncated else .malformed

/-- Splits the text after an opening quote into pieces. The second part is what
follows the closing quote, or the fault that was met instead of it. -/
def pieces : List Char → List Piece × Except Fault (List Char)
  | [] => ([], .error .truncated)
  | '"' :: rest => ([], .ok rest)
  | '\\' :: 'u' :: a :: b :: c :: d :: rest =>
    match hexNumber? a b c d with
    | none => ([], .error .malformed)
    | some n =>
      let (more, ending) := pieces rest
      (pieceOf n :: more, ending)
  | '\\' :: 'u' :: rest => ([], .error (missingHex rest))
  | '\\' :: letter :: rest =>
    match shortEscape? letter with
    | none => ([], .error .malformed)
    | some c =>
      let (more, ending) := pieces rest
      (.char c :: more, ending)
  | ['\\'] => ([], .error .truncated)
  | c :: rest =>
    if c.toNat < 32 then ([], .error .malformed)
    else
      let (more, ending) := pieces rest
      (.char c :: more, ending)

/-- The character of a surrogate pair. -/
def pairChar (lead trail : Nat) : Char := Char.ofNat (0x10000 + lead * 0x400 + trail)

/-- Joins pieces to characters. A first half must be followed by a second one; if
the pieces end there, it is the ending that decides what is wrong. -/
def join (ending : Except Fault Unit) : List Piece → Except Fault (List Char)
  | [] => ending.map fun _ => []
  | .char c :: rest => (join ending rest).map (c :: ·)
  | .lead high :: .trail low :: rest => (join ending rest).map (pairChar high low :: ·)
  | [.lead _] =>
    match ending with
    | .error fault => .error fault
    | .ok _ => .error .malformed
  | .lead _ :: _ :: _ => .error .malformed
  | .trail _ :: _ => .error .malformed

/-- Reads the text after an opening quote, and gives what follows the closing one. -/
def decode (text : List Char) : Except Fault (List Char × List Char) :=
  match pieces text with
  | (units, .ok rest) => (join (.ok ()) units).map (·, rest)
  | (units, .error fault) => (join (.error fault) units).map (·, [])

end Quoted

end DefineWrap
