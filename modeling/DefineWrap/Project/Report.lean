/-
The lines that a run reports, with or without colours.

A colour is switched on before a text and off after it, also if the text is empty.
-/

set_option autoImplicit false

namespace DefineWrap

namespace Report

/-- How a text is set off. -/
inductive Style where
  | bold
  | cyan
  | red
  | green
  | boldRed
  deriving DecidableEq, Repr

/-- The number that switches a style on. -/
def Style.code : Style → String
  | .bold => "1"
  | .cyan => "36"
  | .red => "31"
  | .green => "32"
  | .boldRed => "1;31"

/-- What switches a style on. -/
def Style.start (style : Style) : String := "\x1b[" ++ style.code ++ "m"

/-- What switches every style off. -/
def styleEnd : String := "\x1b[0m"

/-- A text in a style, if colours are wanted. Where the text switches every style off
itself, the style is switched on again. -/
def styled (color : Bool) (style : Style) (text : String) : String :=
  if color then
    style.start ++ (styleEnd ++ style.start).intercalate (text.splitOn styleEnd) ++ styleEnd
  else text

/-- Messages in one line: what could not be done, and then why. -/
def joinMessages (messages : List String) : String := ": ".intercalate messages

/-- The line of a module that failed. -/
def failureLine (color : Bool) (file : String) (messages : List String) : String :=
  styled color .cyan file ++ " - " ++ styled color .boldRed "error" ++ ": " ++
    joinMessages messages

/-- The line of the dependencies of a module. -/
def dependenciesLine (color : Bool) (moduleId : String) (dependencies : List String) : String :=
  let list := if dependencies.isEmpty then "(none)" else ", ".intercalate dependencies
  styled color .bold moduleId ++ ": " ++ list

/-- The line at the end, in green if nothing failed. -/
def summaryLine (color : Bool) (finished failed : Nat) : String :=
  styled color (if failed = 0 then .green else .red)
    (toString finished ++ " module(s) rewritten, " ++ toString failed ++ " failed")

/-! ## Errors that end a run -/

/-- A text in which every line but the first is indented. -/
def hang (indent text : String) : String := ("\n" ++ indent).intercalate (text.splitOn "\n")

/-- A number in five columns. -/
def column (number : Nat) : String :=
  let digits := toString number
  String.ofList (List.replicate (5 - digits.length) ' ') ++ digits

/-- The lines of causes: a single one is only indented, several are counted. -/
def causeLines : List String → List String
  | [cause] => ["    " ++ hang "    " cause]
  | causes => causes.zipIdx.map fun (cause, number) =>
    column number ++ ": " ++ hang "       " cause

/-- The text of an error that ends a run. -/
def fatal (messages : List String) : String :=
  match messages with
  | [] => "Error: "
  | [message] => "Error: " ++ message
  | message :: causes =>
    "Error: " ++ message ++ "\n\nCaused by:\n" ++ "\n".intercalate (causeLines causes)

end Report

end DefineWrap
