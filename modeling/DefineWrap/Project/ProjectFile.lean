/-
Project files: settings that a project has for every run.
-/
import DefineWrap.Json.Record

set_option autoImplicit false

namespace DefineWrap

/-- The settings of a project. One that is missing has no value here. -/
structure ProjectFile where
  defineCallee : Option String
  nameModules : Option Bool
  rootDir : Option String
  outDir : Option String
  /-- Patterns for the files that are taken from directories. -/
  includePatterns : Option (List String)
  pretty : Option Bool
  deriving DecidableEq, Repr

namespace ProjectFile

/-- A project without settings. -/
def empty : ProjectFile := ⟨none, none, none, none, none, none⟩

/-- A field that may also be null. -/
def optionalField {α : Type} (name : String) (reader : Nat → Reader α)
    (put : ProjectFile → Option α → ProjectFile) : RecordField ProjectFile :=
  ⟨name, fun depth before tokens => do
    let (value, rest) ← Reader.optional (reader depth) tokens
    return (put before value, rest)⟩

/-- The fields of a project file, in their order. -/
def fields : List (RecordField ProjectFile) := [
  optionalField "defineCallee" (fun _ => Reader.string) ({ · with defineCallee := · }),
  optionalField "nameModules" (fun _ => Reader.bool) ({ · with nameModules := · }),
  optionalField "rootDir" (fun _ => Reader.string) ({ · with rootDir := · }),
  optionalField "outDir" (fun _ => Reader.string) ({ · with outDir := · }),
  optionalField "include" (fun depth => Reader.list depth fun _ => Reader.string)
    ({ · with includePatterns := · }),
  optionalField "pretty" (fun _ => Reader.bool) ({ · with pretty := · })]

/-- The project file that a text is written for. -/
def parse (text : String) : Except Fault ProjectFile :=
  Reader.run (Reader.record Reader.maxDepth fields empty) text

/-- The message of a text that is no project file. -/
def parseMessage : String := "failed to parse udep.json"

end ProjectFile

end DefineWrap
