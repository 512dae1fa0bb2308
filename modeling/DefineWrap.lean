import DefineWrap.Estree.Build
import DefineWrap.Estree.Children
import DefineWrap.Estree.Field
import DefineWrap.Estree.Form
import DefineWrap.Estree.Kind
import DefineWrap.Estree.Node
import DefineWrap.Estree.Pattern
import DefineWrap.Estree.Record
import DefineWrap.Estree.Text
import DefineWrap.Estree.Walk
import DefineWrap.Json.Basic
import DefineWrap.Json.Binary
import DefineWrap.Json.Fault
import DefineWrap.Json.Number
import DefineWrap.Json.Printer
import DefineWrap.Json.Quoted
import DefineWrap.Json.Reader
import DefineWrap.Json.Record
import DefineWrap.Json.Shortest
import DefineWrap.Json.Token
import DefineWrap.Main
import DefineWrap.Project.CommandLine
import DefineWrap.Project.Discovery
import DefineWrap.Project.FileSystem
import DefineWrap.Project.Glob.Bytes
import DefineWrap.Project.Glob.Expression
import DefineWrap.Project.Glob.Lookup
import DefineWrap.Project.Glob.Match
import DefineWrap.Project.Glob.Nesting
import DefineWrap.Project.Glob.Pattern
import DefineWrap.Project.Invocation
import DefineWrap.Project.LogFormat
import DefineWrap.Project.ModuleFile
import DefineWrap.Project.Path
import DefineWrap.Project.ProjectFile
import DefineWrap.Project.Report
import DefineWrap.Project.Run
import DefineWrap.Project.Settings
import DefineWrap.Text.Alphabetic
import DefineWrap.Text.Blank
import DefineWrap.Text.Numeric
import DefineWrap.Text.Ranges
import DefineWrap.Wrap.Access
import DefineWrap.Wrap.Dependencies
import DefineWrap.Wrap.Error
import DefineWrap.Wrap.Module
import DefineWrap.Wrap.Pass
import DefineWrap.Wrap.Placement
import DefineWrap.Wrap.Scope
import DefineWrap.Wrap.Wrapper
import DefineWrap.Proofs.Except
import DefineWrap.Proofs.Text.Ranges
import DefineWrap.Proofs.Text.Identifier
import DefineWrap.Proofs.Json.Spelling
import DefineWrap.Proofs.Json.Grammar
import DefineWrap.Proofs.Json.Printing
import DefineWrap.Proofs.Json.Nesting
import DefineWrap.Proofs.Json.ReadingBack
import DefineWrap.Proofs.Json.Settling
import DefineWrap.Proofs.Estree.Building
import DefineWrap.Proofs.Estree.Fields
import DefineWrap.Proofs.Estree.Codec
import DefineWrap.Proofs.Estree.RoundTrip
import DefineWrap.Proofs.Estree.Reading
import DefineWrap.Proofs.Estree.Rearranging
import DefineWrap.Proofs.Estree.Refill
import DefineWrap.Proofs.Estree.Lens
import DefineWrap.Proofs.Estree.Survey
import DefineWrap.Proofs.Wrap.Applying
import DefineWrap.Proofs.Wrap.Rewrite
import DefineWrap.Proofs.Wrap.Binding
import DefineWrap.Proofs.Wrap.Imports
import DefineWrap.Proofs.Wrap.Effects
import DefineWrap.Proofs.Wrap.Slots
import DefineWrap.Proofs.Wrap.Stability
import DefineWrap.Proofs.Wrap.Parameters
import DefineWrap.Proofs.Wrap.Conservation
import DefineWrap.Proofs.Wrap.Occurrences
import DefineWrap.Proofs.Wrap.Imported
import DefineWrap.Proofs.Wrap.Redeclaration
import DefineWrap.Proofs.Wrap.Mentions
import DefineWrap.Proofs.Wrap.Writes
import DefineWrap.Proofs.Wrap.Assigned
import DefineWrap.Proofs.Wrap.Locals
import DefineWrap.Proofs.Wrap.Exports
import DefineWrap.Proofs.Wrap.ModuleForms
import DefineWrap.Proofs.Wrap.Survivors
import DefineWrap.Proofs.Wrap.Commuting
import DefineWrap.Proofs.Wrap.Segments
import DefineWrap.Proofs.Wrap.Violations
import DefineWrap.Proofs.Wrap.Rebinding
import DefineWrap.Proofs.Wrap.Hoisting
import DefineWrap.Proofs.Wrap.Causes
import DefineWrap.Proofs.Wrap.Distinct
import DefineWrap.Proofs.Wrap.Identifiers
import DefineWrap.Proofs.Wrap.Exchange
import DefineWrap.Proofs.Wrap.Reexports
import DefineWrap.Proofs.Wrap.Capture
import DefineWrap.Proofs.Wrap.Hygiene
import DefineWrap.Proofs.Wrap.Succession
import DefineWrap.Proofs.Wrap.FreeUses
import DefineWrap.Proofs.Wrap.Scopes
import DefineWrap.Proofs.Wrap.StrictWrites
import DefineWrap.Proofs.Wrap.Reached
import DefineWrap.Proofs.Wrap.Renaming
import DefineWrap.Proofs.Wrap.Shorthand
import DefineWrap.Proofs.Wrap.ExportedFunction
import DefineWrap.Proofs.Project.Paths
import DefineWrap.Proofs.Project.Following
import DefineWrap.Proofs.Project.Actions
import DefineWrap.Proofs.Project.Making
import DefineWrap.Proofs.Project.Taken
import DefineWrap.Proofs.Project.Modules
import DefineWrap.Proofs.Project.Turns
import DefineWrap.Proofs.Wrap.History
import DefineWrap.Proofs.Wrap.Walking
import DefineWrap.Proofs.Project.Components
import DefineWrap.Proofs.Project.Containment
import DefineWrap.Proofs.Project.Evolution
import DefineWrap.Proofs.Project.Listing
import DefineWrap.Proofs.Project.Naming
import DefineWrap.Proofs.Project.Plain
import DefineWrap.Proofs.Project.Rediscovery
import DefineWrap.Proofs.Project.Rerun
