import ComponentBuilder.Text.Basic
import ComponentBuilder.Text.Pattern
import ComponentBuilder.Keyed
import ComponentBuilder.Markup.ParseError
import ComponentBuilder.Markup.Scan
import ComponentBuilder.Number.Digits
import ComponentBuilder.Json.Printer
import ComponentBuilder.Json.Reader
import ComponentBuilder.Markup.AttributeList
import ComponentBuilder.Markup.Fragment
import ComponentBuilder.Markup.Module
import ComponentBuilder.Guard.Rule
import ComponentBuilder.Guard.Validator
import ComponentBuilder.Preview.Binding
import ComponentBuilder.Preview.Document
import ComponentBuilder.Preview.Session
import ComponentBuilder.Preview.Call
import ComponentBuilder.Agent.ModelConfig
import ComponentBuilder.Plan
import ComponentBuilder.Request
import ComponentBuilder.Settings
import ComponentBuilder.Markup.Stored
import ComponentBuilder.Markup.Signature
import ComponentBuilder.Json.Display
import ComponentBuilder.Json.Embedded
import ComponentBuilder.Agent.CleanPrompt
import ComponentBuilder.Agent.LoosePlan
import ComponentBuilder.Agent.Template
import ComponentBuilder.Agent.Agents
import ComponentBuilder.Agent.ModelCache
import ComponentBuilder.Assembly
import ComponentBuilder.Identifier
import ComponentBuilder.Log
import ComponentBuilder.History.Timestamp
import ComponentBuilder.History.Record
import ComponentBuilder.History.Snapshot
import ComponentBuilder.History.Store
import ComponentBuilder.History.Call
import ComponentBuilder.Build
import ComponentBuilder.Json.Diagnosis
import ComponentBuilder.Service.Target
import ComponentBuilder.Service.Body
import ComponentBuilder.Service.Resource
import ComponentBuilder.Service.Server
import ComponentBuilder.Proofs.Scan.Advance
import ComponentBuilder.Proofs.Scan.Construct
import ComponentBuilder.Proofs.Scan.Script
import ComponentBuilder.Proofs.Scan.Literals
import ComponentBuilder.Proofs.Scan.Parentheses
import ComponentBuilder.Proofs.Markup.AttributeItem
import ComponentBuilder.Proofs.Markup.Grammar
import ComponentBuilder.Proofs.Markup.Nesting
import ComponentBuilder.Proofs.Markup.Acceptance
import ComponentBuilder.Proofs.Markup.Readable
import ComponentBuilder.Proofs.Markup.AttributeText
import ComponentBuilder.Proofs.Markup.RoundTrip
import ComponentBuilder.Proofs.Markup.Passing
import ComponentBuilder.Proofs.Markup.Envelope
import ComponentBuilder.Proofs.Markup.Wrapping
import ComponentBuilder.Proofs.Markup.ReadTexts
import ComponentBuilder.Proofs.Markup.Tally
import ComponentBuilder.Proofs.Markup.Rewriting
import ComponentBuilder.Proofs.Markup.Spelling
import ComponentBuilder.Proofs.Markup.AttributeOrder
import ComponentBuilder.Proofs.Markup.Alignment
import ComponentBuilder.Proofs.Markup.Structure
import ComponentBuilder.Proofs.Markup.FixedPoint
import ComponentBuilder.Proofs.Guard.Locality
import ComponentBuilder.Proofs.Guard.LocalRules
import ComponentBuilder.Proofs.Markup.Sources
import ComponentBuilder.Proofs.Guard.LocalTree
import ComponentBuilder.Proofs.Markup.Header
import ComponentBuilder.Proofs.Guard.Frame
import ComponentBuilder.Proofs.Guard.Imports
import ComponentBuilder.Proofs.Guard.Canonical
import ComponentBuilder.Proofs.Markup.Openings
import ComponentBuilder.Proofs.Guard.Admission
import ComponentBuilder.Proofs.Guard.HandlerNames
import ComponentBuilder.Proofs.Markup.AttributePieces
import ComponentBuilder.Proofs.Markup.Repetition
import ComponentBuilder.Proofs.Markup.Props
import ComponentBuilder.Proofs.Guard.Handlers
import ComponentBuilder.Proofs.Guard.ImportMatches
import ComponentBuilder.Proofs.Guard.ImportDeclarations
import ComponentBuilder.Proofs.History.Change
import ComponentBuilder.Proofs.History.Ledger
import ComponentBuilder.Proofs.History.Refinement
import ComponentBuilder.Proofs.History.Observation
import ComponentBuilder.Proofs.Build.Part
import ComponentBuilder.Proofs.Build.Outcome
import ComponentBuilder.Proofs.Build.Stored
import ComponentBuilder.Proofs.History.Restart
import ComponentBuilder.Proofs.Preview.Cutting
import ComponentBuilder.Proofs.Preview.Inert
import ComponentBuilder.Proofs.Preview.Embedding
import ComponentBuilder.Proofs.History.Failure
import ComponentBuilder.Proofs.History.Closing
import ComponentBuilder.Proofs.Number.Order
import ComponentBuilder.Proofs.Preview.Lifecycle
import ComponentBuilder.Proofs.Text.Replacing
import ComponentBuilder.Proofs.Number.Scaling
import ComponentBuilder.Proofs.Agent.Retries
import ComponentBuilder.Proofs.Preview.Scope
import ComponentBuilder.Proofs.Preview.Orphans
import ComponentBuilder.Proofs.Agent.Phrases
import ComponentBuilder.Proofs.Agent.Spacing
import ComponentBuilder.Proofs.Agent.Cleaning
import ComponentBuilder.Proofs.Agent.TemplateCode
import ComponentBuilder.Proofs.Preview.Bindings
import ComponentBuilder.Proofs.Preview.Comments
import ComponentBuilder.Proofs.Preview.Clauses
import ComponentBuilder.Proofs.Preview.ImportedNames
import ComponentBuilder.Proofs.Text.Rewriting
import ComponentBuilder.Proofs.Preview.Stripping
import ComponentBuilder.Proofs.Identifier.Rising
import ComponentBuilder.Proofs.Number.Notation
import ComponentBuilder.Proofs.Number.Shortest
import ComponentBuilder.Proofs.Agent.ModelReuse
import ComponentBuilder.Proofs.Agent.LoosePlans
import ComponentBuilder.Proofs.Json.Nesting
import ComponentBuilder.Proofs.Json.Wrapping
import ComponentBuilder.Proofs.Scan.Search
import ComponentBuilder.Proofs.Scan.Bounds
import ComponentBuilder.Proofs.Guard.Walk
import ComponentBuilder.Proofs.Preview.Prelude
