import ProtoLink.Batch.Listing
import ProtoLink.Batch.Opening
import ProtoLink.CommandLine.Run
import ProtoLink.Descriptor.Build
import ProtoLink.Diagnostic.Rendering
import ProtoLink.Main
import ProtoLink.Settings.Parameter
import ProtoLink.TypeScript.Node
import ProtoLink.Proofs.Declaration
import ProtoLink.Proofs.Datum.RoundTrip
import ProtoLink.Proofs.Pruning
import ProtoLink.Proofs.Descriptor.RoundTrip
import ProtoLink.Proofs.Loading
import ProtoLink.Proofs.Lookup
import ProtoLink.Proofs.Reference
import ProtoLink.Proofs.Shortening
import ProtoLink.Proofs.Json.Grammar
import ProtoLink.Proofs.Json.Quoted
import ProtoLink.Proofs.Json.Skip
import ProtoLink.Proofs.Datum.Description
import ProtoLink.Proofs.Datum.Step
import ProtoLink.Proofs.Datum.Reading
import ProtoLink.Proofs.Datum.Conformance
import ProtoLink.Proofs.Descriptor.Acceptance
import ProtoLink.Proofs.Datum.Printing
import ProtoLink.Proofs.Datum.Rewriting
import ProtoLink.Proofs.Redeclaration
import ProtoLink.Proofs.Arrangement
import ProtoLink.Proofs.Imports
import ProtoLink.Proofs.Persistence
import ProtoLink.Proofs.PlainName
import ProtoLink.Proofs.Consistency
import ProtoLink.Proofs.CommandLine.Flag
import ProtoLink.Proofs.Replacement
import ProtoLink.Proofs.CommandLine.Verdict
import ProtoLink.Proofs.Log
import ProtoLink.Proofs.Text.Span
import ProtoLink.Proofs.Settings.Entry
import ProtoLink.Proofs.Settings.Reading
import ProtoLink.Proofs.Settings.Finding
import ProtoLink.Proofs.Settings.Skipping
import ProtoLink.Proofs.LeadingPackage
import ProtoLink.Proofs.Repetition
import ProtoLink.Proofs.Spelling
import ProtoLink.Proofs.CommandLine.Position
import ProtoLink.Proofs.Decoration
import ProtoLink.Proofs.Escalation
import ProtoLink.Proofs.Drawing
import ProtoLink.Proofs.CommandLine.RoundTrip
import ProtoLink.Proofs.Nesting
import ProtoLink.Proofs.Descriptor.Depth
import ProtoLink.Proofs.DotRun
