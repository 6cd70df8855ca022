import NodeFamily.Generation
import NodeFamily.Difference.Report
import NodeFamily.SchemaFile.Content
import NodeFamily.FileTree
import NodeFamily.Text.EditDistance
import NodeFamily.SchemaDump
import NodeFamily.CommandLine.Flag
import NodeFamily.CommandLine.Command
import NodeFamily.CommandLine.Run
import NodeFamily.Main
import NodeFamily.Proofs.Characters
import NodeFamily.Proofs.Pieces
import NodeFamily.Proofs.Lexing
import NodeFamily.Proofs.Legality
import NodeFamily.Proofs.Segments
import NodeFamily.Proofs.DeclarationGrammar
import NodeFamily.Proofs.Printing
import NodeFamily.Proofs.DeclaredNames
import NodeFamily.Proofs.NameCapture
import NodeFamily.Proofs.FaultPlaces
import NodeFamily.Proofs.Layout.Quoting
import NodeFamily.Proofs.Layout.Scanning
import NodeFamily.Proofs.Layout.Reads
import NodeFamily.Proofs.Layout.TypeReading
import NodeFamily.Proofs.Layout.ExprReading
import NodeFamily.Proofs.Layout.DeclReading
import NodeFamily.Proofs.Emission.Lines
import NodeFamily.Proofs.Emission.Soundness
import NodeFamily.Proofs.Emission.Syntax
import NodeFamily.Proofs.Acceptance
import NodeFamily.Proofs.TitleCase
import NodeFamily.Proofs.CommandLine.Agreement
import NodeFamily.Proofs.DeclarationOrder
import NodeFamily.Proofs.Emission.Determinacy
import NodeFamily.Proofs.Difference.Report
import NodeFamily.Proofs.CommandLine.LogLines
import NodeFamily.Proofs.ExportedNames
import NodeFamily.Proofs.CommandLine.Diagnoses
import NodeFamily.Proofs.FaultColumns
import NodeFamily.Proofs.FaultOrder
import NodeFamily.Proofs.Emission.ImportSet
import NodeFamily.Proofs.ResultParameter
import NodeFamily.Proofs.TitleCaseFaults
import NodeFamily.Proofs.SchemaFile.LineFilter
import NodeFamily.Proofs.Dump.JsonReading
import NodeFamily.Proofs.Dump.RoundTrip
import NodeFamily.Proofs.CommandLine.PrintedSchema
import NodeFamily.Proofs.ControlCharacters
import NodeFamily.Proofs.CommandLine.DiagnosisLines
import NodeFamily.Proofs.CommandLine.Overrides
import NodeFamily.Proofs.Emission.Header
import NodeFamily.Proofs.LexicalRules
import NodeFamily.Proofs.TokenPlaces
import NodeFamily.Proofs.MalformedSegments
import NodeFamily.Proofs.LeafTypes
