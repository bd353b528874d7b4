import Gosmith.Workspace.Basic
import Gosmith.Value.Digits
import Gosmith.Proofs.FreshName
import Gosmith.Proofs.Lexeme.Number
import Gosmith.Proofs.Lexeme.Basic
import Gosmith.Proofs.Lexeme.Token
import Gosmith.Proofs.Imports.Registration
import Gosmith.Proofs.Imports.Sound
import Gosmith.Proofs.Imports.Pool
import Gosmith.Proofs.Grammar.Body
import Gosmith.Proofs.Grammar.File
import Gosmith.Proofs.Template.Keeps
import Gosmith.Proofs.Template.Parsing
import Gosmith.Proofs.Template.Rendering
import Gosmith.Proofs.Template.Requests
import Gosmith.Proofs.Generator.Merging
import Gosmith.Proofs.Generator.Renaming
import Gosmith.Proofs.Generator.References
import Gosmith.Proofs.Lexeme.Fusion
import Gosmith.Proofs.Layout.Placement
import Gosmith.Proofs.Layout.Printed
import Gosmith.Proofs.Layout.Rereading
import Gosmith.Proofs.Lexeme.Trivia
import Gosmith.Proofs.Lexeme.Respelling
import Gosmith.Proofs.Generator.History
import Gosmith.Proofs.Generator.Printing
import Gosmith.Proofs.Imports.Permanence
import Gosmith.Proofs.Generator.Failures
import Gosmith.Proofs.Layout.Reading
import Gosmith.Proofs.Layout.ImportBlock
import Gosmith.Proofs.Imports.RoundTrip
import Gosmith.Proofs.Grammar.Enclosure
import Gosmith.Proofs.Grammar.Likeness
import Gosmith.Proofs.Grammar.Partner
import Gosmith.Proofs.Layout.Semicolons
import Gosmith.Proofs.Layout.Spacing
import Gosmith.Proofs.Layout.Idempotence
import Gosmith.Proofs.Text.Lines
import Gosmith.Proofs.Lexeme.Position
import Gosmith.Proofs.Grammar.Faults
import Gosmith.Proofs.Generator.Excerpt
import Gosmith.Proofs.Layout.Tidiness
import Gosmith.Proofs.Layout.FileText
import Gosmith.Proofs.Generator.PackageName
import Gosmith.Proofs.Generator.CanonicalFile
import Gosmith.Proofs.Workspace.Usable
import Gosmith.Proofs.Lexeme.LineEnd
import Gosmith.Proofs.Lexeme.Place
import Gosmith.Proofs.Layout.Boundaries
import Gosmith.Proofs.Generator.Ambiguity
import Gosmith.Proofs.Layout.Indentation
import Gosmith.Proofs.Layout.SpaceChoice
import Gosmith.Proofs.Generator.Arrangement
import Gosmith.Proofs.Schema.StructText
import Gosmith.Proofs.Schema.Reference
import Gosmith.Proofs.Schema.Spellings
import Gosmith.Proofs.Schema.TypeName
import Gosmith.Proofs.Settings.Json
import Gosmith.Proofs.Workspace.Saving
import Gosmith.Proofs.Grammar.Pieces
