import HighlightBundle.Activity
import HighlightBundle.Bundle.Basic
import HighlightBundle.Bundle.Dump
import HighlightBundle.Bundle.Resolve
import HighlightBundle.Definitions
import HighlightBundle.Engine.Basic
import HighlightBundle.Engine.Markup
import HighlightBundle.Engine.Rendering
import HighlightBundle.Failure
import HighlightBundle.Files
import HighlightBundle.Highlighter
import HighlightBundle.Json.Brackets
import HighlightBundle.Json.Fault
import HighlightBundle.Json.Fields
import HighlightBundle.Json.Numerals
import HighlightBundle.Json.Printer
import HighlightBundle.Json.Records
import HighlightBundle.Json.Strings
import HighlightBundle.Json.Tree
import HighlightBundle.Json.Untyped
import HighlightBundle.Language
import HighlightBundle.Number.Binary64
import HighlightBundle.Number.Shortest
import HighlightBundle.Path
import HighlightBundle.Proofs.AcceptedDefinitions
import HighlightBundle.Proofs.AssetSequences
import HighlightBundle.Proofs.BundleEdits
import HighlightBundle.Proofs.CallInvariant
import HighlightBundle.Proofs.CallsAlone
import HighlightBundle.Proofs.CanonicalTrees
import HighlightBundle.Proofs.CompletedLoads
import HighlightBundle.Proofs.Completion
import HighlightBundle.Proofs.CreatedHighlighters
import HighlightBundle.Proofs.CreationAccounts
import HighlightBundle.Proofs.DefinitionFields
import HighlightBundle.Proofs.DefinitionFormat
import HighlightBundle.Proofs.DumpRoundTrip
import HighlightBundle.Proofs.EmbeddedClosure
import HighlightBundle.Proofs.EngineContents
import HighlightBundle.Proofs.EscapedCode
import HighlightBundle.Proofs.FirstOfName
import HighlightBundle.Proofs.IdleReferences
import HighlightBundle.Proofs.Jobs
import HighlightBundle.Proofs.Linearization
import HighlightBundle.Proofs.ListingOrder
import HighlightBundle.Proofs.Listings
import HighlightBundle.Proofs.LoadedAssets
import HighlightBundle.Proofs.LoadedRendering
import HighlightBundle.Proofs.LookUp
import HighlightBundle.Proofs.MayFail
import HighlightBundle.Proofs.MissingReferences
import HighlightBundle.Proofs.NumeralValues
import HighlightBundle.Proofs.OpenObjects
import HighlightBundle.Proofs.PassedValues
import HighlightBundle.Proofs.Polls
import HighlightBundle.Proofs.RecordFields
import HighlightBundle.Proofs.ReferenceNames
import HighlightBundle.Proofs.RenderingHistory
import HighlightBundle.Proofs.RequestedAssets
import HighlightBundle.Proofs.ResolvedStrings
import HighlightBundle.Proofs.ReturnedAnswers
import HighlightBundle.Proofs.RoleRendering
import HighlightBundle.Proofs.ShippedBundles
import HighlightBundle.Proofs.ShownTexts
import HighlightBundle.Proofs.SingleCreation
import HighlightBundle.Proofs.SpelledTexts
import HighlightBundle.Proofs.StringReferences
import HighlightBundle.Proofs.TableLookup
import HighlightBundle.Proofs.TokenFormat
import HighlightBundle.Proofs.TokenTiles
import HighlightBundle.Proofs.Transitions
import HighlightBundle.Proofs.TypedReading
import HighlightBundle.Proofs.UnrelatedLanguages
import HighlightBundle.Proofs.WrittenCollections
import HighlightBundle.Proofs.WrittenDefinitions
import HighlightBundle.Proofs.WrittenFiles
import HighlightBundle.Proofs.WrittenNumbers
import HighlightBundle.Proofs.WrittenSpellings
import HighlightBundle.Proofs.WrittenStrings
import HighlightBundle.Proofs.WrittenTrees
import HighlightBundle.Reference
import HighlightBundle.Shared.Basic
import HighlightBundle.Shared.Interleaving
import HighlightBundle.Table
import HighlightBundle.Text.Blank
import HighlightBundle.Text.Hidden
import HighlightBundle.Text.Pieces
import HighlightBundle.Text.Quoted
import HighlightBundle.Text.Symbol
import HighlightBundle.Theme
import HighlightBundle.Token
