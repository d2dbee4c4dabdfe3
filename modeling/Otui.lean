import Otui.Tree
import Otui.Ledger
import Otui.Text.Blank
import Otui.Text.Lines
import Otui.Text.Digit
import Otui.Text.LetterCase
import Otui.Text.Quoted
import Otui.Text.Utf8
import Otui.Number.Decimal
import Otui.Notice
import Otui.Number.Scalar
import Otui.Data.Notation
import Otui.Data.Numbers
import Otui.Widget.Transport
import Otui.Registry.Loading
import Otui.Registry.Packaged
import Otui.Config.Loading
import Otui.Document.Reader
import Otui.Translation
import Otui.Document.GeneratedId
import Otui.Anchor.Inference
import Otui.Layout
import Otui.Template.Expansion
import Otui.Style.Reader
import Otui.Style.Lookup
import Otui.Document.Block
import Otui.Document.Printer
import Otui.Files.Tree
import Otui.Style.Loader
import Otui.Image.Library
import Otui.Color
import Otui.Preview
import Otui.Module.Script
import Otui.Module.Manifest
import Otui.Main
import Otui.Proofs.Trimming
import Otui.Proofs.WrittenLines
import Otui.Proofs.SourceLines
import Otui.Proofs.Recording
import Otui.Proofs.KeptLines
import Otui.Proofs.AlikeForests
import Otui.Proofs.StoredLines
import Otui.Proofs.KnownTypes
import Otui.Proofs.ReadDocuments
import Otui.Proofs.FinishedDocuments
import Otui.Proofs.Scripts
import Otui.Proofs.ReadBack
import Otui.Proofs.SettledBlocks
import Otui.Proofs.Formatting
import Otui.Proofs.FormattedDocuments
import Otui.Proofs.FormattingLines
import Otui.Proofs.PlacedFamilies
import Otui.Proofs.PlacedForests
import Otui.Proofs.FormattingPlaces
import Otui.Proofs.ExactScalar
import Otui.Proofs.WrittenNumbers
import Otui.Proofs.InferredPlaces
import Otui.Proofs.LineNesting
import Otui.Proofs.NestedDocuments
import Otui.Proofs.StoredBlocks
import Otui.Proofs.BuiltDocuments
import Otui.Proofs.ScriptViews
import Otui.Proofs.LookedUpIds
import Otui.Proofs.WiredWidgets
import Otui.Proofs.ExpandedWidgets
import Otui.Proofs.TextLengths
import Otui.Proofs.ExpandedDocuments
import Otui.Proofs.HeldAnchors
import Otui.Proofs.PlacedMembers
import Otui.Proofs.PlacedTrees
import Otui.Proofs.HonouredAnchors
import Otui.Proofs.OrderOfChildren
import Otui.Proofs.InheritedStyles
import Otui.Proofs.TransportedWidgets
import Otui.Proofs.EditedLines
import Otui.Proofs.UnnumberedDocuments
import Otui.Proofs.InheritedEvents
import Otui.Proofs.FirstInstances
import Otui.Proofs.LegibleBlocks
import Otui.Proofs.BroughtTemplates
import Otui.Proofs.KeptProperties
import Otui.Proofs.RediscoveredTemplates
import Otui.Proofs.AppliedTemplates
import Otui.Proofs.OwnWidgets
import Otui.Proofs.MadeDocuments
import Otui.Proofs.AgreeingViews
import Otui.Proofs.ClosedRegistries
import Otui.Proofs.NumberedIds
import Otui.Proofs.BestFits
import Otui.Proofs.BinaryNumbers
import Otui.Proofs.WellFormedPlaces
import Otui.Proofs.ShownTexts
import Otui.Proofs.DefinedTemplates
import Otui.Proofs.PassedOverWidgets
import Otui.Proofs.SaidOnce
import Otui.Proofs.WidgetBlocks
import Otui.Proofs.OwnBlocks
import Otui.Proofs.ResolvedSheets
import Otui.Proofs.JoinedSheets
import Otui.Proofs.LoadedSheets
import Otui.Proofs.ChildBlocks
import Otui.Proofs.LuaLiterals
import Otui.Proofs.LegalScripts
import Otui.Proofs.ScriptTexts
import Otui.Proofs.ScriptFunctions
import Otui.Proofs.BalancedScripts
import Otui.Proofs.BinarySums
import Otui.Proofs.PerformedDrawings
import Otui.Proofs.DrawnForests
import Otui.Proofs.OverflowingPreviews
import Otui.Proofs.CoveredRoots
import Otui.Proofs.MalformedSettings
import Otui.Proofs.MalformedRegistries
import Otui.Proofs.MalformedData
import Otui.Proofs.IndexedImages
import Otui.Proofs.ResolvedImages
