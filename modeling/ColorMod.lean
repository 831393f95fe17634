import ColorMod.Scalar.Binary64
import ColorMod.Text.Words
import ColorMod.Text.Case
import ColorMod.Text.Digit
import ColorMod.Text.Quoted
import ColorMod.Decimal.Numeral
import ColorMod.Decimal.Shortest
import ColorMod.Color.Contrast
import ColorMod.Color.Written
import ColorMod.Color.Checked
import ColorMod.Color.Named
import ColorMod.Node.Writing
import ColorMod.Report
import ColorMod.Grammar
import ColorMod.Resolution
import ColorMod.Walk
import ColorMod.Trace
import ColorMod.Variables
import ColorMod.Json.Reader
import ColorMod.Stylesheet
import ColorMod.Settings.Stored
import ColorMod.Proofs.PolicyWalks
import ColorMod.Proofs.SeedChain
import ColorMod.Proofs.Insertion
import ColorMod.Proofs.TransformFaults
import ColorMod.Proofs.Visits
import ColorMod.Proofs.Idempotence
import ColorMod.Proofs.Inlining
import ColorMod.Proofs.HexRoundTrips
import ColorMod.Proofs.WrittenWords
import ColorMod.Proofs.StoppedWalks
import ColorMod.Proofs.Processing
import ColorMod.Proofs.AlphaRuns
import ColorMod.Proofs.SpacedWalks
import ColorMod.Proofs.SilentReading
import ColorMod.Proofs.SkippedAdjusters
import ColorMod.Proofs.CallSeeds
import ColorMod.Proofs.SettingsCache
import ColorMod.Proofs.ColorFunctions
import ColorMod.Proofs.WrappedHues
import ColorMod.Proofs.EqualColors
import ColorMod.Proofs.HueTurns
import ColorMod.Proofs.ReadableContrast
import ColorMod.Proofs.OppositeAmounts
import ColorMod.Proofs.LoadedSettings
import ColorMod.Proofs.ExpansionSteps
import ColorMod.Proofs.LetterCase
import ColorMod.Proofs.LetterCaseWalks
import ColorMod.Proofs.MonotoneRounding
import ColorMod.Proofs.ContrastPromise
import ColorMod.Proofs.DataDirectory
import ColorMod.Proofs.Suggestions
import ColorMod.Proofs.LoadErrors
import ColorMod.Proofs.KeptDiagnostics
import ColorMod.Proofs.StackWriting
import ColorMod.Proofs.ExactSuggestions
import ColorMod.Proofs.MatchedForms
