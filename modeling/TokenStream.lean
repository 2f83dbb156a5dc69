import TokenStream.Text.Quoted
import TokenStream.Text.Blank
import TokenStream.Text.DecimalDigit
import TokenStream.Text.Integer
import TokenStream.Token.Basic
import TokenStream.Scan.LineEnding
import TokenStream.Scan.Rule
import TokenStream.Scan.Piece
import TokenStream.Decimal.Layout
import TokenStream.Decimal.Numeral
import TokenStream.Value.Basic
import TokenStream.Json.Lexeme
import TokenStream.Json.Read
import TokenStream.Json.Write
import TokenStream.Token.Record
import TokenStream.Scanner.Basic
import TokenStream.Session.Run
import TokenStream.Decimal.Read
import TokenStream.Proofs.Places
import TokenStream.Proofs.Forms
import TokenStream.Proofs.LineBreaks
import TokenStream.Proofs.Draining
import TokenStream.Proofs.Spans
import TokenStream.Proofs.Strictness
import TokenStream.Proofs.Tiling
import TokenStream.Proofs.Escapes
import TokenStream.Proofs.Synchronisation
import TokenStream.Proofs.Pulling
import TokenStream.Proofs.Effects
import TokenStream.Proofs.Sharing
import TokenStream.Proofs.SharedPass
import TokenStream.Proofs.Standalone
import TokenStream.Proofs.Priorities
import TokenStream.Proofs.UnifiedText
import TokenStream.Proofs.LineStyles
import TokenStream.Proofs.WrittenIntegers
import TokenStream.Proofs.WrittenTexts
import TokenStream.Proofs.WrittenValues
import TokenStream.Proofs.RoundTrip
import TokenStream.Proofs.Locality
import TokenStream.Proofs.CanonicalForm
import TokenStream.Proofs.Changes
import TokenStream.Proofs.SessionParts
import TokenStream.Proofs.ThreadIsolation
import TokenStream.Proofs.Deeds
import TokenStream.Proofs.AlikeSessions
import TokenStream.Proofs.CapturedSettings
import TokenStream.Proofs.RestoredSettings
import TokenStream.Proofs.TextEnds
import TokenStream.Proofs.OrderedChoice
import TokenStream.Proofs.EndsOfLine
import TokenStream.Proofs.StringPatterns
import TokenStream.Proofs.Continuations
import TokenStream.Proofs.MaximalMunch
import TokenStream.Proofs.IrregularQuotes
import TokenStream.Proofs.WordSplits
import TokenStream.Proofs.Documents
import TokenStream.Proofs.ReadDocuments
import TokenStream.Proofs.TokenObjects
import TokenStream.Proofs.FaultClasses
import TokenStream.Proofs.ErrorPlaces
import TokenStream.Proofs.Descriptions
