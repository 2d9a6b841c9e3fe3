import ClassUpgrade.Main
import ClassUpgrade.Proofs.Component.Import
import ClassUpgrade.Proofs.Component.Splice
import ClassUpgrade.Proofs.Document.Prologue
import ClassUpgrade.Proofs.Migration.Effects
import ClassUpgrade.Report.Progress
import ClassUpgrade.Migration.Group
import ClassUpgrade.Proofs.Files.Agreement
import ClassUpgrade.Proofs.Migration.Isolation
import ClassUpgrade.Proofs.Migration.Account
import ClassUpgrade.Proofs.Migration.Schedule
import ClassUpgrade.Proofs.Migration.Passage
import ClassUpgrade.Proofs.Migration.Interleaving
import ClassUpgrade.Proofs.Migration.Rehearsal
import ClassUpgrade.Proofs.Report.Label
import ClassUpgrade.Proofs.Report.Tally
import ClassUpgrade.Proofs.Source.Balance
import ClassUpgrade.Proofs.Source.Within
import ClassUpgrade.Proofs.Source.Method
import ClassUpgrade.Proofs.Component.Extract
import ClassUpgrade.Proofs.Component.Method
import ClassUpgrade.Proofs.Component.Symbol
import ClassUpgrade.Proofs.Component.Clean
import ClassUpgrade.Proofs.Component.ClassName
import ClassUpgrade.Proofs.Component.Settled
import ClassUpgrade.Proofs.Component.Call
import ClassUpgrade.Proofs.Component.TypeName
import ClassUpgrade.Proofs.Component.Capture
import ClassUpgrade.Proofs.Document.Imports
import ClassUpgrade.Proofs.Source.Respelling.Text
import ClassUpgrade.Proofs.Source.Respelling.Literal
import ClassUpgrade.Proofs.Source.Respelling.Bracket
import ClassUpgrade.Proofs.Source.Respelling.Header
import ClassUpgrade.Proofs.Source.Respelling.Method
import ClassUpgrade.Proofs.Component.Respelling.Rule
import ClassUpgrade.Proofs.Component.Respelling.Constructor
import ClassUpgrade.Proofs.Component.Agreement
import ClassUpgrade.Proofs.Component.Region
import ClassUpgrade.Proofs.Text.Glyph
import ClassUpgrade.Proofs.Text.LetterCase
import ClassUpgrade.Proofs.Component.Identifier
import ClassUpgrade.Proofs.Source.LineEnd
import ClassUpgrade.Proofs.Component.Dollar
import ClassUpgrade.Proofs.Files.Path
import ClassUpgrade.Proofs.Files.Selection
import ClassUpgrade.Proofs.Glob.Parser
import ClassUpgrade.Proofs.Files.Base
import ClassUpgrade.Proofs.Document.Opening
import ClassUpgrade.Proofs.Glob.Matcher
import ClassUpgrade.Proofs.Glob.Token
import ClassUpgrade.Proofs.Glob.Wildcard
import ClassUpgrade.Proofs.Settings.Layer
import ClassUpgrade.Proofs.Files.Exclusion
import ClassUpgrade.Proofs.Source.Header
import ClassUpgrade.Proofs.Source.Expression
import ClassUpgrade.Proofs.Component.Progress
