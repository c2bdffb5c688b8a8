import LetLang.Bytewise
import LetLang.Files.Load
import LetLang.Gap.Item
import LetLang.Main
import LetLang.Proofs.EarliestFaults
import LetLang.Proofs.Execution
import LetLang.Proofs.Image
import LetLang.Proofs.Layout
import LetLang.Proofs.Locations
import LetLang.Proofs.Remains
import LetLang.Proofs.Scanning
import LetLang.Session.Command
import LetLang.Statement.Basic
import LetLang.Proofs.ParserStates
import LetLang.Proofs.Succession
import LetLang.Proofs.Comparison
import LetLang.Proofs.Retrying
import LetLang.Proofs.Tracing
import LetLang.Proofs.Encodings
import LetLang.Proofs.Lookahead
import LetLang.Proofs.Progress
import LetLang.Proofs.Truncation
import LetLang.Proofs.Sharing
import LetLang.Proofs.Entries
import LetLang.Proofs.PlainText
import LetLang.Proofs.Writing
import LetLang.Proofs.Requests
import LetLang.Proofs.CommandRuns
import LetLang.Proofs.Renaming
import LetLang.Proofs.Agreement
import LetLang.Proofs.FileEffects
import LetLang.Proofs.Listings
import LetLang.Proofs.AcceptedEncodings
import LetLang.Proofs.Verbosity
import LetLang.Proofs.UnclosedComments
import LetLang.Proofs.SinkContents
import LetLang.Proofs.GapSkipping
