import CommandShell.Line.Quoting
import CommandShell.Main
import CommandShell.Proofs.Display
import CommandShell.Proofs.History.InTurn
import CommandShell.Proofs.History.Separation
import CommandShell.Proofs.Line.Blanks
import CommandShell.Proofs.Line.Escaped
import CommandShell.Proofs.Line.Extent
import CommandShell.Proofs.Line.Settled
import CommandShell.Proofs.Line.Written
import CommandShell.Proofs.Pipeline.Holders
import CommandShell.Proofs.Program.Search
import CommandShell.Proofs.Resolution
import CommandShell.Proofs.Session.CompletedName
import CommandShell.Proofs.Session.Evolution
import CommandShell.Proofs.Session.GivenLine
import CommandShell.Proofs.Session.HomeDirectory
import CommandShell.Proofs.Session.Interruption
import CommandShell.Proofs.Session.SavedFile
import CommandShell.Proofs.Stage.Aborting
import CommandShell.Proofs.Stage.Telling
import CommandShell.Proofs.Completion.Law
import CommandShell.Proofs.Editor.Strokes
import CommandShell.Proofs.Editor.Tabs
import CommandShell.Proofs.Editor.HistoryWalk
import CommandShell.Proofs.Editor.Echo
