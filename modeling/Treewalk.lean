import Treewalk.Command
import Treewalk.Fault
import Treewalk.Frame
import Treewalk.Machine.Basic
import Treewalk.Machine.Eval
import Treewalk.Machine.Operator
import Treewalk.Main
import Treewalk.Numeral.Binary
import Treewalk.Numeral.Layout
import Treewalk.Numeral.Shortest
import Treewalk.Proofs.Ambiguity
import Treewalk.Proofs.AppendedPrograms
import Treewalk.Proofs.BareExpressions
import Treewalk.Proofs.BoundNames
import Treewalk.Proofs.CallDepth
import Treewalk.Proofs.Cells
import Treewalk.Proofs.CountingLoops
import Treewalk.Proofs.Cursor
import Treewalk.Proofs.CursorPrograms
import Treewalk.Proofs.CursorReadings
import Treewalk.Proofs.CursorStatements
import Treewalk.Proofs.CursorSteps
import Treewalk.Proofs.DanglingElse
import Treewalk.Proofs.DepthLimit
import Treewalk.Proofs.Diagnostics
import Treewalk.Proofs.DistinctLabels
import Treewalk.Proofs.Divisions
import Treewalk.Proofs.Drawing
import Treewalk.Proofs.DrawnReadings
import Treewalk.Proofs.DrawnStatements
import Treewalk.Proofs.ErrorState
import Treewalk.Proofs.EveryRun
import Treewalk.Proofs.ExprParsing
import Treewalk.Proofs.Forests
import Treewalk.Proofs.Forms
import Treewalk.Proofs.FrameChains
import Treewalk.Proofs.FrameChanges
import Treewalk.Proofs.Frames
import Treewalk.Proofs.FullSinks
import Treewalk.Proofs.Grammar
import Treewalk.Proofs.Guarded
import Treewalk.Proofs.GuardedRuns
import Treewalk.Proofs.HeldValues
import Treewalk.Proofs.History
import Treewalk.Proofs.JoinedPrograms
import Treewalk.Proofs.JoinedText
import Treewalk.Proofs.JoinedTokens
import Treewalk.Proofs.LastWrites
import Treewalk.Proofs.LegibleTrees
import Treewalk.Proofs.Lexemes
import Treewalk.Proofs.Lexical
import Treewalk.Proofs.LexicalDistances
import Treewalk.Proofs.LexicalScoping
import Treewalk.Proofs.Lockstep
import Treewalk.Proofs.LoopFree
import Treewalk.Proofs.Manners
import Treewalk.Proofs.Mentions
import Treewalk.Proofs.Misuses
import Treewalk.Proofs.Moving
import Treewalk.Proofs.Numbering
import Treewalk.Proofs.NumeralTexts
import Treewalk.Proofs.Operators
import Treewalk.Proofs.Outruns
import Treewalk.Proofs.OwnWrites
import Treewalk.Proofs.PairedCode
import Treewalk.Proofs.PairedRuns
import Treewalk.Proofs.Parsing
import Treewalk.Proofs.Placement
import Treewalk.Proofs.ProperRuns
import Treewalk.Proofs.ProperTrees
import Treewalk.Proofs.Readings
import Treewalk.Proofs.Recovery
import Treewalk.Proofs.RejectedSteps
import Treewalk.Proofs.ReliableSinks
import Treewalk.Proofs.Remembering
import Treewalk.Proofs.RenderedTrees
import Treewalk.Proofs.RenumberedSessions
import Treewalk.Proofs.Renumbering
import Treewalk.Proofs.Restoring
import Treewalk.Proofs.Returning
import Treewalk.Proofs.RunningCode
import Treewalk.Proofs.RunningInPieces
import Treewalk.Proofs.ScannedLines
import Treewalk.Proofs.Sessions
import Treewalk.Proofs.Settling
import Treewalk.Proofs.ShownTrees
import Treewalk.Proofs.Simulation
import Treewalk.Proofs.SourcedReadings
import Treewalk.Proofs.SourcedRuns
import Treewalk.Proofs.SourcedTrees
import Treewalk.Proofs.SpacedTokens
import Treewalk.Proofs.StmtParsing
import Treewalk.Proofs.TotalReading
import Treewalk.Proofs.Trace
import Treewalk.Scope
import Treewalk.Session
import Treewalk.Sink
import Treewalk.Text.Attached
import Treewalk.Text.Blank
import Treewalk.Text.Lines
import Treewalk.Text.Quoted
import Treewalk.Text.Unprintable
import Treewalk.Text.Utf8
import Treewalk.Token.Basic
import Treewalk.Token.Piece
import Treewalk.Token.Scan
import Treewalk.Tree.Basic
import Treewalk.Tree.Expression
import Treewalk.Tree.Program
import Treewalk.Tree.Render
import Treewalk.Tree.Reply
import Treewalk.Tree.Statement
import Treewalk.Value.Basic
import Treewalk.Value.Datum
