import GcodeSender.Program
import GcodeSender.Toolpath.Preparation
import GcodeSender.Link.Stream
import GcodeSender.Session.Feeds
import GcodeSender.Proofs.Queue.History
import GcodeSender.Proofs.Program.ProgramEnd
import GcodeSender.Proofs.Decimal.ReadBack
import GcodeSender.Proofs.Gcode.Words
import GcodeSender.Proofs.Toolpath.PrintedPath
import GcodeSender.Proofs.Queue.Holding
import GcodeSender.Proofs.Session.Effects
import GcodeSender.Proofs.Session.Holding
import GcodeSender.Proofs.Session.Requests
import GcodeSender.Proofs.Session.Interleaving
import GcodeSender.Proofs.Decimal.Integers
import GcodeSender.Proofs.Queue.Exchange
import GcodeSender.Proofs.Program.Speeds
import GcodeSender.Proofs.Toolpath.Reload
import GcodeSender.Proofs.Link.Framing
import GcodeSender.Proofs.Link.LongRuns
import GcodeSender.Proofs.ProgramRun.Counting
import GcodeSender.Proofs.Session.Changes
import GcodeSender.Proofs.Session.ProgramCounts
import GcodeSender.Proofs.Session.ProgramStop
import GcodeSender.Proofs.Program.Parts
import GcodeSender.Proofs.Program.RefusedLines
import GcodeSender.Proofs.Gcode.WordOrder
import GcodeSender.Proofs.Gcode.Grammar
import GcodeSender.Proofs.Broadcast.Isolation
import GcodeSender.Proofs.Controller.CommandBytes
import GcodeSender.Proofs.Controller.Settings
import GcodeSender.Proofs.Session.Writes
import GcodeSender.Proofs.Session.Percentages
import GcodeSender.Proofs.Session.LinkEvents
import GcodeSender.Proofs.Session.MachineStates
import GcodeSender.Proofs.Program.Contributions
import GcodeSender.Proofs.Program.Offsets
import GcodeSender.Proofs.Gcode.AxisClaims
import GcodeSender.Proofs.Toolpath.IdleRapids
import GcodeSender.Proofs.Toolpath.ArcChords
import GcodeSender.Proofs.Toolpath.TurnedAxes
import GcodeSender.Proofs.Program.UnitSwitch
import GcodeSender.Proofs.Toolpath.RereadArcs
import GcodeSender.Proofs.Gcode.Respelling
import GcodeSender.Proofs.Gcode.FirstFault
import GcodeSender.Proofs.Controller.StatusFields
import GcodeSender.Proofs.Queue.ReceivedLines
import GcodeSender.Proofs.Queue.Batches
import GcodeSender.Proofs.Queue.Books
import GcodeSender.Proofs.ProgramRun.Tracking
import GcodeSender.Proofs.Decimal.SignedZeros
