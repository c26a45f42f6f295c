import FuzzHarness.Boot
import FuzzHarness.Bytes
import FuzzHarness.CoverageMap.AddressSpace
import FuzzHarness.CoverageMap.Backend
import FuzzHarness.CoverageMap.Memory
import FuzzHarness.CoverageMap.Placeholder
import FuzzHarness.CoverageMap.Strategy
import FuzzHarness.Engine
import FuzzHarness.Event
import FuzzHarness.Handshake
import FuzzHarness.HarnessError
import FuzzHarness.Input
import FuzzHarness.Kernel.Descriptor
import FuzzHarness.Kernel.Environment
import FuzzHarness.Kernel.Errno
import FuzzHarness.Kernel.FileTree
import FuzzHarness.Kernel.IoError
import FuzzHarness.Kernel.Path
import FuzzHarness.Launch
import FuzzHarness.Log.Filter
import FuzzHarness.Log.Notice
import FuzzHarness.Log.Pattern
import FuzzHarness.Log.Pattern.Admission
import FuzzHarness.Log.Pattern.Beginning
import FuzzHarness.Log.Pattern.Bracket
import FuzzHarness.Log.Pattern.CharSet
import FuzzHarness.Log.Pattern.Cursor
import FuzzHarness.Log.Pattern.Escape
import FuzzHarness.Log.Pattern.Fault
import FuzzHarness.Log.Pattern.Meaning
import FuzzHarness.Log.Pattern.Normal
import FuzzHarness.Log.Pattern.Phrase
import FuzzHarness.Log.Pattern.Reader
import FuzzHarness.Log.Pattern.Layout
import FuzzHarness.Log.Pattern.Plan
import FuzzHarness.Loop
import FuzzHarness.Main
import FuzzHarness.Mode
import FuzzHarness.Redirection
import FuzzHarness.Run
import FuzzHarness.Scripted.Engine
import FuzzHarness.Scripted.Mapper
import FuzzHarness.Scripted.Stream
import FuzzHarness.Scripted.Target
import FuzzHarness.Session
import FuzzHarness.Settings
import FuzzHarness.Target
import FuzzHarness.Text.Alphabetic
import FuzzHarness.Text.Blank
import FuzzHarness.Text.Lossy
import FuzzHarness.Text.Numeral
import FuzzHarness.World
import FuzzHarness.Proofs.CoverageMap.AddressSpace
import FuzzHarness.Proofs.CoverageMap.Memory
import FuzzHarness.Proofs.Invoker
import FuzzHarness.Proofs.Kernel.Content
import FuzzHarness.Proofs.Kernel.Paths
import FuzzHarness.Proofs.Kernel.Reading
import FuzzHarness.Proofs.Kernel.Sealing
import FuzzHarness.Proofs.Redirection
import FuzzHarness.Proofs.Redirection.Steps
import FuzzHarness.Proofs.Settings
import FuzzHarness.Proofs.Run.Batch
import FuzzHarness.Proofs.Run.Course
import FuzzHarness.Proofs.Run.Delivery
import FuzzHarness.Proofs.Run.Diagnostics
import FuzzHarness.Proofs.Run.Failure
import FuzzHarness.Proofs.Run.HandshakeOrder
import FuzzHarness.Proofs.Run.Independence
import FuzzHarness.Proofs.Run.Isolation
import FuzzHarness.Proofs.Run.Moves
import FuzzHarness.Proofs.Run.Rounds
import FuzzHarness.Proofs.Run.Settling
import FuzzHarness.Proofs.Run.Summary
import FuzzHarness.Proofs.Run.Unchanged
import FuzzHarness.Proofs.Run.WarmUp
import FuzzHarness.Proofs.Session.Completion
import FuzzHarness.Proofs.Session.Custody
import FuzzHarness.Proofs.Session.Holdings
import FuzzHarness.Proofs.Session.Laws
import FuzzHarness.Proofs.Session.Permanence
import FuzzHarness.Proofs.Session.Reservations
import FuzzHarness.Proofs.Text.Digits
import FuzzHarness.Proofs.Text.LeadingInteger
import FuzzHarness.Proofs.Trace
import FuzzHarness.Proofs.Mode
import FuzzHarness.Proofs.Kernel.Ends
import FuzzHarness.Proofs.Redirection.Compose
import FuzzHarness.Proofs.Redirection.Tasks
import FuzzHarness.Proofs.Run.Countdown
import FuzzHarness.Proofs.Arguments
import FuzzHarness.Proofs.Input.Buffers
import FuzzHarness.Proofs.Input.Stream
import FuzzHarness.Proofs.Input.Files
import FuzzHarness.Proofs.Kernel.Environment
import FuzzHarness.Proofs.Announcement
import FuzzHarness.Proofs.Session.Announcements
