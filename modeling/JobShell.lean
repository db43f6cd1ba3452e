import JobShell.FreshRun
import JobShell.Job.Exercise
import JobShell.Main
import JobShell.Proofs.Containment
import JobShell.Proofs.Job.Delivery
import JobShell.Proofs.Line.Grammar
import JobShell.Rehearsal
import JobShell.Session
import JobShell.Workroom
import JobShell.Proofs.Descriptors
import JobShell.Proofs.Machine.Standing
import JobShell.Proofs.Machine.Turns
import JobShell.Proofs.Launch
import JobShell.Proofs.Machine.Custody
import JobShell.Proofs.Machine.Hosting
import JobShell.Proofs.Pipeline.Stages
import JobShell.Proofs.Pipeline.Spawning
import JobShell.Proofs.Pipeline.Wiring
import JobShell.Proofs.Input.Lines
import JobShell.Proofs.Sequencing
import JobShell.Proofs.Job.Outstanding
import JobShell.Proofs.Session
import JobShell.Proofs.Job.Elementary
import JobShell.Proofs.Job.Notice
import JobShell.Proofs.Input.Limit
import JobShell.Proofs.Pipeline.Release
import JobShell.Proofs.Pipeline.Shortage
import JobShell.Proofs.Running
import JobShell.Proofs.Input.Unbuffered
import JobShell.Proofs.Input.Shared
import JobShell.Proofs.Loop
import JobShell.Proofs.Job.Lives
import JobShell.Proofs.Job.Waiting
import JobShell.Proofs.Pipeline.Frame
import JobShell.Proofs.Pipeline.Forks
import JobShell.Proofs.Pipeline.Completion
import JobShell.Proofs.Rejection
import JobShell.Proofs.Job.Dues
import JobShell.Proofs.Reports
import JobShell.Proofs.Rendering
import JobShell.Proofs.Job.Regularity
import JobShell.Proofs.Twin.Abreast
import JobShell.Proofs.Twin.Tables
import JobShell.Proofs.Twin.Supervision
import JobShell.Proofs.Twin.Pipelines
import JobShell.Proofs.Twin.Recorded
import JobShell.Proofs.OneLine
import JobShell.Proofs.Job.Reckoning
import JobShell.Proofs.Job.Foreground
import JobShell.Proofs.Input.Interruptions
import JobShell.Proofs.Machine.Opening
import JobShell.Proofs.Machine.Alone
import JobShell.Proofs.Diagnostics
import JobShell.Proofs.Redirections
import JobShell.Proofs.Joining
import JobShell.Proofs.Input.Pieces
import JobShell.Proofs.Machine.Deeds
import JobShell.Proofs.Machine.Groups
import JobShell.Proofs.Machine.Story
import JobShell.Proofs.Machine.Testimony
import JobShell.Proofs.Conduct
import JobShell.Proofs.Course
import JobShell.Proofs.Pipeline.Seats
import JobShell.Proofs.Pipeline.Independence
import JobShell.Proofs.NulByte
import JobShell.Proofs.Pipeline.NulBytes
import JobShell.Proofs.Line.Spacing
import JobShell.Proofs.Job.Scopes
import JobShell.Proofs.Machine.Moments
import JobShell.Proofs.Machine.Watching
import JobShell.Proofs.Machine.Contents
import JobShell.Proofs.Machine.Outlets
import JobShell.Proofs.Machine.Forgetting
import JobShell.Proofs.Machine.Succession
import JobShell.Proofs.Machine.Descent
import JobShell.Proofs.Machine.Filling
import JobShell.Proofs.Accumulation
import JobShell.Proofs.Number
import JobShell.Proofs.Arguments
import JobShell.Proofs.Settings
import JobShell.Proofs.Line.Blank
import JobShell.Proofs.Validation
import JobShell.Proofs.Failure
