import Melissa.Base.Arrays
import Melissa.Base.FirstSeen
import Melissa.Base.Runs
import Melissa.Base.Text
import Melissa.Data
import Melissa.Server.Loop
import Melissa.Server.State
import Melissa.Stats.Moments
import Melissa.Stats.OrderStatistics
import Melissa.Stats.Sobol
import Melissa.Server.Spec
import Melissa.Server.Entry
import Melissa.Server.Rounds
import Melissa.Server.Finished
import Melissa.Server.History
import Melissa.Server.Stop
import Melissa.OrderFree
import Melissa.Server.EntryHistory
import Melissa.Server.ExactlyOnce
import Melissa.Api.Plan
import Melissa.Api.Cover
import Melissa.Output.Gather
import Melissa.Output.RoundTrip
import Melissa.Base.Files
import Melissa.Io.Codec
import Melissa.Io.SaveStats
import Melissa.Io.Checkpoint
import Melissa.Io.RoundTrip
import Melissa.Base.CentralMoments
import Melissa.Io.Sized
import Melissa.Output.Resume
import Melissa.Restart.Life
import Melissa.Restart.Replay
import Melissa.Restart.Kept
import Melissa.Restart.NeverLost
import Melissa.Restart.Converged
import Melissa.Restart.Parameters
import Melissa.Restart.Crash
import Melissa.Restart.Ranks
import Melissa.Launcher.Options
import Melissa.Launcher.Groups
import Melissa.Launcher.State
import Melissa.Launcher.Batch
import Melissa.Launcher.Final
import Melissa.Sobol.Group
import Melissa.Sobol.Ports
import Melissa.Sobol.Buffer
import Melissa.Sobol.Roles
import Melissa.Base.Utf8
import Melissa.Messages.Layout
import Melissa.Messages.Bridge
import Melissa.Messages.Control
import Melissa.Server.Accesses
import Melissa.Base.Traced
import Melissa.Restart.FirstConnection
import Melissa.Base.Getopt
import Melissa.CommandLine.Parse
import Melissa.CommandLine.Request
import Melissa.CommandLine.Lists
import Melissa.CommandLine.Words
import Melissa.CommandLine.Sent
import Melissa.CommandLine.Agree
import Melissa.Base.Comoment
import Melissa.Stats.Covariance
import Melissa.Messages.SimuData
import Melissa.Melissa4py.Message
import Melissa.Melissa4py.Connection
import Melissa.Melissa4py.Server
import Melissa.Melissa4py.Records
import Melissa.Melissa4py.Progress
import Melissa.Melissa4py.AllDone
import Melissa.Server.Timeouts
import Melissa.Server.Passes
import Melissa.Server.Silence
import Melissa.Learning.Loop
import Melissa.Learning.Passes
import Melissa.Learning.Samples
import Melissa.Stats.Merge
import Melissa.Stats.MergeVariance
import Melissa.Output.Variances
import Melissa.Stats.Jansen
import Melissa.Stats.Standardised
import Melissa.Stats.Extrema
import Melissa.Stats.QuantileSteps
import Melissa.Bitmap
import Melissa.Ints
import Melissa.Base.NextFree
import Melissa.Server.PortNumber
import Melissa.Sobol.PortRange
import Melissa.Api.GatherBuffer
import Melissa.Base.Writes
import Melissa.Messages.Fill
import Melissa.Messages.ReadBack
import Melissa.Output.NoMpi
import Melissa.Sobol.RoundRobin
import Melissa.Base.GetoptWords
import Melissa.CommandLine.Restart
import Melissa.Base.Argv
import Melissa.CommandLine.Fields
import Melissa.Base.Gaps
import Melissa.Vector
import Melissa.Study.Groups
import Melissa.Study.Statistics
import Melissa.Study.Lives
import Melissa.Study.Finalize
import Melissa.Study.SobolFiles
import Melissa.Protocol.Groups
import Melissa.Protocol.System
import Melissa.Base.Reports
import Melissa.Protocol.Assigned
import Melissa.Protocol.Counted
import Melissa.Protocol.Drops
import Melissa.Protocol.Agreement
