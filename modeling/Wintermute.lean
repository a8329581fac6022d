import Wintermute.Foundation.Loops
import Wintermute.Foundation.FirstMatch
import Wintermute.Foundation.SlidingWindow
import Wintermute.Foundation.SharedObject
import Wintermute.Foundation.History
import Wintermute.Foundation.RetryPolicy
import Wintermute.Foundation.ArgLoop
import Wintermute.Foundation.Blocks
import Wintermute.Foundation.Calendar
import Wintermute.Foundation.Columns
import Wintermute.Foundation.Segments
import Wintermute.Foundation.Words
import Wintermute.Foundation.Occurrences
import Wintermute.Foundation.HereString
import Wintermute.Foundation.LexicalPath
import Wintermute.Foundation.Json
import Wintermute.Foundation.JsonRecord
import Wintermute.Foundation.JsonLayout
import Wintermute.Foundation.Tables
import Wintermute.Foundation.Checklist
import Wintermute.Foundation.Utf8
import Wintermute.RestartTracker
import Wintermute.Protocol
import Wintermute.Supervisor.World
import Wintermute.Supervisor.Operations
import Wintermute.Supervisor.Lifecycle
import Wintermute.Supervisor.Projection
import Wintermute.Supervisor.ObservePhase
import Wintermute.Supervisor.RestartPhase
import Wintermute.Supervisor.StartUp
import Wintermute.Supervisor.Refinement
import Wintermute.Supervisor.Invariant
import Wintermute.Supervisor.History
import Wintermute.Supervisor.BackoffSchedule
import Wintermute.Supervisor.StormControl
import Wintermute.Supervisor.BackoffExpiry
import Wintermute.Supervisor.NoDuplicate
import Wintermute.Supervisor.StartupFaults
import Wintermute.Supervisor.FaultIsolation
import Wintermute.Supervisor.Steps
import Wintermute.Supervisor.ControlPlane
import Wintermute.Supervisor.Bookkeeping
import Wintermute.Supervisor.TrackerBound
import Wintermute.Supervisor.Recovery
import Wintermute.Supervisor.Uptime
import Wintermute.Supervisor.RelaunchFidelity
import Wintermute.Supervisor.Launcher
import Wintermute.Supervisor.Processes
import Wintermute.Watchdog.RecoveryState
import Wintermute.Watchdog.Engine
import Wintermute.Watchdog.Iteration
import Wintermute.Watchdog.Schedule
import Wintermute.Watchdog.Tracking
import Wintermute.Watchdog.GiveUp
import Wintermute.Watchdog.Backoff
import Wintermute.Watchdog.HotLoop
import Wintermute.Watchdog.Consecutive
import Wintermute.Watchdog.UnitIsolation
import Wintermute.Watchdog.FailedList
import Wintermute.Watchdog.Systemctl
import Wintermute.Text
import Wintermute.BootstrapEnv
import Wintermute.Timestamp
import Wintermute.Readiness
import Wintermute.Install.Convention
import Wintermute.Install.Compliance
import Wintermute.Install.Reconcile
import Wintermute.Doctor.ExecStart
import Wintermute.Doctor.CommandInEffect
import Wintermute.Doctor.Specifiers
import Wintermute.Doctor.Discovery
import Wintermute.Doctor.Report
import Wintermute.Doctor.Rendering
import Wintermute.Kiosk.Payloads
import Wintermute.Kiosk.InstallArgs
import Wintermute.Install.Script
import Wintermute.Install.Gate
import Wintermute.Install.KioskHistory
import Wintermute.Kiosk.Plan
import Wintermute.ChildLog
import Wintermute.Control.Wire
import Wintermute.Control.Connection
import Wintermute.Control.Server
import Wintermute.Control.Completion
import Wintermute.Control.CommandLine
import Wintermute.Control.Daemon
