import NetConductor.Agent.Desktop
import NetConductor.Agent.Enrolling
import NetConductor.Agent.Join
import NetConductor.Agent.Listeners
import NetConductor.Agent.Locking
import NetConductor.Agent.OwnPorts
import NetConductor.Agent.Proxy
import NetConductor.Agent.Recovery
import NetConductor.Agent.Sharing
import NetConductor.Agent.Sync
import NetConductor.Agent.Tunnel
import NetConductor.Core.Bridge
import NetConductor.Core.Headers
import NetConductor.Core.LocalProxy
import NetConductor.Core.Model
import NetConductor.Core.Proxy
import NetConductor.Core.Save
import NetConductor.Core.Socks
import NetConductor.Core.Transparent
import NetConductor.Desktop.Controller
import NetConductor.Desktop.InputHelper
import NetConductor.Desktop.Inputs
import NetConductor.Desktop.Registry
import NetConductor.Desktop.SystemProxy
import NetConductor.Remote.Calls
import NetConductor.Remote.Confinement
import NetConductor.Remote.ExactlyOnce
import NetConductor.Remote.Framing
import NetConductor.Remote.Handle
import NetConductor.Remote.Hub
import NetConductor.Remote.HubSteps
import NetConductor.Remote.Interrupted
import NetConductor.Remote.Isolation
import NetConductor.Remote.Keys
import NetConductor.Remote.Listing
import NetConductor.Remote.Locking
import NetConductor.Remote.Offer
import NetConductor.Remote.Orphans
import NetConductor.Remote.Registration
import NetConductor.Remote.Revocation
import NetConductor.Remote.Rpc
import NetConductor.Remote.Session
import NetConductor.Remote.Switch
import NetConductor.Remote.TerminalInput
import NetConductor.Remote.TerminalStart
import NetConductor.Remote.Transfer
import NetConductor.Remote.Wire
import NetConductor.Semantics.CriticalSection
import NetConductor.Semantics.Cycles
import NetConductor.Semantics.Deadline
import NetConductor.Semantics.FirstMatch
import NetConductor.Semantics.History
import NetConductor.Semantics.Locks
import NetConductor.Semantics.Markup
import NetConductor.Semantics.Pieces
import NetConductor.Semantics.Refinement
import NetConductor.Semantics.Routes
import NetConductor.Semantics.Routine
import NetConductor.Semantics.Slots
import NetConductor.Semantics.Sources
import NetConductor.Semantics.Symmetry
import NetConductor.Semantics.Tables
import NetConductor.Semantics.Transition
import NetConductor.Semantics.Updates
import NetConductor.Semantics.Window
import NetConductor.Server.ActiveExit
import NetConductor.Server.Allocation
import NetConductor.Server.AuditLog
import NetConductor.Server.Codes
import NetConductor.Server.Compartments
import NetConductor.Server.Credentials
import NetConductor.Server.Devices
import NetConductor.Server.Dial
import NetConductor.Server.Enrollment
import NetConductor.Server.Forward
import NetConductor.Server.HostKeys
import NetConductor.Server.Identity
import NetConductor.Server.Locking
import NetConductor.Server.LoginWindow
import NetConductor.Server.Loops
import NetConductor.Server.MappingTable
import NetConductor.Server.Peers
import NetConductor.Server.PolicyTable
import NetConductor.Server.Probe
import NetConductor.Server.Reconcile
import NetConductor.Server.Rollback
import NetConductor.Server.Runs
import NetConductor.Server.Secrecy
import NetConductor.Server.SessionLifetime
import NetConductor.Server.Sessions
import NetConductor.Server.Site
import NetConductor.Server.State
import NetConductor.Server.Status
import NetConductor.Server.Store
import NetConductor.Server.TCPForward
import NetConductor.Server.Throttle
import NetConductor.Server.UDPForward
import NetConductor.Text.Address
import NetConductor.Text.Base64
import NetConductor.Text.CodeUnits
import NetConductor.Text.Decimal
import NetConductor.Text.Strings
import NetConductor.Web.Inert
import NetConductor.Web.Page
