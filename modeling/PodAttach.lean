import PodAttach.Address.Addressing
import PodAttach.Address.Route
import PodAttach.Agent.Arbiter
import PodAttach.Agent.Ask
import PodAttach.Agent.Attach
import PodAttach.Agent.Handle
import PodAttach.Agent.Listener
import PodAttach.Agent.Plan
import PodAttach.Agent.Readiness
import PodAttach.Agent.Reconcile
import PodAttach.Attachment.Basic
import PodAttach.Attachment.Store
import PodAttach.Cni.Call
import PodAttach.Cni.Client
import PodAttach.Cni.Code
import PodAttach.Cni.Dns
import PodAttach.Cni.Line
import PodAttach.Cni.Message
import PodAttach.Cni.NetConf
import PodAttach.Cni.PodArgs
import PodAttach.Cni.Result
import PodAttach.Config.CommandLine
import PodAttach.Config.Error
import PodAttach.Config.File
import PodAttach.Config.Layer
import PodAttach.Config.Load
import PodAttach.Config.Settings
import PodAttach.Descriptor.Basic
import PodAttach.Descriptor.Directory
import PodAttach.Descriptor.Error
import PodAttach.Duration
import PodAttach.Failure
import PodAttach.Given.Address
import PodAttach.Given.Attachment
import PodAttach.Given.Failure
import PodAttach.Given.Settings
import PodAttach.Json.Access
import PodAttach.Json.Basic
import PodAttach.Json.Document
import PodAttach.Json.Record
import PodAttach.Json.Token
import PodAttach.Json.Value
import PodAttach.Kernel.Ask
import PodAttach.Kernel.Basic
import PodAttach.Kernel.Request
import PodAttach.Link.Basic
import PodAttach.Link.Netns
import PodAttach.Link.Routing
import PodAttach.Link.Veth
import PodAttach.Main
import PodAttach.Net.Cidr
import PodAttach.Net.Ip
import PodAttach.Net.LinkName
import PodAttach.Net.Mac
import PodAttach.Number.Binary64
import PodAttach.Number.Shortest
import PodAttach.Plugin.Invocation
import PodAttach.Plugin.Run
import PodAttach.Proc
import PodAttach.Proofs.Addresses
import PodAttach.Proofs.Agreement
import PodAttach.Proofs.Alone
import PodAttach.Proofs.Arbitration
import PodAttach.Proofs.Arguments
import PodAttach.Proofs.Blocks
import PodAttach.Proofs.Boundaries
import PodAttach.Proofs.Checking
import PodAttach.Proofs.ConfigFiles
import PodAttach.Proofs.Confinement
import PodAttach.Proofs.Connecting
import PodAttach.Proofs.Connections
import PodAttach.Proofs.Construction
import PodAttach.Proofs.Convergence
import PodAttach.Proofs.Cookies
import PodAttach.Proofs.Crashes
import PodAttach.Proofs.CutOff
import PodAttach.Proofs.Directory
import PodAttach.Proofs.Durations
import PodAttach.Proofs.Effects
import PodAttach.Proofs.Encoding
import PodAttach.Proofs.Families
import PodAttach.Proofs.Flattening
import PodAttach.Proofs.FlowLines
import PodAttach.Proofs.Forwarding
import PodAttach.Proofs.Framing
import PodAttach.Proofs.Hardware
import PodAttach.Proofs.History
import PodAttach.Proofs.Identifiers
import PodAttach.Proofs.Joining
import PodAttach.Proofs.Layering
import PodAttach.Proofs.Layouts
import PodAttach.Proofs.Leftovers
import PodAttach.Proofs.Lexing
import PodAttach.Proofs.LinkNames
import PodAttach.Proofs.Lists
import PodAttach.Proofs.Locality
import PodAttach.Proofs.Locks
import PodAttach.Proofs.Looking
import PodAttach.Proofs.Machine
import PodAttach.Proofs.Messages
import PodAttach.Proofs.Numbers
import PodAttach.Proofs.Options
import PodAttach.Proofs.Overlap
import PodAttach.Proofs.Pairs
import PodAttach.Proofs.Passes
import PodAttach.Proofs.Polling
import PodAttach.Proofs.Quotation
import PodAttach.Proofs.Reachability
import PodAttach.Proofs.Records
import PodAttach.Proofs.Recovery
import PodAttach.Proofs.Refusals
import PodAttach.Proofs.Rehearsal
import PodAttach.Proofs.Removal
import PodAttach.Proofs.Repetition
import PodAttach.Proofs.Restart
import PodAttach.Proofs.Results
import PodAttach.Proofs.Rollback
import PodAttach.Proofs.Routes
import PodAttach.Proofs.Rules
import PodAttach.Proofs.Runs
import PodAttach.Proofs.Serial
import PodAttach.Proofs.Site
import PodAttach.Proofs.Slots
import PodAttach.Proofs.Spelling
import PodAttach.Proofs.Spoofing
import PodAttach.Proofs.StaleFlows
import PodAttach.Proofs.Standing
import PodAttach.Proofs.Starting
import PodAttach.Proofs.Store
import PodAttach.Proofs.Stranded
import PodAttach.Proofs.Success
import PodAttach.Proofs.Survival
import PodAttach.Proofs.Tables
import PodAttach.Proofs.Territory
import PodAttach.Proofs.Texts
import PodAttach.Proofs.Together
import PodAttach.Proofs.Trace
import PodAttach.Proofs.Traffic
import PodAttach.Proofs.Twins
import PodAttach.Proofs.Work
import PodAttach.Proofs.World
import PodAttach.Scenario.Daemon
import PodAttach.Scenario.Endpoint
import PodAttach.Scenario.Netlab
import PodAttach.Scenario.Node
import PodAttach.Scenario.Run
import PodAttach.Scenario.Server
import PodAttach.Scenario.Stage
import PodAttach.Scenario.Tools
import PodAttach.Startup
import PodAttach.Switch.Basic
import PodAttach.Switch.Bridge
import PodAttach.Switch.Connector
import PodAttach.Switch.Driven
import PodAttach.Switch.Flow
import PodAttach.Switch.FlowTable
import PodAttach.Switch.Listing
import PodAttach.Switch.Ofctl
import PodAttach.Switch.Tool
import PodAttach.Switch.Vsctl
import PodAttach.System.Errno
import PodAttach.System.FileTree
import PodAttach.Table
import PodAttach.Text.Blank
import PodAttach.Text.Digits
import PodAttach.Text.Order
import PodAttach.Text.Printable
import PodAttach.Text.Quoted
import PodAttach.Text.Split
import PodAttach.Text.Utf8
import PodAttach.Toml.Document
import PodAttach.Toml.Scalar
import PodAttach.Toml.Token
import PodAttach.Toml.Value
import PodAttach.View.Address
import PodAttach.View.Attachment
import PodAttach.View.Basic
import PodAttach.View.Call
import PodAttach.View.Link
import PodAttach.View.Settings
