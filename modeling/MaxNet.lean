import MaxNet.Lib.Transition
import MaxNet.Lib.SerialQueue
import MaxNet.Asio
import MaxNet.Stats
import MaxNet.Lib.Tokens
import MaxNet.NetUrl.Basic
import MaxNet.NetUrl.Parse
import MaxNet.NetUrl.Verdicts
import MaxNet.NetUrl.Grammar
import MaxNet.NetUrl.Setters
import MaxNet.Message.Base
import MaxNet.Listener.Model
import MaxNet.Listener.Alive
import MaxNet.Listener.HandOff
import MaxNet.Session.Model
import MaxNet.Session.Frames
import MaxNet.Session.WriteView
import MaxNet.Session.WriteOrder
import MaxNet.Session.Release
import MaxNet.Session.ReadView
import MaxNet.Session.Receive
import MaxNet.Session.Close
import MaxNet.Session.Life
import MaxNet.Session.EndStatus
import MaxNet.Session.CloseOnce
import MaxNet.Resolver.Model
import MaxNet.Resolver.Order
import MaxNet.Resolver.Stall
import MaxNet.Client.Connecting
import MaxNet.Client.Model
import MaxNet.Client.Assertions
import MaxNet.Lib.Lists
import MaxNet.Client.Sessions
import MaxNet.Client.Runs
import MaxNet.Lib.Locks
import MaxNet.Session.Locking
import MaxNet.Lib.BinaryFloat
import MaxNet.Lib.Wire
import MaxNet.Message.GenericMax
import MaxNet.Message.MaxMessage
import MaxNet.Message.WireFormat
import MaxNet.Message.RoundTrip
import MaxNet.Message.Unsupported
import MaxNet.Console
import MaxNet.Client.Arguments
import MaxNet.Client.Output
import MaxNet.Movement.Containment
import MaxNet.Movement.Groups
import MaxNet.Stats.Requests
import MaxNet.Session.Teardown
import MaxNet.Server
import MaxNet.Lib.Drain
import MaxNet.Session.Rest
import MaxNet.Session.Link
import MaxNet.Session.Delivery
import MaxNet.Client.Exchange
import MaxNet.Movement.Pipeline
import MaxNet.Session.Unclosed
import MaxNet.Client.Destructor
import MaxNet.Client.Status
import MaxNet.Lib.Intervals
import MaxNet.Stats.Traffic
import MaxNet.Listener.Chains
import MaxNet.Server.Sessions
import MaxNet.Client.Constructors
import MaxNet.NetUrl.Canonical
import MaxNet.Lib.Record
import MaxNet.Movement.WireFormat
import MaxNet.Movement.Frames
import MaxNet.Session.CloseTimer
import MaxNet.Session.CloseEarly
import MaxNet.Client.Sends
import MaxNet.Client.Rest
import MaxNet.Client.Ready
import MaxNet.Movement.Remote
