import TereServer.ProtocolIdentity.Stream
import TereServer.ProtocolIdentity.Walk
import TereServer.ProtocolIdentity
import TereServer.Services.System.Liveness
import TereServer.Services.System.Exchange
import TereServer.Services.System
import TereServer.Services.Sessions.Registry
import TereServer.Services.Sessions.Server
import TereServer.Services.Sessions.Startup
import TereServer.Services.Sessions.Completion
import TereServer.Services.Sessions.Versions
import TereServer.Services.Sessions.Liveness
import TereServer.Services.Sessions.Instances
import TereServer.Services.Sessions.Connections
import TereServer.Services.Sessions.Failure
import TereServer.Services.Sessions.Relay
import TereServer.Services.Sessions.Integrity
import TereServer.Services.Sessions.Shells
import TereServer.Services.Sessions.Step
import TereServer.Services.Sessions
import TereServer.Services.PtyUser.Session
import TereServer.Services.PtyUser.Typing
import TereServer.Services.PtyUser.Liveness
import TereServer.Services.PtyUser.Flow
import TereServer.Services.PtyUser.Exit
import TereServer.Services.PtyUser.Input
import TereServer.Services.PtyUser.Output
import TereServer.Services.PtyUser
import TereServer.Services.PtyClients
import TereServer.Services.PtyRun
import TereServer.Services.Pty
import TereServer.SocketActivation.Names
import TereServer.SocketActivation.Descriptors
import TereServer.SocketActivation.OneShot
import TereServer.SocketActivation.Parse
import TereServer.SocketActivation
import TereServer.Ipc.FakeIpc
import TereServer.Ipc.Slots
import TereServer.Ipc.HandshakeErrors
import TereServer.Ipc.HandshakeReplay
import TereServer.Ipc.HandshakeAgreement
import TereServer.Ipc.Handshake
import TereServer.Ipc.Ownership
import TereServer.Ipc.RoundTrip
import TereServer.Proto.Confusion
import TereServer.Proto.Limits
import TereServer.Proto.Pty
import TereServer.Proto.PtyUser
import TereServer.Proto.Sessions
