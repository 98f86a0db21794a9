import TcpEcho.CommandLine.Written
import TcpEcho.Main
import TcpEcho.Probe.Channel
import TcpEcho.Server.Serial
import TcpEcho.Server.Session
import TcpEcho.Settings.Written
import TcpEcho.Proofs.Relay.Accounts
import TcpEcho.Proofs.Relay.Modes
import TcpEcho.Proofs.Server.Permits
import TcpEcho.Proofs.Server.Streams
import TcpEcho.Proofs.Server.Clients
import TcpEcho.Proofs.Server.Rest
import TcpEcho.Proofs.Server.Serial
import TcpEcho.Proofs.Server.Sessions
import TcpEcho.Proofs.Settings.RoundTrip
import TcpEcho.Proofs.CommandLine.RoundTrip
import TcpEcho.Proofs.Probe.Delivery
import TcpEcho.Proofs.Probe.RoundTrip
import TcpEcho.Proofs.Relay.Discipline
import TcpEcho.Proofs.Relay.Bounds
import TcpEcho.Proofs.Server.Endless
import TcpEcho.Proofs.Execution
import TcpEcho.Proofs.Settings.Notation
import TcpEcho.Proofs.Settings.Sources
import TcpEcho.Proofs.Connection
import TcpEcho.Proofs.Settings.Safety
import TcpEcho.Proofs.Net.Grammar
import TcpEcho.Proofs.Net.Display
import TcpEcho.Proofs.Text.Lossy
import TcpEcho.Proofs.Relay.Shown
