import TcpEcho.Net.Address
import TcpEcho.Settings.Load
import TcpEcho.Server.State
/- The listening socket: the endpoint that the settings name, whether the host lets it be
   taken, and how a server comes up at it. -/
namespace TcpEcho

inductive BindError where
  | invalidAddress (host : String)
  | refused (place : Endpoint) (f : Fault)
deriving DecidableEq, Repr

namespace BindError

def text : BindError → String
  | .invalidAddress host => "Invalid listen address '" ++ host ++ "'"
  | .refused e f => "Failed to bind " ++ e.text ++ ": " ++ f.text

def cause? : BindError → Option Fault
  | .invalidAddress _ => none
  | .refused _ f => some f

def dump : BindError → String
  | .invalidAddress host => "InvalidAddress(" ++ Quoted.encode host ++ ")"
  | .refused e f => "Io(" ++ e.text ++ ", " ++ f.dump ++ ")"

end BindError

def listenAddress (host : String) (port : UInt16) : Except BindError Endpoint :=
  match Address.parse? host with
  | some a => .ok ⟨a, port⟩
  | none => .error (.invalidAddress host)

abbrev Granting := Endpoint → Except Fault Endpoint

def bind (grant : Granting) (host : String) (port : UInt16) : Except BindError Endpoint :=
  match listenAddress host port with
  | .error e => .error e
  | .ok e => (grant e).mapError (.refused e)

/-- What a server needs of its host: an endpoint to listen at, and for the concurrent one threads
to run on and a watch over its listening socket, which must not block. Nothing else can be refused
on the way, since an open socket can always be asked for its endpoint. -/
structure Host where
  grant : Granting := .ok
  threads : Except Fault Unit := .ok ()
  watch : Endpoint → Except Fault Unit := fun _ => .ok ()

/-- Why a server does not come up. More permits than there can be are no failure, but break an
assertion. -/
inductive Obstacle where
  | bind (e : BindError)
  | host (f : Fault)
  | tooManyPermits
deriving DecidableEq, Repr

namespace Server

/-- The length of the backlog is a wish that never fails. -/
def launch (host : Host) (s : Settings) : Except Obstacle (Endpoint × Server) :=
  let started := start s.runtime s.chunkSize.toNat s.maxConnections.toNat
  let bound := (bind host.grant s.host s.port).mapError .bind
  match s.runtime with
  | .serial => do return (← bound, started)
  | .concurrent => do
    host.threads.mapError .host
    let place ← bound
    (host.watch place).mapError .host
    if Settings.permitLimit < s.maxConnections then .error .tooManyPermits
    else .ok (place, started)

end Server
end TcpEcho
