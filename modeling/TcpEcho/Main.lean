import Std.Async.DNS
import Std.Async.TCP
import Std.Async.Timer
import Std.Sync.Mutex
import TcpEcho.Program
import TcpEcho.Connection
/- The command line, with the files, sockets and standard streams of the machine it runs on.
   What is to be done with them is decided elsewhere. -/
namespace TcpEcho.Main

open Std.Async Std.Async.TCP Std.Net
open CommandLine (Options)

/- Errors and addresses -/

/-- Errors of calls that may wait carry the number of the system below zero. -/
def systemNumber (n : UInt32) : Int := if n < 0x80000000 then n.toNat else 0x100000000 - n.toNat

def faultOf : IO.Error → Fault
  | .unexpectedEof => .bare .unexpectedEof
  | .userError m => .custom .other m
  | .alreadyExists _ n _ | .otherError n _ | .resourceBusy n _ | .resourceVanished n _
  | .unsupportedOperation n _ | .hardwareFault n _ | .unsatisfiedConstraints n _
  | .illegalOperation n _ | .protocolError n _ | .timeExpired n _ | .interrupted _ n _
  | .noFileOrDirectory _ n _ | .invalidArgument _ n _ | .permissionDenied _ n _
  | .resourceExhausted _ n _ | .inappropriateType _ n _ | .noSuchThing _ n _ =>
    .system (systemNumber n)

def attempt {α : Type} (act : IO α) : IO (Except Fault α) := do
  try return .ok (← act)
  catch e => return .error (faultOf e)

def socketAddress (e : Endpoint) : SocketAddress :=
  match e.address with
  | .v4 a => .v4 ⟨.ofParts a.a a.b a.c a.d, e.port⟩
  | .v6 a => .v6 ⟨⟨⟨a.groups.toArray, by simp [a.eight]⟩⟩, e.port⟩

def endpoint : SocketAddress → Endpoint
  | .v4 s =>
    let o := s.addr.octets
    ⟨.v4 ⟨o[0], o[1], o[2], o[3]⟩, s.port⟩
  | .v6 s => ⟨.v6 ⟨s.addr.segments.toList, by simp⟩, s.port⟩

def octets (d : ByteArray) : Octets := d.data.toList

def bytes (d : Octets) : ByteArray := ⟨d.toArray⟩

/- What a run meets -/

def readFile (path : Octets) : IO (Except Fault Octets) :=
  match Utf8.decode? path with
  | none => return .error .noSuchFile
  | some p => return (← attempt (IO.FS.readBinFile p)).map octets

def reader (o : Options) : IO FileReader := do
  match o.config with
  | none => return fun _ => .error .noSuchFile
  | some path =>
    let contents ← readFile path
    return fun _ => contents

def listen (e : Endpoint) (backlog : Int32) : IO (Except Fault (Socket.Server × Endpoint)) :=
  attempt do
    let server ← Socket.Server.mk
    server.bind (socketAddress e)
    server.listen backlog.toUInt32
    return (server, endpoint (← server.getSockName))

/-- How long a probe waits for more, in milliseconds. -/
def patience : Nat := 5000

def receiveInTime (socket : Socket.Client) (n : Nat) : Async ReadOutcome := do
  let limit ← Selector.sleep (.ofNat patience)
  Selectable.one #[
    .case (socket.recvSelector n.toUInt64) fun d => return .got (d.elim [] octets),
    .case limit fun _ => return .failed .wouldBlock]

/-- What comes in until so many octets are there or no more come. -/
partial def collect (socket : Socket.Client) (missing : Nat) : IO (List ReadStep) := do
  if missing = 0 then return []
  match ← attempt (receiveInTime socket missing).block with
  | .error f | .ok (.failed f) => return [.fail f]
  | .ok (.got []) | .ok .pending => return []
  | .ok (.got d) => return .data d :: (← collect socket (missing - d.length))

def converse (socket : Socket.Client) (payload : Octets) : IO Conversation := do
  match ← attempt (socket.send (bytes payload)).block with
  | .error f => return { script := { writes := [.fail f] } }
  | .ok () =>
    let reads ← collect socket payload.length
    match ← attempt socket.shutdown.block with
    | .error f => return { script := { reads }, farewell := some f }
    | .ok () => return { script := { reads } }

/-- The words of the resolver for its errors, by their numbers. -/
def lookupError : IO.Error → String
  | .otherError n _ | .noSuchThing _ n _ | .invalidArgument _ n _ =>
    match systemNumber n with
    | 3001 => "Temporary failure in name resolution"
    | 3004 => "Non-recoverable failure in name resolution"
    | 3006 => "Memory allocation failure"
    | 3007 => "No address associated with hostname"
    | 22 | 3008 => "Name or service not known"
    | n => "Unknown error " ++ toString n
  | e => toString e

def lookUp (host : String) (port : UInt16) : IO (Except Fault (List Destination)) := do
  try
    let found ← (DNS.getAddrInfo host "").block
    return .ok (found.toList.map fun a =>
      ⟨endpoint (match a with | .v4 a => .v4 ⟨a, port⟩ | .v6 a => .v6 ⟨a, port⟩), 0⟩).eraseDups
  catch e =>
    return .error
      (.custom .uncategorized ("failed to lookup address information: " ++ lookupError e))

/-- Sockets have no place for the number of a link. -/
def meetPeer (payload : Octets) (d : Destination) : IO (Except Fault Peer) :=
  attempt do
    let socket ← Socket.Client.mk
    (socket.connect (socketAddress d.place)).block
    let place := endpoint (← socket.getPeerName)
    let conversation ← converse socket payload
    return { place := ⟨place, d.scope⟩, answer := fun _ => conversation }

def meetFirst (payload : Octets) : List Destination → IO (List (Destination × Except Fault Peer))
  | [] => return []
  | d :: ds => do
    match ← meetPeer payload d with
    | .ok peer => return [(d, .ok peer)]
    | .error f => return (d, .error f) :: (← meetFirst payload ds)

/-- What a probe asks for: the one name that it may look up, and the destinations up to the one
that accepts, with the one conversation that it has. -/
def network (p : CommandLine.Probe) : IO Network := do
  let found ← match Target.parse p.target with
    | .error _ => pure (.ok [])
    | .ok (.destination d) => pure (.ok [d])
    | .ok (.named host port) => lookUp host port
  let met ← meetFirst (Utf8.encode p.message) (found.toOption.getD [])
  return {
    lookup := fun _ _ => found
    near := fun d => (met.lookup d).getD (.error .connectionRefused) }

def meet (o : Options) : IO (World × Option Socket.Server) := do
  let logSetting ← IO.getEnv "RUST_LOG"
  match o.probe with
  | some p => return ({ logSetting, net := ← network p }, none)
  | none =>
    let read ← reader o
    match Settings.load o read with
    | .error _ => return ({ read, logSetting }, none)
    | .ok s =>
      match listenAddress s.host s.port with
      | .error _ => return ({ read, logSetting }, none)
      | .ok e =>
        match ← listen e s.backlog with
        | .error f => return ({ read, logSetting, host := { grant := fun _ => .error f } }, none)
        | .ok (server, place) =>
          return ({ read, logSetting, host := { grant := fun _ => .ok place } }, some server)

/- Serving -/

abbrev Saying := Event → IO Unit

/-- Answers the calls of a relay from a socket. -/
partial def relay (say : Saying) (socket : Socket.Client) (r : Relay) : IO Ending := do
  match r.phase with
  | .ended e => return e
  | .reading =>
    let outcome : ReadOutcome := match ← attempt (socket.recv? r.chunkSize.toUInt64).block with
      | .ok d => .got (d.elim [] octets)
      | .error f => .failed f
    (Relay.readEvents outcome).forM say
    relay say socket (r.afterRead outcome)
  | .writing size b bs =>
    let outcome : WriteOutcome := match ← attempt (socket.send (bytes (b :: bs))).block with
      | .ok () => .took (bs.length + 1)
      | .error f => .failed f
    relay say socket (r.afterWrite size (b :: bs) outcome)

def peerName (socket : Socket.Client) : IO String := do
  match ← attempt socket.getPeerName with
  | .ok a => return (endpoint a).text
  | .error _ => return "unknown"

def serveConnection (say : Saying) (s : Settings) (socket : Socket.Client) : IO Unit := do
  let peer ← peerName socket
  say (.newConnection peer)
  let ending ← relay say socket { mode := s.runtime.mode, chunkSize := s.chunkSize.toNat }
  (ending.events s.runtime peer).forM say

/-- Accepts once; a failure is followed by a pause. -/
def acceptOne (say : Saying) (server : Socket.Server) : IO (Option Socket.Client) := do
  match ← attempt server.accept.block with
  | .ok socket => return some socket
  | .error f =>
    say (.acceptFailed f.text)
    IO.sleep 100
    return none

def serveSerially (say : Saying) (s : Settings) (server : Socket.Server) : IO Unit := do
  repeat
    if let some socket ← acceptOne say server then serveConnection say s socket

structure Permits where
  free : Std.Mutex Nat
  released : Std.Condvar

def Permits.acquire (p : Permits) : BaseIO Unit :=
  p.free.atomicallyOnce p.released (return 0 < (← get)) (modify (· - 1))

def Permits.release (p : Permits) : BaseIO Unit := do
  p.free.atomically (modify (· + 1))
  p.released.notifyOne

def serveConcurrently (say : Saying) (s : Settings) (server : Socket.Server) : IO Unit := do
  let permits : Permits := ⟨← Std.Mutex.new s.maxConnections.toNat, ← Std.Condvar.new⟩
  repeat
    permits.acquire
    match ← acceptOne say server with
    | none => permits.release
    | some socket =>
      discard <| IO.asTask (do serveConnection say s socket; permits.release) .dedicated

def printLine (filter : Filter) (runtime : Runtime) (e : Event) : IO Unit := do
  if filter.shows runtime e then
    let out ← IO.getStdout
    out.putStr (e.line ++ "\n")
    out.flush

def run (args : List String) : IO UInt32 := do
  let words := args.map Utf8.encode
  let (world, server) ← match CommandLine.parse words with
    | .error _ => pure ({}, none)
    | .ok o => meet o
  let x := Execution.run world words
  (← IO.getStderr).putStr x.complaint
  (← IO.getStdout).putStr x.output
  (← IO.getStdout).flush
  match x.upshot, server with
  | .serving s _, some server =>
    let say := printLine x.filter s.runtime
    match s.runtime with
    | .serial => serveSerially say s server
    | .concurrent => serveConcurrently say s server
    return 0
  | upshot, _ => return (upshot.exitCode?.getD 0).toUInt32

end TcpEcho.Main

def main (args : List String) : IO UInt32 := TcpEcho.Main.run args
