import TcpEcho.Server.Client
/- A running server with its clients: every single thing that a client, the accept loop or a
   connection can do next, for both runtimes, and what the server does by itself while no
   client acts. -/
namespace TcpEcho

/-- The accept loop has yet to get a permit, is ready to accept, or pauses after an accept
that failed. The serial loop needs no permit. -/
inductive AcceptLoop where
  | idle
  | ready
  | pausing
deriving DecidableEq, Repr

/-- A server and all its clients in the order in which they connected. `permits` counts the
free ones. -/
structure Server where
  runtime : Runtime
  chunkSize : Nat
  permits : Nat
  loop : AcceptLoop
  hasDescriptors : Bool := true
  clients : List Client := []
  log : List Event := []
deriving DecidableEq, Repr

/-- What can happen next. Besides the failures that a client brings about, any call on its
connection can fail for reasons of the host. -/
inductive Action where
  | connect (room : Option Nat)
  | send (client : Nat) (data : Octets)
  | shutdown (client : Nat)
  | reset (client : Nat)
  | take (client n : Nat)
  | exhaustDescriptors
  | restoreDescriptors
  | acquire
  | accept
  | failAccept (f : Fault)
  | resume
  | read (client : Nat)
  | write (client n : Nat)
  | failCall (client : Nat) (f : Fault)
  | finish (client : Nat)
deriving DecidableEq, Repr

namespace Server

def start (runtime : Runtime) (chunkSize maxConnections : Nat) : Server where
  runtime := runtime
  chunkSize := chunkSize
  permits := match runtime with
    | .serial => 0
    | .concurrent => maxConnections
  loop := match runtime with
    | .serial => .ready
    | .concurrent => .idle

def inService (s : Server) : Nat := s.clients.countP Client.isServed

def oldest? (s : Server) : Option Nat := s.clients.findIdx? Client.waits

/-- A permit that the accept loop holds. -/
def heldPermits (s : Server) : Nat :=
  match s.runtime, s.loop with
  | .concurrent, .ready => 1
  | .concurrent, .pausing => 1
  | _, _ => 0

/-- The serial loop accepts only when nobody is in service. -/
def mayAccept (s : Server) : Bool :=
  s.loop = .ready && (s.runtime = .concurrent || s.inService = 0)

def change (s : Server) (k : Nat) (f : Client → Client) : Server :=
  { s with clients := s.clients.modify k f }

def relay? (s : Server) (k : Nat) : Option (Client × Relay) :=
  match s.clients[k]? with
  | some c =>
    match c.place with
    | .inService r => some (c, r)
    | _ => none
  | none => none

/-- Where the accept loop stands when it has no permit. -/
def loopAtRest (s : Server) : AcceptLoop :=
  match s.runtime with
  | .serial => .ready
  | .concurrent => .idle

def released (s : Server) : Nat :=
  match s.runtime with
  | .serial => s.permits
  | .concurrent => s.permits + 1

/-- A client changes if there is one of that number. -/
def onClient (s : Server) (k : Nat) (f : Client → Client) : Option Server :=
  if k < s.clients.length then some (s.change k f) else none

/-- What an action makes of a server, or nothing if the action cannot happen now. -/
def step (s : Server) : Action → Option Server
  | .connect room => some { s with clients := s.clients ++ [{ room := room }] }
  | .send k d => s.onClient k (Client.send d)
  | .shutdown k => s.onClient k Client.shut
  | .reset k => s.onClient k Client.reset
  | .take k n => s.onClient k (Client.take n)
  | .exhaustDescriptors => some { s with hasDescriptors := false }
  | .restoreDescriptors => some { s with hasDescriptors := true }
  | .acquire =>
    match s.runtime, s.loop, s.permits with
    | .concurrent, .idle, n + 1 => some { s with permits := n, loop := .ready }
    | _, _, _ => none
  | .accept =>
    match s.oldest? with
    | some k =>
      if s.mayAccept ∧ s.hasDescriptors then
        let relay : Relay := { mode := s.runtime.mode, chunkSize := s.chunkSize }
        let s' := s.change k fun c => { c with place := .inService relay }
        some { s' with
          loop := s.loopAtRest
          log := s.log ++ [.newConnection (clientName k)] }
      else none
    | none => none
  | .failAccept f =>
    if s.mayAccept then some { s with loop := .pausing, log := s.log ++ [.acceptFailed f.text] }
    else none
  | .resume =>
    if s.loop = .pausing then some { s with loop := s.loopAtRest, permits := s.released }
    else none
  | .read k =>
    match s.relay? k with
    | some (c, r) =>
      if r.phase = .reading then
        (c.read r.chunkSize).map fun (outcome, c) =>
          let s' := s.change k fun _ => { c with place := .inService (r.afterRead outcome) }
          { s' with log := s.log ++ Relay.readEvents outcome }
      else none
    | none => none
  | .write k n =>
    match s.relay? k with
    | some (c, r) =>
      match r.phase, n with
      | .writing size b bs, n + 1 =>
        let (outcome, c) := c.write (b :: bs) (n + 1)
        let r := r.afterWrite size (b :: bs) outcome
        some (s.change k fun _ => { c with place := .inService r })
      | _, _ => none
    | none => none
  | .failCall k f =>
    match s.relay? k with
    | some (c, r) =>
      if r.hasEnded then none
      else some (s.change k fun _ => { c with place := .inService (r.afterFault f) })
    | none => none
  | .finish k =>
    match s.relay? k with
    | some (_, r) =>
      match r.phase with
      | .ended e =>
        let s' := s.change k Client.close
        some { s' with
          permits := s.released
          log := s.log ++ e.events s.runtime (clientName k) }
      | _ => none
    | none => none

inductive Reachable (runtime : Runtime) (chunkSize maxConnections : Nat) : Server → Prop where
  | start : Reachable runtime chunkSize maxConnections (start runtime chunkSize maxConnections)
  | step {s t : Server} (a : Action) : Reachable runtime chunkSize maxConnections s →
      s.step a = some t → Reachable runtime chunkSize maxConnections t

/-- The accept loop takes a permit as soon as one is free. -/
def acquired (s : Server) : Server := (s.step .acquire).getD s

def pendingAction? (s : Server) (k : Nat) : Option Action :=
  match s.relay? k with
  | none => none
  | some (c, r) =>
    match r.phase with
    | .reading => (c.read r.chunkSize).map fun _ => .read k
    | .writing _ _ bs => some (.write k (bs.length + 1))
    | .ended _ => some (.finish k)

/-- What the server does next while no client acts: connections first, in the order of their
clients, then the accept loop, if a client waits. -/
def nextAction? (s : Server) : Option Action :=
  match (List.range s.clients.length).findSome? s.pendingAction? with
  | some a => some a
  | none =>
    if s.oldest?.isSome ∧ s.mayAccept then
      some (if s.hasDescriptors then .accept else .failAccept .tooManyOpenFiles)
    else none

def settleFor : Nat → Server → Server
  | 0, s => s
  | fuel + 1, s =>
    match s.nextAction?.bind s.step with
    | some s => settleFor fuel s.acquired
    | none => s

/-- Bounds the actions that a client can still cause: a read and a write for each octet on
its way, and a few to begin and to end. -/
def workFor (c : Client) : Nat := 2 * c.inbound.length + 6

def workLeft (s : Server) : Nat := s.clients.foldr (fun c n => workFor c + n) 1

/-- The server at rest: pauses are over, and nothing is left to do. -/
def settle (s : Server) : Server :=
  settleFor s.workLeft ((s.step .resume).getD s).acquired

end Server
end TcpEcho
