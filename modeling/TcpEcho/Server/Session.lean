import TcpEcho.Listener
/- Sessions: a server in the background and clients that act one after the other. Each step
   is answered when the server has come to rest. -/
namespace TcpEcho

/-- A server between two steps of its clients, and whether its writes give up on a client
that takes nothing. -/
structure Session where
  server : Server
  hasWriteLimit : Bool := false
deriving DecidableEq, Repr

namespace Session

inductive Step where
  | connect (isStalled : Bool)
  | send (client : Nat) (data : Octets)
  | receive (client n : Nat)
  | poll (client : Nat)
  | shutdown (client : Nat)
  | close (client : Nat)
  | reset (client : Nat)
  | abandon (client : Nat)
  | exhaustDescriptors
  | restoreDescriptors
  | awaitAcceptError
  | awaitError (client : Nat)
deriving DecidableEq, Repr

inductive Reply where
  | connected
  | sent
  | received (data : Octets)
  | receiveFailed (f : Fault)
  | nothing
  | shutdown
  | drained (data : Octets) (f : Option Fault)
  | reset (isClosed : Bool)
  | abandoned
  | exhausted
  | restored
  | seen (b : Bool)
deriving DecidableEq, Repr

/-- How much a client that stalls leaves room for. -/
def stalledRoom : Nat := 2304

def act (s : Session) (a : Action) : Session :=
  { s with server := ((s.server.step a).getD s.server).settle }

def takeAll (s : Session) (k : Nat) (c : Client) : Session := s.act (.take k c.outbound.length)

/-- What meets a client that waits for more than is there. -/
def endFault? (c : Client) : Option Fault :=
  if c.isBroken then some .connectionReset
  else if c.place = .closed then none
  else some .wouldBlock

def receive (s : Session) (k n : Nat) (c : Client) : Session × Reply :=
  if n ≤ c.outbound.length then (s.act (.take k n), .received (c.outbound.take n))
  else (s.takeAll k c, .receiveFailed ((endFault? c).getD .cutShort))

def poll (s : Session) (k : Nat) (c : Client) : Session × Reply :=
  if c.outbound = [] ∧ c.place ≠ .closed then (s, .nothing)
  else (s.takeAll k c, .received c.outbound)

def drain (s : Session) (k : Nat) (c : Client) : Session × Reply :=
  (s.takeAll k c, .drained c.outbound (endFault? c))

def hasLogged (s : Session) (p : Event → Bool) : Bool := s.server.log.any p

def isClosingOf (peer : String) : Event → Bool
  | .connectionClosed p _ _ => p = peer
  | _ => false

def isErrorOf (peer : String) : Event → Bool
  | .connectionError p _ _ => p = peer
  | _ => false

def isAcceptError : Event → Bool
  | .acceptFailed _ => true
  | _ => false

/-- A step of a client, if there is one of that number. -/
def onClient (s : Session) (k : Nat) (f : Client → Session × Reply) : Session × Reply :=
  match s.server.clients[k]? with
  | some c => f c
  | none => (s, .nothing)

def perform (s : Session) : Step → Session × Reply
  | .connect isStalled =>
    (s.act (.connect (if isStalled && s.hasWriteLimit then some stalledRoom else none)),
      .connected)
  | .send k data => (s.act (.send k data), .sent)
  | .receive k n => s.onClient k (s.receive k n)
  | .poll k => s.onClient k (s.poll k)
  | .shutdown k => (s.act (.shutdown k), .shutdown)
  | .close k =>
    let s := s.act (.shutdown k)
    s.onClient k (s.drain k)
  | .reset k =>
    let s := s.act (.reset k)
    (s, .reset (s.hasLogged (isClosingOf (clientName k))))
  | .abandon k => (s.act (.reset k), .abandoned)
  | .exhaustDescriptors => (s.act .exhaustDescriptors, .exhausted)
  | .restoreDescriptors => (s.act .restoreDescriptors, .restored)
  | .awaitAcceptError => (s, .seen (s.hasLogged isAcceptError))
  | .awaitError k => (s, .seen (s.hasLogged (isErrorOf (clientName k))))

def performAll (s : Session) : List Step → Session × List Reply
  | [] => (s, [])
  | step :: steps =>
    let (s, reply) := s.perform step
    let (s, replies) := s.performAll steps
    (s, reply :: replies)

def conclude (s : Session) : Session :=
  (List.range s.server.clients.length).foldl (fun s k => (s.perform (.close k)).1) s

def clientLogs (s : Session) : List (List Event) :=
  (List.range s.server.clients.length).map fun k =>
    s.server.log.filter fun e => e.peer? = some (clientName k)

structure Outcome where
  replies : List Reply
  final : Session
deriving DecidableEq, Repr

def hold (server : Server) (hasWriteLimit : Bool) (steps : List Step) : Outcome :=
  let (s, replies) := performAll { server := server.acquired, hasWriteLimit } steps
  ⟨replies, s.conclude⟩

/-- A session with a server that is yet to come up, on a host that refuses it at most its
endpoint. -/
def run (grant : Granting) (settings : Settings) (hasWriteLimit : Bool) (steps : List Step) :
    Except Obstacle Outcome :=
  (Server.launch { grant } settings).map fun launched => hold launched.2 hasWriteLimit steps

end Session
end TcpEcho
