import TcpEcho.Listener
/- The serial server call by call: each call takes the client that has waited longest and
   serves it to its end. -/
namespace TcpEcho.Serial

/-- The server and its clients between two calls. Reads and accepts give up after a time if
the server has a time limit. -/
structure Desk where
  chunkSize : Nat
  hasTimeLimit : Bool := false
  hasDescriptors : Bool := true
  clients : List Client := []
deriving DecidableEq, Repr

inductive Step where
  | connect
  | send (client : Nat) (data : Octets)
  | shutdown (client : Nat)
  | reset (client : Nat)
  | serve
  | drain (client : Nat)
  | exhaustDescriptors
  | restoreDescriptors
deriving DecidableEq, Repr

inductive Reply where
  | connected
  | sent
  | shutdown
  | reset
  | served (summary : Option Summary) (log : List Event)
  | acceptFailed (f : Fault)
  | wouldBlock
  | drained (data : Octets) (f : Option Fault)
  | exhausted
  | restored
deriving DecidableEq, Repr

namespace Desk

def oldest? (d : Desk) : Option Nat := d.clients.findIdx? Client.waits

def change (d : Desk) (k : Nat) (f : Client → Client) : Desk :=
  { d with clients := d.clients.modify k f }

def afterService (run : Relay.Run) (c : Client) : Client :=
  let left := run.rest.reads.flatMap fun
    | .data d => d
    | _ => []
  { c with inbound := left, outbound := c.outbound ++ run.written }.close

def serveClient (d : Desk) (k : Nat) (c : Client) : Desk × Reply :=
  let connection := Connection.serve .serial (clientName k) d.chunkSize c.script
  (d.change k (afterService connection.run), .served connection.summary connection.log)

/-- One call for the next client. It is not made while it could only block. -/
def serveNext (d : Desk) : Desk × Reply :=
  if !d.hasDescriptors then (d, .acceptFailed .tooManyOpenFiles)
  else
    match d.oldest? with
    | none => (d, if d.hasTimeLimit then .acceptFailed .wouldBlock else .wouldBlock)
    | some k =>
      match d.clients[k]? with
      | none => (d, .wouldBlock)
      | some c =>
        if d.hasTimeLimit ∨ c.hasShut ∨ c.hasReset then d.serveClient k c else (d, .wouldBlock)

def drain (d : Desk) (k : Nat) : Desk × Reply :=
  match d.clients[k]? with
  | none => (d, .drained [] none)
  | some c =>
    (d.change k (Client.take c.outbound.length),
      .drained c.outbound (if c.isBroken then some .connectionReset else none))

def perform (d : Desk) : Step → Desk × Reply
  | .connect => ({ d with clients := d.clients ++ [{}] }, .connected)
  | .send k data => (d.change k (Client.send data), .sent)
  | .shutdown k => (d.change k Client.shut, .shutdown)
  | .reset k => (d.change k Client.reset, .reset)
  | .serve => d.serveNext
  | .drain k => d.drain k
  | .exhaustDescriptors => ({ d with hasDescriptors := false }, .exhausted)
  | .restoreDescriptors => ({ d with hasDescriptors := true }, .restored)

def performAll (d : Desk) : List Step → Desk × List Reply
  | [] => (d, [])
  | s :: ss =>
    let (d, reply) := d.perform s
    let (d, replies) := d.performAll ss
    (d, reply :: replies)

end Desk

/-- The replies of a server that asks for its endpoint first. -/
def replies (grant : Granting) (host : String) (port : UInt16) (desk : Desk) (steps : List Step) :
    Except BindError (List Reply) :=
  (bind grant host port).map fun _ => (desk.performAll steps).2

end TcpEcho.Serial
