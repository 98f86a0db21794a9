import TcpEcho.Connection
/- A client of a server as the host sees it: the octets on their way in both directions, what
   the client has done to its end, and where it stands with the server. -/
namespace TcpEcho

inductive Place where
  | backlog
  | inService (r : Relay)
  | closed
deriving DecidableEq, Repr

/-- `sent` and `received` hold all that the client has sent and taken; `inbound` is sent but
not read by the server, `outbound` written by the server but not taken. A client that stalls
has room for few octets. The connection is broken if the server left octets unread. -/
structure Client where
  sent : Octets := []
  inbound : Octets := []
  outbound : Octets := []
  received : Octets := []
  hasShut : Bool := false
  hasReset : Bool := false
  isBroken : Bool := false
  room : Option Nat := none
  place : Place := .backlog
deriving DecidableEq, Repr

namespace Client

def waits (c : Client) : Bool := c.place = .backlog

def isServed (c : Client) : Bool :=
  match c.place with
  | .inService _ => true
  | _ => false

/-- A client can send until it has shut down its end or reset the connection. What comes after
the server has closed is lost. -/
def send (d : Octets) (c : Client) : Client :=
  if c.hasShut ∨ c.hasReset then c
  else if c.place = .closed then { c with sent := c.sent ++ d }
  else { c with sent := c.sent ++ d, inbound := c.inbound ++ d }

/-- A client that has reset the connection has no end left to shut down. -/
def shut (c : Client) : Client := if c.hasReset then c else { c with hasShut := true }

/-- A reset takes with it what the client has not received. -/
def reset (c : Client) : Client := { c with hasReset := true, outbound := [] }

def take (n : Nat) (c : Client) : Client :=
  { c with received := c.received ++ c.outbound.take n, outbound := c.outbound.drop n }

def writeFault (c : Client) : Fault := if c.hasShut then .brokenPipe else .connectionReset

/-- What a read of the server brings; nothing yet while there is nothing to tell. Octets that
came before the end or the reset are read first. -/
def read (room : Nat) (c : Client) : Option (ReadOutcome × Client) :=
  if c.inbound ≠ [] then
    some (.got (c.inbound.take room), { c with inbound := c.inbound.drop room })
  else if c.hasShut then some (.got [], c)
  else if c.hasReset then some (.failed .connectionReset, c)
  else none

/-- A write of which the host takes at most `n` octets. -/
def write (offered : Octets) (n : Nat) (c : Client) : WriteOutcome × Client :=
  if c.hasReset then (.failed c.writeFault, c)
  else
    match c.room with
    | some room =>
      if room < c.outbound.length + offered.length then (.failed .timedOut, c)
      else (.took (min n offered.length), { c with outbound := c.outbound ++ offered.take n })
    | none => (.took (min n offered.length), { c with outbound := c.outbound ++ offered.take n })

def close (c : Client) : Client := { c with place := .closed, isBroken := c.inbound ≠ [] }

/-- The connection of a client that does nothing more, as a stream that is read to its end:
behind the octets comes the end, a reset, or the time at which a read gives up. -/
def script (c : Client) : Script where
  reads := ReadStep.bringing c.inbound ++
    if c.hasShut then [] else [.fail (if c.hasReset then .connectionReset else .wouldBlock)]
  writes := if c.hasReset then [.fail c.writeFault] else []

end Client

/-- The name of the client that was the k-th to connect. -/
def clientName (k : Nat) : String := "client" ++ Decimal.text k

end TcpEcho
