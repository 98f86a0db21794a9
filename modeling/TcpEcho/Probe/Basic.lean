import TcpEcho.Net.Address
import TcpEcho.Probe.Transfer
/- The probe: it finds a peer by the text of a target, sends it a payload and reads as many
   octets back. -/
namespace TcpEcho

/-- An endpoint to connect to. An address that holds on one link only goes with the number of
that link. -/
structure Destination where
  place : Endpoint
  scope : UInt32 := 0
deriving DecidableEq, Repr

def Destination.text (d : Destination) : String :=
  match d.place.address with
  | .v4 _ => d.place.text
  | .v6 a =>
    if d.scope = 0 then d.place.text
    else String.ofList ('[' :: Address.colonChars a.groups ++ '%' ::
      Decimal.digits d.scope.toNat ++ ']' :: ':' :: Decimal.digits d.place.port.toNat)

/-- What the name of a host stands for at a port, in the order in which it is to be tried. -/
abbrev Lookup := String → UInt16 → Except Fault (List Destination)

/-- A target is a destination, or the name of a host that is to be looked up. -/
inductive Target where
  | destination (d : Destination)
  | named (host : String) (port : UInt16)
deriving DecidableEq, Repr

namespace Target

def noColon : Fault := .fixed .invalidInput "invalid socket address"
def badPort : Fault := .fixed .invalidInput "invalid port value"

def number? (bound : Nat) (cs : List Char) : Option Nat := (Decimal.value? cs).filter (· < bound)

def port? (cs : List Char) : Option UInt16 := (number? UInt16.size cs).map UInt16.ofNat

def scope? : List Char → Option (UInt32 × List Char)
  | '%' :: cs =>
    let (ds, rest) := cs.span Decimal.isDigit
    (number? UInt32.size ds).map fun n => (UInt32.ofNat n, rest)
  | cs => some (0, cs)

/-- An address and a port behind a colon; an address with colons itself is in brackets. -/
def destination? : List Char → Option Destination
  | '[' :: cs => do
    let (a, cs) ← Address.v6? cs
    match ← scope? cs with
    | (n, ']' :: ':' :: cs) => return ⟨⟨.v6 a, ← port? cs⟩, n⟩
    | _ => none
  | cs => do
    match ← Address.dotted cs with
    | (a, ':' :: cs) => return ⟨⟨.v4 a, ← port? cs⟩, 0⟩
    | _ => none

def splitAtLastColon (cs : List Char) : Option (List Char × List Char) :=
  match cs.reverse.span (· ≠ ':') with
  | (_, []) => none
  | (back, _ :: front) => some (front.reverse, back.reverse)

def withoutPlus : List Char → List Char
  | '+' :: cs => cs
  | cs => cs

def parse (s : String) : Except Fault Target :=
  match destination? s.toList with
  | some d => .ok (.destination d)
  | none =>
    match splitAtLastColon s.toList with
    | none => .error noColon
    | some (host, port) =>
      match port? (withoutPlus port) with
      | none => .error badPort
      | some p => if '\x00' ∈ host then .error .nulByte else .ok (.named (String.ofList host) p)

def resolve (lookup : Lookup) : Target → Except Fault (List Destination)
  | .destination d => .ok [d]
  | .named host port => lookup host port

end Target

/-- What answers the calls of a probe, and what is met when the probe takes its leave. -/
structure Conversation where
  script : Script
  farewell : Option Fault := none
deriving DecidableEq, Repr

/-- Somebody who accepts connections, known by the answers to each payload. -/
structure Peer where
  place : Destination
  answer : Octets → Conversation

/-- Waits for a number of octets and then sends its data, whatever they were. It lets the
probe leave first, or resets the connection at once. A probe that sends too little waits in
vain. -/
def Peer.replying (place : Destination) (expected : Nat) (data : Octets) (resets : Bool) :
    Peer where
  place := place
  answer payload :=
    if payload.length < expected then { script := { reads := [.fail .wouldBlock] } }
    else if resets then
      { script := { reads := ReadStep.bringing data ++ [.fail .connectionReset] }
        farewell := some .notConnected }
    else { script := { reads := ReadStep.bringing data } }

/-- What a probe meets on its way: what names stand for, and who accepts it where. -/
structure Network where
  lookup : Lookup
  near : Destination → Except Fault Peer

namespace Network

def noDestination : Fault := .fixed .invalidInput "could not resolve to any addresses"

/-- Destinations are tried one after the other until one accepts; the last failure is told. -/
def firstPeer (near : Destination → Except Fault Peer) (failure : Fault) :
    List Destination → Except Fault Peer
  | [] => .error failure
  | d :: ds =>
    match near d with
    | .ok peer => .ok peer
    | .error f => firstPeer near f ds

def reach (net : Network) (target : String) : Except Fault Peer := do
  firstPeer net.near noDestination (← (← Target.parse target).resolve net.lookup)

end Network

namespace Probe

/-- The calls of a probe on its stream, what came of it, and what was logged. -/
structure Outcome (α : Type) where
  calls : List Call := []
  result : Except Fault α
  log : List Event := []

/-- The payload is written whole before the first read. -/
def exchange (payload : Octets) (c : Conversation) : List Call × Except Fault Octets :=
  let sent := Transfer.writeAll payload c.script.blocking
  match sent.result with
  | .error f => (sent.calls, .error f)
  | .ok () =>
    let got := Transfer.readExact payload.length sent.rest
    (sent.calls ++ got.calls,
      match got.result, c.farewell with
      | .ok _, some f => .error f
      | result, _ => result)

def send (target : String) (payload : Octets) (net : Network) : Outcome Octets :=
  match net.reach target with
  | .error f => { result := .error f }
  | .ok peer =>
    let (calls, result) := exchange payload (peer.answer payload)
    { calls, result, log := [.sendingProbe peer.place.text payload.length] }

def verdict (target message : String) (echoed : Octets) : Event :=
  if echoed = Utf8.encode message then .echoMatched target echoed.length
  else .echoMismatch target message (Utf8.lossy echoed)

def check (target message : String) (net : Network) : Outcome Bool :=
  let sent := send target (Utf8.encode message) net
  match sent.result with
  | .error f => { calls := sent.calls, result := .error f, log := sent.log }
  | .ok echoed =>
    { calls := sent.calls
      result := .ok (echoed = Utf8.encode message)
      log := sent.log ++ [verdict target message echoed] }

end Probe
end TcpEcho
