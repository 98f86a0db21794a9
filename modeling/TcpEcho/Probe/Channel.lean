import TcpEcho.Probe.Basic
/- A probe and a relay joined by two channels that hold only so much: the steps that either
   side can take, each moving any number of octets that there is room for. -/
namespace TcpEcho

/-- How many octets each channel holds, up to the relay and down from it, and the relay's mode
and the octets it reads at a time. -/
structure Joint where
  up : Nat
  down : Nat
  mode : Mode
  chunkSize : Nat
deriving DecidableEq, Repr

/-- The octets of a payload by where they are: with the probe before sending, on the way up,
owed by the relay, on the way down, and back with the probe. -/
structure RoundTrip where
  unsent : Octets
  up : Octets := []
  relay : Relay
  down : Octets := []
  back : Octets := []
  /-- What the calls of the probe have been answered. -/
  answers : Script := {}
deriving DecidableEq, Repr

namespace RoundTrip

/-- The moves of the probe and of the relay, each a call that is answered. The probe reads only
when everything is sent, the relay only when its chunk is written. -/
inductive Move where
  | send (n : Nat)
  | fetch (n : Nat)
  | echo (n : Nat)
  | collect (n : Nat)
deriving DecidableEq, Repr

def send (t : RoundTrip) (n : Nat) : RoundTrip :=
  { t with
    unsent := t.unsent.drop n
    up := t.up ++ t.unsent.take n
    answers := { t.answers with writes := t.answers.writes ++ [.accept n] } }

def fetch (t : RoundTrip) (n : Nat) : RoundTrip :=
  { t with up := t.up.drop n, relay := t.relay.afterRead (.got (t.up.take n)) }

def echo (t : RoundTrip) (size : Nat) (owed : Octets) (n : Nat) : RoundTrip :=
  { t with relay := t.relay.afterWrite size owed (.took n), down := t.down ++ owed.take n }

def collect (t : RoundTrip) (n : Nat) : RoundTrip :=
  { t with
    down := t.down.drop n
    back := t.back ++ t.down.take n
    answers := { t.answers with reads := t.answers.reads ++ [.data (t.down.take n)] } }

/-- What a move makes of the round trip of a payload of so many octets, or nothing if the
move has to wait. -/
def move (j : Joint) (size : Nat) (t : RoundTrip) : Move → Option RoundTrip
  | .send n =>
    if 0 < n ∧ n ≤ t.unsent.length ∧ t.up.length + n ≤ j.up then some (t.send n) else none
  | .fetch n =>
    if t.relay.phase = .reading ∧ 0 < n ∧ n ≤ t.up.length ∧ n ≤ t.relay.chunkSize then
      some (t.fetch n)
    else none
  | .echo n =>
    match t.relay.phase with
    | .writing chunk b bs =>
      if 0 < n ∧ n ≤ (b :: bs).length ∧ t.down.length + n ≤ j.down then
        some (t.echo chunk (b :: bs) n)
      else none
    | _ => none
  | .collect n =>
    if t.unsent = [] ∧ 0 < n ∧ n ≤ t.down.length ∧ t.back.length + n ≤ size then
      some (t.collect n)
    else none

def start (j : Joint) (payload : Octets) : RoundTrip where
  unsent := payload
  relay := { mode := j.mode, chunkSize := j.chunkSize }

inductive Reachable (j : Joint) (payload : Octets) : RoundTrip → Prop where
  | start : Reachable j payload (start j payload)
  | step {t u : RoundTrip} (m : Move) : Reachable j payload t →
      t.move j payload.length m = some u → Reachable j payload u

def IsStill (j : Joint) (payload : Octets) (t : RoundTrip) : Prop :=
  ∀ m, t.move j payload.length m = none

def IsStuck (j : Joint) (payload : Octets) (t : RoundTrip) : Prop :=
  IsStill j payload t ∧ t.back.length < payload.length

/-- A move of somebody who can move, of as many octets as can be moved at once. -/
def next? (j : Joint) (size : Nat) (t : RoundTrip) : Option RoundTrip :=
  [Move.send (min t.unsent.length (j.up - t.up.length)),
    .fetch (min t.up.length t.relay.chunkSize),
    .echo (min t.relay.owed.length (j.down - t.down.length)),
    .collect (min t.down.length (size - t.back.length))].findSome? (t.move j size)

def goFor (j : Joint) (size : Nat) : Nat → RoundTrip → RoundTrip
  | 0, t => t
  | fuel + 1, t =>
    match t.next? j size with
    | some t => goFor j size fuel t
    | none => t

/-- The round trip of a payload when it has come to rest. Each octet takes four moves at most. -/
def rest (j : Joint) (payload : Octets) : RoundTrip :=
  goFor j payload.length (4 * payload.length) (start j payload)

end RoundTrip

namespace Peer

/-- The peer is a relay behind two channels: the probe is answered what it was answered in some
round trip of its payload that has come to rest. -/
def Relays (peer : Peer) (j : Joint) (payload : Octets) : Prop :=
  ∃ t, RoundTrip.Reachable j payload t ∧ RoundTrip.IsStill j payload t ∧
    peer.answer payload = { script := t.answers }

def relaying (place : Destination) (j : Joint) : Peer where
  place := place
  answer payload := { script := (RoundTrip.rest j payload).answers }

end Peer
end TcpEcho
