import TcpEcho.Proofs.Probe.RoundTrip
import TcpEcho.Proofs.Relay.Outcome
/- What a probe makes of the octets that its peer delivers: it takes as many as it sent and
   compares them, however they arrive. What a relay delivers is always what was sent. -/
namespace TcpEcho

namespace WriteStep

/-- So many octets are taken before a write takes nothing or fails for good. -/
def Takes : Nat → List WriteStep → Prop
  | 0, _ => True
  | _ + 1, [] => True
  | n + 1, .accept k :: ws => 0 < k ∧ Takes (n + 1 - k) ws
  | n + 1, .fail f :: ws => f.isInterrupt = true ∧ Takes (n + 1) ws
  | n + 1, .pending :: ws => Takes (n + 1) ws

theorem takes_zero (ws : List WriteStep) : Takes 0 ws := by
  simp only [Takes]

theorem takes_nil (n : Nat) : Takes n [] := by
  cases n <;> trivial

theorem takes_ready {n : Nat} {ws : List WriteStep} (h : Takes n ws) :
    Takes n (ws.filter (· ≠ .pending)) := by
  induction ws generalizing n with
  | nil => exact h
  | cons w ws ih =>
    cases n with
    | zero => exact takes_zero _
    | succ n =>
      cases w with
      | accept k => exact ⟨h.1, ih h.2⟩
      | fail f => exact ⟨h.1, ih h.2⟩
      | pending => exact ih h

def Leaves (offered : Octets) (ws : List WriteStep) : WriteOutcome → Prop
  | .took n => 0 < n ∧ Takes (offered.drop n).length ws
  | .failed f => f.isInterrupt = true ∧ Takes offered.length ws
  | .pending => Takes offered.length ws

end WriteStep

theorem Script.leaves_of_write {s s' : Script} {d : Octets} {o : WriteOutcome}
    (some_octet : d ≠ []) (h : WriteStep.Takes d.length s.writes)
    (write : s.write d = (o, s')) : WriteStep.Leaves d s'.writes o ∧ s'.reads = s.reads := by
  have positive := List.length_pos_iff.mpr some_octet
  obtain ⟨n, size⟩ : ∃ n, d.length = n + 1 := ⟨d.length - 1, by omega⟩
  obtain ⟨reads, writes⟩ := s
  rw [size] at h
  cases writes with
  | nil =>
    cases write
    exact ⟨⟨positive, WriteStep.takes_nil _⟩, rfl⟩
  | cons w ws =>
    cases w with
    | accept k =>
      cases write
      have left : (d.drop (min k d.length)).length = n + 1 - k := by
        rw [List.length_drop]
        omega
      refine ⟨⟨?_, ?_⟩, rfl⟩
      · have takes_some : 0 < k := h.1
        omega
      · rw [left]
        exact h.2
    | fail f =>
      cases write
      exact ⟨⟨h.1, size ▸ h.2⟩, rfl⟩
    | pending =>
      cases write
      refine ⟨?_, rfl⟩
      rw [WriteStep.Leaves, size]
      exact h

theorem octetsOut_cons (c : Call) (cs : List Call) :
    octetsOut (c :: cs) = c.written ++ octetsOut cs := List.flatMap_cons

namespace Transfer

theorem writeAll_eq (d : Octets) (s : Script) (whole : WriteStep.Takes d.length s.writes) :
    (writeAll d s).result = .ok () ∧ octetsOut (writeAll d s).calls = d ∧
      (writeAll d s).rest.reads = s.reads := by
  fun_induction writeAll d s with
  | case1 => exact ⟨rfl, rfl, rfl⟩
  | case2 s b bs s' write =>
    obtain ⟨⟨some_taken, -⟩, -⟩ := Script.leaves_of_write (List.cons_ne_nil b bs) whole write
    cases some_taken
  | case3 s b bs n s' write ih =>
    -- What was taken stands in front of what the rest of the buffer comes to.
    obtain ⟨⟨-, rest⟩, reads⟩ := Script.leaves_of_write (List.cons_ne_nil b bs) whole write
    obtain ⟨result, written, left⟩ := ih rest
    refine ⟨result, ?_, left.trans reads⟩
    rw [after, octetsOut_cons, Call.written, written, List.take_append_drop]
  | case4 s b bs f s' write again ih =>
    obtain ⟨⟨-, rest⟩, reads⟩ := Script.leaves_of_write (List.cons_ne_nil b bs) whole write
    obtain ⟨result, written, left⟩ := ih rest
    exact ⟨result, written, left.trans reads⟩
  | case5 s b bs f s' write final =>
    obtain ⟨⟨again, -⟩, -⟩ := Script.leaves_of_write (List.cons_ne_nil b bs) whole write
    exact absurd again final
  | case6 s b bs s' write ih =>
    obtain ⟨rest, reads⟩ := Script.leaves_of_write (List.cons_ne_nil b bs) whole write
    obtain ⟨result, written, left⟩ := ih rest
    exact ⟨result, written, left.trans reads⟩

theorem octetsOut_readExact (n : Nat) (s : Script) : octetsOut (readExact n s).calls = [] := by
  fun_induction readExact n s with
  | case1 => rfl
  | case2 => rfl
  | case3 s n b bs s' read ih => exact ih
  | case4 s n f s' read again ih => exact ih
  | case5 => rfl
  | case6 s n s' read ih => exact ih

/-- What a read of so many octets comes to on input that ends without a failure. -/
def exactly (n : Nat) (d : Octets) : Except Fault Octets :=
  if n ≤ d.length then .ok (d.take n) else .error .cutShort

theorem exactly_append {n : Nat} {front : Octets} (short : front.length ≤ n) (d : Octets) :
    (exactly (n - front.length) d).map (front ++ ·) = exactly n (front ++ d) := by
  unfold exactly
  by_cases enough : n ≤ (front ++ d).length
  · rw [if_pos enough, if_pos (by rw [List.length_append] at enough; omega), List.take_append,
      List.take_of_length_le short]
    rfl
  · rw [if_neg enough, if_neg (by rw [List.length_append] at enough; omega)]
    rfl

theorem readExact_eq (n : Nat) (s : Script) (closes : s.input.fault = none) :
    (readExact n s).result = exactly n s.input.data := by
  fun_induction readExact n s with
  | case1 => rfl
  | case2 s n s' read =>
    have at_end : s.input = ⟨[], none⟩ := Script.meets_of_read (Nat.add_one_pos n) read
    rw [at_end]
    rfl
  | case3 s n b bs s' read ih =>
    -- The same octets are missing from the rest of the input as from the rest of the buffer.
    have short : (b :: bs).length ≤ n + 1 := Script.length_le_of_read read
    have meets := Script.meets_of_read (Nat.add_one_pos n) read
    have left : n - bs.length = n + 1 - (b :: bs).length := by
      rw [List.length_cons]
      omega
    rw [after, join, ih (meets.2 ▸ closes), left, exactly_append short,
      meets.data (Nat.add_one_pos n)]
  | case4 s n f s' read again ih =>
    have meets := Script.meets_of_read (Nat.add_one_pos n) read
    rw [Input.Meets, if_pos again] at meets
    rw [meets] at closes ⊢
    exact ih closes
  | case5 s n f s' read final =>
    have meets := Script.meets_of_read (Nat.add_one_pos n) read
    rw [Input.Meets, if_neg final] at meets
    rw [meets] at closes
    cases closes
  | case6 s n s' read ih =>
    have same : s.input = s'.input := Script.meets_of_read (Nat.add_one_pos n) read
    rw [same] at closes ⊢
    exact ih closes

end Transfer

/-- The peer takes the payload whole, delivers these octets in return, and closes. -/
structure Peer.Delivers (peer : Peer) (payload d : Octets) : Prop where
  takes : WriteStep.Takes payload.length (peer.answer payload).script.writes
  data : (peer.answer payload).script.input.data = d
  closes : (peer.answer payload).script.input.fault = none
  stays : (peer.answer payload).farewell = none

theorem Peer.delivers_of_answer {peer : Peer} {payload d : Octets}
    (answer : peer.answer payload = { script := { reads := ReadStep.bringing d } }) :
    peer.Delivers payload d := by
  constructor
  · rw [answer]
    exact WriteStep.takes_nil _
  · rw [answer]
    cases d with
    | nil => rfl
    | cons b bs => exact List.append_nil (b :: bs)
  · rw [answer]
    cases d <;> rfl
  · rw [answer]

namespace Network

variable {near : Destination → Except Fault Peer} {peer : Peer}

theorem firstPeer_eq_ok {f : Fault} {ds : List Destination} :
    firstPeer near f ds = .ok peer ↔ ∃ before d after, ds = before ++ d :: after ∧
      (∀ e ∈ before, ∃ g, near e = .error g) ∧ near d = .ok peer := by
  induction ds generalizing f with
  | nil => simp [firstPeer]
  | cons d ds ih =>
    rw [firstPeer]
    cases met : near d with
    | ok other =>
      constructor
      · rintro ⟨⟩
        exact ⟨[], d, ds, rfl, nofun, met⟩
      · rintro ⟨before, e, after, split, refused, accepts⟩
        -- Nobody before the one that accepts does, so it is the first.
        cases before with
        | nil =>
          cases split
          rw [met] at accepts
          exact accepts
        | cons b before =>
          cases split
          obtain ⟨g, no⟩ := refused d List.mem_cons_self
          rw [met] at no
          cases no
    | error g =>
      rw [ih]
      constructor
      · rintro ⟨before, e, after, rfl, refused, accepts⟩
        exact ⟨d :: before, e, after, rfl,
          List.forall_mem_cons.mpr ⟨⟨g, met⟩, refused⟩, accepts⟩
      · rintro ⟨before, e, after, split, refused, accepts⟩
        cases before with
        | nil =>
          cases split
          rw [met] at accepts
          cases accepts
        | cons b before =>
          cases split
          exact ⟨before, e, after, rfl, (List.forall_mem_cons.mp refused).2, accepts⟩

/-- The peer of a target is the first that accepts, of all that the target stands for. -/
theorem reach_eq_ok {net : Network} {target : String} :
    net.reach target = .ok peer ↔ ∃ t before d after, Target.parse target = .ok t ∧
      t.resolve net.lookup = .ok (before ++ d :: after) ∧
      (∀ e ∈ before, ∃ g, net.near e = .error g) ∧ net.near d = .ok peer := by
  unfold reach
  cases parsed : Target.parse target with
  | error f => simp [Bind.bind, Except.bind]
  | ok t =>
    cases resolved : t.resolve net.lookup with
    | error f => simp [Bind.bind, Except.bind, resolved]
    | ok ds =>
      simp only [Bind.bind, Except.bind, resolved, firstPeer_eq_ok, Except.ok.injEq]
      constructor
      · rintro ⟨before, d, after, split, accepts⟩
        exact ⟨t, before, d, after, rfl, split ▸ resolved, accepts⟩
      · rintro ⟨t, before, d, after, rfl, same, accepts⟩
        rw [resolved] at same
        exact ⟨before, d, after, Except.ok.inj same, accepts⟩

end Network

namespace Probe

theorem exchange_eq {peer : Peer} {payload d : Octets} (h : peer.Delivers payload d) :
    octetsOut (exchange payload (peer.answer payload)).1 = payload ∧
      (exchange payload (peer.answer payload)).2 = Transfer.exactly payload.length d := by
  generalize same : peer.answer payload = c
  obtain ⟨whole, data, closes, stays⟩ := h
  rw [same] at whole data closes stays
  have input : c.script.blocking.input = c.script.input := c.script.input_script .blocking
  obtain ⟨result, written, reads⟩ :=
    Transfer.writeAll_eq payload c.script.blocking (WriteStep.takes_ready whole)
  have rest : (Transfer.writeAll payload c.script.blocking).rest.input = c.script.input := by
    rw [← input, Script.input, reads, Script.input]
  have got := Transfer.readExact_eq payload.length
    (Transfer.writeAll payload c.script.blocking).rest (by rw [rest]; exact closes)
  rw [rest, data] at got
  simp only [exchange, result, stays, got]
  constructor
  · rw [octetsOut, List.flatMap_append, ← octetsOut, ← octetsOut, written,
      Transfer.octetsOut_readExact, List.append_nil]
  · cases Transfer.exactly payload.length d <;> rfl

theorem send_eq {target : String} {net : Network} {peer : Peer}
    (reached : net.reach target = .ok peer) {payload d : Octets}
    (delivers : peer.Delivers payload d) :
    octetsOut (send target payload net).calls = payload ∧
      (send target payload net).result = Transfer.exactly payload.length d ∧
      (send target payload net).log = [.sendingProbe peer.place.text payload.length] := by
  obtain ⟨written, result⟩ := exchange_eq delivers
  simp only [send, reached]
  exact ⟨written, result, trivial⟩

theorem check_of_sent {target message : String} {net : Network} {echoed : Octets}
    (sent : (send target (Utf8.encode message) net).result = .ok echoed) :
    check target message net =
      { calls := (send target (Utf8.encode message) net).calls
        result := .ok (echoed = Utf8.encode message)
        log := (send target (Utf8.encode message) net).log ++
          [verdict target message echoed] } := by
  simp only [check, sent]

theorem check_of_failed {target message : String} {net : Network} {f : Fault}
    (failed : (send target (Utf8.encode message) net).result = .error f) :
    check target message net =
      { calls := (send target (Utf8.encode message) net).calls
        result := .error f
        log := (send target (Utf8.encode message) net).log } := by
  simp only [check, failed]

theorem check_of_exchange {target message : String} {net : Network} {peer : Peer}
    (reached : net.reach target = .ok peer)
    (returned : (exchange (Utf8.encode message) (peer.answer (Utf8.encode message))).2 =
      .ok (Utf8.encode message)) :
    (check target message net).result = .ok true ∧
      (check target message net).log =
        [.sendingProbe peer.place.text (Utf8.encode message).length,
          .echoMatched target (Utf8.encode message).length] := by
  have sent : (send target (Utf8.encode message) net).result = .ok (Utf8.encode message) := by
    simp only [send, reached]
    exact returned
  have log : (send target (Utf8.encode message) net).log =
      [.sendingProbe peer.place.text (Utf8.encode message).length] := by
    simp only [send, reached]
  rw [check_of_sent sent, log]
  simp [verdict]

theorem check_of_front {target message : String} {net : Network} {peer : Peer}
    (reached : net.reach target = .ok peer) {d : Octets}
    (delivers : peer.Delivers (Utf8.encode message) d)
    (whole : Utf8.encode message <+: d) :
    (check target message net).result = .ok true ∧
      (check target message net).log =
        [.sendingProbe peer.place.text (Utf8.encode message).length,
          .echoMatched target (Utf8.encode message).length] := by
  obtain ⟨-, returned⟩ := exchange_eq delivers
  have front := List.prefix_iff_eq_take.mp whole
  rw [Transfer.exactly, if_pos whole.length_le, ← front] at returned
  exact check_of_exchange reached returned

theorem check_of_mismatch {target message : String} {net : Network} {peer : Peer}
    (reached : net.reach target = .ok peer) {d : Octets}
    (delivers : peer.Delivers (Utf8.encode message) d)
    (enough : (Utf8.encode message).length ≤ d.length) (differ : ¬ Utf8.encode message <+: d) :
    (check target message net).result = .ok false ∧
      (check target message net).log =
        [.sendingProbe peer.place.text (Utf8.encode message).length,
          .echoMismatch target message (Utf8.lossy (d.take (Utf8.encode message).length))] := by
  obtain ⟨-, result, log⟩ := send_eq reached delivers
  have other : d.take (Utf8.encode message).length ≠ Utf8.encode message := by
    intro same
    exact differ (List.prefix_iff_eq_take.mpr same.symm)
  rw [Transfer.exactly, if_pos enough] at result
  rw [check_of_sent result, log]
  simp [verdict, other]

theorem check_of_short {target message : String} {net : Network} {peer : Peer}
    (reached : net.reach target = .ok peer) {d : Octets}
    (delivers : peer.Delivers (Utf8.encode message) d)
    (short : d.length < (Utf8.encode message).length) :
    (check target message net).result = .error .cutShort ∧
      (check target message net).log =
        [.sendingProbe peer.place.text (Utf8.encode message).length] := by
  obtain ⟨-, result, log⟩ := send_eq reached delivers
  rw [Transfer.exactly, if_neg (by omega)] at result
  rw [check_of_failed result]
  exact ⟨rfl, log⟩

theorem check_of_relay {target message : String} {net : Network} {peer : Peer} {j : Joint}
    (reached : net.reach target = .ok peer) (up : 0 < j.up) (down : 0 < j.down)
    (chunk : 0 < j.chunkSize) (fits : (Utf8.encode message).length ≤ j.up + j.down + 1)
    (relays : peer.Relays j (Utf8.encode message)) :
    (check target message net).result = .ok true ∧
      (check target message net).log =
        [.sendingProbe peer.place.text (Utf8.encode message).length,
          .echoMatched target (Utf8.encode message).length] := by
  obtain ⟨t, round, still, answer⟩ := relays
  obtain ⟨sent, back⟩ := round.returned still up down chunk fits
  apply check_of_exchange reached
  rw [answer]
  exact RoundTrip.exchange_of_returned round back sent

/-- The probe of a peer that is found at once or by its name, takes all, delivers some octets and
closes. The probe returns the first octets of what is delivered, as many as it sent, or fails if
they are too few; the check is whether the message stands in front of what is delivered. A relay
passes it, whoever moves when, if the message fits into the channels to and from it. What a relay
has written before the end of its input would pass it too, delivered in any pieces. -/
theorem check_of_delivery (target : String) (net : Network) (peer : Peer)
    (reached : net.reach target = .ok peer) :
    (∀ payload d, peer.Delivers payload d →
      octetsOut (send target payload net).calls = payload ∧
      (payload.length ≤ d.length →
        (send target payload net).result = .ok (d.take payload.length)) ∧
      (d.length < payload.length →
        ∃ f, (send target payload net).result = .error f ∧ f.kind = .unexpectedEof)) ∧
    (∀ message d, peer.Delivers (Utf8.encode message) d →
      ((check target message net).result = .ok true ↔ Utf8.encode message <+: d) ∧
      (Utf8.encode message <+: d → (check target message net).log =
        [.sendingProbe peer.place.text (Utf8.encode message).length,
          .echoMatched target (Utf8.encode message).length]) ∧
      ((Utf8.encode message).length ≤ d.length → ¬ Utf8.encode message <+: d →
        (check target message net).result = .ok false ∧ (check target message net).log =
          [.sendingProbe peer.place.text (Utf8.encode message).length,
            .echoMismatch target message (Utf8.lossy (d.take (Utf8.encode message).length))]) ∧
      (d.length < (Utf8.encode message).length →
        (check target message net).result = .error .cutShort)) ∧
    (∀ message j, 0 < j.up → 0 < j.down → 0 < j.chunkSize →
      (Utf8.encode message).length ≤ j.up + j.down + 1 → peer.Relays j (Utf8.encode message) →
      (check target message net).result = .ok true ∧ (check target message net).log =
        [.sendingProbe peer.place.text (Utf8.encode message).length,
          .echoMatched target (Utf8.encode message).length]) ∧
    ∀ message mode size s, 0 < size → s.TakesAll → s.input.data = Utf8.encode message →
      s.input.fault = none →
      ∃ before room, (Relay.run mode size s).calls = before ++ [.read room (.got [])] ∧
        (peer.Delivers (Utf8.encode message) (octetsOut before) →
          (check target message net).result = .ok true) := by
  refine ⟨?_, ?_, ?_, ?_⟩
  · intro payload d delivers
    obtain ⟨written, result, -⟩ := send_eq reached delivers
    refine ⟨written, ?_, ?_⟩
    · intro enough
      rw [result, Transfer.exactly, if_pos enough]
    · intro short
      rw [result, Transfer.exactly, if_neg (by omega)]
      exact ⟨.cutShort, rfl, rfl⟩
  · intro message d delivers
    refine ⟨⟨?_, ?_⟩, ?_, ?_, ?_⟩
    · intro matched
      by_contra differ
      by_cases enough : (Utf8.encode message).length ≤ d.length
      · rw [(check_of_mismatch reached delivers enough differ).1] at matched
        cases matched
      · rw [(check_of_short reached delivers (by omega)).1] at matched
        cases matched
    · intro whole
      exact (check_of_front reached delivers whole).1
    · intro whole
      exact (check_of_front reached delivers whole).2
    · intro enough differ
      exact check_of_mismatch reached delivers enough differ
    · intro short
      exact (check_of_short reached delivers short).1
  · intro message j up down chunk fits relays
    exact check_of_relay reached up down chunk fits relays
  · intro message mode size s positive takes data closes
    obtain ⟨before, room, last, written⟩ := Relay.written_before_end mode positive takes closes
    rw [data] at written
    refine ⟨before, room, last, ?_⟩
    intro delivers
    exact (check_of_front reached delivers (written ▸ List.prefix_refl _)).1

def parrot : Peer := .replying ⟨⟨.v4 ⟨127, 0, 0, 1⟩, 7⟩, 0⟩ 0 (Utf8.encode "pingpong") false

def twoAddresses (port : UInt16) : List Destination :=
  [⟨⟨.v6 ⟨[0, 0, 0, 0, 0, 0, 0, 1], rfl⟩, port⟩, 0⟩, ⟨⟨.v4 ⟨127, 0, 0, 1⟩, port⟩, 0⟩]

/-- A network with one name and one peer, which accepts under the second address. -/
def onePeer (peer : Peer) : Network where
  lookup host port := if host = "localhost" then .ok (twoAddresses port) else .ok []
  near
    | ⟨⟨.v4 _, 7⟩, _⟩ => .ok peer
    | _ => .error .connectionRefused

theorem reach_onePeer (peer : Peer) : (onePeer peer).reach "localhost:7" = .ok peer := by
  have named : Target.parse "localhost:7" = .ok (.named "localhost" 7) := by
    with_unfolding_all rfl
  refine Network.reach_eq_ok.mpr ⟨_, [_], _, [], named, rfl, ?_, rfl⟩
  intro e member
  rw [List.mem_singleton.mp member]
  exact ⟨_, rfl⟩

theorem parrot_delivers (payload : Octets) :
    parrot.Delivers payload (Utf8.encode "pingpong") := Peer.delivers_of_answer rfl

def tight : Joint := ⟨1, 2, .nonblocking, 2⟩

theorem check_of_parrot :
    (onePeer parrot).reach "localhost:7" = .ok parrot ∧
    (check "localhost:7" "ping" (onePeer parrot)).result = .ok true ∧
    (check "localhost:7" "pong" (onePeer parrot)).result = .ok false ∧
    (check "localhost:7" "pingpong!" (onePeer parrot)).result = .error .cutShort ∧
    (check "localhost:7" "ping" (onePeer (.relaying parrot.place tight))).result = .ok true := by
  obtain ⟨-, checked, -, -⟩ := check_of_delivery _ _ _ (reach_onePeer parrot)
  obtain ⟨-, -, relayed, -⟩ :=
    check_of_delivery _ _ _ (reach_onePeer (.relaying parrot.place tight))
  refine ⟨reach_onePeer parrot, ?_, ?_, ?_, ?_⟩
  · exact (checked "ping" _ (parrot_delivers _)).1.mpr (by decide)
  · exact ((checked "pong" _ (parrot_delivers _)).2.2.1 (by decide) (by decide)).1
  · exact (checked "pingpong!" _ (parrot_delivers _)).2.2.2 (by decide)
  · exact (relayed "ping" tight (by decide) (by decide) (by decide) (by decide)
      ⟨_, (RoundTrip.rest_isStill _ _).1, (RoundTrip.rest_isStill _ _).2, rfl⟩).1

end Probe

end TcpEcho
