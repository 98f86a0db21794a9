import TcpEcho.Probe.Basic
import TcpEcho.Probe.Channel
import TcpEcho.Proofs.Relay.Pieces
/- How much a probe can send before it reads. What has left the probe is in a channel, with the
   relay, or on its way back, so a payload that both channels and one octet at the relay can hold
   always comes back, and a longer one can leave both sides waiting for room. -/
namespace TcpEcho

namespace Transfer

theorem writeAll_accept {d : Octets} {n : Nat} (some_octet : 0 < n) (fits : n ≤ d.length)
    (rs : List ReadStep) (ws : List WriteStep) :
    writeAll d ⟨rs, .accept n :: ws⟩ =
      (writeAll (d.drop n) ⟨rs, ws⟩).after (.write d (.took n)) := by
  obtain ⟨k, rfl⟩ : ∃ k, n = k + 1 := ⟨n - 1, by omega⟩
  cases d with
  | nil => cases fits
  | cons b bs =>
    have took : Script.write (b :: bs) ⟨rs, .accept (k + 1) :: ws⟩ = (.took (k + 1), ⟨rs, ws⟩) := by
      simp only [Script.write, Nat.min_eq_left fits]
    rw [writeAll]
    split <;> rename_i write <;> rw [took] at write <;> cases write
    rfl

theorem result_readExact_data {d : Octets} {n : Nat} (some_octet : d ≠ []) (fits : d.length ≤ n)
    (rs : List ReadStep) (ws : List WriteStep) :
    (readExact n ⟨.data d :: rs, ws⟩).result =
      (readExact (n - d.length) ⟨rs, ws⟩).result.map (d ++ ·) := by
  obtain ⟨b, bs, rfl⟩ := List.exists_cons_of_ne_nil some_octet
  obtain ⟨k, rfl⟩ : ∃ k, n = k + 1 := ⟨n - 1, by rw [List.length_cons] at fits; omega⟩
  have got : Script.read (k + 1) ⟨.data (b :: bs) :: rs, ws⟩ = (.got (b :: bs), ⟨rs, ws⟩) := by
    simp only [Script.read, List.drop_eq_nil_of_le fits]
  have left : k - bs.length = k + 1 - (b :: bs).length := by
    rw [List.length_cons]
    omega
  rw [readExact]
  split <;> rename_i read <;> rw [got] at read <;> cases read
  rw [← left]
  rfl

end Transfer

namespace RoundTrip

variable {j : Joint} {payload : Octets} {t u : RoundTrip}

/-- What a move can be, and what it needs. -/
inductive Moves (j : Joint) (size : Nat) (t : RoundTrip) : RoundTrip → Prop where
  | sends (n : Nat) (some_octet : 0 < n) (there : n ≤ t.unsent.length)
      (room : t.up.length + n ≤ j.up) : Moves j size t (t.send n)
  | fetches (n : Nat) (reading : t.relay.phase = .reading) (some_octet : 0 < n)
      (there : n ≤ t.up.length) (fits : n ≤ t.relay.chunkSize) : Moves j size t (t.fetch n)
  | echoes (n : Nat) (chunk : Nat) (b : UInt8) (bs : Octets)
      (writing : t.relay.phase = .writing chunk b bs) (some_octet : 0 < n)
      (there : n ≤ (b :: bs).length) (room : t.down.length + n ≤ j.down) :
      Moves j size t (t.echo chunk (b :: bs) n)
  | collects (n : Nat) (sent : t.unsent = []) (some_octet : 0 < n) (there : n ≤ t.down.length)
      (wanted : t.back.length + n ≤ size) : Moves j size t (t.collect n)

theorem exists_move_iff {size : Nat} : (∃ m, t.move j size m = some u) ↔ Moves j size t u := by
  constructor
  · intro ⟨m, moved⟩
    cases m with
    | send n =>
      simp only [move, Option.ite_none_right_eq_some, Option.some.injEq] at moved
      obtain ⟨⟨some_octet, there, room⟩, rfl⟩ := moved
      exact .sends n some_octet there room
    | fetch n =>
      simp only [move, Option.ite_none_right_eq_some, Option.some.injEq] at moved
      obtain ⟨⟨reading, some_octet, there, fits⟩, rfl⟩ := moved
      exact .fetches n reading some_octet there fits
    | echo n =>
      simp only [move] at moved
      split at moved
      · rename_i chunk b bs writing
        simp only [Option.ite_none_right_eq_some, Option.some.injEq] at moved
        obtain ⟨⟨some_octet, there, room⟩, rfl⟩ := moved
        exact .echoes n chunk b bs writing some_octet there room
      · cases moved
    | collect n =>
      simp only [move, Option.ite_none_right_eq_some, Option.some.injEq] at moved
      obtain ⟨⟨sent, some_octet, there, wanted⟩, rfl⟩ := moved
      exact .collects n sent some_octet there wanted
  · intro moves
    cases moves with
    | sends n some_octet there room =>
      exact ⟨.send n, if_pos ⟨some_octet, there, room⟩⟩
    | fetches n reading some_octet there fits =>
      exact ⟨.fetch n, if_pos ⟨reading, some_octet, there, fits⟩⟩
    | echoes n chunk b bs writing some_octet there room =>
      refine ⟨.echo n, ?_⟩
      simp only [move, writing]
      exact if_pos ⟨some_octet, there, room⟩
    | collects n sent some_octet there wanted =>
      exact ⟨.collect n, if_pos ⟨sent, some_octet, there, wanted⟩⟩

theorem isStill_iff : IsStill j payload t ↔ ∀ u, ¬ Moves j payload.length t u := by
  constructor
  · intro still u moves
    obtain ⟨m, moved⟩ := exists_move_iff.mpr moves
    rw [still m] at moved
    cases moved
  · intro stays m
    apply Option.eq_none_iff_forall_ne_some.mpr
    intro u moved
    exact stays u (exists_move_iff.mp ⟨m, moved⟩)

theorem Reachable.moves (h : Reachable j payload t) (moves : Moves j payload.length t u) :
    Reachable j payload u := by
  obtain ⟨m, moved⟩ := exists_move_iff.mpr moves
  exact h.step m moved

theorem Reachable.keeps {I : RoundTrip → Prop} (h : Reachable j payload t)
    (first : I (RoundTrip.start j payload))
    (keep : ∀ {t u}, I t → Moves j payload.length t u → I u) : I t := by
  induction h with
  | start => exact first
  | step m reached moved ih => exact keep ih (exists_move_iff.mp ⟨m, moved⟩)

/-- Every octet of the payload is somewhere, in order, and no channel holds too much. -/
structure Whole (j : Joint) (payload : Octets) (t : RoundTrip) : Prop where
  octets : t.back ++ t.down ++ t.relay.owed ++ t.up ++ t.unsent = payload
  up : t.up.length ≤ j.up
  down : t.down.length ≤ j.down
  running : t.relay.hasEnded = false
  chunkSize : t.relay.chunkSize = j.chunkSize

theorem Whole.moves (h : Whole j payload t) (moves : Moves j payload.length t u) :
    Whole j payload u := by
  obtain ⟨octets, up, down, running, chunkSize⟩ := h
  cases moves with
  | sends n some_octet there room =>
    constructor
    · simpa [send] using octets
    · simp only [send, List.length_append, List.length_take]
      omega
    · exact down
    · exact running
    · exact chunkSize
  | fetches n reading some_octet there fits =>
    obtain ⟨b, bs, front⟩ : ∃ b bs, t.up.take n = b :: bs := by
      apply List.exists_cons_of_ne_nil
      apply List.ne_nil_of_length_pos
      rw [List.length_take]
      omega
    constructor
    · rw [Relay.owed_reading reading] at octets
      simpa [fetch, Relay.owed_afterGot] using octets
    · simp only [fetch, List.length_drop]
      omega
    · exact down
    · simp only [fetch, front]
      rfl
    · exact (Relay.settings_afterRead _ _).2.trans chunkSize
  | echoes n chunk b bs writing some_octet there room =>
    obtain ⟨k, rfl⟩ : ∃ k, n = k + 1 := ⟨n - 1, by omega⟩
    obtain ⟨owed, goes_on⟩ := Relay.afterTook (r := t.relay) chunk k (b :: bs)
    constructor
    · rw [Relay.owed_writing writing] at octets
      simp only [echo, owed]
      simpa using octets
    · exact up
    · simp only [echo, List.length_append, List.length_take]
      omega
    · exact goes_on
    · exact (Relay.settings_afterWrite _ _ _ _).2.trans chunkSize
  | collects n sent some_octet there wanted =>
    constructor
    · simpa [collect] using octets
    · exact up
    · simp only [collect, List.length_drop]
      omega
    · exact running
    · exact chunkSize

theorem Reachable.whole (h : Reachable j payload t) : Whole j payload t := by
  apply h.keeps
  · constructor
    · simp [RoundTrip.start, Relay.owed]
    · exact Nat.zero_le j.up
    · exact Nat.zero_le j.down
    · rfl
    · rfl
  · exact Whole.moves

/-- The probe that runs, given the answers of a round trip, has the same octets left to send, and
in the end the same octets back. -/
structure Told (payload : Octets) (t : RoundTrip) : Prop where
  reads_ready : .pending ∉ t.answers.reads
  writes_ready : .pending ∉ t.answers.writes
  sent : ∀ rs ws,
    (Transfer.writeAll payload ⟨rs, t.answers.writes ++ ws⟩).result =
      (Transfer.writeAll t.unsent ⟨rs, ws⟩).result ∧
    (Transfer.writeAll payload ⟨rs, t.answers.writes ++ ws⟩).rest =
      (Transfer.writeAll t.unsent ⟨rs, ws⟩).rest
  got : ∀ rs ws,
    (Transfer.readExact payload.length ⟨t.answers.reads ++ rs, ws⟩).result =
      (Transfer.readExact (payload.length - t.back.length) ⟨rs, ws⟩).result.map (t.back ++ ·)

theorem Told.moves (h : Told payload t) (moves : Moves j payload.length t u) :
    Told payload u := by
  obtain ⟨reads_ready, writes_ready, sent, got⟩ := h
  -- A new answer is the first of those to the calls that were still to come.
  cases moves with
  | sends n some_octet there room =>
    constructor
    · exact reads_ready
    · simpa [send] using writes_ready
    · intro rs ws
      simp only [send, List.append_assoc, List.singleton_append]
      rw [(sent rs (.accept n :: ws)).1, (sent rs (.accept n :: ws)).2,
        Transfer.writeAll_accept some_octet there]
      exact ⟨rfl, rfl⟩
    · exact got
  | fetches => exact ⟨reads_ready, writes_ready, sent, got⟩
  | echoes => exact ⟨reads_ready, writes_ready, sent, got⟩
  | collects n unsent some_octet there wanted =>
    have front : t.down.take n ≠ [] := by
      apply List.ne_nil_of_length_pos
      rw [List.length_take]
      omega
    have size : (t.down.take n).length = n := List.length_take_of_le there
    constructor
    · simpa [collect] using reads_ready
    · exact writes_ready
    · exact sent
    · intro rs ws
      simp only [collect, List.append_assoc, List.singleton_append, List.length_append]
      rw [got, Transfer.result_readExact_data front (by omega), Nat.sub_sub]
      cases (Transfer.readExact (payload.length - (t.back.length + (t.down.take n).length))
        ⟨rs, ws⟩).result <;> rfl

theorem Reachable.told (h : Reachable j payload t) : Told payload t := by
  apply h.keeps
  · constructor
    · exact List.not_mem_nil
    · exact List.not_mem_nil
    · intro rs ws
      exact ⟨rfl, rfl⟩
    · intro rs ws
      simp only [RoundTrip.start, List.nil_append, List.length_nil, Nat.sub_zero]
      cases (Transfer.readExact payload.length ⟨rs, ws⟩).result <;> rfl
  · exact Told.moves

theorem exchange_of_returned (h : Reachable j payload t) (returned : t.back = payload)
    (sent : t.unsent = []) :
    (Probe.exchange payload { script := t.answers }).2 = .ok payload := by
  have told := h.told
  have ready : t.answers.blocking = t.answers :=
    Relay.blocking_of_ready told.reads_ready told.writes_ready
  have writes := told.sent t.answers.reads []
  have reads := told.got [] []
  rw [List.append_nil, sent] at writes
  rw [List.append_nil, returned, Nat.sub_self] at reads
  simp only [Probe.exchange, ready, writes, Transfer.writeAll, reads, Transfer.readExact]
  simp [Except.map]

def weight (t : RoundTrip) : Nat :=
  4 * t.unsent.length + 3 * t.up.length + 2 * t.relay.owed.length + t.down.length

theorem Moves.weight_lt {size : Nat} (h : Moves j size t u) : u.weight < t.weight := by
  unfold weight
  cases h with
  | sends n some_octet there room =>
    simp only [send, List.length_append, List.length_take, List.length_drop]
    omega
  | fetches n reading some_octet there fits =>
    simp only [fetch, Relay.owed_afterGot, Relay.owed_reading reading, List.length_take,
      List.length_drop, List.length_nil]
    omega
  | echoes n chunk b bs writing some_octet there room =>
    obtain ⟨k, rfl⟩ : ∃ k, n = k + 1 := ⟨n - 1, by omega⟩
    have owed := (Relay.afterTook (r := t.relay) chunk k (b :: bs)).1
    simp only [echo, owed, Relay.owed_writing writing, List.length_append, List.length_take,
      List.length_drop]
    omega
  | collects n sent some_octet there wanted =>
    simp only [collect, List.length_drop]
    omega

theorem length_add_weight_le {size : Nat} {ms : List Move}
    (h : ms.foldlM (move j size) t = some u) : ms.length + u.weight ≤ t.weight := by
  induction ms generalizing t with
  | nil =>
    cases h
    exact Nat.le_of_eq (Nat.zero_add _)
  | cons m ms ih =>
    rw [List.foldlM_cons, Option.bind_eq_bind, Option.bind_eq_some_iff] at h
    obtain ⟨v, first, rest⟩ := h
    have lighter := (exists_move_iff.mp ⟨m, first⟩).weight_lt
    have later := ih rest
    rw [List.length_cons]
    omega

theorem length_moves_le {ms : List Move}
    (h : ms.foldlM (move j payload.length) (RoundTrip.start j payload) = some u) :
    ms.length ≤ 4 * payload.length := by
  have bound := length_add_weight_le h
  have first : (RoundTrip.start j payload).weight = 4 * payload.length := rfl
  omega

theorem relay_of_still (still : IsStill j payload t) (running : t.relay.hasEnded = false)
    (chunk : 0 < t.relay.chunkSize) :
    (t.relay.owed = [] ∧ t.up = []) ∨ (0 < t.relay.owed.length ∧ j.down ≤ t.down.length) := by
  rw [isStill_iff] at still
  cases phase : t.relay.phase with
  | reading =>
    refine Or.inl ⟨Relay.owed_reading phase, ?_⟩
    cases above : t.up with
    | nil => rfl
    | cons b bs =>
      have there : 1 ≤ t.up.length := by
        rw [above]
        exact Nat.succ_pos _
      exact absurd (.fetches 1 phase Nat.one_pos there chunk) (still _)
  | writing size b bs =>
    rw [Relay.owed_writing phase]
    refine Or.inr ⟨Nat.succ_pos _, ?_⟩
    apply Nat.le_of_not_lt
    intro room
    exact still _ (.echoes 1 size b bs phase Nat.one_pos (Nat.succ_pos _) (by omega))
  | ended e =>
    rw [Relay.hasEnded_ended phase] at running
    cases running

/-- Where nobody can move, the payload is back, or both channels are full, the relay owes an octet
and the probe has one to send. -/
theorem Whole.still (h : Whole j payload t) (still : IsStill j payload t) (up : 0 < j.up)
    (down : 0 < j.down) (chunk : 0 < j.chunkSize) :
    (t.unsent = [] ∧ t.back = payload) ∨ j.up + j.down + 2 ≤ payload.length := by
  have relay := relay_of_still still h.running (h.chunkSize ▸ chunk)
  rw [isStill_iff] at still
  have total := congrArg List.length h.octets
  simp only [List.length_append] at total
  by_cases sent : t.unsent = []
  · -- The probe reads, so nothing is on its way down; then the relay can write, so it owes nothing.
    have arrived : t.back.length < payload.length → t.down.length = 0 := by
      intro short
      apply Nat.eq_zero_of_not_pos
      intro there
      exact still _ (.collects 1 sent Nat.one_pos there short)
    rcases relay with ⟨owed, above⟩ | ⟨owes, full⟩
    · refine Or.inl ⟨sent, ?_⟩
      have below : t.down = [] := by
        apply List.length_eq_zero_iff.mp
        omega
      simpa [owed, above, below, sent] using h.octets
    · omega
  · -- The probe still writes, so the way up is full; then the relay is kept from reading.
    have left := List.length_pos_iff.mpr sent
    have above : j.up ≤ t.up.length := by
      apply Nat.le_of_not_lt
      intro room
      exact still _ (.sends 1 Nat.one_pos left (by omega))
    rcases relay with ⟨owed, empty⟩ | ⟨owes, full⟩
    · rw [empty] at above
      simp only [List.length_nil] at above
      omega
    · omega

theorem Reachable.returned (h : Reachable j payload t) (still : IsStill j payload t)
    (up : 0 < j.up) (down : 0 < j.down) (chunk : 0 < j.chunkSize)
    (fits : payload.length ≤ j.up + j.down + 1) : t.unsent = [] ∧ t.back = payload := by
  rcases h.whole.still still up down chunk with returned | large
  · exact returned
  · omega

theorem moves_of_next? {size : Nat} (h : t.next? j size = some u) : Moves j size t u := by
  obtain ⟨m, -, moved⟩ := List.exists_of_findSome?_eq_some h
  exact exists_move_iff.mp ⟨m, moved⟩

theorem isStill_of_next? (h : t.next? j payload.length = none) : IsStill j payload t := by
  simp only [next?, List.findSome?_eq_none_iff, List.forall_mem_cons, move,
    ite_eq_right_iff, reduceCtorEq, imp_false] at h
  obtain ⟨sending, fetching, echoing, collecting, -⟩ := h
  rw [isStill_iff]
  intro u moves
  cases moves with
  | sends n some_octet there room => exact sending (by omega)
  | fetches n reading some_octet there fits => exact fetching ⟨reading, by omega⟩
  | echoes n chunk b bs writing some_octet there room =>
    simp only [writing, Relay.owed_writing writing, ite_eq_right_iff, reduceCtorEq,
      imp_false] at echoing
    exact echoing (by omega)
  | collects n sent some_octet there wanted => exact collecting ⟨sent, by omega⟩

theorem Reachable.goFor (h : Reachable j payload t) {fuel : Nat} (enough : t.weight ≤ fuel) :
    Reachable j payload (goFor j payload.length fuel t) ∧
      IsStill j payload (goFor j payload.length fuel t) := by
  induction fuel generalizing t with
  | zero =>
    rw [RoundTrip.goFor]
    refine ⟨h, isStill_of_next? ?_⟩
    rw [Option.eq_none_iff_forall_ne_some]
    intro u next
    have lighter := (moves_of_next? next).weight_lt
    omega
  | succ fuel ih =>
    unfold RoundTrip.goFor
    cases next : t.next? j payload.length with
    | none => exact ⟨h, isStill_of_next? next⟩
    | some u =>
      have moves := moves_of_next? next
      have lighter := moves.weight_lt
      exact ih (h.moves moves) (by omega)

theorem rest_isStill (j : Joint) (payload : Octets) :
    Reachable j payload (rest j payload) ∧ IsStill j payload (rest j payload) :=
  Reachable.start.goFor (Nat.le_refl _)

theorem Reachable.pass (h : Reachable j payload t) (room : 0 < j.up) (chunk : 0 < j.chunkSize)
    {b : UInt8} {bs : Octets} (next : t.unsent = b :: bs) (clear : t.up = [])
    (reading : t.relay.phase = .reading) :
    ∃ u, Reachable j payload u ∧ u.unsent = bs ∧ u.up = [] ∧ u.down = t.down ∧
      u.relay.phase = .writing 1 b [] := by
  have sent : (t.send 1).up = [b] := by
    simp [send, clear, next]
  have up : Reachable j payload (t.send 1) := by
    apply h.moves
    apply Moves.sends
    · exact Nat.one_pos
    · rw [next]
      exact Nat.succ_pos _
    · rw [clear]
      exact room
  refine ⟨(t.send 1).fetch 1, ?_, ?_, ?_, rfl, ?_⟩
  · apply up.moves
    apply Moves.fetches
    · exact reading
    · exact Nat.one_pos
    · rw [sent]
      exact Nat.one_pos
    · rw [up.whole.chunkSize]
      exact chunk
  · simp [fetch, send, next]
  · simp [fetch, sent]
  · simp [fetch, sent, Relay.afterRead]

theorem exists_filled (payload : Octets) (up : 0 < j.up) (chunk : 0 < j.chunkSize) (k : Nat)
    (room : k ≤ j.down) (enough : k ≤ payload.length) :
    ∃ t, Reachable j payload t ∧ t.unsent = payload.drop k ∧ t.up = [] ∧ t.down.length = k ∧
      t.relay.phase = .reading := by
  induction k with
  | zero => exact ⟨_, .start, rfl, rfl, rfl, rfl⟩
  | succ k ih =>
    obtain ⟨t, reached, unsent, clear, filled, reading⟩ := ih (by omega) (by omega)
    rw [List.drop_eq_getElem_cons (by omega)] at unsent
    obtain ⟨u, passed, left, empty, down, writing⟩ :=
      reached.pass up chunk unsent clear reading
    refine ⟨u.echo 1 [payload[k]] 1, ?_, left, empty, ?_, ?_⟩
    · apply passed.moves
      apply Moves.echoes 1 1 _ _ writing
      · exact Nat.one_pos
      · exact Nat.one_pos
      · rw [down, filled]
        exact room
    · simp [echo, down, filled]
    · simp [echo, Relay.afterWrite]

theorem isStuck_of_full (whole : Whole j payload t) (unsent : t.unsent ≠ [])
    (above : j.up ≤ t.up.length) (below : j.down ≤ t.down.length) {size : Nat} {b : UInt8}
    {bs : Octets} (writing : t.relay.phase = .writing size b bs) : IsStuck j payload t := by
  constructor
  · rw [isStill_iff]
    intro u moves
    cases moves with
    | sends n some_octet there room => omega
    | fetches n reading some_octet there fits =>
      rw [writing] at reading
      cases reading
    | echoes n size b bs writing some_octet there room => omega
    | collects n sent some_octet there wanted => exact unsent sent
  · have total := congrArg List.length whole.octets
    have left := List.length_pos_iff.mpr unsent
    simp only [List.length_append] at total
    omega

theorem exists_stuck (up : 0 < j.up) (chunk : 0 < j.chunkSize)
    (large : j.up + j.down + 2 ≤ payload.length) :
    ∃ t, Reachable j payload t ∧ IsStuck j payload t := by
  -- One octet more is in the relay's hands, and it finds no room; then the way up is filled.
  obtain ⟨t, reached, unsent, clear, filled, reading⟩ :=
    exists_filled payload up chunk j.down (Nat.le_refl _) (by omega)
  rw [List.drop_eq_getElem_cons (by omega)] at unsent
  obtain ⟨u, passed, left, empty, down, writing⟩ := reached.pass up chunk unsent clear reading
  have size : u.unsent.length = payload.length - (j.down + 1) := by
    rw [left, List.length_drop]
  have full : Reachable j payload (u.send j.up) := by
    apply passed.moves
    apply Moves.sends
    · exact up
    · omega
    · rw [empty]
      exact Nat.le_of_eq (Nat.zero_add _)
  refine ⟨u.send j.up, full, isStuck_of_full full.whole ?_ ?_ ?_ writing⟩
  · apply List.ne_nil_of_length_pos
    simp only [send, List.length_drop]
    omega
  · simp only [send, List.length_append, List.length_take]
    omega
  · simp only [send, down, filled]
    exact Nat.le_refl _

/-- A payload always comes back if the channels and one octet at the relay can hold it, whoever
moves when and however far; a payload that is longer can leave the probe and the relay waiting for
each other. -/
theorem stuck_threshold (up : 0 < j.up) (down : 0 < j.down) (chunk : 0 < j.chunkSize)
    (payload : Octets) :
    (payload.length ≤ j.up + j.down + 1 → ∀ t, Reachable j payload t →
      ¬ IsStuck j payload t ∧ (IsStill j payload t → t.back = payload ∧
        (Probe.exchange payload { script := t.answers }).2 = .ok payload)) ∧
    (j.up + j.down + 2 ≤ payload.length → ∃ t, Reachable j payload t ∧ IsStuck j payload t) := by
  constructor
  · intro fits t reached
    constructor
    · intro ⟨still, short⟩
      obtain ⟨-, back⟩ := reached.returned still up down chunk fits
      rw [back] at short
      exact Nat.lt_irrefl _ short
    · intro still
      obtain ⟨sent, back⟩ := reached.returned still up down chunk fits
      exact ⟨back, exchange_of_returned reached back sent⟩
  · exact exists_stuck up chunk

def narrow : Joint := ⟨1, 1, .blocking, 8⟩

theorem stuck_from_four_octets :
    (0 < narrow.up ∧ 0 < narrow.down ∧ 0 < narrow.chunkSize) ∧
    (∀ t, Reachable narrow [1, 2, 3] t → ¬ IsStuck narrow [1, 2, 3] t ∧
      (IsStill narrow [1, 2, 3] t → t.back = [1, 2, 3] ∧
        (Probe.exchange [1, 2, 3] { script := t.answers }).2 = .ok [1, 2, 3])) ∧
    ∃ t, Reachable narrow [1, 2, 3, 4] t ∧ IsStuck narrow [1, 2, 3, 4] t := by
  have up : 0 < narrow.up := by decide
  have down : 0 < narrow.down := by decide
  have chunk : 0 < narrow.chunkSize := by decide
  refine ⟨⟨up, down, chunk⟩, ?_, ?_⟩
  · exact (stuck_threshold up down chunk [1, 2, 3]).1 (by decide)
  · exact (stuck_threshold up down chunk [1, 2, 3, 4]).2 (by decide)

end RoundTrip

end TcpEcho
