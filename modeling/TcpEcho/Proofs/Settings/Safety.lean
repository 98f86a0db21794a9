import TcpEcho.Proofs.Relay.Discipline
import TcpEcho.Proofs.Server.Launch
import TcpEcho.Proofs.Settings.Load
/- What a server can rely on once its settings were loaded: that there can be so many permits as it
   is to hand out, and that a read that brings nothing has met the end of the stream. A chunk size of
   nought would make every first read look like that. -/
namespace TcpEcho

namespace Script

/-- Reads of the stream bring nothing only when all its data has come. -/
def EndsLate (s : Script) : Prop :=
  ∀ before after, s.reads = before ++ .data [] :: after → after.flatMap ReadStep.octets = []

theorem EndsLate.tail {r : ReadStep} {rs : List ReadStep} {ws vs : List WriteStep}
    (h : EndsLate ⟨r :: rs, ws⟩) : EndsLate ⟨rs, vs⟩ := by
  intro before after cut
  have cut : rs = before ++ .data [] :: after := cut
  exact h (r :: before) after (by rw [cut]; rfl)

theorem EndsLate.read {room : Nat} {o : ReadOutcome} {s t : Script} (h : s.EndsLate)
    (read : s.read room = (o, t)) : t.EndsLate := by
  obtain ⟨reads, writes⟩ := s
  unfold Script.read at read
  split at read
  · cases read
    exact h
  · rename_i d rs e
    cases e
    split at read
    · cases read
      exact h.tail
    · cases read
      -- What is left of the step is not empty, so an empty step is one behind it.
      rename_i b bs left
      intro before after cut
      cases before with
      | nil => cases cut
      | cons r before =>
        have behind : rs = before ++ .data [] :: after := (List.cons.inj cut).2
        exact h (.data d :: before) after (by rw [behind]; rfl)
  · rename_i f rs e
    cases e
    cases read
    exact h.tail
  · rename_i rs e
    cases e
    cases read
    exact h.tail

theorem EndsLate.write {offered : Octets} {o : WriteOutcome} {s t : Script} (h : s.EndsLate)
    (write : s.write offered = (o, t)) : t.EndsLate := by
  have same := reads_write offered s
  rw [write] at same
  intro before after cut
  exact h before after (same.symm.trans cut)

theorem flatMap_octets_ready (rs : List ReadStep) :
    (rs.filter (· ≠ .pending)).flatMap ReadStep.octets = rs.flatMap ReadStep.octets :=
  unread_blocking ⟨rs, []⟩

theorem EndsLate.script {s : Script} (h : s.EndsLate) (mode : Mode) : (mode.script s).EndsLate := by
  cases mode with
  | blocking =>
    intro before after cut
    have cut : s.reads.filter (· ≠ .pending) = before ++ .data [] :: after := cut
    obtain ⟨front, back, whole, -, behind⟩ := List.filter_eq_append_iff.mp cut
    obtain ⟨skipped, later, split, -, -, rest⟩ := List.filter_eq_cons_iff.mp behind
    rw [← rest, flatMap_octets_ready]
    refine h (front ++ skipped) later ?_
    rw [whole, split, List.append_assoc]
  | nonblocking => exact h

theorem unread_of_read_nil {room : Nat} (positive : 0 < room) {s t : Script} (h : s.EndsLate)
    (read : s.read room = (.got [], t)) : t.unread = [] := by
  obtain ⟨reads, writes⟩ := s
  unfold Script.read at read
  split at read
  · rename_i e
    cases e
    cases read
    rfl
  · rename_i d rs e
    cases e
    split at read
    · cases read
      exact h [] rs rfl
    · rename_i b bs left
      have nothing : d.take room = [] := by simpa using congrArg Prod.fst read
      rcases List.take_eq_nil_iff.mp nothing with zero | empty
      · omega
      · rw [empty, List.drop_nil] at left
        cases left
  · cases read
  · cases read

end Script

theorem Ending.Reports.ne_peerClosed {e : Ending} {bytes chunks : Nat} {f : Fault} {sm : Summary}
    (h : e.Reports bytes chunks f) (closed : e = .closed sm) : sm.reason ≠ .peerClosed := by
  subst closed
  cases kind : f.kind.isDisconnect with
  | true =>
    cases h.1 kind
    exact nofun
  | false => cases h.2 kind

namespace Relay

theorem unread_of_peerClosed (mode : Mode) {chunkSize : Nat} (positive : 0 < chunkSize)
    {s : Script} (late : s.EndsLate) {bytes chunks : Nat}
    (closed : (run mode chunkSize s).ending = .closed ⟨bytes, chunks, .peerClosed⟩) :
    (run mode chunkSize s).rest.unread = [] := by
  obtain ⟨-, -, -, -, met⟩ := run_keeps
    (I := fun xs r t => t.EndsLate ∧ r.chunkSize = chunkSize ∧ ∀ before room,
      xs.map Exchange.call = before ++ [.read room (.got [])] → t.unread = []) mode chunkSize s
    (fun {ys r s x r' s'} ⟨late, size, _⟩ call => by
      refine ⟨?_, (chunkSize_advance call).trans size, ?_⟩
      · rcases advance_cases call with ⟨o, -, read, -⟩ | ⟨_, b, bs, o, -, write, -⟩
        · exact late.read read
        · exact late.write write
      · intro before room cut
        rw [List.map_append, List.map_singleton] at cut
        have last := List.singleton_inj.mp (List.append_inj' cut rfl).2
        rcases advance_cases call with ⟨o, -, read, rfl, -⟩ | ⟨_, b, bs, o, -, -, rfl, -⟩
        · cases last
          exact Script.unread_of_read_nil (size ▸ positive) late read
        · cases last)
    ⟨late.script mode, rfl, by simp⟩
  have settled := run_settles mode chunkSize s
  rw [closed] at settled
  cases settled with
  | endOfStream last whole => exact met _ _ last
  | readFailed last final whole report => exact (report.ne_peerClosed rfl rfl).elim
  | writeFailed last cause chunks input output proper report =>
    exact (report.ne_peerClosed rfl rfl).elim

theorem run_without_room (mode : Mode) (s : Script) :
    (run mode 0 s).written = [] ∧ (run mode 0 s).rest.unread = s.unread ∧
      ((∀ room f, Call.read room (.failed f) ∈ (run mode 0 s).calls → f.isInterrupt = true) →
        (run mode 0 s).ending = .closed ⟨0, 0, .peerClosed⟩) := by
  have settled := run_settles mode 0 s
  have nothing : octetsIn (run mode 0 s).calls = [] := by
    obtain ⟨-, -, small, -⟩ := run_keeps
      (I := fun xs r _ => octetsIn (xs.map Exchange.call) = [] ∧ r.chunkSize = 0) mode 0 s
      (fun ⟨so_far, size⟩ call => by
        have fits := received_le call
        rw [size, Nat.le_zero, List.length_eq_zero_iff] at fits
        rw [List.map_append, List.map_singleton, octetsIn_snoc, so_far, fits]
        exact ⟨rfl, (chunkSize_advance call).trans size⟩)
      ⟨rfl, rfl⟩
    exact small
  have unread := run_unread mode 0 s
  rw [nothing, List.nil_append] at unread
  have output := settled.output_prefix
  rw [nothing, List.prefix_nil] at output
  refine ⟨output, unread, ?_⟩
  intro passed
  have no_chunk : chunksIn (run mode 0 s).calls = [] := by
    rw [List.eq_nil_iff_forall_not_mem]
    intro d member
    rw [octetsIn_eq_flatten, List.flatten_eq_nil_iff] at nothing
    exact chunk_ne_nil member (nothing d member)
  generalize (run mode 0 s).ending = e at settled ⊢
  cases settled with
  | endOfStream last whole =>
    rw [nothing, no_chunk]
    rfl
  | @readFailed before room f e last final whole report =>
    have again := passed room f (by rw [last]; simp)
    rw [final] at again
    cases again
  | writeFailed last cause chunks input output proper report =>
    rw [nothing] at input
    simp [proper] at input

end Relay

namespace Settings

open CommandLine (Options)

theorem acquire_start (chunkSize : Nat) {maxConnections : Nat}
    (some_permit : 1 ≤ maxConnections) :
    ∃ t, (Server.start .concurrent chunkSize maxConnections).step .acquire = some t ∧
      t.loop = .ready ∧ t.permits + 1 = maxConnections := by
  obtain ⟨n, rfl⟩ : ∃ n, maxConnections = n + 1 := ⟨maxConnections - 1, by omega⟩
  exact ⟨_, rfl, rfl, rfl⟩

/-- What servers of either kind and their relays can rely on. -/
structure AreSafe (s : Settings) : Prop where
  permits : ∀ host, Server.launch host { s with runtime := .concurrent } ≠ .error .tooManyPermits
  /-- A concurrent server that has its place, and is refused nothing else, gets its first
  permit. -/
  first : ∀ host place, host.threads = .ok () → bind host.grant s.host s.port = .ok place →
    host.watch place = .ok () →
    ∃ server t, Server.launch host { s with runtime := .concurrent } = .ok (place, server) ∧
      server.step .acquire = some t ∧ t.loop = .ready
  /-- No relay takes its peer for gone while the stream has data that has not come. -/
  whole : ∀ mode stream, stream.EndsLate → ∀ bytes chunks,
    (Relay.run mode s.chunkSize.toNat stream).ending = .closed ⟨bytes, chunks, .peerClosed⟩ →
    (Relay.run mode s.chunkSize.toNat stream).rest.unread = []

theorem Permitted.within {s : Settings} (h : s.Permitted) : ¬ permitLimit < s.maxConnections := by
  have few := h.2.2
  rw [← permitLimit_toNat] at few
  rw [UInt64.lt_iff_toNat_lt]
  omega

theorem Permitted.launch_ne_tooManyPermits {s : Settings} (h : s.Permitted) (host : Host) :
    Server.launch host s ≠ .error .tooManyPermits := by
  have launches := Server.launches host s
  intro crowded
  rw [crowded] at launches
  cases launches with
  | crowded many => exact h.within many

theorem Permitted.areSafe {s : Settings} (h : s.Permitted) : s.AreSafe := by
  have permitted : Permitted { s with runtime := .concurrent } := h
  constructor
  · exact permitted.launch_ne_tooManyPermits
  · intro host place threads bound watch
    obtain ⟨t, acquired, ready, -⟩ := acquire_start s.chunkSize.toNat h.2.1
    refine ⟨_, t, ?_, acquired, ready⟩
    have launched := Server.launch_concurrent (s := { s with runtime := .concurrent }) rfl threads
      bound watch
    rwa [if_neg permitted.within] at launched
  · intro mode stream late bytes chunks closed
    exact Relay.unread_of_peerClosed mode h.1 late closed

theorem permitted_of_load {o : Options} {read : FileReader} {s : Settings}
    (loaded : load o read = .ok s) : s.Permitted := by
  obtain ⟨f, -, -, fine⟩ := load_eq_ok.mp loaded
  exact validate_eq_ok.mp fine

theorem load_eq_noChunkSize {o : Options} {read : FileReader} {f : FileSettings}
    (known : contents o read = .ok f) :
    load o read = .error (.invalid .noChunkSize) ↔ (merge o f).chunkSize = 0 := by
  rw [load_eq_invalid, known]
  simp only [Except.ok.injEq, exists_eq_left']
  exact validate_eq_error

/-- Settings that were loaded, and those that hold where nothing is said, are safe: there can be so
many permits as they ask for, the first is there to be had, and no relay closes before the stream
has ended. With a chunk size of nought a relay closes at once, having written nothing, however much
the stream holds; and so such settings are refused, but by what options and file say together. -/
theorem loaded_areSafe :
    (∀ o read s, load o read = .ok s → s.AreSafe) ∧ initial.AreSafe ∧
    (∀ s : Settings, s.chunkSize = 0 → ∀ mode stream,
      (Relay.run mode s.chunkSize.toNat stream).written = [] ∧
      (Relay.run mode s.chunkSize.toNat stream).rest.unread = stream.unread ∧
      ((∀ room f, Call.read room (.failed f) ∈ (Relay.run mode s.chunkSize.toNat stream).calls →
          f.isInterrupt = true) →
        (Relay.run mode s.chunkSize.toNat stream).ending = .closed ⟨0, 0, .peerClosed⟩)) ∧
    ∀ o read f, contents o read = .ok f →
      (load o read = .error (.invalid .noChunkSize) ↔ (merge o f).chunkSize = 0) := by
  refine ⟨?_, ?_, ?_, ?_⟩
  · intro o read s loaded
    exact (permitted_of_load loaded).areSafe
  · have loaded : load {} (fun _ => .error .noSuchFile) = .ok initial := rfl
    exact (permitted_of_load loaded).areSafe
  · intro s zero mode stream
    rw [zero]
    exact Relay.run_without_room mode stream
  · intro o read f known
    exact load_eq_noChunkSize known

def tightest : Options := { chunkSize := some 1, maxConnections := some permitLimit }

def twoAndNothing : Script where
  reads := [.data [97, 98], .data []]

def oneLeft : Script where
  reads := [.fail (.bare .interrupted), .data [97]]

theorem loaded_areSafe_at_bounds :
    (∃ s, load tightest (fun _ => .error .noSuchFile) = .ok s ∧ s.AreSafe ∧
      s.maxConnections = permitLimit ∧ twoAndNothing.EndsLate ∧
      (Relay.run .blocking s.chunkSize.toNat twoAndNothing).ending =
        .closed ⟨2, 2, .peerClosed⟩ ∧
      (Relay.run .blocking s.chunkSize.toNat twoAndNothing).rest.unread = []) ∧
    (Relay.run .nonblocking 0 oneLeft).ending = .closed ⟨0, 0, .peerClosed⟩ ∧
    (Relay.run .nonblocking 0 oneLeft).rest.unread = [97] ∧
    load { chunkSize := some 0 } (fun _ => .error .noSuchFile) =
      .error (.invalid .noChunkSize) := by
  obtain ⟨loads, -, roomless, refused⟩ := loaded_areSafe
  have loaded : load tightest (fun _ => .error .noSuchFile) = .ok (merge tightest {}) := rfl
  have safe := loads _ _ _ loaded
  have late : twoAndNothing.EndsLate := by
    intro before after cut
    match before, cut with
    | [_], rfl => rfl
    | _ :: _ :: _ :: _, cut => cases cut
  have closed : (Relay.run .blocking 1 twoAndNothing).ending = .closed ⟨2, 2, .peerClosed⟩ :=
    congrArg Relay.Run.ending (Relay.runFrom_eq_of_makes
      (.call rfl (.call rfl (.call rfl (.call rfl (.call rfl (.none _ _)))))) rfl)
  have empty := roomless { initial with chunkSize := 0 } rfl .nonblocking oneLeft
  have whole : Relay.run .nonblocking 0 oneLeft =
      ⟨[⟨.read 0 (.failed (.bare .interrupted)), []⟩, ⟨.read 0 (.got []), [.closedByPeer]⟩],
        .closed ⟨0, 0, .peerClosed⟩, ⟨[.data [97]], []⟩⟩ :=
    Relay.runFrom_eq_of_makes (.call rfl (.call rfl (.none _ _))) rfl
  refine ⟨⟨_, loaded, safe, rfl, late, closed, safe.whole _ _ late _ _ closed⟩, ?_, empty.2.1,
    (refused _ _ {} rfl).mpr rfl⟩
  apply empty.2.2
  intro room f member
  have member : Call.read room (.failed f) ∈ (Relay.run .nonblocking 0 oneLeft).calls := member
  rw [whole] at member
  cases member with
  | head => rfl
  | tail _ later => cases List.mem_singleton.mp later

end Settings
end TcpEcho
