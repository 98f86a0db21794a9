import TcpEcho.Proofs.Relay.Accounts
import TcpEcho.Proofs.Relay.Pieces
/- How long a relay can go on, and how it can end. Each call uses up a step of the script or an
   octet on its way, so no mixture of calls that are made again, calls that are not ready and parts
   of chunks keeps a relay going for ever. -/
namespace TcpEcho

/-- The three ways in which a relay can end. -/
inductive Ending.IsOutcome : Ending → Prop where
  | peerClosed (bytes chunks : Nat) : IsOutcome (.closed ⟨bytes, chunks, .peerClosed⟩)
  | disconnected (bytes chunks : Nat) {kind : FaultKind} (gone : kind.isDisconnect = true) :
      IsOutcome (.closed ⟨bytes, chunks, .disconnected kind⟩)
  | failed (bytes chunks : Nat) {f : Fault} (other : f.kind.isDisconnect = false) :
      IsOutcome (.failed ⟨⟨bytes, chunks, .peerClosed⟩, f⟩)

theorem Ending.Reports.isOutcome {e : Ending} {bytes chunks : Nat} {f : Fault}
    (h : e.Reports bytes chunks f) : e.IsOutcome := by
  cases kind : f.kind.isDisconnect with
  | true =>
    rw [h.1 kind]
    exact .disconnected bytes chunks kind
  | false =>
    rw [h.2 kind]
    exact .failed bytes chunks kind

theorem Settled.isOutcome {mode : Mode} {calls : List Call} {e : Ending}
    (h : Settled mode calls e) : e.IsOutcome := by
  cases h with
  | endOfStream last whole => exact .peerClosed _ _
  | readFailed last final whole report => exact report.isOutcome
  | writeFailed last cause chunks input output proper report => exact report.isOutcome

/-- The most calls that a relay can make on a script: one for each step, two for each octet, one
that brings it in and one that takes it back out, and one that meets the end. -/
def Script.callLimit (s : Script) : Nat :=
  s.reads.length + s.writes.length + 2 * s.unread.length + 1

namespace Relay

theorem Makes.weight_le {r r' : Relay} {s s' : Script} {xs : List Exchange}
    (h : Makes r s xs r' s') : xs.length + r'.weight s' ≤ r.weight s := by
  induction h with
  | none r s =>
    rw [List.length_nil]
    omega
  | call first rest ih =>
    have lighter := weight_advance first
    rw [List.length_cons]
    omega

theorem weight_start_le (mode : Mode) (chunkSize : Nat) (s : Script) :
    weight { mode := mode, chunkSize := chunkSize } (mode.script s) ≤ s.callLimit := by
  have data := unread_script mode s
  have reads : (mode.script s).reads.length ≤ s.reads.length := by
    cases mode with
    | blocking => exact List.length_filter_le _ _
    | nonblocking => exact Nat.le_refl _
  have writes : (mode.script s).writes.length ≤ s.writes.length := by
    cases mode with
    | blocking => exact List.length_filter_le _ _
    | nonblocking => exact Nat.le_refl _
  unfold weight Script.callLimit
  rw [← length_unread, data, owed_reading rfl, hasEnded_reading rfl]
  simp only [List.length_nil, Bool.false_eq_true, if_false]
  omega

theorem runFrom_of_makes {r q : Relay} {s t : Script} {xs : List Exchange}
    (h : Makes r s xs q t) :
    ∃ ys last, Makes q t ys last (r.runFrom s).rest ∧ last.phase = .ended (r.runFrom s).ending ∧
      (r.runFrom s).exchanges = xs ++ ys := by
  obtain ⟨last, onward, ended⟩ := runFrom_makes q t
  have whole := runFrom_eq_of_makes (makes_append h onward) ended
  rw [whole]
  exact ⟨(q.runFrom t).exchanges, last, onward, ended, rfl⟩

/-- Whatever a script mixes, a relay makes only so many calls on it, and from wherever they have
led it other calls lead to its end. The end is one of three: the peer closed, it went away, or the
connection failed with a fault that is no such thing. -/
theorem run_bounded (mode : Mode) (chunkSize : Nat) (s : Script) :
    (∀ xs q t, Makes { mode := mode, chunkSize := chunkSize } (mode.script s) xs q t →
      xs.length ≤ s.callLimit ∧
      ∃ ys last, Makes q t ys last (run mode chunkSize s).rest ∧
        last.phase = .ended (run mode chunkSize s).ending ∧
        (run mode chunkSize s).exchanges = xs ++ ys) ∧
    (run mode chunkSize s).calls.length ≤ s.callLimit ∧
    (run mode chunkSize s).ending.IsOutcome := by
  have start := weight_start_le mode chunkSize s
  refine ⟨?_, ?_, (run_settles mode chunkSize s).isOutcome⟩
  · intro xs q t makes
    have spent := makes.weight_le
    exact ⟨by omega, runFrom_of_makes makes⟩
  · obtain ⟨last, makes, -⟩ :=
      runFrom_makes { mode := mode, chunkSize := chunkSize } (mode.script s)
    have spent := makes.weight_le
    unfold Run.calls
    rw [List.length_map]
    exact Nat.le_trans (Nat.le_of_add_right_le spent) start

def unsteady : Script where
  reads := [.fail (.bare .interrupted), .data [97, 98]]
  writes := [.pending, .accept 1]

def unsteadyStart : List Exchange := [
  ⟨.read 4 (.failed (.bare .interrupted)), []⟩,
  ⟨.read 4 (.got [97, 98]), [.received 2 (Utf8.lossy [97, 98])]⟩,
  ⟨.write [97, 98] .pending, []⟩]

theorem run_bounded_from_third_call :
    unsteady.callLimit = 9 ∧
    Makes { mode := .nonblocking, chunkSize := 4 } unsteady unsteadyStart
      { mode := .nonblocking, chunkSize := 4, phase := .writing 2 97 [98] } ⟨[], [.accept 1]⟩ ∧
    ∃ ys, (run .nonblocking 4 unsteady).exchanges = unsteadyStart ++ ys ∧ ys.length ≤ 6 := by
  have makes : Makes { mode := .nonblocking, chunkSize := 4 } unsteady unsteadyStart
      { mode := .nonblocking, chunkSize := 4, phase := .writing 2 97 [98] } ⟨[], [.accept 1]⟩ :=
    .call rfl (.call rfl (.call rfl (.none _ _)))
  have law := run_bounded .nonblocking 4 unsteady
  obtain ⟨-, ys, -, -, -, whole⟩ := law.1 _ _ _ makes
  have few : (run .nonblocking 4 unsteady).calls.length ≤ 9 := law.2.1
  unfold Run.calls at few
  rw [whole, List.length_map, List.length_append] at few
  exact ⟨rfl, makes, ys, whole, Nat.le_of_add_le_add_left few⟩

end Relay
end TcpEcho
