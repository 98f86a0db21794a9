import TcpEcho.Proofs.Relay.Idle
/- Both modes relay alike. A relay that is told when its stream is not ready comes back later
   and else makes the calls of one that waits, and both make an interrupted write again. -/
namespace TcpEcho

/-- Endings that tell the same but for the words for a write that took nothing. -/
inductive Ending.Agrees : Ending → Ending → Prop where
  | same (e : Ending) : Agrees e e
  | writeZero (s : Summary) : Agrees (.failed ⟨s, Mode.blocking.writeZero⟩)
      (.failed ⟨s, Mode.nonblocking.writeZero⟩)

def Call.isPending : Call → Bool
  | .read _ .pending => true
  | .write _ .pending => true
  | _ => false

def Call.isInterruptedWrite : Call → Bool
  | .write _ (.failed f) => f.isInterrupt
  | _ => false

namespace Idling

def interruptedWrite : Idling where
  reads := fun _ => false
  writes
    | .fail f => f.isInterrupt
    | _ => false
  reads_idle := by simp
  writes_idle := by
    intro x h
    cases x <;> simp_all [WriteStep.isIdle]

theorem notReady_answers (c : Call) : notReady.answers c = c.isPending := by
  unfold answers Call.isPending
  split <;> simp [notReady]

theorem interruptedWrite_answers (c : Call) :
    interruptedWrite.answers c = c.isInterruptedWrite := by
  unfold answers Call.isInterruptedWrite
  split <;> simp [interruptedWrite]

end Idling

namespace Relay

/-- The relay that is told when its stream is not ready. -/
def polling (r : Relay) : Relay := { r with mode := .nonblocking }

theorem polling_afterFault (r : Relay) (f : Fault) :
    r.polling.afterFault f = (r.afterFault f).polling := by
  unfold afterFault
  split <;> rfl

theorem polling_afterRead (r : Relay) (o : ReadOutcome) :
    r.polling.afterRead o = (r.afterRead o).polling := by
  unfold afterRead
  split
  · rfl
  · rfl
  · exact polling_afterFault r _
  · rfl

theorem polling_afterWrite (r : Relay) (size : Nat) (owed : Octets) (o : WriteOutcome)
    (something : o ≠ .took 0) :
    r.polling.afterWrite size owed o = (r.afterWrite size owed o).polling := by
  cases o with
  | took n =>
    cases n with
    | zero => exact absurd rfl something
    | succ n =>
      simp only [afterWrite]
      split <;> rfl
  | failed f => exact polling_afterFault r f
  | pending => rfl

theorem afterWrite_zero (r : Relay) (size : Nat) (owed : Octets) :
    (r.afterWrite size owed (.took 0)).phase =
      .ended (.failed ⟨r.summary .peerClosed, r.mode.writeZero⟩) := by
  have plain : r.mode.writeZero.isDisconnect = false := by cases r.mode <;> rfl
  simp [afterWrite, fail, endingOf, plain]

/-- The modes have made the same calls and go on alike, or they have ended alike. -/
inductive Alike : Relay → Relay → Prop where
  | going {r : Relay} (waits : r.mode = .blocking) : Alike r r.polling
  | ended {r q : Relay} {e f : Ending} (left : r.phase = .ended e) (right : q.phase = .ended f)
      (agree : e.Agrees f) : Alike r q

theorem advance_alike {r q r' : Relay} {s s' : Script} {x : Exchange} (alike : Alike r q)
    (call : r.advance s = .call x r' s') :
    ∃ q', q.advance s = .call x q' s' ∧ Alike r' q' := by
  cases alike with
  | going waits =>
    rcases advance_cases call with
      ⟨o, reading, read, rfl, rfl⟩ | ⟨size, b, bs, o, writing, write, rfl, rfl⟩
    · have step := advance_reading (r := r.polling) reading s
      rw [show r.polling.chunkSize = r.chunkSize from rfl, read] at step
      refine ⟨_, step, ?_⟩
      rw [polling_afterRead]
      exact .going ((settings_afterRead r o).1.trans waits)
    · have step := advance_writing (r := r.polling) writing s
      rw [write] at step
      refine ⟨_, step, ?_⟩
      by_cases nothing : o = .took 0
      · subst nothing
        refine .ended (afterWrite_zero r size _) (afterWrite_zero r.polling size _) ?_
        rw [waits]
        exact .writeZero _
      · rw [polling_afterWrite r size _ o nothing]
        exact .going ((settings_afterWrite r size _ o).1.trans waits)
  | ended left right agree =>
    rw [advance_ended left] at call
    cases call

theorem Makes.alike {r q r' : Relay} {s s' : Script} {xs : List Exchange}
    (h : Makes r s xs r' s') (alike : Alike r q) :
    ∃ q', Makes q s xs q' s' ∧ Alike r' q' := by
  induction h generalizing q with
  | none r s => exact ⟨q, .none q s, alike⟩
  | call first rest ih =>
    obtain ⟨next, step, alike⟩ := advance_alike alike first
    obtain ⟨last, makes, alike⟩ := ih alike
    exact ⟨last, .call step makes, alike⟩

theorem Alike.endings {r q : Relay} {e : Ending} (alike : Alike r q) (ended : r.phase = .ended e) :
    ∃ f, q.phase = .ended f ∧ e.Agrees f := by
  cases alike with
  | going waits => exact ⟨e, ended, .same e⟩
  | ended left right agree =>
    rw [left] at ended
    cases ended
    exact ⟨_, right, agree⟩

theorem run_ready (chunkSize : Nat) (s : Script) :
    ∃ e, run .nonblocking chunkSize s.blocking =
      ⟨(run .blocking chunkSize s).exchanges, e, (run .blocking chunkSize s).rest⟩ ∧
      (run .blocking chunkSize s).ending.Agrees e := by
  obtain ⟨r, makes, ended⟩ := runFrom_makes { mode := .blocking, chunkSize := chunkSize } s.blocking
  obtain ⟨q, polled, alike⟩ := makes.alike (.going rfl)
  obtain ⟨e, finished, agree⟩ := alike.endings ended
  exact ⟨e, runFrom_eq_of_makes polled finished, agree⟩

/-- The modes agree on every script. Polling makes the calls of waiting and some that are not
ready, logs the same, leaves the same steps behind and ends the same. Neither minds a write
that is interrupted: the run is the one without that step, but for the call. -/
theorem modes_agree (chunkSize : Nat) (s : Script) :
    (run .nonblocking chunkSize s).calls.filter (!·.isPending) =
      (run .blocking chunkSize s).calls ∧
    (run .nonblocking chunkSize s).events = (run .blocking chunkSize s).events ∧
    (run .nonblocking chunkSize s).rest.blocking = (run .blocking chunkSize s).rest ∧
    (run .blocking chunkSize s).ending.Agrees (run .nonblocking chunkSize s).ending ∧
    ∀ mode,
      (run mode chunkSize (s.without .interruptedWrite)).calls =
        (run mode chunkSize s).calls.filter (!·.isInterruptedWrite) ∧
      (run mode chunkSize (s.without .interruptedWrite)).events =
        (run mode chunkSize s).events ∧
      (run mode chunkSize (s.without .interruptedWrite)).rest.reads =
        (run mode chunkSize s).rest.reads ∧
      (run mode chunkSize (s.without .interruptedWrite)).ending =
        (run mode chunkSize s).ending := by
  obtain ⟨e, ready, agree⟩ := run_ready chunkSize s
  obtain ⟨cut, events⟩ := run_without .nonblocking chunkSize s .notReady
  rw [← Script.blocking_eq_without] at cut events
  rw [ready] at cut events
  have exchanges := congrArg Run.exchanges cut
  have ending := congrArg Run.ending cut
  have rest := congrArg Run.rest cut
  simp only at exchanges ending rest
  refine ⟨?_, events.symm, ?_, ending ▸ agree, fun mode => ?_⟩
  · unfold Run.calls
    rw [exchanges, calls_kept]
    simp only [Idling.notReady_answers]
  · rw [rest, Script.blocking_eq_without]
  · obtain ⟨spared, same⟩ := run_without mode chunkSize s .interruptedWrite
    refine ⟨?_, same, ?_, ?_⟩
    · unfold Run.calls
      rw [spared, calls_kept]
      simp only [Idling.interruptedWrite_answers]
    · rw [spared]
      exact List.filter_eq_self.mpr fun _ _ => rfl
    · rw [spared]

/-- An interrupted write does not end the relay that is told when its stream is not ready. -/
theorem interrupted_write_made_again :
    (run .blocking 1024 ⟨[.data [97]], [.fail (.bare .interrupted)]⟩).calls =
      [.read 1024 (.got [97]), .write [97] (.failed (.bare .interrupted)),
        .write [97] (.took 1), .read 1024 (.got [])] ∧
    (run .nonblocking 1024 ⟨[.data [97]], [.fail (.bare .interrupted)]⟩).ending =
      .closed ⟨1, 1, .peerClosed⟩ ∧
    (run .nonblocking 1024 ⟨[.data [97]], [.fail (.bare .interrupted)]⟩).ending ≠
      .failed ⟨⟨0, 0, .peerClosed⟩, .bare .interrupted⟩ := by
  have again (mode : Mode) : run mode 1024 ⟨[.data [97]], [.fail (.bare .interrupted)]⟩ =
      ⟨[⟨.read 1024 (.got [97]), [.received 1 (Utf8.lossy [97])]⟩,
        ⟨.write [97] (.failed (.bare .interrupted)), []⟩, ⟨.write [97] (.took 1), []⟩,
        ⟨.read 1024 (.got []), [.closedByPeer]⟩], .closed ⟨1, 1, .peerClosed⟩, {}⟩ := by
    cases mode <;>
      exact runFrom_eq_of_makes (.call rfl (.call rfl (.call rfl (.call rfl (.none _ _))))) rfl
  rw [again, again]
  exact ⟨rfl, rfl, by simp⟩

end Relay
end TcpEcho
