import TcpEcho.Fault.Basic
/- Streams as a relay sees them: what its calls ask for and what they bring, and streams
   that answer calls from a script. -/
namespace TcpEcho

abbrev Octets := List UInt8

/-- What a read brings: octets (none of them at the end of the stream), a failure, or the
word that nothing is ready. -/
inductive ReadOutcome where
  | got (data : Octets)
  | failed (f : Fault)
  | pending
deriving DecidableEq, Repr

inductive WriteOutcome where
  | took (n : Nat)
  | failed (f : Fault)
  | pending
deriving DecidableEq, Repr

/-- A call on a stream: a read into a buffer of so many octets, or a write of octets. -/
inductive Call where
  | read (room : Nat) (outcome : ReadOutcome)
  | write (offered : Octets) (outcome : WriteOutcome)
deriving DecidableEq, Repr

def Call.received : Call → Octets
  | .read _ (.got d) => d
  | _ => []

def Call.written : Call → Octets
  | .write d (.took n) => d.take n
  | _ => []

inductive ReadStep where
  | data (d : Octets)
  | fail (f : Fault)
  | pending
deriving DecidableEq, Repr

def ReadStep.size : ReadStep → Nat
  | .data d => d.length
  | _ => 0

/-- The steps that bring these octets and no end of the stream. -/
def ReadStep.bringing (d : Octets) : List ReadStep := if d = [] then [] else [.data d]

inductive WriteStep where
  | accept (n : Nat)
  | fail (f : Fault)
  | pending
deriving DecidableEq, Repr

/-- The answers of a stream to the calls to come. Past its last step a read meets the end
of the stream and a write takes everything. -/
structure Script where
  reads : List ReadStep := []
  writes : List WriteStep := []
deriving DecidableEq, Repr

namespace Script

/-- A read takes what fits into the buffer; the rest of the step stays for the next read. -/
def read (room : Nat) (s : Script) : ReadOutcome × Script :=
  match s.reads with
  | [] => (.got [], s)
  | .data d :: rs =>
    match d.drop room with
    | [] => (.got d, { s with reads := rs })
    | b :: bs => (.got (d.take room), { s with reads := .data (b :: bs) :: rs })
  | .fail f :: rs => (.failed f, { s with reads := rs })
  | .pending :: rs => (.pending, { s with reads := rs })

def write (offered : Octets) (s : Script) : WriteOutcome × Script :=
  match s.writes with
  | [] => (.took offered.length, s)
  | .accept n :: ws => (.took (min n offered.length), { s with writes := ws })
  | .fail f :: ws => (.failed f, { s with writes := ws })
  | .pending :: ws => (.pending, { s with writes := ws })

/-- A stream that blocks until it is ready has no steps that are not. -/
def blocking (s : Script) : Script where
  reads := s.reads.filter (· ≠ .pending)
  writes := s.writes.filter (· ≠ .pending)

def unreadSize (s : Script) : Nat := s.reads.foldr (fun r n => r.size + n) 0

theorem read_cost (room : Nat) (s : Script) :
    ((s.read room).1 = .got [] ∧ (s.read room).2.reads.length ≤ s.reads.length ∧
      (s.read room).2.unreadSize ≤ s.unreadSize) ∨
    (∃ b bs, (s.read room).1 = .got (b :: bs) ∧ (s.read room).2.reads.length ≤ s.reads.length ∧
      (s.read room).2.unreadSize + (b :: bs).length = s.unreadSize) ∨
    ((∀ d, (s.read room).1 ≠ .got d) ∧ (s.read room).2.reads.length < s.reads.length ∧
      (s.read room).2.unreadSize = s.unreadSize) := by
  unfold Script.read
  split
  · simp
  · rename_i d rs e
    have whole := List.take_append_drop room d
    split
    · cases d with
      | nil => simp [unreadSize, e, ReadStep.size]
      | cons b bs => right; left; exact ⟨b, bs, by simp [unreadSize, e, ReadStep.size]; omega⟩
    · rename_i c cs rest
      rw [rest] at whole
      have size := congrArg List.length whole
      cases front : List.take room d with
      | nil => simp [unreadSize, e, ReadStep.size, front] at size ⊢; omega
      | cons b bs =>
        right; left
        exact ⟨b, bs, by simp [unreadSize, e, ReadStep.size, front] at size ⊢; omega⟩
  · rename_i f rs e
    simp [unreadSize, e, ReadStep.size]
  · rename_i rs e
    simp [unreadSize, e, ReadStep.size]

theorem writes_read (room : Nat) (s : Script) : (s.read room).2.writes = s.writes := by
  unfold Script.read
  split <;> (try split) <;> rfl

theorem reads_write (offered : Octets) (s : Script) : (s.write offered).2.reads = s.reads := by
  unfold Script.write
  split <;> rfl

theorem write_cost (offered : Octets) (s : Script) :
    ((s.write offered).1 = .took offered.length ∧
      (s.write offered).2.writes.length ≤ s.writes.length) ∨
    (s.write offered).2.writes.length < s.writes.length := by
  unfold Script.write
  split <;> simp_all

end Script
end TcpEcho
