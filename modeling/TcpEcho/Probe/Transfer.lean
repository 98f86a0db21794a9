import TcpEcho.Relay.Basic
/- Whole buffers over a stream: calls are made until all octets are written or read. A call
   that was only interrupted is made again. -/
namespace TcpEcho

structure Transfer (α : Type) where
  calls : List Call
  result : Except Fault α
  rest : Script

namespace Transfer

def after {α : Type} (c : Call) (t : Transfer α) : Transfer α := { t with calls := c :: t.calls }

def join (d : Octets) (t : Transfer Octets) : Transfer Octets :=
  { t with result := t.result.map (d ++ ·) }

def writeAll (d : Octets) (s : Script) : Transfer Unit :=
  match d with
  | [] => ⟨[], .ok (), s⟩
  | b :: bs =>
    match h : s.write (b :: bs) with
    | (.took 0, s') => ⟨[.write (b :: bs) (.took 0)], .error Mode.blocking.writeZero, s'⟩
    | (.took (n + 1), s') =>
      (writeAll ((b :: bs).drop (n + 1)) s').after (.write (b :: bs) (.took (n + 1)))
    | (.failed f, s') =>
      if f.isInterrupt then (writeAll (b :: bs) s').after (.write (b :: bs) (.failed f))
      else ⟨[.write (b :: bs) (.failed f)], .error f, s'⟩
    | (.pending, s') => (writeAll (b :: bs) s').after (.write (b :: bs) .pending)
termination_by (d.length, s.writes.length)
decreasing_by
  · simp_wf
    left
    omega
  all_goals
    have cost := s.write_cost (b :: bs)
    simp only [h] at cost
    simp_wf
    right
    simpa using cost

def readExact (n : Nat) (s : Script) : Transfer Octets :=
  match n with
  | 0 => ⟨[], .ok [], s⟩
  | n + 1 =>
    match h : s.read (n + 1) with
    | (.got [], s') => ⟨[.read (n + 1) (.got [])], .error .cutShort, s'⟩
    | (.got (b :: bs), s') =>
      ((readExact (n - bs.length) s').join (b :: bs)).after (.read (n + 1) (.got (b :: bs)))
    | (.failed f, s') =>
      if f.isInterrupt then (readExact (n + 1) s').after (.read (n + 1) (.failed f))
      else ⟨[.read (n + 1) (.failed f)], .error f, s'⟩
    | (.pending, s') => (readExact (n + 1) s').after (.read (n + 1) .pending)
termination_by (n, s.reads.length)
decreasing_by
  · simp_wf
    left
    omega
  all_goals
    have cost := s.read_cost (n + 1)
    simp only [h] at cost
    simp_wf
    right
    simp at cost
    exact cost.1

end Transfer
end TcpEcho
