import TcpEcho.Listener
/- How a server comes up: what the host can refuse it, in which order, and that nothing but a
   refusal or too many permits keeps it from its place. -/
namespace TcpEcho.Server

/-- What the host refuses a concurrent server besides its endpoint: threads to run on, or a watch
over the socket at its place. -/
def Lacks (host : Host) (s : Settings) (f : Fault) : Prop :=
  s.runtime = .concurrent ∧ (host.threads = .error f ∨
    ∃ place, bind host.grant s.host s.port = .ok place ∧ host.watch place = .error f)

inductive Launches (host : Host) (s : Settings) : Except Obstacle (Endpoint × Server) → Prop where
  | lacking {f : Fault} (lacks : Lacks host s f) : Launches host s (.error (.host f))
  | unbound {e : BindError} (refused : bind host.grant s.host s.port = .error e) :
      Launches host s (.error (.bind e))
  | crowded (many : Settings.permitLimit < s.maxConnections) :
      Launches host s (.error .tooManyPermits)
  | up {place : Endpoint} {server : Server} (bound : bind host.grant s.host s.port = .ok place)
      (whole : ∀ f, ¬ Lacks host s f)
      (fresh : server = start s.runtime s.chunkSize.toNat s.maxConnections.toNat) :
      Launches host s (.ok (place, server))

variable {host : Host} {s : Settings}

theorem launch_serial (serial : s.runtime = .serial) :
    launch host s = ((bind host.grant s.host s.port).mapError .bind).map fun place =>
      (place, start s.runtime s.chunkSize.toNat s.maxConnections.toNat) := by
  unfold launch
  rw [serial]
  rfl

theorem launch_concurrent {place : Endpoint} (concurrent : s.runtime = .concurrent)
    (threads : host.threads = .ok ()) (bound : bind host.grant s.host s.port = .ok place)
    (watch : host.watch place = .ok ()) :
    launch host s = if Settings.permitLimit < s.maxConnections then .error .tooManyPermits
      else .ok (place, start s.runtime s.chunkSize.toNat s.maxConnections.toNat) := by
  unfold launch
  rw [concurrent, threads, bound]
  change ((host.watch place).mapError Obstacle.host >>= fun _ => _) = _
  rw [watch]
  rfl

theorem not_lacks_serial (serial : s.runtime = .serial) (f : Fault) : ¬ Lacks host s f := by
  rintro ⟨concurrent, -⟩
  rw [serial] at concurrent
  cases concurrent

theorem launches (host : Host) (s : Settings) : Launches host s (launch host s) := by
  cases runtime : s.runtime with
  | serial =>
    rw [launch_serial runtime]
    cases bound : bind host.grant s.host s.port with
    | error e => exact .unbound bound
    | ok place => exact .up bound (not_lacks_serial runtime) rfl
  | concurrent =>
    cases threads : host.threads with
    | error f =>
      unfold launch
      rw [runtime, threads]
      exact .lacking ⟨runtime, .inl threads⟩
    | ok u =>
      cases bound : bind host.grant s.host s.port with
      | error e =>
        unfold launch
        rw [runtime, threads, bound]
        exact .unbound bound
      | ok place =>
        cases watch : host.watch place with
        | error f =>
          unfold launch
          rw [runtime, threads, bound]
          change Launches host s ((host.watch place).mapError Obstacle.host >>= fun _ => _)
          rw [watch]
          exact .lacking ⟨runtime, .inr ⟨place, bound, watch⟩⟩
        | ok u =>
          rw [launch_concurrent runtime threads bound watch]
          by_cases many : Settings.permitLimit < s.maxConnections
          · rw [if_pos many]
            exact .crowded many
          · rw [if_neg many]
            refine .up bound ?_ rfl
            rintro f ⟨-, refused | ⟨at_place, same, refused⟩⟩
            · rw [threads] at refused
              cases refused
            · rw [bound] at same
              cases same
              rw [watch] at refused
              cases refused

end TcpEcho.Server
