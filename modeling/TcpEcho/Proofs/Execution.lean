import TcpEcho.Program
import TcpEcho.Proofs.Probe.Delivery
import TcpEcho.Proofs.Server.Endless
import TcpEcho.Proofs.Settings.Safety
/- How the program ends, and what that depends on. A probe depends on its target, its message and
   the peers that it can reach, and on nothing that a server would go by. -/
namespace TcpEcho

open CommandLine (Word Options)

namespace Execution

def AsksForText (words : List Word) : Prop :=
  (∃ page, CommandLine.parse words = .error (.page page)) ∨
    CommandLine.parse words = .error .version

def Probes (w : World) (words : List Word) (result : Except Fault Bool) : Prop :=
  ∃ o p, CommandLine.parse words = .ok o ∧ o.probe = some p ∧
    (Probe.check p.target p.message w.net).result = result

def Loads (w : World) (words : List Word) (result : Except LoadError Settings) : Prop :=
  ∃ o, CommandLine.parse words = .ok o ∧ o.probe = none ∧ Settings.load o w.read = result

/-- The words ask for a server, and with its settings it gets this place or none. -/
def Binds (w : World) (words : List Word) (s : Settings) (result : Except BindError Endpoint) :
    Prop :=
  Loads w words (.ok s) ∧ bind w.host.grant s.host s.port = result

/-- The words ask for a concurrent server, and the host refuses it more than its place. -/
def Lacks (w : World) (words : List Word) (s : Settings) (f : Fault) : Prop :=
  Loads w words (.ok s) ∧ Server.Lacks w.host s f

variable {w w' : World} {words words' : List Word} {o o' : Options} {p : CommandLine.Probe}

theorem run_probe (parsed : CommandLine.parse words = .ok o) (probe : o.probe = some p) :
    run w words = probing w o.logLevel p := by
  simp only [run, parsed, probe]

theorem run_server (parsed : CommandLine.parse words = .ok o) (none : o.probe = none) :
    run w words = serving w o := by
  simp only [run, parsed, none]

/-- With which number the program ends, if it does, and that there are no others. -/
structure EndsAsTold (w : World) (words : List Word) : Prop where
  two : (run w words).upshot.exitCode? = some 2 ↔
    ∃ e, CommandLine.parse words = .error (.usage e)
  zero : (run w words).upshot.exitCode? = some 0 ↔
    AsksForText words ∨ Probes w words (.ok true)
  one : (run w words).upshot.exitCode? = some 1 ↔
    Probes w words (.ok false) ∨ (∃ f, Probes w words (.error f)) ∨
      (∃ e, Loads w words (.error e)) ∨ (∃ s e, Binds w words s (.error e)) ∨
      ∃ s f, Lacks w words s f
  none : (run w words).upshot.exitCode? = none ↔
    ∃ s place, Binds w words s (.ok place) ∧ ∀ f, ¬ Lacks w words s f
  others : ∀ code, (run w words).upshot.exitCode? = some code → code = 0 ∨ code = 1 ∨ code = 2

theorem endsAsTold_of_stop {stop : CommandLine.Stop}
    (parsed : CommandLine.parse words = .error stop) : EndsAsTold w words := by
  have runs : run w words = ofStop stop := by simp only [run, parsed]
  constructor <;> rw [runs] <;>
    cases stop <;>
      simp [AsksForText, Probes, Loads, Binds, Lacks, parsed, ofStop, Upshot.exitCode?]

theorem upshot_of_probes {result : Except Fault Bool} :
    Probes w words result → (run w words).upshot = match result with
      | .ok matched => .verdict matched
      | .error f => .failure (.probe f) := by
  rintro ⟨o, p, parsed, probe, rfl⟩
  rw [run_probe parsed probe]
  rfl

theorem endsAsTold_of_probe (parsed : CommandLine.parse words = .ok o)
    (probe : o.probe = some p) : EndsAsTold w words := by
  have comes : ∀ result, Probes w words result ↔
      (Probe.check p.target p.message w.net).result = result := by
    intro result
    simp [Probes, parsed, probe]
  have no_server : ∀ result, ¬ Loads w words result := by
    intro result
    simp [Loads, parsed, probe]
  cases checked : (Probe.check p.target p.message w.net).result with
  | error f =>
    have upshot := upshot_of_probes ((comes _).mpr checked)
    constructor <;> rw [upshot] <;>
      simp [comes, checked, no_server, Binds, Lacks, AsksForText, parsed, Upshot.exitCode?]
  | ok matched =>
    have upshot := upshot_of_probes ((comes _).mpr checked)
    constructor <;> rw [upshot] <;> cases matched <;>
      simp [comes, checked, no_server, Binds, Lacks, AsksForText, parsed, Upshot.exitCode?]

theorem upshot_of_loads {result : Except LoadError Settings} :
    Loads w words result → (run w words).upshot = match result with
      | .error e => .failure (.load e)
      | .ok s =>
        match Server.launch w.host s with
        | .error obstacle => obstacle.upshot
        | .ok (_, server) => .serving s server := by
  rintro ⟨o, parsed, none, rfl⟩
  rw [run_server parsed none, serving, Settings.load]
  obtain ⟨opened, loaded⟩ := Settings.loading o w.read
  cases loaded with
  | error e => rfl
  | ok s => cases launched : Server.launch w.host s <;> simp only [launched]

theorem upshot_of_launch {s : Settings} {place : Endpoint} {server : Server}
    (h : Loads w words (.ok s)) (launched : Server.launch w.host s = .ok (place, server)) :
    (run w words).upshot = .serving s server := by
  rw [upshot_of_loads h]
  simp only [launched]

theorem permitted_of_loads {s : Settings} (h : Loads w words (.ok s)) : s.Permitted := by
  obtain ⟨o, -, -, loaded⟩ := h
  exact Settings.permitted_of_load loaded

theorem endsAsTold_of_server (parsed : CommandLine.parse words = .ok o) (none : o.probe = none) :
    EndsAsTold w words := by
  have no_probe : ∀ result, ¬ Probes w words result := by
    intro result
    simp [Probes, parsed, none]
  have comes : ∀ result, Loads w words result ↔ Settings.load o w.read = result := by
    intro result
    simp [Loads, parsed, none]
  have no_text : ¬ AsksForText words := by
    simp [AsksForText, parsed]
  have loads := (comes _).mpr rfl
  cases loaded : Settings.load o w.read with
  | error e =>
    rw [loaded] at loads
    have upshot := upshot_of_loads loads
    constructor <;> rw [upshot] <;>
      simp [no_probe, comes, loaded, Binds, Lacks, no_text, parsed, Upshot.exitCode?]
  | ok s =>
    rw [loaded] at loads
    have launches := Server.launches w.host s
    have binds : ∀ t result, Binds w words t result ↔
        s = t ∧ bind w.host.grant s.host s.port = result := by
      intro t result
      simp only [Binds, comes, loaded, Except.ok.injEq]
      exact and_congr_right fun same => same ▸ Iff.rfl
    have lacks : ∀ t f, Lacks w words t f ↔ s = t ∧ Server.Lacks w.host s f := by
      intro t f
      simp only [Lacks, comes, loaded, Except.ok.injEq]
      exact and_congr_right fun same => same ▸ Iff.rfl
    cases launched : Server.launch w.host s with
    | error obstacle =>
      have upshot := upshot_of_loads loads
      simp only [launched] at upshot
      rw [launched] at launches
      cases launches with
      | lacking refused =>
        constructor <;> rw [upshot] <;>
          simp [no_probe, comes, loaded, binds, lacks, no_text, parsed, Obstacle.upshot,
            Upshot.exitCode?]
        · exact .inr ⟨_, refused⟩
        · exact fun place bound => ⟨_, refused⟩
      | unbound refused =>
        constructor <;> rw [upshot] <;>
          simp [no_probe, comes, loaded, binds, lacks, no_text, parsed, Obstacle.upshot,
            Upshot.exitCode?, refused]
      | crowded many => exact absurd many (permitted_of_loads loads).within
    | ok pair =>
      obtain ⟨place, server⟩ := pair
      have upshot := upshot_of_launch loads launched
      rw [launched] at launches
      cases launches with
      | up bound whole fresh =>
        constructor <;> rw [upshot] <;>
          simp [no_probe, comes, loaded, binds, lacks, no_text, parsed, Upshot.exitCode?, bound,
            whole]

theorem endsAsTold (w : World) (words : List Word) : EndsAsTold w words := by
  cases parsed : CommandLine.parse words with
  | error stop => exact endsAsTold_of_stop parsed
  | ok o =>
    cases probe : o.probe with
    | some p => exact endsAsTold_of_probe parsed probe
    | none => exact endsAsTold_of_server parsed probe

theorem serving_of_bind {s : Settings} {place : Endpoint} (h : Binds w words s (.ok place))
    (whole : ∀ f, ¬ Lacks w words s f) :
    ∃ server, (run w words).upshot = .serving s server ∧
      ∀ t, Server.Leads (fun _ => true) server t → ¬ t.HasEnded := by
  obtain ⟨loads, bound⟩ := h
  have permitted := permitted_of_loads loads
  have launches := Server.launches w.host s
  cases launched : Server.launch w.host s with
  | error obstacle =>
    rw [launched] at launches
    cases launches with
    | lacking refused => exact absurd ⟨loads, refused⟩ (whole _)
    | unbound refused =>
      rw [bound] at refused
      cases refused
    | crowded many => exact absurd many permitted.within
  | ok pair =>
    obtain ⟨at_place, server⟩ := pair
    rw [launched] at launches
    cases launches with
    | up bound whole fresh =>
      refine ⟨server, upshot_of_launch loads launched, ?_⟩
      intro t onward
      rw [fresh] at onward
      exact Server.not_hasEnded (Server.Reachable.start.leads onward) permitted.2.1

/-- A probe opens no settings file and depends on its target, its message and the peers that it
can reach: with these the same, its calls, its events and what comes of it are the same, and with
the level of the log the same too, so is all that it does. The program ends with two for a mistake
in its words alone, with nought if it is asked for a text or a probe got back what it sent, and
with one if a probe got back something else or failed, or a server did not get its settings, its
place or what else it runs on. A server that got them never ends, whatever happens to it. -/
theorem probe_apart_and_endings :
    (∀ w w' words words' o o' p, CommandLine.parse words = .ok o →
      CommandLine.parse words' = .ok o' → o.probe = some p → o'.probe = some p →
      w'.net = w.net →
      (run w words).opened = [] ∧ (run w' words').opened = [] ∧
      (run w' words').calls = (run w words).calls ∧
      (run w' words').events = (run w words).events ∧
      (run w' words').upshot = (run w words).upshot ∧
      (o'.logLevel = o.logLevel → w'.logSetting = w.logSetting →
        run w' words' = run w words)) ∧
    ∀ w words, EndsAsTold w words ∧
      ∀ s place, Binds w words s (.ok place) → (∀ f, ¬ Lacks w words s f) →
        ∃ server, (run w words).upshot = .serving s server ∧
          ∀ t, Server.Leads (fun _ => true) server t → ¬ t.HasEnded := by
  constructor
  · intro w w' words words' o o' p parsed parsed' probe probe' net
    rw [run_probe parsed probe, run_probe parsed' probe']
    unfold probing
    rw [net]
    refine ⟨rfl, rfl, rfl, rfl, rfl, ?_⟩
    intro level setting
    rw [level, setting]
  · intro w words
    exact ⟨endsAsTold w words, fun s place bound whole => serving_of_bind bound whole⟩

def burdened : List Word :=
  ["-cabsent.toml", "--chunk-size=0", "probe", "-tlocalhost:7", "-mping"].map Utf8.encode

def helpful : World where
  net := Probe.onePeer Probe.parrot

theorem burdened_probe_apart :
    (∃ o, CommandLine.parse burdened = .ok o ∧ o.probe = some ⟨"localhost:7", "ping"⟩ ∧
      (∃ e, Settings.load o helpful.read = .error e) ∧
      CommandLine.parse (burdened.drop 2) = .ok { probe := o.probe }) ∧
    (run helpful burdened).opened = [] ∧
    run helpful burdened = run helpful (burdened.drop 2) ∧
    (run helpful burdened).upshot.exitCode? = some 0 ∧
    Binds {} [] Settings.initial (.ok ⟨.v4 ⟨0, 0, 0, 0⟩, 1234⟩) ∧
    (∀ f, ¬ Lacks {} [] Settings.initial f) ∧
    ∃ server, (run {} []).upshot = .serving Settings.initial server ∧
      ∀ t, Server.Leads (fun _ => true) server t → ¬ t.HasEnded := by
  have plain : CommandLine.parse (burdened.drop 2) =
      .ok { probe := some ⟨"localhost:7", "ping"⟩ } := by
    decide +kernel
  have parsed : CommandLine.parse burdened = .ok
      { config := some (Utf8.encode "absent.toml"), chunkSize := some 0
        probe := some ⟨"localhost:7", "ping"⟩ } := by
    decide +kernel
  have bound : Binds {} [] Settings.initial (.ok ⟨.v4 ⟨0, 0, 0, 0⟩, 1234⟩) :=
    ⟨⟨{}, rfl, rfl, rfl⟩, by decide +kernel⟩
  have whole : ∀ f, ¬ Lacks {} [] Settings.initial f :=
    fun f lacks => Server.not_lacks_serial rfl f lacks.2
  have answered : Probes helpful burdened (.ok true) := by
    refine ⟨_, _, parsed, rfl, ?_⟩
    exact (Probe.check_of_front (Probe.reach_onePeer _) (Probe.parrot_delivers _) (by decide)).1
  obtain ⟨opened, -, -, -, -, same⟩ :=
    probe_apart_and_endings.1 helpful helpful _ _ _ _ _ parsed plain rfl rfl rfl
  have ends := (probe_apart_and_endings.2 helpful burdened).1
  exact ⟨⟨_, parsed, rfl, ⟨_, rfl⟩, plain⟩, opened, (same rfl rfl).symm,
    ends.zero.mpr (.inr answered), bound, whole,
    (probe_apart_and_endings.2 {} []).2 _ _ bound whole⟩

end Execution
end TcpEcho
