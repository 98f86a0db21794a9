import TcpEcho.Proofs.CommandLine.Mentions
/- A command line that says what the options are is read back as those options, whatever its
   order and its spellings; an option that is said twice on one level is refused. -/
namespace TcpEcho.CommandLine

/-- A mention that fits, with a value that can be read, of an option that others mention. -/
structure Mention.Repeats (m : Mention) (ms : List Mention) : Prop where
  fits : m.fits = true
  reads : Draft.Reads m.option m.value
  again : m.option ∈ ms.map Mention.option

theorem ofText_injective {s t : String} (h : ofText s = ofText t) : s = t :=
  Utf8.encode_injective h

theorem options_of_given (ms : List Mention) :
    (ms.map Mention.given).map Prod.fst = ms.map Mention.option := by
  rw [List.map_map]
  rfl

theorem Draft.reads_of_said {full : Draft} {o : OptionName} {w : Word} (told : full.Says o w) :
    Draft.Reads o w := ⟨_, told {}⟩

namespace Options

/-- The options of the server as a level has them. -/
def draft (o : Options) : Draft where
  config := o.config
  host := o.host
  port := o.port
  chunkSize := o.chunkSize
  backlog := o.backlog
  runtime := o.runtime
  maxConnections := o.maxConnections
  logLevel := o.logLevel

theorem mem_given {o : Options} {g : Given} : g ∈ o.given ↔
    (∃ x, o.config = some x ∧ g = (.config, x)) ∨ (∃ x, o.host = some x ∧ g = (.host, ofText x)) ∨
    (∃ x, o.port = some x ∧ g = (.port, ofText (Decimal.text x.toNat))) ∨
    (∃ x, o.chunkSize = some x ∧ g = (.chunkSize, ofText (Decimal.text x.toNat))) ∨
    (∃ x, o.backlog = some x ∧ g = (.backlog, ofText (Decimal.signedText x.toInt))) ∨
    (∃ x, o.runtime = some x ∧ g = (.runtime, ofText x.word)) ∨
    (∃ x, o.maxConnections = some x ∧ g = (.maxConnections, ofText (Decimal.text x.toNat))) ∨
    ∃ x, o.logLevel = some x ∧ g = (.logLevel, ofText x) := by
  simp only [given, List.mem_append, Option.mem_toList, Option.map_eq_some_iff, or_assoc,
    eq_comm (b := g)]

theorem level_given {o : Options} {g : Given} (h : g ∈ o.given) : g.1.level = .server := by
  rcases mem_given.mp h with ⟨_, _, rfl⟩ | ⟨_, _, rfl⟩ | ⟨_, _, rfl⟩ | ⟨_, _, rfl⟩ | ⟨_, _, rfl⟩ |
    ⟨_, _, rfl⟩ | ⟨_, _, rfl⟩ | ⟨_, _, rfl⟩ <;> rfl

theorem told {o : Options} (named : ∀ path ∈ o.config, path ≠ []) {g : Given} (h : g ∈ o.given) :
    o.draft.Says g.1 g.2 := by
  intro d
  rcases mem_given.mp h with ⟨x, there, rfl⟩ | ⟨x, there, rfl⟩ | ⟨x, there, rfl⟩ |
    ⟨x, there, rfl⟩ | ⟨x, there, rfl⟩ | ⟨x, there, rfl⟩ | ⟨x, there, rfl⟩ | ⟨x, there, rfl⟩
  · have read := pathValue_ok (named x there)
    simp [Draft.put, read, Except.map, Draft.patch, draft, there]
  · have read := textValue_ofText x
    simp [Draft.put, read, Except.map, Draft.patch, draft, there]
  · have read := numberValue_ofText .port (portValue_digits x)
    simp [Draft.put, Decimal.text, read, Except.map, Draft.patch, draft, there]
  · have read := numberValue_ofText .chunkSize (sizeValue_digits x)
    simp [Draft.put, Decimal.text, read, Except.map, Draft.patch, draft, there]
  · have read := numberValue_ofText .backlog (backlogValue_signedDigits x)
    simp [Draft.put, Decimal.signedText, read, Except.map, Draft.patch, draft, there]
  · have read := runtimeValue_ofText x
    simp [Draft.put, read, Except.map, Draft.patch, draft, there]
  · have read := numberValue_ofText .maxConnections (sizeValue_digits x)
    simp [Draft.put, Decimal.text, read, Except.map, Draft.patch, draft, there]
  · have read := textValue_ofText x
    simp [Draft.put, read, Except.map, Draft.patch, draft, there]

theorem once_given (o : Options) : (o.given.map Prod.fst).Nodup := by
  have part {α : Type} (x : Option α) (k : OptionName) (word : α → Word) :
      ((x.map fun a => (k, word a)).toList.map Prod.fst).Sublist [k] := by
    cases x with
    | none => exact List.nil_sublist _
    | some a => exact List.Sublist.refl _
  have all : (o.given.map Prod.fst).Sublist [.config, .host, .port, .chunkSize, .backlog,
      .runtime, .maxConnections, .logLevel] := by
    simp only [given, List.map_append]
    exact (((((((part _ _ _).append (part _ _ _)).append (part _ _ _)).append (part _ _ _)).append
      (part _ _ _)).append (part _ _ _)).append (part _ _ _)).append (part _ _ _)
  exact List.Nodup.sublist all (by decide)

theorem given_of_has {o : Options} {k : OptionName} (h : o.draft.has k = true) :
    k ∈ o.given.map Prod.fst := by
  suffices there : ∃ w, (k, w) ∈ o.given by
    obtain ⟨w, member⟩ := there
    exact List.mem_map_of_mem (f := Prod.fst) member
  simp only [mem_given, Prod.mk.injEq]
  cases k <;> simp [Draft.has, draft, Option.isSome_iff_exists] at h ⊢ <;> exact h

theorem giveAll_given {o : Options} (named : ∀ path ∈ o.config, path ≠ []) {gs : List Given}
    (order : gs.Perm o.given) : Draft.giveAll {} gs = .ok o.draft := by
  have once : (gs.map Prod.fst).Nodup := (order.map Prod.fst).nodup_iff.mpr o.once_given
  have given := Draft.giveAll_said o.draft (d := {})
    (fun g member => told named (order.mem_iff.mp member)) once
    (fun g _ => by cases g.1 <;> rfl)
  rw [given, Draft.patch_all]
  intro k has
  exact decide_eq_true ((order.map Prod.fst).mem_iff.mpr (given_of_has has))

end Options

namespace Probe

def draft (p : Probe) : Draft where
  target := some p.target
  message := some p.message

theorem mem_given {p : Probe} {g : Given} :
    g ∈ p.given ↔ g = (.target, ofText p.target) ∨ g = (.message, ofText p.message) := by
  simp [given]

theorem told {p : Probe} {g : Given} (h : g ∈ p.given) : p.draft.Says g.1 g.2 := by
  intro d
  rcases mem_given.mp h with rfl | rfl
  · have read := textValue_ofText p.target
    simp [Draft.put, read, Except.map, Draft.patch, draft]
  · have read := textValue_ofText p.message
    simp [Draft.put, read, Except.map, Draft.patch, draft]

theorem level_given {p : Probe} {g : Given} (h : g ∈ p.given) : g.1.level = .probe := by
  rcases mem_given.mp h with rfl | rfl <;> rfl

theorem usual_of_absent {p : Probe} {gs : List Given} (needed : ∀ g ∈ p.needed, g ∈ gs) :
    (.target ∉ gs.map Prod.fst → p.target = ({} : Probe).target) ∧
    (.message ∉ gs.map Prod.fst → p.message = ({} : Probe).message) := by
  have usual {g : Given} (there : g ∈ p.given) (absent : g.1 ∉ gs.map Prod.fst) :
      g ∈ given {} := by
    by_contra other
    apply absent
    apply List.mem_map_of_mem
    apply needed
    rw [Probe.needed, List.mem_filter]
    exact ⟨there, decide_eq_true other⟩
  constructor
  · intro absent
    have same := mem_given.mp (usual (mem_given.mpr (Or.inl rfl)) absent)
    simp only [Prod.mk.injEq, true_and, reduceCtorEq, false_and, or_false] at same
    exact ofText_injective same
  · intro absent
    have same := mem_given.mp (usual (mem_given.mpr (Or.inr rfl)) absent)
    simp only [Prod.mk.injEq, true_and, reduceCtorEq, false_and, false_or] at same
    exact ofText_injective same

theorem giveAll_given {p : Probe} {gs : List Given} (once : (gs.map Prod.fst).Nodup)
    (needed : ∀ g ∈ p.needed, g ∈ gs) (known : ∀ g ∈ gs, g ∈ p.given) :
    (Draft.giveAll {} gs).map Draft.probe = .ok p := by
  have given := Draft.giveAll_said p.draft (d := {}) (fun g member => told (known g member)) once
    (fun g _ => by cases g.1 <;> rfl)
  obtain ⟨target, message⟩ := usual_of_absent needed
  rw [given, Except.map, Except.ok.injEq]
  obtain ⟨t, m⟩ := p
  simp only [Draft.probe, Draft.patch, draft, Probe.mk.injEq, decide_eq_true_eq] at target message ⊢
  constructor
  · by_cases there : OptionName.target ∈ gs.map Prod.fst
    · rw [if_pos there, Option.getD_some]
    · rw [if_neg there, Option.getD_none, target there]
  · by_cases there : OptionName.message ∈ gs.map Prod.fst
    · rw [if_pos there, Option.getD_some]
    · rw [if_neg there, Option.getD_none, message there]

end Probe

namespace Options.IsMentioned

variable {o : Options} {server : List Mention} {probe : Option (List Mention)}
  (h : o.IsMentioned server probe)
include h

theorem server_level {m : Mention} (member : m ∈ server) : m.option.level = .server :=
  level_given (h.server_perm.mem_iff.mp (List.mem_map_of_mem member))

theorem server_once : ((server.map Mention.given).map Prod.fst).Nodup :=
  (h.server_perm.map Prod.fst).nodup_iff.mpr o.once_given

theorem giveAll_server (named : ∀ path ∈ o.config, path ≠ []) :
    Draft.giveAll {} (server.map Mention.given) = .ok o.draft :=
  giveAll_given named h.server_perm

theorem exists_probe {ms : List Mention} (there : probe = some ms) :
    ∃ p, o.probe = some p ∧ (∀ g ∈ p.needed, g ∈ ms.map Mention.given) ∧
      ∀ g ∈ ms.map Mention.given, g ∈ p.given := by
  have some_probe := h.probe_isSome
  rw [there, Option.isSome_some] at some_probe
  obtain ⟨p, asked⟩ := Option.isSome_iff_exists.mp some_probe.symm
  exact ⟨p, asked, h.probe_given p asked ms there⟩

theorem probe_level {ms : List Mention} (there : probe = some ms) {m : Mention} (member : m ∈ ms) :
    m.option.level = .probe := by
  obtain ⟨p, -, -, known⟩ := h.exists_probe there
  exact Probe.level_given (known m.given (List.mem_map_of_mem member))

theorem probe_once {ms : List Mention} (there : probe = some ms) :
    ((ms.map Mention.given).map Prod.fst).Nodup := by
  rw [options_of_given]
  exact h.probe_nodup ms there

theorem readProbe_eq {ms : List Mention} (there : probe = some ms) :
    ∃ p, o.probe = some p ∧ readProbe {} (ms.flatMap Mention.words) = .ok p := by
  obtain ⟨p, asked, needed, known⟩ := h.exists_probe there
  refine ⟨p, asked, ?_⟩
  rw [readProbe_mentions (h.probe_fits ms there) fun m => h.probe_level there,
    Probe.giveAll_given (h.probe_once there) needed known]
  rfl

end Options.IsMentioned

theorem forall_inserted {P : Mention → Prop} {before after : List Mention} {m : Mention} (new : P m)
    (others : ∀ k ∈ before ++ after, P k) : ∀ k ∈ before ++ m :: after, P k := by
  intro k member
  simp only [List.mem_append, List.mem_cons] at member
  rcases member with earlier | rfl | later
  · exact others k (List.mem_append_left after earlier)
  · exact new
  · exact others k (List.mem_append_right before later)

theorem Mention.Repeats.giveAll {before after : List Mention} {m : Mention}
    (repeats : m.Repeats (before ++ after))
    (reads : ∀ k ∈ before ++ after, Draft.Reads k.option k.value)
    (once : (((before ++ after).map Mention.given).map Prod.fst).Nodup) :
    Draft.giveAll {} ((before ++ m :: after).map Mention.given) = .error (.repeated m.option) := by
  have again := repeats.again
  rw [← options_of_given, List.map_append] at again
  rw [List.map_append] at once
  rw [List.map_append, List.map_cons]
  apply Draft.giveAll_inserted _ once again
  intro g among
  rw [← List.map_cons, ← List.map_append] at among
  obtain ⟨k, member, rfl⟩ := List.mem_map.mp among
  exact forall_inserted repeats.reads reads k member

theorem Mention.Repeats.level {ms : List Mention} {m : Mention} (repeats : m.Repeats ms)
    {l : Level} (level : ∀ k ∈ ms, k.option.level = l) : m.option.level = l := by
  obtain ⟨k, member, same⟩ := List.mem_map.mp repeats.again
  rw [← same]
  exact level k member

theorem parse_server {ms : List Mention} (fits : ∀ m ∈ ms, m.fits = true)
    (level : ∀ m ∈ ms, m.option.level = .server) {o : Options} {server : List Mention}
    {probe : Option (List Mention)} (mentioned : o.IsMentioned server probe) :
    parse (written ms probe) =
      ((Draft.giveAll {} (ms.map Mention.given)).map (·.options o.probe)).mapError .usage := by
  unfold parse written
  cases there : probe with
  | none =>
    have none_asked : o.probe = none := by
      rw [← Option.not_isSome_iff_eq_none, ← mentioned.probe_isSome, there]
      exact Bool.false_ne_true
    rw [none_asked, Option.elim_none, List.append_nil, readServer_mentions fits level]
  | some ps =>
    obtain ⟨p, asked, read⟩ := mentioned.readProbe_eq there
    rw [asked]
    exact readServer_probe fits level read

/-- A command line that says what the options are, in some order and spelling, is read as those
options. With one more mention of an option in it, on either level and anywhere on that level, it
is refused. -/
theorem mentions_read_back (o : Options) (server : List Mention) (probe : Option (List Mention))
    (named : ∀ path ∈ o.config, path ≠ []) (mentioned : o.IsMentioned server probe) :
    parse (written server probe) = .ok o ∧
    (∀ before after m, server = before ++ after → m.Repeats server →
      ∃ e, parse (written (before ++ m :: after) probe) = .error (.usage e) ∧
        e = .repeated m.option ∧ e.kind = "ArgumentConflict") ∧
    ∀ before after m, probe = some (before ++ after) → m.Repeats (before ++ after) →
      ∃ e, parse (written server (some (before ++ m :: after))) = .error (.usage e) ∧
        e = .repeated m.option ∧ e.kind = "ArgumentConflict" := by
  have given := mentioned.giveAll_server named
  refine ⟨?_, ?_, ?_⟩
  · rw [parse_server mentioned.server_fits (fun _ => mentioned.server_level) mentioned, given]
    rfl
  · -- In front of the probe, the level refuses the option whatever the probe comes to.
    rintro before after m rfl repeats
    have refused := repeats.giveAll (fun k member => Draft.reads_of_said
      (Options.told named (mentioned.server_perm.mem_iff.mp (List.mem_map_of_mem member))))
      mentioned.server_once
    have fits := forall_inserted repeats.fits mentioned.server_fits
    have level := forall_inserted (repeats.level fun _ => mentioned.server_level)
      fun _ => mentioned.server_level
    refine ⟨.repeated m.option, ?_, rfl, rfl⟩
    rw [parse_server fits level mentioned, refused]
    rfl
  · -- Behind it, the probe is read first, so that its error is the one that is seen.
    intro before after m there repeats
    obtain ⟨p, -, -, known⟩ := mentioned.exists_probe there
    have refused := repeats.giveAll (fun k member => Draft.reads_of_said
      (Probe.told (known k.given (List.mem_map_of_mem member)))) (mentioned.probe_once there)
    have fits := forall_inserted repeats.fits (mentioned.probe_fits _ there)
    have level := forall_inserted (repeats.level fun _ => mentioned.probe_level there)
      fun _ => mentioned.probe_level there
    refine ⟨.repeated m.option, ?_, rfl, rfl⟩
    unfold parse written
    apply readServer_probe_error mentioned.server_fits (fun _ => mentioned.server_level) given
    rw [readProbe_mentions fits level, refused]
    rfl

def awkward : Options where
  config := some (ofText "probe")
  host := some "--port=1"
  port := some 65535
  chunkSize := some 0xFFFFFFFFFFFFFFFF
  backlog := some (-2147483648)
  runtime := some .concurrent
  maxConnections := some 0
  logLevel := some ""
  probe := some { target := "help" }

def awkwardSpelling : OptionName → Spelling
  | .config => .letterApart
  | .port => .letterJoined
  | .chunkSize => .nameApart
  | .runtime => .letterEquals
  | .target => .letterApart
  | _ => .nameEquals

def awkwardly (g : Given) : Mention := ⟨g.1, g.2, awkwardSpelling g.1⟩

theorem awkward_read_back :
    (∀ path ∈ awkward.config, path ≠ []) ∧
    awkward.IsMentioned (awkward.given.reverse.map awkwardly)
      (some [awkwardly (.target, ofText "help")]) ∧
    parse (written (awkward.given.reverse.map awkwardly)
      (some [awkwardly (.target, ofText "help")])) = .ok awkward ∧
    (∃ e, parse (written (awkwardly (.host, ofText "probe") :: awkward.given.reverse.map awkwardly)
      (some [awkwardly (.target, ofText "help")])) = .error (.usage e) ∧
        e = .repeated .host ∧ e.kind = "ArgumentConflict") ∧
    ∃ e, parse (written (awkward.given.reverse.map awkwardly)
      (some [awkwardly (.target, ofText "help"), ⟨.target, [], .nameEquals⟩])) =
        .error (.usage e) ∧ e = .repeated .target ∧ e.kind = "ArgumentConflict" := by
  have named : ∀ path ∈ awkward.config, path ≠ [] := by decide
  have mentioned : awkward.IsMentioned (awkward.given.reverse.map awkwardly)
      (some [awkwardly (.target, ofText "help")]) := by
    constructor
    · decide +kernel
    · rw [List.map_map]
      exact (List.map_id _).symm ▸ List.reverse_perm _
    · decide +kernel
    · rfl
    · decide +kernel
    · decide +kernel
  obtain ⟨read, server, probe⟩ := mentions_read_back awkward _ _ named mentioned
  refine ⟨named, mentioned, read, ?_, ?_⟩
  · exact server [] _ (awkwardly (.host, ofText "probe")) rfl
      ⟨by decide +kernel, ⟨_, rfl⟩, by decide +kernel⟩
  · exact probe [_] [] ⟨.target, [], .nameEquals⟩ rfl ⟨by decide, ⟨_, rfl⟩, by decide +kernel⟩

end TcpEcho.CommandLine
