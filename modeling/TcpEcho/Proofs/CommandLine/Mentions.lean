import TcpEcho.Proofs.CommandLine.Values
/- Options word by word: a mention of an option gives the level that option, whatever its
   spelling and whatever stands in its value. -/
namespace TcpEcho.CommandLine

namespace OptionName

theorem ofLong?_long (o : OptionName) : ofLong? o.level o.long = some o := by
  cases o <;> decide

theorem ofShort?_short {o : OptionName} {c : Char} (h : o.short = some c) :
    ofShort? o.level c = some o := by
  cases o <;> cases h <;> decide

theorem equals_notMem_long (o : OptionName) : equals ∉ Utf8.encode o.long := by
  cases o <;> decide

theorem encode_long_ne_nil (o : OptionName) : Utf8.encode o.long ≠ [] := by
  cases o <;> decide

theorem encode_short {o : OptionName} {c : Char} (h : o.short = some c) :
    ∃ b, String.utf8EncodeChar c = [b] ∧ b ≠ dash := by
  cases o <;> cases h <;> exact ⟨_, rfl, by decide⟩

end OptionName

theorem forall_ne_of_notMem {b : UInt8} {w : Word} (absent : b ∉ w) :
    ∀ a ∈ w, decide (a ≠ b) = true := by
  intro a member
  rw [decide_eq_true_eq]
  rintro rfl
  exact absent member

theorem splitValue_name {name : Word} (plain : equals ∉ name) : splitValue name = (name, none) := by
  have run := span_self (forall_ne_of_notMem plain)
  rw [splitValue, run]

theorem splitValue_append {name : Word} (plain : equals ∉ name) (v : Word) :
    splitValue (name ++ equals :: v) = (name, some v) := by
  have run := span_append (forall_ne_of_notMem plain) (decide_eq_false (not_not_intro rfl)) v
  rw [splitValue, run]

namespace Reading

/-- Nothing stands open: the next word is no value, and options may follow. -/
structure Rests (r : Reading) : Prop where
  open_to_options : r.trailing = false
  not_waiting : r.waiting = false

theorem attach_eq (r : Reading) (o : OptionName) (w : Word) :
    r.attach o w = (r.settle.bind (·.give o w)).map fun d => { draft := d } := by
  unfold attach
  cases r.settle <;> rfl

end Reading

section Words

variable {l : Level} {r : Reading} {o : OptionName}

theorem readWord_of_name (going : r.trailing = false) {w : Word} (some_octet : w ≠ []) :
    readWord l r (dash :: dash :: w) = longOption l r w := by
  simp [readWord, going, some_octet]

theorem readWord_of_letter (going : r.trailing = false) {b : UInt8} (other : b ≠ dash) (w : Word) :
    readWord l r (dash :: b :: w) = shortOption l r (b :: w) := by
  simp [readWord, going, other]

theorem readWord_of_value (before : Draft) {v : Word} (plain : v.head? ≠ some dash) :
    readWord l { draft := before, pending := some (o, none) } v =
      .ok { draft := before, pending := some (o, some v) } := by
  cases v with
  | nil => rfl
  | cons a v =>
    have other : a ≠ dash := fun same => plain (by rw [same, List.head?_cons])
    cases v with
    | nil => rfl
    | cons b v => simp [readWord, other, readWord.takeValue, Reading.waiting]

theorem longOption_name (r : Reading) (o : OptionName) :
    longOption o.level r (Utf8.encode o.long) = (r.await o).mapError .usage := by
  have read : Utf8.decode? (Utf8.encode o.long) = some o.long := Utf8.decode?_encode o.long
  simp only [longOption, splitValue_name o.equals_notMem_long, read, o.ofLong?_long]

theorem longOption_value (r : Reading) (o : OptionName) (v : Word) :
    longOption o.level r (Utf8.encode o.long ++ equals :: v) = (r.attach o v).mapError .usage := by
  have read : Utf8.decode? (Utf8.encode o.long) = some o.long := Utf8.decode?_encode o.long
  simp only [longOption, splitValue_append o.equals_notMem_long, read, o.ofLong?_long]

theorem shortOption_letter (r : Reading) {c : Char} (short : o.short = some c) (rest : Word) :
    shortOption o.level r (String.utf8EncodeChar c ++ rest) =
      ((letterValue rest).elim (r.await o) (r.attach o)).mapError .usage := by
  obtain ⟨cs, left, valid⟩ : ∃ cs left,
      Utf8.validPart (String.utf8EncodeChar c ++ rest) = (c :: cs, left) := by
    simp only [Utf8.validPart, Utf8.scan_encode, List.takeWhile_cons, Option.isSome_some, if_true,
      List.filterMap_cons, id_eq]
    exact ⟨_, _, rfl⟩
  simp only [shortOption, valid, OptionName.ofShort?_short short, List.drop_left]
  cases letterValue rest <;> rfl

theorem readWord_nameEquals (r : Reading) (o : OptionName) (v : Word) (going : r.trailing = false) :
    readWord o.level r (Mention.name o ++ equals :: v) = (r.attach o v).mapError .usage := by
  rw [← longOption_value r o v]
  apply readWord_of_name going
  simp

theorem readWord_name (r : Reading) (o : OptionName) (going : r.trailing = false) :
    readWord o.level r (Mention.name o) = (r.await o).mapError .usage := by
  rw [← longOption_name r o]
  exact readWord_of_name going o.encode_long_ne_nil

theorem readWord_letter (r : Reading) {o : OptionName} (short : o.short.isSome = true) (rest : Word)
    (going : r.trailing = false) :
    readWord o.level r (Mention.letter o ++ rest) =
      ((letterValue rest).elim (r.await o) (r.attach o)).mapError .usage := by
  obtain ⟨c, letter⟩ := Option.isSome_iff_exists.mp short
  obtain ⟨b, octet, other⟩ := OptionName.encode_short letter
  have same : Mention.letter o = dash :: String.utf8EncodeChar c := by
    simp [Mention.letter, letter, Utf8.encode, Char.toString]
  rw [← shortOption_letter r letter rest, same, octet]
  exact readWord_of_letter going other rest

theorem letterValue_of_plain {v : Word} (plain : Mention.isPlain v = true) :
    letterValue v = some v := by
  cases v with
  | nil => simp [Mention.isPlain] at plain
  | cons b v =>
    simp only [Mention.isPlain, List.head?_cons] at plain
    simp_all [letterValue]

theorem letterValue_equals (v : Word) : letterValue (equals :: v) = some v := by
  simp [letterValue]

end Words

/-- A reader of whole command lines that takes the options of a level word by word. -/
def TakesWords {α : Type} (l : Level) (f : Reading → List Word → Except Stop α) : Prop :=
  ∀ r w ws, w.head? = some dash ∨ r.waiting = true → f r (w :: ws) =
    match readWord l r w with
    | .error s => .error s
    | .ok r => f r ws

theorem readProbe_takesWords : TakesWords .probe readProbe := by
  intro r w ws _
  cases read : readWord .probe r w <;> simp only [readProbe, read]

theorem readServer_takesWords : TakesWords .server readServer := by
  intro r w ws option
  -- No command begins with a dash, and none is looked for while a value is waited for.
  have no_command : ∀ c : Word, c.head? ≠ some dash →
      ¬ (!r.waiting && !r.trailing && decide (w = c)) = true := by
    intro c other taken
    simp only [Bool.and_eq_true, decide_eq_true_eq, Bool.not_eq_true'] at taken
    obtain ⟨⟨not_waiting, -⟩, rfl⟩ := taken
    rcases option with dashed | waiting
    · exact other dashed
    · rw [waiting] at not_waiting
      cases not_waiting
  have no_help := no_command helpWord (by decide)
  have no_probe := no_command probeWord (by decide)
  cases read : readWord .server r w <;>
    simp only [readServer, if_neg no_help, if_neg no_probe, read]

section Mentions

variable {α : Type} {l : Level} {f : Reading → List Word → Except Stop α} {r : Reading}

/-- The words give the level an option: an error ends the reading, at once or when the option is
judged, and else the reading goes on with the option among those given. -/
def Gives (f : Reading → List Word → Except Stop α) (r : Reading) (o : OptionName) (v : Word)
    (words : List Word) : Prop :=
  ∀ ws, (∃ e, r.settle.bind (·.give o v) = .error e ∧ f r (words ++ ws) = .error (.usage e)) ∨
    ∃ r' : Reading, r'.Rests ∧ r'.settle = r.settle.bind (·.give o v) ∧
      f r (words ++ ws) = f r' ws

theorem gives_attached (takes : TakesWords l f) {o : OptionName} {v w : Word}
    (dashed : w.head? = some dash) (word : readWord l r w = (r.attach o v).mapError .usage) :
    Gives f r o v [w] := by
  intro ws
  have step := takes r w ws (Or.inl dashed)
  rw [word, Reading.attach_eq] at step
  rw [List.singleton_append, step]
  cases given : r.settle.bind (·.give o v) with
  | error e => exact Or.inl ⟨e, rfl, rfl⟩
  | ok d => exact Or.inr ⟨{ draft := d }, ⟨rfl, rfl⟩, rfl, rfl⟩

theorem gives_apart (takes : TakesWords l f) {o : OptionName} {v w : Word}
    (dashed : w.head? = some dash) (word : readWord l r w = (r.await o).mapError .usage)
    (plain : v.head? ≠ some dash) : Gives f r o v [w, v] := by
  intro ws
  have step := takes r w (v :: ws) (Or.inl dashed)
  rw [word] at step
  rw [List.cons_append, List.singleton_append, step]
  unfold Reading.await
  cases settled : r.settle with
  | error e => exact Or.inl ⟨e, rfl, rfl⟩
  | ok d =>
    have next := takes { draft := d, pending := some (o, none) } v ws (Or.inr rfl)
    rw [readWord_of_value d plain] at next
    exact Or.inr ⟨{ draft := d, pending := some (o, some v) }, ⟨rfl, rfl⟩, rfl, next⟩

theorem head_of_plain {v : Word} (plain : Mention.isPlain v = true) : v.head? ≠ some dash := by
  simp only [Mention.isPlain, Bool.and_eq_true, decide_eq_true_eq] at plain
  exact plain.1.2

theorem Mention.gives {m : Mention} (takes : TakesWords m.option.level f) (fits : m.fits = true)
    (rests : r.Rests) : Gives f r m.option m.value m.words := by
  have going := rests.open_to_options
  unfold Mention.fits at fits
  unfold Mention.words
  cases spelling : m.spelling with
  | nameEquals =>
    exact gives_attached takes rfl (readWord_nameEquals r m.option m.value going)
  | nameApart =>
    rw [spelling] at fits
    exact gives_apart takes rfl (readWord_name r m.option going) (head_of_plain fits)
  | letterApart =>
    simp only [spelling, Bool.and_eq_true] at fits
    have word := readWord_letter r fits.1 [] going
    rw [List.append_nil] at word
    exact gives_apart takes rfl word (head_of_plain fits.2)
  | letterJoined =>
    simp only [spelling, Bool.and_eq_true] at fits
    have word := readWord_letter r fits.1 m.value going
    rw [letterValue_of_plain fits.2] at word
    exact gives_attached takes rfl word
  | letterEquals =>
    simp only [spelling, Bool.and_eq_true] at fits
    have word := readWord_letter r fits.1 (equals :: m.value) going
    rw [letterValue_equals] at word
    exact gives_attached takes rfl word

theorem read_mentions {ms : List Mention} (takes : TakesWords l f)
    (fits : ∀ m ∈ ms, m.fits = true) (level : ∀ m ∈ ms, m.option.level = l) (rests : r.Rests)
    (ws : List Word) :
    (∃ e, r.settle.bind (·.giveAll (ms.map Mention.given)) = .error e ∧
      f r (ms.flatMap Mention.words ++ ws) = .error (.usage e)) ∨
    ∃ r' : Reading, r'.Rests ∧
      r'.settle = r.settle.bind (·.giveAll (ms.map Mention.given)) ∧
      f r (ms.flatMap Mention.words ++ ws) = f r' ws := by
  induction ms generalizing r with
  | nil =>
    refine Or.inr ⟨r, rests, ?_, rfl⟩
    cases r.settle <;> rfl
  | cons m ms ih =>
    have here : TakesWords m.option.level f := level m (by simp) ▸ takes
    have first := m.gives here (fits m (by simp)) rests (ms.flatMap Mention.words ++ ws)
    -- What is given first is judged with the next mention, so the options are those after it.
    have split : r.settle.bind (·.giveAll ((m :: ms).map Mention.given)) =
        (r.settle.bind (·.give m.option m.value)).bind (·.giveAll (ms.map Mention.given)) := by
      cases r.settle <;> rfl
    rw [List.flatMap_cons, List.append_assoc, split]
    rcases first with ⟨e, wrong, stop⟩ | ⟨next, still, settled, goes_on⟩
    · exact Or.inl ⟨e, by rw [wrong]; rfl, stop⟩
    · rw [goes_on, ← settled]
      apply ih
      · intro m' among
        exact fits m' (List.mem_cons_of_mem m among)
      · intro m' among
        exact level m' (List.mem_cons_of_mem m among)
      · exact still

theorem read_all_mentions {ms : List Mention} (takes : TakesWords l f)
    (fits : ∀ m ∈ ms, m.fits = true) (level : ∀ m ∈ ms, m.option.level = l) (ws : List Word) :
    (∃ e, Draft.giveAll {} (ms.map Mention.given) = .error e ∧
      f {} (ms.flatMap Mention.words ++ ws) = .error (.usage e)) ∨
    ∃ r : Reading, r.Rests ∧ r.settle = Draft.giveAll {} (ms.map Mention.given) ∧
      f {} (ms.flatMap Mention.words ++ ws) = f r ws :=
  read_mentions (r := {}) takes fits level ⟨rfl, rfl⟩ ws

end Mentions

theorem readProbe_mentions {ms : List Mention} (fits : ∀ m ∈ ms, m.fits = true)
    (level : ∀ m ∈ ms, m.option.level = .probe) :
    readProbe {} (ms.flatMap Mention.words) =
      ((Draft.giveAll {} (ms.map Mention.given)).map Draft.probe).mapError .usage := by
  have read := read_all_mentions readProbe_takesWords fits level []
  rw [List.append_nil] at read
  rcases read with ⟨e, wrong, stop⟩ | ⟨r, -, settled, same⟩
  · rw [stop, wrong]
    rfl
  · rw [same, readProbe, settled]

theorem readServer_mentions {ms : List Mention} (fits : ∀ m ∈ ms, m.fits = true)
    (level : ∀ m ∈ ms, m.option.level = .server) :
    readServer {} (ms.flatMap Mention.words) =
      ((Draft.giveAll {} (ms.map Mention.given)).map (·.options none)).mapError .usage := by
  have read := read_all_mentions readServer_takesWords fits level []
  rw [List.append_nil] at read
  rcases read with ⟨e, wrong, stop⟩ | ⟨r, -, settled, same⟩
  · rw [stop, wrong]
    rfl
  · rw [same, readServer, settled]

theorem readServer_probeWord {r : Reading} (rests : r.Rests) (ws : List Word) :
    readServer r (probeWord :: ws) =
      match readProbe {} ws with
      | .error s => .error s
      | .ok p => (r.settle.map (·.options (some p))).mapError .usage := by
  have no_help : probeWord ≠ helpWord := by decide
  cases probe : readProbe {} ws <;>
    simp only [readServer, rests.open_to_options, rests.not_waiting, no_help, Bool.not_false,
      Bool.and_self, decide_false, decide_true, Bool.and_false, Bool.false_eq_true, if_true,
      if_false, probe]

theorem readServer_probe {ms : List Mention} (fits : ∀ m ∈ ms, m.fits = true)
    (level : ∀ m ∈ ms, m.option.level = .server) {ws : List Word} {p : Probe}
    (probe : readProbe {} ws = .ok p) :
    readServer {} (ms.flatMap Mention.words ++ probeWord :: ws) =
      ((Draft.giveAll {} (ms.map Mention.given)).map (·.options (some p))).mapError .usage := by
  rcases read_all_mentions readServer_takesWords fits level (probeWord :: ws) with
    ⟨e, wrong, stop⟩ | ⟨r, rests, settled, same⟩
  · rw [stop, wrong]
    rfl
  · rw [same, readServer_probeWord rests, probe, settled]

theorem readServer_probe_error {ms : List Mention} (fits : ∀ m ∈ ms, m.fits = true)
    (level : ∀ m ∈ ms, m.option.level = .server) {d : Draft}
    (given : Draft.giveAll {} (ms.map Mention.given) = .ok d) {ws : List Word} {s : Stop}
    (probe : readProbe {} ws = .error s) :
    readServer {} (ms.flatMap Mention.words ++ probeWord :: ws) = .error s := by
  rcases read_all_mentions readServer_takesWords fits level (probeWord :: ws) with
    ⟨e, wrong, -⟩ | ⟨r, rests, -, same⟩
  · rw [given] at wrong
    cases wrong
  · rw [same, readServer_probeWord rests, probe]

end TcpEcho.CommandLine
