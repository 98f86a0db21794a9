import Mathlib.Tactic.SplitIfs
import TcpEcho.CommandLine.Written
import TcpEcho.Proofs.Text.Runs
import TcpEcho.Proofs.Text.Utf8
/- The values of options as they are written: each is read back as it was, and an option that
   has been read is one that the level has. -/
namespace TcpEcho.CommandLine

open Decimal (isDigit digitValue digits signedDigits)

theorem textValue_ofText (s : String) : textValue (ofText s) = .ok s := by
  have read : Utf8.decode? (ofText s) = some s := Utf8.decode?_encode s
  simp only [textValue, read]

theorem pathValue_ok {w : Word} (named : w ≠ []) : pathValue w = .ok w := if_neg named

theorem runtimeValue_ofText (r : Runtime) : runtimeValue (ofText r.word) = .ok r := by
  have read : Utf8.decode? (ofText r.word) = some r.word := Utf8.decode?_encode r.word
  have known : Runtime.ofWord? r.word = some r := by cases r <;> decide
  simp only [runtimeValue, read, Option.bind_some, known]

theorem numberValue_ofText {α : Type} (o : OptionName) {read : List Char → Except NumberFault α}
    {cs : List Char} {x : α} (h : read cs = .ok x) :
    numberValue o read (ofText (String.ofList cs)) = .ok x := by
  simp only [numberValue, textValue_ofText, String.toList_ofList, h]
  rfl

section Numbers

theorem le_foldl_digits (cs : List Char) (n : Nat) :
    n ≤ cs.foldl (fun n c => 10 * n + digitValue c) n := by
  induction cs generalizing n with
  | nil => exact Nat.le_refl n
  | cons c cs ih =>
    have grown := ih (10 * n + digitValue c)
    rw [List.foldl_cons]
    omega

theorem boundedValue_of_le (bound : Nat) (cs : List Char) (n : Nat)
    (each : ∀ c ∈ cs, isDigit c = true)
    (small : cs.foldl (fun n c => 10 * n + digitValue c) n ≤ bound) :
    boundedValue bound n cs = .ok (cs.foldl (fun n c => 10 * n + digitValue c) n) := by
  induction cs generalizing n with
  | nil => rfl
  | cons c cs ih =>
    have digit : isDigit c = true := each c (by simp)
    -- A number that has been read in part only grows, so it is no greater than the whole.
    have grown := le_foldl_digits cs (10 * n + digitValue c)
    rw [List.foldl_cons] at small
    have within : ¬ bound < 10 * n + digitValue c := by omega
    simp only [boundedValue, digit, within, Bool.not_true, Bool.false_eq_true, if_false]
    apply ih
    · intro d among
      exact each d (List.mem_cons_of_mem c among)
    · exact small

theorem boundedValue_digits {bound n : Nat} (small : n ≤ bound) :
    boundedValue bound 0 (digits n) = .ok n := by
  have whole : (digits n).foldl (fun n c => 10 * n + digitValue c) 0 = n := Decimal.value_digits n
  have read := boundedValue_of_le bound (digits n) 0
    (fun _ => Decimal.isDigit_of_mem_digits) (by rw [whole]; exact small)
  rw [whole] at read
  exact read

theorem digits_ne_cons {c : Char} (other : isDigit c = false) (n : Nat) (cs : List Char) :
    digits n ≠ c :: cs := by
  intro same
  have digit := Decimal.isDigit_of_mem_digits (n := n) (c := c) (by simp [same])
  rw [other] at digit
  cases digit

theorem unsigned_digits {bound n : Nat} (small : n ≤ bound) :
    unsigned bound (digits n) = .ok n := by
  unfold unsigned
  split
  · rename_i none
    exact absurd none Nat.toDigits_ne_nil
  · rename_i sign
    exact absurd sign (digits_ne_cons (by decide) n _)
  · rename_i sign
    exact absurd sign (digits_ne_cons (by decide) n _)
  · exact boundedValue_digits small

theorem signed_signedDigits {bound : Nat} {n : Int} (low : -(bound + 1 : Int) ≤ n)
    (high : n ≤ bound) : signed bound (signedDigits n) = .ok n := by
  unfold signedDigits
  split_ifs with negative
  · obtain ⟨c, cs, same⟩ := Decimal.exists_digits n.natAbs
    have read : boundedValue (bound + 1) 0 (digits n.natAbs) = .ok n.natAbs :=
      boundedValue_digits (by omega)
    rw [same] at read ⊢
    simp only [signed, read, Except.ok.injEq]
    omega
  · have read : unsigned bound (digits n.natAbs) = .ok n.natAbs := unsigned_digits (by omega)
    unfold signed
    split
    · rename_i sign
      exact absurd sign (digits_ne_cons (by decide) _ _)
    · rename_i sign
      exact absurd sign (digits_ne_cons (by decide) _ _)
    · rw [read]
      simp only [Except.map, Except.ok.injEq, Int.ofNat_eq_natCast]
      omega

theorem ranged_signedDigits {low high n : Int} (above : low ≤ n) (below : n ≤ high)
    (least : -0x8000000000000000 ≤ low) (most : high ≤ 0x7FFFFFFFFFFFFFFF) :
    ranged low high (signedDigits n) = .ok n := by
  have read : signed 0x7FFFFFFFFFFFFFFF (signedDigits n) = .ok n :=
    signed_signedDigits (by omega) (by omega)
  simp only [ranged, read, above, below, and_self, if_true]

theorem portValue_digits (p : UInt16) : portValue (digits p.toNat) = .ok p := by
  have small := p.toNat_lt
  have read : ranged 0 65535 (signedDigits (p.toNat : Int)) = .ok (p.toNat : Int) :=
    ranged_signedDigits (by omega) (by omega) (by decide) (by decide)
  rw [Decimal.signedDigits_ofNat] at read
  simp only [portValue, read, Except.map, Int.toNat_natCast, UInt16.ofNat_toNat]

theorem backlogValue_signedDigits (b : Int32) : backlogValue (signedDigits b.toInt) = .ok b := by
  have low := b.minValue_le_toInt
  have high := b.toInt_lt
  simp at low
  have read : ranged (-2147483648) 2147483647 (signedDigits b.toInt) = .ok b.toInt :=
    ranged_signedDigits (by omega) (by omega) (by decide) (by decide)
  simp only [backlogValue, read, Except.map, Int32.ofInt_toInt]

theorem sizeValue_digits (n : UInt64) : sizeValue (digits n.toNat) = .ok n := by
  have small := n.toNat_lt
  have read : unsigned 0xFFFFFFFFFFFFFFFF (digits n.toNat) = .ok n.toNat :=
    unsigned_digits (by omega)
  simp only [sizeValue, read, Except.map, UInt64.ofNat_toNat]

end Numbers

namespace Draft

/-- A draft with some of its options taken from another. -/
def patch (d full : Draft) (p : OptionName → Bool) : Draft where
  config := if p .config then full.config else d.config
  host := if p .host then full.host else d.host
  port := if p .port then full.port else d.port
  chunkSize := if p .chunkSize then full.chunkSize else d.chunkSize
  backlog := if p .backlog then full.backlog else d.backlog
  runtime := if p .runtime then full.runtime else d.runtime
  maxConnections := if p .maxConnections then full.maxConnections else d.maxConnections
  logLevel := if p .logLevel then full.logLevel else d.logLevel
  target := if p .target then full.target else d.target
  message := if p .message then full.message else d.message

/-- The word gives the option the value that it has in the draft, whatever stood before it. -/
def Says (full : Draft) (o : OptionName) (w : Word) : Prop :=
  ∀ d : Draft, d.put o w = .ok (d.patch full (· = o))

theorem patch_none (d full : Draft) : d.patch full (fun _ => false) = d := by
  simp [patch]

theorem patch_patch (d full : Draft) (p q : OptionName → Bool) :
    (d.patch full p).patch full q = d.patch full fun o => p o || q o := by
  have field {α : Type} (x y : α) (b c : Bool) :
      (if c then x else if b then x else y) = if b || c then x else y := by
    cases b <;> cases c <;> rfl
  simp only [patch, field]

theorem has_patch (d full : Draft) (p : OptionName → Bool) (o : OptionName) :
    (d.patch full p).has o = if p o then full.has o else d.has o := by
  cases o <;> simp only [has, patch] <;> split <;> rfl

theorem patch_all {full : Draft} {p : OptionName → Bool}
    (all : ∀ o, full.has o = true → p o = true) : patch {} full p = full := by
  have field {α : Type} (x : Option α) (b : Bool) (h : x.isSome = true → b = true) :
      (if b then x else none) = x := by
    cases x with
    | none => exact ite_self none
    | some x => rw [h rfl, if_pos rfl]
  unfold patch
  rw [field _ _ (all .config), field _ _ (all .host), field _ _ (all .port),
    field _ _ (all .chunkSize), field _ _ (all .backlog), field _ _ (all .runtime),
    field _ _ (all .maxConnections), field _ _ (all .logLevel), field _ _ (all .target),
    field _ _ (all .message)]

theorem put_of_reads {α : Type} {o : OptionName} {w : Word} (r : Except UsageError α)
    (set : α → Draft → Draft) (reads : ∀ d : Draft, d.put o w = r.map (set · d))
    (has_set : ∀ x, (set x {}).has o = true)
    (set_eq : ∀ x d, set x d = d.patch (set x {}) (· = o)) :
    (∃ e, ∀ d : Draft, d.put o w = .error e) ∨
    ∃ full : Draft, full.has o = true ∧ full.Says o w := by
  cases r with
  | error e => exact Or.inl ⟨e, reads⟩
  | ok x =>
    refine Or.inr ⟨set x {}, has_set x, ?_⟩
    intro d
    rw [reads d, ← set_eq x d]
    rfl

theorem put_cases (o : OptionName) (w : Word) :
    (∃ e, ∀ d : Draft, d.put o w = .error e) ∨
    ∃ full : Draft, full.has o = true ∧ full.Says o w := by
  cases o with
  | config =>
    exact put_of_reads (pathValue w) (fun x d => { d with config := some x }) (fun _ => rfl)
      (fun _ => rfl) (fun _ _ => rfl)
  | host =>
    exact put_of_reads (textValue w) (fun x d => { d with host := some x }) (fun _ => rfl)
      (fun _ => rfl) (fun _ _ => rfl)
  | port =>
    exact put_of_reads (numberValue .port portValue w) (fun x d => { d with port := some x })
      (fun _ => rfl) (fun _ => rfl) (fun _ _ => rfl)
  | chunkSize =>
    exact put_of_reads (numberValue .chunkSize sizeValue w)
      (fun x d => { d with chunkSize := some x }) (fun _ => rfl) (fun _ => rfl) (fun _ _ => rfl)
  | backlog =>
    exact put_of_reads (numberValue .backlog backlogValue w)
      (fun x d => { d with backlog := some x }) (fun _ => rfl) (fun _ => rfl) (fun _ _ => rfl)
  | runtime =>
    exact put_of_reads (runtimeValue w) (fun x d => { d with runtime := some x }) (fun _ => rfl)
      (fun _ => rfl) (fun _ _ => rfl)
  | maxConnections =>
    exact put_of_reads (numberValue .maxConnections sizeValue w)
      (fun x d => { d with maxConnections := some x }) (fun _ => rfl) (fun _ => rfl)
      (fun _ _ => rfl)
  | logLevel =>
    exact put_of_reads (textValue w) (fun x d => { d with logLevel := some x }) (fun _ => rfl)
      (fun _ => rfl) (fun _ _ => rfl)
  | target =>
    exact put_of_reads (textValue w) (fun x d => { d with target := some x }) (fun _ => rfl)
      (fun _ => rfl) (fun _ _ => rfl)
  | message =>
    exact put_of_reads (textValue w) (fun x d => { d with message := some x }) (fun _ => rfl)
      (fun _ => rfl) (fun _ _ => rfl)

def giveAll (d : Draft) : List Given → Except UsageError Draft
  | [] => .ok d
  | g :: gs => (d.give g.1 g.2).bind (·.giveAll gs)

theorem giveAll_append (d : Draft) (before after : List Given) :
    d.giveAll (before ++ after) = (d.giveAll before).bind (·.giveAll after) := by
  induction before generalizing d with
  | nil => rfl
  | cons g before ih =>
    simp only [List.cons_append, giveAll]
    cases d.give g.1 g.2 with
    | error e => rfl
    | ok d => exact ih d

theorem give_fresh {d : Draft} {o : OptionName} (fresh : d.has o = false) (w : Word) :
    d.give o w = d.put o w := by
  rw [give, fresh]
  rfl

theorem give_again {d : Draft} {o : OptionName} (given : d.has o = true) (w : Word) :
    d.give o w = .error (.repeated o) := if_pos given

theorem ne_of_once {o : OptionName} {gs : List Given} (once : o ∉ gs.map Prod.fst) {g : Given}
    (among : g ∈ gs) : g.1 ≠ o := by
  intro same
  apply once
  rw [← same]
  exact List.mem_map_of_mem among

theorem decide_mem_cons (k o : OptionName) (os : List OptionName) :
    decide (k ∈ o :: os) = (decide (k = o) || decide (k ∈ os)) := by
  simp only [List.mem_cons, Bool.decide_or]

theorem giveAll_said (full : Draft) {gs : List Given} (told : ∀ g ∈ gs, full.Says g.1 g.2)
    (once : (gs.map Prod.fst).Nodup) {d : Draft} (fresh : ∀ g ∈ gs, d.has g.1 = false) :
    d.giveAll gs = .ok (d.patch full (· ∈ gs.map Prod.fst)) := by
  induction gs generalizing d with
  | nil => simp [giveAll, patch_none]
  | cons g gs ih =>
    rw [List.map_cons, List.nodup_cons] at once
    have first : d.give g.1 g.2 = .ok (d.patch full (· = g.1)) := by
      rw [give_fresh (fresh g (by simp))]
      exact told g (by simp) d
    have later : ∀ h ∈ gs, (d.patch full (· = g.1)).has h.1 = false := by
      intro h among
      rw [has_patch, decide_eq_false (ne_of_once once.1 among)]
      exact fresh h (List.mem_cons_of_mem g among)
    have rest := ih (fun h among => told h (List.mem_cons_of_mem g among)) once.2 later
    simp only [giveAll, first, Except.bind, rest, patch_patch, List.map_cons, decide_mem_cons]

def Reads (o : OptionName) (w : Word) : Prop := ∃ d, ({} : Draft).put o w = .ok d

theorem give_reads {d : Draft} {o : OptionName} {w : Word} (fresh : d.has o = false)
    (reads : Reads o w) : ∃ d', d.give o w = .ok d' ∧ ∀ k, d'.has k = (d.has k || k = o) := by
  rw [give_fresh fresh]
  rcases put_cases o w with ⟨e, refused⟩ | ⟨full, has, told⟩
  · obtain ⟨d', taken⟩ := reads
    rw [refused] at taken
    cases taken
  · refine ⟨d.patch full (· = o), told d, ?_⟩
    intro k
    rw [has_patch]
    by_cases same : k = o
    · simp [same, has]
    · simp [same]

theorem giveAll_reads {gs : List Given} (reads : ∀ g ∈ gs, Reads g.1 g.2)
    (once : (gs.map Prod.fst).Nodup) {d : Draft} (fresh : ∀ g ∈ gs, d.has g.1 = false) :
    ∃ d', d.giveAll gs = .ok d' ∧ ∀ k, d'.has k = (d.has k || k ∈ gs.map Prod.fst) := by
  induction gs generalizing d with
  | nil => exact ⟨d, rfl, by simp⟩
  | cons g gs ih =>
    rw [List.map_cons, List.nodup_cons] at once
    obtain ⟨d', first, has⟩ := give_reads (fresh g (by simp)) (reads g (by simp))
    have later : ∀ h ∈ gs, d'.has h.1 = false := by
      intro h among
      rw [has, fresh h (List.mem_cons_of_mem g among), decide_eq_false (ne_of_once once.1 among),
        Bool.or_self]
    obtain ⟨last, rest, all⟩ := ih (fun h among => reads h (List.mem_cons_of_mem g among)) once.2
      later
    refine ⟨last, ?_, ?_⟩
    · rw [giveAll, first, Except.bind, rest]
    · intro k
      rw [all, has, List.map_cons, decide_mem_cons, Bool.or_assoc]

theorem giveAll_again {gs : List Given} (reads : ∀ g ∈ gs, Reads g.1 g.2)
    (once : (gs.map Prod.fst).Nodup) {g : Given} (again : g.1 ∈ gs.map Prod.fst)
    (rest : List Given) : giveAll {} (gs ++ g :: rest) = .error (.repeated g.1) := by
  have none_yet : ∀ g ∈ gs, ({} : Draft).has g.1 = false := by
    intro g _
    cases g.1 <;> rfl
  obtain ⟨d, given, has⟩ := giveAll_reads reads once none_yet
  have there : d.has g.1 = true := by rw [has, decide_eq_true again, Bool.or_true]
  rw [giveAll_append, given, Except.bind, giveAll, give_again there]
  rfl

theorem giveAll_inserted {before after : List Given} {g : Given}
    (reads : ∀ h ∈ before ++ g :: after, Reads h.1 h.2)
    (once : ((before ++ after).map Prod.fst).Nodup)
    (again : g.1 ∈ (before ++ after).map Prod.fst) :
    giveAll {} (before ++ g :: after) = .error (.repeated g.1) := by
  rw [List.map_append, List.mem_append] at again
  rcases again with earlier | later
  · rw [List.map_append] at once
    apply giveAll_again _ (List.nodup_append.mp once).1 earlier
    intro h among
    exact reads h (List.mem_append_left _ among)
  · obtain ⟨h, member, same⟩ := List.mem_map.mp later
    obtain ⟨middle, rest, rfl⟩ := List.append_of_mem member
    -- The inserted option takes the place of the one behind it, which is then the repeated one.
    have whole : before ++ g :: (middle ++ h :: rest) = (before ++ g :: middle) ++ h :: rest := by
      simp
    have once_each : ((before ++ g :: middle).map Prod.fst).Nodup := by
      have front : ((before ++ g :: middle).map Prod.fst).Perm
          ((before ++ (middle ++ [h])).map Prod.fst) := by
        simp only [List.map_append, List.map_cons, List.map_nil, ← same]
        exact (List.perm_append_singleton h.1 (middle.map Prod.fst)).symm.append_left _
      rw [front.nodup_iff]
      refine once.sublist (List.Sublist.map _ (List.Sublist.append_left ?_ _))
      exact List.Sublist.append_left (List.Sublist.cons_cons h (List.nil_sublist rest)) middle
    rw [whole, ← same]
    apply giveAll_again _ once_each
    · simp [same]
    · intro k among
      apply reads
      rw [whole]
      exact List.mem_append_left _ among

end Draft

end TcpEcho.CommandLine
