import TcpEcho.Listener
import TcpEcho.Proofs.Net.Grammar
/- The standard display of an address, and that a listening socket gets from it the address that it
   was made from. The longest run of zero groups is looked for from the last group to the first; the
   invariant of this search is that what it has found splits the groups it has seen. -/
namespace TcpEcho.Address

/-- The groups that carry an address of the other family. -/
def mappedGroups (a : IPv4) : List UInt16 :=
  [0, 0, 0, 0, 0, 0xFFFF, pair a.a a.b, pair a.c a.d]

/-- Zero groups in a row, as many as any in a row and the first of so many. -/
structure IsLongest (gs front : List UInt16) (n : Nat) (back : List UInt16) : Prop where
  splits : gs = front ++ List.replicate n 0 ++ back
  first : ∀ l m r, 0 < m → gs = l ++ List.replicate m 0 ++ r →
    m < n ∨ m = n ∧ front.length ≤ l.length

/-- The display of an address: octets; groups, a double colon in place of the longest row of zeros
that has two or more, the first of several; and octets behind the groups that carry them. -/
inductive Displays : Address → List Char → Prop where
  | v4 (a : IPv4) : Displays (.v4 a) (dottedChars a)
  | mapped (x : IPv6) (a : IPv4) (carries : x.groups = mappedGroups a) :
      Displays (.v6 x) ([':', ':', 'f', 'f', 'f', 'f', ':'] ++ dottedChars a)
  | gap (x : IPv6) {front back : List UInt16} {n : Nat} (own : ∀ a, x.groups ≠ mappedGroups a)
      (zeros : IsLongest x.groups front n back) (two : 2 ≤ n) :
      Displays (.v6 x) (groupsChars front ++ ':' :: ':' :: groupsChars back)
  | full (x : IPv6) (own : ∀ a, x.groups ≠ mappedGroups a)
      (apart : ∀ l m r, x.groups = l ++ List.replicate m 0 ++ r → m < 2) :
      Displays (.v6 x) (groupsChars x.groups)

section Zeros

theorem zeroRun_splits (gs : List UInt16) :
    gs = List.replicate (zeroRun gs) 0 ++ gs.dropWhile (· = 0) := by
  have zeros : gs.takeWhile (· = 0) = List.replicate (zeroRun gs) 0 := by
    refine List.eq_replicate_iff.mpr ⟨rfl, fun g member => ?_⟩
    simpa using List.mem_takeWhile_imp member
  rw [← zeros, List.takeWhile_append_dropWhile]

theorem le_zeroRun (n : Nat) (gs : List UInt16) : n ≤ zeroRun (List.replicate n 0 ++ gs) := by
  unfold zeroRun
  rw [List.takeWhile_append_of_pos (by simp), List.length_append, List.length_replicate]
  exact Nat.le_add_right _ _

theorem longestZeros_isLongest (gs : List UInt16) :
    ∃ front back, IsLongest gs front (longestZeros gs).2 back ∧
      front.length = (longestZeros gs).1 := by
  induction gs with
  | nil =>
    refine ⟨[], [], ⟨rfl, fun l m r some_zero row => ?_⟩, rfl⟩
    have := congrArg List.length row
    simp only [List.length_nil, List.length_append, List.length_replicate] at this
    omega
  | cons g gs ih =>
    obtain ⟨front, back, later, place⟩ := ih
    -- A row of zeros begins at the first group or stands in the rest.
    have rows : ∀ l m r, g :: gs = l ++ List.replicate m 0 ++ r →
        m ≤ zeroRun (g :: gs) ∧ l = [] ∨
          ∃ l', l = g :: l' ∧ gs = l' ++ List.replicate m 0 ++ r := by
      intro l m r row
      cases l with
      | nil =>
        refine Or.inl ⟨?_, rfl⟩
        rw [row, List.nil_append]
        exact le_zeroRun m r
      | cons h l' =>
        obtain ⟨rfl, rest⟩ := List.cons.inj row
        exact Or.inr ⟨l', rfl, rest⟩
    by_cases behind : zeroRun (g :: gs) = 0 ∨ zeroRun (g :: gs) < (longestZeros gs).2
    · simp only [longestZeros, behind, if_true]
      refine ⟨g :: front, back, ⟨congrArg (g :: ·) later.splits, ?_⟩, congrArg (· + 1) place⟩
      intro l m r some_zero row
      rcases rows l m r row with ⟨here, -⟩ | ⟨l', rfl, rest⟩
      · omega
      · rcases later.first l' m r some_zero rest with less | ⟨same, before⟩
        · exact Or.inl less
        · exact Or.inr ⟨same, Nat.succ_le_succ before⟩
    · simp only [longestZeros, behind, if_false]
      refine ⟨[], _, ⟨zeroRun_splits (g :: gs), ?_⟩, rfl⟩
      intro l m r some_zero row
      rcases rows l m r row with ⟨here, -⟩ | ⟨l', rfl, rest⟩
      · rw [List.length_nil]
        omega
      · have within := later.first l' m r some_zero rest
        rw [List.length_nil]
        omega

theorem IsLongest.eq_longestZeros {gs front back : List UInt16} {n : Nat}
    (h : IsLongest gs front n back) (some_zero : 0 < n) :
    longestZeros gs = (front.length, n) := by
  obtain ⟨front', back', found, place⟩ := longestZeros_isLongest gs
  have least := found.first _ _ _ some_zero h.splits
  have most := h.first _ _ _ (by omega) found.splits
  refine Prod.ext ?_ ?_
  · show (longestZeros gs).1 = front.length
    omega
  · show (longestZeros gs).2 = n
    omega

end Zeros

section Mapped

theorem toNat_pair (m n : UInt8) : (pair m n).toNat = m.toNat * 256 + n.toNat := by
  have hm := m.toNat_lt
  have hn := n.toNat_lt
  exact UInt16.toNat_ofNat_of_lt' (by change _ < 65536; omega)

theorem toNat_high (g : UInt16) : (high g).toNat = g.toNat / 256 := by
  have hg := g.toNat_lt
  exact UInt8.toNat_ofNat_of_lt' (by change _ < 256; omega)

theorem toNat_low (g : UInt16) : (low g).toNat = g.toNat % 256 :=
  UInt8.toNat_ofNat_of_lt' (Nat.mod_lt _ (by decide))

theorem pair_high_low (g : UInt16) : pair (high g) (low g) = g := by
  refine UInt16.toNat_inj.mp ?_
  rw [toNat_pair, toNat_high, toNat_low]
  omega

theorem high_pair (m n : UInt8) : high (pair m n) = m := by
  have hn := n.toNat_lt
  refine UInt8.toNat_inj.mp ?_
  rw [toNat_high, toNat_pair]
  omega

theorem low_pair (m n : UInt8) : low (pair m n) = n := by
  have hn := n.toNat_lt
  refine UInt8.toNat_inj.mp ?_
  rw [toNat_low, toNat_pair]
  omega

theorem mapped?_eq_some {gs : List UInt16} {a : IPv4} :
    mapped? gs = some a ↔ gs = mappedGroups a := by
  constructor
  · intro found
    unfold mapped? at found
    split at found
    · rw [← Option.some.inj found]
      simp only [mappedGroups, pair_high_low]
    · cases found
  · rintro rfl
    simp only [mapped?, mappedGroups, high_pair, low_pair]

theorem mapped?_eq_none {gs : List UInt16} :
    mapped? gs = none ↔ ∀ a, gs ≠ mappedGroups a := by
  simp only [Option.eq_none_iff_forall_ne_some, ne_eq, mapped?_eq_some]

end Mapped

theorem exists_displays (a : Address) : ∃ t, Displays a t := by
  cases a with
  | v4 a => exact ⟨_, .v4 a⟩
  | v6 x =>
    cases carried : mapped? x.groups with
    | some a => exact ⟨_, .mapped x a (mapped?_eq_some.mp carried)⟩
    | none =>
      have own := mapped?_eq_none.mp carried
      obtain ⟨front, back, found, -⟩ := longestZeros_isLongest x.groups
      by_cases two : 2 ≤ (longestZeros x.groups).2
      · exact ⟨_, .gap x own found two⟩
      · refine ⟨_, .full x own fun l m r row => ?_⟩
        rcases Nat.eq_zero_or_pos m with rfl | some_zero
        · decide
        · have within := found.first l m r some_zero row
          omega

theorem Displays.eq_chars {a : Address} {t : List Char} (h : Displays a t) : t = a.chars := by
  cases h with
  | v4 a => rfl
  | mapped x a carries => simp only [chars, colonChars, mapped?_eq_some.mpr carries]
  | @gap x front back n own zeros two =>
    have found := zeros.eq_longestZeros (Nat.zero_lt_of_lt two)
    have before : x.groups.take front.length = front := by
      rw [zeros.splits, List.append_assoc]
      exact List.take_left
    have behind : x.groups.drop (front.length + n) = back := by
      rw [zeros.splits]
      exact List.drop_left' (by simp)
    simp only [chars, colonChars, mapped?_eq_none.mpr own, found, two, if_true, before, behind]
  | full x own apart =>
    obtain ⟨front, back, found, -⟩ := longestZeros_isLongest x.groups
    have short : ¬ 2 ≤ (longestZeros x.groups).2 := Nat.not_le.mpr (apart _ _ _ found.splits)
    simp only [chars, colonChars, mapped?_eq_none.mpr own, short, if_false]

theorem displays_iff {a : Address} {t : List Char} : Displays a t ↔ t = a.chars := by
  constructor
  · exact Displays.eq_chars
  · rintro rfl
    obtain ⟨t, displays⟩ := exists_displays a
    rwa [← displays.eq_chars]

theorem isGroup_groupChars (g : UInt16) : IsGroup (groupChars g) g := by
  obtain ⟨hex, number⟩ := hexDigits_toDigits g.toNat
  have small := g.toNat_lt
  have short : (groupChars g).length ≤ 4 :=
    (Nat.length_toDigits_le_iff (by decide) (by decide)).mpr (by omega)
  exact ⟨Nat.toDigits_ne_nil, short, hex, number⟩

theorem groups_groupsChars (gs : List UInt16) (some_group : gs ≠ []) :
    Groups false (groupsChars gs) gs := by
  fun_induction groupsChars gs with
  | case1 => exact absurd rfl some_group
  | case2 g => exact .one (isGroup_groupChars g)
  | case3 g gs more ih => exact .cons (isGroup_groupChars g) (ih more)

theorem side_groupsChars (gs : List UInt16) : Side false (groupsChars gs) gs := by
  by_cases some_group : gs = []
  · subst some_group
    exact .none
  · exact .some (groups_groupsChars gs some_group)

theorem Displays.denotes {a : Address} {t : List Char} (h : Displays a t) : Denotes t a := by
  cases h with
  | v4 a => exact .v4 a
  | mapped x a carries =>
    have digits : ∀ c ∈ ['f', 'f', 'f', 'f'], isHexDigit c = true := by
      simp only [List.mem_cons, List.not_mem_nil, or_false, or_self, forall_eq]
      decide
    have ffff : IsGroup ['f', 'f', 'f', 'f'] 0xFFFF := ⟨by decide, by decide, digits, rfl⟩
    have groups : IsColons ([] ++ ':' :: ':' :: (['f', 'f', 'f', 'f'] ++ ':' :: dottedChars a))
        ([] ++ List.replicate 5 0 ++ [0xFFFF, pair a.a a.b, pair a.c a.d]) :=
      .gap .none (.some (.cons ffff (.octets a))) (by decide) rfl
    refine .v6 x ?_
    rw [carries]
    exact groups
  | @gap x front back n own zeros two =>
    have eight := x.eight
    refine .v6 x ?_
    rw [zeros.splits] at eight ⊢
    refine .gap (side_groupsChars front) (side_groupsChars back) (by omega) ?_
    rw [← eight, List.length_append, List.length_append, List.length_replicate]
  | full x own apart =>
    refine .v6 x (.full (groups_groupsChars x.groups ?_) x.eight)
    intro none
    have eight := x.eight
    rw [none] at eight
    cases eight

theorem Denotes.isColons {cs : List Char} {x : IPv6} (h : Denotes cs (.v6 x)) :
    IsColons cs x.groups := by
  cases h with
  | v6 _ groups => exact groups

theorem denotes_chars (a : Address) : Denotes a.chars a :=
  (displays_iff.mpr rfl).denotes

section Brackets

theorem not_mem_dottedChars {c : Char} (other : Decimal.isDigit c = false) (point : c ≠ '.')
    (a : IPv4) : c ∉ dottedChars a := by
  have outside : ∀ n, c ∉ octetChars n := by
    intro n member
    rw [isDigit_of_mem_octetChars member] at other
    cases other
  simp [dottedChars, outside, point]

theorem IsGroup.no_bracket {ds : List Char} {g : UInt16} (h : IsGroup ds g) : ']' ∉ ds :=
  fun member => absurd (h.hex _ member) (by decide)

theorem Groups.no_bracket {flag : Bool} {cs : List Char} {gs : List UInt16}
    (h : Groups flag cs gs) : ']' ∉ cs := by
  induction h with
  | one group => exact group.no_bracket
  | octets a => exact not_mem_dottedChars (by decide) (by decide) a
  | cons group more ih => simp [group.no_bracket, ih]

theorem Side.no_bracket {flag : Bool} {cs : List Char} {gs : List UInt16}
    (h : Side flag cs gs) : ']' ∉ cs := by
  cases h with
  | none => simp
  | some groups => exact groups.no_bracket

theorem IsColons.no_bracket {cs : List Char} {gs : List UInt16} (h : IsColons cs gs) :
    ']' ∉ cs := by
  cases h with
  | full groups eight => exact groups.no_bracket
  | gap head tail zeros eight => simp [head.no_bracket, tail.no_bracket]

end Brackets

end TcpEcho.Address

namespace TcpEcho

namespace Endpoint

open Address

/-- The text of the address in the text of an endpoint: within brackets, or before the colon. -/
def hostPart : List Char → List Char
  | '[' :: cs => cs.takeWhile (· ≠ ']')
  | cs => cs.takeWhile (· ≠ ':')

theorem hostPart_brackets {w : List Char} (inside : ']' ∉ w) (rest : List Char) :
    hostPart ('[' :: w ++ ']' :: rest) = w := by
  rw [List.cons_append, hostPart, takeWhile_ne inside]

theorem hostPart_plain {w : List Char} (before : ':' ∉ w) (bare : w.head? ≠ some '[')
    (rest : List Char) : hostPart (w ++ ':' :: rest) = w := by
  have other : ∀ cs, w ++ ':' :: rest ≠ '[' :: cs := by
    intro cs bracket
    cases w with
    | nil => cases bracket
    | cons c w =>
      rw [List.cons_append, List.cons.injEq] at bracket
      exact bare (congrArg some bracket.1)
  rw [hostPart, takeWhile_ne before]
  exact other

theorem hostPart_chars (e : Endpoint) : hostPart e.chars = e.address.chars := by
  obtain ⟨a, port⟩ := e
  cases a with
  | v4 a =>
    refine hostPart_plain (not_mem_dottedChars (by decide) (by decide) a) ?_ _
    obtain ⟨c, cs, same⟩ := Decimal.exists_digits a.a.toNat
    have digit : Decimal.isDigit c = true :=
      Decimal.isDigit_of_mem_digits (same ▸ List.mem_cons_self)
    show (dottedChars a).head? ≠ _
    rw [dottedChars, octetChars, same]
    rintro bracket
    rw [Option.some.inj bracket] at digit
    exact absurd digit (by decide)
  | v6 x => exact hostPart_brackets (denotes_chars (.v6 x)).isColons.no_bracket _

theorem hostPart_text (e : Endpoint) :
    String.ofList (hostPart e.text.toList) = String.ofList e.address.chars := by
  rw [text, String.toList_ofList, hostPart_chars]

theorem address_eq_of_text_eq {e e' : Endpoint} (h : e.text = e'.text) :
    e.address = e'.address := by
  have alike : e.address.chars = e'.address.chars := by
    rw [← hostPart_chars, ← hostPart_chars, String.ofList_injective h]
  have denotes := denotes_chars e.address
  rw [alike] at denotes
  exact denotes.unique (denotes_chars e'.address)

end Endpoint

open Address (Displays Denotes parse?_eq_some denotes_chars displays_iff)

theorem listenAddress_eq_ok {host : String} {port : UInt16} {e : Endpoint} :
    listenAddress host port = .ok e ↔ Denotes host.toList e.address ∧ e.port = port := by
  rw [← parse?_eq_some]
  unfold listenAddress
  cases read : Address.parse? host with
  | none => simp
  | some a =>
    rw [Except.ok.injEq, Option.some.injEq]
    constructor
    · rintro rfl
      exact ⟨rfl, rfl⟩
    · rintro ⟨rfl, rfl⟩
      rfl

theorem listenAddress_of_not_denotes {host : String} (none : ∀ a, ¬ Denotes host.toList a)
    (port : UInt16) : listenAddress host port = .error (.invalidAddress host) := by
  have unread : Address.parse? host = .none :=
    Option.eq_none_iff_forall_ne_some.mpr fun a read => none a (parse?_eq_some.mp read)
  rw [listenAddress, unread]

theorem listenAddress_of_displays {a : Address} {t : List Char} (h : Displays a t)
    (port : UInt16) : listenAddress (String.ofList t) port = .ok ⟨a, port⟩ := by
  refine listenAddress_eq_ok.mpr ⟨?_, rfl⟩
  rw [String.toList_ofList]
  exact h.denotes

theorem listenAddress_hostPart {host : String} {port : UInt16} {e : Endpoint}
    (accepted : listenAddress host port = .ok e) :
    listenAddress (String.ofList (Endpoint.hostPart e.text.toList)) port = .ok e := by
  obtain ⟨-, same⟩ := listenAddress_eq_ok.mp accepted
  rw [Endpoint.hostPart_text]
  refine listenAddress_eq_ok.mpr ⟨?_, same⟩
  rw [String.toList_ofList]
  exact denotes_chars e.address

theorem text_eq_iff {host host' : String} {port : UInt16} {e e' : Endpoint}
    (accepted : listenAddress host port = .ok e) (accepted' : listenAddress host' port = .ok e') :
    e.text = e'.text ↔ ∃ a, Denotes host.toList a ∧ Denotes host'.toList a := by
  obtain ⟨denotes, same⟩ := listenAddress_eq_ok.mp accepted
  obtain ⟨denotes', same'⟩ := listenAddress_eq_ok.mp accepted'
  constructor
  · intro alike
    rw [← Endpoint.address_eq_of_text_eq alike] at denotes'
    exact ⟨e.address, denotes, denotes'⟩
  · rintro ⟨a, first, second⟩
    have one : e.address = e'.address := (denotes.unique first).trans (second.unique denotes')
    have whole : e = e' :=
      (Endpoint.mk.injEq e.address e.port e'.address e'.port).mpr ⟨one, same.trans same'.symm⟩
    rw [whole]

theorem existsUnique_displays (a : Address) : ∃! t, Displays a t := by
  refine ⟨a.chars, displays_iff.mpr rfl, ?_⟩
  intro t displays
  exact displays_iff.mp displays

/-- How hosts and addresses correspond at a port. -/
structure InvertsDisplay (port : UInt16) : Prop where
  display : ∀ a, ∃! t, Displays a t
  /-- The display of an address is a host that gives this address. -/
  inverse : ∀ a t, Displays a t → ∃ e, listenAddress (String.ofList t) port = .ok e ∧
    e.address = a ∧ e.port = port ∧
    ((∃ q, a = .v4 q) ∧ e.address.family = 4 ∨ (∃ x, a = .v6 x) ∧ e.address.family = 6)
  /-- A host gives an address if and only if the grammar says that it denotes this address. -/
  accepted : ∀ host e,
    listenAddress host port = .ok e ↔ Denotes host.toList e.address ∧ e.port = port
  rejected : ∀ host, (∀ a, ¬ Denotes host.toList a) →
    listenAddress host port = .error (.invalidAddress host)
  /-- What is shown of an accepted host is a host with the same answer. -/
  again : ∀ host e, listenAddress host port = .ok e →
    listenAddress (String.ofList (Endpoint.hostPart e.text.toList)) port = .ok e
  /-- Two hosts are shown alike exactly when they denote one address. -/
  alike : ∀ host host' e e', listenAddress host port = .ok e →
    listenAddress host' port = .ok e' →
    (e.text = e'.text ↔ ∃ a, Denotes host.toList a ∧ Denotes host'.toList a)

/-- The endpoint of a host is a left inverse of the display of addresses, over all addresses and
ports, and every host that is accepted has the endpoint of some display. -/
theorem listenAddress_invertsDisplay (port : UInt16) : InvertsDisplay port := by
  constructor
  · exact existsUnique_displays
  · intro a t displays
    refine ⟨⟨a, port⟩, listenAddress_of_displays displays port, rfl, rfl, ?_⟩
    cases a with
    | v4 q => exact Or.inl ⟨⟨q, rfl⟩, rfl⟩
    | v6 x => exact Or.inr ⟨⟨x, rfl⟩, rfl⟩
  · intro host e
    exact listenAddress_eq_ok
  · intro host none
    exact listenAddress_of_not_denotes none port
  · intro host e accepted
    exact listenAddress_hostPart accepted
  · intro host host' e e' accepted accepted'
    exact text_eq_iff accepted accepted'

example : (listenAddress "0:00:000:0000:0:FFFF:102:304" 80).map Endpoint.text =
    .ok "[::ffff:1.2.3.4]:80" := by decide

end TcpEcho
