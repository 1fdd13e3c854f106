import LinuxSna.Framework.Loop

/-!
# Halving and long division

A number is halved until the mantissa is small enough; the exponent counts the
halvings, and what falls off at the end is lost.

* `halve_fst_le`: enough halvings make any number small enough;
* `halve_mul_le`, `lt_halve_mul`: the number lies between its value and the next one;
* `halve_isGreatest`: its value is the largest of all sizes with a small mantissa
  that are not above the number.

A dividend is divided place by place: the divisor is shifted to the highest place, and what is left of
the dividend is compared with it before it is shifted back by a place. The comparison may overlook
that a number is below another (`sees`), and a subtraction may not be defined (`plain`). The loop ends
when it does not see the divisor below what is left.

* `le_of_loop`: no more than twice the shifted divisor is taken away;
* `settles_of_loop`, `loop_of_settles`: the division is right exactly if every place is settled;
* `long_division_iff`.
-/

namespace Framework

/-- `n` halved until it is at most `top`, at most so many times, and how often
that was. -/
def halve (top : ℕ) : ℕ → ℕ → ℕ × ℕ
  | 0, n => (n, 0)
  | k + 1, n => if n ≤ top then (n, 0) else ((halve top k (n / 2)).1, (halve top k (n / 2)).2 + 1)

variable {top k n : ℕ}

theorem halve_of_le (h : n ≤ top) : halve top k n = (n, 0) := by
  cases k with
  | zero => rfl
  | succ k => rw [halve, if_pos h]

theorem halve_of_gt (h : top < n) :
    halve top (k + 1) n = ((halve top k (n / 2)).1, (halve top k (n / 2)).2 + 1) := by
  rw [halve, if_neg (by omega)]

theorem halve_fst_le (h : n < (top + 1) * 2 ^ k) : (halve top k n).1 ≤ top := by
  induction k generalizing n with
  | zero =>
    show n ≤ top
    omega
  | succ k ih =>
    by_cases hn : n ≤ top
    · rw [halve_of_le hn]; exact hn
    · rw [halve_of_gt (by omega)]
      rw [pow_succ, ← mul_assoc] at h
      exact ih (by omega)

theorem le_halve_fst (h : (halve top k n).2 ≠ 0) : (top + 1) / 2 ≤ (halve top k n).1 := by
  induction k generalizing n with
  | zero => exact absurd rfl h
  | succ k ih =>
    by_cases hn : n ≤ top
    · rw [halve_of_le hn] at h; exact absurd rfl h
    · rw [halve_of_gt (by omega)]
      by_cases h0 : (halve top k (n / 2)).2 = 0
      · -- nothing is left to halve, so the mantissa is the half of `n`
        have hm : (halve top k (n / 2)).1 = n / 2 := by
          cases k with
          | zero => rfl
          | succ k =>
            by_cases hn' : n / 2 ≤ top
            · rw [halve_of_le hn']
            · rw [halve_of_gt (by omega)] at h0; exact absurd h0 (by simp)
        rw [hm]; omega
      · exact ih h0

theorem halve_mul_le : (halve top k n).1 * 2 ^ (halve top k n).2 ≤ n := by
  induction k generalizing n with
  | zero => simp [halve]
  | succ k ih =>
    by_cases hn : n ≤ top
    · simp [halve_of_le hn]
    · rw [halve_of_gt (by omega)]
      have h := ih (n := n / 2)
      show _ * 2 ^ ((halve top k (n / 2)).2 + 1) ≤ n
      rw [pow_succ, ← mul_assoc]
      show (halve top k (n / 2)).1 * _ * 2 ≤ n
      omega

theorem lt_halve_mul : n < ((halve top k n).1 + 1) * 2 ^ (halve top k n).2 := by
  induction k generalizing n with
  | zero => simp [halve]
  | succ k ih =>
    by_cases hn : n ≤ top
    · simp [halve_of_le hn]
    · rw [halve_of_gt (by omega)]
      have h := ih (n := n / 2)
      show n < _ * 2 ^ ((halve top k (n / 2)).2 + 1)
      rw [pow_succ, ← mul_assoc]
      show n < ((halve top k (n / 2)).1 + 1) * _ * 2
      omega

/-- No size with a mantissa of at most `top` lies above the value of `n` and
not above `n`. -/
theorem le_halve_mul (m e : ℕ) (hm : m ≤ top) (h : m * 2 ^ e ≤ n) :
    m * 2 ^ e ≤ (halve top k n).1 * 2 ^ (halve top k n).2 := by
  rcases Nat.lt_or_ge e (halve top k n).2 with he | he
  · -- a smaller exponent: even the largest mantissa stays below
    have hl := le_halve_fst (show (halve top k n).2 ≠ 0 by omega)
    calc m * 2 ^ e ≤ (2 * (halve top k n).1) * 2 ^ e := Nat.mul_le_mul_right _ (by omega)
      _ = (halve top k n).1 * 2 ^ (e + 1) := by
        rw [pow_succ, Nat.mul_comm 2, mul_assoc, Nat.mul_comm 2]
      _ ≤ _ := Nat.mul_le_mul_left _ (Nat.pow_le_pow_right (by omega) he)
  · -- a multiple of the unit of `n`, below the next one
    have hu : m * 2 ^ e = m * 2 ^ (e - (halve top k n).2) * 2 ^ (halve top k n).2 := by
      rw [mul_assoc, ← pow_add, Nat.sub_add_cancel he]
    rw [hu] at h ⊢
    have hn : n < ((halve top k n).1 + 1) * 2 ^ (halve top k n).2 := lt_halve_mul
    have hlt := Nat.lt_of_mul_lt_mul_right (Nat.lt_of_le_of_lt h hn)
    exact Nat.mul_le_mul_right _ (Nat.le_of_lt_succ hlt)

/-- The sizes with a mantissa of at most `top` and an exponent of at most `k`. -/
def sizes (top k : ℕ) : Set ℕ := {s | ∃ m ≤ top, ∃ e ≤ k, s = m * 2 ^ e}

theorem halve_isGreatest {b : ℕ} (hm : (halve top k n).1 ≤ top) (hb : (halve top k n).2 ≤ b) :
    IsGreatest {s ∈ sizes top b | s ≤ n} ((halve top k n).1 * 2 ^ (halve top k n).2) := by
  refine ⟨⟨⟨_, hm, _, hb, rfl⟩, halve_mul_le⟩, ?_⟩
  rintro s ⟨⟨m, hm, e, -, rfl⟩, hs⟩
  exact le_halve_mul m e hm hs

end Framework

namespace Framework

/-- What is left of the dividend, the shifted divisor, and the quotient -/
structure Long where
  left : ℕ
  divisor : ℕ
  quotient : ℕ

variable (sees plain : ℕ → ℕ → Prop) [DecidableRel sees] [DecidableRel plain] (modulus : ℕ)

/-- The state after a place -/
def Long.place (s : Long) : Long :=
  if sees s.divisor s.left then ⟨s.left - s.divisor, s.divisor / 2, (2 * s.quotient + 1) % modulus⟩
  else ⟨s.left, s.divisor / 2, 2 * s.quotient % modulus⟩

/-- A pass of the division by `d`; `none` if its subtraction is not defined -/
def Long.pass (d : ℕ) (s : Long) : Long ⊕ Option Long :=
  if sees s.divisor s.left ∧ ¬ plain s.left s.divisor then .inr none
  else if sees d (s.place sees modulus).left then .inl (s.place sees modulus)
  else .inr (some (s.place sees modulus))

/-- The place `j` of the division of `n` by `d` is settled: a divisor that is not above what is left
is seen to be below, and can be taken away; and what is left after any place but the last is seen to
be above the divisor. -/
structure Settles (n d j : ℕ) : Prop where
  taken : d * 2 ^ j ≤ n % (d * 2 ^ (j + 1)) →
    sees (d * 2 ^ j) (n % (d * 2 ^ (j + 1))) ∧ plain (n % (d * 2 ^ (j + 1))) (d * 2 ^ j)
  goesOn : 0 < j → sees d (n % (d * 2 ^ j))

variable {sees plain modulus} {n d j : ℕ} {s t : Long}

theorem Long.place_divisor (s : Long) : (s.place sees modulus).divisor = s.divisor / 2 := by
  rw [Long.place]
  split_ifs <;> rfl

theorem Long.pass_undefined (h : sees s.divisor s.left ∧ ¬ plain s.left s.divisor) :
    s.pass sees plain modulus d = .inr none := if_pos h

theorem Long.pass_goesOn (h : ¬ (sees s.divisor s.left ∧ ¬ plain s.left s.divisor))
    (hs : sees d (s.place sees modulus).left) :
    s.pass sees plain modulus d = .inl (s.place sees modulus) := by
  rw [Long.pass, if_neg h, if_pos hs]

theorem Long.pass_ends (h : ¬ (sees s.divisor s.left ∧ ¬ plain s.left s.divisor))
    (hs : ¬ sees d (s.place sees modulus).left) :
    s.pass sees plain modulus d = .inr (some (s.place sees modulus)) := by
  rw [Long.pass, if_neg h, if_neg hs]

/-- Quotient and remainder one place further down -/
theorem divMod_place (hd : 0 < d) (n j : ℕ) :
    n / (d * 2 ^ j) =
        2 * (n / (d * 2 ^ (j + 1))) + (if d * 2 ^ j ≤ n % (d * 2 ^ (j + 1)) then 1 else 0) ∧
      n % (d * 2 ^ j) = n % (d * 2 ^ (j + 1)) -
        (if d * 2 ^ j ≤ n % (d * 2 ^ (j + 1)) then d * 2 ^ j else 0) := by
  have hpos : 0 < d * 2 ^ j := Nat.mul_pos hd (Nat.two_pow_pos j)
  have hdouble : d * 2 ^ (j + 1) = 2 * (d * 2 ^ j) := by ring
  have hlt := Nat.mod_lt n (show 0 < d * 2 ^ (j + 1) by omega)
  have hsum := Nat.mod_add_div n (d * 2 ^ (j + 1))
  rw [Nat.div_mod_unique hpos]
  generalize n / (d * 2 ^ (j + 1)) = k at *
  generalize n % (d * 2 ^ (j + 1)) = r at *
  split_ifs with h
  · refine ⟨?_, by omega⟩
    calc r - d * 2 ^ j + d * 2 ^ j * (2 * k + 1)
      _ = (r - d * 2 ^ j + d * 2 ^ j) + 2 * (d * 2 ^ j) * k := by ring
      _ = n := by rw [Nat.sub_add_cancel h, ← hdouble, hsum]
  · refine ⟨?_, by omega⟩
    rw [Nat.sub_zero, Nat.add_zero, ← hsum, hdouble]
    ring

/-- No more is taken away than twice the shifted divisor. -/
theorem le_of_loop {k : ℕ}
    (h : loop (Long.pass sees plain modulus d) k s = some (some t)) :
    s.left ≤ t.left + (2 * s.divisor - 1) := by
  induction k generalizing s with
  | zero => cases h
  | succ k ih =>
    have hplace : s.left ≤ (s.place sees modulus).left + s.divisor := by
      unfold Long.place
      split_ifs
      · show s.left ≤ s.left - s.divisor + s.divisor
        omega
      · exact Nat.le_add_right _ _
    have hdivisor : (s.place sees modulus).divisor = s.divisor / 2 := s.place_divisor
    cases hpass : s.pass sees plain modulus d with
    | inl s' =>
      rw [loop_succ_inl hpass] at h
      have hnext := ih h
      unfold Long.pass at hpass
      split_ifs at hpass
      cases hpass
      omega
    | inr r =>
      rw [loop_succ_inr hpass] at h
      cases h
      unfold Long.pass at hpass
      split_ifs at hpass
      · cases hpass
      · cases hpass
        omega

/-- What is known once the place above `j` is done: so much of the dividend has been taken away. -/
structure Long.Takes (n d j : ℕ) (s : Long) : Prop where
  divisor : s.divisor = d * 2 ^ j
  total : s.left + d * 2 ^ (j + 1) * s.quotient = n

variable (hsees : ∀ b r, sees b r → b < r) (hd : 0 < d) (hn : n < modulus)

include hsees hd hn in
theorem Long.Takes.place (h : s.Takes n d j) :
    (s.place sees modulus).left + d * 2 ^ j * (s.place sees modulus).quotient = n ∧
      (s.place sees modulus).quotient =
        2 * s.quotient + (if sees (d * 2 ^ j) s.left then 1 else 0) := by
  have hpos : 0 < d * 2 ^ j := Nat.mul_pos hd (Nat.two_pow_pos j)
  have htotal := h.total
  rw [show d * 2 ^ (j + 1) * s.quotient = d * 2 ^ j * (2 * s.quotient) by ring] at htotal
  have hle : 2 * s.quotient ≤ d * 2 ^ j * (2 * s.quotient) := Nat.le_mul_of_pos_left _ hpos
  rw [Long.place, h.divisor]
  split_ifs with hs
  · have hlt := hsees _ _ hs
    have hexact : (2 * s.quotient + 1) % modulus = 2 * s.quotient + 1 :=
      Nat.mod_eq_of_lt (by omega)
    refine ⟨?_, hexact⟩
    show s.left - d * 2 ^ j + d * 2 ^ j * ((2 * s.quotient + 1) % modulus) = n
    rw [hexact, Nat.mul_succ]
    omega
  · have hexact : 2 * s.quotient % modulus = 2 * s.quotient := Nat.mod_eq_of_lt (by omega)
    refine ⟨?_, hexact⟩
    show s.left + d * 2 ^ j * (2 * s.quotient % modulus) = n
    rw [hexact, htotal]

omit [DecidableRel plain] in
include hsees hd hn in
/-- The quotient after a place tells what was done there. -/
theorem Long.Takes.settled (h : s.Takes n d j) (hok : ¬ (sees s.divisor s.left ∧ ¬ plain s.left s.divisor))
    (hq : (s.place sees modulus).quotient = n / (d * 2 ^ j)) :
    s.quotient = n / (d * 2 ^ (j + 1)) ∧
      (d * 2 ^ j ≤ n % (d * 2 ^ (j + 1)) →
        sees (d * 2 ^ j) (n % (d * 2 ^ (j + 1))) ∧ plain (n % (d * 2 ^ (j + 1))) (d * 2 ^ j)) := by
  have hplace := (h.place hsees hd hn).2
  rw [hq] at hplace
  have hdm := (divMod_place hd n j).1
  have hquot : s.quotient = n / (d * 2 ^ (j + 1)) := by
    split_ifs at hplace hdm <;> omega
  have hleft : s.left = n % (d * 2 ^ (j + 1)) := by
    have htotal := h.total
    have hsum := Nat.mod_add_div n (d * 2 ^ (j + 1))
    rw [hquot] at htotal
    omega
  refine ⟨hquot, fun hle => ?_⟩
  rw [if_pos hle] at hdm
  rw [h.divisor, hleft] at hok
  rw [hleft] at hplace
  have hs : sees (d * 2 ^ j) (n % (d * 2 ^ (j + 1))) := by
    by_contra hs
    rw [if_neg hs] at hplace
    omega
  exact ⟨hs, by_contra fun hp => hok ⟨hs, hp⟩⟩

include hsees hd hn in
/-- Behind the last place there is no right end. -/
theorem not_seen_of_loop (hs : s.Takes n d 0) {k : ℕ}
    (h : loop (Long.pass sees plain modulus d) k (s.place sees modulus) = some (some t))
    (hleft : t.left = n % d) : ¬ sees d (s.place sees modulus).left := by
  intro hseen
  have hlt := hsees _ _ hseen
  have htotal := (hs.place hsees hd hn).1
  rw [pow_zero, mul_one] at htotal
  have hsum := Nat.mod_add_div n d
  have hmod := Nat.mod_lt n hd
  have hlost := le_of_loop h
  have hdivisor : (s.place sees modulus).divisor = d / 2 := by
    rw [Long.place_divisor, hs.divisor, pow_zero, mul_one]
  rw [hleft, hdivisor] at hlost
  have hquot : (s.place sees modulus).quotient < n / d := by
    by_contra hge
    have hmul := Nat.mul_le_mul_left d (Nat.not_lt.mp hge)
    omega
  have hmul := Nat.mul_le_mul_left d (Nat.succ_le_of_lt hquot)
  rw [Nat.mul_succ] at hmul
  omega

/-- A division that comes to an end is defined in its first place. -/
theorem defined_of_loop {k : ℕ}
    (h : loop (Long.pass sees plain modulus d) (k + 1) s = some (some t)) :
    ¬ (sees s.divisor s.left ∧ ¬ plain s.left s.divisor) := by
  intro hundef
  rw [loop_succ_inr (Long.pass_undefined hundef)] at h
  cases h

omit [DecidableRel plain] in
include hsees hd hn in
theorem Long.Takes.next (h : s.Takes n d (j + 1)) : (s.place sees modulus).Takes n d j := by
  refine ⟨?_, (h.place hsees hd hn).1⟩
  rw [Long.place_divisor, h.divisor, show d * 2 ^ (j + 1) = d * 2 ^ j * 2 by ring,
    Nat.mul_div_cancel _ (by decide)]

include hsees hd hn in
/-- A right end is not before the last place: the quotient would be too large for its place. -/
theorem seen_of_loop (hle : d ≤ n) (hs : s.Takes n d (j + 1)) {k : ℕ}
    (h : loop (Long.pass sees plain modulus d) (k + 1) s = some (some t)) (hleft : t.left = n % d)
    (hquotient : t.quotient = n / d) : sees d (s.place sees modulus).left := by
  by_contra hseen
  have htotal := (hs.place hsees hd hn).1
  rw [loop_succ_inr (Long.pass_ends (defined_of_loop h) hseen)] at h
  cases h
  rw [hleft, hquotient] at htotal
  have hsum := Nat.mod_add_div n d
  have hmul := Nat.mul_le_mul_left d (Nat.mul_le_mul_right (n / d)
    (Nat.pow_le_pow_right (show 0 < 2 by decide) (show 1 ≤ j + 1 by omega)))
  have hdn : 0 < d * (n / d) := Nat.mul_pos hd (Nat.div_pos hle hd)
  rw [pow_one, show d * (2 * (n / d)) = 2 * (d * (n / d)) by ring,
    ← mul_assoc d (2 ^ (j + 1))] at hmul
  omega

include hsees hd hn in
/-- A division that comes out right has settled its places. -/
theorem settles_of_loop (hle : d ≤ n) {k : ℕ} (hs : s.Takes n d j)
    (h : loop (Long.pass sees plain modulus d) k s = some (some t)) (hleft : t.left = n % d)
    (hquotient : t.quotient = n / d) :
    (∀ i ≤ j, Settles sees plain n d i) ∧ s.quotient = n / (d * 2 ^ (j + 1)) := by
  induction j generalizing s k with
  | zero =>
    obtain _ | k := k
    · cases h
    · have hok := defined_of_loop h
      have hdone : (s.place sees modulus).quotient = n / d := by
        by_cases hseen : sees d (s.place sees modulus).left
        · rw [loop_succ_inl (Long.pass_goesOn hok hseen)] at h
          exact absurd hseen (not_seen_of_loop hsees hd hn hs h hleft)
        · rw [loop_succ_inr (Long.pass_ends hok hseen)] at h
          cases h
          exact hquotient
      have hsettled := hs.settled hsees hd hn hok (by rw [pow_zero, mul_one, hdone])
      refine ⟨fun i hi => ?_, hsettled.1⟩
      obtain rfl := Nat.le_zero.mp hi
      exact ⟨hsettled.2, fun hi => absurd hi (Nat.lt_irrefl 0)⟩
  | succ j ih =>
    obtain _ | k := k
    · cases h
    · have hok := defined_of_loop h
      have hseen := seen_of_loop hsees hd hn hle hs h hleft hquotient
      have hnext := hs.next hsees hd hn
      rw [loop_succ_inl (Long.pass_goesOn hok hseen)] at h
      obtain ⟨hbelow, hq⟩ := ih hnext h
      have hsettled := hs.settled hsees hd hn hok hq
      refine ⟨fun i hi => ?_, hsettled.1⟩
      obtain hi | rfl := Nat.lt_or_eq_of_le hi
      · exact hbelow i (by omega)
      · refine ⟨hsettled.2, fun _ => ?_⟩
        have hmod : (s.place sees modulus).left = n % (d * 2 ^ (j + 1)) := by
          have hparts := Nat.mod_add_div n (d * 2 ^ (j + 1))
          have htotal := hnext.total
          rw [hq] at htotal
          omega
        rwa [hmod] at hseen

omit [DecidableRel plain] in
include hsees hd hn in
/-- A place that is settled is done as it should be. -/
theorem place_of_settles (h : Settles sees plain n d j) :
    let s : Long := ⟨n % (d * 2 ^ (j + 1)), d * 2 ^ j, n / (d * 2 ^ (j + 1))⟩
    ¬ (sees s.divisor s.left ∧ ¬ plain s.left s.divisor) ∧
      (s.place sees modulus).left = n % (d * 2 ^ j) ∧
      (s.place sees modulus).quotient = n / (d * 2 ^ j) := by
  intro s
  have hs : s.Takes n d j := ⟨rfl, Nat.mod_add_div n _⟩
  have hcompare : sees (d * 2 ^ j) s.left ↔ d * 2 ^ j ≤ s.left :=
    ⟨fun hseen => (hsees _ _ hseen).le, fun hle => (h.taken hle).1⟩
  have hplace := hs.place hsees hd hn
  have hdm := divMod_place hd n j
  have hquotient : (s.place sees modulus).quotient = n / (d * 2 ^ j) := by
    rw [hplace.2, hdm.1]
    simp only [hcompare]
    rfl
  refine ⟨fun hundef => hundef.2 (h.taken (hcompare.mp hundef.1)).2, ?_, hquotient⟩
  have htotal := hplace.1
  have hparts := Nat.mod_add_div n (d * 2 ^ j)
  rw [hquotient] at htotal
  omega

include hsees hd hn in
/-- A division all of whose places are settled comes out right. -/
theorem loop_of_settles (h : ∀ i ≤ j, Settles sees plain n d i) :
    ∃ k t, loop (Long.pass sees plain modulus d) k
        ⟨n % (d * 2 ^ (j + 1)), d * 2 ^ j, n / (d * 2 ^ (j + 1))⟩ = some (some t) ∧
      t.left = n % d ∧ t.quotient = n / d := by
  induction j with
  | zero =>
    obtain ⟨hok, hleft, hquotient⟩ := place_of_settles hsees hd hn (h 0 le_rfl)
    have hlast : d * 2 ^ 0 = d := by rw [pow_zero, mul_one]
    rw [show n % (d * 2 ^ 0) = n % d by rw [hlast]] at hleft
    rw [show n / (d * 2 ^ 0) = n / d by rw [hlast]] at hquotient
    have hend : ¬ sees d (Long.place sees modulus
        ⟨n % (d * 2 ^ (0 + 1)), d * 2 ^ 0, n / (d * 2 ^ (0 + 1))⟩).left := by
      rw [hleft]
      intro hseen
      have hlt := hsees _ _ hseen
      have hmod := Nat.mod_lt n hd
      omega
    exact ⟨1, _, loop_succ_inr (Long.pass_ends hok hend), hleft, hquotient⟩
  | succ j ih =>
    obtain ⟨hok, hleft, hquotient⟩ := place_of_settles hsees hd hn (h (j + 1) le_rfl)
    obtain ⟨k, t, ht, hright⟩ := ih fun i hi => h i (by omega)
    have hseen := (h (j + 1) le_rfl).goesOn (Nat.succ_pos j)
    rw [← hleft] at hseen
    refine ⟨k + 1, t, ?_, hright⟩
    rw [loop_succ_inl (Long.pass_goesOn hok hseen)]
    have hnext : Long.place sees modulus
        ⟨n % (d * 2 ^ (j + 1 + 1)), d * 2 ^ (j + 1), n / (d * 2 ^ (j + 1 + 1))⟩ =
          ⟨n % (d * 2 ^ (j + 1)), d * 2 ^ j, n / (d * 2 ^ (j + 1))⟩ := by
      have hhalf : (Long.place sees modulus
          ⟨n % (d * 2 ^ (j + 1 + 1)), d * 2 ^ (j + 1), n / (d * 2 ^ (j + 1 + 1))⟩).divisor = d * 2 ^ j := by
        rw [Long.place_divisor, show d * 2 ^ (j + 1) = d * 2 ^ j * 2 by ring]
        exact Nat.mul_div_cancel _ (by decide)
      rw [← hleft, ← hquotient, ← hhalf]
    rw [hnext]
    exact ht

/-- A dividend with its highest place at `j` is divided rightly exactly if all its places are settled. -/
theorem long_division_iff (hsees : ∀ b r, sees b r → b < r) (hd : 0 < d) (hn : n < modulus)
    (hle : d ≤ n) (hj : n < d * 2 ^ (j + 1)) :
    (∃ k t, loop (Long.pass sees plain modulus d) k ⟨n, d * 2 ^ j, 0⟩ = some (some t) ∧
        t.left = n % d ∧ t.quotient = n / d) ↔ ∀ i ≤ j, Settles sees plain n d i := by
  constructor
  · rintro ⟨k, t, ht, hleft, hquotient⟩
    exact (settles_of_loop hsees hd hn hle ⟨rfl, by simp⟩ ht hleft hquotient).1
  · intro h
    have hloop := loop_of_settles hsees hd hn h
    rwa [Nat.mod_eq_of_lt hj, Nat.div_eq_of_lt hj] at hloop

end Framework
