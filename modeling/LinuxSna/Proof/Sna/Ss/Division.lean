import LinuxSna.Framework.LongDivision
import LinuxSna.Framework.Words
import LinuxSna.Impl.Sna.Ss.Pcid

/-!
# What `rl_div` computes

First its parts, on numbers. `rl_lt` does not look at the lowest bytes, and a borrow from a byte that is
not 0 goes through an expression that the language leaves undefined.

* `value_rlLeft`, `value_rlRight`: the shifts;
* `rlLt_iff`: the comparison, of the numbers without their lowest bytes;
* `rlSub_value`: the subtraction, where it is defined.

As `rl_lt` overlooks that the divisor is below the dividend if they differ in the lowest byte alone,
`rl_div` takes too little away or ends before the last places of the quotient. A dividend of 0 is read
before its first byte, and a divisor without a bit that can be shifted to the highest place of the
dividend is shifted for ever.

* `loop_divPass`: the loop on the arrays is that of the long division on numbers;
* `loop_alignPass`, `loop_alignPass_none`: where the divisor is shifted to, if it is;
* `rl_div_iff`: when the division comes out right.
-/

namespace LinuxSna.Ss

open Framework

/-! ## Bytes -/

theorem forall_byte {p : UInt8 → Prop} (h : ∀ i : Fin 256, p (UInt8.ofNat i)) (b : UInt8) : p b := by
  have hb := h ⟨b.toNat, b.toNat_lt⟩
  rwa [show UInt8.ofNat b.toNat = b from UInt8.ofNat_toNat] at hb

theorem shiftLeft_or_one (b : UInt8) : (b <<< 1 ||| 0x01).toNat = 2 * b.toNat % 256 + 1 :=
  forall_byte (p := fun b => (b <<< 1 ||| 0x01).toNat = 2 * b.toNat % 256 + 1) (by decide +kernel) b

theorem shiftLeft_or_zero (b : UInt8) : (b <<< 1 ||| 0x00).toNat = 2 * b.toNat % 256 :=
  forall_byte (p := fun b => (b <<< 1 ||| 0x00).toNat = 2 * b.toNat % 256) (by decide +kernel) b

theorem shiftRight_or (b : UInt8) :
    (b >>> 1 ||| 0x80).toNat = b.toNat / 2 + 128 ∧ (b >>> 1 ||| 0x00).toNat = b.toNat / 2 :=
  forall_byte (p := fun b => (b >>> 1 ||| 0x80).toNat = b.toNat / 2 + 128 ∧
    (b >>> 1 ||| 0x00).toNat = b.toNat / 2) (by decide +kernel) b

theorem and_eighty (b : UInt8) : b &&& 0x80 ≠ 0 ↔ 128 ≤ b.toNat :=
  forall_byte (p := fun b => b &&& 0x80 ≠ 0 ↔ 128 ≤ b.toNat) (by decide +kernel) b

theorem and_one (b : UInt8) : b &&& 0x01 ≠ 0 ↔ b.toNat % 2 = 1 :=
  forall_byte (p := fun b => b &&& 0x01 ≠ 0 ↔ b.toNat % 2 = 1) (by decide +kernel) b

/-! ## Shifts -/

@[simp] theorem length_rlLeftBytes (below : UInt8) (l : List UInt8) :
    (rlLeftBytes below l).length = l.length := by
  induction l generalizing below with
  | nil => rfl
  | cons b l ih => rw [rlLeftBytes, List.length_cons, List.length_cons, ih]

@[simp] theorem length_rlLeft (l : List UInt8) : (rlLeft l).length = l.length :=
  length_rlLeftBytes 0 l

theorem value_rlLeftBytes (below : UInt8) (l : List UInt8) :
    value (rlLeftBytes below l) = (2 * value l + below.toNat / 128) % 256 ^ l.length := by
  induction l generalizing below with
  | nil => simp [rlLeftBytes, Nat.mod_one]
  | cons b l ih =>
    have hb := b.toNat_lt
    have hbelow := below.toNat_lt
    have hhead : (b <<< 1 ||| if below &&& 0x80 ≠ 0 then 0x01 else 0x00).toNat =
        (2 * b.toNat + below.toNat / 128) % 256 := by
      have hbit := and_eighty below
      split_ifs with h
      · rw [shiftLeft_or_one]
        have := hbit.mp h
        omega
      · rw [shiftLeft_or_zero]
        have : ¬ 128 ≤ below.toNat := fun hge => h (hbit.mpr hge)
        omega
    rw [rlLeftBytes, value_cons, hhead, ih, value_cons, List.length_cons, pow_succ, mul_comm _ 256,
      Nat.mod_mul]
    congr 1
    · omega
    · congr 2
      omega

theorem value_lt_word {l : List UInt8} (h : l.length = 8) : value l < 2 ^ 64 := by
  have hlt := value_lt l
  rwa [h] at hlt

theorem value_rlLeft {l : List UInt8} (h : l.length = 8) : value (rlLeft l) = 2 * value l % 2 ^ 64 := by
  rw [rlLeft, value_rlLeftBytes, h]
  rfl

@[simp] theorem length_rlRight (l : List UInt8) : (rlRight l).length = l.length := by
  induction l with
  | nil => rfl
  | cons b l ih => rw [rlRight, List.length_cons, List.length_cons, ih]

theorem value_mod_two (l : List UInt8) : value l % 2 = (l.headD 0).toNat % 2 := by
  cases l with
  | nil => rfl
  | cons b l =>
    rw [value_cons, List.headD_cons]
    omega

theorem value_rlRight (l : List UInt8) : value (rlRight l) = value l / 2 := by
  induction l with
  | nil => rfl
  | cons b l ih =>
    have hmod := value_mod_two l
    have hbit := and_one (l.headD 0)
    have hhead : (b >>> 1 ||| if l.headD 0 &&& 0x01 ≠ 0 then 0x80 else 0x00).toNat =
        b.toNat / 2 + 128 * (value l % 2) := by
      split_ifs with h
      · rw [(shiftRight_or b).1]
        have := hbit.mp h
        omega
      · rw [(shiftRight_or b).2]
        have : ¬ (l.headD 0).toNat % 2 = 1 := fun ho => h (hbit.mpr ho)
        omega
    rw [rlRight, value_cons, hhead, ih, value_cons]
    omega

/-! ## The comparison -/

/-- What `rl_lt` sees: the numbers without their lowest bytes -/
def sees (b r : ℕ) : Prop := b / 256 < r / 256

instance : DecidableRel sees := fun b r => inferInstanceAs (Decidable (b / 256 < r / 256))

theorem lt_of_sees (b r : ℕ) (h : sees b r) : b < r := by
  unfold sees at h
  omega

/-- Bytes that are both 0 do not differ. -/
theorem find?_dropWhile (l : List (UInt8 × UInt8)) :
    (l.dropWhile fun p => p.1 = 0 && p.2 = 0).find? (fun p => p.1 ≠ p.2) =
      l.find? fun p => p.1 ≠ p.2 := by
  induction l with
  | nil => rfl
  | cons p l ih =>
    rw [List.dropWhile_cons]
    split_ifs with h
    · simp only [Bool.and_eq_true, decide_eq_true_eq] at h
      rw [ih, List.find?_cons_of_neg]
      simp [h.1, h.2]
    · rfl

theorem rlLt_iff {dividend divisor : List UInt8} (h : dividend.length = divisor.length) :
    rlLt dividend divisor = true ↔ sees (value divisor) (value dividend) := by
  have hlen : (dividend.drop 1).length = (divisor.drop 1).length := by
    rw [List.length_drop, List.length_drop, h]
  have hlt := value_lt_iff hlen
  rw [value_drop, value_drop, pow_one] at hlt
  rw [sees, hlt, rlLt, find?_dropWhile, ← topDifference]
  cases htop : topDifference (dividend.drop 1) (divisor.drop 1) with
  | none => simp
  | some p =>
    have hne : p.1 ≠ p.2 := by simpa using List.find?_some htop
    simp only [decide_eq_true_eq, Option.some.injEq, exists_eq_left', ge_iff_le]
    exact ⟨fun hle => UInt8.lt_of_le_of_ne hle hne.symm, UInt8.le_of_lt⟩

/-! ## The subtraction -/

/-- No byte of `r` but 0 has to be borrowed from when `b` is taken away. -/
def Plain (r b : ℕ) : Prop := ∀ i < 8, r % 256 ^ i < b % 256 ^ i → r / 256 ^ i % 256 = 0

instance : DecidableRel Plain := fun r b =>
  inferInstanceAs (Decidable (∀ i < 8, r % 256 ^ i < b % 256 ^ i → r / 256 ^ i % 256 = 0))

/-- `curtop = curtop--` tells nothing. -/
def undefinedPost : UInt8 → Option UInt8 := fun _ => none

/-- From every byte that is borrowed from, 0 is left. -/
def PlainFrom (n : ℕ) (r b : ℕ) (borrowed : Bool) : Prop :=
  ∀ i < n, r % 256 ^ i < b % 256 ^ i + borrowed.toNat → r / 256 ^ i % 256 = 0

theorem plainFrom_cons (n : ℕ) (t b : UInt8) (v w : ℕ) (borrowed : Bool) :
    PlainFrom (n + 1) (t.toNat + 256 * v) (b.toNat + 256 * w) borrowed ↔
      (borrowed = true → t = 0) ∧ PlainFrom n v w (decide (t.toNat < b.toNat + borrowed.toNat)) := by
  have ht := t.toNat_lt
  have hb := b.toNat_lt
  have hc := borrowed.toNat_le
  have hlow : ∀ (x : UInt8) (y i : ℕ), (x.toNat + 256 * y) % 256 ^ (i + 1) = x.toNat + 256 * (y % 256 ^ i) ∧
      (x.toNat + 256 * y) / 256 ^ (i + 1) = y / 256 ^ i := by
    intro x y i
    have hx := x.toNat_lt
    rw [pow_succ, mul_comm _ 256, Nat.mod_mul, ← Nat.div_div_eq_div_mul,
      show (x.toNat + 256 * y) / 256 = y by omega]
    exact ⟨by omega, rfl⟩
  have hfirst : (0 < borrowed.toNat → t.toNat % 256 = 0) ↔ (borrowed = true → t = 0) := by
    rw [← UInt8.toNat_inj, UInt8.toNat_zero]
    cases borrowed
    · simp
    · simp only [Bool.toNat_true, Nat.zero_lt_one, true_imp_iff]
      omega
  have hnext : ∀ i, (t.toNat + 256 * (v % 256 ^ i) < b.toNat + 256 * (w % 256 ^ i) + borrowed.toNat ↔
      v % 256 ^ i < w % 256 ^ i + (decide (t.toNat < b.toNat + borrowed.toNat)).toNat) := by
    intro i
    by_cases hlt : t.toNat < b.toNat + borrowed.toNat
    · rw [decide_eq_true hlt, Bool.toNat_true]
      omega
    · rw [decide_eq_false hlt, Bool.toNat_false]
      omega
  unfold PlainFrom
  rw [Nat.forall_lt_succ_left, ← hfirst]
  refine and_congr ?_ (forall₂_congr fun i _ => ?_)
  · rw [pow_zero, Nat.mod_one, Nat.mod_one, Nat.zero_add, Nat.div_one,
      Nat.add_mul_mod_self_left]
  · rw [(hlow t v i).1, (hlow b w i).1, (hlow t v i).2, hnext]

/-- What comes of the bytes of `v` when those of `w` are taken away and what has been borrowed -/
def Subtracts (n v w : ℕ) (borrowed : Bool) : Option (List UInt8) → Prop
  | none => ¬ PlainFrom n v w borrowed
  | some r => PlainFrom n v w borrowed ∧ r.length = n ∧
      (w + borrowed.toNat ≤ v → value r = v - (w + borrowed.toNat))

/-- One byte `c` of the difference, and the rest of it. -/
theorem Subtracts.cons {n v w : ℕ} {t b c : UInt8} {borrowed next : Bool} {res : Option (List UInt8)}
    (h : Subtracts n v w next res) (hzero : borrowed = true → t = 0)
    (hsum : c.toNat + b.toNat + borrowed.toNat = t.toNat + 256 * next.toNat) :
    Subtracts (n + 1) (t.toNat + 256 * v) (b.toNat + 256 * w) borrowed (res.map (c :: ·)) := by
  have hc := c.toNat_lt
  have hle := next.toNat_le
  have hnext : next = decide (t.toNat < b.toNat + borrowed.toNat) := by
    cases next
    · rw [Bool.toNat_false] at hsum
      exact (decide_eq_false (by omega)).symm
    · rw [Bool.toNat_true] at hsum
      exact (decide_eq_true (by omega)).symm
  have hplain := plainFrom_cons n t b v w borrowed
  rw [← hnext] at hplain
  cases res with
  | none => exact fun hp => h (hplain.mp hp).2
  | some r =>
    obtain ⟨hp, hlen, hvalue⟩ := h
    refine ⟨hplain.mpr ⟨hzero, hp⟩, by rw [List.length_cons, hlen], fun hv => ?_⟩
    rw [value_cons, hvalue (by omega)]
    omega

/-- A byte that is not borrowed from -/
theorem toNat_sub_borrow (t b : UInt8) :
    (t - b).toNat + b.toNat = t.toNat + 256 * (decide (t < b)).toNat := by
  have ht := t.toNat_lt
  have hb := b.toNat_lt
  rw [UInt8.toNat_sub]
  by_cases hlt : t < b
  · rw [decide_eq_true hlt, Bool.toNat_true]
    rw [UInt8.lt_iff_toNat_lt] at hlt
    omega
  · rw [decide_eq_false hlt, Bool.toNat_false]
    rw [UInt8.lt_iff_toNat_lt] at hlt
    omega

/-- The loop of `rl_sub`, with what has been borrowed before -/
theorem rlSubBytes_subtracts (borrowed : Bool) {top bottom : List UInt8}
    (h : top.length = bottom.length) :
    Subtracts top.length (value top) (value bottom) borrowed
      (rlSubBytes undefinedPost borrowed top bottom) := by
  induction top generalizing borrowed bottom with
  | nil =>
    obtain rfl := List.length_eq_zero_iff.mp h.symm
    refine ⟨fun i hi => absurd hi (Nat.not_lt_zero i), rfl, fun _ => ?_⟩
    exact (Nat.zero_sub _).symm
  | cons t top ih =>
    obtain ⟨b, bottom, rfl⟩ := List.exists_cons_of_length_eq_add_one h.symm
    have hlen : top.length = bottom.length := Nat.succ.inj h
    rw [List.length_cons, value_cons, value_cons]
    cases borrowed with
    | false =>
      have hsub : rlSubBytes undefinedPost false (t :: top) (b :: bottom) =
          (rlSubBytes undefinedPost (decide (t < b)) top bottom).map ((t - b) :: ·) := by
        simp [rlSubBytes, Option.map_eq_bind]
      rw [hsub]
      exact (ih _ hlen).cons nofun (toNat_sub_borrow t b)
    | true =>
      by_cases hzero : t = 0
      · subst hzero
        have hsub : rlSubBytes undefinedPost true (0 :: top) (b :: bottom) =
            (rlSubBytes undefinedPost true top bottom).map ((0xFF - b) :: ·) := by
          simp [rlSubBytes, Option.map_eq_bind]
        have hb := b.toNat_lt
        rw [hsub]
        apply (ih true hlen).cons fun _ => rfl
        rw [UInt8.toNat_sub, Bool.toNat_true]
        show (256 - b.toNat + 255) % 256 + b.toNat + 1 = 0 + 256 * 1
        omega
      · have hnone : rlSubBytes undefinedPost true (t :: top) (b :: bottom) = none := by
          simp [rlSubBytes, hzero, undefinedPost]
        rw [hnone]
        exact fun hp => hzero (((plainFrom_cons _ t b _ _ true).mp hp).1 rfl)

/-- `rl_sub` of what is not above -/
theorem rlSub_value {top bottom : List UInt8} (htop : top.length = 8) (hbottom : bottom.length = 8)
    (hle : value bottom ≤ value top) :
    match rlSub undefinedPost top bottom with
    | none => ¬ Plain (value top) (value bottom)
    | some r => Plain (value top) (value bottom) ∧ r.length = 8 ∧
        value r = value top - value bottom := by
  have hguard : ¬ top.getD 7 0 < bottom.getD 7 0 := by
    rw [UInt8.lt_iff_toNat_lt, getD_value, getD_value]
    have ht : value top < 256 ^ 8 := htop ▸ value_lt top
    have hb : value bottom < 256 ^ 8 := hbottom ▸ value_lt bottom
    omega
  have hsub := rlSubBytes_subtracts false (htop.trans hbottom.symm)
  rw [rlSub, if_neg hguard]
  rw [htop] at hsub
  cases hr : rlSubBytes undefinedPost false top bottom with
  | none =>
    rw [hr] at hsub
    exact hsub
  | some r =>
    rw [hr] at hsub
    exact ⟨hsub.1, hsub.2.1, hsub.2.2 hle⟩

/-! ## The loop of the division -/

theorem or_one_of_even (b : UInt8) (h : b.toNat % 2 = 0) : (b ||| 0x01).toNat = b.toNat + 1 :=
  forall_byte (p := fun b => b.toNat % 2 = 0 → (b ||| 0x01).toNat = b.toNat + 1) (by decide +kernel) b h

theorem value_setLowest {l : List UInt8} (hlen : l.length = 8) (h : value l % 2 = 0) :
    value (setLowest l) = value l + 1 ∧ (setLowest l).length = 8 := by
  obtain ⟨b, l, rfl⟩ := List.exists_cons_of_length_eq_add_one hlen
  rw [value_mod_two, List.headD_cons] at h
  refine ⟨?_, hlen⟩
  rw [setLowest, value_cons, value_cons, or_one_of_even b h]
  omega

/-- Arrays of 8 bytes -/
structure Division.Sized (s : Division) : Prop where
  dividend : s.dividend.length = 8
  divisor : s.divisor.length = 8
  quotient : s.quotient.length = 8

/-- The numbers in the arrays -/
def Division.numbers (s : Division) : Long := ⟨value s.dividend, value s.divisor, value s.quotient⟩

/-- What a place leaves, before the divisor is shifted back -/
def subtracted (s : Division) : Option Division :=
  if rlLt s.dividend s.divisor then
    (rlSub undefinedPost s.dividend s.divisor).map fun dividend =>
      { s with dividend := dividend, quotient := setLowest (rlLeft s.quotient) }
  else some { s with quotient := rlLeft s.quotient }

def shiftedBack (s : Division) : Division := { s with divisor := rlRight s.divisor }

theorem divPass_eq (tempdiv : List UInt8) (s : Division) :
    divPass undefinedPost tempdiv s =
      match subtracted s with
      | none => .inr none
      | some t =>
        if rlLt (shiftedBack t).dividend tempdiv then .inl (shiftedBack t)
        else .inr (some (shiftedBack t)) := by
  unfold divPass subtracted shiftedBack
  split_ifs
  · cases rlSub undefinedPost s.dividend s.divisor <;> rfl
  · rfl

theorem subtracted_numbers {s : Division} (h : s.Sized) :
    match subtracted s with
    | none => sees (value s.divisor) (value s.dividend) ∧ ¬ Plain (value s.dividend) (value s.divisor)
    | some t =>
      ¬ (sees (value s.divisor) (value s.dividend) ∧ ¬ Plain (value s.dividend) (value s.divisor)) ∧
        (shiftedBack t).Sized ∧ (shiftedBack t).numbers = s.numbers.place sees (2 ^ 64) := by
  have hlt := rlLt_iff (h.dividend.trans h.divisor.symm)
  have hleft := value_rlLeft h.quotient
  have hllen : (rlLeft s.quotient).length = 8 := by rw [length_rlLeft, h.quotient]
  have hright : (rlRight s.divisor).length = 8 := by rw [length_rlRight, h.divisor]
  unfold subtracted
  split_ifs with hseen
  · have hs := hlt.mp hseen
    have hsub := rlSub_value h.dividend h.divisor (lt_of_sees _ _ hs).le
    cases hr : rlSub undefinedPost s.dividend s.divisor with
    | none =>
      rw [hr] at hsub
      exact ⟨hs, hsub⟩
    | some r =>
      rw [hr] at hsub
      obtain ⟨hplain, hrlen, hvalue⟩ := hsub
      have hlowest := value_setLowest hllen (by rw [hleft]; omega)
      refine ⟨fun hu => hu.2 hplain, ⟨hrlen, hright, hlowest.2⟩, ?_⟩
      rw [Long.place, if_pos (show sees s.numbers.divisor s.numbers.left from hs)]
      show Long.mk _ _ _ = Long.mk _ _ _
      rw [Long.mk.injEq]
      refine ⟨hvalue, value_rlRight _, ?_⟩
      show value (setLowest (rlLeft s.quotient)) = (2 * value s.quotient + 1) % 2 ^ 64
      rw [hlowest.1, hleft]
      omega
  · have hs : ¬ sees (value s.divisor) (value s.dividend) := fun hs => hseen (hlt.mpr hs)
    refine ⟨fun hu => hs hu.1, ⟨h.dividend, hright, hllen⟩, ?_⟩
    rw [Long.place, if_neg (show ¬ sees s.numbers.divisor s.numbers.left from hs)]
    show Long.mk _ _ _ = Long.mk _ _ _
    rw [Long.mk.injEq]
    exact ⟨rfl, value_rlRight _, hleft⟩

/-- A pass on the arrays is a pass on the numbers. -/
theorem divPass_numbers {tempdiv : List UInt8} (htemp : tempdiv.length = 8) {s : Division}
    (h : s.Sized) :
    s.numbers.pass sees Plain (2 ^ 64) (value tempdiv) =
      (divPass undefinedPost tempdiv s).map Division.numbers (Option.map Division.numbers) ∧
    ∀ s', divPass undefinedPost tempdiv s = .inl s' → s'.Sized := by
  have hsub := subtracted_numbers h
  rw [divPass_eq]
  cases hr : subtracted s with
  | none =>
    rw [hr] at hsub
    exact ⟨Long.pass_undefined hsub, nofun⟩
  | some t =>
    rw [hr] at hsub
    obtain ⟨hok, hsized, hnumbers⟩ := hsub
    have hlt := rlLt_iff (hsized.dividend.trans htemp.symm)
    have hleft : (s.numbers.place sees (2 ^ 64)).left = value (shiftedBack t).dividend := by
      rw [← hnumbers]
      rfl
    dsimp only
    split_ifs with hseen
    · refine ⟨?_, fun s' hs' => by cases hs'; exact hsized⟩
      rw [Long.pass_goesOn hok (by rw [hleft]; exact hlt.mp hseen), ← hnumbers]
      rfl
    · refine ⟨?_, nofun⟩
      rw [Long.pass_ends hok (by rw [hleft]; exact fun hs => hseen (hlt.mpr hs)), ← hnumbers]
      rfl

theorem loop_divPass {tempdiv : List UInt8} (htemp : tempdiv.length = 8) {s : Division}
    (h : s.Sized) (k : ℕ) :
    loop (Long.pass sees Plain (2 ^ 64) (value tempdiv)) k s.numbers =
      (loop (divPass undefinedPost tempdiv) k s).map (Option.map Division.numbers) :=
  loop_map (I := Division.Sized) (fun _ s' hs => (divPass_numbers htemp hs).2 s')
    (fun _ hs => (divPass_numbers htemp hs).1) h

/-! ## The alignment -/

theorem highest_spec (p : ℕ → Bool) (n : ℕ) :
    match highest p n with
    | none => ∀ i < n, p i = false
    | some i => p i = true ∧ i < n ∧ ∀ j < n, i < j → p j = false := by
  induction n with
  | zero => exact fun i hi => absurd hi (Nat.not_lt_zero i)
  | succ n ih =>
    rw [highest]
    split_ifs with hp
    · exact ⟨hp, Nat.lt_succ_self n, fun j hj hij => absurd hij (by omega)⟩
    · have hp : p n = false := by simpa using hp
      cases hr : highest p n with
      | none =>
        rw [hr] at ih
        intro i hi
        obtain hi | rfl := Nat.lt_succ_iff_lt_or_eq.mp hi
        · exact ih i hi
        · exact hp
      | some i =>
        rw [hr] at ih
        refine ⟨ih.1, by omega, fun j hj hij => ?_⟩
        obtain hj | rfl := Nat.lt_succ_iff_lt_or_eq.mp hj
        · exact ih.2.2 j hj hij
        · exact hp

/-- The highest bit of a byte that is not 0 -/
theorem highest_bit {b : UInt8} (h : b ≠ 0) :
    ∃ k, highest (fun k => b.toNat.testBit k) 9 = some k ∧ k < 8 ∧ b.toNat.testBit k = true ∧
      ∀ j, k < j → b.toNat.testBit j = false := by
  have hlt := b.toNat_lt
  have hbeyond : ∀ j, 8 ≤ j → b.toNat.testBit j = false := fun j hj =>
    Nat.testBit_lt_two_pow (hlt.trans_le (Nat.pow_le_pow_right (by decide) hj))
  have hbit := highest_spec (fun k => b.toNat.testBit k) 9
  cases hk : highest (fun k => b.toNat.testBit k) 9 with
  | none =>
    rw [hk] at hbit
    refine absurd (UInt8.toNat_inj.mp (Nat.zero_of_testBit_eq_false fun j => ?_)) h
    by_cases hj : j < 9
    · exact hbit j hj
    · exact hbeyond j (by omega)
  | some k =>
    rw [hk] at hbit
    obtain ⟨hone, -, habove⟩ := hbit
    refine ⟨k, rfl, ?_, hone, fun j hkj => ?_⟩
    · by_contra hge
      rw [hbeyond k (by omega)] at hone
      cases hone
    · by_cases hj : j < 9
      · exact habove j hj hkj
      · exact hbeyond j (by omega)

/-- The highest byte that is not 0 -/
theorem highest_byte {l : List UInt8} (hlen : l.length = 8) (h : value l ≠ 0) :
    ∃ i, highest (fun i => l.getD i 0 > 0) 8 = some i ∧ l.getD i 0 ≠ 0 ∧
      ∀ j, i < j → l.getD j 0 = 0 := by
  have hnot : ∀ b : UInt8, decide (b > 0) = false → b = 0 := fun b hb => by simpa using hb
  have hbyte := highest_spec (fun i => l.getD i 0 > 0) 8
  cases hi : highest (fun i => l.getD i 0 > 0) 8 with
  | none =>
    rw [hi] at hbyte
    refine absurd ((value_eq_zero_iff l).mpr fun b hb => ?_) h
    obtain ⟨j, hj, rfl⟩ := List.getElem_of_mem hb
    have hzero := hnot _ (hbyte j (by omega))
    rwa [List.getD_eq_getElem l 0 hj] at hzero
  | some i =>
    rw [hi] at hbyte
    obtain ⟨hpos, -, habove⟩ := hbyte
    refine ⟨i, rfl, fun hz => ?_, fun j hij => ?_⟩
    · rw [hz] at hpos
      exact absurd hpos (by decide)
    · by_cases hj : j < 8
      · exact hnot _ (habove j hj hij)
      · exact List.getD_eq_default l 0 (by omega)

/-- The highest bit of a number that is not 0 -/
theorem maxBit_eq {l : List UInt8} (hlen : l.length = 8) (h : value l ≠ 0) :
    ∃ bit, maxBit l = some bit ∧ bit.2 < 8 ∧ 8 * bit.1 + bit.2 = (value l).log2 := by
  obtain ⟨i, hi, hne, hzero⟩ := highest_byte hlen h
  obtain ⟨k, hk, hk8, hone, habove⟩ := highest_bit hne
  refine ⟨(i, k), ?_, hk8, ?_⟩
  · rw [maxBit, hi]
    show (highest (fun k => (l.getD i 0).toNat.testBit k) 9).bind _ = _
    rw [hk]
    rfl
  · show 8 * i + k = (value l).log2
    rw [eq_comm, Nat.log2_eq_iff h]
    refine ⟨Nat.ge_two_pow_of_testBit (by rwa [← testBit_value l i k hk8]), ?_⟩
    apply Nat.lt_pow_two_of_testBit
    intro q hq
    rw [← Nat.div_add_mod q 8, ← testBit_value l (q / 8) (q % 8) (Nat.mod_lt q (by decide))]
    by_cases hqi : q / 8 = i
    · rw [hqi]
      exact habove _ (by omega)
    · rw [hzero _ (by omega)]
      exact Nat.zero_testBit _

theorem maxBit_zero {l : List UInt8} (h : value l = 0) : maxBit l = none := by
  have hzero : ∀ i, l.getD i 0 = 0 := fun i => by
    rw [← UInt8.toNat_inj, getD_value, h, Nat.zero_div]
    rfl
  have hnone : highest (fun i => l.getD i 0 > 0) 8 = none := by
    simp only [hzero]
    decide
  rw [maxBit, hnone]
  rfl

/-- Where the divisor is shifted to, if any of its bits can get to the highest place of `n` -/
def aligned (n d : ℕ) : ℕ := d * 2 ^ (n.log2 - (d % 2 ^ (n.log2 + 1)).log2) % 2 ^ 64

theorem alignPass_eq {bit : ℕ × ℕ} (hbit : bit.2 < 8) (l : List UInt8) :
    alignPass bit l =
      if (value l).testBit (8 * bit.1 + bit.2) then .inr l else .inl (rlLeft l) := by
  rw [alignPass, testBit_value l bit.1 bit.2 hbit]

theorem testBit_mod_succ (v p : ℕ) : (v % 2 ^ (p + 1)).testBit p = v.testBit p := by
  rw [Nat.testBit_mod_two_pow, decide_eq_true (Nat.lt_succ_self p), Bool.true_and]

/-- A divisor without a bit that can get there is shifted for ever. -/
theorem loop_alignPass_none {bit : ℕ × ℕ} (hbit : bit.2 < 8) {p : ℕ} (hp : 8 * bit.1 + bit.2 = p)
    (hp64 : p < 64) {l : List UInt8} (hlen : l.length = 8) (h : value l % 2 ^ (p + 1) = 0) (k : ℕ) :
    loop (alignPass bit) k l = none := by
  apply loop_never (I := fun l => l.length = 8 ∧ value l % 2 ^ (p + 1) = 0) _ ⟨hlen, h⟩
  rintro l ⟨hlen, h⟩
  have hno : (value l).testBit p = false := by
    rw [← testBit_mod_succ, h, Nat.zero_testBit]
  refine ⟨rlLeft l, ?_, by rw [length_rlLeft, hlen], ?_⟩
  · rw [alignPass_eq hbit, hp, hno, if_neg Bool.false_ne_true]
  · rw [value_rlLeft hlen, Nat.mod_mod_of_dvd _ (Nat.pow_dvd_pow 2 (by omega)), Nat.mul_mod, h,
      Nat.mul_zero, Nat.zero_mod]

theorem loop_alignPass {bit : ℕ × ℕ} (hbit : bit.2 < 8) {p : ℕ} (hp : 8 * bit.1 + bit.2 = p)
    (hp64 : p < 64) {l : List UInt8} (hlen : l.length = 8) (h : value l % 2 ^ (p + 1) ≠ 0) :
    ∃ k l', loop (alignPass bit) k l = some l' ∧ l'.length = 8 ∧
      value l' = value l * 2 ^ (p - (value l % 2 ^ (p + 1)).log2) % 2 ^ 64 := by
  generalize hj : p - (value l % 2 ^ (p + 1)).log2 = j
  have hle : (value l % 2 ^ (p + 1)).log2 ≤ p :=
    Nat.lt_succ_iff.mp ((Nat.log2_lt h).mpr (Nat.mod_lt _ (Nat.two_pow_pos _)))
  have hlow := Nat.testBit_log2 h
  have hv := value_lt_word hlen
  induction j generalizing l with
  | zero =>
    have hone : (value l).testBit p = true := by
      rw [show (value l % 2 ^ (p + 1)).log2 = p by omega] at hlow
      rwa [testBit_mod_succ] at hlow
    refine ⟨1, l, loop_succ_inr ?_, hlen, ?_⟩
    · rw [alignPass_eq hbit, hp, if_pos hone]
    · rw [pow_zero, mul_one, Nat.mod_eq_of_lt hv]
  | succ j ih =>
    have hlt : value l % 2 ^ (p + 1) < 2 ^ p := (Nat.log2_lt h).mp (by omega)
    have hpow : 2 ^ (p + 1) = 2 ^ p * 2 := pow_succ 2 p
    have hno : (value l).testBit p = false := by
      rw [← testBit_mod_succ]
      exact Nat.testBit_lt_two_pow hlt
    have hdouble : value (rlLeft l) % 2 ^ (p + 1) = 2 * (value l % 2 ^ (p + 1)) := by
      rw [value_rlLeft hlen, Nat.mod_mod_of_dvd _ (Nat.pow_dvd_pow 2 (by omega)), Nat.mul_mod,
        Nat.mod_eq_of_lt (show 2 < 2 ^ (p + 1) by omega)]
      apply Nat.mod_eq_of_lt
      omega
    have hne : value (rlLeft l) % 2 ^ (p + 1) ≠ 0 := by omega
    have hlog : (value (rlLeft l) % 2 ^ (p + 1)).log2 = (value l % 2 ^ (p + 1)).log2 + 1 := by
      rw [hdouble, Nat.log2_two_mul h]
    have hllen : (rlLeft l).length = 8 := by rw [length_rlLeft, hlen]
    obtain ⟨k, l', hloop, hlen', hvalue⟩ := ih hllen hne (by omega) (by omega) (Nat.testBit_log2 hne)
      (value_lt_word hllen)
    refine ⟨k + 1, l', ?_, hlen', ?_⟩
    · rw [loop_succ_inl (by rw [alignPass_eq hbit, hp, hno, if_neg Bool.false_ne_true]), hloop]
    · rw [hvalue, value_rlLeft hlen, Nat.mod_mul_mod, pow_succ]
      congr 1
      ring

/-! ## The division -/

/-- The division of `n` by `d` comes out right: a dividend below the divisor is not 0 and gets a shifted
divisor that is not seen to be below it, and one that is not below gets all its places settled. -/
def Divides (n d : ℕ) : Prop :=
  0 < n ∧ if n < d then d % 2 ^ (n.log2 + 1) ≠ 0 ∧ ¬ sees (aligned n d) n
    else ∀ j ≤ n.log2 - d.log2, Settles sees Plain n d j

/-- A shifted divisor that is seen below a smaller dividend is taken away. -/
theorem small_iff {n d a : ℕ} (hnd : n < d) (ha : 0 < a) :
    (∃ k t, loop (Long.pass sees Plain (2 ^ 64) d) k ⟨n, a, 0⟩ = some (some t) ∧
      t.left = n % d ∧ t.quotient = n / d) ↔ ¬ sees a n := by
  have hend : ∀ r ≤ n, ¬ sees d r := fun r hr hs => by
    have hlt := lt_of_sees _ _ hs
    omega
  rw [Nat.mod_eq_of_lt hnd, Nat.div_eq_of_lt hnd]
  constructor
  · rintro ⟨k, t, ht, hleft, -⟩ hs
    obtain _ | k := k
    · cases ht
    · by_cases hplain : Plain n a
      · have hplace : (Long.mk n a 0).place sees (2 ^ 64) = ⟨n - a, a / 2, 1⟩ := if_pos hs
        rw [loop_succ_inr (Long.pass_ends (fun hu => hu.2 hplain)
          (by rw [hplace]; exact hend _ (Nat.sub_le n a))), hplace] at ht
        cases ht
        have hlt := lt_of_sees _ _ hs
        have hleft : n - a = n := hleft
        omega
      · rw [loop_succ_inr (Long.pass_undefined ⟨hs, hplain⟩)] at ht
        cases ht
  · intro hs
    have hplace : (Long.mk n a 0).place sees (2 ^ 64) = ⟨n, a / 2, 0⟩ := if_neg hs
    refine ⟨1, ⟨n, a / 2, 0⟩, ?_, rfl, rfl⟩
    rw [loop_succ_inr (Long.pass_ends (fun hu => hs hu.1) (by rw [hplace]; exact hend n le_rfl)),
      hplace]

/-- The place of the highest bit, for a dividend that is not below the divisor -/
theorem aligned_eq {n d : ℕ} (hd : 0 < d) (hle : d ≤ n) (hn : n < 2 ^ 64) :
    aligned n d = d * 2 ^ (n.log2 - d.log2) ∧ n < d * 2 ^ (n.log2 - d.log2 + 1) ∧
      d % 2 ^ (n.log2 + 1) = d := by
  have hn0 : n ≠ 0 := by omega
  have hlog : d.log2 ≤ n.log2 := (Nat.le_log2 hn0).mpr ((Nat.log2_self_le (by omega)).trans hle)
  have hmod : d % 2 ^ (n.log2 + 1) = d := Nat.mod_eq_of_lt (hle.trans_lt Nat.lt_log2_self)
  have hn64 : n.log2 < 64 := (Nat.log2_lt hn0).mpr hn
  refine ⟨?_, ?_, hmod⟩
  · rw [aligned, hmod]
    apply Nat.mod_eq_of_lt
    calc d * 2 ^ (n.log2 - d.log2)
      _ < 2 ^ (d.log2 + 1) * 2 ^ (n.log2 - d.log2) :=
        Nat.mul_lt_mul_of_pos_right Nat.lt_log2_self (Nat.two_pow_pos _)
      _ = 2 ^ (n.log2 + 1) := by rw [← pow_add]; congr 1; omega
      _ ≤ 2 ^ 64 := Nat.pow_le_pow_right (by decide) hn64
  · calc n
      _ < 2 ^ (n.log2 + 1) := Nat.lt_log2_self
      _ = 2 ^ d.log2 * 2 ^ (n.log2 - d.log2 + 1) := by rw [← pow_add]; congr 1; omega
      _ ≤ d * 2 ^ (n.log2 - d.log2 + 1) := Nat.mul_le_mul_right _ (Nat.log2_self_le (by omega))

/-- `rl_div` ends with the remainder in the dividend, and with the quotient. -/
def ComesOut (dividend divisor : List UInt8) : Prop :=
  ∃ fuel s, rlDiv undefinedPost fuel dividend divisor = some (some s) ∧
    value s.dividend = value dividend % value divisor ∧
    value s.quotient = value dividend / value divisor

/-- Once the divisor is aligned, the loop on the arrays is that on the numbers. -/
theorem comesOut_iff_loop {dividend divisor aligned : List UInt8} {bit : ℕ × ℕ} {k : ℕ}
    (hn : dividend.length = 8) (hd : divisor.length = 8) (hbit : maxBit dividend = some bit)
    (halign : loop (alignPass bit) k divisor = some aligned) (hlen : aligned.length = 8) :
    ComesOut dividend divisor ↔
      ∃ k t, loop (Long.pass sees Plain (2 ^ 64) (value divisor)) k
          ⟨value dividend, value aligned, 0⟩ = some (some t) ∧
        t.left = value dividend % value divisor ∧ t.quotient = value dividend / value divisor := by
  have hsized : (Division.mk dividend aligned (List.replicate 8 0)).Sized := ⟨hn, hlen, rfl⟩
  have hnumbers : (Division.mk dividend aligned (List.replicate 8 0)).numbers =
      ⟨value dividend, value aligned, 0⟩ := rfl
  have hloop := fun k => loop_divPass hd hsized k
  rw [hnumbers] at hloop
  constructor
  · rintro ⟨fuel, s, hs, hleft, hquotient⟩
    rw [rlDiv, hbit] at hs
    obtain ⟨aligned', ha, hs⟩ := Option.bind_eq_some_iff.mp hs
    obtain rfl := loop_unique halign ha
    exact ⟨fuel, s.numbers, by rw [hloop, hs]; rfl, hleft, hquotient⟩
  · rintro ⟨k', t, ht, hleft, hquotient⟩
    rw [hloop] at ht
    obtain ⟨r, hr, hrt⟩ := Option.map_eq_some_iff.mp ht
    obtain ⟨s, rfl, rfl⟩ := Option.map_eq_some_iff.mp hrt
    refine ⟨k + k', s, ?_, hleft, hquotient⟩
    rw [rlDiv, hbit]
    dsimp only
    rw [loop_mono halign (Nat.le_add_right k k')]
    exact loop_mono hr (Nat.le_add_left k' k)

/-- `rl_div` comes out right exactly if the division settles all places. -/
theorem rl_div_iff {dividend divisor : List UInt8} (hn : dividend.length = 8)
    (hd : divisor.length = 8) (hpos : 0 < value divisor) :
    ComesOut dividend divisor ↔ Divides (value dividend) (value divisor) := by
  by_cases hzero : value dividend = 0
  · refine iff_of_false ?_ fun h => absurd h.1 (by omega)
    rintro ⟨fuel, s, hs, -⟩
    rw [rlDiv, maxBit_zero hzero] at hs
    cases hs
  · obtain ⟨bit, hbit, hbit8, hlog⟩ := maxBit_eq hn hzero
    have hword := value_lt_word hn
    have hn64 : (value dividend).log2 < 64 := (Nat.log2_lt hzero).mpr hword
    by_cases hlow : value divisor % 2 ^ ((value dividend).log2 + 1) = 0
    · -- the divisor is shifted for ever, which a divisor that is not above the dividend is not
      have hnever := fun k => loop_alignPass_none hbit8 hlog hn64 hd hlow k
      refine iff_of_false ?_ ?_
      · rintro ⟨fuel, s, hs, -⟩
        rw [rlDiv, hbit] at hs
        obtain ⟨_, ha, -⟩ := Option.bind_eq_some_iff.mp hs
        rw [hnever] at ha
        cases ha
      · rintro ⟨-, h⟩
        split_ifs at h with hlt
        · exact h.1 hlow
        · rw [(aligned_eq hpos (by omega) hword).2.2] at hlow
          omega
    · obtain ⟨k, l, halign, hlen, hvalue⟩ := loop_alignPass hbit8 hlog hn64 hd hlow
      rw [comesOut_iff_loop hn hd hbit halign hlen, hvalue]
      unfold Divides
      rw [and_iff_right (Nat.pos_of_ne_zero hzero)]
      split_ifs with hlt
      · rw [and_iff_right hlow]
        apply small_iff hlt
        rw [← hvalue]
        obtain ⟨_, t, -, ht⟩ := loop_last halign
        rw [alignPass_eq hbit8] at ht
        split_ifs at ht with hone
        cases ht
        apply Nat.pos_of_ne_zero
        intro hz
        rw [hz, Nat.zero_testBit] at hone
        cases hone
      · obtain ⟨haligned, hplace, -⟩ := aligned_eq hpos (by omega) hword
        rw [aligned] at haligned
        rw [haligned]
        exact long_division_iff lt_of_sees hpos hword (by omega) hplace

instance (n d j : ℕ) : Decidable (Settles sees Plain n d j) :=
  decidable_of_iff
    ((d * 2 ^ j ≤ n % (d * 2 ^ (j + 1)) →
        sees (d * 2 ^ j) (n % (d * 2 ^ (j + 1))) ∧ Plain (n % (d * 2 ^ (j + 1))) (d * 2 ^ j)) ∧
      (0 < j → sees d (n % (d * 2 ^ j))))
    ⟨fun h => ⟨h.1, h.2⟩, fun h => ⟨h.taken, h.goesOn⟩⟩

instance (n d : ℕ) : Decidable (Divides n d) := by
  unfold Divides
  infer_instance

/-- 1156 is 3 times 300 and 256. -/
theorem rl_div_of_1156_by_300 : ComesOut [0x84, 0x04, 0, 0, 0, 0, 0, 0] [0x2C, 0x01, 0, 0, 0, 0, 0, 0] :=
  (rl_div_iff rfl rfl (by decide)).mpr (by decide)

theorem rlDiv_mono {post : UInt8 → Option UInt8} {fuel fuel' : ℕ} {dividend divisor : List UInt8}
    {r : Option Division} (h : rlDiv post fuel dividend divisor = some r) (hle : fuel ≤ fuel') :
    rlDiv post fuel' dividend divisor = some r := by
  unfold rlDiv at h ⊢
  split at h
  · exact h
  · obtain ⟨aligned, ha, hr⟩ := Option.bind_eq_some_iff.mp h
    rw [loop_mono ha hle]
    exact loop_mono hr hle

/-- 1024 is 4 times 256, but `rl_div` leaves 3 and 256. -/
theorem rl_div_of_1024_by_256 :
    ¬ ComesOut [0, 0x04, 0, 0, 0, 0, 0, 0] [0, 0x01, 0, 0, 0, 0, 0, 0] := by
  have hrun : rlDiv undefinedPost 4 [0, 0x04, 0, 0, 0, 0, 0, 0] [0, 0x01, 0, 0, 0, 0, 0, 0] =
      some (some ⟨[0, 0x01, 0, 0, 0, 0, 0, 0], [0x80, 0, 0, 0, 0, 0, 0, 0],
        [3, 0, 0, 0, 0, 0, 0, 0]⟩) := by decide
  rintro ⟨fuel, s, hs, -, hquotient⟩
  have hsame := (rlDiv_mono hrun (Nat.le_add_right 4 fuel)).symm.trans
    (rlDiv_mono hs (Nat.le_add_left fuel 4))
  cases hsame
  exact absurd hquotient (by decide)

end LinuxSna.Ss
