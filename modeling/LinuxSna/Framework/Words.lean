import Mathlib

/-!
# Words and their bytes

Numbers as lists of bytes, the lowest first, and the masks and byte orders of words.

* `value_lt`: the number of bytes bounds the number;
* `testBit_value`: the bits of a number are those of its bytes;
* `value_drop`, `getD_value`: its parts;
* `value_lt_iff`: the highest bytes that differ decide a comparison;
* `byteSwap_and`, `byteSwap_injective`: turning the bytes of a word round does not matter for what
  is masked;
* `and_leading_eq_iff`: a mask of leading ones compares the first bits;
* `and_setWidth_eq_iff`: the comparison can be made in a wider word.
-/

namespace Framework

def value : List UInt8 → ℕ
  | [] => 0
  | b :: l => b.toNat + 256 * value l

@[simp] theorem value_nil : value [] = 0 := rfl

@[simp] theorem value_cons (b : UInt8) (l : List UInt8) : value (b :: l) = b.toNat + 256 * value l :=
  rfl

theorem value_lt (l : List UInt8) : value l < 256 ^ l.length := by
  induction l with
  | nil => decide
  | cons b l ih =>
    have hb := b.toNat_lt
    rw [value_cons, List.length_cons, pow_succ]
    omega

theorem value_drop (l : List UInt8) (n : ℕ) : value (l.drop n) = value l / 256 ^ n := by
  induction l generalizing n with
  | nil => simp
  | cons b l ih =>
    have hb := b.toNat_lt
    cases n with
    | zero => simp
    | succ n =>
      rw [List.drop_succ_cons, value_cons, ih, pow_succ, mul_comm _ 256, ← Nat.div_div_eq_div_mul,
        show (b.toNat + 256 * value l) / 256 = value l by omega]

theorem getD_value (l : List UInt8) (i : ℕ) : (l.getD i 0).toNat = value l / 256 ^ i % 256 := by
  induction l generalizing i with
  | nil => simp
  | cons b l ih =>
    have hb := b.toNat_lt
    cases i with
    | zero =>
      rw [List.getD_cons_zero, value_cons, pow_zero, Nat.div_one]
      omega
    | succ i =>
      rw [List.getD_cons_succ, ih, value_cons, pow_succ, mul_comm _ 256, ← Nat.div_div_eq_div_mul,
        show (b.toNat + 256 * value l) / 256 = value l by omega]

theorem testBit_value (l : List UInt8) (i k : ℕ) (hk : k < 8) :
    (l.getD i 0).toNat.testBit k = (value l).testBit (8 * i + k) := by
  rw [getD_value, show (256 : ℕ) = 2 ^ 8 by rfl, Nat.testBit_mod_two_pow, decide_eq_true hk,
    Bool.true_and, ← pow_mul, Nat.testBit_div_two_pow, add_comm]

theorem value_eq_zero_iff (l : List UInt8) : value l = 0 ↔ ∀ b ∈ l, b = 0 := by
  induction l with
  | nil => simp
  | cons b l ih =>
    rw [value_cons, List.forall_mem_cons, ← ih, ← UInt8.toNat_inj, UInt8.toNat_zero]
    omega

/-- The highest bytes that differ -/
def topDifference (l m : List UInt8) : Option (UInt8 × UInt8) :=
  (l.zip m).reverse.find? fun p => p.1 ≠ p.2

theorem topDifference_cons (b c : UInt8) (l m : List UInt8) :
    topDifference (b :: l) (c :: m) =
      (topDifference l m).or (if b ≠ c then some (b, c) else none) := by
  rw [topDifference, List.zip_cons_cons, List.reverse_cons, List.find?_append, List.find?_singleton]
  simp [topDifference]

theorem value_eq_of_topDifference {l m : List UInt8} (h : l.length = m.length)
    (hnone : topDifference l m = none) : value l = value m := by
  induction l generalizing m with
  | nil => rw [List.length_eq_zero_iff.mp h.symm]
  | cons b l ih =>
    obtain ⟨c, m, rfl⟩ := List.exists_cons_of_length_eq_add_one h.symm
    rw [topDifference_cons, Option.or_eq_none_iff] at hnone
    have hbc : b = c := by
      by_contra hne
      rw [if_pos hne] at hnone
      cases hnone.2
    rw [hbc, value_cons, value_cons, ih (by simpa using h) hnone.1]

theorem value_lt_of_topDifference {l m : List UInt8} {p : UInt8 × UInt8} (h : l.length = m.length)
    (hsome : topDifference l m = some p) :
    p.2 < p.1 ∧ value m < value l ∨ p.1 < p.2 ∧ value l < value m := by
  induction l generalizing m with
  | nil =>
    obtain rfl := List.length_eq_zero_iff.mp h.symm
    cases hsome
  | cons b l ih =>
    obtain ⟨c, m, rfl⟩ := List.exists_cons_of_length_eq_add_one h.symm
    have hb := b.toNat_lt
    have hc := c.toNat_lt
    have hlen : l.length = m.length := by simpa using h
    rw [topDifference_cons] at hsome
    rw [value_cons, value_cons]
    cases htop : topDifference l m with
    | some q =>
      rw [htop, Option.some_or, Option.some.injEq] at hsome
      subst hsome
      -- the bytes below do not matter
      obtain ⟨hq, hlt⟩ | ⟨hq, hlt⟩ := ih hlen htop
      · exact .inl ⟨hq, by omega⟩
      · exact .inr ⟨hq, by omega⟩
    | none =>
      have hsame := value_eq_of_topDifference hlen htop
      rw [htop, Option.none_or] at hsome
      split at hsome
      · rename_i hne
        cases hsome
        have hne : b.toNat ≠ c.toNat := fun he => hne (UInt8.toNat_inj.mp he)
        simp only [UInt8.lt_iff_toNat_lt]
        omega
      · cases hsome

theorem value_lt_iff {l m : List UInt8} (h : l.length = m.length) :
    value m < value l ↔ ∃ p, topDifference l m = some p ∧ p.2 < p.1 := by
  cases htop : topDifference l m with
  | none =>
    have hsame := value_eq_of_topDifference h htop
    simp [hsame]
  | some p =>
    simp only [Option.some.injEq, exists_eq_left']
    obtain ⟨hp, hlt⟩ | ⟨hp, hlt⟩ := value_lt_of_topDifference h htop
    · exact iff_of_true hlt hp
    · simp only [UInt8.lt_iff_toNat_lt] at hp ⊢
      omega

end Framework

namespace Framework

/-- The bytes of a word the other way round -/
def byteSwap (v : BitVec 32) : BitVec 32 :=
  v.extractLsb' 0 8 ++ v.extractLsb' 8 8 ++ v.extractLsb' 16 8 ++ v.extractLsb' 24 8

theorem byteSwap_and (x y : BitVec 32) : byteSwap (x &&& y) = byteSwap x &&& byteSwap y := by
  apply BitVec.eq_of_getLsbD_eq
  intro i hi
  simp only [byteSwap, BitVec.getLsbD_and, BitVec.getLsbD_append, BitVec.getLsbD_extractLsb']
  grind

theorem byteSwap_byteSwap (v : BitVec 32) : byteSwap (byteSwap v) = v := by
  apply BitVec.eq_of_getLsbD_eq
  intro i hi
  simp only [byteSwap, BitVec.getLsbD_append, BitVec.getLsbD_extractLsb']
  grind

theorem byteSwap_injective : Function.Injective byteSwap :=
  Function.LeftInverse.injective byteSwap_byteSwap

/-- So many ones in front -/
def leading (w n : Nat) : BitVec w := BitVec.allOnes w <<< (w - n)

theorem getMsbD_leading {w n i : Nat} (hn : n ≤ w) : (leading w n).getMsbD i = decide (i < n) := by
  rw [leading, BitVec.getMsbD_shiftLeft, BitVec.getMsbD_allOnes]
  simp only [decide_eq_decide]
  omega

theorem and_leading_eq_iff {w n : Nat} (hn : n ≤ w) (x y : BitVec w) :
    x &&& leading w n = y &&& leading w n ↔ ∀ i < n, x.getMsbD i = y.getMsbD i := by
  constructor
  · intro h i hi
    have hbit := congrArg (fun z => BitVec.getMsbD z i) h
    simpa [getMsbD_leading hn, hi] using hbit
  · intro h
    apply BitVec.eq_of_getMsbD_eq
    intro i _
    rw [BitVec.getMsbD_and, BitVec.getMsbD_and, getMsbD_leading hn]
    by_cases hi : i < n
    · rw [h i hi]
    · simp [hi]

/-- Words of which the first `w` bits are the same are the same. -/
theorem eq_iff_getMsbD {w : Nat} (x y : BitVec w) :
    x = y ↔ ∀ i < w, x.getMsbD i = y.getMsbD i :=
  ⟨fun h _ _ => h ▸ rfl, fun h => BitVec.eq_of_getMsbD_eq h⟩

theorem and_setWidth_eq_iff {v w : Nat} (hw : v ≤ w) (x y m : BitVec v) :
    x.setWidth w &&& m.setWidth w = y.setWidth w &&& m.setWidth w ↔ x &&& m = y &&& m := by
  rw [← BitVec.setWidth_and, ← BitVec.setWidth_and]
  constructor
  · intro h
    have hback := congrArg (BitVec.setWidth v) h
    rwa [BitVec.setWidth_setWidth_of_le _ hw, BitVec.setWidth_setWidth_of_le _ hw,
      BitVec.setWidth_eq, BitVec.setWidth_eq] at hback
  · intro h
    rw [h]

end Framework
