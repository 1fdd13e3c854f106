import Mathlib

/-!
# C strings in buffers

`strncpy` into a buffer and `strncmp`, on lists of bytes. A byte beyond the end
of a list is the NUL that ends a string.

* `strncmp_swap`: the comparison of two strings the other way round has the other
  sign;
* `padded_eq_iff`: bytes are copied as they are if only NULs come after a NUL;
* `strncmp_eq_zero_iff`: strings are equal if they fill a buffer with the same bytes.
-/

namespace Framework

/-- `n` bytes: the string that `src` starts with, up to `n` bytes of it, then
NULs. -/
def padded (n : Nat) (src : List UInt8) : List UInt8 :=
  let s := (src.take n).takeWhile (· ≠ 0)
  s ++ List.replicate (n - s.length) 0

@[simp] theorem length_padded (n : Nat) (src : List UInt8) : (padded n src).length = n := by
  have hle : ((src.take n).takeWhile (· ≠ 0)).length ≤ n :=
    (List.takeWhile_sublist _).length_le.trans (List.length_take_le n src)
  rw [padded, List.length_append, List.length_replicate]
  omega

/-- After a NUL there are only NULs. -/
def ZeroTail (l : List UInt8) : Prop := ∃ s n, 0 ∉ s ∧ l = s ++ List.replicate n 0

theorem zeroTail_padded (n : Nat) (src : List UInt8) : ZeroTail (padded n src) :=
  ⟨_, _, fun h => by simpa using List.mem_takeWhile_imp h, rfl⟩

theorem padded_eq_iff (l : List UInt8) : padded l.length l = l ↔ ZeroTail l := by
  constructor
  · intro h
    rw [← h]
    exact zeroTail_padded l.length l
  · rintro ⟨s, n, hs, rfl⟩
    have hwhole : (s ++ List.replicate n 0).takeWhile (· ≠ 0) = s := by
      rw [List.takeWhile_append_of_pos fun a ha => by simpa using ne_of_mem_of_not_mem ha hs]
      cases n <;> simp [List.replicate_succ]
    rw [padded, List.take_length, hwhole, List.length_append, List.length_replicate,
      Nat.add_sub_cancel_left]

theorem padded_padded (n : Nat) (src : List UInt8) : padded n (padded n src) = padded n src := by
  have h := (padded_eq_iff (padded n src)).mpr (zeroTail_padded n src)
  rwa [length_padded] at h

/-- `strncpy` of `n` bytes to an offset in a buffer -/
def strncpy (buffer : List UInt8) (offset n : Nat) (src : List UInt8) : List UInt8 :=
  buffer.take offset ++ padded n src ++ buffer.drop (offset + n)

/-- `strncmp`: the difference of the first two bytes that differ. -/
def strncmp : Nat → List UInt8 → List UInt8 → Int
  | 0, _, _ => 0
  | n + 1, a, b =>
    let x := a.headD 0
    let y := b.headD 0
    if x ≠ y then (x.toNat : Int) - y.toNat
    else if x = 0 then 0
    else strncmp n a.tail b.tail

theorem strncmp_swap (n : Nat) (a b : List UInt8) : strncmp n b a = -strncmp n a b := by
  induction n generalizing a b with
  | zero => rfl
  | succ n ih =>
    simp only [strncmp]
    by_cases hxy : a.headD 0 = b.headD 0
    · rw [if_neg (not_not.mpr hxy.symm), if_neg (not_not.mpr hxy), hxy]
      split
      · rfl
      · exact ih a.tail b.tail
    · rw [if_pos fun h => hxy h.symm, if_pos hxy]
      omega

theorem padded_succ (n : Nat) (a : List UInt8) :
    padded (n + 1) a =
      if a.headD 0 = 0 then List.replicate (n + 1) 0 else a.headD 0 :: padded n a.tail := by
  cases a with
  | nil => rfl
  | cons x a =>
    simp only [padded, List.take_succ_cons, List.headD_cons, List.tail_cons]
    by_cases hx : x = 0
    · simp [hx]
    · simp [hx]

theorem strncmp_eq_zero_iff (n : Nat) (a b : List UInt8) :
    strncmp n a b = 0 ↔ padded n a = padded n b := by
  induction n generalizing a b with
  | zero => simp [strncmp, padded]
  | succ n ih =>
    rw [strncmp, padded_succ, padded_succ]
    by_cases hxy : a.headD 0 = b.headD 0
    · rw [if_neg (not_not.mpr hxy), hxy]
      by_cases hy : b.headD 0 = 0
      · simp only [if_pos hy]
      · rw [if_neg hy, if_neg hy, if_neg hy, List.cons.injEq, and_iff_right rfl, ih]
    · have hne : (a.headD 0).toNat ≠ (b.headD 0).toNat := fun h => hxy (UInt8.toNat_inj.mp h)
      rw [if_pos hxy]
      refine iff_of_false (by omega) fun h => hxy ?_
      -- the first byte of the buffer is the first of the string
      have hhead : ∀ (x : UInt8) (l : List UInt8),
          (if x = 0 then List.replicate (n + 1) 0 else x :: l).headD 0 = x := fun x l => by
        split
        · rename_i hx
          exact hx.symm
        · rfl
      rw [← hhead (a.headD 0), h, hhead]

end Framework
