import LinuxSna.Framework.Words

/-!
# Bytes at addresses

The contents of a file or of a piece of memory: a byte at each address, and words of four bytes, the
lowest first.

* `read_write_self`, `read_write_of_sep`: what is read after a write;
* `word_write_self`, `word_write_of_sep`: the same for a word;
* `read_add`: what is read in two parts.
-/

namespace Framework

/-- The bytes of a number, the lowest first, as many as are asked for -/
def bytesOf : ℕ → ℕ → List UInt8
  | 0, _ => []
  | w + 1, n => UInt8.ofNat n :: bytesOf w (n / 256)

@[simp] theorem length_bytesOf (w n : ℕ) : (bytesOf w n).length = w := by
  induction w generalizing n with
  | zero => rfl
  | succ w ih => rw [bytesOf, List.length_cons, ih]

theorem value_bytesOf (w n : ℕ) : value (bytesOf w n) = n % 256 ^ w := by
  induction w generalizing n with
  | zero => rw [bytesOf, value_nil, pow_zero, Nat.mod_one]
  | succ w ih =>
    rw [bytesOf, value_cons, ih, UInt8.toNat_ofNat', pow_succ' 256 w, Nat.mod_mul]

/-- A byte at each address -/
abbrev Image := ℕ → UInt8

namespace Image

/-- `n` bytes from an address on -/
def read (m : Image) (a n : ℕ) : List UInt8 := (List.range n).map fun i => m (a + i)

/-- Bytes are written from an address on. -/
def write (m : Image) (a : ℕ) (bs : List UInt8) : Image :=
  fun x => if a ≤ x ∧ x < a + bs.length then bs.getD (x - a) 0 else m x

/-- The word at an address -/
def word (m : Image) (a : ℕ) : ℕ := value (m.read a 4)

/-- Nothing is both among `n` addresses from `a` on and among `k` from `b` on. -/
abbrev Sep (a n b k : ℕ) : Prop := a + n ≤ b ∨ b + k ≤ a

variable {m m' : Image} {a b n k x : ℕ} {bs cs : List UInt8}

@[simp] theorem length_read (m : Image) (a n : ℕ) : (m.read a n).length = n := by
  rw [read, List.length_map, List.length_range]

theorem read_congr (h : ∀ x, a ≤ x → x < a + n → m' x = m x) : m'.read a n = m.read a n := by
  refine List.map_congr_left fun i hi => h _ (by omega) ?_
  have := List.mem_range.mp hi
  omega

theorem read_add (m : Image) (a n k : ℕ) : m.read a (n + k) = m.read a n ++ m.read (a + n) k := by
  rw [read, List.range_add, List.map_append, List.map_map]
  refine congrArg (m.read a n ++ ·) (List.map_congr_left fun i _ => ?_)
  rw [Function.comp_apply, Nat.add_assoc]

theorem take_read (m : Image) (a : ℕ) (h : k ≤ n) : (m.read a n).take k = m.read a k := by
  obtain ⟨j, rfl⟩ := Nat.exists_eq_add_of_le h
  rw [read_add, List.take_left' (length_read m a k)]

theorem drop_read (m : Image) (a n k : ℕ) : (m.read a n).drop k = m.read (a + k) (n - k) := by
  obtain h | h := Nat.le_total n k
  · rw [List.drop_of_length_le (by rw [length_read]; exact h), Nat.sub_eq_zero_of_le h]
    rfl
  · obtain ⟨j, rfl⟩ := Nat.exists_eq_add_of_le h
    rw [read_add, List.drop_left' (length_read m a k), Nat.add_sub_cancel_left]

theorem write_of_sep (h : Sep x 1 a bs.length) : m.write a bs x = m x := by
  rw [write, if_neg]
  omega

theorem read_write_of_sep (h : Sep b n a bs.length) : (m.write a bs).read b n = m.read b n :=
  read_congr fun x _ _ => write_of_sep (by omega)

theorem read_write_self (m : Image) (a : ℕ) (bs : List UInt8) :
    (m.write a bs).read a bs.length = bs := by
  refine List.ext_getElem (length_read _ _ _) fun i _ hi => ?_
  simp only [read, List.getElem_map, List.getElem_range]
  rw [write, if_pos ⟨Nat.le_add_right _ _, by omega⟩, Nat.add_sub_cancel_left,
    List.getD_eq_getElem _ _ hi]

/-- A part of what was written -/
theorem read_write_part (m : Image) (h : b + k ≤ bs.length) :
    (m.write a bs).read (a + b) k = (bs.drop b).take k := by
  conv_rhs => rw [← read_write_self m a bs]
  rw [drop_read, take_read]
  omega

theorem write_append (m : Image) (a : ℕ) (bs cs : List UInt8) :
    m.write a (bs ++ cs) = (m.write a bs).write (a + bs.length) cs := by
  funext x
  simp only [write, List.length_append]
  by_cases hx : a ≤ x ∧ x < a + (bs.length + cs.length)
  · rw [if_pos hx]
    by_cases hbs : x < a + bs.length
    · rw [if_neg (by omega), if_pos ⟨hx.1, hbs⟩, List.getD_append _ _ _ _ (by omega)]
    · rw [if_pos (by omega), List.getD_append_right _ _ _ _ (by omega), Nat.sub_sub]
  · rw [if_neg hx, if_neg (by omega), if_neg (by omega)]

theorem word_congr (h : ∀ x, a ≤ x → x < a + 4 → m' x = m x) : m'.word a = m.word a :=
  congrArg value (read_congr h)

theorem word_lt (m : Image) (a : ℕ) : m.word a < 2 ^ 32 := by
  have hlt := value_lt (m.read a 4)
  rwa [length_read] at hlt

theorem word_write_of_sep (h : Sep b 4 a bs.length) : (m.write a bs).word b = m.word b :=
  congrArg value (read_write_of_sep h)

theorem word_write_self (m : Image) (a v : ℕ) : (m.write a (bytesOf 4 v)).word a = v % 2 ^ 32 := by
  have hself := read_write_self m a (bytesOf 4 v)
  rw [length_bytesOf] at hself
  rw [word, hself, value_bytesOf, show (256 : ℕ) ^ 4 = 2 ^ 32 by norm_num]

end Image

end Framework
