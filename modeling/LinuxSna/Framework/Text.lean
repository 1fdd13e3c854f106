import Mathlib

/-!
# Texts in pieces, and patterns

A text that is read by calls with an offset and a length, each of them from where those before it have
come to.

* `taken_window`: what calls that return their windows have returned together;
* `ReadsAll.unique`: there is one text that the pieces up to the first empty one make;
* `readsAll_window`: and for such calls it is the text.

A pattern is a list of pieces, each of which stands for one character, for any one, for any sequence,
or for nothing that could be there.

* `Glob.matches_many_iff`: a piece for any sequence leaves any end of the string to the rest;
* `Glob.matches_nil_iff`: only such pieces match the empty string.
-/

namespace Framework

variable {α : Type*}

/-- What stands in a text from an offset on, up to `length` of it -/
def window (text : List α) (offset length : ℕ) : List α := (text.drop offset).take length

variable (read : ℕ → ℕ → List α) (lengths : ℕ → ℕ+)

/-- What the first `n` calls have returned, one piece behind the other -/
def taken : ℕ → List α
  | 0 => []
  | n + 1 => taken n ++ read (taken n).length (lengths n)

/-- Where a call goes on -/
def reached (n : ℕ) : ℕ := (taken read lengths n).length

/-- What a call returns -/
def piece (n : ℕ) : List α := read (reached read lengths n) (lengths n)

/-- The pieces up to the first empty one are the text. -/
def ReadsAll (text : List α) : Prop :=
  ∃ n, (∀ m < n, piece read lengths m ≠ []) ∧ piece read lengths n = [] ∧ taken read lengths n = text

/-- How much the first `n` calls have asked for -/
def asked (n : ℕ) : ℕ := ∑ i ∈ Finset.range n, (lengths i : ℕ)

variable {read lengths} {text text' : List α} {n : ℕ}

@[simp] theorem asked_zero : asked lengths 0 = 0 := rfl

theorem asked_succ : asked lengths (n + 1) = asked lengths n + lengths n :=
  Finset.sum_range_succ _ n

theorem le_asked_succ : (lengths 0 : ℕ) ≤ asked lengths (n + 1) := by
  induction n with
  | zero =>
    rw [asked_succ, asked_zero, Nat.zero_add]
  | succ n ih =>
    rw [asked_succ]
    exact Nat.le_add_right_of_le ih

theorem le_asked : n ≤ asked lengths n := by
  induction n with
  | zero => exact Nat.le_refl 0
  | succ n ih =>
    have hpos : 1 ≤ (lengths n : ℕ) := PNat.pos (lengths n)
    rw [asked_succ]
    omega

theorem ReadsAll.unique (h : ReadsAll read lengths text) (h' : ReadsAll read lengths text') :
    text = text' := by
  obtain ⟨n, hbefore, hempty, rfl⟩ := h
  obtain ⟨n', hbefore', hempty', rfl⟩ := h'
  -- neither of the two empty pieces stands before the other
  have hle : n ≤ n' := Nat.le_of_not_lt fun hlt => hbefore n' hlt hempty'
  have hge : n' ≤ n := Nat.le_of_not_lt fun hlt => hbefore' n hlt hempty
  rw [Nat.le_antisymm hle hge]

/-! ## Windows -/

theorem window_eq_nil (h : text.length ≤ n) (length : ℕ) : window text n length = [] := by
  rw [window, List.drop_of_length_le h, List.take_nil]

theorem window_ne_nil (h : n < text.length) {length : ℕ} (hpos : 1 ≤ length) :
    window text n length ≠ [] := by
  intro hnil
  have hlen := congrArg List.length hnil
  rw [window, List.length_take, List.length_drop, List.length_nil] at hlen
  omega

/-- A text that is long enough has the same window as one that it begins. -/
theorem window_append {k : ℕ} (h : n + k ≤ text.length) : window (text ++ text') n k = window text n k := by
  rw [window, window, List.drop_append_of_le_length (by omega), List.take_append_of_le_length]
  rw [List.length_drop]
  omega

theorem window_min (length : ℕ) :
    window text (min n text.length) length = window text n length := by
  rcases Nat.le_total n text.length with h | h
  · rw [Nat.min_eq_left h]
  · rw [Nat.min_eq_right h, window_eq_nil (Nat.le_refl _), window_eq_nil h]

variable (hread : ∀ o l, read o l = window text o l)

include hread

theorem taken_window (n : ℕ) : taken read lengths n = text.take (asked lengths n) := by
  induction n with
  | zero => rfl
  | succ n ih =>
    rw [taken, hread, ih, List.length_take, window_min, asked_succ, List.take_add]
    rfl

theorem reached_window (n : ℕ) : reached read lengths n = min (asked lengths n) text.length := by
  rw [reached, taken_window hread, List.length_take]

theorem piece_window (n : ℕ) :
    piece read lengths n = window text (asked lengths n) (lengths n) := by
  rw [piece, hread, reached_window hread, window_min]

/-- The first empty piece comes when as much has been asked for as there is. -/
theorem readsAll_window : ReadsAll read lengths text := by
  have hex : ∃ n, text.length ≤ asked lengths n := ⟨text.length, le_asked⟩
  refine ⟨Nat.find hex, fun m hm => ?_, ?_, ?_⟩
  · rw [piece_window hread]
    exact window_ne_nil (Nat.lt_of_not_le (Nat.find_min hex hm)) (PNat.pos (lengths m))
  · rw [piece_window hread, window_eq_nil (Nat.find_spec hex)]
  · rw [taken_window hread, List.take_of_length_le (Nat.find_spec hex)]

end Framework

namespace Framework.Glob

variable {α : Type*}

/-- What a part of a pattern stands for -/
inductive Piece (α : Type*) where
  | char (c : α)
  | one
  | many
  | never
  deriving DecidableEq

/-- The whole string matches the pattern. -/
def Matches : List (Piece α) → List α → Prop
  | [], s => s = []
  | .char c :: p, s => ∃ t, s = c :: t ∧ Matches p t
  | .one :: p, s => ∃ c t, s = c :: t ∧ Matches p t
  | .many :: p, s => ∃ t ∈ s.tails, Matches p t
  | .never :: _, _ => False

variable {p : List (Piece α)} {s t : List α} {a c : α}

@[simp] theorem matches_nil : Matches [] s ↔ s = [] := Iff.rfl

@[simp] theorem not_matches_char_nil : ¬ Matches (.char c :: p) [] := nofun

@[simp] theorem matches_char_cons : Matches (.char c :: p) (a :: s) ↔ a = c ∧ Matches p s := by
  constructor
  · rintro ⟨t, h, hm⟩
    obtain ⟨rfl, rfl⟩ := List.cons.inj h
    exact ⟨rfl, hm⟩
  · rintro ⟨rfl, hm⟩
    exact ⟨s, rfl, hm⟩

@[simp] theorem not_matches_one_nil : ¬ Matches (.one :: p) ([] : List α) := nofun

@[simp] theorem matches_one_cons : Matches (.one :: p) (a :: s) ↔ Matches p s := by
  constructor
  · rintro ⟨c, t, h, hm⟩
    obtain ⟨rfl, rfl⟩ := List.cons.inj h
    exact hm
  · intro hm
    exact ⟨a, s, rfl, hm⟩

@[simp] theorem not_matches_never : ¬ Matches (.never :: p) s := id

/-- A piece for any sequence leaves any end of the string to the rest. -/
theorem matches_many_iff : Matches (.many :: p) s ↔ ∃ t, t <:+ s ∧ Matches p t := by
  simp only [Matches, List.mem_tails]

@[simp] theorem matches_many : Matches [.many] s := matches_many_iff.mpr ⟨[], List.nil_suffix, rfl⟩

/-- Only pieces for any sequence match the empty string. -/
theorem matches_nil_iff : Matches p ([] : List α) ↔ ∀ x ∈ p, x = .many := by
  induction p with
  | nil => simp
  | cons x p ih =>
    cases x with
    | char c => simp
    | one => simp
    | many => simp [matches_many_iff, ih]
    | never => simp

instance decidableMatches [DecidableEq α] : ∀ (p : List (Piece α)) (s : List α), Decidable (Matches p s)
  | [], s => inferInstanceAs (Decidable (s = []))
  | .char _ :: _, [] => .isFalse nofun
  | .char c :: p, a :: s =>
    have := decidableMatches p s
    decidable_of_iff (a = c ∧ Matches p s) matches_char_cons.symm
  | .one :: _, [] => .isFalse nofun
  | .one :: p, _ :: s =>
    have := decidableMatches p s
    decidable_of_iff (Matches p s) matches_one_cons.symm
  | .many :: p, s =>
    have := decidableMatches p
    inferInstanceAs (Decidable (∃ t ∈ s.tails, Matches p t))
  | .never :: _, _ => .isFalse id

end Framework.Glob
