import Mathlib

/-!
# Operations that are tried before they are carried out

An operation with a read-only pass: the pass that is not read-only may change
the state, both give a verdict. `TwoPhase` says that the read-only pass keeps
the state and foretells the verdict.

* `TwoPhase.const`, `TwoPhase.dispatch`, `TwoPhase.table`: operations built
  from verdicts, tables of guarded rows and choices on the state are two-phase;
* `next_eq_none`, `next_cons_pos`, `next_cons_neg`: which row of a table
  decides.
-/

namespace Framework

/-- The read-only pass keeps the state and gives the verdict of the other. -/
structure TwoPhase {σ ε : Type*} (f : σ → Bool → ε × σ) : Prop where
  unchanged (s : σ) : (f s true).2 = s
  verdict (s : σ) : (f s true).1 = (f s false).1

/-- A row of a table of transitions: whether it applies, and the state it
leads to. `none` is a row that applies and changes nothing. -/
structure Row (τ : Type*) where
  applies : Bool
  next : Option τ

variable {τ : Type*}

/-- Where the first row that applies leads; `none` if it changes nothing or
no row applies. -/
def next : List (Row τ) → Option τ
  | [] => none
  | r :: rs => if r.applies then r.next else next rs

@[simp] theorem next_nil : next ([] : List (Row τ)) = none := rfl

theorem next_cons_pos {r : Row τ} {rs : List (Row τ)} (h : r.applies = true) :
    next (r :: rs) = r.next := by
  simp only [next, h, if_true]

theorem next_cons_neg {r : Row τ} {rs : List (Row τ)} (h : r.applies = false) :
    next (r :: rs) = next rs := by
  simp only [next, h, Bool.false_eq_true, if_false]

/-- If all rows that apply change nothing, so does the table. -/
theorem next_eq_none {rs : List (Row τ)} (h : ∀ r ∈ rs, r.applies = true → r.next = none) :
    next rs = none := by
  induction rs with
  | nil => rfl
  | cons r rs ih =>
    by_cases hr : r.applies = true
    · rw [next_cons_pos hr]
      exact h r (List.mem_cons_self ..) hr
    · rw [next_cons_neg (by simpa using hr)]
      exact ih fun r' hr' => h r' (List.mem_cons_of_mem _ hr')

namespace TwoPhase

variable {σ ε α : Type*}

theorem const (v : ε) : TwoPhase fun (s : σ) (_ : Bool) => (v, s) :=
  ⟨fun _ => rfl, fun _ => rfl⟩

/-- The choice of the operation may depend on the state. -/
theorem dispatch {f : α → σ → Bool → ε × σ} (g : σ → α) (h : ∀ a, TwoPhase (f a)) :
    TwoPhase fun s readonly => f (g s) s readonly :=
  ⟨fun s => (h (g s)).unchanged s, fun s => (h (g s)).verdict s⟩

/-- A table whose update is outside the read-only pass. -/
theorem table (v : ε) (rows : σ → List (Row τ)) (set : σ → τ → σ) :
    TwoPhase fun s readonly =>
      (v, if readonly then s else ((next (rows s)).map (set s)).getD s) :=
  ⟨fun _ => rfl, fun _ => rfl⟩

end TwoPhase

end Framework
