import Mathlib

/-!
# Loops that test at their end

The body of a loop either goes on from a new state or ends with a result.
`loop` makes so many passes at most; `none` means that it has not ended yet.

* `loop_mono`: more passes do not change a result;
* `loop_last`: a result is that of the last pass, from a state that the passes
  before it lead to;
* `passes_iff`: a condition on the states that fails just before a bad result holds
  before every pass exactly if the loop has no bad result;
* `loop_map`: a loop whose passes are those of another seen through a map has its results;
* `loop_never`: a loop that every pass keeps in some states never ends;
* `loop_ends`: a loop each pass of which makes a measure smaller ends;
* `ends_iff`: where each pass makes a measure smaller or leads to a state that the
  loop never leaves, the measure bounds the passes that a loop that ends makes.
-/

namespace Framework

variable {σ ρ : Type*} {body : σ → σ ⊕ ρ}

/-- The result of the loop after so many passes at most. -/
def loop (body : σ → σ ⊕ ρ) : Nat → σ → Option ρ
  | 0, _ => none
  | n + 1, s =>
    match body s with
    | .inl s' => loop body n s'
    | .inr r => some r

/-- The state before a pass, with the number of passes before it. -/
def before (body : σ → σ ⊕ ρ) : Nat → σ → Option σ
  | 0, s => some s
  | n + 1, s =>
    match body s with
    | .inl s' => before body n s'
    | .inr _ => none

/-- Every pass meets the condition on the state before it. -/
def Passes (body : σ → σ ⊕ ρ) (G : σ → Prop) (s : σ) : Prop :=
  ∀ n t, before body n s = some t → G t

theorem loop_succ_inl {s s' : σ} {n : Nat} (h : body s = .inl s') :
    loop body (n + 1) s = loop body n s' := by
  rw [loop, h]

theorem loop_succ_inr {s : σ} {r : ρ} {n : Nat} (h : body s = .inr r) :
    loop body (n + 1) s = some r := by
  rw [loop, h]

theorem before_succ_inl {s s' : σ} {n : Nat} (h : body s = .inl s') :
    before body (n + 1) s = before body n s' := by
  rw [before, h]

theorem loop_mono {n m : Nat} {s : σ} {r : ρ} (h : loop body n s = some r) (hm : n ≤ m) :
    loop body m s = some r := by
  induction n generalizing s m with
  | zero => exact absurd h (by simp [loop])
  | succ n ih =>
    obtain ⟨m, rfl⟩ : ∃ k, m = k + 1 := ⟨m - 1, by omega⟩
    cases hs : body s with
    | inl s' =>
      rw [loop_succ_inl hs] at h ⊢
      exact ih h (by omega)
    | inr r' =>
      rw [loop_succ_inr hs] at h ⊢
      exact h

/-- A loop has one result. -/
theorem loop_unique {n m : Nat} {s : σ} {r r' : ρ} (h : loop body n s = some r)
    (h' : loop body m s = some r') : r = r' := by
  have h₁ := loop_mono h (Nat.le_add_right n m)
  have h₂ := loop_mono h' (Nat.le_add_left m n)
  exact Option.some.inj (h₁.symm.trans h₂)

/-- The result is that of the last pass. -/
theorem loop_last {n : Nat} {s : σ} {r : ρ} (h : loop body n s = some r) :
    ∃ k t, before body k s = some t ∧ body t = .inr r := by
  induction n generalizing s with
  | zero => exact absurd h (by simp [loop])
  | succ n ih =>
    cases hs : body s with
    | inl s' =>
      rw [loop_succ_inl hs] at h
      obtain ⟨k, t, hk, ht⟩ := ih h
      exact ⟨k + 1, t, by rw [before_succ_inl hs, hk], ht⟩
    | inr r' =>
      rw [loop_succ_inr hs] at h
      cases h
      exact ⟨0, s, rfl, hs⟩

/-- A pass that ends the loop gives its result. -/
theorem loop_of_before {k : Nat} {s t : σ} {r : ρ} (hk : before body k s = some t)
    (ht : body t = .inr r) : loop body (k + 1) s = some r := by
  induction k generalizing s with
  | zero => cases hk; exact loop_succ_inr ht
  | succ k ih =>
    cases hs : body s with
    | inl s' =>
      rw [before_succ_inl hs] at hk
      rw [loop_succ_inl hs]
      exact ih hk
    | inr r' => simp [before, hs] at hk

/-- Passes after passes -/
theorem before_trans {k m : Nat} {s t u : σ} (hk : before body k s = some t)
    (hm : before body m t = some u) : before body (k + m) s = some u := by
  induction k generalizing s with
  | zero =>
    cases hk
    rwa [Nat.zero_add]
  | succ k ih =>
    cases hs : body s with
    | inl s' =>
      rw [before_succ_inl hs] at hk
      rw [Nat.add_right_comm, before_succ_inl hs]
      exact ih hk
    | inr r => simp [before, hs] at hk

/-- What every pass keeps holds before every pass. -/
theorem before_invariant {I : σ → Prop} (hI : ∀ s s', I s → body s = .inl s' → I s') {n : Nat}
    {s t : σ} (hs : I s) (h : before body n s = some t) : I t := by
  induction n generalizing s with
  | zero => cases h; exact hs
  | succ n ih =>
    cases hb : body s with
    | inl s' => exact ih (hI s s' hs hb) (by rwa [before_succ_inl hb] at h)
    | inr r => simp [before, hb] at h

theorem passes_inl {G : σ → Prop} {s s' : σ} (h : body s = .inl s') :
    Passes body G s ↔ G s ∧ Passes body G s' := by
  constructor
  · intro hp
    exact ⟨hp 0 s rfl, fun n t ht => hp (n + 1) t ((before_succ_inl h).trans ht)⟩
  · rintro ⟨hs, hp⟩ n t ht
    cases n with
    | zero => cases ht; exact hs
    | succ n => exact hp n t ((before_succ_inl h).symm.trans ht)

theorem passes_inr {G : σ → Prop} {s : σ} {r : ρ} (h : body s = .inr r) :
    Passes body G s ↔ G s := by
  refine ⟨fun hp => hp 0 s rfl, fun hs n t ht => ?_⟩
  cases n with
  | zero => cases ht; exact hs
  | succ n => simp [before, h] at ht

/-- What the passes that meet a condition give, and nothing else. -/
theorem passes_iff {Q : ρ → Prop} {G : σ → Prop}
    (hG : ∀ t, ¬ G t ↔ ∃ r, body t = .inr r ∧ ¬ Q r) {s : σ} :
    Passes body G s ↔ ∀ n r, loop body n s = some r → Q r := by
  constructor
  · intro h n r hr
    obtain ⟨k, t, hk, ht⟩ := loop_last hr
    by_contra hQ
    exact (hG t).mpr ⟨r, ht, hQ⟩ (h k t hk)
  · intro h k t hk
    by_contra hn
    obtain ⟨r, ht, hQ⟩ := (hG t).mp hn
    exact hQ (h _ r (loop_of_before hk ht))

/-- A loop whose passes are those of another seen through a map has its results. -/
theorem loop_map {τ ρ' : Type*} {body' : τ → τ ⊕ ρ'} {f : σ → τ} {g : ρ → ρ'} {I : σ → Prop}
    (hI : ∀ s s', I s → body s = .inl s' → I s')
    (h : ∀ s, I s → body' (f s) = (body s).map f g) {n : Nat} {s : σ} (hs : I s) :
    loop body' n (f s) = (loop body n s).map g := by
  induction n generalizing s with
  | zero => rfl
  | succ n ih =>
    have hf := h s hs
    cases hb : body s with
    | inl s' =>
      rw [hb, Sum.map_inl] at hf
      rw [loop_succ_inl hf, loop_succ_inl hb, ih (hI s s' hs hb)]
    | inr r =>
      rw [hb, Sum.map_inr] at hf
      rw [loop_succ_inr hf, loop_succ_inr hb, Option.map_some]

/-- A loop that every pass keeps in some states never ends. -/
theorem loop_never {I : σ → Prop} (hI : ∀ s, I s → ∃ s', body s = .inl s' ∧ I s') {s : σ} (hs : I s)
    (n : Nat) : loop body n s = none := by
  induction n generalizing s with
  | zero => rfl
  | succ n ih =>
    obtain ⟨s', hb, hs'⟩ := hI s hs
    rw [loop_succ_inl hb, ih hs']

/-- A state to which a pass leads back is never left. -/
theorem loop_stuck {s : σ} (h : body s = .inl s) (n : Nat) : loop body n s = none :=
  loop_never (I := fun t => t = s) (fun _ ht => ⟨s, ht ▸ h, rfl⟩) rfl n

/-- A loop that ends does so within the measure. -/
theorem loop_of_measure {μ : σ → Nat}
    (hμ : ∀ s s', body s = .inl s' → μ s' < μ s ∨ body s' = .inl s') {n : Nat} {s : σ} {r : ρ}
    (h : loop body n s = some r) : loop body (μ s + 1) s = some r := by
  induction n generalizing s with
  | zero => exact absurd h (by simp [loop])
  | succ n ih =>
    cases hs : body s with
    | inl s' =>
      rw [loop_succ_inl hs] at h ⊢
      obtain hlt | hstuck := hμ s s' hs
      · exact loop_mono (ih h) hlt
      · rw [loop_stuck hstuck] at h
        exact absurd h (by simp)
    | inr r' =>
      rw [loop_succ_inr hs] at h ⊢
      exact h

/-- A loop each pass of which keeps an invariant and makes a measure smaller ends. -/
theorem loop_ends {I : σ → Prop} {μ : σ → Nat}
    (hμ : ∀ s s', I s → body s = .inl s' → I s' ∧ μ s' < μ s) {n : Nat} {s : σ} (hs : I s)
    (h : μ s < n) : ∃ r, loop body n s = some r := by
  induction n generalizing s with
  | zero => exact absurd h (Nat.not_lt_zero _)
  | succ n ih =>
    cases hb : body s with
    | inl s' =>
      rw [loop_succ_inl hb]
      obtain ⟨hs', hlt⟩ := hμ s s' hs hb
      exact ih hs' (by omega)
    | inr r => exact ⟨r, loop_succ_inr hb⟩

/-- The measure bounds the passes that a loop that ends makes. -/
theorem ends_iff {μ : σ → Nat}
    (hμ : ∀ s s', body s = .inl s' → μ s' < μ s ∨ body s' = .inl s') {s : σ} {r : ρ} :
    (∃ n, loop body n s = some r) ↔ loop body (μ s + 1) s = some r :=
  ⟨fun ⟨_, h⟩ => loop_of_measure hμ h, fun h => ⟨_, h⟩⟩

end Framework
