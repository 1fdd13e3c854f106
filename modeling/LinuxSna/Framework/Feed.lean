import Mathlib

/-!
# Feeding a machine in pieces

A machine that consumes its input one element at a time and may stop for good
(`Except.error`) can be left between two pieces of the input and entered
again. What leaving and entering again does to its state is a parameter
(`cut`): it may damage what is not kept.

* `feed`: the machine on an input, `feed_append`;
* `feedCut`: the machine on an input that arrives in pieces;
* `Severed`: some piece begins, with an element of input in it, at a position
  where the machine keeps something that a cut damages. Positions are those of
  a second, total machine (`lex`) that only says where in the input one is;
* `Clear.not_severed`: nothing severs an input without such positions;
* `Resumes.feedCut_eq_feed`: an input that is not severed gives, up to what
  is looked at in the end, the same result in any pieces.
-/

namespace Framework

variable {σ α ε κ π Q : Type*}

/-- The machine `step` on the whole of an input. -/
def feed (step : σ → α → Except ε σ) (s : σ) (as : List α) : Except ε σ :=
  as.foldlM step s

@[simp] theorem feed_nil (step : σ → α → Except ε σ) (s : σ) : feed step s [] = .ok s := rfl

@[simp] theorem feed_cons (step : σ → α → Except ε σ) (s : σ) (a : α) (as : List α) :
    feed step s (a :: as) = step s a >>= fun s' => feed step s' as := rfl

theorem feed_append (step : σ → α → Except ε σ) (s : σ) (as bs : List α) :
    feed step s (as ++ bs) = feed step s as >>= fun s' => feed step s' bs :=
  List.foldlM_append

/-- The machine on an input that arrives in pieces, each with what the cut
before it does to the state. -/
def feedCut (step : σ → α → Except ε σ) (cut : κ → σ → σ) : σ → List (κ × List α) → Except ε σ
  | s, [] => .ok s
  | s, (k, as) :: ps => feed step (cut k s) as >>= fun s' => feedCut step cut s' ps

/-- A piece that is not empty begins at a fragile position. -/
def Severed (lex : Q → α → Q) (fragile : Q → Prop) : Q → List (List α) → Prop
  | _, [] => False
  | q, as :: ps => (fragile q ∧ as ≠ []) ∨ Severed lex fragile (as.foldl lex q) ps

/-- What a cut leaves alone: the position, what is looked at in the end, and
everything unless the position is fragile. -/
structure Resumes (step : σ → α → Except ε σ) (cut : κ → σ → σ) (proj : σ → π)
    (pos : σ → Q) (lex : Q → α → Q) (fragile : Q → Prop) : Prop where
  pos_step {s a s'} : step s a = .ok s' → pos s' = lex (pos s) a
  pos_cut (k s) : pos (cut k s) = pos s
  proj_cut (k s) : proj (cut k s) = proj s
  cut_eq (k s) : ¬ fragile (pos s) → cut k s = s

section Severed

variable {lex : Q → α → Q} {fragile : Q → Prop}

/-- At a fragile position, an input that is not severed has ended. -/
theorem flatten_eq_nil_of_fragile {q : Q} (hq : fragile q) :
    ∀ {ps : List (List α)}, ¬ Severed lex fragile q ps → ps.flatten = []
  | [], _ => rfl
  | as :: ps, h => by
    simp only [Severed, not_or, not_and, not_not] at h
    obtain rfl := h.1 hq
    rw [List.flatten_cons, List.nil_append]
    exact flatten_eq_nil_of_fragile hq h.2

/-- No position of an input is fragile, its end included. -/
def Clear (lex : Q → α → Q) (fragile : Q → Prop) : Q → List α → Prop
  | q, [] => ¬ fragile q
  | q, a :: as => ¬ fragile q ∧ Clear lex fragile (lex q a) as

theorem Clear.head {q : Q} {as : List α} (h : Clear lex fragile q as) : ¬ fragile q := by
  rcases as with _ | ⟨a, as⟩
  · exact h
  · exact h.1

theorem clear_append {q : Q} {as bs : List α} :
    Clear lex fragile q (as ++ bs) ↔
      Clear lex fragile q as ∧ Clear lex fragile (as.foldl lex q) bs := by
  induction as generalizing q with
  | nil => exact ⟨fun h => ⟨h.head, h⟩, fun h => h.2⟩
  | cons a as ih => simp only [List.cons_append, Clear, ih, List.foldl_cons, and_assoc]

/-- An input with no fragile position is not severed by any cuts. -/
theorem Clear.not_severed : ∀ {q : Q} {ps : List (List α)},
    Clear lex fragile q ps.flatten → ¬ Severed lex fragile q ps
  | _, [], _ => id
  | q, as :: ps, h => by
    simp only [Severed, not_or, not_and]
    have h' := clear_append.mp h
    exact ⟨fun hq => absurd hq h.head, h'.2.not_severed⟩

end Severed

namespace Resumes

variable {step : σ → α → Except ε σ} {cut : κ → σ → σ} {proj : σ → π} {pos : σ → Q}
  {lex : Q → α → Q} {fragile : Q → Prop}

theorem pos_feed (R : Resumes step cut proj pos lex fragile) :
    ∀ {as : List α} {s s' : σ}, feed step s as = .ok s' → pos s' = as.foldl lex (pos s)
  | [], s, s', h => by
    cases h
    rfl
  | a :: as, s, s', h => by
    cases hs : step s a with
    | error e => simp [hs, bind, Except.bind] at h
    | ok t =>
      rw [feed_cons, hs] at h
      rw [R.pos_feed h, R.pos_step hs, List.foldl_cons]

/-- An input that is not severed gives the same result in any pieces. -/
theorem feedCut_eq_feed (R : Resumes step cut proj pos lex fragile) :
    ∀ {ps : List (κ × List α)} {s : σ}, ¬ Severed lex fragile (pos s) (ps.map Prod.snd) →
      (feedCut step cut s ps).map proj = (feed step s (ps.map Prod.snd).flatten).map proj
  | [], _, _ => rfl
  | (k, as) :: ps, s, h => by
    by_cases hq : fragile (pos s)
    · -- nothing is left to arrive: the damage is not seen
      have hnil := flatten_eq_nil_of_fragile hq h
      simp only [List.map_cons, List.flatten_cons, List.append_eq_nil_iff] at hnil
      obtain ⟨rfl, hps⟩ := hnil
      have ht : ¬ Severed lex fragile (pos (cut k s)) (ps.map Prod.snd) := by
        rw [R.pos_cut]
        exact fun hs => h (Or.inr hs)
      have := R.feedCut_eq_feed ht
      rw [hps] at this
      simpa [feedCut, bind, Except.bind, hps, Except.map, R.proj_cut] using this
    · simp only [feedCut, R.cut_eq k s hq, List.map_cons, List.flatten_cons, feed_append]
      cases hf : feed step s as with
      | error e => rfl
      | ok t =>
        refine R.feedCut_eq_feed fun hs => h (Or.inr ?_)
        rwa [R.pos_feed hf] at hs

end Resumes

end Framework
