import Mathlib

/-!
# Runs of a state machine

A machine takes one event at a time; `none` means that the event cannot happen
in the state. `Along` says that every step of a run meets a condition on the
state before it and the event.

* `run_invariant`: what every step that meets the condition keeps holds after
  a run all of whose steps do;
* `always_of_invariant`: what an invariant of these steps implies holds in all states of such a
  run;
* `always_iff`: if a step that meets the condition keeps a property and one that
  does not breaks it, then it holds in all states of a run exactly if all steps
  meet the condition;
* `always_iff_of_run`: the same for a run that goes through;
* `along_always_iff`: and for what its steps should do together with what should hold in its
  states;
* `along_iff_take`: a condition holds along a run exactly if it holds at each event after those before;
* `along_iff`: two conditions that agree where the steps lead hold along the same
  runs (`along_iff_of_run` for a run that goes through);
* `Loses.run_iff`: if a step that meets the condition keeps a property, one
  that does not breaks it, and what is broken stays broken, then the property
  holds after a run exactly if all its steps meet the condition.
-/

namespace Framework

variable {σ ι : Type*} {step : σ → ι → Option σ} {G : σ → ι → Prop}

/-- The state after some events. -/
def run (step : σ → ι → Option σ) (s : σ) (es : List ι) : Option σ := es.foldlM step s

/-- Every step of the run from `s` meets the condition. -/
def Along (step : σ → ι → Option σ) (G : σ → ι → Prop) : σ → List ι → Prop
  | _, [] => True
  | s, e :: es => G s e ∧ ∀ s', step s e = some s' → Along step G s' es

instance Along.decidable [∀ s e, Decidable (G s e)] :
    ∀ (s : σ) (es : List ι), Decidable (Along step G s es)
  | _, [] => .isTrue trivial
  | s, e :: es =>
    have : ∀ s', Decidable (Along step G s' es) := fun s' => Along.decidable s' es
    inferInstanceAs (Decidable (G s e ∧ ∀ s' ∈ step s e, Along step G s' es))

@[simp] theorem run_nil (s : σ) : run step s [] = some s := rfl

theorem run_cons {s s' : σ} {e : ι} {es : List ι} :
    run step s (e :: es) = some s' ↔ ∃ t, step s e = some t ∧ run step t es = some s' := by
  simp only [run, List.foldlM_cons]
  exact Option.bind_eq_some_iff

theorem run_append {s : σ} {es fs : List ι} :
    run step s (es ++ fs) = (run step s es).bind fun t => run step t fs :=
  List.foldlM_append

theorem along_true : ∀ {s : σ} {es : List ι}, Along step (fun _ _ => True) s es
  | _, [] => trivial
  | _, _ :: _ => ⟨trivial, fun _ _ => along_true⟩

/-- Two conditions hold along a run together. -/
theorem along_and {A : σ → ι → Prop} {s : σ} {es : List ι} :
    Along step (fun s e => G s e ∧ A s e) s es ↔ Along step G s es ∧ Along step A s es := by
  induction es generalizing s with
  | nil => exact (and_self_iff (a := True)).symm
  | cons e es ih =>
    simp only [Along, ih]
    rw [and_and_and_comm]
    exact and_congr_right' forall₂_and

/-- The run of a machine in which every event can happen. -/
theorem run_some (f : σ → ι → σ) (s : σ) (es : List ι) :
    run (fun s e => some (f s e)) s es = some (es.foldl f s) := by
  induction es generalizing s with
  | nil => rfl
  | cons e es ih => exact run_cons.mpr ⟨f s e, rfl, ih (f s e)⟩

/-- A run that would stop at a step that does not meet the condition. -/
theorem run_ite [∀ s e, Decidable (G s e)] {s s' : σ} {es : List ι} :
    run (fun s e => if G s e then step s e else none) s es = some s' ↔
      Along step G s es ∧ run step s es = some s' := by
  induction es generalizing s with
  | nil => exact (and_iff_right trivial).symm
  | cons e es ih =>
    rw [run_cons, run_cons, Along]
    constructor
    · rintro ⟨t, ht, hrun⟩
      split_ifs at ht with hg
      obtain ⟨hG, hrun⟩ := ih.mp hrun
      exact ⟨⟨hg, fun t' ht' => Option.some.inj (ht.symm.trans ht') ▸ hG⟩, t, ht, hrun⟩
    · rintro ⟨⟨hg, hG⟩, t, ht, hrun⟩
      exact ⟨t, (if_pos hg).trans ht, ih.mpr ⟨hG t ht, hrun⟩⟩

/-- The condition at each of the events, after those before it. -/
theorem along_iff_take {s : σ} {es : List ι} : Along step G s es ↔
    ∀ i e, es[i]? = some e → ∀ t, run step s (es.take i) = some t → G t e := by
  induction es generalizing s with
  | nil => exact iff_of_true trivial fun i e he => by cases he
  | cons e es ih =>
    rw [Along]
    constructor
    · rintro ⟨he, h⟩ i e' he' t ht
      cases i with
      | zero =>
        cases he'
        cases ht
        exact he
      | succ i =>
        obtain ⟨s', hs', ht⟩ := run_cons.mp ht
        exact ih.mp (h s' hs') i e' he' t ht
    · intro h
      refine ⟨h 0 e rfl s rfl, fun s' hs' => ih.mpr fun i e' he' t ht => ?_⟩
      exact h (i + 1) e' he' t (run_cons.mpr ⟨s', hs', ht⟩)

/-- An invariant of the steps that meet the condition. -/
theorem run_invariant {I : σ → Prop}
    (hstep : ∀ s e s', I s → G s e → step s e = some s' → I s') {es : List ι} {s s' : σ} (hs : I s)
    (hG : Along step G s es) (h : run step s es = some s') : I s' := by
  induction es generalizing s with
  | nil => cases h; exact hs
  | cons e es ih =>
    obtain ⟨t, ht, h⟩ := run_cons.mp h
    exact ih (hstep s e t hs hG.1 ht) (hG.2 t ht) h

/-- What an invariant of the steps that meet the condition implies at each of them. -/
theorem along_of_invariant {I : σ → Prop} {A : σ → ι → Prop}
    (hstep : ∀ s e s', I s → G s e → step s e = some s' → I s')
    (hA : ∀ s e, I s → G s e → A s e) {s : σ} (hs : I s) {es : List ι} (hG : Along step G s es) :
    Along step A s es := by
  induction es generalizing s with
  | nil => trivial
  | cons e es ih => exact ⟨hA s e hs hG.1, fun t ht => ih (hstep s e t hs hG.1 ht) (hG.2 t ht)⟩

/-- An invariant of all steps. -/
theorem run_invariant' {I : σ → Prop} (hstep : ∀ s e s', I s → step s e = some s' → I s')
    {es : List ι} {s s' : σ} (hs : I s) (h : run step s es = some s') : I s' :=
  run_invariant (G := fun _ _ => True) (fun s e s' hs _ => hstep s e s' hs) hs along_true h

/-- `P` holds in every state that the run from `s` passes through. -/
def Always (step : σ → ι → Option σ) (P : σ → Prop) : σ → List ι → Prop
  | s, [] => P s
  | s, e :: es => P s ∧ ∀ s', step s e = some s' → Always step P s' es

instance Always.decidable {P : σ → Prop} [DecidablePred P] :
    ∀ (s : σ) (es : List ι), Decidable (Always step P s es)
  | s, [] => inferInstanceAs (Decidable (P s))
  | s, e :: es =>
    have : ∀ s', Decidable (Always step P s' es) := fun s' => Always.decidable s' es
    inferInstanceAs (Decidable (P s ∧ ∀ s' ∈ step s e, Always step P s' es))

theorem Always.head {P : σ → Prop} {s : σ} {es : List ι} (h : Always step P s es) : P s := by
  cases es with
  | nil => exact h
  | cons e es => exact h.1

theorem Always.run {P : σ → Prop} {s s' : σ} {es : List ι} (h : Always step P s es)
    (hr : run step s es = some s') : P s' := by
  induction es generalizing s with
  | nil => cases hr; exact h
  | cons e es ih =>
    obtain ⟨t, ht, hr⟩ := run_cons.mp hr
    exact ih (h.2 t ht) hr

/-- A property that an invariant of the good steps implies always holds in the runs of good
steps. -/
theorem always_of_invariant {I P : σ → Prop}
    (hstep : ∀ s e s', I s → G s e → step s e = some s' → I s') (hP : ∀ s, I s → P s) {s : σ}
    (hs : I s) {es : List ι} (hG : Along step G s es) : Always step P s es := by
  induction es generalizing s with
  | nil => exact hP s hs
  | cons e es ih => exact ⟨hP s hs, fun t ht => ih (hstep s e t hs hG.1 ht) (hG.2 t ht)⟩

/-- A property that an invariant of the good steps implies, and that every
other step breaks at once, always holds exactly in the runs of good steps. -/
theorem always_iff {I P : σ → Prop} (hP : ∀ s, I s → P s)
    (good : ∀ s e s', I s → G s e → step s e = some s' → I s')
    (bad : ∀ s e, I s → ¬ G s e → ∃ s', step s e = some s' ∧ ¬ P s') {s : σ} (hs : I s)
    {es : List ι} : Always step P s es ↔ Along step G s es := by
  induction es generalizing s with
  | nil => exact ⟨fun _ => trivial, fun _ => hP s hs⟩
  | cons e es ih =>
    constructor
    · intro h
      have he : G s e := by
        by_contra he
        obtain ⟨s', hs', hn⟩ := bad s e hs he
        exact hn (h.2 s' hs').head
      exact ⟨he, fun s' hs' => (ih (good s e s' hs he hs')).mp (h.2 s' hs')⟩
    · intro h
      exact ⟨hP s hs, fun s' hs' => (ih (good s e s' hs h.1 hs')).mpr (h.2 s' hs')⟩

/-- The same for a run in which no event is impossible: then a bad step need not
be shown to happen. -/
theorem always_iff_of_run {I P : σ → Prop} (hP : ∀ s, I s → P s)
    (good : ∀ s e s', I s → G s e → step s e = some s' → I s')
    (bad : ∀ s e s', I s → ¬ G s e → step s e = some s' → ¬ P s') {s s' : σ} (hs : I s)
    {es : List ι} (h : run step s es = some s') : Always step P s es ↔ Along step G s es := by
  induction es generalizing s with
  | nil => exact ⟨fun _ => trivial, fun _ => hP s hs⟩
  | cons e es ih =>
    obtain ⟨t, ht, h⟩ := run_cons.mp h
    have hu : ∀ u, step s e = some u → u = t := fun u hu => Option.some.inj (hu.symm.trans ht)
    constructor
    · intro ha
      have he : G s e := by
        by_contra he
        exact bad s e t hs he ht (ha.2 t ht).head
      refine ⟨he, fun u hs' => ?_⟩
      obtain rfl := hu u hs'
      exact (ih (good s e u hs he ht) h).mp (ha.2 u ht)
    · intro ha
      refine ⟨hP s hs, fun u hs' => ?_⟩
      obtain rfl := hu u hs'
      exact (ih (good s e u hs ha.1 ht) h).mpr (ha.2 u ht)

/-- The same for what a step should do together with what should hold in the states: one of the two
is broken by a step that does not meet the condition. -/
theorem along_always_iff {I P : σ → Prop} {A : σ → ι → Prop} (hP : ∀ s, I s → P s)
    (good : ∀ s e s', I s → G s e → step s e = some s' → A s e ∧ I s')
    (bad : ∀ s e s', I s → ¬ G s e → step s e = some s' → ¬ (A s e ∧ P s')) {s s' : σ} (hs : I s)
    {es : List ι} (h : run step s es = some s') :
    Along step A s es ∧ Always step P s es ↔ Along step G s es := by
  induction es generalizing s with
  | nil => exact ⟨fun _ => trivial, fun _ => ⟨trivial, hP s hs⟩⟩
  | cons e es ih =>
    obtain ⟨t, ht, h⟩ := run_cons.mp h
    have hu : ∀ u, step s e = some u → u = t := fun u hu => Option.some.inj (hu.symm.trans ht)
    constructor
    · rintro ⟨hA, hPs⟩
      have he : G s e := by
        by_contra he
        exact bad s e t hs he ht ⟨hA.1, (hPs.2 t ht).head⟩
      refine ⟨he, fun u hs' => ?_⟩
      obtain rfl := hu u hs'
      exact (ih (good s e u hs he ht).2 h).mp ⟨hA.2 u ht, hPs.2 u ht⟩
    · intro hG
      obtain ⟨hA, hI⟩ := good s e t hs hG.1 ht
      obtain ⟨hAs, hPs⟩ := (ih hI h).mpr (hG.2 t ht)
      refine ⟨⟨hA, fun u hs' => ?_⟩, hP s hs, fun u hs' => ?_⟩
      · obtain rfl := hu u hs'
        exact hAs
      · obtain rfl := hu u hs'
        exact hPs

/-- Two conditions that agree in the states that the steps keep to hold along the
same runs. -/
theorem along_iff {I : σ → Prop} {A : σ → ι → Prop}
    (hstep : ∀ s e s', I s → G s e → step s e = some s' → I s')
    (h : ∀ s e, I s → (A s e ↔ G s e)) {s : σ} (hs : I s) {es : List ι} :
    Along step A s es ↔ Along step G s es := by
  induction es generalizing s with
  | nil => exact Iff.rfl
  | cons e es ih =>
    rw [Along, Along, h s e hs]
    exact and_congr_right fun hG => forall₂_congr fun s' hs' => ih (hstep s e s' hs hG hs')

/-- The same for a run that goes through: the conditions need agree on the steps that happen. -/
theorem along_iff_of_run {I : σ → Prop} {A : σ → ι → Prop}
    (hstep : ∀ s e s', I s → step s e = some s' → I s')
    (h : ∀ s e s', I s → step s e = some s' → (A s e ↔ G s e)) {s s' : σ} (hs : I s) {es : List ι}
    (hr : run step s es = some s') : Along step A s es ↔ Along step G s es := by
  induction es generalizing s with
  | nil => exact Iff.rfl
  | cons e es ih =>
    obtain ⟨t, ht, hr⟩ := run_cons.mp hr
    rw [Along, Along, h s e t hs ht]
    refine and_congr_right fun _ => forall₂_congr fun u hu => ?_
    obtain rfl := Option.some.inj (hu.symm.trans ht)
    exact ih (hstep s e u hs ht) hr

/-- The steps that meet the condition keep `I`, the others lose it for good:
they lead to `L`, which no step leaves. -/
structure Loses (step : σ → ι → Option σ) (G : σ → ι → Prop) (I L : σ → Prop) : Prop where
  good (s e s') : I s → G s e → step s e = some s' → I s'
  bad (s e s') : I s → ¬ G s e → step s e = some s' → L s'
  lost (s e s') : L s → step s e = some s' → L s'
  ne (s) : L s → ¬ I s

namespace Loses

variable {I L : σ → Prop}

theorem run_good (H : Loses step G I L) {es : List ι} {s s' : σ} (hs : I s)
    (hG : Along step G s es) (h : run step s es = some s') : I s' :=
  run_invariant H.good hs hG h

theorem run_bad (H : Loses step G I L) {es : List ι} {s s' : σ} (hs : I s)
    (hG : ¬ Along step G s es) (h : run step s es = some s') : L s' := by
  induction es generalizing s with
  | nil => exact absurd trivial hG
  | cons e es ih =>
    obtain ⟨t, ht, h⟩ := run_cons.mp h
    by_cases he : G s e
    · refine ih (H.good s e t hs he ht) (fun ha => hG ⟨he, fun u hu => ?_⟩) h
      rwa [← Option.some.inj (ht.symm.trans hu)]
    · exact run_invariant' H.lost (H.bad s e t hs he ht) h

/-- After a run, the property holds exactly if every step met the condition. -/
theorem run_iff (H : Loses step G I L) {es : List ι} {s s' : σ} (hs : I s)
    (h : run step s es = some s') : I s' ↔ Along step G s es := by
  refine ⟨fun hI => ?_, fun hG => H.run_good hs hG h⟩
  by_contra hG
  exact H.ne s' (H.run_bad hs hG h) hI

end Loses

end Framework
