import LinuxSna.Framework.Run

/-!
# Two parties and what is in flight between them

A party acts on its own or receives a message; either way it may send some. A
duplex joins two parties by a channel in each direction that keeps the order.

`Follows` relates a party to an abstract one. If both ends follow abstract
ends, every abstract run is followed by a run of the parties (`run_follows`),
and every run of the parties follows an abstract one if no abstract end is
ever stuck on a message (`run_followed`).
-/

namespace Framework

variable {σ τ κ μ ν : Type*}

/-- What a party does on its own and on a message: its state after it and what
it sends. -/
structure Party (σ κ μ : Type*) where
  act : σ → κ → Option (σ × List μ)
  receive : σ → μ → Option (σ × List μ)

structure Duplex (σ μ : Type*) where
  left : σ
  right : σ
  toLeft : List μ
  toRight : List μ

namespace Duplex

/-- The end that acts; on `none` it receives a message. -/
inductive Event (κ : Type*) where
  | left (k : Option κ)
  | right (k : Option κ)

/-- The duplex seen from the other end. -/
def swap (d : Duplex σ μ) : Duplex σ μ := ⟨d.right, d.left, d.toRight, d.toLeft⟩

def Event.swap : Event κ → Event κ
  | .left k => .right k
  | .right k => .left k

def stepLeft (P : Party σ κ μ) (d : Duplex σ μ) (k : Option κ) : Option (Duplex σ μ) :=
  match k, d.toLeft with
  | some k, _ => (P.act d.left k).map fun r => { d with left := r.1, toRight := d.toRight ++ r.2 }
  | none, [] => none
  | none, m :: ms => (P.receive d.left m).map fun r =>
      { d with left := r.1, toLeft := ms, toRight := d.toRight ++ r.2 }

def step (P : Party σ κ μ) (d : Duplex σ μ) : Event κ → Option (Duplex σ μ)
  | .left k => stepLeft P d k
  | .right k => (stepLeft P d.swap k).map swap

theorem step_swap {P : Party σ κ μ} {d d' : Duplex σ μ} {e : Event κ} (h : step P d e = some d') :
    step P d.swap e.swap = some d'.swap := by
  cases e with
  | left k => exact congrArg (Option.map swap) h
  | right k =>
    obtain ⟨d₁, hd₁, rfl⟩ := Option.map_eq_some_iff.mp h
    exact hd₁

end Duplex

/-- A party follows an abstract one: related by `R`, and given messages that
are related by `In`, it does what the abstract one does, and what they send is
related by `Out`. -/
structure Follows (P : Party σ κ μ) (Q : Party τ κ ν) (R : σ → τ → Prop) (In Out : μ → ν → Prop) :
    Prop where
  act {s t k y} : R s t → Q.act t k = some y →
    ∃ x, P.act s k = some x ∧ R x.1 y.1 ∧ List.Forall₂ Out x.2 y.2
  act_none {s t k} : R s t → Q.act t k = none → P.act s k = none
  receive {s t m n y} : R s t → In m n → Q.receive t n = some y →
    ∃ x, P.receive s m = some x ∧ R x.1 y.1 ∧ List.Forall₂ Out x.2 y.2

namespace Duplex

variable {P : Party σ κ μ} {Q : Party τ κ ν} {RL RR : σ → τ → Prop} {ML MR : μ → ν → Prop}
  {d d' : Duplex σ μ} {e e' : Duplex τ ν}

structure Related (RL RR : σ → τ → Prop) (ML MR : μ → ν → Prop) (d : Duplex σ μ)
    (e : Duplex τ ν) : Prop where
  left : RL d.left e.left
  right : RR d.right e.right
  toLeft : List.Forall₂ ML d.toLeft e.toLeft
  toRight : List.Forall₂ MR d.toRight e.toRight

theorem Related.swap (h : Related RL RR ML MR d e) : Related RR RL MR ML d.swap e.swap :=
  ⟨h.right, h.left, h.toRight, h.toLeft⟩

/-- The left end is not stuck on the message it is to receive next. -/
def Alive (Q : Party τ κ ν) (e : Duplex τ ν) : Prop :=
  ∀ n ns, e.toLeft = n :: ns → Q.receive e.left n ≠ none

theorem stepLeft_follows (hL : Follows P Q RL ML MR) (h : Related RL RR ML MR d e) {k : Option κ}
    (he : stepLeft Q e k = some e') :
    ∃ d', stepLeft P d k = some d' ∧ Related RL RR ML MR d' e' := by
  obtain ⟨l, r, ms, ms'⟩ := d
  obtain ⟨l', r', ns, ns'⟩ := e
  obtain ⟨hl, hr, hm, hm'⟩ := h
  cases k with
  | some k =>
    obtain ⟨y, hy, rfl⟩ := Option.map_eq_some_iff.mp he
    obtain ⟨x, hx, hR, hO⟩ := hL.act hl hy
    refine ⟨⟨x.1, r, ms, ms' ++ x.2⟩, ?_, hR, hr, hm, List.rel_append hm' hO⟩
    show Option.map _ (P.act l k) = _
    rw [hx]
    rfl
  | none =>
    cases hm with
    | nil => cases he
    | @cons m n ms ns hmn hm =>
      obtain ⟨y, hy, rfl⟩ := Option.map_eq_some_iff.mp he
      obtain ⟨x, hx, hR, hO⟩ := hL.receive hl hmn hy
      refine ⟨⟨x.1, r, ms, ms' ++ x.2⟩, ?_, hR, hr, hm, List.rel_append hm' hO⟩
      show Option.map _ (P.receive l m) = _
      rw [hx]
      rfl

theorem stepLeft_possible (hL : Follows P Q RL ML MR) (h : Related RL RR ML MR d e) {k : Option κ}
    (ha : Alive Q e) (hd : stepLeft P d k = some d') : ∃ e', stepLeft Q e k = some e' := by
  obtain ⟨l, r, ms, ms'⟩ := d
  obtain ⟨l', r', ns, ns'⟩ := e
  obtain ⟨hl, -, hm, -⟩ := h
  cases k with
  | some k =>
    obtain ⟨x, hx, -⟩ := Option.map_eq_some_iff.mp hd
    cases hy : Q.act l' k with
    | none => rw [hL.act_none hl hy] at hx; cases hx
    | some y => exact ⟨_, congrArg (Option.map _) hy⟩
  | none =>
    cases hm with
    | nil => cases hd
    | cons _ _ =>
      obtain ⟨y, hy⟩ := Option.ne_none_iff_exists'.mp (ha _ _ rfl)
      exact ⟨_, congrArg (Option.map _) hy⟩

section

variable (hL : Follows P Q RL ML MR) (hR : Follows P Q RR MR ML)
include hL hR

theorem step_follows (h : Related RL RR ML MR d e) {ev : Event κ} (he : step Q e ev = some e') :
    ∃ d', step P d ev = some d' ∧ Related RL RR ML MR d' e' := by
  cases ev with
  | left k => exact stepLeft_follows hL h he
  | right k =>
    obtain ⟨e₁, he₁, rfl⟩ := Option.map_eq_some_iff.mp he
    obtain ⟨d₁, hd₁, h₁⟩ := stepLeft_follows hR h.swap he₁
    exact ⟨d₁.swap, congrArg (Option.map swap) hd₁, h₁.swap⟩

theorem step_possible (h : Related RL RR ML MR d e) {ev : Event κ} (ha : Alive Q e)
    (ha' : Alive Q e.swap) (hd : step P d ev = some d') : ∃ e', step Q e ev = some e' := by
  cases ev with
  | left k => exact stepLeft_possible hL h ha hd
  | right k =>
    obtain ⟨d₁, hd₁, -⟩ := Option.map_eq_some_iff.mp hd
    obtain ⟨e₁, he₁⟩ := stepLeft_possible hR h.swap ha' hd₁
    exact ⟨_, congrArg (Option.map swap) he₁⟩

/-- The parties follow every abstract run. -/
theorem run_follows (h : Related RL RR ML MR d e) {es : List (Event κ)}
    (he : run (step Q) e es = some e') :
    ∃ d', run (step P) d es = some d' ∧ Related RL RR ML MR d' e' := by
  induction es generalizing d e with
  | nil => cases he; exact ⟨d, rfl, h⟩
  | cons ev es ih =>
    obtain ⟨e₁, he₁, he⟩ := run_cons.mp he
    obtain ⟨d₁, hd₁, h₁⟩ := step_follows hL hR h he₁
    obtain ⟨d', hd', h'⟩ := ih h₁ he
    exact ⟨d', run_cons.mpr ⟨d₁, hd₁, hd'⟩, h'⟩

/-- Every run of the parties follows an abstract run, under an invariant of the
abstract duplex that leaves no end stuck. -/
theorem run_followed {I : Duplex τ ν → Prop}
    (hstep : ∀ e ev e', I e → step Q e ev = some e' → I e')
    (halive : ∀ e, I e → Alive Q e ∧ Alive Q e.swap) (h : Related RL RR ML MR d e) (hI : I e)
    {es : List (Event κ)} (hd : run (step P) d es = some d') :
    ∃ e', run (step Q) e es = some e' ∧ I e' ∧ Related RL RR ML MR d' e' := by
  induction es generalizing d e with
  | nil => cases hd; exact ⟨e, rfl, hI, h⟩
  | cons ev es ih =>
    obtain ⟨d₁, hd₁, hd⟩ := run_cons.mp hd
    obtain ⟨e₁, he₁⟩ := step_possible hL hR h (halive e hI).1 (halive e hI).2 hd₁
    obtain ⟨d₂, hd₂, h₁⟩ := step_follows hL hR h he₁
    obtain rfl : d₁ = d₂ := Option.some.inj (hd₁.symm.trans hd₂)
    obtain ⟨e', he', hI', h'⟩ := ih h₁ (hstep e ev e₁ hI he₁) hd
    exact ⟨e', run_cons.mpr ⟨e₁, he₁, he'⟩, hI', h'⟩

end

end Duplex

end Framework
