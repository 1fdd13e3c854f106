import LinuxSna.Proof.Sna.Tc.Flow

/-!
# The send window

Requests of the normal flow that begin a BIU, against the windows that the
partner has granted. `sna_tc_send_to_pc` takes credit for first segments of the
other flow, and for nothing else, so requests of the normal flow are held back
only while the credit is 0 for another reason.

* `sent_order`: the normal-flow requests of the queue and of path control stay
  in the order in which they came;
* `sent_begun`: what a call hands to path control of those that begin a BIU;
* `send_window`: the window holds in the runs whose steps are `Spared`.
-/

namespace LinuxSna.Tc

open Hs Framework
open scoped List

variable {hs : Hs} {m : Mu} {pc : Option Int}

/-- A request of the normal flow. -/
def isNormalReq (m : Mu) : Bool := m.efi = .norm && m.rri = .req

/-- The window that a pacing response grants. -/
def grant (hs : Hs) (m : Mu) : Nat :=
  match hs.txPacing.type with
  | .none => 0
  | .fixed => hs.firstWs.toNat
  | .adaptive =>
    match m.ipm.type with
    | .solicit | .unsolicit => m.ipm.nws.toNat
    | .reset | .rsv => 0

/-- A half-session with what was handed over to it, what it has passed to path
control, and the windows it was allowed: the first and those granted. -/
structure Flow where
  hs : Hs
  handed : List Mu
  passed : List Mu
  allowed : Nat

namespace Flow

def start (hs : Hs) : Flow := ⟨hs, [], [], hs.txPacing.nws.toNat⟩

/-- The BIUs of normal-flow requests that have begun to leave. -/
def begun (f : Flow) : Nat := f.passed.countP Mu.beginsNormal

end Flow

def Event.handed : Event → List Mu
  | .send m _ => [m]
  | .pacing .. => []

def Event.grant (hs : Hs) : Event → Nat
  | .send .. => 0
  | .pacing m .. => Tc.grant hs m.mu

def Flow.step (f : Flow) (e : Event) : Option Flow :=
  let r := sent f.hs e
  some ⟨r.hs, f.handed ++ e.handed, f.passed ++ r.mus, f.allowed + e.grant f.hs⟩

/-- No more BIUs have begun than were allowed, and the requests have left in
the order in which they were handed over. -/
structure SendWindow (f : Flow) : Prop where
  count : f.begun ≤ f.allowed
  order : f.passed.filter isNormalReq <+ f.handed.filter isNormalReq

instance : DecidablePred SendWindow := fun f =>
  decidable_of_iff
    (f.begun ≤ f.allowed ∧ f.passed.filter isNormalReq <+ f.handed.filter isNormalReq)
    ⟨fun h => ⟨h.1, h.2⟩, fun h => ⟨h.count, h.order⟩⟩

/-- A step that finds the windows used up does not let a request begin: one
handed over is refused or waits, and a pacing response that grants nothing
leaves the first of the queue where it is. -/
def Spared (f : Flow) : Event → Prop
  | .send m pc =>
    f.begun = f.allowed → m.beginsNormal = true → pc.isSome = true →
      ciphered f.hs m ∨ f.hs.writeQueue.mus ≠ [] ∨ m.mpf = .bbiu ∧ f.hs.txPacing.credit = 0
  | .pacing m copied _ pc =>
    f.begun = f.allowed → grant f.hs m.mu = 0 → pc.isSome = true →
      ∀ r ∈ f.hs.writeQueue.mus.head?, r.beginsNormal = true →
        m.mu.ipm.type = .unsolicit ∧ copied = false ∨
        r.mpf = .bbiu ∧
          (m.mu.ipm.type = .solicit ∨ m.mu.ipm.type = .unsolicit ∨ f.hs.txPacing.credit = 0)

instance (f : Flow) : ∀ e, Decidable (Spared f e)
  | .send .. => by unfold Spared; infer_instance
  | .pacing .. => by unfold Spared; infer_instance

/-! ## Order -/

theorem filter_expedited {l : List Mu} (h : ∀ m ∈ l, m.efi ≠ .norm) : l.filter isNormalReq = [] := by
  apply List.filter_eq_nil_iff.mpr
  intro m hm
  simp [isNormalReq, h m hm]

theorem filter_rsp (h : m.rri = .rsp) : [m].filter isNormalReq = [] := by
  simp [isNormalReq, h]

theorem sent_order (ht : hs.txPacing.type ≠ .none) (e : Event) :
    ((sent hs e).mus ++ (sent hs e).hs.writeQueue.mus).filter isNormalReq <+
      (hs.writeQueue.mus ++ e.handed).filter isNormalReq := by
  rw [List.filter_append, List.filter_append]
  cases e with
  | send m pc =>
    simp only [sent, Event.handed]
    obtain ⟨he, h⟩ | ⟨-, -, h⟩ | ⟨he, -, -, -, h⟩ | ⟨he, -, hw, h⟩ := sendMu_cases hs m pc
    · have hx := filter_expedited fun m' hm => sendToPc_efi hs m pc m' hm ▸ he
      rw [h, hx, sendToPc_writeQueue]
      exact List.sublist_append_left _ _
    · rw [h]
      exact List.sublist_append_left _ _
    · rw [h, PacingQueue.mus_enqueue, List.filter_append]
      exact List.Sublist.refl _
    · have hw := hw.resolve_left ht
      rw [h, sendToPc_norm he]
      cases hr : m.rri with
      | req =>
        -- a request overtakes nothing, as it only leaves when the queue is empty
        have hq : hs.writeQueue.mus = [] := by
          by_contra hq
          simp [waits, hr, hq] at hw
        rw [hq]
        cases pc with
        | none => exact List.nil_sublist _
        | some err => simp
      | rsp =>
        have hx : ([m].filter isNormalReq) = [] := filter_rsp hr
        cases pc <;> simp [hx]
  | pacing m copied ack pc =>
    simp only [sent, Event.handed, List.filter_nil, List.append_nil]
    obtain ⟨-, h, hm⟩ | ⟨hs', err, hd, h, hm⟩ := rxPacingRsp_cases hs m.norm copied ack pc
    · rw [h, hm]; exact List.Sublist.refl _
    · have ha : (answers hs m.mu ack).filter isNormalReq = [] := by
        unfold answers
        split
        · exact filter_rsp m.rsp
        · rfl
      rw [h, hm, List.filter_append, ha, List.nil_append, ← List.filter_append,
        ← (atDone_frame hd).1]
      exact (sendNext_order err).filter _

/-! ## Counting -/

/-- The call lets a BIU begin. -/
def Lets (hs : Hs) : Event → Prop
  | .send m pc => m.beginsNormal = true ∧ pc.isSome = true ∧ ¬ ciphered hs m ∧ ¬ waits hs m
  | .pacing m copied _ pc =>
    pc.isSome = true ∧ ∃ hs' ∈ atDone hs m.mu copied, ∃ r ∈ hs.writeQueue.mus.head?,
      r.beginsNormal = true ∧ mayGo hs' r

theorem beginsNormal_norm (h : m.beginsNormal = true) : m.efi = .norm ∧ m.rri = .req := by
  simp only [Mu.beginsNormal, Mu.beginsBiu, Bool.and_eq_true, decide_eq_true_eq] at h
  exact ⟨h.1, h.2.1⟩

theorem countP_expedited {l : List Mu} (h : ∀ m ∈ l, m.efi ≠ .norm) :
    l.countP Mu.beginsNormal = 0 := by
  refine List.countP_eq_zero.mpr fun m hm hb => h m hm (beginsNormal_norm hb).1

theorem countP_sent (hpc : pc.isSome = true) (hb : m.beginsNormal = true) :
    (if pc.isSome then [m] else []).countP Mu.beginsNormal = 1 := by
  rw [if_pos hpc, List.countP_singleton, if_pos hb]

theorem countP_not_sent (h : ¬ (pc.isSome = true ∧ m.beginsNormal = true)) :
    (if pc.isSome then [m] else []).countP Mu.beginsNormal = 0 := by
  by_cases hpc : pc.isSome = true
  · rw [if_pos hpc, List.countP_singleton, if_neg fun hb => h ⟨hpc, hb⟩]
  · rw [if_neg hpc, List.countP_nil]

theorem countP_answers (hr : m.rri = .rsp) {ack : Option Int} :
    (answers hs m ack).countP Mu.beginsNormal = 0 := by
  have hb : m.beginsNormal = false := by simp [Mu.beginsNormal, Mu.beginsBiu, hr]
  unfold answers
  split
  · rw [List.countP_singleton, hb]; rfl
  · rfl

/-- A call lets one BIU begin, or none. -/
theorem sent_begun (ht : hs.txPacing.type ≠ .none) (e : Event) :
    Lets hs e ∧ (sent hs e).mus.countP Mu.beginsNormal = 1 ∨
      ¬ Lets hs e ∧ (sent hs e).mus.countP Mu.beginsNormal = 0 := by
  cases e with
  | send m pc =>
    simp only [sent]
    obtain ⟨he, h⟩ | ⟨-, hc, h⟩ | ⟨he, -, -, hw, h⟩ | ⟨he, hc, hw, h⟩ := sendMu_cases hs m pc
    · refine .inr ⟨fun hl => he (beginsNormal_norm hl.1).1, ?_⟩
      rw [h, countP_expedited fun m' hm => sendToPc_efi hs m pc m' hm ▸ he]
    · exact .inr ⟨fun hl => hl.2.2.1 hc, by rw [h]; rfl⟩
    · exact .inr ⟨fun hl => hl.2.2.2 hw, by rw [h]; rfl⟩
    · have hw := hw.resolve_left ht
      rw [h, sendToPc_norm he]
      by_cases hl : pc.isSome = true ∧ m.beginsNormal = true
      · exact .inl ⟨⟨hl.2, hl.1, hc, hw⟩, countP_sent hl.1 hl.2⟩
      · exact .inr ⟨fun hl' => hl ⟨hl'.2.1, hl'.1⟩, countP_not_sent hl⟩
  | pacing m copied ack pc =>
    simp only [sent]
    obtain ⟨hd, -, hm⟩ | ⟨hs', err, hd, -, hm⟩ := rxPacingRsp_cases hs m.norm copied ack pc
    · refine .inr ⟨?_, by rw [hm]; rfl⟩
      rintro ⟨-, hs', hd', -⟩
      rw [hd] at hd'
      cases hd'
    · have hq := (atDone_frame hd).1
      simp only [Lets, hd, ← hq, Option.mem_some_iff, exists_eq_left']
      rw [hm, List.countP_append, countP_answers m.rsp, Nat.zero_add]
      obtain ⟨h, hno⟩ | ⟨r, rest, hr, hgo, h⟩ := sendNext_cases hs' err pc
      · refine .inr ⟨?_, by rw [h]; rfl⟩
        rintro ⟨-, r, hr, -, hgo⟩
        exact hno r hr hgo
      · rw [h]
        simp only [hr, List.head?_cons, Option.mem_some_iff, exists_eq_left']
        by_cases hl : pc.isSome = true ∧ r.beginsNormal = true
        · exact .inl ⟨⟨hl.1, hl.2, hgo⟩, countP_sent hl.1 hl.2⟩
        · exact .inr ⟨fun hl' => hl ⟨hl'.1, hl'.2.1⟩, countP_not_sent hl⟩

/-! ## Runs -/

/-- What every step keeps, and the window. -/
structure Inv (f : Flow) : Prop where
  paced : f.hs.txPacing.type ≠ .none
  fixed : f.hs.txPacing.type = .fixed → f.hs.firstWs ≠ 0
  count : f.begun ≤ f.allowed
  order : (f.passed ++ f.hs.writeQueue.mus).filter isNormalReq <+ f.handed.filter isNormalReq

/-- Only adaptive pacing grants nothing. -/
theorem Inv.adaptive {f : Flow} {m : Mu} (h : Inv f) (hg : grant f.hs m = 0) :
    f.hs.txPacing.type = .adaptive := by
  cases ht : f.hs.txPacing.type with
  | none => exact absurd ht h.paced
  | fixed =>
    simp only [grant, ht] at hg
    exact absurd (UInt8.toNat_inj.mp hg) (h.fixed ht)
  | adaptive => rfl

theorem Inv.sendWindow {f : Flow} (h : Inv f) : SendWindow f where
  count := h.count
  order := by
    refine List.Sublist.trans ?_ h.order
    rw [List.filter_append]
    exact List.sublist_append_left _ _

theorem waits_req (h : m.rri = .req) :
    waits hs m ↔ hs.writeQueue.mus ≠ [] ∨ m.mpf = .bbiu ∧ hs.txPacing.credit = 0 := by
  simp only [waits, h]

theorem mayGo_req (h : m.rri = .req) : mayGo hs m ↔ ¬ (m.mpf = .bbiu ∧ hs.txPacing.credit = 0) := by
  simp only [mayGo, h, reduceCtorEq, false_or]
  rw [not_and_or, gt_iff_lt, Nat.pos_iff_ne_zero]

theorem credit_setWindow {nws : UInt16} : (hs.setWindow nws).txPacing.credit = nws.toNat % 256 := by
  simp [setWindow, Pacing.credit]

/-- Which request may go when a pacing response that grants nothing is
processed. -/
theorem goes_iff {r : Mu} (ht : hs.txPacing.type = .adaptive) (hg : grant hs m = 0)
    (hq : r ∈ hs.writeQueue.mus.head?) (hr : r.rri = .req) {copied : Bool} :
    (∃ hs' ∈ atDone hs m copied, mayGo hs' r) ↔
      ¬ (m.ipm.type = .unsolicit ∧ copied = false ∨
        r.mpf = .bbiu ∧
          (m.ipm.type = .solicit ∨ m.ipm.type = .unsolicit ∨ hs.txPacing.credit = 0)) := by
  have hne : hs.writeQueue.mus ≠ [] := by
    intro h
    rw [h] at hq
    cases hq
  cases hi : m.ipm.type with
  | reset => simp [atDone, ht, hi, mayGo_req hr]
  | rsv => simp [atDone, ht, hi, mayGo_req hr]
  | solicit =>
    have hn : m.ipm.nws.toNat = 0 := by simpa only [grant, ht, hi] using hg
    simp [atDone, ht, hi, mayGo_req hr, hne, credit_setWindow, hn]
  | unsolicit =>
    have hn : m.ipm.nws.toNat = 0 := by simpa only [grant, ht, hi] using hg
    cases copied <;> simp [atDone, ht, hi, mayGo_req hr, credit_setWindow, hn]

/-- A step is spared exactly if it does not let a BIU begin when the windows
are used up. -/
theorem spared_iff {f : Flow} (hf : Inv f) (e : Event) :
    Spared f e ↔ ¬ (Lets f.hs e ∧ f.begun = f.allowed ∧ e.grant f.hs = 0) := by
  cases e with
  | send m pc =>
    simp only [Spared, Lets, Event.grant, and_true]
    constructor
    · rintro h ⟨⟨hb, hpc, hc, hw⟩, hu⟩
      rw [waits_req (beginsNormal_norm hb).2] at hw
      exact (h hu hb hpc).elim hc hw
    · intro h hu hb hpc
      rw [waits_req (beginsNormal_norm hb).2] at h
      by_contra hn
      rw [not_or] at hn
      exact h ⟨⟨hb, hpc, hn.1, hn.2⟩, hu⟩
  | pacing m copied ack pc =>
    simp only [Spared, Lets, Event.grant]
    constructor
    · rintro h ⟨⟨hpc, hs', hd, r, hq, hb, hgo⟩, hu, hg⟩
      have ht := hf.adaptive hg
      exact (goes_iff ht hg hq (beginsNormal_norm hb).2).mp ⟨hs', hd, hgo⟩ (h hu hg hpc r hq hb)
    · intro h hu hg hpc r hq hb
      by_contra hn
      have ht := hf.adaptive hg
      obtain ⟨hs', hd, hgo⟩ := (goes_iff ht hg hq (beginsNormal_norm hb).2).mpr hn
      exact h ⟨⟨hpc, hs', hd, r, hq, hb, hgo⟩, hu, hg⟩

theorem step_inv {f f' : Flow} {e : Event} (hf : Inv f) (hg : Spared f e)
    (h : Flow.step f e = some f') : Inv f' := by
  cases h
  obtain ⟨ht, hw⟩ := sent_frame f.hs e
  have hc := hf.count
  have hs := (spared_iff hf e).mp hg
  refine ⟨by rw [ht]; exact hf.paced, by rw [ht, hw]; exact hf.fixed, ?_, ?_⟩
  · show (f.passed ++ (sent f.hs e).mus).countP Mu.beginsNormal ≤ f.allowed + e.grant f.hs
    rw [List.countP_append]
    change f.begun + _ ≤ _
    obtain ⟨hl, hn⟩ | ⟨-, hn⟩ := sent_begun hf.paced e
    · have : ¬ (f.begun = f.allowed ∧ e.grant f.hs = 0) := fun hu => hs ⟨hl, hu⟩
      omega
    · omega
  · have ho := sent_order hf.paced e
    show (f.passed ++ _ ++ _).filter isNormalReq <+ (f.handed ++ e.handed).filter isNormalReq
    calc (f.passed ++ (sent f.hs e).mus ++ (sent f.hs e).hs.writeQueue.mus).filter isNormalReq
      _ = f.passed.filter isNormalReq ++
          ((sent f.hs e).mus ++ (sent f.hs e).hs.writeQueue.mus).filter isNormalReq := by
        rw [List.append_assoc, List.filter_append]
      _ <+ f.passed.filter isNormalReq ++ (f.hs.writeQueue.mus ++ e.handed).filter isNormalReq :=
        ho.append_left _
      _ = (f.passed ++ f.hs.writeQueue.mus).filter isNormalReq ++ e.handed.filter isNormalReq := by
        rw [List.filter_append, List.filter_append, List.append_assoc]
      _ <+ f.handed.filter isNormalReq ++ e.handed.filter isNormalReq :=
        hf.order.append_right _
      _ = (f.handed ++ e.handed).filter isNormalReq := by rw [List.filter_append]

theorem step_bad {f : Flow} {e : Event} (hf : Inv f) (hg : ¬ Spared f e) :
    ∃ f', Flow.step f e = some f' ∧ ¬ SendWindow f' := by
  refine ⟨_, rfl, fun hw => ?_⟩
  rw [spared_iff hf, not_not] at hg
  obtain ⟨hl, hu, hz⟩ := hg
  have hc : (f.passed ++ (sent f.hs e).mus).countP Mu.beginsNormal ≤ f.allowed + e.grant f.hs :=
    hw.count
  rw [List.countP_append] at hc
  change f.begun + _ ≤ _ at hc
  obtain ⟨-, hn⟩ | ⟨hl', -⟩ := sent_begun hf.paced e
  · omega
  · exact hl' hl

theorem inv_start (type : HsType) (bind : Bind) (h : bind.txPacingType type ≠ .none) :
    Inv (Flow.start (init type bind)) where
  paced := h
  fixed := by
    intro hf hz
    change bind.txWinSize type = 0 at hz
    have hf : bind.txPacingType type = .fixed := hf
    unfold Bind.txPacingType at hf
    split at hf
    · cases hf
    · split at hf
      · rename_i hn; exact hn hz
      · cases hf
  count := Nat.zero_le _
  order := List.Sublist.refl _

/-- For every BIND with pacing, the send window holds throughout a run exactly
if its steps are spared. -/
theorem send_window (type : HsType) (bind : Bind) (h : bind.txPacingType type ≠ .none)
    (es : List Event) :
    Always Flow.step SendWindow (Flow.start (init type bind)) es ↔
      Along Flow.step Spared (Flow.start (init type bind)) es :=
  always_iff (fun _ hf => hf.sendWindow) (fun _ _ _ hf hg h => step_inv hf hg h)
    (fun _ _ hf hg => step_bad hf hg) (inv_start type bind h)

/-- Within the first window. -/
theorem send_window_first :
    Always Flow.step SendWindow (Flow.start (init .fsp (adaptiveBind 1)))
      [.send (request .bbiu [1]) (some 0), .send (request .ebiu [2]) (some 0)] :=
  (send_window .fsp (adaptiveBind 1) (by decide) _).mpr (by decide)

/-- The second BIU needs a window that nobody has granted. -/
theorem send_window_exceeded :
    ¬ Always Flow.step SendWindow (Flow.start (init .fsp (adaptiveBind 1)))
      [.send (request .wholeBiu [1]) (some 0), .send (request .wholeBiu [2]) (some 0)] := by
  decide

end LinuxSna.Tc
