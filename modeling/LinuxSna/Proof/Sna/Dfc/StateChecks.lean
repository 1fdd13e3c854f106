import LinuxSna.Proof.Sna.Dfc.Sense

/-!
# State checks and their machines

Each state check repeats the error rows of its machine. The QRI check returns 0 even for an error.
The check of received chains also reports a negative response that is sent in a wrong state, for which
neither it nor the machine has a sense code; and the bracket check does not look at its signal, with
which the machine makes no checks.

* `bsm_sense`, `chainRcv_sense`, `chainSend_sense`, `qriChainRcv_sense`: the sense code that a machine
  records;
* `agrees_iff`: the inputs for which a check and its machine agree.
-/

namespace LinuxSna.Dfc

open Hs (Skb)

variable {d : DfcState} {s : Skb}

/-! ## The sense codes of the machines -/

/-- The sense code that a state check has for what it finds -/
def StateChk.sense (c : StateChk) : Option UInt32 := c.join

theorem record_sense (d : DfcState) (c : StateChk) : (d.record c).sense = c.sense.getD d.sense := by
  match c with
  | none => rfl
  | some none => rfl
  | some (some _) => rfl

/-- With a signal, the bracket machine checks nothing. -/
theorem bsm_sense (d : DfcState) (s : Skb) (signal : BsmInd) :
    (bsm d s signal).sense =
      if signal = .none then (bsmStateChk d s).sense.getD d.sense else d.sense := by
  match signal with
  | .inb => rfl
  | .betb => rfl
  | .none =>
    rw [if_pos rfl]
    unfold bsm bsmStateChk
    rw [if_neg nofun, if_neg nofun]
    split_ifs <;> rfl

@[simp] theorem chainRcvOutputA_sense (d : DfcState) (s : Skb) :
    (chainRcvOutputA d s).sense = d.sense := by
  unfold chainRcvOutputA
  split_ifs <;> rfl

@[simp] theorem chainSendOutputA_sense (d : DfcState) (s : Skb) :
    (chainSendOutputA d s).sense = d.sense := by
  unfold chainSendOutputA
  split_ifs <;> rfl

/-- Of a received MU, the machine of received chains records what its check finds. -/
theorem chainRcv_sense_inbound (h : d.direction = .inbound) (s : Skb) (chain : ChainInd) :
    (chainRcv d s chain).sense = (chainRcvStateChk d s chain).sense.getD d.sense := by
  unfold chainRcv chainRcvStateChk
  rw [h]
  dsimp only
  cases hr : s.rri with
  | rsp => rfl
  | req =>
    cases chain with
    | none =>
      simp only [true_and, reduceCtorEq, ne_eq, not_true_eq_false, ↓reduceIte]
      split_ifs
      · cases d.chainRcvState <;> rfl
      · cases d.chainRcvState <;> rfl
      · rfl
    | beginChain =>
      simp only [true_and, reduceCtorEq, ne_eq, not_false_eq_true, ↓reduceIte]
      split_ifs <;> rfl
    | endChain =>
      simp only [true_and, reduceCtorEq, ne_eq, not_false_eq_true, ↓reduceIte]
      split_ifs
      · cases d.chainRcvState <;> simp [StateChk.sense]
      · cases d.chainRcvState <;> simp [StateChk.sense]
      · cases d.chainRcvState <;> simp [StateChk.sense, chainRcvOutputB]
      · rfl
      · rfl
      · rfl

/-- For what is sent there is no sense code. -/
theorem chainRcv_sense_outbound (h : d.direction = .outbound) (s : Skb) (chain : ChainInd) :
    (chainRcv d s chain).sense = d.sense ∧ (chainRcvStateChk d s chain).sense = none := by
  unfold chainRcv chainRcvStateChk
  rw [h]
  dsimp only
  constructor
  · split_ifs
    · cases d.chainRcvState <;> simp
    · rfl
    · rfl
    · rfl
    · rfl
    · rfl
  · split_ifs
    · cases d.chainRcvState <;> rfl
    · rfl

theorem chainRcv_sense (d : DfcState) (s : Skb) (chain : ChainInd) :
    (chainRcv d s chain).sense = (chainRcvStateChk d s chain).sense.getD d.sense := by
  cases h : d.direction with
  | inbound => exact chainRcv_sense_inbound h s chain
  | outbound =>
    obtain ⟨hs, hc⟩ := chainRcv_sense_outbound h s chain
    rw [hs, hc, Option.getD_none]

theorem chainSend_sense_inbound (h : d.direction = .inbound) (s : Skb) (chain : ChainInd) :
    (chainSend d s chain).sense = (chainSendStateChk d s).sense.getD d.sense := by
  unfold chainSend chainSendStateChk
  rw [h]
  dsimp only
  cases hr : s.rri with
  | req =>
    simp only [reduceCtorEq, false_and, true_and, or_true, ↓reduceIte]
    split_ifs <;> rfl
  | rsp =>
    simp only [reduceCtorEq, false_and, true_and, or_self, ↓reduceIte]
    by_cases hn : s.rti ∧ fmdOrLustat s
    · rw [if_pos hn, if_pos hn]
      cases d.chainSendState <;> simp [StateChk.sense]
    · have hp : (s.rti = false ∧ fmdOrLustat s) ↔ fmdOrLustat s :=
        and_iff_right_of_imp fun hf => Bool.eq_false_iff.mpr fun ht => hn ⟨ht, hf⟩
      rw [if_neg hn, if_neg hn]
      simp only [hp]
      by_cases hf : fmdOrLustat s
      · rw [if_pos hf, if_pos (.inl hf)]
        cases d.chainSendState <;> simp [StateChk.sense]
      · rw [if_neg hf]
        simp only [or_iff_right hf]
        split_ifs
        · cases d.chainSendState <;> rfl
        · rfl

/-- What is sent is not checked. -/
theorem chainSend_sense_outbound (h : d.direction = .outbound) (s : Skb) (chain : ChainInd) :
    (chainSend d s chain).sense = d.sense := by
  unfold chainSend
  rw [h]
  dsimp only
  cases chain with
  | none => split_ifs <;> rfl
  | beginChain => split_ifs <;> rfl
  | endChain =>
    dsimp only
    cases d.chainSendState <;> split_ifs <;> simp

theorem chainSend_sense (d : DfcState) (s : Skb) (chain : ChainInd) :
    (chainSend d s chain).sense = (chainSendStateChk d s).sense.getD d.sense := by
  cases h : d.direction with
  | inbound => exact chainSend_sense_inbound h s chain
  | outbound =>
    have hc : chainSendStateChk d s = none := if_pos (.inl h)
    rw [chainSend_sense_outbound h, hc]
    rfl

theorem qriChainRcv_sense (d : DfcState) (s : Skb) :
    (qriChainRcv d s).sense = if qriStateError d s then qriOutputR else d.sense := by
  unfold qriChainRcv qriStateError
  by_cases h : d.direction ≠ .inbound ∨ s.rri ≠ .req
  · rw [if_pos h, if_neg]
    simp only [Bool.and_eq_true, decide_eq_true_eq]
    rintro ⟨⟨hd, hr⟩, -⟩
    exact h.elim (· hd) (· hr)
  · rw [if_neg h]
    obtain ⟨hd, hr⟩ := not_or.mp h
    rw [not_not.mp hd, not_not.mp hr]
    cases s.qri <;> cases s.eci <;> cases d.qriChainRcvState <;> rfl

/-! ## Checks and machines -/

/-- A machine that has a state check, and the indication with which both are called -/
inductive Machine where
  | bracket (signal : BsmInd)
  | rcvChain (chain : ChainInd)
  | sendChain (chain : ChainInd)
  | qri

/-- What a state check returns, and the half-session after it -/
def StateChk.call (c : StateChk) (d : DfcState) (output : Bool) : Bool × DfcState :=
  (c.isSome, if output then d.record c else d)

namespace Machine

/-- The state check -/
def stateChk (m : Machine) (d : DfcState) (s : Skb) (output : Bool) : Bool × DfcState :=
  match m with
  | bracket _ => (bsmStateChk d s).call d output
  | rcvChain chain => (chainRcvStateChk d s chain).call d output
  | sendChain _ => (chainSendStateChk d s).call d output
  | qri => qriStateChk d s output

/-- The machine itself -/
def step (m : Machine) (d : DfcState) (s : Skb) : DfcState :=
  match m with
  | bracket signal => bsm d s signal
  | rcvChain chain => chainRcv d s chain
  | sendChain chain => chainSend d s chain
  | qri => qriChainRcv d s

end Machine

/-- A sense code is recorded, whatever was there before. -/
def Records (f : DfcState → DfcState) (d : DfcState) : Prop :=
  ∃ sense, ∀ before, (f { d with sense := before }).sense = sense

/-- None is recorded. -/
def Spares (f : DfcState → DfcState) (d : DfcState) : Prop :=
  ∀ before, (f { d with sense := before }).sense = before

/-- A state check and its machine agree about an MU. -/
structure Machine.Agrees (m : Machine) (d : DfcState) (s : Skb) : Prop where
  unchanged : (m.stateChk d s false).2 = d
  step : (m.stateChk d s false).1 = true ↔ Records (m.step · s) d
  output : (m.stateChk d s false).1 = true ↔ Records (fun d => (m.stateChk d s true).2) d
  transition : (m.stateChk d s false).1 = false → Spares (m.step · s) d

/-- A request of the bracket that is received between brackets -/
def betweenBrackets (d : DfcState) (s : Skb) : Prop :=
  d.direction = .inbound ∧ s.rri = .req ∧ d.bsmState = .betb ∧ notBidReply d s ∧
    (otherFmh s ∨ s.byte 0 = ruRcLustat ∧ cebUncond s = false)

/-- A negative response that is sent between chains, or after another one -/
def untimelyRsp (d : DfcState) (s : Skb) : Prop :=
  d.direction = .outbound ∧ s.rri = .rsp ∧ s.rti ∧ fmdOrLustat s ∧
    (d.chainRcvState = .betc ∨ d.chainRcvState = .negRspSent)

/-- A request of a chain that has the other QRI -/
def otherQri (d : DfcState) (s : Skb) : Prop :=
  d.direction = .inbound ∧ s.rri = .req ∧
    d.qriChainRcvState = (if s.qri then .incNotQr else .incQr)

/-- No difference between check and machine comes up. -/
def Machine.Alike (m : Machine) (d : DfcState) (s : Skb) : Prop :=
  match m with
  | .bracket signal => signal = .none ∨ ¬ betweenBrackets d s
  | .rcvChain _ => ¬ untimelyRsp d s
  | .sendChain _ => True
  | .qri => ¬ otherQri d s

/-! ## Where they agree -/

section

variable {f : DfcState → DfcState} {g : DfcState → Option UInt32}

theorem records_iff (hf : ∀ d, (f d).sense = (g d).getD d.sense)
    (hg : ∀ d before, g { d with sense := before } = g d) : Records f d ↔ (g d).isSome := by
  simp only [Records, hf, hg]
  cases g d with
  | none =>
    constructor
    · rintro ⟨sense, h⟩
      have h₀ := h 0
      have h₁ := h 1
      exact absurd (h₀.trans h₁.symm) (by decide)
    · exact nofun
  | some sense => exact ⟨fun _ => rfl, fun _ => ⟨sense, fun _ => rfl⟩⟩

theorem spares_of_none (hf : ∀ d, (f d).sense = (g d).getD d.sense)
    (hg : ∀ d before, g { d with sense := before } = g d) (h : g d = none) : Spares f d := by
  intro before
  rw [hf, hg, h, Option.getD_none]

end

namespace Machine

/-- The sense code that the check records with output -/
def outputSense (m : Machine) (d : DfcState) (s : Skb) : Option UInt32 :=
  match m with
  | bracket _ => (bsmStateChk d s).sense
  | rcvChain chain => (chainRcvStateChk d s chain).sense
  | sendChain _ => (chainSendStateChk d s).sense
  | qri => if qriStateError d s then some qriOutputR else none

/-- The sense code that the machine records -/
def stepSense (m : Machine) (d : DfcState) (s : Skb) : Option UInt32 :=
  match m with
  | bracket signal => if signal = .none then (bsmStateChk d s).sense else none
  | m => m.outputSense d s

theorem step_sense (m : Machine) (d : DfcState) (s : Skb) :
    (m.step d s).sense = (m.stepSense d s).getD d.sense := by
  cases m with
  | bracket signal =>
    show (bsm d s signal).sense = (if _ then _ else none : Option UInt32).getD d.sense
    rw [bsm_sense]
    split_ifs <;> rfl
  | rcvChain chain => exact chainRcv_sense d s chain
  | sendChain chain => exact chainSend_sense d s chain
  | qri =>
    show (qriChainRcv d s).sense = (if _ then _ else none : Option UInt32).getD d.sense
    rw [qriChainRcv_sense]
    split_ifs <;> rfl

theorem stateChk_output_sense (m : Machine) (d : DfcState) (s : Skb) :
    (m.stateChk d s true).2.sense = (m.outputSense d s).getD d.sense := by
  cases m with
  | bracket signal => exact record_sense d _
  | rcvChain chain => exact record_sense d _
  | sendChain chain => exact record_sense d _
  | qri =>
    show (if _ then _ else _ : DfcState).sense = (if _ then _ else none : Option UInt32).getD _
    split_ifs with h h' h'
    · rfl
    · exact absurd h.1 h'
    · exact absurd ⟨h', rfl⟩ h
    · rfl

/-- Without output a check changes nothing. -/
theorem stateChk_unchanged (m : Machine) (d : DfcState) (s : Skb) :
    (m.stateChk d s false).2 = d := by
  cases m with
  | bracket signal => rfl
  | rcvChain chain => rfl
  | sendChain chain => rfl
  | qri => exact if_neg fun h => nomatch h.2

/-- The checks do not look at the sense code. -/
theorem outputSense_congr (m : Machine) (d : DfcState) (s : Skb) (before : UInt32) :
    m.outputSense { d with sense := before } s = m.outputSense d s := by
  cases m <;> rfl

theorem stepSense_congr (m : Machine) (d : DfcState) (s : Skb) (before : UInt32) :
    m.stepSense { d with sense := before } s = m.stepSense d s := by
  cases m <;> rfl

/-- Check and machine agree if the check returns an error where there is a sense code. -/
theorem agrees_iff_isSome (m : Machine) (d : DfcState) (s : Skb) :
    m.Agrees d s ↔ (m.stateChk d s false).1 = (m.stepSense d s).isSome ∧
      (m.stateChk d s false).1 = (m.outputSense d s).isSome := by
  have hs := records_iff (d := d) (m.step_sense · s) (m.stepSense_congr · s)
  have ho := records_iff (d := d) (m.stateChk_output_sense · s) (m.outputSense_congr · s)
  constructor
  · intro h
    exact ⟨Bool.eq_iff_iff.mpr (h.step.trans hs), Bool.eq_iff_iff.mpr (h.output.trans ho)⟩
  · rintro ⟨h₁, h₂⟩
    refine ⟨m.stateChk_unchanged d s, ?_, ?_, fun h => ?_⟩
    · rw [h₁]
      exact hs.symm
    · rw [h₂]
      exact ho.symm
    · apply spares_of_none (m.step_sense · s) (m.stepSense_congr · s)
      apply Option.not_isSome_iff_eq_none.mp
      rw [← h₁, h]
      exact nofun

end Machine

/-- The bracket check has a sense code for what it finds. -/
theorem bsmStateChk_of (h : betweenBrackets d s) : bsmStateChk d s = some (some 0x20030000) := by
  unfold bsmStateChk
  obtain ⟨hd, hr, hb, hn, hf⟩ := h
  rw [if_pos ⟨hd, hr⟩]
  split_ifs <;> grind

theorem bsmStateChk_of_not (h : ¬ betweenBrackets d s) : bsmStateChk d s = none := by
  unfold bsmStateChk
  unfold betweenBrackets at h
  split_ifs <;> grind

/-- What the check of received chains finds without a sense code -/
theorem chainRcvStateChk_eq_some_none {chain : ChainInd} :
    chainRcvStateChk d s chain = some none ↔ untimelyRsp d s := by
  unfold chainRcvStateChk untimelyRsp
  cases d.direction with
  | inbound =>
    dsimp only
    split_ifs <;> cases d.chainRcvState <;> simp
  | outbound =>
    dsimp only
    split_ifs with h
    · cases d.chainRcvState <;> simp [h]
    · simp only [true_and, false_iff]
      rintro ⟨hr, ht, hf, -⟩
      exact h ⟨hr, ht, hf⟩

theorem StateChk.isSome_eq_sense_iff (c : StateChk) :
    c.isSome = c.sense.isSome ↔ c ≠ some none := by
  match c with
  | none => simp [StateChk.sense]
  | some none => simp [StateChk.sense]
  | some (some _) => simp [StateChk.sense]

theorem qriStateError_iff : qriStateError d s = true ↔ otherQri d s := by
  simp only [qriStateError, otherQri, Bool.and_eq_true, decide_eq_true_eq, and_assoc]

/-- A state check and its machine agree exactly on what does not bring up a difference. -/
theorem agrees_iff (m : Machine) (d : DfcState) (s : Skb) : m.Agrees d s ↔ m.Alike d s := by
  rw [m.agrees_iff_isSome]
  cases m with
  | bracket signal =>
    show (bsmStateChk d s).isSome = (if signal = .none then (bsmStateChk d s).sense else none).isSome ∧
      (bsmStateChk d s).isSome = (bsmStateChk d s).sense.isSome ↔ signal = .none ∨ ¬ betweenBrackets d s
    by_cases hb : betweenBrackets d s
    · rw [bsmStateChk_of hb]
      split_ifs with h
      · exact iff_of_true ⟨rfl, rfl⟩ (.inl h)
      · exact iff_of_false (fun hc => nomatch hc.1) (not_or.mpr ⟨h, not_not.mpr hb⟩)
    · rw [bsmStateChk_of_not hb]
      split_ifs <;> exact iff_of_true ⟨rfl, rfl⟩ (.inr hb)
  | rcvChain chain =>
    show (chainRcvStateChk d s chain).isSome = (chainRcvStateChk d s chain).sense.isSome ∧
      (chainRcvStateChk d s chain).isSome = (chainRcvStateChk d s chain).sense.isSome ↔ _
    rw [and_self, StateChk.isSome_eq_sense_iff, ne_eq, chainRcvStateChk_eq_some_none]
    rfl
  | sendChain chain =>
    show (chainSendStateChk d s).isSome = (chainSendStateChk d s).sense.isSome ∧
      (chainSendStateChk d s).isSome = (chainSendStateChk d s).sense.isSome ↔ True
    rw [and_self, StateChk.isSome_eq_sense_iff, iff_true]
    rcases chainSendStateChk_cases d s with h | h
    · rw [h]
      exact nofun
    · rw [h]
      exact nofun
  | qri =>
    show false = (if qriStateError d s then some qriOutputR else none).isSome ∧
      false = (if qriStateError d s then some qriOutputR else none).isSome ↔ ¬ otherQri d s
    rw [and_self, ← qriStateError_iff]
    cases qriStateError d s with
    | false => simp
    | true => simp

/-- A half-session that is receiving a chain without QRI -/
def inChain : DfcState :=
  { (opened .bidder).hs.dfc with direction := .inbound, qriChainRcvState := .incNotQr }

/-- The machine and the check with output record an error for a QRI in such a chain, but the check
returns 0. -/
theorem qriStateChk_returns_0 :
    ¬ (∀ (m : Machine) (d : DfcState) (s : Skb), m.Agrees d s) ∧
      (Machine.qri.stateChk inChain { chainEnd with qri := true } false).1 = false ∧
      (Machine.qri.stateChk inChain { chainEnd with qri := true } true).2.sense = 0x200B0000 ∧
      (Machine.qri.step inChain { chainEnd with qri := true }).sense = 0x200B0000 := by
  refine ⟨fun h => ?_, by decide, by decide, by decide⟩
  have hs := (h .qri inChain { chainEnd with qri := true }).step
  have hr : Records (Machine.qri.step · { chainEnd with qri := true }) inChain :=
    ⟨0x200B0000, fun _ => rfl⟩
  exact absurd (hs.mpr hr) (by decide)

end LinuxSna.Dfc
