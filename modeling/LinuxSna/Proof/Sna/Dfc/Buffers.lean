import LinuxSna.Impl.Sna.Dfc.Receive

/-!
# Buffers in data flow control

What `sna_dfc_rx` makes of the buffer that it is given. The responses that it accepts
and the headers that only the resource manager is to get are lost; a request that confirms
is freed before its data are processed.

* `rcvRequest_once_iff`: a normal-flow request;
* `rxSkb_once_iff`: any MU.
-/

namespace LinuxSna.Dfc

open Framework (Fate)
open Framework.Fate
open Hs (HsType HsCb Skb)

variable {hs : HsCb} {d d' : DfcState} {s : Skb} {e : Env}

/-- A function management header that presentation services do not get. -/
def isLostHeader (s : Skb) : Bool := s.fi && s.ru = .fmd && s.fmhType ≠ fmhType7

/-- A buffer is freed twice or lost: the MU has no format error, and it is a request that
confirms but is not such a header, or such a header and does not confirm; an expedited
request of which the response cannot be sent; or a response that is accepted. -/
def Mislays (hs : HsCb) (s : Skb) (e : Env) : Prop :=
  let d := inbound hs.dfc s
  (formatError d hs.type s).sense = 0 ∧
    match s.rri, s.efi with
    | .req, .norm =>
      e.cloned = true ∧ d.rcvPurgeState ≠ .purge ∧ s.bbi = false ∧ isBidRequest s = false ∧
        isReply d s ≠ isLostHeader s
    | .req, .exp => e.tx.fate = .dropped
    | .rsp, _ =>
      isStray d s = false ∧ (rcvStateError d hs.type s).1 = false ∧ e.cloned = true

/-! ## The format checks -/

/-- The format checks set the sense code and nothing else. -/
theorem formatError_eq (d : DfcState) (type : HsType) (s : Skb) :
    formatError d type s = { d with sense := (formatError d type s).sense } := by
  unfold formatError
  split <;> rfl

@[simp] theorem direction_inbound (d : DfcState) (s : Skb) : (inbound d s).direction = .inbound := by
  unfold inbound
  dsimp only
  split_ifs <;> rfl

/-- Whether there is a state error does not depend on the sense code. -/
theorem rcvStateError_sense (sense : UInt32) (type : HsType) (h : s.rri = .rsp) :
    (rcvStateError { d with sense := sense } type s).1 = (rcvStateError d type s).1 := by
  unfold rcvStateError
  rw [h]
  cases s.efi with
  | norm =>
    dsimp only
    have hi : invalidSenseCode { d with sense := sense } type s = invalidSenseCode d type s := rfl
    have hc : chainSendStateChk { d with sense := sense } s = chainSendStateChk d s := rfl
    rw [hi, hc]
    split_ifs <;> first | rfl | (unfold DfcState.check; split_ifs <;> rfl)
  | exp =>
    dsimp only
    split_ifs <;> rfl

/-! ## Requests on the normal flow -/

/-- What the test for a reply depends on is the same. -/
structure SameReply (d d' : DfcState) : Prop where
  direction : d'.direction = d.direction
  chainRcvState : d'.chainRcvState = d.chainRcvState
  chainSendState : d'.chainSendState = d.chainSendState
  bsmState : d'.bsmState = d.bsmState
  currentBracket : d'.currentBracket = d.currentBracket
  rh : d'.ctSend.rh = d.ctSend.rh
  snf : d'.ctSend.snf = d.ctSend.snf

namespace SameReply

theorem trans {d'' : DfcState} (h : SameReply d d') (h' : SameReply d' d'') : SameReply d d'' :=
  ⟨h'.1.trans h.1, h'.2.trans h.2, h'.3.trans h.3, h'.4.trans h.4, h'.5.trans h.5, h'.6.trans h.6,
    h'.7.trans h.7⟩

theorem isReply (h : SameReply d d') (s : Skb) : Dfc.isReply d' s = Dfc.isReply d s := by
  unfold Dfc.isReply okToReply
  rw [h.direction, h.chainRcvState, h.chainSendState, h.bsmState, h.currentBracket, h.rh, h.snf]

theorem countRequest (d : DfcState) : SameReply d (countRequest d) := by
  unfold Dfc.countRequest
  split_ifs <;> exact ⟨rfl, rfl, rfl, rfl, rfl, rfl, rfl⟩

theorem ctUpdate (h : d.direction = .inbound) (s : Skb) : SameReply d (ctUpdate d s) := by
  unfold Dfc.ctUpdate
  rw [h]
  exact ⟨h.symm, rfl, rfl, rfl, rfl, rfl, rfl⟩

theorem noteBracket (d : DfcState) (type : HsType) (s : Skb) : SameReply d (noteBracket d type s) := by
  unfold Dfc.noteBracket
  split_ifs with hb
  · exact ⟨rfl, rfl, rfl, rfl, rfl, rfl, rfl⟩
  · split <;> exact ⟨rfl, rfl, rfl, rfl, rfl, rfl, rfl⟩

end SameReply

theorem rcvPurgeState_countRequest (d : DfcState) :
    (countRequest d).rcvPurgeState = d.rcvPurgeState := by
  unfold countRequest
  split_ifs <;> rfl

theorem rcvPurgeState_ctUpdate (d : DfcState) (s : Skb) :
    (ctUpdate d s).rcvPurgeState = d.rcvPurgeState := by
  unfold ctUpdate
  split <;> rfl

theorem rcvPurgeState_noteBracket (d : DfcState) (type : HsType) (s : Skb) :
    (noteBracket d type s).rcvPurgeState = d.rcvPurgeState := by
  unfold noteBracket
  split_ifs
  · rfl
  · split <;> rfl

theorem sendToPs_once (s : Skb) (conversation : Bool) : (sendToPs s conversation).1.Once := by
  cases conversation <;> rfl

/-- The data of a request are dropped with some headers, and else they are queued or freed. -/
theorem processRuData_lost (type : HsType) (conversation : Bool) (h : isLostHeader s = true) :
    (processRuData d type s conversation).2.1 = .dropped := by
  simp only [isLostHeader, Bool.and_eq_true, decide_eq_true_eq] at h
  unfold processRuData
  rw [if_pos h.1]
  by_cases h5 : s.fmhType = fmhType5
  · rw [if_pos h5]
  · rw [if_neg h5, if_neg h.2]
    split <;> rfl

theorem processRuData_once (type : HsType) (conversation : Bool) (h : isLostHeader s = false) :
    (processRuData d type s conversation).2.1.Once := by
  unfold processRuData
  by_cases hf : s.fi ∧ s.ru = .fmd
  · have h7 : s.fmhType = fmhType7 := by
      by_contra h7
      simp [isLostHeader, hf.1, hf.2, h7] at h
    have h5 : s.fmhType ≠ fmhType5 := by rw [h7]; decide
    rw [if_pos hf, if_neg h5, if_pos h7]
    exact sendToPs_once s conversation
  · rw [if_neg hf]
    split_ifs
    · exact sendToPs_once s conversation
    · exact once_free

theorem generateRmPsInputs_once_iff (d : DfcState) (type : HsType) (s : Skb) (conversation : Bool) :
    (generateRmPsInputs d type s conversation).2.1.Once ↔
      s.bbi = true ∨ isBidRequest s = true ∨ isReply d s = isLostHeader s := by
  unfold generateRmPsInputs
  by_cases hb : s.bbi = true
  · rw [if_pos hb]
    exact iff_of_true once_free (.inl hb)
  rw [if_neg hb, or_iff_right hb]
  by_cases hr : isBidRequest s = true
  · rw [if_pos hr]
    exact iff_of_true once_free (.inl hr)
  rw [if_neg hr, or_iff_right hr]
  dsimp only
  cases hl : isLostHeader s with
  | true =>
    rw [processRuData_lost type conversation hl]
    cases isReply d s <;> decide
  | false =>
    have ho := processRuData_once (d := d) type conversation hl
    cases isReply d s with
    | true =>
      rw [if_pos rfl, once_free_add]
      refine iff_of_false (fun hd => ?_) nofun
      rw [hd] at ho
      exact not_once_dropped ho
    | false =>
      rw [if_neg nofun, dropped_add]
      exact iff_of_true ho rfl

theorem rcvRequest_once_iff (h : hs.dfc.direction = .inbound) (s : Skb) (e : Env) :
    (rcvRequest hs s e).fate.Once ↔
      hs.dfc.rcvPurgeState = .purge ∨ s.bbi = true ∨ isBidRequest s = true ∨
        isReply hs.dfc s = isLostHeader s := by
  have hc := SameReply.countRequest hs.dfc
  have hu := hc.trans (SameReply.ctUpdate (hc.direction.trans h) s)
  have hn := hu.trans (SameReply.noteBracket _ hs.type s)
  unfold rcvRequest
  dsimp only
  rw [rcvPurgeState_noteBracket, rcvPurgeState_ctUpdate, rcvPurgeState_countRequest]
  by_cases hp : hs.dfc.rcvPurgeState = .purge
  · rw [if_neg (not_not.mpr hp)]
    exact iff_of_true once_free (.inl hp)
  · rw [if_pos hp, generateRmPsInputs_once_iff, hn.isReply, or_iff_right hp]

/-! ## Responses -/

/-- The response to a request is one on the normal flow, without the QRI. -/
theorem sendMuFate_rspMu (tc : Hs) (s : Skb) (tx : TxPath) :
    sendMuFate (tc.stamp (rspMu s).toMu).1 (tc.stamp (rspMu s).toMu).2 tx = tx.fate := by
  have he : (tc.stamp (rspMu s).toMu).2.efi = .norm := rfl
  have hr : (tc.stamp (rspMu s).toMu).2.rri = .rsp := rfl
  have hq : (tc.stamp (rspMu s).toMu).2.qri = false := rfl
  unfold sendMuFate
  rw [if_neg (not_not.mpr he), hr, if_neg nofun, if_pos (.inr (.inr hq))]

/-- A positive response passes the check of the receive chain. -/
theorem chainRcvStateChk_rspMu (h : d.direction = .outbound) (s : Skb) :
    chainRcvStateChk d (rspMu s) .none = none := by
  unfold chainRcvStateChk
  rw [h]
  dsimp only
  rw [if_neg fun hr => nomatch hr.2.1]

/-- The buffer of a request that is answered goes where its response goes. -/
theorem sendRspMu_fate (hs : HsCb) (s : Skb) (tx : TxPath) : (sendRspMu hs s tx).fate = tx.fate := by
  unfold sendRspMu
  dsimp only
  simp only [chainRcvStateChk_rspMu, Option.isNone_none, ↓reduceIte]
  exact sendMuFate_rspMu hs.tc s tx

theorem once_txFate_iff (tx : TxPath) : tx.fate.Once ↔ tx.fate ≠ .dropped := by
  cases tx with
  | noPc => decide
  | refused err => exact iff_of_false not_once_dropped (not_not.mpr rfl)
  | taken err => exact iff_of_true once_queue nofun

theorem rcvResponse_fate (hs : HsCb) (s : Skb) : (rcvResponse hs s).fate = .dropped := by
  unfold rcvResponse
  split <;> rfl

theorem strayRsp_fst (d : DfcState) (s : Skb) : (strayRsp d s).1 = isStray d s := by
  unfold strayRsp
  cases isStray d s with
  | true => rw [if_pos rfl]; split_ifs <;> rfl
  | false => rfl

theorem strayRsp_of_not (h : isStray d s = false) : strayRsp d s = (false, d) := by
  unfold strayRsp
  rw [h, if_neg nofun]

/-! ## Any MU -/

theorem rcvFsms_request_once_iff (hd : hs.dfc.direction = .inbound) (hr : s.rri = .req)
    (he : s.efi = .norm) (e : Env) :
    (rcvFsms hs s e).fate.Once ↔
      e.cloned = false ∨ hs.dfc.rcvPurgeState = .purge ∨ s.bbi = true ∨ isBidRequest s = true ∨
        isReply hs.dfc s = isLostHeader s := by
  have hn : rcvStateError hs.dfc hs.type s = (false, hs.dfc) := by
    unfold rcvStateError
    rw [hr, he]
  unfold rcvFsms
  rw [hn]
  dsimp only
  rw [if_neg nofun]
  cases hc : e.cloned with
  | false =>
    rw [if_pos rfl]
    exact iff_of_true once_free (.inl rfl)
  | true =>
    rw [if_neg nofun, or_iff_right nofun, hr, he]
    refine (rcvRequest_once_iff ?_ s e).trans Iff.rfl
    exact hd

theorem rcvFsms_response_once_iff (hr : s.rri = .rsp) (e : Env) :
    (rcvFsms hs s e).fate.Once ↔
      (rcvStateError hs.dfc hs.type s).1 = true ∨ e.cloned = false := by
  unfold rcvFsms
  dsimp only
  cases hs' : (rcvStateError hs.dfc hs.type s).1 with
  | true =>
    rw [if_pos rfl]
    exact iff_of_true once_free (.inl rfl)
  | false =>
    rw [if_neg nofun, or_iff_right nofun]
    cases hc : e.cloned with
    | false =>
      rw [if_pos rfl]
      exact iff_of_true once_free rfl
    | true =>
      rw [if_neg nofun, hr]
      dsimp only
      rw [rcvResponse_fate]
      exact iff_of_false not_once_dropped nofun

/-- Data flow control frees or queues a buffer once exactly if it does not take one of the
branches that lose it or free it twice. -/
theorem rxSkb_once_iff (hs : HsCb) (s : Skb) (e : Env) :
    (rxSkb hs s e).fate.Once ↔ ¬ Mislays hs s e := by
  have hd := direction_inbound hs.dfc s
  unfold rxSkb Mislays
  dsimp only
  generalize inbound hs.dfc s = d at hd ⊢
  have hf := formatError_eq d hs.type s
  generalize formatError d hs.type s = d' at hf ⊢
  by_cases hz : d'.sense = 0
  · have hd' : d'.direction = .inbound := by rw [hf]; exact hd
    rw [if_neg (not_not.mpr hz), not_and, iff_comm, imp_iff_right hz, iff_comm]
    cases hr : s.rri with
    | req =>
      cases he : s.efi with
      | norm =>
        dsimp only
        have hp : d'.rcvPurgeState = d.rcvPurgeState := by rw [hf]
        have hi : isReply d' s = isReply d s := by rw [hf]; rfl
        rw [rcvFsms_request_once_iff hd' hr he]
        dsimp only
        rw [hp, hi]
        simp only [ne_eq, not_and_or, not_not, Bool.not_eq_true, Bool.not_eq_false]
      | exp =>
        dsimp only
        rw [sendRspMu_fate, once_txFate_iff]
    | rsp =>
      dsimp only
      have hs' : isStray d' s = isStray d s := by rw [hf]; rfl
      have hi : (rcvStateError d' hs.type s).1 = (rcvStateError d hs.type s).1 := by
        rw [hf, rcvStateError_sense d'.sense hs.type hr]
      rw [strayRsp_fst, ← hs']
      cases hy : isStray d' s with
      | true =>
        rw [if_pos rfl]
        exact iff_of_true once_free nofun
      | false =>
        rw [if_neg nofun, strayRsp_of_not hy]
        dsimp only
        rw [rcvFsms_response_once_iff hr, hi]
        cases (rcvStateError d hs.type s).1 <;> cases e.cloned <;> simp
  · rw [if_pos hz]
    exact iff_of_true once_free fun h => hz h.1

end LinuxSna.Dfc
