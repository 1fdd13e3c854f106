import LinuxSna.Proof.Sna.Dfc.Chains
import LinuxSna.Proof.Sna.Dfc.Reachable

/-!
# The sense code of a half-session

The checks of a received MU write their verdict into the half-session, and `sna_dfc_rx`
reads it from there. Nothing clears it: after the first rejection no request is delivered
any more, and the initialisation for the next session leaves it.

* `not_delivers_of_sense`, `rejects_sense`: what is rejected sets the code, with which
  nothing is delivered;
* `verdict_congr`: without it, the verdict depends on the MU and the state of the protocol;
* `unpoisoned_iff`, `judgesAsFresh_iff`: when a rejection, or a session before, makes no
  difference.
-/

namespace LinuxSna.Dfc

open Framework (Fate)
open Hs (Bind HsCb HsType Skb)

variable {hs hs' : HsCb} {d d' : DfcState} {s : Skb} {e : Env}

/-! ## Rejections -/

/-- `sna_dfc_rx` rejects the MU for a format error, or it gives it to `sna_dfc_rcv_fsms`
and that finds a state error. -/
def Rejects (hs : HsCb) (s : Skb) : Prop :=
  (checked hs s).dfc.sense ≠ 0 ∨
    (s.rri = .req → s.efi = .norm) ∧ (s.rri = .rsp → isStray (checked hs s).dfc s = false) ∧
      (rcvStateError (checked hs s).dfc hs.type s).1 = true

/-- One of a series of checks. -/
theorem ite_ne_zero {p : Prop} [Decidable p] {c : UInt32} {x : Option UInt32} (hc : c ≠ 0)
    (hx : x ≠ some 0) : (if p then some c else x) ≠ some 0 := by
  split_ifs
  · exact fun h => hc (Option.some.inj h)
  · exact hx

theorem formatErrorReqFmd_ne_zero (type : HsType) (s : Skb) : formatErrorReqFmd type s ≠ some 0 := by
  unfold formatErrorReqFmd
  iterate 16 refine ite_ne_zero (by decide) ?_
  split
  · split
    · exact ite_ne_zero (by decide) nofun
    · decide
  · exact nofun

theorem formatErrorReqDfc_ne_zero (d : DfcState) (type : HsType) (s : Skb) :
    formatErrorReqDfc d type s ≠ some 0 := by
  unfold formatErrorReqDfc
  iterate 8 refine ite_ne_zero (by decide) ?_
  split
  · split
    · exact formatErrorReqFmd_ne_zero type s
    · exact ite_ne_zero (by decide) nofun
  · iterate 4 refine ite_ne_zero (by decide) ?_
    exact nofun

theorem setSense_ne_zero (h : d.sense ≠ 0) {sense : Option UInt32} (hn : sense ≠ some 0) :
    (d.setSense sense).sense ≠ 0 := by
  cases sense with
  | none => exact h
  | some c => exact fun hc => hn (congrArg some hc)

/-- The checks of a request do not take back what is set. -/
theorem checked_sense_ne (hr : s.rri = .req) (h : hs.dfc.sense ≠ 0) :
    (checked hs s).dfc.sense ≠ 0 := by
  have hi : (inbound hs.dfc s).sense ≠ 0 := by
    rw [inbound_eq]
    exact h
  unfold checked formatError
  rw [hr]
  cases s.ru with
  | fmd => exact setSense_ne_zero hi (formatErrorReqFmd_ne_zero hs.type s)
  | dfc => exact setSense_ne_zero hi (formatErrorReqDfc_ne_zero _ hs.type s)
  | nc => exact hi
  | sc => exact hi

theorem chainSendStateChk_cases (d : DfcState) (s : Skb) :
    chainSendStateChk d s = none ∨ chainSendStateChk d s = some (some chainSendOutputR) := by
  unfold chainSendStateChk
  split_ifs <;> first | exact .inl rfl | (split <;> first | exact .inl rfl | exact .inr rfl)

/-- A state error of a response is one with a sense code. -/
theorem rcvStateError_sense_ne (type : HsType) (hr : s.rri = .rsp)
    (h : (rcvStateError d type s).1 = true) : (rcvStateError d type s).2.sense ≠ 0 := by
  have hc : (d.check (chainSendStateChk d s) (false, d)).1 = true →
      (d.check (chainSendStateChk d s) (false, d)).2.sense ≠ 0 := by
    rcases chainSendStateChk_cases d s with h | h
    · rw [h]
      exact fun h => nomatch h
    · rw [h]
      exact fun _ => show chainSendOutputR ≠ 0 by decide
  have hn {c : UInt32} (hc : c ≠ 0) : (d.error c).2.sense ≠ 0 := hc
  unfold rcvStateError at h ⊢
  rw [hr] at h ⊢
  cases he : s.efi with
  | norm =>
    rw [he] at h
    dsimp only at h ⊢
    split_ifs at h ⊢ <;> first | exact hc h | exact hn (by decide)
  | exp =>
    rw [he] at h
    dsimp only at h ⊢
    split_ifs at h ⊢
    exact hn (by decide)

/-- A response that is not stray goes to the state machines. -/
theorem rxSkb_response (hr : s.rri = .rsp) (hz : (checked hs s).dfc.sense = 0)
    (hn : isStray (checked hs s).dfc s = false) (e : Env) :
    rxSkb hs s e = { rcvFsms (checked hs s) s e with err := 0 } := by
  have hz : ¬ (formatError (inbound hs.dfc s) hs.type s).sense ≠ 0 := not_not.mpr hz
  have hs : strayRsp (formatError (inbound hs.dfc s) hs.type s) s = (false, _) := strayRsp_of_not hn
  unfold rxSkb
  dsimp only
  rw [if_neg hz, hr]
  dsimp only
  rw [hs, if_neg nofun]
  rfl

/-- What is rejected leaves a sense code. -/
theorem rejects_sense (h : Rejects hs s) (e : Env) : (rxSkb hs s e).hs.dfc.sense ≠ 0 := by
  by_cases hz : (checked hs s).dfc.sense = 0
  · obtain ⟨hq, hy, hf⟩ := h.resolve_left (not_not.mpr hz)
    cases hr : s.rri with
    | req =>
      rw [rcvStateError_request _ _ hr (hq hr)] at hf
      exact nomatch hf
    | rsp =>
      have hf' : (rcvStateError (checked hs s).dfc (checked hs s).type s).1 = true := hf
      rw [rxSkb_response hr hz (hy hr)]
      unfold rcvFsms
      dsimp only
      rw [if_pos hf']
      exact rcvStateError_sense_ne _ hr hf
  · have hz' : (formatError (inbound hs.dfc s) hs.type s).sense ≠ 0 := hz
    unfold rxSkb
    dsimp only
    rw [if_pos hz']
    exact hz

/-! ## Deliveries -/

theorem rcvResponse_out (hs : HsCb) (s : Skb) : (rcvResponse hs s).out = [] := by
  unfold rcvResponse
  split <;> rfl

theorem rcvFsms_response_out (hs : HsCb) (hr : s.rri = .rsp) (e : Env) :
    (rcvFsms hs s e).out = [] := by
  unfold rcvFsms
  dsimp only
  split
  · rfl
  split
  · rfl
  · rw [hr]
    exact rcvResponse_out _ s

/-- What is delivered is a normal-flow request that passes the format checks. -/
theorem Done.Delivers.formatted (h : (rxSkb hs s e).Delivers) : IsFormatted hs s := by
  obtain ⟨o, ho, hn⟩ := h
  by_cases hz : (checked hs s).dfc.sense = 0
  · have hz' : ¬ (formatError (inbound hs.dfc s) hs.type s).sense ≠ 0 := not_not.mpr hz
    cases hr : s.rri with
    | req =>
      cases he : s.efi with
      | norm => exact ⟨hr, he, hz⟩
      | exp =>
        unfold rxSkb at ho
        dsimp only at ho
        rw [if_neg hz', hr, he, sendRspMu_out] at ho
        obtain ⟨m, -, rfl⟩ := List.mem_map.mp ho
        exact absurd rfl (hn m)
    | rsp =>
      cases hy : isStray (checked hs s).dfc s with
      | true =>
        have hy' : (strayRsp (formatError (inbound hs.dfc s) hs.type s) s).1 = true :=
          (strayRsp_fst _ s).trans hy
        unfold rxSkb at ho
        dsimp only at ho
        rw [if_neg hz', hr] at ho
        dsimp only at ho
        rw [if_pos hy'] at ho
        exact absurd ho List.not_mem_nil
      | false =>
        rw [rxSkb_response hr hz hy] at ho
        dsimp only at ho
        rw [rcvFsms_response_out _ hr] at ho
        exact absurd ho List.not_mem_nil
  · have hz' : (formatError (inbound hs.dfc s) hs.type s).sense ≠ 0 := hz
    unfold rxSkb at ho
    dsimp only at ho
    rw [if_pos hz'] at ho
    exact absurd ho List.not_mem_nil

/-- With a sense code set, nothing is delivered. -/
theorem not_delivers_of_sense (h : hs.dfc.sense ≠ 0) (s : Skb) (e : Env) :
    ¬ (rxSkb hs s e).Delivers := fun hd =>
  checked_sense_ne hd.formatted.1 h hd.formatted.2.2

/-- What `sna_dfc_rcv_fsms` notes of a request before it is handed on. -/
def noted (hs : HsCb) (s : Skb) : DfcState :=
  noteBracket (ctUpdate (countRequest hs.dfc) s) hs.type s

theorem steady_noted (hs : HsCb) (s : Skb) : Steady hs.dfc (noted hs s) :=
  ((Steady.countRequest hs.dfc).trans (.ctUpdate _ s)).trans (.noteBracket _ hs.type s)

/-- A request is handed on when nothing is purged. -/
theorem rcvRequest_eq (hp : hs.dfc.rcvPurgeState ≠ .purge) (s : Skb) (e : Env) :
    rcvRequest hs s e =
      let r := generateRmPsInputs (noted hs s) hs.type s e.conversation
      let t := sendRspIfRequired { hs with dfc := rcvStep r.1 s } s e.tx
      ⟨0, t.1, r.2.1, r.2.2 ++ t.2⟩ := by
  have hn : (noteBracket (ctUpdate (countRequest hs.dfc) s) hs.type s).rcvPurgeState ≠ .purge :=
    (steady_noted hs s).purge hp
  unfold rcvRequest
  dsimp only
  rw [if_pos hn]
  rfl

/-- The end of a chain is delivered wherever no sense code is set. -/
theorem delivers_chainEnd (h : hs.dfc.sense = 0) (hp : hs.dfc.rcvPurgeState ≠ .purge) :
    (rxSkb hs chainEnd plentyEnv).Delivers := by
  have hf : formatErrorReqFmd hs.type chainEnd = none := by cases hs.type <;> decide
  have hi : (inbound hs.dfc chainEnd).sense = 0 := by
    rw [inbound_eq]
    exact h
  have hc : IsFormatted hs chainEnd := by
    refine ⟨rfl, rfl, ?_⟩
    show ((inbound hs.dfc chainEnd).setSense (formatErrorReqFmd hs.type chainEnd)).sense = 0
    rw [hf]
    exact hi
  have hk : (checked hs chainEnd).dfc.rcvPurgeState ≠ .purge := by
    obtain ⟨sense, ct, hc⟩ := checked_eq hs chainEnd
    rw [hc]
    exact hp
  have hk : (recorded (checked hs chainEnd) chainEnd).dfc.rcvPurgeState ≠ .purge := hk
  rw [rxSkb_request hc, rcvFsms_request _ rfl rfl, if_neg (by decide), rcvRequest_eq hk]
  exact ⟨_, List.mem_append_left _ (List.mem_singleton_self _), fun m hm => nomatch hm⟩

/-- A request that asks for no response in any form. -/
def noForm : Skb := { newMu with dr1i := false, rti := false, beyond := [], addr := 0 }

theorem rejects_noForm (hs : HsCb) : Rejects hs noForm := by
  have hf : formatErrorReqFmd hs.type noForm = some 0x40140000 := by cases hs.type <;> decide
  refine .inl ?_
  show ((inbound hs.dfc noForm).setSense (formatErrorReqFmd hs.type noForm)).sense ≠ 0
  rw [hf]
  exact show (0x40140000 : UInt32) ≠ 0 by decide

/-- An MU that is rejected makes no difference to the delivery of another one. -/
def Unpoisoned (hs : HsCb) : Prop :=
  ∀ s₁ e₁ s₂ e₂, Rejects hs s₁ → (rxSkb hs s₂ e₂).Delivers →
    (rxSkb (rxSkb hs s₁ e₁).hs s₂ e₂).Delivers

/-- A rejection makes no difference only where nothing is delivered any more. -/
theorem unpoisoned_iff (hp : hs.dfc.rcvPurgeState ≠ .purge) : Unpoisoned hs ↔ hs.dfc.sense ≠ 0 := by
  constructor
  · intro h hz
    have hd := h noForm plentyEnv chainEnd plentyEnv (rejects_noForm hs) (delivers_chainEnd hz hp)
    exact not_delivers_of_sense (rejects_sense (rejects_noForm hs) plentyEnv) _ _ hd
  · intro h s₁ e₁ s₂ e₂ _ hd
    exact absurd hd (not_delivers_of_sense h s₂ e₂)

/-! ## What a verdict depends on -/

/-- What is returned, what becomes of the buffer, and what is handed on. -/
def Done.verdict (r : Done) : Int × Fate × List Out := (r.err, r.fate, r.out)

/-- No sense code is set, nothing is purged, no reply is awaited, and the states of the
protocol that a verdict depends on are the same. Of what has been sent, these are the category
and the QRI. -/
structure SameJudge (d d' : DfcState) : Prop where
  sense : d.sense = 0
  sense' : d'.sense = 0
  purge : d.rcvPurgeState ≠ .purge
  purge' : d'.rcvPurgeState ≠ .purge
  noReply : d.chainSendState ≠ .pendRcvReply
  chainSendState : d'.chainSendState = d.chainSendState
  chainRcvState : d'.chainRcvState = d.chainRcvState
  bsmState : d'.bsmState = d.bsmState
  sig : d'.sigRqOutstanding = d.sigRqOutstanding
  num : d'.currentBracket.num = d.currentBracket.num
  bbRspState : d'.bbRspState = d.bbRspState
  rtrRspState : d'.rtrRspState = d.rtrRspState
  ru : d'.ctSend.rh.ru = d.ctSend.rh.ru
  qri : d'.ctSend.rh.qri = d.ctSend.rh.qri
  rqCode : d'.ctSend.rqCode = d.ctSend.rqCode

/-- The format checks read the sense code and the request code. -/
theorem formatError_congr (type : HsType) (s : Skb) (h : d'.sense = d.sense)
    (hc : d'.ctRcv.rqCode = d.ctRcv.rqCode) :
    (formatError d' type s).sense = (formatError d type s).sense := by
  have hd : formatErrorReqDfc d' type s = formatErrorReqDfc d type s := by
    unfold formatErrorReqDfc
    rw [hc]
  have he : formatErrorExpRsp d' s = formatErrorExpRsp d s := by
    unfold formatErrorExpRsp
    rw [hc]
  have hs (sense : Option UInt32) : (d'.setSense sense).sense = (d.setSense sense).sense :=
    congrArg sense.getD h
  unfold formatError
  split
  · exact hs _
  · rw [hd]
    exact hs _
  · exact h
  · exact hs _
  · rw [he]
    exact hs _

theorem checked_rqCode (h : hs.dfc.sense = 0) (s : Skb) :
    (checked hs s).dfc.ctRcv.rqCode = rqCode s := by
  unfold checked
  dsimp only
  rw [formatError_eq]
  unfold inbound
  dsimp only
  rw [if_pos h]

theorem checked_sense_congr (h : SameJudge hs.dfc hs'.dfc) (ht : hs'.type = hs.type) (s : Skb) :
    (checked hs' s).dfc.sense = (checked hs s).dfc.sense := by
  have hi {d : DfcState} (hd : d.sense = 0) :
      (inbound d s).sense = 0 ∧ (inbound d s).ctRcv.rqCode = rqCode s := by
    unfold inbound
    dsimp only
    rw [if_pos hd]
    exact ⟨hd, rfl⟩
  have h₁ := hi h.sense
  have h₂ := hi h.sense'
  unfold checked
  dsimp only
  rw [ht]
  exact formatError_congr hs.type s (h₂.1.trans h₁.1.symm) (h₂.2.trans h₁.2.symm)

/-! ### Responses -/

theorem isStray_congr (h : SameJudge hs.dfc hs'.dfc) (s : Skb) :
    isStray (checked hs' s).dfc s = isStray (checked hs s).dfc s := by
  have hc := (checked_rqCode h.sense' s).trans (checked_rqCode h.sense s).symm
  obtain ⟨sense, ct, hd⟩ := checked_eq hs s
  obtain ⟨sense', ct', hd'⟩ := checked_eq hs' s
  rw [hd, hd'] at hc ⊢
  unfold isStray
  dsimp only at hc ⊢
  rw [hc, h.sig, h.num, h.bsmState]

theorem rcvStateError_congr (h : SameJudge hs.dfc hs'.dfc) (hr : s.rri = .rsp) (type : HsType) :
    (rcvStateError (checked hs' s).dfc type s).1 = (rcvStateError (checked hs s).dfc type s).1 := by
  have hc := (checked_rqCode h.sense' s).trans (checked_rqCode h.sense s).symm
  obtain ⟨sense, ct, hd⟩ := checked_eq hs s
  obtain ⟨sense', ct', hd'⟩ := checked_eq hs' s
  rw [hd, hd'] at hc ⊢
  dsimp only at hc
  unfold rcvStateError
  rw [hr]
  cases s.efi with
  | norm =>
    unfold invalidSenseCode chainSendStateChk
    dsimp only
    rw [h.ru, h.rqCode, hc, h.qri, h.bbRspState, h.rtrRspState, h.chainSendState]
    split_ifs <;> first | rfl | (unfold DfcState.check; split_ifs <;> rfl)
  | exp =>
    dsimp only
    rw [h.sig]
    split_ifs <;> rfl

theorem rcvFsms_response_verdict (hs : HsCb) (hr : s.rri = .rsp) (e : Env) :
    (rcvFsms hs s e).err = 0 ∧ (rcvFsms hs s e).out = [] ∧
      (rcvFsms hs s e).fate =
        if (rcvStateError hs.dfc hs.type s).1 ∨ e.cloned = false then .free else .dropped := by
  refine ⟨?_, rcvFsms_response_out hs hr e, ?_⟩ <;> unfold rcvFsms <;> dsimp only
  · split
    · rfl
    split
    · rfl
    · rw [hr]
      show (rcvResponse _ s).err = 0
      unfold rcvResponse
      split <;> rfl
  · by_cases he : (rcvStateError hs.dfc hs.type s).1 = true
    · rw [if_pos he, if_pos (.inl he)]
    rw [if_neg he]
    by_cases hc : e.cloned = false
    · rw [if_pos hc, if_pos (.inr hc)]
    rw [if_neg hc, if_neg (not_or.mpr ⟨he, hc⟩), hr]
    exact rcvResponse_fate _ s

/-! ### Requests -/

theorem not_isReply (hd : d.direction = .inbound) (hc : d.chainSendState ≠ .pendRcvReply) (s : Skb) :
    isReply d s = false := by
  have ho : okToReply d s = false := by
    have hi : d.direction = .inbound ∧ d.chainSendState ≠ .pendRcvReply := ⟨hd, hc⟩
    unfold okToReply
    rw [if_pos hi, ite_self, ite_self, ite_self]
  rw [isReply, ho, Bool.false_and]

theorem processRuData_snd (d d' : DfcState) (type : HsType) (s : Skb) (conversation : Bool) :
    (processRuData d type s conversation).2 = (processRuData d' type s conversation).2 := by
  unfold processRuData
  split_ifs <;> rfl

theorem generateRmPsInputs_snd (h : isReply d' s = isReply d s) (type : HsType)
    (conversation : Bool) :
    (generateRmPsInputs d' type s conversation).2 = (generateRmPsInputs d type s conversation).2 := by
  have hp := processRuData_snd d' d type s conversation
  unfold generateRmPsInputs
  split
  · rfl
  split
  · rfl
  · dsimp only
    rw [h, hp]

/-- A request on which no reply is awaited: what becomes of it, and what is handed on. -/
theorem rcvRequest_congr (ht : hs'.type = hs.type) (htc : hs'.tc = hs.tc)
    (hd : hs.dfc.direction = .inbound) (hd' : hs'.dfc.direction = .inbound)
    (hp : hs.dfc.rcvPurgeState ≠ .purge) (hp' : hs'.dfc.rcvPurgeState ≠ .purge)
    (hn : hs.dfc.chainSendState ≠ .pendRcvReply) (hn' : hs'.dfc.chainSendState ≠ .pendRcvReply)
    (hc : hs'.dfc.chainRcvState = hs.dfc.chainRcvState) (hr : s.rri = .req) (e : Env) :
    (rcvRequest hs' s e).verdict = (rcvRequest hs s e).verdict := by
  have hno {hs : HsCb} (hd : hs.dfc.direction = .inbound)
      (hn : hs.dfc.chainSendState ≠ .pendRcvReply) :
      SameReply hs.dfc (noted hs s) ∧ isReply (noted hs s) s = false := by
    have hs' := ((SameReply.countRequest hs.dfc).trans
      (SameReply.ctUpdate ((SameReply.countRequest hs.dfc).direction.trans hd) s)).trans
      (SameReply.noteBracket _ hs.type s)
    exact ⟨hs', (hs'.isReply s).trans (not_isReply hd hn s)⟩
  have hx {hs : HsCb} (hd : hs.dfc.direction = .inbound)
      (hn : hs.dfc.chainSendState ≠ .pendRcvReply) (type : HsType) :
      (rcvStep (generateRmPsInputs (noted hs s) type s e.conversation).1 s).chainRcvState =
        passed s hs.dfc.chainRcvState := by
    have hg := (SameChain.of_sameReply (hno hd hn).1).trans
      (SameChain.generateRmPsInputs _ type s e.conversation)
    rw [rcvStep_chainRcvState (hg.direction.trans hd) hr, hg.chainRcvState]
  have hg := generateRmPsInputs_snd ((hno hd' hn').2.trans (hno hd hn).2.symm) hs.type
    e.conversation
  rw [rcvRequest_eq hp', rcvRequest_eq hp]
  unfold Done.verdict
  dsimp only
  rw [sendRspIfRequired_out, sendRspIfRequired_out]
  dsimp only
  rw [hx hd' hn' hs'.type, hx hd hn hs.type, hc, htc, ht, hg]

/-! ### Any MU -/

theorem verdict_rejected (h : (checked hs s).dfc.sense ≠ 0) (e : Env) :
    (rxSkb hs s e).verdict = (-Hs.einval, .free, []) := by
  have h : (formatError (inbound hs.dfc s) hs.type s).sense ≠ 0 := h
  unfold rxSkb Done.verdict
  dsimp only
  rw [if_pos h]

theorem verdict_expedited (hr : s.rri = .req) (he : s.efi = .exp)
    (hz : (checked hs s).dfc.sense = 0) (e : Env) :
    (rxSkb hs s e).verdict =
      (0, e.tx.fate,
        ((hs.tc.stamp (rspMu s).toMu).1.sendMu (hs.tc.stamp (rspMu s).toMu).2 e.tx.pc).mus.map
          .pc) := by
  have hz : ¬ (formatError (inbound hs.dfc s) hs.type s).sense ≠ 0 := not_not.mpr hz
  unfold rxSkb Done.verdict
  dsimp only
  rw [if_neg hz, hr, he]
  dsimp only
  rw [sendRspMu_fate, sendRspMu_out]
  rfl

theorem verdict_stray (hr : s.rri = .rsp) (hz : (checked hs s).dfc.sense = 0)
    (hy : isStray (checked hs s).dfc s = true) (e : Env) :
    (rxSkb hs s e).verdict = (0, .free, []) := by
  have hz : ¬ (formatError (inbound hs.dfc s) hs.type s).sense ≠ 0 := not_not.mpr hz
  have hy : (strayRsp (formatError (inbound hs.dfc s) hs.type s) s).1 = true :=
    (strayRsp_fst _ s).trans hy
  unfold rxSkb Done.verdict
  dsimp only
  rw [if_neg hz, hr]
  dsimp only
  rw [if_pos hy]

theorem verdict_response (hr : s.rri = .rsp) (hz : (checked hs s).dfc.sense = 0)
    (hy : isStray (checked hs s).dfc s = false) (e : Env) :
    (rxSkb hs s e).verdict =
      (0, if (rcvStateError (checked hs s).dfc hs.type s).1 ∨ e.cloned = false then .free
        else .dropped, []) := by
  obtain ⟨-, ho, hf⟩ := rcvFsms_response_verdict (checked hs s) hr e
  rw [rxSkb_response hr hz hy]
  unfold Done.verdict
  dsimp only
  rw [ho, hf]
  rfl

/-- The format checks and the clone change nothing but fields of data flow control. -/
theorem recorded_checked (hs : HsCb) (s : Skb) :
    (recorded (checked hs s) s).type = hs.type ∧ (recorded (checked hs s) s).tc = hs.tc :=
  ⟨rfl, rfl⟩

theorem verdict_request_congr (h : SameJudge hs.dfc hs'.dfc) (ht : hs'.type = hs.type)
    (htc : hs'.tc = hs.tc) (hf : IsFormatted hs s) (hf' : IsFormatted hs' s) (e : Env) :
    (rxSkb hs' s e).verdict = (rxSkb hs s e).verdict := by
  obtain ⟨sense, ct, hd⟩ := checked_eq hs s
  obtain ⟨sense', ct', hd'⟩ := checked_eq hs' s
  rw [rxSkb_request hf, rxSkb_request hf', rcvFsms_request _ hf.1 hf.2.1,
    rcvFsms_request _ hf.1 hf.2.1]
  split_ifs
  · rfl
  · have hr := recorded_checked hs s
    have hr' := recorded_checked hs' s
    have hv : (rcvRequest (recorded (checked hs' s) s) s e).verdict =
        (rcvRequest (recorded (checked hs s) s) s e).verdict := by
      refine rcvRequest_congr ?_ ?_ ?_ ?_ ?_ ?_ ?_ ?_ ?_ hf.1 e
      · rw [hr.1, hr'.1, ht]
      · rw [hr.2, hr'.2, htc]
      all_goals
        simp only [recorded, hd, hd', h.chainSendState, h.chainRcvState, h.purge, h.purge',
          h.noReply, ne_eq, not_false_eq_true]
    exact congrArg (fun v => ((0 : Int), v.2)) hv

/-- Without a sense code, the verdict on an MU depends on the MU and the state of the
protocol. -/
theorem verdict_congr (h : SameJudge hs.dfc hs'.dfc) (ht : hs'.type = hs.type)
    (htc : hs'.tc = hs.tc) (s : Skb) (e : Env) :
    (rxSkb hs' s e).verdict = (rxSkb hs s e).verdict := by
  have hz := checked_sense_congr h ht s
  by_cases hs₀ : (checked hs s).dfc.sense = 0
  · have hs₀' := hz.trans hs₀
    cases hr : s.rri with
    | req =>
      cases he : s.efi with
      | norm => exact verdict_request_congr h ht htc ⟨hr, he, hs₀⟩ ⟨hr, he, hs₀'⟩ e
      | exp => rw [verdict_expedited hr he hs₀, verdict_expedited hr he hs₀', htc]
    | rsp =>
      have hy := isStray_congr h s
      cases hst : isStray (checked hs s).dfc s with
      | true => rw [verdict_stray hr hs₀ hst, verdict_stray hr hs₀' (hy.trans hst)]
      | false =>
        rw [verdict_response hr hs₀ hst, verdict_response hr hs₀' (hy.trans hst), ht,
          rcvStateError_congr h hr]
  · rw [verdict_rejected hs₀, verdict_rejected fun h => hs₀ (hz.symm.trans h)]

/-! ## The next session -/

/-- A half-session that is initialised for a session: `sna_hs_init_finish` calls
`sna_tc_init` and `sna_dfc_init`. -/
def reinit (hs : HsCb) (pcIndex : UInt32) (lf : Asm.Lfsid) (bind : Bind) : HsCb :=
  Sm.finishHs hs pcIndex lf bind true

/-- A new half-session in its place. -/
def fresh (hs : HsCb) : HsCb := (Sender.new hs.index hs.luluIndex hs.type).hs

/-- Initialised again, the half-session judges MUs as a new one does. -/
def JudgesAsFresh (hs : HsCb) : Prop :=
  ∀ pcIndex lf bind s e,
    (rxSkb (reinit hs pcIndex lf bind) s e).verdict =
      (rxSkb (reinit (fresh hs) pcIndex lf bind) s e).verdict

theorem judgesAsFresh_iff (h : Tame hs.dfc) : JudgesAsFresh hs ↔ hs.dfc.sense = 0 := by
  constructor
  · intro hj
    by_contra hz
    have hd : (rxSkb (reinit (fresh hs) 0 .zero plainBind) chainEnd plentyEnv).Delivers :=
      delivers_chainEnd rfl nofun
    have hz' : (reinit hs 0 .zero plainBind).dfc.sense ≠ 0 := hz
    have hn := not_delivers_of_sense hz' chainEnd plentyEnv
    have hv : (rxSkb (reinit hs 0 .zero plainBind) chainEnd plentyEnv).out =
        (rxSkb (reinit (fresh hs) 0 .zero plainBind) chainEnd plentyEnv).out :=
      congrArg (·.2.2) (hj 0 .zero plainBind chainEnd plentyEnv)
    apply hn
    unfold Done.Delivers
    rw [hv]
    exact hd
  · intro hz pcIndex lf bind s e
    have hs' : SameJudge (reinit (fresh hs) pcIndex lf bind).dfc (reinit hs pcIndex lf bind).dfc :=
      ⟨rfl, hz, nofun, nofun, nofun, rfl, rfl, rfl, rfl, rfl, rfl, rfl, h.ru, h.qri, h.rqCode⟩
    exact verdict_congr hs' rfl rfl s e

/-- In every state that a half-session reaches: a rejection makes no difference exactly if a
sense code is set already, and the half-session judges MUs as a new one does, once it is
initialised again, exactly if none is set. So never are both the case. -/
theorem poisoning_iff {t : Sender} (h : t.Reachable) :
    (Unpoisoned t.hs ↔ t.hs.dfc.sense ≠ 0) ∧ (JudgesAsFresh t.hs ↔ t.hs.dfc.sense = 0) ∧
      ¬ (Unpoisoned t.hs ∧ JudgesAsFresh t.hs) := by
  have ht := h.tame.dfc
  have hu := unpoisoned_iff ht.purge
  have hj := judgesAsFresh_iff ht
  exact ⟨hu, hj, fun hb => hu.mp hb.1 (hj.mp hb.2)⟩

/-- In a session that has just begun, as in one after a rejection. -/
theorem poisoning_iff_opened :
    (Unpoisoned (opened .fsp).hs ↔ (opened .fsp).hs.dfc.sense ≠ 0) ∧
      (JudgesAsFresh (opened .fsp).hs ↔ (opened .fsp).hs.dfc.sense = 0) ∧
      ¬ (Unpoisoned (opened .fsp).hs ∧ JudgesAsFresh (opened .fsp).hs) :=
  poisoning_iff (opened_reachable .fsp)

/-- A request without a form of response is rejected; the end of a chain, which would have been
delivered, is not delivered after it. -/
theorem noForm_poisons :
    ¬ (∀ t : Sender, t.Reachable → Unpoisoned t.hs ∧ JudgesAsFresh t.hs) ∧
      (rxSkb (opened .fsp).hs noForm plentyEnv).err = -Hs.einval ∧
      (rxSkb (opened .fsp).hs chainEnd plentyEnv).out.length = 1 ∧
      (rxSkb (rxSkb (opened .fsp).hs noForm plentyEnv).hs chainEnd plentyEnv).out = [] := by
  refine ⟨fun h => ?_, by decide, by decide, by decide⟩
  have hp : (opened .fsp).hs.dfc.rcvPurgeState ≠ .purge := nofun
  exact (unpoisoned_iff hp).mp (h _ (opened_reachable .fsp)).1 rfl

end LinuxSna.Dfc
