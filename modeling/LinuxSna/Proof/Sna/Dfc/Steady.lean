import LinuxSna.Impl.Sna.Dfc.Send
import LinuxSna.Proof.Sna.Dfc.Buffers

/-!
# What the state machines of data flow control leave alone

The state machines, the correlation tables and the functions that run them on MUs of the
normal flow change neither the buffers of the half-session nor its note of a signal. They
never begin to purge, and the correlation table of what is sent takes over only some bits.
-/

namespace LinuxSna.Dfc

open Hs (Efi HsCb HsType Skb)

variable {d d' d'' : DfcState}

/-! ## What a machine changes -/

theorem bsm_eq (d : DfcState) (s : Skb) (signal : BsmInd) :
    ∃ sense b, bsm d s signal = { d with sense := sense, bsmState := b } := by
  unfold bsm
  split_ifs <;> exact ⟨_, _, rfl⟩

theorem chainRcvOutputA_eq (d : DfcState) (s : Skb) :
    ∃ sense b p, chainRcvOutputA d s =
      { d with sense := sense, bsmState := b, ctRcv := { d.ctRcv with entryPresent := p } } := by
  obtain ⟨sense, b, h⟩ := bsm_eq d s .betb
  unfold chainRcvOutputA
  split_ifs
  · exact ⟨_, _, _, rfl⟩
  · rw [h]
    exact ⟨_, _, _, rfl⟩

/-- A received chain may end a bracket, and the entry of the correlation table with it. -/
theorem chainRcv_eq (d : DfcState) (s : Skb) (chain : ChainInd) :
    ∃ sense b r p, chainRcv d s chain =
      { d with sense := sense, bsmState := b, chainRcvState := r,
               ctRcv := { d.ctRcv with entryPresent := p } } := by
  have hA : ∃ sense b p, chainRcvOutputA { d with chainRcvState := .betc } s =
      { d with sense := sense, bsmState := b, chainRcvState := .betc,
               ctRcv := { d.ctRcv with entryPresent := p } } :=
    chainRcvOutputA_eq { d with chainRcvState := .betc } s
  obtain ⟨sense, b, p, hA⟩ := hA
  unfold chainRcv
  split
  all_goals
    repeat' split
    all_goals
      first
      | exact ⟨_, _, _, _, rfl⟩
      | exact ⟨_, _, _, _, hA⟩

theorem chainSend_eq (d : DfcState) (s : Skb) (chain : ChainInd) :
    ∃ sense b c, chainSend d s chain =
      { d with sense := sense, bsmState := b, chainSendState := c } := by
  have hA : ∃ sense b, chainSendOutputA { d with chainSendState := .betc } s =
      { d with sense := sense, bsmState := b, chainSendState := .betc } := by
    unfold chainSendOutputA
    split_ifs
    · exact ⟨_, _, rfl⟩
    · exact bsm_eq { d with chainSendState := .betc } s .betb
  obtain ⟨sense, b, hA⟩ := hA
  unfold chainSend
  split
  all_goals
    repeat' split
    all_goals first | exact ⟨_, _, _, rfl⟩ | exact ⟨_, _, _, hA⟩

theorem qriChainRcv_eq (d : DfcState) (s : Skb) :
    ∃ sense q, qriChainRcv d s = { d with sense := sense, qriChainRcvState := q } := by
  unfold qriChainRcv
  split_ifs
  · exact ⟨_, _, rfl⟩
  · split <;> exact ⟨_, _, rfl⟩

theorem rcvPurge_eq (d : DfcState) (s : Skb) (purge : Bool) :
    ∃ p, rcvPurge d s purge = { d with rcvPurgeState := p } := by
  unfold rcvPurge
  split_ifs <;> exact ⟨_, rfl⟩

/-- An attach puts the half-session into the bracket that the header names. -/
theorem processRuData_eq (d : DfcState) (type : HsType) (s : Skb) (conversation : Bool) :
    ∃ sense b num, (processRuData d type s conversation).1 =
      { d with sense := sense, bsmState := b,
               currentBracket := { d.currentBracket with num := num } } := by
  unfold processRuData
  split_ifs <;> exact ⟨_, _, _, rfl⟩

theorem generateRmPsInputs_eq (d : DfcState) (type : HsType) (s : Skb) (conversation : Bool) :
    ∃ sense b num, (generateRmPsInputs d type s conversation).1 =
      { d with sense := sense, bsmState := b,
               currentBracket := { d.currentBracket with num := num } } := by
  unfold generateRmPsInputs
  split
  · exact ⟨_, _, _, rfl⟩
  split
  · exact ⟨_, _, _, rfl⟩
  · exact processRuData_eq d type s conversation

/-! ## What is left alone -/

/-- What is the same after the state machines have run. -/
structure Steady (d d' : DfcState) : Prop where
  lastMu : d'.lastMu = d.lastMu
  sendMu : d'.sendMu = d.sendMu
  sigRqOutstanding : d'.sigRqOutstanding = d.sigRqOutstanding
  purge : d.rcvPurgeState ≠ .purge → d'.rcvPurgeState ≠ .purge
  ru : d'.ctSend.rh.ru = d.ctSend.rh.ru
  qri : d'.ctSend.rh.qri = d.ctSend.rh.qri
  bbi : d'.ctSend.rh.bbi = d.ctSend.rh.bbi
  rqCode : d.ctSend.rqCode = ctRqCodeOther → d'.ctSend.rqCode = ctRqCodeOther

namespace Steady

theorem refl (d : DfcState) : Steady d d := ⟨rfl, rfl, rfl, id, rfl, rfl, rfl, id⟩

theorem trans (h : Steady d d') (h' : Steady d' d'') : Steady d d'' :=
  ⟨h'.1.trans h.1, h'.2.trans h.2, h'.3.trans h.3, h'.4 ∘ h.4, h'.5.trans h.5, h'.6.trans h.6,
    h'.7.trans h.7, h'.8 ∘ h.8⟩

/-- A step that is made or not. -/
theorem ite {p : Prop} [Decidable p] {a b : DfcState} (ha : Steady d a) (hb : Steady d b) :
    Steady d (if p then a else b) := by
  split_ifs <;> assumption

/-- The sense code, the states of the four machines and the correlation table of what is
received may change. -/
theorem of_eq {sense : UInt32} {b : BsmState} {r : ChainRcvState} {c : ChainSendState}
    {q : QriState} {ct : CTable} :
    Steady d { d with sense := sense, bsmState := b, chainRcvState := r, chainSendState := c,
                      qriChainRcvState := q, ctRcv := ct } :=
  ⟨rfl, rfl, rfl, id, rfl, rfl, rfl, id⟩

theorem chainRcv (d : DfcState) (s : Skb) (chain : ChainInd) : Steady d (chainRcv d s chain) := by
  obtain ⟨sense, b, r, p, h⟩ := chainRcv_eq d s chain
  rw [h]
  exact of_eq

theorem chainSend (d : DfcState) (s : Skb) (chain : ChainInd) : Steady d (chainSend d s chain) := by
  obtain ⟨sense, b, c, h⟩ := chainSend_eq d s chain
  rw [h]
  exact of_eq

theorem qriChainRcv (d : DfcState) (s : Skb) : Steady d (qriChainRcv d s) := by
  obtain ⟨sense, q, h⟩ := qriChainRcv_eq d s
  rw [h]
  exact of_eq

/-- The end of a chain ends purging; nothing here asks for it. -/
theorem rcvPurge (d : DfcState) (s : Skb) : Steady d (rcvPurge d s false) := by
  unfold Dfc.rcvPurge
  rw [if_neg (c := false = true) nofun]
  split_ifs
  · exact ⟨rfl, rfl, rfl, fun _ => nofun, rfl, rfl, rfl, id⟩
  · exact refl d
  · exact refl d

theorem ctUpdate (d : DfcState) (s : Skb) : Steady d (ctUpdate d s) := by
  unfold Dfc.ctUpdate
  split
  · exact of_eq
  · unfold CTable.update
    split_ifs <;> exact ⟨rfl, rfl, rfl, id, rfl, rfl, rfl, fun h => by first | exact h | rfl⟩

theorem countRequest (d : DfcState) : Steady d (countRequest d) :=
  ite (refl d) ⟨rfl, rfl, rfl, id, rfl, rfl, rfl, id⟩

theorem noteBracket (d : DfcState) (type : HsType) (s : Skb) : Steady d (noteBracket d type s) := by
  unfold Dfc.noteBracket
  split_ifs
  · exact refl d
  · split <;> exact ⟨rfl, rfl, rfl, id, rfl, rfl, rfl, id⟩

/-! ## Sending -/

theorem direction (x : Direction) : Steady d { d with direction := x } :=
  ⟨rfl, rfl, rfl, id, rfl, rfl, rfl, id⟩

/-- Requests and responses on the normal flow. -/
theorem sendStep (d : DfcState) (type : HsType) {s : Skb} (h : s.efi = .norm) :
    Steady d (sendStep d type s) := by
  unfold Dfc.sendStep
  rw [if_neg fun he => nomatch (h.symm.trans he.2 : Efi.norm = .exp)]
  apply ite ((ctUpdate d s).trans (chainRcv _ s .none))
  dsimp only
  have h₁ := (countRequest d).trans (ctUpdate _ s)
  have h₂ := h₁.trans (ite (p := (Dfc.ctUpdate (Dfc.countRequest d) s).chainRcvState = .pendSendReply)
    (chainRcv _ s .none) (refl _))
  have h₃ := h₂.trans (noteBracket _ type s)
  have h₄ := h₃.trans (ite (p := s.bci) (chainSend _ s .beginChain) (refl _))
  exact h₄.trans (ite (chainSend _ s .endChain) (refl _))

theorem sendFsms (hs : HsCb) {s : Skb} (h : s.efi = .norm) (tx : TxPath) :
    Steady hs.dfc (sendFsms hs s tx).hs.dfc :=
  (direction .outbound).trans (sendStep _ hs.type (s := { s with toMu := (hs.tc.stamp s.toMu).2 }) h)

theorem sendRspMu (hs : HsCb) (s : Skb) (tx : TxPath) :
    Steady hs.dfc (sendRspMu hs s tx).hs.dfc := by
  refine Steady.trans ?_ (direction hs.dfc.direction)
  split
  · exact (direction .outbound).trans
      (sendFsms { hs with dfc := { hs.dfc with direction := .outbound } } (s := rspMu s) rfl tx)
  · exact direction .outbound

/-! ## Receiving -/

theorem generateRmPsInputs (d : DfcState) (type : HsType) (s : Skb) (conversation : Bool) :
    Steady d (generateRmPsInputs d type s conversation).1 := by
  obtain ⟨sense, b, num, h⟩ := generateRmPsInputs_eq d type s conversation
  rw [h]
  exact ⟨rfl, rfl, rfl, id, rfl, rfl, rfl, id⟩

theorem sendRspIfRequired (hs : HsCb) (s : Skb) (tx : TxPath) :
    Steady hs.dfc (sendRspIfRequired hs s tx).1.dfc := by
  unfold Dfc.sendRspIfRequired
  split_ifs
  · exact sendRspMu hs s tx
  · exact refl _

theorem rcvStep (d : DfcState) (s : Skb) : Steady d (rcvStep d s) := by
  unfold Dfc.rcvStep
  have h₁ := rcvPurge d s
  have h₂ := h₁.trans (ite (p := (Dfc.rcvPurge d s false).chainSendState = .pendRcvReply)
    (chainSend _ s .none) (refl _))
  have h₃ := h₂.trans (ite (p := s.bci) (chainRcv _ s .beginChain) (refl _))
  have h₄ := h₃.trans (ite (p := s.eci) (chainRcv _ s .endChain) (refl _))
  exact h₄.trans (qriChainRcv _ s)

theorem rcvRequest (hs : HsCb) (s : Skb) (e : Env) : Steady hs.dfc (rcvRequest hs s e).hs.dfc := by
  have hn := ((countRequest hs.dfc).trans (ctUpdate _ s)).trans (noteBracket _ hs.type s)
  unfold Dfc.rcvRequest
  dsimp only
  refine (hn.trans ?_).trans
    ((rcvStep _ s).trans (sendRspIfRequired { hs with dfc := Dfc.rcvStep _ s } s e.tx))
  split
  · exact generateRmPsInputs _ hs.type s e.conversation
  · exact refl _

/-- The part of a response on the normal flow. -/
theorem rcvResponse (hs : HsCb) {s : Skb} (h : s.efi = .norm) :
    Steady hs.dfc (rcvResponse hs s).hs.dfc := by
  unfold Dfc.rcvResponse
  rw [h]
  exact (ctUpdate _ s).trans (chainSend _ s .none)

end Steady

end LinuxSna.Dfc
