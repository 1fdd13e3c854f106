import LinuxSna.Proof.Sna.Dfc.Steady

/-!
# The state checks of received requests

`sna_dfc_rcv_state_error` makes its checks of requests on the expedited flow, where
`sna_dfc_rx` does not call it. A normal-flow request is never refused for its state: what
violates the bracket or the chaining protocol is processed like any other request. The checks
themselves know less than the protocols: of the elements of a chain that never began only the
last, and nothing of the QRI.

* `rcvFsms_request`: what `sna_dfc_rcv_fsms` makes of a normal-flow request;
* `not_refused`: it never refuses one, whatever violates the protocols;
* `delivers_iff`: what it hands to the conversation or to the resource manager;
* `along_enforced_iff`: the runs in which it does.
-/

namespace LinuxSna.Dfc

open Framework (Along)
open Hs (Bind HsCb HsType Mu Skb)

variable {hs : HsCb} {s : Skb} {e : Env}

/-- An MU is received, with what it meets. -/
abbrev Received := Skb × Env

/-- The half-session after `sna_dfc_rx` of an MU -/
def rxStep (hs : HsCb) (ev : Received) : Option HsCb := some (rxSkb hs ev.1 ev.2).hs

/-- The MU is handed to the conversation or to the resource manager. -/
def Done.Delivers (r : Done) : Prop := ∃ o ∈ r.out, ∀ m, o ≠ .pc m

/-- The half-session that `sna_dfc_rcv_fsms` is given. -/
def checked (hs : HsCb) (s : Skb) : HsCb :=
  { hs with dfc := formatError (inbound hs.dfc s) hs.type s }

/-- A normal-flow request that passes the format checks -/
def IsFormatted (hs : HsCb) (s : Skb) : Prop :=
  s.rri = .req ∧ s.efi = .norm ∧ (checked hs s).dfc.sense = 0

instance (hs : HsCb) (s : Skb) : Decidable (IsFormatted hs s) :=
  inferInstanceAs (Decidable (_ ∧ _))

/-- One of the state checks reports an error, without output. -/
def violates (d : DfcState) (s : Skb) : Bool :=
  (bsmStateChk d s).isSome || (chainRcvStateChk d s .none).isSome ||
    (qriStateChk d s false).1

/-- Nothing is handed on, and the states, the correlation table of what is received and the
last MU are as before. -/
structure Refused (hs : HsCb) (r : Done) : Prop where
  out : r.out = []
  bsmState : r.hs.dfc.bsmState = hs.dfc.bsmState
  chainRcvState : r.hs.dfc.chainRcvState = hs.dfc.chainRcvState
  chainSendState : r.hs.dfc.chainSendState = hs.dfc.chainSendState
  rcvPurgeState : r.hs.dfc.rcvPurgeState = hs.dfc.rcvPurgeState
  qriChainRcvState : r.hs.dfc.qriChainRcvState = hs.dfc.qriChainRcvState
  ctRcv : r.hs.dfc.ctRcv = hs.dfc.ctRcv
  lastMu : r.hs.dfc.lastMu = hs.dfc.lastMu

/-- A chain begins where none is being received or is to be answered, and goes on where one is being
received; the QRI is the same in all its elements. -/
def breaksChaining (d : DfcState) (s : Skb) : Prop :=
  s.bci = true ∧ d.chainRcvState ∈ [.inc, .negRspSent, .pendRsp, .pendSendReply] ∨
    s.bci = false ∧ d.chainRcvState ∉ [.inc, .negRspSent] ∨
    s.qri = true ∧ d.qriChainRcvState = .incNotQr ∨ s.qri = false ∧ d.qriChainRcvState = .incQr

instance (d : DfcState) (s : Skb) : Decidable (breaksChaining d s) :=
  inferInstanceAs (Decidable (_ ∨ _))

/-- Between brackets there is only what begins one, an attach, a security header and the reply to
a bid; a LUSTAT may end a bracket unconditionally. -/
def breaksBracket (d : DfcState) (s : Skb) : Prop :=
  d.bsmState = .betb ∧ s.bbi = false ∧ (d.ctSend.rh.bbi = false ∨ okToReply d s = false) ∧
    (s.ru = .fmd ∧ ¬ (s.fi = true ∧ s.fmhType ∈ [fmhType5, fmhType12]) ∨
      s.ru = .dfc ∧ s.byte 0 = ruRcLustat ∧ cebUncond s = false)

instance (d : DfcState) (s : Skb) : Decidable (breaksBracket d s) :=
  inferInstanceAs (Decidable (_ ∧ _))

/-- The RU is handed on: an attach and a security header to the resource manager, an FMH-7 and data
to the conversation, if there is one. -/
def handedOn (s : Skb) (conversation : Bool) : Prop :=
  (s.fi = true ∧ s.ru = .fmd) ∧
      (s.fmhType = fmhType5 ∨ s.fmhType = fmhType12 ∨ s.fmhType = fmhType7 ∧ conversation = true) ∨
    ¬ (s.fi = true ∧ s.ru = .fmd) ∧ (s.eci = true ∨ s.data ≠ []) ∧ conversation = true

instance (s : Skb) (conversation : Bool) : Decidable (handedOn s conversation) :=
  inferInstanceAs (Decidable (_ ∨ _))

/-- Nothing is in the way of the request: it can be cloned, is not purged, does not begin a bracket
and is no request of data flow control. -/
def getsThrough (d : DfcState) (s : Skb) (e : Env) : Prop :=
  e.cloned = true ∧ d.rcvPurgeState ≠ .purge ∧ s.bbi = false ∧ isBidRequest s = false ∧
    handedOn s e.conversation

instance (d : DfcState) (s : Skb) (e : Env) : Decidable (getsThrough d s e) :=
  inferInstanceAs (Decidable (_ ∧ _))

/-- If a check reports an error, `sna_dfc_rcv_fsms` refuses the request, whatever it meets; and what
breaks the chaining or the bracket protocol is not delivered. -/
def Enforced (hs : HsCb) (ev : Received) : Prop :=
  IsFormatted hs ev.1 →
    (violates (checked hs ev.1).dfc ev.1 = true →
      ∀ e, Refused (checked hs ev.1) (rcvFsms (checked hs ev.1) ev.1 e)) ∧
    (breaksChaining (checked hs ev.1).dfc ev.1 ∨ breaksBracket (checked hs ev.1).dfc ev.1 →
      ¬ (rxSkb hs ev.1 ev.2).Delivers)

/-- A request that passes the format checks violates the protocols: a check reports an error, or it
breaks one of them and nothing is in its way. -/
def Violation (hs : HsCb) (ev : Received) : Prop :=
  IsFormatted hs ev.1 ∧
    (violates (checked hs ev.1).dfc ev.1 = true ∨
      (breaksChaining (checked hs ev.1).dfc ev.1 ∨ breaksBracket (checked hs ev.1).dfc ev.1) ∧
        getsThrough (checked hs ev.1).dfc ev.1 ev.2)

instance (hs : HsCb) (ev : Received) : Decidable (Violation hs ev) :=
  inferInstanceAs (Decidable (_ ∧ _))

theorem inbound_eq (d : DfcState) (s : Skb) :
    inbound d s = { d with direction := .inbound, ctRcv := (inbound d s).ctRcv } := by
  unfold inbound
  dsimp only
  split_ifs <;> rfl

/-- What the format checks can change. -/
theorem checked_eq (hs : HsCb) (s : Skb) :
    ∃ sense ct, (checked hs s).dfc =
      { hs.dfc with direction := .inbound, sense := sense, ctRcv := ct } := by
  unfold checked
  dsimp only
  rw [formatError_eq, inbound_eq]
  exact ⟨_, _, rfl⟩

/-- No normal-flow request has a state error. -/
theorem rcvStateError_request (d : DfcState) (type : HsType) (hr : s.rri = .req)
    (he : s.efi = .norm) : rcvStateError d type s = (false, d) := by
  unfold rcvStateError
  rw [hr, he]

/-- The half-session once it has a clone of a request, and the header of that. -/
def recorded (hs : HsCb) (s : Skb) : HsCb :=
  { hs with
    dfc := { hs.dfc with lastMu := true, ctRcv := { hs.dfc.ctRcv with rh := rhOf s.toMu } } }

/-- A normal-flow request is processed if it can be cloned. -/
theorem rcvFsms_request (hs : HsCb) (hr : s.rri = .req) (he : s.efi = .norm) (e : Env) :
    rcvFsms hs s e =
      if e.cloned = false then ⟨0, { hs with dfc := { hs.dfc with lastMu := false } }, .free, []⟩
      else rcvRequest (recorded hs s) s e := by
  unfold rcvFsms
  rw [rcvStateError_request hs.dfc hs.type hr he]
  dsimp only
  rw [if_neg nofun]
  cases hc : e.cloned with
  | false => rfl
  | true =>
    rw [if_neg nofun, if_neg nofun, hr, he]
    rfl

/-- A normal-flow request that passes the format checks goes to the state machines. -/
theorem rxSkb_request (h : IsFormatted hs s) (e : Env) :
    rxSkb hs s e = { rcvFsms (checked hs s) s e with err := 0 } := by
  obtain ⟨hr, he, hz⟩ := h
  have hz : ¬ (formatError (inbound hs.dfc s) hs.type s).sense ≠ 0 := not_not.mpr hz
  unfold rxSkb
  dsimp only
  rw [if_neg hz, hr, he]
  rfl

/-- The last MU is the clone of the request, if there is one. -/
theorem rcvFsms_lastMu (hs : HsCb) (hr : s.rri = .req) (he : s.efi = .norm) (e : Env) :
    (rcvFsms hs s e).hs.dfc.lastMu = e.cloned := by
  rw [rcvFsms_request hs hr he]
  cases hc : e.cloned with
  | false => rfl
  | true =>
    rw [if_neg nofun]
    exact (Steady.rcvRequest (recorded hs s) s e).lastMu

/-- No request is refused, whatever it meets: the last MU is another one then. -/
theorem not_refused (hs : HsCb) (hr : s.rri = .req) (he : s.efi = .norm) (e : Env) :
    ¬ ∀ e, Refused hs (rcvFsms hs s e) := by
  intro h
  have hl := (h { e with cloned := !hs.dfc.lastMu }).lastMu
  rw [rcvFsms_lastMu hs hr he] at hl
  exact Bool.not_ne_self _ hl

/-! ## What is delivered -/

/-- A response goes to path control only. -/
theorem sendRspMu_out (hs : HsCb) (s : Skb) (tx : TxPath) :
    (sendRspMu hs s tx).out =
      ((hs.tc.stamp (rspMu s).toMu).1.sendMu (hs.tc.stamp (rspMu s).toMu).2 tx.pc).mus.map .pc := by
  unfold sendRspMu
  dsimp only
  rw [chainRcvStateChk_rspMu rfl, Option.isNone_none, if_pos rfl]
  rfl

theorem sendRspIfRequired_out (hs : HsCb) (s : Skb) (tx : TxPath) :
    (sendRspIfRequired hs s tx).2 =
      if hs.dfc.chainRcvState = .pendRsp then
        ((hs.tc.stamp (rspMu s).toMu).1.sendMu (hs.tc.stamp (rspMu s).toMu).2 tx.pc).mus.map .pc
      else [] := by
  unfold sendRspIfRequired
  split_ifs
  · exact sendRspMu_out hs s tx
  · rfl

/-- What is handed on of an RU -/
theorem generateRmPsInputs_handed (d : DfcState) (type : HsType) (s : Skb) (conversation : Bool) :
    (∃ o ∈ (generateRmPsInputs d type s conversation).2.2, ∀ m, o ≠ .pc m) ↔
      s.bbi = false ∧ isBidRequest s = false ∧ handedOn s conversation := by
  have hnone : ¬ ∃ o ∈ ([] : List Out), ∀ m, o ≠ .pc m := by simp
  have hps : (∃ o ∈ (sendToPs s conversation).2, ∀ m, o ≠ .pc m) ↔ conversation = true := by
    unfold sendToPs
    cases conversation <;> simp
  unfold generateRmPsInputs
  cases hb : s.bbi with
  | true => exact iff_of_false hnone (by simp)
  | false =>
    rw [if_neg nofun]
    cases hd : isBidRequest s with
    | true => exact iff_of_false hnone (by simp)
    | false =>
      rw [if_neg nofun, and_iff_right rfl, and_iff_right rfl]
      unfold processRuData handedOn
      dsimp only
      split
      · rename_i hfmh
        rw [and_iff_right hfmh, or_iff_left fun h => h.1 hfmh]
        split
        · rename_i h5
          exact iff_of_true ⟨_, List.mem_singleton_self _, by simp⟩ (.inl h5)
        · rename_i h5
          rw [or_iff_right h5]
          split
          · rename_i h7
            rw [or_iff_right (by rw [h7]; decide), and_iff_right h7]
            exact hps
          · rename_i h7
            split
            · rename_i h12
              exact iff_of_true ⟨_, List.mem_singleton_self _, by simp⟩ (.inl h12)
            · rename_i h12
              exact iff_of_false hnone fun h => h.elim h12 fun h => h7 h.1
      · rename_i hfmh
        rw [or_iff_right (a := (s.fi = true ∧ s.ru = .fmd) ∧ _) fun h => hfmh h.1, and_iff_right hfmh]
        split
        · rename_i hdata
          rw [and_iff_right hdata]
          exact hps
        · rename_i hdata
          exact iff_of_false hnone fun h => hdata h.1

/-- A request that passes the format checks is delivered if nothing is in its way. -/
theorem delivers_iff (h : IsFormatted hs s) :
    (rxSkb hs s e).Delivers ↔ getsThrough (checked hs s).dfc s e := by
  rw [rxSkb_request h, getsThrough]
  show (∃ o ∈ (rcvFsms (checked hs s) s e).out, ∀ m, o ≠ .pc m) ↔ _
  rw [rcvFsms_request _ h.1 h.2.1]
  cases hc : e.cloned with
  | false => exact iff_of_false (by simp) (by simp)
  | true =>
    rw [if_neg nofun, and_iff_right rfl]
    have hpurge : (noteBracket (ctUpdate (countRequest (recorded (checked hs s) s).dfc) s)
        (recorded (checked hs s) s).type s).rcvPurgeState = (checked hs s).dfc.rcvPurgeState := by
      rw [rcvPurgeState_noteBracket, rcvPurgeState_ctUpdate, rcvPurgeState_countRequest]
      rfl
    have hrsp (hs : HsCb) : ∀ o ∈ (sendRspIfRequired hs s e.tx).2, ∃ m, o = .pc m := by
      intro o ho
      rw [sendRspIfRequired_out] at ho
      split at ho
      · obtain ⟨m, -, rfl⟩ := List.mem_map.mp ho
        exact ⟨m, rfl⟩
      · cases ho
    unfold rcvRequest
    dsimp only
    by_cases hp : (checked hs s).dfc.rcvPurgeState = .purge
    · rw [if_neg (not_not.mpr (hpurge.trans hp))]
      refine iff_of_false ?_ fun h => h.1 hp
      rintro ⟨o, ho, hn⟩
      obtain ⟨m, rfl⟩ := hrsp _ o ho
      exact hn m rfl
    · rw [if_pos (hpurge ▸ hp), and_iff_right hp, ← generateRmPsInputs_handed]
      constructor
      · rintro ⟨o, ho, hn⟩
        obtain ho | ho := List.mem_append.mp ho
        · exact ⟨o, ho, hn⟩
        · obtain ⟨m, rfl⟩ := hrsp _ o ho
          exact absurd rfl (hn m)
      · rintro ⟨o, ho, hn⟩
        exact ⟨o, List.mem_append_left _ ho, hn⟩

/-- The code enforces the protocols exactly on what does not violate them. -/
theorem enforced_iff (hs : HsCb) (ev : Received) : Enforced hs ev ↔ ¬ Violation hs ev := by
  constructor
  · rintro h ⟨hf, hv | ⟨hbreaks, hthrough⟩⟩
    · exact not_refused _ hf.1 hf.2.1 ev.2 ((h hf).1 hv)
    · exact (h hf).2 hbreaks ((delivers_iff hf).mpr hthrough)
  · intro h hf
    refine ⟨fun hv => absurd ⟨hf, .inl hv⟩ h, fun hbreaks hd => ?_⟩
    exact h ⟨hf, .inr ⟨hbreaks, (delivers_iff hf).mp hd⟩⟩

/-- In a run of received MUs, the protocols are enforced at each of them exactly if none of
them violates the protocols. -/
theorem along_enforced_iff (hs : HsCb) (es : List Received) :
    Along rxStep Enforced hs es ↔ Along rxStep (fun hs ev => ¬ Violation hs ev) hs es :=
  Framework.along_iff (I := fun _ => True) (fun _ _ _ _ _ _ => trivial)
    (fun hs ev _ => enforced_iff hs ev) trivial

/-! ## A session -/

/-- A BIND without pacing, for whole BIUs of any size that an 8-bit field can give. -/
def plainBind : Bind where
  secMaxRuSize := 0xFF
  priMaxRuSize := 0xFF
  secTxWinSize := 0
  secRxWinSize := 0
  priTxWinSize := 0
  priRxWinSize := 0
  adaptivePacing := false
  wholeBiu := true
  cryptoSupp := false

/-- A half-session that has just been initialised. -/
def opened (type : HsType) : Sender :=
  .of (Sm.finishHs (Sender.new 1 1 type).hs 1 ⟨true, 1, 0, 1, 1⟩ plainBind true) none

theorem opened_reachable (type : HsType) : (opened type).Reachable :=
  ⟨1, 1, type, [.finish 1 ⟨true, 1, 0, 1, 1⟩ plainBind true], rfl⟩

/-- The MU can be cloned, there is a conversation, and path control takes what is sent. -/
def plentyEnv : Env :=
  { beyond := [], addr := 0, cloned := true, conversation := true, tx := .taken 0 }

/-- The last element of a chain, which asks for a definite response. -/
def chainEnd : Skb :=
  { newMu with
    rti := false, eci := true, snf := 1, data := [0, 3, 0xC1], beyond := [], addr := 0 }

/-- An element that is neither the first of a chain nor the last -/
def chainMiddle : Skb := { chainEnd with eci := false, rti := true }

/-- The chain ends before it has begun, and its end is delivered to the conversation; so is an
element in its middle, of which no check reports an error. -/
theorem chainEnd_delivered :
    ¬ (∀ t : Sender, t.Reachable → ∀ es, Along rxStep Enforced t.hs es) ∧
      violates (checked (opened .bidder).hs chainEnd).dfc chainEnd = true ∧
      (rxSkb (opened .bidder).hs chainEnd plentyEnv).out.head? =
        some (.ps (.mu ⟨[0, 3, 0xC1], .notEndOfData, false, by decide⟩)) ∧
      violates (checked (opened .bidder).hs chainMiddle).dfc chainMiddle = false ∧
      breaksChaining (checked (opened .bidder).hs chainMiddle).dfc chainMiddle ∧
      (rxSkb (opened .bidder).hs chainMiddle plentyEnv).out.head? =
        some (.ps (.mu ⟨[0, 3, 0xC1], .notEndOfData, false, by decide⟩)) := by
  refine ⟨fun h => ?_, by decide, by decide, by decide, by decide, by decide⟩
  have he := h _ (opened_reachable .bidder) [(chainEnd, plentyEnv)]
  exact (enforced_iff _ _).mp he.1 (by decide)

end LinuxSna.Dfc
