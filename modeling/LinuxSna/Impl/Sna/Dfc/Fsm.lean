import LinuxSna.Impl.Sna.Dfc.State

/-!
# The state machines of data flow control

`sna_dfc.c`: the bracket machine, the machines of received and of sent chains, the
QRI and the purging machine, their state checks, and the correlation tables. A
state check finds an error or not; asked for output, it also records the sense
code.
-/

namespace LinuxSna.Dfc

open Hs (HsType Skb)

/-! ## Request codes and function management headers -/

/-- `SNA_RU_RC_` -/
def ruRcLustat : UInt8 := 0x04
def ruRcRtr : UInt8 := 0x05
def ruRcBis : UInt8 := 0x70
def ruRcCrv : UInt8 := 0xC0
def ruRcSig : UInt8 := 0xC9

/-- `SNA_CT_RQ_CODE_OTHER` -/
def ctRqCodeOther : UInt8 := 0

/-- `SNA_FMH_TYPE_` -/
def fmhType5 : UInt8 := 5
def fmhType7 : UInt8 := 7
def fmhType12 : UInt8 := 12

/-- `sna_dfc_fsm_chain_ind` -/
inductive ChainInd where
  | none
  | beginChain
  | endChain
  deriving DecidableEq

/-- `sna_dfc_fsm_bsm_ind` -/
inductive BsmInd where
  | none
  | inb
  | betb
  deriving DecidableEq

/-- A state check: no error, or one, with the sense code that its output
function records if it has one. -/
abbrev StateChk := Option (Option UInt32)

/-- What a state check does when it is asked for output. -/
def DfcState.record (d : DfcState) : StateChk → DfcState
  | some (some sense) => { d with sense := sense }
  | _ => d

/-! ## Replies -/

/-- `sna_dfc_ok_to_reply` -/
def okToReply (d : DfcState) (s : Skb) : Bool :=
  if s.byte 0 = ruRcBis ∨ s.byte 0 = ruRcRtr then false
  else if s.bbi ∧ s.bci = false then false
  else if d.direction = .outbound ∧ d.chainRcvState ≠ .pendSendReply then false
  else if d.direction = .inbound ∧ d.chainSendState ≠ .pendRcvReply then false
  else if d.direction = .inbound ∧ d.bsmState = .inb ∧ d.ctSend.rh.bbi ∧
      d.currentBracket.num ≠ d.ctSend.snf then false
  else true

/-! ## The bracket machine -/

/-- Not a reply to a bid: the BCI is compared with `SNA_RH_BBI_NO_BB`. -/
def notBidReply (d : DfcState) (s : Skb) : Bool :=
  !s.bci && (!d.ctSend.rh.bbi || !okToReply d s)

/-- An unconditional end of the bracket. -/
def cebUncond (s : Skb) : Bool := s.cebi && ((rhOf s.toMu).rqd1 || (rhOf s.toMu).rqe1)

/-- A function management header that is neither an attach nor a security header -/
def otherFmh (s : Skb) : Bool := s.fi && s.fmhType ≠ fmhType5 && s.fmhType ≠ fmhType12

/-- `sna_dfc_fsm_bsm_fmp19_state_chk`; it does not use its signal. -/
def bsmStateChk (d : DfcState) (s : Skb) : StateChk :=
  if d.direction = .inbound ∧ s.rri = .req then
    if notBidReply d s ∧ cebUncond s = false then
      if (otherFmh s ∨ s.byte 0 = ruRcLustat) ∧ d.bsmState = .betb then some (some 0x20030000)
      else none
    else if notBidReply d s ∧ otherFmh s ∧ cebUncond s ∧ d.bsmState = .betb then
      some (some 0x20030000)
    else none
  else none

/-- `sna_dfc_fsm_bsm_fmp19` -/
def bsm (d : DfcState) (s : Skb) (signal : BsmInd) : DfcState :=
  if signal = .inb then { d with bsmState := .inb }
  else if signal = .betb then { d with bsmState := .betb }
  else if d.direction = .inbound ∧ s.rri = .req then
    if notBidReply d s ∧ cebUncond s = false then
      if (otherFmh s ∨ s.byte 0 = ruRcLustat) ∧ d.bsmState = .betb then
        { d with sense := 0x20030000 }
      else d
    else if notBidReply d s ∧ otherFmh s ∧ cebUncond s ∧ d.bsmState = .betb then
      { d with sense := 0x20030000 }
    else d
  else d

/-! ## Received chains -/

/-- A chaining error, an error of the immediate request mode, and a half-duplex
error, as `sna_dfc_fsm_chain_rcv_fmp19_output_r1`, `_r2` and `_r3` record them. -/
def chainRcvOutputR1 : UInt32 := 0x20020000
def chainRcvOutputR2 : UInt32 := 0x200A0000
def chainRcvOutputR3 : UInt32 := 0x2004000

/-- `sna_dfc_fsm_chain_rcv_fmp19_output_a` -/
def chainRcvOutputA (d : DfcState) (s : Skb) : DfcState :=
  if d.ctRcv.rh.bbi then d
  else
    let d := bsm d s .betb
    { d with ctRcv := { d.ctRcv with entryPresent := false } }

/-- `sna_dfc_fsm_chain_rcv_fmp19_output_b` -/
def chainRcvOutputB (d : DfcState) : DfcState :=
  { d with ctRcv := { d.ctRcv with entryPresent := false } }

/-- A response to FMD or LUSTAT, as the machines tell it. -/
def fmdOrLustat (s : Skb) : Bool := s.fi || s.byte 0 = ruRcLustat

/-- `sna_dfc_fsm_chain_rcv_fmp19_state_chk`. Its test for a positive response asks
for a negative one again. -/
def chainRcvStateChk (d : DfcState) (s : Skb) (chain : ChainInd) : StateChk :=
  match d.direction with
  | .inbound =>
    if s.rri = .req ∧ chain ≠ .none then none
    else if s.rri = .req ∧ s.bci then
      match d.chainRcvState with
      | .inc => some (some chainRcvOutputR1)
      | .negRspSent => some (some chainRcvOutputR1)
      | .pendRsp => some (some chainRcvOutputR2)
      | .pendSendReply => some (some chainRcvOutputR3)
      | _ => none
    else if s.rri = .req ∧ s.eci then
      match d.chainRcvState with
      | .betc => some (some chainRcvOutputR1)
      | .pendRsp => some (some chainRcvOutputR2)
      | .pendSendReply => some (some chainRcvOutputR1)
      | _ => none
    else none
  | .outbound =>
    if s.rri = .rsp ∧ s.rti ∧ fmdOrLustat s then
      match d.chainRcvState with
      | .betc => some none
      | .negRspSent => some none
      | _ => none
    else none

/-- `sna_dfc_fsm_chain_rcv_fmp19` -/
def chainRcv (d : DfcState) (s : Skb) (chain : ChainInd) : DfcState :=
  match d.direction with
  | .inbound =>
    if s.rri = .req ∧ chain = .beginChain then
      if d.chainRcvState = .betc then { d with chainRcvState := .inc } else d
    else if s.rri = .req ∧ chain = .endChain then
      if (rhOf s.toMu).rqd then
        match d.chainRcvState with
        | .inc => { d with chainRcvState := .pendRsp }
        | .negRspSent => chainRcvOutputA { d with chainRcvState := .betc } s
        | _ => d
      else if (rhOf s.toMu).rqe ∧ s.cebi then
        match d.chainRcvState with
        | .inc => chainRcvOutputA { d with chainRcvState := .betc } s
        | .negRspSent => chainRcvOutputA { d with chainRcvState := .betc } s
        | _ => d
      else if (rhOf s.toMu).rqe ∧ s.cdi then
        match d.chainRcvState with
        | .inc => { d with chainRcvState := .pendSendReply }
        | .negRspSent => chainRcvOutputB { d with chainRcvState := .betc }
        | _ => d
      else if s.byte 0 = ruRcBis then
        if d.chainRcvState = .inc then { d with chainRcvState := .betc } else d
      else d
    else if s.rri = .req ∧ s.bci then
      match d.chainRcvState with
      | .inc => { d with sense := chainRcvOutputR1 }
      | .negRspSent => { d with sense := chainRcvOutputR1 }
      | .pendRsp => { d with sense := chainRcvOutputR2 }
      | .pendSendReply => { d with sense := chainRcvOutputR3 }
      | _ => d
    else if s.rri = .req ∧ s.eci then
      match d.chainRcvState with
      | .betc => { d with sense := chainRcvOutputR1 }
      | .pendRsp => { d with sense := chainRcvOutputR2 }
      | .pendSendReply => { d with sense := chainRcvOutputR1 }
      | _ => d
    else d
  | .outbound =>
    if s.rri = .rsp ∧ s.rti ∧ fmdOrLustat s then
      match d.chainRcvState with
      | .inc => { d with chainRcvState := .negRspSent }
      | .pendRsp => chainRcvOutputA { d with chainRcvState := .betc } s
      | .pendSendReply => chainRcvOutputA { d with chainRcvState := .betc } s
      | _ => d
    else if s.rri = .rsp ∧ s.byte 0 = ruRcRtr then
      if d.chainRcvState = .pendRsp then { d with chainRcvState := .betc } else d
    else if s.rri = .req ∧ okToReply d s then
      if d.chainRcvState = .pendSendReply then { d with chainRcvState := .betc } else d
    else d

/-! ## Sent chains -/

/-- `sna_dfc_fsm_chain_send_fmp19_output_a` -/
def chainSendOutputA (d : DfcState) (s : Skb) : DfcState :=
  if d.ctSend.rh.bbi then d else bsm d s .betb

/-- `sna_dfc_fsm_chain_send_fmp19_output_r`, a response protocol error -/
def chainSendOutputR : UInt32 := 0x200F0000

/-- `sna_dfc_fsm_chain_send_fmp19_state_chk`; it does not use its indicator. -/
def chainSendStateChk (d : DfcState) (s : Skb) : StateChk :=
  if d.direction = .outbound ∨ s.rri = .req then none
  else if s.rti ∧ fmdOrLustat s then
    match d.chainSendState with
    | .betc => some (some chainSendOutputR)
    | .netRspRcvd => some (some chainSendOutputR)
    | _ => none
  else if fmdOrLustat s ∨ s.byte 0 = ruRcRtr then
    match d.chainSendState with
    | .betc => some (some chainSendOutputR)
    | .inc => some (some chainSendOutputR)
    | .netRspRcvd => some (some chainSendOutputR)
    | .pendRcvReply => some (some chainSendOutputR)
    | _ => none
  else none

/-- `sna_dfc_fsm_chain_send_fmp19`; its output B does nothing. -/
def chainSend (d : DfcState) (s : Skb) (chain : ChainInd) : DfcState :=
  match d.direction with
  | .inbound =>
    if s.rri = .rsp ∧ s.rti ∧ fmdOrLustat s then
      match d.chainSendState with
      | .betc => { d with sense := chainSendOutputR }
      | .inc => { d with chainSendState := .netRspRcvd }
      | .netRspRcvd => { d with sense := chainSendOutputR }
      | .pendRsp => chainSendOutputA { d with chainSendState := .betc } s
      | .pendRcvReply => chainSendOutputA { d with chainSendState := .betc } s
      | .cleared => d
    else if s.rri = .rsp ∧ s.rti = false ∧ fmdOrLustat s then
      match d.chainSendState with
      | .pendRsp => chainSendOutputA { d with chainSendState := .betc } s
      | .cleared => d
      | _ => { d with sense := chainSendOutputR }
    else if s.rri = .rsp ∧ s.byte 0 = ruRcRtr then
      match d.chainSendState with
      | .pendRsp => { d with chainSendState := .betc }
      | .cleared => d
      | _ => { d with sense := chainSendOutputR }
    else if s.rri = .req ∧ okToReply d s then
      if d.chainSendState = .pendRcvReply then { d with chainSendState := .betc } else d
    else d
  | .outbound =>
    if s.rri = .rsp then d
    else
      match chain with
      | .beginChain => if d.chainSendState = .betc then { d with chainSendState := .inc } else d
      | .endChain =>
        if (rhOf s.toMu).rqd then
          match d.chainSendState with
          | .inc => { d with chainSendState := .pendRsp }
          | .netRspRcvd => chainSendOutputA { d with chainSendState := .betc } s
          | _ => d
        else if (rhOf s.toMu).rqe ∧ s.cebi then
          match d.chainSendState with
          | .inc => chainSendOutputA { d with chainSendState := .betc } s
          | .netRspRcvd => chainSendOutputA { d with chainSendState := .betc } s
          | _ => d
        else if (rhOf s.toMu).rqe ∧ s.cdi then
          match d.chainSendState with
          | .inc => { d with chainSendState := .pendRcvReply }
          | .netRspRcvd => { d with chainSendState := .betc }
          | _ => d
        else if s.byte 0 = ruRcBis then
          if d.chainSendState = .inc then { d with chainSendState := .betc } else d
        else d
      | .none => d

/-! ## The QRI and the purging machine -/

/-- `sna_dfc_fsm_qri_chain_rcv_fmp19_output_r`, a QRI state error -/
def qriOutputR : UInt32 := 0x200B0000

/-- What `sna_dfc_fsm_qri_chain_rcv_fmp19_state_chk` finds. The end of the chain makes no
difference to it. -/
def qriStateError (d : DfcState) (s : Skb) : Bool :=
  d.direction = .inbound && s.rri = .req &&
    d.qriChainRcvState = (if s.qri then .incNotQr else .incQr)

/-- `sna_dfc_fsm_qri_chain_rcv_fmp19_state_chk`, and the half-session after it. Unlike the others it
returns 0 whatever it finds. -/
def qriStateChk (d : DfcState) (s : Skb) (output : Bool) : Bool × DfcState :=
  (false, if qriStateError d s ∧ output then { d with sense := qriOutputR } else d)

/-- `sna_dfc_fsm_qri_chain_rcv_fmp19` -/
def qriChainRcv (d : DfcState) (s : Skb) : DfcState :=
  if d.direction ≠ .inbound ∨ s.rri ≠ .req then d
  else
    match s.qri, s.eci, d.qriChainRcvState with
    | true, true, .incQr => { d with qriChainRcvState := .reset }
    | true, true, .incNotQr => { d with sense := qriOutputR }
    | true, false, .reset => { d with qriChainRcvState := .incQr }
    | true, false, .incNotQr => { d with sense := qriOutputR }
    | false, true, .incQr => { d with sense := qriOutputR }
    | false, true, .incNotQr => { d with qriChainRcvState := .reset }
    | false, false, .reset => { d with qriChainRcvState := .incNotQr }
    | false, false, .incQr => { d with sense := qriOutputR }
    | _, _, _ => d

/-- `sna_dfc_fsm_rcv_purge_fmp19` -/
def rcvPurge (d : DfcState) (s : Skb) (purge : Bool) : DfcState :=
  if d.direction = .inbound ∧ s.eci then
    if d.rcvPurgeState = .purge then { d with rcvPurgeState := .reset } else d
  else if purge then
    if d.rcvPurgeState = .reset then { d with rcvPurgeState := .purge } else d
  else d

/-! ## The correlation tables -/

/-- The bits of the RH that a correlation table takes over from an element of a
chain. -/
def CTable.takeRh (ct : CTable) (s : Skb) : CTable :=
  { ct with rh := { ct.rh with
    dr1i := s.dr1i, dr2i := s.dr2i, rti := s.rti, cebi := s.cebi, cdi := s.cdi } }

/-- `sna_dfc_ct_update`, on the table that the direction selects -/
def CTable.update (ct : CTable) (s : Skb) : CTable :=
  if s.rri = .rsp then if s.sdi then { ct with negRspSense := 1 } else ct
  else if s.bci then
    { ct.takeRh s with
      entryPresent := true, snf := s.snf, negRspSense := 0, rqCode := ctRqCodeOther }
  else if s.eci then ct.takeRh s
  else ct

/-- `sna_dfc_ct_update` -/
def ctUpdate (d : DfcState) (s : Skb) : DfcState :=
  match d.direction with
  | .inbound => { d with ctRcv := d.ctRcv.update s }
  | .outbound => { d with ctSend := d.ctSend.update s }

/-! ## What sending and receiving normal-flow requests share -/

/-- The requests on the normal flow are counted, with 8 bits, until a definite
response is required. -/
def countRequest (d : DfcState) : DfcState :=
  if d.rqdRequiredOnCeb then d
  else
    { d with
      normalFlowRqCnt := d.normalFlowRqCnt + 1
      rqdRequiredOnCeb := (d.normalFlowRqCnt + 1).toNat > 16384 }

/-- What `sna_dfc_rcv_fsms` and `sna_dfc_send_fsms` note of a request that begins a
bracket. -/
def noteBracket (d : DfcState) (type : HsType) (s : Skb) : DfcState :=
  if s.bbi = false then d
  else
    match d.direction, type with
    | .outbound, .fsp =>
      { d with
        phsBbRegister := { d.phsBbRegister with num := s.snf }
        ctSend := { d.ctSend with snfWho := .fsp } }
    | .outbound, .bidder =>
      { d with
        shsBbRegister := { d.shsBbRegister with num := s.snf }
        ctSend := { d.ctSend with snfWho := .bidder } }
    | .inbound, .fsp =>
      { d with
        shsBbRegister := { d.shsBbRegister with num := s.snf }
        ctRcv := { d.ctRcv with snfWho := .bidder } }
    | .inbound, .bidder =>
      { d with
        phsBbRegister := { d.phsBbRegister with num := s.snf }
        ctRcv := { d.ctRcv with snfWho := .fsp } }

end LinuxSna.Dfc
