import LinuxSna.Framework.Token
import LinuxSna.Impl.Sna.Dfc.Fsm
import LinuxSna.Impl.Sna.Sm.Session

/-!
# Receiving, in data flow control

`sna_dfc_rx`, what it calls, and `sna_dfc_send_fsms`. Each function returns what
becomes of the buffer it is given, beside the half-session after it and what it hands
to presentation services and to path control. A buffer that has been freed is read as it
was.
-/

namespace LinuxSna.Dfc

open Framework (Fate)
open Hs (HsType HsCb Skb Mu)

/-! ## Format checks -/

/-- `sna_dfc_format_error_exp_rsp`: the sense code that it sets, if any. The address of
the data is taken for the sense data. -/
def formatErrorExpRsp (d : DfcState) (s : Skb) : Option UInt32 :=
  if s.ru ≠ .dfc then some 0x40110000
  else if s.fi = false then some 0x400F0000
  else if s.sdi ≠ s.rti then some 0x40130000
  else if s.bci = false ∨ s.eci = false then some 0x400B0000
  else if s.qri then some 0x40150000
  else if d.ctRcv.rqCode ≠ ruRcSig then some 0x40120000
  else if s.rti then some s.addr
  else none

/-- The sense codes with which a normal-flow response may be negative. -/
def normRspSense : List UInt32 := [0x08130000, 0x08140000, 0x08190000, 0x08460000, 0x088B0000]

/-- `sna_dfc_format_error_norm_rsp` -/
def formatErrorNormRsp (s : Skb) : Option UInt32 :=
  if s.bci = false ∨ s.eci = false then some 0x400B0000
  else if s.sdi ≠ s.rti then some 0x40130000
  else if s.ru = .dfc ∧ s.fi = false then some 0x400F000
  else if s.ru = .fmd ∧ s.rti = false ∧ s.fi then some 0x400F0000
  else if s.rti ∧ s.addr ∉ normRspSense then some s.addr
  else none

/-- `sna_dfc_format_error_req_fmd`, without `CONFIG_SNA_LU_STRICT` -/
def formatErrorReqFmd (type : HsType) (s : Skb) : Option UInt32 :=
  let rh := rhOf s.toMu
  if s.efi = .exp then some 0x40110000
  else if rh.rqd = false ∧ rh.rqe = false then some 0x40140000
  else if rh.rqd ∧ s.eci = false then some 0x40070000
  else if s.bbi ∧ s.bci = false then some 0x40030000
  else if s.bbi ∧ s.ru = .fmd ∧ ¬ (s.fi ∧ s.fmhType = fmhType5) then some 0x40003000
  else if s.csi then some 0x40100000
  else if s.ebi then some 0x40040000
  else if s.cdi ∧ s.eci = false then some 0x40090000
  else if s.cdi ∧ rh.rqd1 then some 0x40090000
  else if s.cebi ∧ s.eci = false then some 0x40040000
  else if s.bci ∧ (s.bbi ∧ s.qri = false ∨ s.bbi ∨ s.qri) then some 0x40180000
  else if s.cebi ∧ s.cdi then some 0x40090000
  else if s.cebi ∧ (rh.rqe2 ∨ rh.rqe3) then some 0x40040000
  else if s.cebi = false ∧ s.cdi = false ∧ s.eci ∧ rh.rqe then some 0x40190000
  else if s.fi ∧ s.cebi = false ∧ rh.rqd1 then some 0x40190000
  else if s.bbi ∧ s.cebi ∧ rh.rqe1 ∧ type = .fsp then some 0x40040000
  else if s.fi ∧ s.ru = .fmd ∧ s.fmhType ≠ fmhType5 ∧ s.fmhType ≠ fmhType7 then
    if s.fmhType = fmhType12 then if s.eci ∧ s.cebi = false then some 0x080F6051 else none
    else some 0x10084001
  else none

/-- `sizeof(sna_ru_sig)`, and `sizeof(sna_ru_lustat)` -/
def ruLen : Nat := 5

/-- The signal code and its extension are both 1. -/
def isSignal (s : Skb) : Bool :=
  s.byte 1 = 0 && s.byte 2 = 1 && s.byte 3 = 0 && s.byte 4 = 1

/-- `sna_dfc_format_error_req_dfc` -/
def formatErrorReqDfc (d : DfcState) (type : HsType) (s : Skb) : Option UInt32 :=
  let rh := rhOf s.toMu
  let rqCode := d.ctRcv.rqCode
  if s.efi = .norm ∧ rqCode ≠ ruRcBis ∧ rqCode ≠ ruRcLustat ∧ rqCode ≠ ruRcRtr then
    some 0x10030000
  else if s.efi = .exp ∧ rqCode ≠ ruRcSig then some 0x10030000
  else if s.efi = .exp ∧ rqCode = ruRcSig ∧ (s.data.length < ruLen ∨ isSignal s = false) then
    some 0x10050000
  else if s.fi = false then some 0x400F0000
  else if s.bci = false ∨ s.eci = false then some 0x400B0000
  else if s.csi then some 0x40100000
  else if s.edi then some 0x40160000
  else if s.pdi then some 0x40170000
  else if rqCode = ruRcLustat then
    if s.data.length > ruLen then formatErrorReqFmd type s
    else if s.data.length < ruLen then some 0x10050000
    else none
  else if rqCode = ruRcBis ∧ (rh.rqd2 ∨ rh.rqd3) ∨ rqCode ≠ ruRcBis ∧ rh.rqd1 = false then
    some 0x40140000
  else if s.qri then some 0x40150000
  else if s.bbi ∨ s.ebi ∨ s.cebi then some 0x400C0000
  else if s.cdi then some 0x40090000
  else none

/-- `local.sense_code`, if an error was found -/
def DfcState.setSense (d : DfcState) (sense : Option UInt32) : DfcState :=
  { d with sense := sense.getD d.sense }

/-- `sna_dfc_format_error`: the state after the checks. There is an error if a sense
code is set then, from this MU or from an earlier one. -/
def formatError (d : DfcState) (type : HsType) (s : Skb) : DfcState :=
  match s.rri, s.ru, s.efi with
  | .req, .fmd, _ => d.setSense (formatErrorReqFmd type s)
  | .req, .dfc, _ => d.setSense (formatErrorReqDfc d type s)
  | .req, _, _ => d
  | .rsp, _, .norm => d.setSense (formatErrorNormRsp s)
  | .rsp, _, .exp => d.setSense (formatErrorExpRsp d s)

/-! ## State checks -/

/-- `sna_dfc_invalid_sense_code` -/
def invalidSenseCode (d : DfcState) (type : HsType) (s : Skb) : Bool :=
  match d.bbRspState with
  | .posOwed =>
    match type with
    | .fsp => s.addr ≠ 0x08460000 && s.addr ≠ 0x88B0000
    | .bidder => s.addr ≠ 0x08130000 && s.addr ≠ 0x08140000
  | .negOwed => if d.rtrRspState = .negOwed then s.addr ≠ 0x08190000 else true
  | .reset => false

/-- An error, with the sense code that is set for it. -/
def DfcState.error (d : DfcState) (sense : UInt32) : Bool × DfcState :=
  (true, { d with sense := sense })

/-- A state check, and if it finds an error the same with output. -/
def DfcState.check (d : DfcState) (c : StateChk) (rest : Bool × DfcState) : Bool × DfcState :=
  if c.isSome then (true, d.record c) else rest

/-- `sna_dfc_rcv_state_error`. The checks of requests are made on the expedited flow,
and the state of the bracket machine is compared with an indicator. -/
def rcvStateError (d : DfcState) (type : HsType) (s : Skb) : Bool × DfcState :=
  match s.rri, s.efi with
  | .req, .exp =>
    let d := if d.bsmState = .inb ∧ s.fmhType ≠ fmhType5 then bsm d s .none else d
    if (rhOf s.toMu).rqe ∧ s.bbi ∧ s.cebi then d.error 0x40040000
    else
      d.check (bsmStateChk d s)
        (d.check (chainRcvStateChk d s .none)
          (if (qriStateChk d s false).1 then (true, (qriStateChk d s true).2) else (false, d)))
  | .req, .norm => (false, d)
  | .rsp, .norm =>
    if s.ru ≠ d.ctSend.rh.ru then d.error 0x40110000
    else if s.ru = .dfc ∧ d.ctSend.rqCode ≠ d.ctRcv.rqCode then d.error 0x40120000
    else if s.qri ≠ d.ctSend.rh.qri then d.error 0x40210000
    else if s.rti ∧ invalidSenseCode d type s then d.error 0x20120000
    else d.check (chainSendStateChk d s) (false, d)
  | .rsp, .exp => if d.sigRqOutstanding = false then d.error 0x200E0000 else (false, d)

/-- The response is to a bracket that is over, or to nothing. -/
def isStray (d : DfcState) (s : Skb) : Bool :=
  d.ctRcv.rqCode = ruRcRtr && d.sigRqOutstanding && d.currentBracket.num ≠ s.snf ||
  d.ctRcv.rqCode = ruRcSig && d.currentBracket.num ≠ s.snf ||
  (d.ctRcv.rqCode = ruRcLustat || s.ru = .fmd) &&
    (!d.sigRqOutstanding || s.snf ≠ d.currentBracket.num || d.bsmState = .betb)

/-- The stray response is a response correlation error. -/
def isCorrelationError (d : DfcState) (s : Skb) : Bool :=
  d.ctRcv.rqCode = ruRcRtr && d.sigRqOutstanding && d.currentBracket.num ≠ s.snf ||
    !s.rti && d.ctRcv.rqCode ≠ ruRcSig

/-- `sna_dfc_stray_rsp` -/
def strayRsp (d : DfcState) (s : Skb) : Bool × DfcState :=
  if isStray d s then
    if isCorrelationError d s then d.error 0x200E0000 else (true, d)
  else (false, d)

/-! ## What is handed on -/

/-- What data flow control hands to a conversation, to the resource manager or to path
control. -/
inductive Out where
  | ps (r : Ps.HsRecord)
  | rm (m : Mu)
  | pc (m : Mu)
  deriving DecidableEq

/-- What becomes of an MU that is to be sent: there is no path control, its port, link
station or connection is gone, or the data link takes it; and what is returned then. -/
inductive TxPath where
  | noPc
  | refused (err : Int)
  | taken (err : Int)

namespace TxPath

/-- What `sna_pc_tx_mu` returns, if it is called. -/
def pc : TxPath → Option Int
  | noPc => none
  | refused err => some err
  | taken err => some err

/-- The data link queues what it takes. Without path control or a link the buffer
stays where it is. -/
def fate : TxPath → Fate
  | noPc => .dropped
  | refused _ => .dropped
  | taken _ => .queue

end TxPath

/-- What the kernel and the other components do while an MU is in data flow control:
what is in memory behind the data and at which address they are, whether the MU can be
cloned, whether the session has a conversation, and what becomes of a response. -/
structure Env where
  beyond : List UInt8
  addr : UInt32
  cloned : Bool
  conversation : Bool
  tx : TxPath

/-- What a function returns, the half-session after it, what becomes of the buffer, and
what is handed on. -/
structure Done where
  err : Int
  hs : HsCb
  fate : Fate
  out : List Out

/-! ## Sending -/

/-- What `sna_tc_send_mu` does with the buffer. -/
def sendMuFate (hs : Hs) (m : Mu) (tx : TxPath) : Fate :=
  if m.efi ≠ .norm then tx.fate
  else if m.rri = .req then
    if hs.crypto ∧ m.ru = .fmd then .dropped
    else if hs.txPacing.type ≠ .none ∧
        (hs.writeQueue.mus ≠ [] ∨ m.mpf = .bbiu ∧ hs.txPacing.credit = 0) then .queue
    else tx.fate
  else if hs.txPacing.type = .none ∨ hs.writeQueue.mus ≠ [] ∨ m.qri = false then tx.fate
  else .queue

/-- The state machines in `sna_dfc_send_fsms`, for an MU that has its number -/
def sendStep (d : DfcState) (type : HsType) (s : Skb) : DfcState :=
  if s.rri = .req ∧ s.efi = .exp then { d with sigRqOutstanding := true }
  else if s.rri = .rsp ∧ s.efi = .norm then chainRcv (ctUpdate d s) s .none
  else
    let d := ctUpdate (countRequest d) s
    let d := if d.chainRcvState = .pendSendReply then chainRcv d s .none else d
    let d := noteBracket d type s
    let d := if s.bci then chainSend d s .beginChain else d
    if s.eci then chainSend d s .endChain else d

/-- `sna_dfc_send_fsms` -/
def sendFsms (hs : HsCb) (s : Skb) (tx : TxPath) : Done :=
  let (tc, m) := hs.tc.stamp s.toMu
  let s := { s with toMu := m }
  let d := sendStep { hs.dfc with direction := .outbound } hs.type s
  let r := tc.sendMu m tx.pc
  ⟨r.err, { hs with tc := r.hs, dfc := d }, sendMuFate tc m tx, r.mus.map .pc⟩

/-- `sna_dfc_init_th_rh`: the headers are new, and before the RU. -/
def initThRh (s : Skb) : Skb :=
  { s with
    pushed := true
    mpf := .wholeBiu, efi := .norm, odai := false, daf := 0, oaf := 0, snf := 0
    rri := .req, ru := .fmd, fi := false, sdi := false, bci := false, eci := false
    dr1i := true, llci := false, dr2i := false, rti := true, rlwi := false, qri := false
    pi := false, bbi := false, ebi := false, cdi := false, csi := false, edi := false
    pdi := false, cebi := false }

/-- The response that `sna_dfc_send_rsp_mu` makes of a request. Its callers ask for
a positive one; the flow is looked up in the headers when they are new. -/
def rspMu (s : Skb) : Skb :=
  { initThRh s with rri := .rsp, bci := true, eci := true, rti := false }

/-- `sna_dfc_send_rsp_mu`, which loses control of the buffer -/
def sendRspMu (hs : HsCb) (s : Skb) (tx : TxPath) : Done :=
  let direction := hs.dfc.direction
  let hs := { hs with dfc := { hs.dfc with direction := .outbound } }
  let r :=
    if (chainRcvStateChk hs.dfc (rspMu s) .none).isNone then sendFsms hs (rspMu s) tx
    else ⟨0, hs, .free, []⟩
  { r with err := 0, hs := { r.hs with dfc := { r.hs.dfc with direction := direction } } }

/-! ## Presentation services -/

/-- `sna_dfc_build_hs_to_ps_header`, the type; a new buffer has the first one. -/
def hsPsType (s : Skb) : { t : Ps.CtrlType // t ∈ Ps.CtrlType.received } :=
  let rh := rhOf s.toMu
  if s.eci = false then ⟨.notEndOfData, by decide⟩
  else if rh.rqe1 ∧ s.cdi then ⟨.prepareToRcvFlush, by decide⟩
  else if (rh.rqd1 ∨ rh.rqe1) ∧ s.cebi then ⟨.deallocateFlush, by decide⟩
  else if (rh.rqd2 ∨ rh.rqd3) ∧ s.cdi = false ∧ s.cebi = false then ⟨.confirm, by decide⟩
  else if (rh.rqd2 ∨ rh.rqe2 ∨ rh.rqd3 ∨ rh.rqe3) ∧ s.cdi then ⟨.prepareToRcvConfirm, by decide⟩
  else if (rh.rqd2 ∨ rh.rqd3) ∧ s.cebi then ⟨.deallocateConfirm, by decide⟩
  else ⟨.notEndOfData, by decide⟩

/-- The record of a received MU. -/
def psRecord (s : Skb) : Ps.HsRecord :=
  .mu { data := s.data, hsPsType := (hsPsType s).1, fi := s.fi, received := (hsPsType s).2 }

/-- `sna_dfc_send_to_ps` of an MU, which is queued if there is a conversation. -/
def sendToPs (s : Skb) (conversation : Bool) : Fate × List Out :=
  if conversation then (.queue, [.ps (psRecord s)]) else (.free, [])

/-- `sna_dfc_process_ru_data`. What the resource manager does with an attach and with a
security header is not written yet. -/
def processRuData (d : DfcState) (type : HsType) (s : Skb) (conversation : Bool) :
    DfcState × Fate × List Out :=
  if s.fi ∧ s.ru = .fmd then
    if s.fmhType = fmhType5 then
      let d := bsm d s .inb
      let num := if type = .fsp then d.shsBbRegister.num else d.phsBbRegister.num
      ({ d with currentBracket := { d.currentBracket with num := num } }, .dropped, [.rm s.toMu])
    else if s.fmhType = fmhType7 then (d, sendToPs s conversation)
    else if s.fmhType = fmhType12 then (d, .dropped, [.rm s.toMu])
    else (d, .dropped, [])
  else if s.eci ∨ s.data ≠ [] then (d, sendToPs s conversation)
  else (d, .free, [])

/-- A BIS, RTR or LUSTAT. -/
def isBidRequest (s : Skb) : Bool :=
  s.ru = .dfc && (s.byte 0 = ruRcBis || s.byte 0 = ruRcRtr || s.byte 0 = ruRcLustat)

/-- The request is the reply that the last chain sent asked for. -/
def isReply (d : DfcState) (s : Skb) : Bool :=
  okToReply d s && (d.ctSend.rh.rqe2 || d.ctSend.rh.rqe3)

/-- `sna_dfc_generate_rm_ps_inputs`. A reply confirms: the record for that cannot be made,
so `sna_dfc_send_to_ps` frees the MU. -/
def generateRmPsInputs (d : DfcState) (type : HsType) (s : Skb) (conversation : Bool) :
    DfcState × Fate × List Out :=
  if s.bbi then (d, .free, [])
  else if isBidRequest s then (d, .free, [])
  else
    let r := processRuData d type s conversation
    (r.1, (if isReply d s then .free else .dropped) + r.2.1, r.2.2)

/-! ## Receiving -/

/-- `sna_dfc_send_rsp_if_required`, on the clone of the MU -/
def sendRspIfRequired (hs : HsCb) (s : Skb) (tx : TxPath) : HsCb × List Out :=
  if hs.dfc.chainRcvState = .pendRsp then
    ((sendRspMu hs s tx).hs, (sendRspMu hs s tx).out)
  else (hs, [])

/-- The state machines in `sna_dfc_rcv_fsms`, for a normal-flow request -/
def rcvStep (d : DfcState) (s : Skb) : DfcState :=
  let d := rcvPurge d s false
  let d := if d.chainSendState = .pendRcvReply then chainSend d s .none else d
  let d := if s.bci then chainRcv d s .beginChain else d
  let d := if s.eci then chainRcv d s .endChain else d
  qriChainRcv d s

/-- `sna_dfc_rcv_fsms`, a normal-flow request -/
def rcvRequest (hs : HsCb) (s : Skb) (e : Env) : Done :=
  let d := noteBracket (ctUpdate (countRequest hs.dfc) s) hs.type s
  let r :=
    if d.rcvPurgeState ≠ .purge then generateRmPsInputs d hs.type s e.conversation
    else (d, .free, [])
  let t := sendRspIfRequired { hs with dfc := rcvStep r.1 s } s e.tx
  ⟨0, t.1, r.2.1, r.2.2 ++ t.2⟩

/-- `sna_dfc_rcv_fsms`, a response. `sna_dfc_send_rsp_to_rm_or_ps` does nothing. -/
def rcvResponse (hs : HsCb) (s : Skb) : Done :=
  match s.efi with
  | .norm => ⟨0, { hs with dfc := chainSend (ctUpdate hs.dfc s) s .none }, .dropped, []⟩
  | .exp => ⟨0, { hs with dfc := { hs.dfc with sigRqOutstanding := false } }, .dropped, []⟩

/-- `sna_dfc_rcv_fsms` -/
def rcvFsms (hs : HsCb) (s : Skb) (e : Env) : Done :=
  let (err, d) := rcvStateError hs.dfc hs.type s
  if err then ⟨0, { hs with dfc := d }, .free, []⟩
  else
    let d := { d with lastMu := e.cloned }
    if e.cloned = false then ⟨0, { hs with dfc := d }, .free, []⟩
    else
      let hs := { hs with dfc := { d with ctRcv := { d.ctRcv with rh := rhOf s.toMu } } }
      match s.rri, s.efi with
      | .req, .norm => rcvRequest hs s e
      | .req, .exp => ⟨0, hs, .free, []⟩
      | .rsp, _ => rcvResponse hs s

/-- The request code that `sna_dfc_rx` notes: of those that it knows. -/
def rqCode (s : Skb) : UInt8 :=
  if s.ru = .dfc ∧ s.byte 0 ∈ [ruRcCrv, ruRcBis, ruRcLustat, ruRcRtr, ruRcSig] then s.byte 0
  else ctRqCodeOther

/-- The half-session in which `sna_dfc_rx` checks the MU. -/
def inbound (d : DfcState) (s : Skb) : DfcState :=
  let d := { d with direction := .inbound }
  if d.sense = 0 then { d with ctRcv := { d.ctRcv with rqCode := rqCode s } } else d

/-- `sna_dfc_rx` of an MU in a buffer -/
def rxSkb (hs : HsCb) (s : Skb) (e : Env) : Done :=
  let d := formatError (inbound hs.dfc s) hs.type s
  let hs := { hs with dfc := d }
  if d.sense ≠ 0 then ⟨-Hs.einval, hs, .free, []⟩
  else
    match s.rri, s.efi with
    | .req, .norm => { rcvFsms hs s e with err := 0 }
    | .req, .exp =>
      sendRspMu { hs with dfc := { d with sigReceived := true, sigSnfSqn := s.snf.toUInt8 } } s e.tx
    | .rsp, _ =>
      let (stray, d) := strayRsp d s
      let hs := { hs with dfc := d }
      if stray then ⟨0, hs, .free, []⟩ else { rcvFsms hs s e with err := 0 }

/-- `sna_dfc_rx` -/
def rx (hs : HsCb) (m : Mu) (e : Env) : Done :=
  rxSkb hs { m with beyond := e.beyond, addr := e.addr } e

end LinuxSna.Dfc
