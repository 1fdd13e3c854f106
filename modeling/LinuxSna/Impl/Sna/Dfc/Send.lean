import LinuxSna.Framework.Run
import LinuxSna.Impl.Sna.Dfc.Receive
import LinuxSna.Impl.Sna.Ps.Send

/-!
# Sending, in data flow control

`sna_dfc_send_fmd_mu`, `sna_dfc_send_from_ps_req` and `sna_dfc_send_rsp_mu` with all of its
arguments. What happens to a half-session is the events of a machine: it is given MUs and
records, and it is initialised again for the next session.
-/

namespace LinuxSna.Dfc

open Hs (Bind HsCb Mu Skb)
open Ps (CtrlType PsMu)

def enomem : Int := 12

/-! ## The MU that is filled -/

/-- A record of presentation services for the half-session: its `sna_ctrl`, and its
data. -/
structure PsToHs where
  type : CtrlType
  fmh : Bool
  data : List UInt8

/-- An MU of the conversation, as a record. -/
def PsToHs.ofMu (mu : PsMu) : PsToHs := ⟨mu.type, false, mu.data⟩

/-- `hs->send_mu`: the MU, and the room behind its data. -/
structure SendMu where
  mu : Mu
  room : Nat

/-- The data copied behind those that are there, to what `skb_put` gives; `none` if the
kernel stops. -/
def SendMu.put (b : SendMu) (bytes : List UInt8) : Option SendMu :=
  if bytes.length ≤ b.room then
    some { mu := { b.mu with data := b.mu.data ++ bytes }, room := b.room - bytes.length }
  else none

/-- The buffer, for the functions that look into it. What is behind the data and where they
are is not looked at. -/
def SendMu.skb (b : SendMu) : Skb := { b.mu with beyond := [], addr := 0, pushed := true }

/-- What the kernel and the other components do while a record is sent: the room that a
new buffer has beyond what was asked for, if there is one; what the data link reserves in
it; and what becomes of the MU that is sent. -/
structure SendEnv where
  alloc : Option Nat
  reserve : Nat
  tx : TxPath

/-- `sizeof(sna_fid2)` and `sizeof(sna_rh)` -/
def headersLen : Nat := 9

/-- The RU of a new buffer is empty, and `sna_dfc_init_th_rh` sets all of its headers. -/
def newMu : Mu :=
  (initThRh
    { mpf := .wholeBiu, efi := .norm, snf := 0, rri := .req, ru := .fmd, sdi := false,
      dr1i := false, dr2i := false, rlwi := false, qri := false, pi := false, edi := false,
      data := [], beyond := [], addr := 0 }).toMu

/-- `sna_dfc_create_and_init_mu` and `sna_dfc_init_th_rh`. The headers have room in
the `tx_max_btu` bytes that are asked for. -/
def createAndInitMu (txMaxBtu : Nat) (e : SendEnv) : Option SendMu :=
  e.alloc.map fun slack => ⟨newMu, txMaxBtu + slack - (e.reserve + headersLen)⟩

/-- `SNA_DFC_SET_RQE1` -/
def setRqe1 (m : Mu) : Mu := { m with dr1i := true, dr2i := false, rti := true }

/-- `SNA_DFC_SET_RQD3` -/
def setRqd3 (m : Mu) : Mu := { m with dr1i := true, dr2i := true, rti := false }

/-- `SNA_DFC_SET_RQE3` -/
def setRqe3 (m : Mu) : Mu := { m with dr1i := true, dr2i := true, rti := true }

/-- The bits that the type of a record sets. A Deallocate with flush leaves the form of
response. -/
def setType (type : CtrlType) (m : Mu) : Mu :=
  match type with
  | .recAllocate => { m with cdi := true, pi := true }
  | .recFlush => setRqe1 { m with eci := false }
  | .confirm => setRqd3 { m with eci := true }
  | .prepareToRcvConfirmShort => setRqd3 { m with eci := true, cdi := true }
  | .prepareToRcvConfirmLong => setRqe3 { m with eci := true, cdi := true }
  | .prepareToRcvFlush => setRqe1 { m with eci := true, cdi := true }
  | .deallocateConfirm => setRqd3 { m with eci := true, cebi := true }
  | .deallocateFlush => { m with eci := true, cebi := true }
  | _ => m

/-- The bits that a record sets in the RH, with the state of the chain that is sent. -/
def setRh (chain : ChainSendState) (r : PsToHs) (m : Mu) : Mu :=
  setType r.type { m with fi := m.fi || r.fmh, bci := m.bci || chain = .betc }

/-! ## `sna_dfc_send_fmd_mu` -/

/-- A half-session with the MU that it fills. -/
structure Sender where
  hs : HsCb
  sendMu : Option SendMu
  agrees : hs.dfc.sendMu = sendMu.isSome

/-- A half-session which has been given the MU to fill. -/
def Sender.of (hs : HsCb) (sendMu : Option SendMu) : Sender where
  hs := { hs with dfc := { hs.dfc with sendMu := sendMu.isSome } }
  sendMu := sendMu
  agrees := rfl

/-- What `sna_dfc_send_fmd_mu` returns, the half-session after it, what `rcb->send_mu`
points to, the MU that `sna_tc_send_mu` is given, and what is handed on. -/
structure FmdDone where
  err : Int
  sender : Sender
  rcbSendMu : Option PsMu
  given : Option Mu
  out : List Out

/-- The end of `sna_dfc_send_fmd_mu`, when the buffer is flushed: it takes what is left in
`rcb->send_mu`. -/
def flushMu (hs : HsCb) (b : SendMu) (rcbSendMu : Option PsMu) (tx : TxPath) : Option FmdDone :=
  (b.put (rcbSendMu.elim [] (·.data))).map fun b =>
    let d := sendFsms hs b.skb tx
    ⟨d.err, .of d.hs none, none, some (hs.tc.stamp b.mu).2, d.out⟩

/-- `sna_dfc_send_fmd_mu`; `none` if the kernel stops. The buffer is flushed for one type
only. -/
def sendFmdMu (t : Sender) (r : PsToHs) (txMaxBtu : Nat) (rcbSendMu : Option PsMu) (e : SendEnv) :
    Option FmdDone :=
  match t.sendMu <|> createAndInitMu txMaxBtu e with
  | none => some ⟨-enomem, t, rcbSendMu, none, []⟩
  | some b =>
    let b := { b with mu := setRh t.hs.dfc.chainSendState r b.mu }
    (b.put r.data).bind fun b =>
      if r.type = .prepareToRcvFlush then flushMu t.hs b rcbSendMu e.tx
      else some ⟨0, .of t.hs (some b), rcbSendMu, none, []⟩

/-- `sna_dfc_send_from_ps_req` -/
def sendFromPsReq (hs : HsCb) (s : Skb) (tx : TxPath) : Done := sendFsms hs (initThRh s) tx

/-! ## `sna_dfc_send_rsp_mu` -/

/-- A 32-bit number as the processor stores it. -/
def senseBytes (sense : UInt32) : List UInt8 :=
  [sense.toUInt8, (sense / 2 ^ 8).toUInt8, (sense / 2 ^ 16).toUInt8, (sense / 2 ^ 24).toUInt8]

/-- The response that `sna_dfc_send_rsp_mu` makes in the buffer of a request. The flow is
looked up in the headers when they are new. -/
def rspMuOf (s : Skb) (negative : Bool) (sense : UInt32) : Skb :=
  if negative then
    { rspMu s with rti := true, sdi := true, data := s.data ++ senseBytes sense }
  else rspMu s

/-- `sna_dfc_send_rsp_mu`, and what it gives to `sna_tc_send_mu`; `none` if the kernel
stops. Without the buffer of a request it does: the state check reads it. With one there is
room for the sense data. It does not use its argument `expedite`. -/
def sendRspMuOf (hs : HsCb) (s : Option Skb) (alloc _expedite negative : Bool) (sense : UInt32)
    (tx : TxPath) : Option (Done × Option Mu) :=
  match s with
  | none => if alloc then none else some (⟨-enomem, hs, .dropped, []⟩, none)
  | some s =>
    let direction := hs.dfc.direction
    let hs := { hs with dfc := { hs.dfc with direction := .outbound } }
    let r := rspMuOf s negative sense
    let d :=
      if (chainRcvStateChk hs.dfc r .none).isNone then
        (sendFsms hs r tx, some (hs.tc.stamp r.toMu).2)
      else (⟨0, hs, .free, []⟩, none)
    some ({ d.1 with
      err := 0, hs := { d.1.hs with dfc := { d.1.hs.dfc with direction := direction } } }, d.2)

/-! ## What happens to a half-session -/

/-- An MU is received; a request and a record come from presentation services; a response
is asked for; the half-session is initialised; or transmission control has changed its own
fields. -/
inductive HsEvent where
  | received (s : Skb) (e : Env)
  | request (s : Skb) (tx : TxPath)
  | record (r : PsToHs) (txMaxBtu : Nat) (rcbSendMu : Option PsMu) (e : SendEnv)
  | response (s : Skb) (expedite negative : Bool) (sense : UInt32) (tx : TxPath)
  | finish (pcIndex : UInt32) (lf : Asm.Lfsid) (bind : Bind) (copied : Bool)
  | tc (tc : Hs)

/-- The half-session after an event; `none` if the kernel stops. -/
def hsStep (t : Sender) : HsEvent → Option Sender
  | .received s e => some (.of (rxSkb t.hs s e).hs t.sendMu)
  | .request s tx => some (.of (sendFromPsReq t.hs s tx).hs t.sendMu)
  | .record r txMaxBtu rcbSendMu e => (sendFmdMu t r txMaxBtu rcbSendMu e).map (·.sender)
  | .response s expedite negative sense tx =>
    (sendRspMuOf t.hs (some s) true expedite negative sense tx).map fun r => .of r.1.hs t.sendMu
  | .finish pcIndex lf bind copied =>
    some (.of (Sm.finishHs t.hs pcIndex lf bind copied) (if copied then none else t.sendMu))
  | .tc tc => some { t with hs := { t.hs with tc := tc } }

/-- What `sna_hs_init` leaves. -/
def Sender.new (index luluIndex : UInt32) (type : Hs.HsType) : Sender where
  hs :=
    { index := index, pcIndex := 0, luluIndex := luluIndex, lfsid := .zero, type := type,
      rxBind := none, tc := Hs.zero, dfc := .zero }
  sendMu := none
  agrees := rfl

/-- The half-session is what some events have made of a new one. -/
def Sender.Reachable (t : Sender) : Prop :=
  ∃ index luluIndex type es, Framework.run hsStep (.new index luluIndex type) es = some t

/-! ## What a conversation sends -/

/-- The types of the records with which what has been passed is to be sent. -/
def sendingTypes : List CtrlType :=
  [.recFlush, .confirm, .prepareToRcvConfirmShort, .prepareToRcvConfirmLong, .prepareToRcvFlush,
   .deallocateConfirm, .deallocateFlush]

theorem prepareToRcvFlush_sends : .prepareToRcvFlush ∈ sendingTypes := by decide

/-- A record that a conversation passes on: an Attach with its header, data, or one with which
what has been passed is to be sent. -/
inductive ConvRecord where
  | attach (fmh5 : List UInt8)
  | data (bytes : List UInt8)
  | control (type : CtrlType) (sends : type ∈ sendingTypes)
  deriving DecidableEq

/-- A conversation and its half-session. `passed` are the bytes of the records so far, and
`given` the MUs that `sna_tc_send_mu` has been given; the code keeps neither. -/
structure Traffic where
  sender : Sender
  c : Ps.Conversation
  passed : List UInt8
  given : List Mu

namespace Traffic

/-- `sna_hs_tx_ps_mu_data` -/
def txData (st : Traffic) (r : PsToHs) (e : SendEnv) : Option Traffic :=
  (sendFmdMu st.sender r st.c.rcb.txMaxBtu st.c.rcb.sendMu e).map fun d =>
    { st with
      sender := d.sender
      c.rcb.sendMu := d.rcbSendMu
      given := st.given ++ d.given.toList }

/-- What the buffer management hands on; at a null pointer the kernel stops. It makes no
requests. -/
def txMu (e : SendEnv) (st : Traffic) : Ps.ToHs → Option Traffic
  | .data (some mu) => st.txData (.ofMu mu) e
  | .data none => none
  | .req _ => some st

/-- The conversation passes a record on: an Attach as `sna_ps_conv_build_and_send_fmh5`
does, data through the buffer management, and the others in a buffer without data. -/
def step (st : Traffic) (ev : ConvRecord × SendEnv) : Option Traffic :=
  match ev.1 with
  | .attach fmh5 =>
    { st with passed := st.passed ++ fmh5 }.txData ⟨.recAllocate, true, fmh5⟩ ev.2
  | .data bytes =>
    (Ps.sendDataBufferManagement st.c bytes false).bind fun r =>
      (r.2.toHs.drop st.c.toHs.length).foldlM (txMu ev.2)
        { st with c := r.2, passed := st.passed ++ bytes }
  | .control type _ => st.txData ⟨type, false, []⟩ ev.2

end Traffic

end LinuxSna.Dfc
