import LinuxSna.Framework.LongDivision
import LinuxSna.Framework.Table
import LinuxSna.Impl.Sna.Asm
import LinuxSna.Impl.Sna.Dfc.State
import LinuxSna.Impl.Sna.Ps.Conversation
import LinuxSna.Impl.Sna.Rm.Mode

/-!
# Session activation

The control blocks that the activation of a session reads and changes, and the
functions of the resource manager, the session manager, session services and the
half-session router that it goes through. `sna_cs_activate_route` sleeps until
the link station is active or has failed: a function that leads there comes to
`Progress.sleeps`, and what follows is an event of its own. `sna_sm_fsm_status`
calls the function of the input that was set before; here they are called
directly. What the kernel and the other components do is an argument.

The BIND of a session carries the maximum RU sizes of the mode, one byte each
with a mantissa in the upper and an exponent in the lower four bits, and the
session parameters that `sna_sm_bind_pkt_init` takes from the mode.
-/

namespace LinuxSna.Sm

open Rm (ModeCb)

/-- `sna_sm_bind_ru_unfold` -/
def bindRuUnfold (a b : UInt8) : UInt32 :=
  a.toUInt32 * (· * 2)^[b.toNat - 1] 2

/-- `sna_sm_bind_ru_fold`. The number has 32 bits, so that is how often it can
be halved. -/
def bindRuFold (n : UInt32) : UInt8 :=
  if n.toNat < 8 then 0x80
  else if n.toNat ≥ 491520 then 0xFF
  else
    let (n, b) := Framework.halve 15 32 n.toNat
    UInt8.ofNat n * 16 ||| UInt8.ofNat b

/-- `sna_sm_bind_pkt_init`, what `sna_tc_init` reads of it. The windows have 6
bits; `whole_biu` is `SNA_WHOLE_BIU_SEG`. -/
def bindPktInit (mode : ModeCb) : Hs.Bind where
  secTxWinSize := mode.txPacing % 64
  adaptivePacing := true
  secRxWinSize := mode.rxPacing % 64
  secMaxRuSize := bindRuFold mode.rxMaxRu.toUInt32
  priMaxRuSize := bindRuFold mode.txMaxRu.toUInt32
  priTxWinSize := mode.txPacing % 64
  priRxWinSize := mode.rxPacing % 64
  wholeBiu := false
  cryptoSupp := false

end LinuxSna.Sm

namespace LinuxSna

open Hs (HsType)
open Framework (find update newIndex)

namespace Rm

/-- `SNA_TP_STATE_` -/
inductive TpState where
  | reset
  | pending
  | active
  deriving DecidableEq

/-- `struct sna_tp_cb`, what the resource manager uses of it -/
structure TpCb where
  index : UInt32
  rcbIndex : UInt32
  modeIndex : UInt32
  localLuIndex : UInt32
  remoteLuIndex : UInt32
  state : TpState
  immediate : Bool
  deriving DecidableEq

/-- `struct sna_rcb`, the indexes and limits, and what presentation services use
of it -/
structure Rcb where
  index : UInt32
  hsIndex : UInt32
  tpIndex : UInt32
  modeIndex : UInt32
  localLuIndex : UInt32
  rxMaxBtu : UInt16
  ps : Ps.Rcb

end Rm

namespace Hs

/-- `struct sna_hs_cb`. The BIND is what `sna_tc_init` reads of the buffer saved. -/
structure HsCb where
  index : UInt32
  pcIndex : UInt32
  luluIndex : UInt32
  lfsid : Asm.Lfsid
  type : HsType
  rxBind : Option Bind
  tc : Hs
  dfc : Dfc.DfcState

/-- What `new` leaves of the fields of transmission control. -/
def zero : Hs where
  maxRxRuSize := 0
  sqnRcvCnt := 0
  rlwi := false
  firstWs := 0
  unsolicitedIpmOutstanding := false
  adjustIpmAckOutstanding := false
  unsolicitedNws := 0
  reserveFlag := .no
  segmenting := false
  crypto := false
  rxPacing := ⟨.none, 0, 0⟩
  txPacing := ⟨.none, 0, 0⟩
  writeQueue := .empty
  segments := []
  segmentNum := 0
  segmentLen := 0
  segmentIn := .none
  sqnTxCnt := 0

end Hs

namespace Pc

/-- `struct sna_pc_cb`, what the session manager and presentation services use
of it -/
structure PcCb where
  index : UInt32
  txMaxBtu : UInt16
  rxMaxBtu : UInt16

end Pc

namespace Sm

open Asm (AsmCb Lfsid)
open Hs (HsCb Bind)
open Pc (PcCb)
open Rm (ModeCb RemoteLuCb TpCb Rcb sessionActivationPolarity)

/-- `SNA_SM_FSM_STATE_` -/
inductive FsmState where
  | res
  | pndCin
  | pndBinRsp
  | pndIniHsRspPlu
  | pndIniHsRspSlu
  | act
  deriving DecidableEq

/-- `struct sna_lulu_cb` -/
structure Lulu where
  index : UInt32
  modeIndex : UInt32
  remoteLuIndex : UInt32
  pcIndex : UInt32
  hsIndex : UInt32
  tpIndex : UInt32
  type : HsType
  lfsid : Lfsid
  state : FsmState
  deriving DecidableEq

/-- What was counted in a mode: a pending or an active session with a remote LU. -/
structure Counted where
  modeIndex : UInt32
  remoteLuIndex : UInt32
  type : HsType
  active : Bool

/-- The lists of the components, and the numbers given last. `waiting` are the
sessions whose activation sleeps in `sna_cs_activate_route`. `bound` are those
whose BIND was given to path control and `counted` what the modes have counted;
the code keeps neither. -/
structure Lists where
  modeList : List ModeCb
  remoteLuList : List RemoteLuCb
  tpList : List TpCb
  rcbList : List Rcb
  rcbSystemIndex : UInt32
  luluList : List Lulu
  luluSystemIndex : UInt32
  hsList : List HsCb
  hsSystemIndex : UInt32
  asmList : List AsmCb
  pcList : List PcCb
  waiting : List UInt32
  bound : List UInt32
  counted : List Counted

namespace Lists

def mode (l : Lists) (i : UInt32) : Option ModeCb := find ModeCb.index i l.modeList
def remoteLu (l : Lists) (i : UInt32) : Option RemoteLuCb := find RemoteLuCb.index i l.remoteLuList
def tp (l : Lists) (i : UInt32) : Option TpCb := find TpCb.index i l.tpList
def rcb (l : Lists) (i : UInt32) : Option Rcb := find Rcb.index i l.rcbList
def lulu (l : Lists) (i : UInt32) : Option Lulu := find Lulu.index i l.luluList
def hs (l : Lists) (i : UInt32) : Option HsCb := find HsCb.index i l.hsList
def pc (l : Lists) (i : UInt32) : Option PcCb := find PcCb.index i l.pcList

/-- What is written to the control block of a session. -/
def setLulu (l : Lists) (lulu : Lulu) : Lists :=
  { l with luluList := update Lulu.index lulu.index (fun _ => lulu) l.luluList }

def setHs (l : Lists) (hs : HsCb) : Lists :=
  { l with hsList := update HsCb.index hs.index (fun _ => hs) l.hsList }

/-- The counters of a mode are counted up. -/
def countPending (l : Lists) (mode : ModeCb) (remoteLu : UInt32) (type : HsType) : Lists :=
  { l with
    modeList := update ModeCb.index mode.index (·.countPending type) l.modeList
    counted := ⟨mode.index, remoteLu, type, false⟩ :: l.counted }

def countActive (l : Lists) (mode : ModeCb) (remoteLu : UInt32) (type : HsType) : Lists :=
  { l with
    modeList := update ModeCb.index mode.index (·.countActive type) l.modeList
    counted := ⟨mode.index, remoteLu, type, true⟩ :: l.counted }

end Lists

def einval : Int := 22
def enoent : Int := 2
def enomem : Int := 12
def eusers : Int := 87

/-! ## The resource manager allocates a conversation -/

/-- `sna_rm_create_rcb`; `none` if there is no number left. -/
def createRcb (l : Lists) (tp : TpCb) (alloc : Bool) : Option (Option Rcb × Lists) :=
  if alloc then
    (newIndex (l.rcbList.map (·.index)) (l.rcbList.length + 1) l.rcbSystemIndex).map fun i =>
      let rcb : Rcb :=
        { index := i, hsIndex := 0, tpIndex := tp.index, modeIndex := tp.modeIndex,
          localLuIndex := tp.localLuIndex, rxMaxBtu := 0, ps := {} }
      (some rcb, { l with rcbSystemIndex := i, rcbList := l.rcbList ++ [rcb] })
  else some (none, l)

/-- `sna_rm_test_for_free_fsp_session`. The session control block is a pointer that
was never set: `scbHs` is what is read as its half-session. -/
def testForFreeFspSession (l : Lists) (tp : TpCb) (alloc : Bool) (scbHs : UInt32) :
    Option (Option Rcb × Lists) :=
  match l.mode tp.modeIndex with
  | none => some (none, l)
  | some mode =>
    if mode.active.conwinners < mode.userMax.conwinners then some (none, l)
    else
      (createRcb l tp alloc).map fun r =>
        match r.1 with
        | none => (none, r.2)
        | some rcb =>
          let hsIndex := if (r.2.hs scbHs).isSome then scbHs else rcb.hsIndex
          let rcb := { rcb with hsIndex := hsIndex }
          (some rcb,
            { r.2 with rcbList := update Rcb.index rcb.index (fun _ => rcb) r.2.rcbList }.countActive mode
              tp.remoteLuIndex .fsp)

/-- `sna_rm_alloc_rcb`, and what `sna_ps_conv_alloc_proc` keeps of it in the
program's control block -/
def allocRcb (l : Lists) (tp : TpCb) (alloc : Bool) (scbHs : UInt32) : Option (Option Rcb × Lists) :=
  (if tp.immediate then testForFreeFspSession l tp alloc scbHs else createRcb l tp alloc).map fun r =>
    match r.1 with
    | none => (none, r.2)
    | some rcb =>
      (some rcb,
        { r.2 with tpList := update TpCb.index tp.index ({ · with rcbIndex := rcb.index }) r.2.tpList })

/-! ## The resource manager is told of an active session -/

/-- `sna_rm_successful_session_activation` -/
def successfulSessionActivation (l : Lists) (lulu : Lulu) : Lists :=
  match l.tp lulu.tpIndex with
  | none => l
  | some tp =>
    match l.rcb tp.rcbIndex with
    | none => l
    | some rcb =>
      { l with
        rcbList := update Rcb.index rcb.index ({ · with hsIndex := lulu.hsIndex }) l.rcbList
        tpList := update TpCb.index tp.index ({ · with state := .active }) l.tpList }

/-- `sna_rm_session_activated_proc` -/
def sessionActivatedProc (l : Lists) (lulu : Lulu) : Int × Lists :=
  match l.mode lulu.modeIndex with
  | none => (-enoent, l)
  | some mode =>
    match l.remoteLu lulu.remoteLuIndex with
    | none => (-enoent, l)
    | some remoteLu =>
      (0, successfulSessionActivation (l.countActive mode remoteLu.index lulu.type) lulu)

/-! ## The state machine -/

/-- `sna_sm_fsm_input_pos_init_hs_rsp` -/
def fsmInputPosInitHsRsp (l : Lists) (lulu : Lulu) : Int × Lists :=
  match lulu.state with
  | .pndIniHsRspPlu =>
    let lulu := { lulu with state := .act }
    sessionActivatedProc (l.setLulu lulu) lulu
  | .pndIniHsRspSlu => (0, l.setLulu { lulu with state := .act })
  | _ => (-einval, l)

/-- `sna_sm_fsm_input_pos_bind_rsp_ok` -/
def fsmInputPosBindRspOk (l : Lists) (lulu : Lulu) : Int × Lists :=
  if lulu.state ≠ .pndBinRsp then (-einval, l)
  else
    let lulu := { lulu with state := .pndIniHsRspPlu }
    fsmInputPosInitHsRsp (l.setLulu lulu) lulu

/-- `sna_sm_fsm_input_pos_bind_rsp_ng` and `sna_sm_fsm_input_neg_bind_rsp`: what
their outputs R and E do is not written yet. -/
def fsmInputBindRspNg (l : Lists) (lulu : Lulu) : Int × Lists :=
  if lulu.state ≠ .pndBinRsp then (-einval, l) else (0, l.setLulu { lulu with state := .res })

/-- `sna_sm_fsm_input_cinit_signal_ng`; output L does nothing. -/
def fsmInputCinitSignalNg (l : Lists) (lulu : Lulu) : Int × Lists :=
  if lulu.state ≠ .pndCin then (-einval, l) else (0, l.setLulu { lulu with state := .res })

/-- `sna_sm_fsm_input_init_signal_neg_rsp`; output B does nothing. The error
is not negative. -/
def fsmInputInitSignalNegRsp (l : Lists) (lulu : Lulu) : Int × Lists :=
  if lulu.state ≠ .pndCin then (einval, l) else (0, l.setLulu { lulu with state := .res })

/-- `sna_sm_build_and_send_bind_req`. The link station and its port may be
gone and memory short: then there is an error. -/
def buildAndSendBindReq (l : Lists) (lulu : Lulu) (err : Int) : Int × Lists :=
  match l.pc lulu.pcIndex with
  | none => (-enoent, l)
  | some _ => if err < 0 then (err, l) else (0, { l with bound := lulu.index :: l.bound })

/-- `sna_sm_fsm_input_cinit_signal_ok` -/
def fsmInputCinitSignalOk (l : Lists) (lulu : Lulu) (err : Int) : Int × Lists :=
  if lulu.state ≠ .pndCin then (-einval, l)
  else
    let lulu := { lulu with state := .pndBinRsp }
    buildAndSendBindReq (l.setLulu lulu) lulu err

/-! ## The half-session -/

/-- `sna_hs_init`; `none` if there is no number left. -/
def hsInit (l : Lists) (lulu : Lulu) (alloc : Bool) : Option (Int × UInt32 × Lists) :=
  if alloc then
    (newIndex (l.hsList.map (·.index)) (l.hsList.length + 1) l.hsSystemIndex).map fun i =>
      let hs : HsCb :=
        { index := i, pcIndex := 0, luluIndex := lulu.index, lfsid := Lfsid.zero, type := lulu.type,
          rxBind := none, tc := Hs.zero, dfc := .zero }
      (0, i, { l with hsSystemIndex := i, hsList := hs :: l.hsList })
  else some (-enomem, 0, l)

/-- What `sna_hs_init_finish` leaves of a half-session, if the BIND can be
copied and if not. -/
def finishHs (hs : HsCb) (pcIndex : UInt32) (lf : Lfsid) (bind : Bind) (copied : Bool) : HsCb :=
  if copied then
    { hs with
      rxBind := some bind
      pcIndex := pcIndex
      lfsid := lf
      tc := Hs.init hs.type bind
      dfc := hs.dfc.init }
  else { hs with rxBind := none }

/-- `sna_hs_init_finish` -/
def hsInitFinish (l : Lists) (index pcIndex : UInt32) (lf : Lfsid) (bind : Bind) (copied : Bool) :
    Int × Lists :=
  match l.hs index with
  | none => (-enoent, l)
  | some hs =>
    (if copied then 0 else -enomem, l.setHs (finishHs hs pcIndex lf bind copied))

/-! ## RSP(BIND) -/

/-- A RSP(BIND): whether it is negative, and the BIND in it. -/
structure BindRsp where
  neg : Bool
  bind : Bind

/-- What `sna_sm_proc_bind_rsp` returns, the lists after it, and how often it
frees the buffer. -/
structure BindRspDone where
  err : Int
  lists : Lists
  freed : Nat

/-- The remote LU has one more session. -/
def Lists.addSession (l : Lists) (remoteLu : UInt32) : Lists :=
  { l with
    remoteLuList :=
      update RemoteLuCb.index remoteLu (fun r => { r with sessions := r.sessions + 1 }) l.remoteLuList }

/-- `sna_sm_proc_bind_rsp` for the session that the response correlates with. The
check `sna_sm_bind_rsp_state_err` finds no error. -/
def bindRspFor (l : Lists) (lulu : Lulu) (lf : Lfsid) (rsp : BindRsp) (copied : Bool) :
    Int × Lists :=
  if rsp.neg then fsmInputBindRspNg l lulu
  else
    match l.remoteLu lulu.remoteLuIndex with
    | none => fsmInputBindRspNg l lulu
    | some remoteLu =>
      let (err, l) := hsInitFinish l lulu.hsIndex lulu.pcIndex lf rsp.bind copied
      if err < 0 then fsmInputBindRspNg l lulu
      else fsmInputPosBindRspOk (l.addSession remoteLu.index) lulu

/-- `sna_sm_proc_bind_rsp`. `sna_sm_correlate_bind_rsp` looks for the index that
the LFSID keeps. -/
def procBindRsp (l : Lists) (lf : Lfsid) (rsp : BindRsp) (copied : Bool) : BindRspDone :=
  match l.lulu lf.smIndex.toUInt32 with
  | none => ⟨-einval, l, 2⟩
  | some lulu =>
    let r := bindRspFor l lulu lf rsp copied
    ⟨r.1, r.2, 1⟩

/-! ## Activation -/

/-- What the kernel and the control point do for an activation until it sleeps:
whether there is memory for a session, and whether there is a route. -/
structure StartEnv where
  alloc : Bool
  route : Bool

/-- And after it: whether there is memory for LFSIDs and for a half-session, and
whether the BIND can be built (else the error). -/
structure RouteEnv where
  blkAlloc : Bool
  hsAlloc : Bool
  bindErr : Int

/-- How far an activation has got: it has come back, or sleeps. -/
inductive Progress where
  | returned (err : Int)
  | sleeps (luluIndex : UInt32)

/-- `sna_sm_fsm_input_activate_session`, `sna_sm_build_and_send_init_sig` and
`sna_ss_proc_init_sig`, up to `sna_cs_activate_route` -/
def fsmInputActivateSession (l : Lists) (lulu : Lulu) (route : Bool) : Progress × Lists :=
  if lulu.state ≠ .res then (.returned (-einval), l)
  else
    let l := l.setLulu { lulu with state := .pndCin }
    match l.mode lulu.modeIndex with
    | none => (.returned (-enoent), l)
    | some _ =>
      if route then (.sleeps lulu.index, { l with waiting := lulu.index :: l.waiting })
      else (.returned (-enoent), l)

/-- The control block of a new session. -/
def newLulu (mode : ModeCb) (remoteLu : RemoteLuCb) (tpIndex : UInt32) (type : HsType)
    (index : UInt32) : Lulu :=
  { index := index, modeIndex := mode.index, remoteLuIndex := remoteLu.index, pcIndex := 0,
    hsIndex := 0, tpIndex := tpIndex, type := type, lfsid := Lfsid.zero, state := .res }

/-- `sna_sm_proc_activate_session`; `none` if there is no number left.
`sna_sm_get_fqpcid` fails if the remote LU cannot be found. -/
def procActivateSession (l : Lists) (mode : ModeCb) (remoteLu : RemoteLuCb) (tpIndex : UInt32)
    (type : HsType) (e : StartEnv) : Option (Progress × Lists) :=
  if luModeSessionLimit remoteLu mode type .initSent then some (.returned (-eusers), l)
  else if e.alloc = false then some (.returned (-enomem), l)
  else
    (newIndex (l.luluList.map (·.index)) (l.luluList.length + 1) l.luluSystemIndex).map fun i =>
      let l := { l with luluSystemIndex := i }
      let lulu := newLulu mode remoteLu tpIndex type i
      match l.remoteLu remoteLu.index with
      | none => (.returned (-enoent), l)
      | some _ =>
        fsmInputActivateSession { l with luluList := lulu :: l.luluList } lulu e.route

/-- `sna_rm_send_activate_session` -/
def sendActivateSession (l : Lists) (mode : ModeCb) (remoteLu : RemoteLuCb) (tpIndex : UInt32)
    (type : HsType) (e : StartEnv) : Option (Progress × Lists) :=
  procActivateSession (l.countPending mode remoteLu.index type) (mode.countPending type) remoteLu
    tpIndex type e

/-- What `sna_rm_get_session` looks up, or the error with which it returns at
once. -/
def getSessionLookup (l : Lists) (tp : TpCb) : Except Int (ModeCb × RemoteLuCb) :=
  match l.rcb tp.rcbIndex with
  | none => .error (-enoent)
  | some _ =>
    match l.remoteLu tp.remoteLuIndex with
    | none => .error (-enoent)
    | some remoteLu =>
      match l.mode tp.modeIndex with
      | none => .error (-enoent)
      | some mode =>
        if mode.userMax.sessions = 0 then .error (-eusers) else .ok (mode, remoteLu)

/-- `sna_rm_get_session` from there to the wait -/
def requestSession (l : Lists) (tp : TpCb) (mode : ModeCb) (remoteLu : RemoteLuCb) (e : StartEnv) :
    Option (Progress × Lists) :=
  match sessionActivationPolarity mode remoteLu with
  | none => some (.returned (-eusers), l)
  | some type => sendActivateSession l mode remoteLu tp.index type e

/-- `"SNASVCMG"` -/
def snasvcmg : List UInt8 := [0x53, 0x4E, 0x41, 0x53, 0x56, 0x43, 0x4D, 0x47]

/-- `sna_rm_start_remote_lu` -/
def startRemoteLu (l : Lists) (useName : List UInt8) (e : StartEnv) : Option (Progress × Lists) :=
  match l.remoteLuList.find? (·.useName = useName) with
  | none => some (.returned (-enoent), l)
  | some remoteLu =>
    match l.modeList.find? (·.modeName = snasvcmg) with
    | none => some (.returned (-enoent), l)
    | some mode => procActivateSession l mode remoteLu 0 .fsp e

/-! ## After the sleep -/

/-- The tests of `sna_sm_proc_cinit_sig_rsp` before `sna_sm_prepare_to_send_bind`
refuse the session. -/
def cinitRefused (l : Lists) (lulu : Lulu) (pcIndex : UInt32) : Bool :=
  match l.remoteLu lulu.remoteLuIndex, l.mode lulu.modeIndex with
  | some remoteLu, some mode =>
    luModeSessionLimit remoteLu mode lulu.type .bindSent ||
      match l.pc pcIndex with
      | none => true
      | some pc => pc.txMaxBtu < mode.txMaxRu || pc.rxMaxBtu < mode.rxMaxRu
  | _, _ => true

/-- `sna_sm_prepare_to_send_bind`: the error, the session and the lists; `none` if
there is no number left. -/
def prepareToSendBind (l : Lists) (lulu : Lulu) (e : RouteEnv) : Option (Int × Lulu × Lists) :=
  match Asm.assignLfsid l.asmList lulu.pcIndex lulu.index e.blkAlloc with
  | (none, asmList) => some (-einval, lulu, { l with asmList := asmList })
  | (some k, asmList) =>
    let lf := ((Asm.getByIndex asmList lulu.pcIndex).map (·.lfsid k)).getD Lfsid.zero
    (hsInit { l with asmList := asmList } lulu e.hsAlloc).map fun r =>
      (r.1, { lulu with lfsid := lf, hsIndex := r.2.1 }, r.2.2)

/-- `sna_sm_proc_cinit_sig_rsp` -/
def procCinitSigRsp (l : Lists) (luluIndex pcIndex : UInt32) (e : RouteEnv) :
    Option (Int × Lists) :=
  match l.lulu luluIndex with
  | none => some (-enoent, l)
  | some lulu =>
    let lulu := { lulu with pcIndex := pcIndex }
    let l := l.setLulu lulu
    if cinitRefused l lulu pcIndex then some (fsmInputCinitSignalNg l lulu)
    else
      (prepareToSendBind l lulu e).map fun r =>
        let l := r.2.2.setLulu r.2.1
        if r.1 < 0 then fsmInputCinitSignalNg l r.2.1 else fsmInputCinitSignalOk l r.2.1 e.bindErr

/-- `sna_sm_proc_init_sig_neg_rsp` -/
def procInitSigNegRsp (l : Lists) (luluIndex : UInt32) : Int × Lists :=
  match l.lulu luluIndex with
  | none => (-enoent, l)
  | some lulu => fsmInputInitSignalNegRsp l lulu

/-- `sna_ss_proc_init_sig` after `sna_cs_activate_route`, which has come back with
a path control index or with an error -/
def routeDone (l : Lists) (luluIndex : UInt32) (pcIndex : Option UInt32) (e : RouteEnv) :
    Option (Int × Lists) :=
  let l := { l with waiting := l.waiting.erase luluIndex }
  match pcIndex with
  | none => some (procInitSigNegRsp l luluIndex)
  | some pcIndex => procCinitSigRsp l luluIndex pcIndex e

/-! ## Events -/

/-- What happens to the lists. -/
inductive Event where
  /-- A transaction program allocates a conversation. -/
  | allocRcb (tpIndex : UInt32) (alloc : Bool) (scbHs : UInt32)
  /-- A transaction program asks for a session. -/
  | getSession (tpIndex : UInt32) (e : StartEnv)
  | startRemoteLu (useName : List UInt8) (e : StartEnv)
  /-- `sna_cs_activate_route` comes back. -/
  | routeDone (luluIndex : UInt32) (pcIndex : Option UInt32) (e : RouteEnv)
  /-- A RSP(BIND) is received under an address. -/
  | bindRsp (odai daf oaf : UInt8) (rsp : BindRsp) (copied : Bool)
  | linkUp (as : AsmCb) (pc : PcCb)
  | linkDown (pcIndex : UInt32)

/-- The lists after an event; `none` if it cannot happen, or if there is no number
left for a new control block. -/
def step (l : Lists) : Event → Option Lists
  | .allocRcb tpIndex alloc scbHs =>
    match l.tp tpIndex with
    | none => none
    | some tp => (allocRcb l tp alloc scbHs).map (·.2)
  | .getSession tpIndex e =>
    match l.tp tpIndex with
    | none => none
    | some tp =>
      match getSessionLookup l tp with
      | .error _ => some l
      | .ok (mode, remoteLu) => (requestSession l tp mode remoteLu e).map (·.2)
  | .startRemoteLu useName e => (startRemoteLu l useName e).map (·.2)
  | .routeDone luluIndex pcIndex e =>
    if luluIndex ∈ l.waiting then (routeDone l luluIndex pcIndex e).map (·.2) else none
  | .bindRsp odai daf oaf rsp copied =>
    match Asm.rxMuMapLfsid l.asmList odai daf oaf with
    | none => some l
    | some (as, k) => some (procBindRsp l (as.lfsid k) rsp copied).lists
  | .linkUp as pc =>
    if pc.index = as.index ∧ l.pc pc.index = none then
      some { l with asmList := (Asm.activateAs l.asmList as).2, pcList := l.pcList ++ [pc] }
    else none
  | .linkDown pcIndex =>
    some { l with
      asmList := (Asm.deactivateAs l.asmList pcIndex).2
      pcList := l.pcList.eraseP (·.index = pcIndex) }

end Sm

end LinuxSna
