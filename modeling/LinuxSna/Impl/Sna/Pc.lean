import LinuxSna.Framework.Run
import LinuxSna.Impl.Sna.Dfc.Receive

/-!
# The way of a received packet

`sna_pc_rx_mu`, and what the address space manager, the session manager and
transmission control do with the buffer before data flow control gets it.
`sna_pc_rx_mu` itself always returns `-EINVAL`.
-/

namespace LinuxSna.Pc

open Asm (Lfsid)
open Dfc (Done Out)
open Framework (Fate update)
open Hs (Bind HsCb Mu Skb bit)
open Rm (Rcb)
open Sm (BindRsp Lists procBindRsp)

/-- What the kernel, the data link and the other components do while a packet is received:
whether there is memory for the control information, the size of the buffer, whether there
is memory for a whole BIU and for copies, what path control returns for an answer and for
the next MU of the pacing queue, and what data flow control meets. -/
structure RxEnv where
  ctrl : Bool
  truesize : Nat
  alloc : Option Nat
  copied : Bool
  ack : Option Int
  pc : Option Int
  beyond : List UInt8
  addr : UInt32
  cloned : Bool
  tx : Dfc.TxPath

namespace RxEnv

/-- What transmission control meets. The result of data flow control is not asked
for here. -/
def tc (e : RxEnv) : Hs.RxEnv :=
  { truesize := e.truesize, alloc := e.alloc, copied := e.copied, ack := e.ack, pc := e.pc, dfc := 0 }

/-- What data flow control meets, if the session has a conversation or not. -/
def dfc (e : RxEnv) (conversation : Bool) : Dfc.Env :=
  { beyond := e.beyond, addr := e.addr, cloned := e.cloned, conversation := conversation, tx := e.tx }

/-- The buffer of an MU. -/
def skb (e : RxEnv) (m : Mu) : Skb := { m with beyond := e.beyond, addr := e.addr }

end RxEnv

/-- The lists after a packet, and what has become of its buffer. -/
structure RxDone where
  lists : Lists
  fate : Fate

/-! ## Transmission control -/

/-- The segment makes a BIU complete. -/
def completes (hs : Hs) (m : Mu) (truesize : Nat) : Bool :=
  (hs.segmentQueue m truesize).segmentIn = ⟨true, true, false⟩

/-- What `sna_tc_segment` does with the buffer of a segment. A reassembly frees what it
takes off the queue; without memory it has lost the first segment, and kept the
others. -/
def segmentFate (hs : Hs) (m : Mu) (truesize : Nat) (alloc : Option Nat) : Fate :=
  if hs.segmentIn.complete then .free
  else if completes hs m truesize then
    if alloc.isSome then .free else if hs.segments = [] then .dropped else .queue
  else .queue

/-- What `sna_tc_rx` does with the buffer; `none` if data flow control gets it. A BIU put
together from segments is in a buffer of its own. -/
def rxFate (hs : Hs) (m : Mu) (truesize : Nat) (alloc : Option Nat) : Option Fate :=
  if hs.rxSegmentChk m < 0 then some .dropped
  else if m.efi ≠ .norm then none
  else if m.data.length > hs.maxRxRuSize.toNat then some .free
  else if m.mpf ≠ .wholeBiu then some (segmentFate hs m truesize alloc)
  else if hs.rxBiuChk m < 0 then some .dropped
  else if m.isPacingRsp then some .free
  else if Hs.isEncrypted m then some .dropped
  else none

/-- `sna_tc_rx`, for the half-session found; `none` if the kernel stops. -/
def tcRx (hs : HsCb) (m : Mu) (e : RxEnv) (conversation : Bool) : Option Done :=
  (hs.tc.rx m e.tc).map fun r =>
    let fate := rxFate hs.tc m e.truesize e.alloc
    let hs := { hs with tc := r.hs }
    match r.dfc with
    | none => ⟨r.err, hs, fate.getD .dropped, r.mus.map .pc⟩
    | some biu =>
      let d := Dfc.rx hs biu (e.dfc conversation)
      { d with fate := fate.getD d.fate }

/-! ## The half-session router -/

/-- `sna_hs_get_by_lfsid` -/
def hsGetByLfsid (l : Lists) (lf : Lfsid) : Option HsCb :=
  l.hsList.find? fun hs =>
    hs.lfsid.odai = lf.odai && hs.lfsid.sidh = lf.sidh && hs.lfsid.sidl = lf.sidl

/-- The conversation that `sna_dfc_send_to_ps` looks up. -/
def conversationOf (l : Lists) (hs : HsCb) : Option Rcb :=
  (l.lulu hs.luluIndex).bind fun lulu => (l.tp lulu.tpIndex).bind fun tp => l.rcb tp.rcbIndex

/-- A record is queued on a conversation. -/
def queueRecord (l : Lists) (rcb : Option Rcb) : Out → Lists
  | .pc _ => l
  | .rm _ => l
  | .ps r =>
    match rcb with
    | none => l
    | some rcb =>
      let ps := { rcb.ps with hsToPsQueue := rcb.ps.hsToPsQueue ++ [r] }
      { l with rcbList := update Rcb.index rcb.index (fun _ => { rcb with ps := ps }) l.rcbList }

/-- `sna_hs_rx` -/
def hsRx (l : Lists) (lf : Lfsid) (m : Mu) (e : RxEnv) : Option RxDone :=
  match hsGetByLfsid l lf with
  | none => some ⟨l, .dropped⟩
  | some hs =>
    let rcb := conversationOf l hs
    (tcRx hs m e rcb.isSome).map fun d =>
      ⟨d.out.foldl (queueRecord · rcb) (l.setHs d.hs), d.fate⟩

/-! ## The address space manager -/

/-- `SNA_RU_RC_BIND` and `SNA_RU_RC_UNBIND` -/
def ruRcBind : UInt8 := 0x31
def ruRcUnbind : UInt8 := 0x32

/-- `sna_ru_bind`, what `sna_tc_init` reads of it -/
def bindOf (s : Skb) : Bind where
  secTxWinSize := s.byte 8 % 64
  secRxWinSize := s.byte 9 % 64
  adaptivePacing := bit (s.byte 9) 7
  secMaxRuSize := s.byte 10
  priMaxRuSize := s.byte 11
  priTxWinSize := s.byte 12 % 64
  priRxWinSize := s.byte 13 % 64
  wholeBiu := bit (s.byte 6) 7
  cryptoSupp := bit (s.byte 26) 4 || bit (s.byte 26) 5

/-- `sna_asm_rx`, with `sna_asm_rx_mu_chk_err`. What `sna_sm_proc_bind_req` and
`sna_sm_proc_unbind_req` do is not written yet, and RSP(UNBIND) is discarded. -/
def asmRx (l : Lists) (lf : Lfsid) (s : Skb) (copied : Bool) : RxDone :=
  if s.byte 0 = ruRcBind then
    match s.rri with
    | .rsp =>
      let d := procBindRsp l lf ⟨s.rti, bindOf s⟩ copied
      ⟨d.lists, ⟨d.freed, 0⟩⟩
    | .req => ⟨l, .dropped⟩
  else if s.byte 0 = ruRcUnbind then ⟨l, .dropped⟩
  else ⟨l, .free⟩

/-! ## Path control -/

/-- `sna_pc_rx_mu_chk_err`, and the MU that it leaves in the buffer -/
def rxMuChkErr : List UInt8 → Option Mu
  | t0 :: _ :: daf :: oaf :: s0 :: s1 :: r0 :: r1 :: r2 :: data =>
    if t0 / 16 = 0x2 then some (.ofHeaders t0 daf oaf s0 s1 r0 r1 r2 data) else none
  | _ => none

/-- The routing of an MU to the session traffic or to the traffic outside of sessions -/
def route (l : Lists) (lf : Lfsid) (m : Mu) (e : RxEnv) : Option RxDone :=
  match m.ru with
  | .fmd => hsRx l lf m e
  | .dfc => hsRx l lf m e
  | .sc => some (asmRx l lf (e.skb m) e.copied)
  | .nc => some (asmRx l lf (e.skb m) e.copied)

/-- The LFSID that `sna_pc_rx_mu` finds, if it finds its address space again. -/
def lfsidOf (l : Lists) (m : Mu) : Option Lfsid :=
  (Asm.rxMuMapLfsid l.asmList (if m.odai then 1 else 0) m.daf m.oaf).bind fun r =>
    (Asm.getByLfsid l.asmList (r.1.lfsid r.2)).map fun _ => r.1.lfsid r.2

/-- `sna_pc_rx_mu`; `none` if the kernel stops. -/
def rxMu (l : Lists) (skb : List UInt8) (e : RxEnv) : Option RxDone :=
  match rxMuChkErr skb with
  | none => some ⟨l, .free⟩
  | some m =>
    match lfsidOf l m with
    | none => some ⟨l, .free⟩
    | some lf => if e.ctrl then route l lf m e else some ⟨l, .free⟩

/-- `sna_pc_tx_mu_map_lfsid`. The field of the TH has one bit. -/
def txMuMapLfsid (m : Mu) (lf : Lfsid) : Mu :=
  { m with odai := bit lf.odai 0, daf := lf.sidl, oaf := lf.sidh }

/-- `sna_pc_tx_mu`, the packet that the data link is given. Segments are not made. -/
def txMu (m : Mu) (lf : Lfsid) : List UInt8 :=
  let m := txMuMapLfsid m lf
  m.th ++ m.rhBytes ++ m.data

/-! ## Events -/

/-- A packet is received, or something else happens to the lists. -/
inductive Event where
  | received (skb : List UInt8) (e : RxEnv)
  | other (e : Sm.Event)

/-- The lists after an event. A RSP(BIND) is received in a packet. -/
def step (l : Lists) : Event → Option Lists
  | .received skb e => (rxMu l skb e).map (·.lists)
  | .other (.bindRsp ..) => none
  | .other e => Sm.step l e

/-- The buffer of the packet is freed or queued, once. -/
def Consumes (l : Lists) : Event → Prop
  | .received skb e => ∃ d, rxMu l skb e = some d ∧ d.fate.Once
  | .other _ => True

end LinuxSna.Pc
