import LinuxSna.Impl.Sna.Cs.Dlc

/-!
# The parameters of a link

What `sna_cs_xid_results` leaves in a link station of the XIDs that were last sent and
received, and two link stations that share a link. All XIDs that a station sends have the
sizes of its data link control in them (`xid_pkt_init`), which do not change. An XID may be
lost, arrive late or arrive again.
-/

namespace LinuxSna.Link

open Cs

/-! ## The data link control -/

/-- `ARPHRD_` -/
inductive DevType where
  | ether
  | ieee802
  | fddi
  | other

/-- `struct sna_dlc_cb`, with what is used of its device -/
structure DlcCb where
  type : DevType
  mtu : UInt32
  hardHeaderLen : UInt16

/-- `htons` and `ntohs`, on a little-endian host -/
def htons (x : UInt16) : UInt16 := x <<< (8 : UInt16) ||| x >>> (8 : UInt16)

/-- `sna_cs_dlc_xid_max_btu_len` -/
def DlcCb.xidMaxBtuLen (dlc : DlcCb) : UInt16 :=
  match dlc.type with
  | .ether | .ieee802 | .fddi => htons (dlc.mtu - dlc.hardHeaderLen.toUInt32).toUInt16
  | .other => 0

/-- `sna_cs_dlc_xid_max_iframes` -/
def DlcCb.xidMaxIframes (dlc : DlcCb) : UInt8 :=
  match dlc.type with
  | .ether | .ieee802 | .fddi => 2
  | .other => 0

/-- The sizes in an XID, `max_btu_len` as it is sent -/
structure XidSizes where
  maxBtuLen : UInt16
  maxIframes : UInt8

/-- `xid_pkt_init`, the sizes -/
def DlcCb.sizes (dlc : DlcCb) : XidSizes := ⟨dlc.xidMaxBtuLen, dlc.xidMaxIframes⟩

/-! ## `sna_cs_xid_results` -/

/-- `struct sna_ls_cb`, what else `sna_cs_xid_results` sets besides `odai` -/
structure Parameters where
  txMaxBtu : UInt16
  rxMaxBtu : UInt16
  txWindow : UInt16
  rxWindow : UInt16

/-- `sna_cs_xid_results`, where there are XIDs that were sent and received -/
def xidResults (localX remote : XidSizes) (suprise : Bool) : Parameters :=
  if suprise then ⟨htons localX.maxBtuLen, htons localX.maxBtuLen, 7, 7⟩
  else ⟨htons remote.maxBtuLen, htons localX.maxBtuLen, remote.maxIframes.toUInt16,
    localX.maxIframes.toUInt16⟩

/-- How `xid_input_active` calls `sna_cs_xid_results`: by surprise or not, if it does. -/
def inputActiveCalls (ls : Ls) : Option Bool :=
  match ls.xidState with
  | .reset | .sPn | .sNeg | .sPri | .sSec => some true
  | .rPriSSec | .sPriRSec => some false
  | .active => none

/-- The same of `xid_output_err_opt` -/
def outputErrOptCalls (ls : Ls) : Option Bool :=
  match ls.xidLastRx with
  | none => none
  | some r => if supriseAllowed r.xid ls.effectiveRole then inputActiveCalls ls else none

/-- The same of `xid_doit` -/
def doitCalls (ls : Ls) : Option Bool :=
  match ls.xidInput with
  | some .active => inputActiveCalls ls
  | some .setmode =>
    match ls.xidState with
    | .reset | .sPn | .sNeg | .sSec => outputErrOptCalls ls
    | .rPriSSec => inputActiveCalls ls
    | .sPri | .sPriRSec | .active => none
  | some .start | some .null | some .pn | some .neg | some .pri | some .sec | some .reset
  | none => none

/-! ## A link station -/

/-- A link station with its data link control, the sizes in the XID it received last, and its
parameters -/
structure Station where
  ls : Ls
  dlc : DlcCb
  rxSizes : XidSizes
  parameters : Parameters

/-- The sizes in the XID that was sent last. A null XID has no bytes, and what is read there is
`junk`. -/
def Station.txSizes (st : Station) (junk : XidSizes) : XidSizes :=
  match st.ls.xidLastTx with
  | some (some _) => st.dlc.sizes
  | some none | none => junk

/-- The sizes that an event leaves in `xid_last_rx`. -/
def rxSizesAfter (e : Event) (other : DlcCb) (junk old : XidSizes) : XidSizes :=
  match e with
  | .indXidCmd r | .indXidRsp r => if r.empty then junk else other.sizes
  | .startLs | .stopLs | .activateRoute | .retry | .indTestRsp | .indConn | .indDisc | .confConn _
  | .connectFinish | .confDisc => old

/-- What an event leaves of the parameters, with the sizes in `xid_last_rx`. -/
def Station.results (st : Station) (junk rxSizes : XidSizes) (e : Event) : Parameters :=
  match called st.ls e with
  | none => st.parameters
  | some l =>
    match doitCalls l with
    | none => st.parameters
    | some suprise =>
      if l.xidLastTx = none ∨ l.xidLastRx = none then st.parameters
      else xidResults (st.txSizes junk) rxSizes suprise

/-- A link station after an event. -/
def Station.handle (st : Station) (other : DlcCb) (junk : XidSizes) (e : Env × Event) :
    Option Station :=
  (Cs.handle st.ls e).map fun ls =>
    let rxSizes := rxSizesAfter e.2 other junk st.rxSizes
    { st with ls := ls, rxSizes := rxSizes, parameters := st.results junk rxSizes e.2 }

/-! ## Two link stations -/

/-- A frame is received as `r`. -/
def carries (image : Option Xid3) (r : Received) : Bool :=
  match image with
  | none => r.empty
  | some xid => !r.empty && decide (r.xid = xid)

/-- What is received, if the event is that an XID is, has been sent. -/
def arrives (sent : List Frame) : Event → Bool
  | .indXidCmd r => sent.any fun f =>
    match f with
    | .xid .outbound image _ => carries image r
    | .xid .inbound _ _ | .xid .invalid _ _ | .test => false
  | .indXidRsp r => sent.any fun f =>
    match f with
    | .xid .inbound image _ | .xid .invalid image _ => carries image r
    | .xid .outbound _ _ | .test => false
  | .startLs | .stopLs | .activateRoute | .retry | .indTestRsp | .indConn | .indDisc | .confConn _
  | .connectFinish | .confDisc => true

/-- Two link stations, with all frames that they have ever sent. -/
structure Ends where
  left : Station
  right : Station

def Ends.swap (k : Ends) : Ends := ⟨k.right, k.left⟩

/-- An event at one of the ends. -/
structure LinkEvent where
  right : Bool
  env : Env
  event : Event
  junk : XidSizes := ⟨0, 0⟩

/-- An event at the left end -/
def stepLeft (k : Ends) (e : LinkEvent) : Option Ends :=
  if arrives k.right.ls.sent e.event then
    (k.left.handle k.right.dlc e.junk (e.env, e.event)).map fun st => { k with left := st }
  else none

/-- The two link stations after an event. -/
def step (k : Ends) (e : LinkEvent) : Option Ends :=
  if e.right then (stepLeft k.swap e).map Ends.swap else stepLeft k e

/-- Two link stations as they are defined. -/
def defined (left right : Ls) (leftDlc rightDlc : DlcCb) : Ends :=
  ⟨⟨left, leftDlc, ⟨0, 0⟩, ⟨0, 0, 0, 0⟩⟩, ⟨right, rightDlc, ⟨0, 0⟩, ⟨0, 0, 0, 0⟩⟩⟩

end LinuxSna.Link

/-!
## XIDs in memory

`sna_xid3` where it lies in a socket buffer, on a little-endian host. No length is looked at but that
of an XID of no bytes, so a field behind the bytes that were received is whatever is there in memory.
`skb_copy` copies the bytes of a buffer only: behind those of the copy, which `xid_last_rx` keeps,
there is other memory than behind those that came.
-/

namespace LinuxSna.Cs

/-- The memory at `skb->data`: the bytes of the buffer, and what is behind them -/
def skbData (bytes : List UInt8) (behind : Nat → UInt8) (i : Nat) : UInt8 := bytes.getD i (behind i)

/-- A bit-field of one bit -/
def bit (b : UInt8) (i : Nat) : Bool := b.toNat.testBit i

/-- A bit-field of two bits -/
def twoBits (b : UInt8) (i : Nat) : Nat := b.toNat / 2 ^ i % 4

/-- `SNA_XID_XCHG_STATE_` -/
def XchgState.ofBits : Nat → XchgState
  | 0 => .none
  | 1 => .neg
  | 2 => .pn
  | _ => .nonactive

/-- `SNA_LS_ROLE_` -/
def Role.ofBits : Nat → Role
  | 0 => .sec
  | 1 => .pri
  | 2 => .rsv
  | _ => .neg

/-- `sna_xid3` -/
def xid3At (m : Nat → UInt8) : Xid3 where
  nodeid := (m 2).toUInt32 ||| (m 3).toUInt32 <<< (8 : UInt32) ||| (m 4).toUInt32 <<< (16 : UInt32) |||
    (m 5).toUInt32 <<< (24 : UInt32)
  wholeBindPiuReq := bit (m 8) 4
  wholeBind := bit (m 8) 5
  cpNameChg := bit (m 9) 0
  secNonactiveXchg := bit (m 9) 1
  state := .ofBits (twoBits (m 9) 2)
  cpCpSupport := bit (m 9) 4
  networkNode := bit (m 9) 6
  quiesceTg := bit (m 10) 5
  rxAdaptiveBindPacing := bit (m 10) 6
  txAdaptiveBindPacing := bit (m 10) 7
  parallelTgSup := bit (m 15) 7
  tgNum := (m 16).toNat
  lsRole := .ofBits (twoBits (m 19) 4)

/-- `max_btu_len` and `max_iframes` of `sna_xid3` -/
def sizesAt (m : Nat → UInt8) : Link.XidSizes :=
  ⟨(m 21).toUInt16 ||| (m 22).toUInt16 <<< (8 : UInt16), m 27⟩

/-- What is in memory behind an XID and behind its copy -/
structure Behind where
  skb : Nat → UInt8
  copy : Nat → UInt8

/-- The XID as `sna_cs_xid_pkt_input` reads it -/
def arrived (bytes : List UInt8) (b : Behind) : Received := ⟨bytes = [], xid3At (skbData bytes b.skb)⟩

/-- The XID as it is read from `xid_last_rx` -/
def saved (bytes : List UInt8) (b : Behind) : Received := ⟨bytes = [], xid3At (skbData bytes b.copy)⟩

/-- The sizes as they are read from `xid_last_rx` -/
def savedSizes (bytes : List UInt8) (b : Behind) : Link.XidSizes := sizesAt (skbData bytes b.copy)

/-- `sna_dlc_llc_ind_xid_cmd` and, for a response, `sna_dlc_llc_ind_xid_rsp` -/
def indXid (env : Env) (response : Bool) (bytes : List UInt8) (b : Behind) (ls : Ls) : Ls :=
  let ls := { ls with
    xidInput := xidPktInput (arrived bytes b), xidDirection := .inbound, xidLastRx := some (saved bytes b) }
  if response then connectOut env ls else connectIn env ls

end LinuxSna.Cs
