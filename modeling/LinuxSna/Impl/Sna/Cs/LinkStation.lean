import LinuxSna.Framework.CString
import LinuxSna.Impl.Sna.Asm

/-!
# Link stations

The control block of a link station, the XIDs it exchanges, and the path
control instances and address spaces it activates.
-/

namespace LinuxSna.Cs

open Asm (AsmCb)
open Framework (strncpy strncmp)

/-- `SNA_LS_STATE_` -/
inductive LsState where
  | defined
  | activated
  | active
  deriving DecidableEq

/-- `SNA_LS_ROLE_` -/
inductive Role where
  | sec
  | pri
  | rsv
  | neg
  deriving DecidableEq

/-- `SNA_LS_DIR_` -/
inductive LsDir where
  | dirBoth
  | dirIn
  | dirOut
  deriving DecidableEq

/-- `CO_` -/
inductive CoStatus where
  | fail
  | reset
  | active
  | sTestC
  | rTestR
  | testOk

/-- `SNA_LS_XID_INIT_` -/
inductive XidInit where
  | null
  | pn
  | np

/-- `XID_STATE_` -/
inductive XidState where
  | reset
  | sPn
  | sNeg
  | sPri
  | sSec
  | rPriSSec
  | sPriRSec
  | active
  deriving DecidableEq

/-- `XID_IN_` -/
inductive XidIn where
  | start
  | null
  | pn
  | neg
  | pri
  | sec
  | setmode
  | active
  | reset
  deriving DecidableEq

/-- `XID_DIR_` -/
inductive XidDir where
  | invalid
  | outbound
  | inbound
  deriving DecidableEq

/-- `SNA_XID_XCHG_STATE_` -/
inductive XchgState where
  | none
  | neg
  | pn
  | nonactive
  deriving DecidableEq

/-- `SNA_TG_STATE_` -/
inductive TgState where
  | reset
  | doneLocal
  | donePartner
  deriving DecidableEq

/-- `SNA_TG_INPUT_` -/
inductive TgInput where
  | start
  | null
  | adjLoc
  | setmode
  | reset

/-- `sna_netid`: two names of 9 bytes -/
structure Netid where
  net : List UInt8
  name : List UInt8
  deriving DecidableEq

/-- `sna_xid3`, what a station looks at in an XID it received. The node id is
what a little-endian host loads. -/
structure Xid3 where
  state : XchgState := .none
  lsRole : Role
  nodeid : UInt32
  networkNode : Bool
  cpCpSupport : Bool := false
  parallelTgSup : Bool
  tgNum : Nat
  wholeBind : Bool
  wholeBindPiuReq : Bool
  rxAdaptiveBindPacing : Bool
  txAdaptiveBindPacing : Bool
  secNonactiveXchg : Bool := false
  cpNameChg : Bool := false
  quiesceTg : Bool
  deriving DecidableEq

/-- An XID that was received. An XID of no bytes is a null XID; what is read
where its fields would be, whatever that is, is `xid`. -/
structure Received where
  empty : Bool
  xid : Xid3
  deriving DecidableEq

/-- What a station sends. -/
inductive Frame where
  /-- An XID, or the null XID: a command if the direction is outbound, else a
  response. -/
  | xid (direction : XidDir) (image : Option Xid3) (resent : Bool)
  | test
  deriving DecidableEq

/-- `struct sna_pc_cb`, what identifies it and its link station -/
structure PcCb where
  index : UInt32
  portIndex : UInt32
  lsIndex : UInt32
  deriving DecidableEq

/-- `struct sna_ls_cb`, with the node id of its node; the lists of path control
instances and address spaces; and what the station has sent and whether it has
come to the end of its retries ("XID failed"). -/
structure Ls where
  portIndex : UInt32
  index : UInt32
  /-- `flags & SNA_RUNNING` -/
  running : Bool
  state : LsState
  pcIndex : UInt32
  retries : Nat
  /-- The retry timer runs. -/
  retry : Bool
  coStatus : CoStatus
  xidState : XidState
  xidDirection : XidDir
  /-- `none` is an input that is not one of `XID_IN_`. -/
  xidInput : Option XidIn
  xidLastTx : Option (Option Xid3)
  xidLastTxDirection : XidDir
  xidLastRx : Option Received
  llcSk : Bool
  effectiveRole : Role
  effectiveTg : Nat
  tgState : TgState
  tgInput : TgInput
  odai : UInt8
  pluName : Netid
  netid : Netid
  /-- `als.effective_tg` -/
  alsEffectiveTg : Nat
  role : Role
  direction : LsDir
  xidInitMethod : XidInit
  retryOnFail : Bool
  retryTimes : Nat
  tgNumber : Nat
  xidWholeBind : Bool
  xidWholeBindPiuReq : Bool
  xidNetworkNode : Bool
  xidTxAdaptiveBindPacing : Bool
  xidRxAdaptiveBindPacing : Bool
  xidQuiesceTg : Bool
  xidParallelTgSup : Bool
  nodeid : UInt32
  pcSystemIndex : UInt32
  pcList : List PcCb
  asmList : List AsmCb
  sent : List Frame
  xidFailed : Bool

/-- `struct sna_nof_ls`, what `sna_cs_define_ls` takes from it -/
structure LsCfg where
  role : Role
  direction : LsDir
  retryOnFail : Bool
  retryTimes : Nat
  tgNumber : Nat
  netid : Netid
  pluName : Netid

/-- `sna_cs_define_ls`, in a node that has an id and may be a network node. The
initialization method is nowhere set, which leaves `SNA_LS_XID_INIT_NULL`. -/
def defineLs (cfg : LsCfg) (nodeid : UInt32) (networkNode : Bool) (portIndex index : UInt32) :
    Ls where
  portIndex := portIndex
  index := index
  running := false
  state := .defined
  pcIndex := 0
  retries := 0
  retry := false
  coStatus := if cfg.direction = .dirOut then .reset else .testOk
  xidState := .reset
  xidDirection := .invalid
  xidInput := some .reset
  xidLastTx := none
  xidLastTxDirection := .invalid
  xidLastRx := none
  llcSk := false
  effectiveRole := cfg.role
  effectiveTg := cfg.tgNumber % 2 ^ 8
  tgState := .reset
  tgInput := .start
  odai := 0
  pluName := cfg.pluName
  netid := cfg.netid
  alsEffectiveTg := 0
  role := cfg.role
  direction := cfg.direction
  xidInitMethod := .null
  retryOnFail := cfg.retryOnFail
  retryTimes := cfg.retryTimes
  tgNumber := cfg.tgNumber
  xidWholeBind := true
  xidWholeBindPiuReq := true
  xidNetworkNode := networkNode
  xidTxAdaptiveBindPacing := false
  xidRxAdaptiveBindPacing := false
  xidQuiesceTg := false
  xidParallelTgSup := false
  nodeid := nodeid
  pcSystemIndex := 0
  pcList := []
  asmList := []
  sent := []
  xidFailed := false

/-!
## Transmission group numbers

`sna_cs_tg_negotiate` and the comparison of names it rests on.
-/

/-- `SNA_FQCP_NAME_LEN` -/
def fqcpNameLen : Nat := 18

/-- The bytes of a name before the first blank, at most 8. -/
def nameLen (name : List UInt8) : Nat := ((name.take 8).takeWhile (· ≠ 0x20)).length

/-- `sna_netid_to_char`, into a buffer: network, dot and name. -/
def netidToChar (n : Netid) (c : List UInt8) : List UInt8 :=
  let i := nameLen n.net
  let c := strncpy c 0 i n.net
  let c := strncpy c i 1 [0x2E]
  let j := nameLen n.name
  let c := strncpy c (i + 1) j n.name
  strncpy c (i + 1 + j) 1 []

/-- `sna_cs_tg_name_high` -/
def tgNameHigh (localN remoteN : Netid) : Int :=
  strncmp fqcpNameLen (netidToChar localN (List.replicate fqcpNameLen 0))
    (netidToChar remoteN (List.replicate fqcpNameLen 0))

/-- `sna_cs_tg_negotiate` -/
def tgNegotiate (ls : Ls) : Ls :=
  match ls.tgInput with
  | .start | .null => ls
  | .adjLoc =>
    if ls.alsEffectiveTg = 0 ∧ ls.effectiveTg = 0 ∧ !ls.xidParallelTgSup then
      { ls with tgState := .doneLocal }
    else if ls.alsEffectiveTg = 0 ∧ ls.effectiveTg = 0 ∧ ls.xidParallelTgSup then
      if tgNameHigh ls.netid ls.pluName ≠ 0 then
        { ls with tgState := .doneLocal, effectiveTg := 21 }
      else ls
    else if ls.alsEffectiveTg = 0 ∧ ls.effectiveTg > 0 then
      if ls.tgState = .reset then { ls with tgState := .doneLocal } else ls
    else if ls.alsEffectiveTg > 0 ∧ ls.effectiveTg = 0 then
      if ls.tgState = .reset then
        { ls with tgState := .donePartner, effectiveTg := ls.alsEffectiveTg }
      else ls
    else if ls.tgState = .reset then
      if tgNameHigh ls.netid ls.pluName ≠ 0 then { ls with tgState := .doneLocal }
      else { ls with tgState := .donePartner, effectiveTg := ls.alsEffectiveTg }
    else ls
  | .setmode => { ls with tgState := .doneLocal }
  | .reset =>
    if ls.tgState ≠ .reset then
      { ls with tgState := .reset, tgInput := .start, effectiveTg := ls.tgNumber % 2 ^ 8 }
    else ls

end LinuxSna.Cs
