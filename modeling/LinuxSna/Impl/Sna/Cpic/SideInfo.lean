import LinuxSna.Framework.CString
import LinuxSna.Framework.Table
import LinuxSna.Impl.Sna.Cpic.Calls
import LinuxSna.Impl.Sna.Cs.LinkStation

/-!
# Side information

`sna_cpic_register_side_info` and `sna_cpic_unregister_side_info`, and the table in which
Initialize_Conversation looks for a symbolic destination name. What the caller gives is a string where
the code takes it for one. A buffer is given with all its bytes.
-/

namespace LinuxSna.Cpic

open Cs (Netid netidToChar)
open Framework (padded strncmp newIndex)

/-!
## Initialize_Conversation

`sna_cpic_cminit` with the structures that it makes: the conversation, which `sna_cpic_create_session`
puts into `cpic_list`, and the transaction program control block, which `sna_rm_start_tp` puts into
`tp_list`. What the kernel gives them (memory, an inode, a file) is an argument.
-/

/-- `struct sna_tp_cb`, as `tp_list` links it; `tp` is what the calls use of it, once
Initialize_Conversation has set the characteristics. -/
structure TpBlock where
  addr : Nat
  index : UInt32
  freed : Bool
  tp : Option Tp

/-- `struct cpic`; `sna` is the address of its transaction program control block. -/
structure CpicEntry where
  inode : Nat
  state : State
  sna : Option Nat

/-- `cpic_side_list`, `cpic_list`, `tp_list` and `sna_tp_system_index`; the names of the modes, and
of the partner LUs, that the resource manager knows -/
structure Sessions where
  sideList : List (List UInt8 × SideInfo)
  cpicList : List CpicEntry
  tpList : List TpBlock
  tpSystemIndex : UInt32
  modes : List (List UInt8)
  remoteLus : List (List UInt8)

/-- `sna_cpic_side_info_get_by_name` -/
def sideInfoGetByName (w : Sessions) (name : List UInt8) : Option SideInfo :=
  (w.sideList.find? fun e => strncmp 8 e.1 name = 0).map (·.2)

/-- `sna_rm_tp_new_index`. One more pass than there are blocks finds a number. -/
def rmTpNewIndex (w : Sessions) : Option UInt32 :=
  newIndex (w.tpList.map TpBlock.index) (w.tpList.length + 1) w.tpSystemIndex

/-- `sna_rm_start_tp`, where `kmalloc` finds a block or not. Without side information it is given no
names, and `strcmp` with the name of a mode, or of a partner LU, faults (`none`). -/
def rmStartTp (w : Sessions) (side : Option SideInfo) (block : Option Nat) :
    Option (Option Nat × Sessions) :=
  if side.isNone ∧ (w.modes ≠ [] ∨ w.remoteLus ≠ []) then none
  else match block with
  | none => some (none, w)
  | some addr =>
    (rmTpNewIndex w).map fun index =>
      (some addr, { w with
        tpList := w.tpList ++ [⟨addr, index, false, none⟩]
        tpSystemIndex := index })

/-- `sna_cpic_create_session`, with the inode of the conversation. One without a transaction program
is put into the list, too. -/
def createSession (w : Sessions) (side : Option SideInfo) (inode block : Option Nat) :
    Option (Option CpicEntry × Int × Sessions) :=
  match inode with
  | none => some (none, -12, w)
  | some inode =>
    (rmStartTp w side block).map fun (sna, w) =>
      let c : CpicEntry := ⟨inode, .reset, sna⟩
      (some c, if sna.isSome then 0 else -12, { w with cpicList := w.cpicList ++ [c] })

/-- `kfree` of a transaction program control block; where it is linked, it stays. -/
def kfree (addr : Nat) (l : List TpBlock) : List TpBlock :=
  l.map fun b => if b.addr = addr then { b with freed := true } else b

/-- `sna_cpic_release_session` -/
def releaseSession (w : Sessions) (c : CpicEntry) : Sessions :=
  let w := { w with cpicList := w.cpicList.eraseP (·.inode = c.inode) }
  match c.sna with
  | none => w
  | some addr => { w with tpList := kfree addr w.tpList }

/-- What Initialize_Conversation is given: the name, an inode and a block if there are any, whether
the conversation gets a file, and whether its number can be written to the caller's memory. -/
structure Initialization where
  symDestName : UserBytes
  inode : Option Nat
  block : Option Nat
  file : Bool
  toUser : Bool

def cmSdnSize : Nat := 8

/-- The conversation in its new state, and its characteristics -/
def started (w : Sessions) (c : CpicEntry) (side : Option SideInfo) : Sessions :=
  { w with
    cpicList := w.cpicList.map fun d =>
      if d.inode = c.inode then { d with state := (cminit side).state } else d
    tpList := w.tpList.map fun b =>
      if c.sna = some b.addr then { b with tp := some (cminit side).tp } else b }

/-- `sna_cpic_cminit` once the name is known -/
def cminitNamed (w : Sessions) (a : Initialization) (side : Option SideInfo) :
    Option (Int × Sessions) :=
  (createSession w side a.inode a.block).map fun
    | (none, _, w) => (cmProductSpecificError, w)
    | (some c, err, w) =>
      if err < 0 then (cmProductSpecificError, w)
      else if !a.file then (cmProductSpecificError, releaseSession w c)
      else if !a.toUser then (cmProductSpecificError, releaseSession w c)
      else (cmOk, started w c side)

/-- `sna_cpic_cminit` -/
def cminitCall (w : Sessions) (a : Initialization) : Option (Int × Sessions) :=
  match utok a.symDestName cmSdnSize with
  | none => some (cmProductSpecificError, w)
  | some name =>
    if name = List.replicate cmSdnSize 32 then cminitNamed w a none
    else match sideInfoGetByName w name with
    | none => some (cmProgramParameterCheck, w)
    | some side => cminitNamed w a (some side)

/-! ## The table -/

def enoent : Int := 2
def enomem : Int := 12
def eexist : Int := 17

/-- `SNA_RESOURCE_NAME_LEN` -/
def resourceNameLen : Nat := 9

/-- `struct sna_nof_cpic` -/
structure NofCpic where
  netid : Netid
  netidPlu : Netid
  symDestName : List UInt8
  modeName : List UInt8
  tpName : List UInt8
  serviceTp : UInt8
  securityLevel : UInt16
  username : List UInt8
  password : List UInt8

/-- `struct sna_cpic_side_info` -/
structure SideEntry where
  index : UInt32
  netid : Netid
  netidPlu : Netid
  symDestName : List UInt8
  modeName : List UInt8
  modeNameLength : UInt8
  tpName : List UInt8
  tpNameLength : UInt8
  serviceTp : UInt8
  securityLevel : UInt16
  username : List UInt8
  password : List UInt8
  deriving DecidableEq

/-- `cpic_side_list` and `sna_cpic_side_system_index` -/
structure SideTable where
  sideList : List SideEntry
  sideSystemIndex : UInt32
  deriving DecidableEq

/-- `strlen` -/
def strlen (s : List UInt8) : Nat := (s.takeWhile (· ≠ 0)).length

/-- Blanks from the end of the string up to the eighth byte -/
def blankPadded (buffer : List UInt8) : List UInt8 :=
  buffer.take (strlen buffer) ++ List.replicate (8 - strlen buffer) 0x20 ++
    buffer.drop (max (strlen buffer) 8)

/-- The comparison by which `sna_cpic_side_info_get_by_name` looks for an entry -/
def SideEntry.named (name : List UInt8) (e : SideEntry) : Bool := strncmp 8 e.symDestName name = 0

/-- `sna_cpic_side_info_get_by_name` -/
def sideInfoByName (t : SideTable) (name : List UInt8) : Option SideEntry :=
  t.sideList.find? (SideEntry.named name)

/-- `sna_cpic_side_info_new_index`. One more pass than there are entries finds a number. -/
def sideInfoNewIndex (t : SideTable) : Option UInt32 :=
  newIndex (t.sideList.map SideEntry.index) (t.sideList.length + 1) t.sideSystemIndex

/-- The entry that `sna_cpic_register_side_info` fills in -/
def SideEntry.of (side : NofCpic) (index : UInt32) : SideEntry where
  index := index
  netid := side.netid
  netidPlu := side.netidPlu
  symDestName := blankPadded (padded resourceNameLen side.symDestName)
  modeName := padded resourceNameLen side.modeName
  modeNameLength := (strlen (padded resourceNameLen side.modeName)).toUInt8
  tpName := padded 65 side.tpName
  tpNameLength := (strlen (padded 65 side.tpName)).toUInt8
  serviceTp := side.serviceTp
  securityLevel := side.securityLevel
  username := padded 11 side.username
  password := padded 11 side.password

/-- `sna_cpic_register_side_info`, where `kmalloc` finds memory or not. It does not return (`none`) if
every number is in use. -/
def registerSideInfo (t : SideTable) (side : NofCpic) (alloc : Bool) : Option (Int × SideTable) :=
  match sideInfoByName t side.symDestName with
  | some _ => some (-eexist, t)
  | none =>
    if !alloc then some (-enomem, t)
    else (sideInfoNewIndex t).map fun index =>
      (0, { sideList := t.sideList ++ [.of side index], sideSystemIndex := index })

/-- `sna_cpic_unregister_side_info` -/
def unregisterSideInfo (t : SideTable) (side : NofCpic) : Int × SideTable :=
  match sideInfoByName t side.symDestName with
  | some _ => (0, { t with sideList := t.sideList.eraseP (SideEntry.named side.symDestName) })
  | none => (-enoent, t)

/-- What Initialize_Conversation takes from an entry -/
def SideEntry.sideInfo (e : SideEntry) : SideInfo where
  modeName := e.modeName.takeWhile (· ≠ 0)
  modeNameLength := e.modeNameLength.toNat
  partnerLuName := (netidToChar e.netidPlu (List.replicate 18 0)).takeWhile (· ≠ 0)
  tpName := e.tpName.takeWhile (· ≠ 0)
  tpNameLength := e.tpNameLength.toNat

/-- The table as Initialize_Conversation sees it -/
def SideTable.view (t : SideTable) : List (List UInt8 × SideInfo) :=
  t.sideList.map fun e => (e.symDestName, e.sideInfo)

end LinuxSna.Cpic
