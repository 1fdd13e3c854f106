import LinuxSna.Framework.Sweep
import LinuxSna.Framework.Table
import LinuxSna.Impl.Sna.Cs.Xid

/-!
# The node operator

The lists in which the components keep what belongs to a node, and
`sna_nof_node_define` and `sna_nof_node_stop` with the functions of the
components that they call. What a port does with its SAP changes no list and is
left out, as is the count of the users of the module. The classes of service belong
to no node; they are in `Cosm.Table`.
-/

namespace LinuxSna.Nof

open Framework (strncmp newIndex modifyFirst)
open Asm (AsmCb)
open Cs (Netid Ls PcCb XidState)

def enoent : Int := 2
def enomem : Int := 12
def eexist : Int := 17

/-- `struct sna_nof_cb` -/
structure NofCb where
  netid : Netid
  /-- `flags & SNA_RUNNING`; else `SNA_STOPPED` is set. -/
  running : Bool

/-- `struct sna_cs_cb` -/
structure CsCb where
  index : UInt32
  netid : Netid
  running : Bool

/-- `struct sna_port_cb` -/
structure PortCb where
  index : UInt32
  netid : Netid
  running : Bool
  lsList : List Ls

/-- `struct sna_local_lu_cb`, `struct sna_remote_lu_cb` and `struct sna_mode_cb`:
which they are, and whose -/
structure RmCb where
  index : UInt32
  netid : Netid

/-- `struct sna_tg_cb` -/
structure TgCb where
  tgNumber : UInt8
  lsIndex : UInt32
  portIndex : UInt32
  dlcIndex : UInt32
  deriving DecidableEq

/-- `struct sna_tdm_node_cb` -/
structure TdmNodeCb where
  netid : Netid
  tgList : List TgCb
  deriving DecidableEq

/-- The lists of the components. -/
structure Lists where
  nofList : List NofCb
  csList : List CsCb
  csSystemIndex : UInt32
  dsClients : List Netid
  ssClients : List Netid
  portList : List PortCb
  asmList : List AsmCb
  pcList : List PcCb
  localLuList : List RmCb
  remoteLuList : List RmCb
  modeList : List RmCb
  nodeList : List TdmNodeCb

/-! ## Names -/

/-- The comparison of both names, `SNA_NETWORK_NAME_LEN` and
`SNA_RESOURCE_NAME_LEN` bytes of them. -/
def sameNetid (a b : Netid) : Bool :=
  strncmp 9 a.net b.net = 0 && strncmp 9 a.name b.name = 0

/-- The comparison of the name in the network alone, `SNA_NODE_NAME_LEN` bytes of it. -/
def sameName (a b : Netid) : Bool := strncmp 8 a.name b.name = 0

/-- `sna_nof_get_by_netid` -/
def nofGetByNetid (l : Lists) (n : Netid) : Option NofCb := l.nofList.find? (sameNetid ·.netid n)

/-- `sna_cs_get_by_name` -/
def csGetByName (l : Lists) (n : Netid) : Option CsCb := l.csList.find? (sameName ·.netid n)

/-- `sna_tdm_node_get_by_netid` -/
def tdmNodeGetByNetid (l : Lists) (n : Netid) : Option TdmNodeCb :=
  l.nodeList.find? (sameNetid ·.netid n)

/-- `sna_tdm_request_tg_vectors` -/
def tdmRequestTgVectors (l : Lists) (remoteName : Netid) : Option TgCb :=
  (tdmNodeGetByNetid l remoteName).bind (·.tgList.head?)

/-! ## Configuration services -/

/-- What the link stations have activated: address spaces and path control
instances. -/
structure Routes where
  asmList : List AsmCb
  pcList : List PcCb

/-- `sna_cs_stop_ls_gen`. A station that is active sends a DISC, and is reset when
that is confirmed or the timer expires. The reset of a stopped station needs no
buffer. -/
def stopLsGen (r : Routes) (ls : Ls) : Routes × Ls :=
  if !ls.running then (r, ls)
  else
    let ls := { ls with running := false, xidInput := some .reset }
    if ls.xidState = .active then (r, { ls with retry := true })
    else
      let ls := Cs.xidDoit {} { ls with asmList := r.asmList, pcList := r.pcList }
      (⟨ls.asmList, ls.pcList⟩, ls)

/-- `sna_cs_stop_ls_all` -/
def stopLsAll (r : Routes) : List Ls → Routes × List Ls
  | [] => (r, [])
  | ls :: l =>
    let s := stopLsGen r ls
    let t := stopLsAll s.1 l
    (t.1, s.2 :: t.2)

/-- `sna_cs_stop_port_gen` -/
def stopPortGen (r : Routes) (port : PortCb) : Routes × PortCb :=
  if !port.running then (r, port)
  else
    let s := stopLsAll r port.lsList
    (s.1, { port with running := false, lsList := s.2 })

/-- `sna_cs_delete_ls_gen`; the station is freed. -/
def deleteLsGen (r : Routes) (ls : Ls) : Routes := (stopLsGen r ls).1

/-- `sna_cs_delete_ls_all` -/
def deleteLsAll (r : Routes) (lsList : List Ls) : Routes := lsList.foldl deleteLsGen r

/-- `sna_cs_delete_port_gen`; the port is freed. -/
def deletePortGen (r : Routes) (port : PortCb) : Routes :=
  let s := stopPortGen r port
  deleteLsAll s.1 s.2.lsList

/-- The ports of a node are stopped. -/
def stopPorts (n : Netid) (r : Routes) : List PortCb → Routes × List PortCb
  | [] => (r, [])
  | port :: l =>
    let s := if port.netid = n then stopPortGen r port else (r, port)
    let t := stopPorts n s.1 l
    (t.1, s.2 :: t.2)

/-- The ports of a node are deleted. -/
def deletePorts (n : Netid) (r : Routes) : List PortCb → Routes × List PortCb
  | [] => (r, [])
  | port :: l =>
    if port.netid = n then deletePorts n (deletePortGen r port) l
    else
      let t := deletePorts n r l
      (t.1, port :: t.2)

/-- What is left of the ports, the address spaces and the path control instances. -/
def Lists.setPorts (l : Lists) (s : Routes × List PortCb) : Lists :=
  { l with asmList := s.1.asmList, pcList := s.1.pcList, portList := s.2 }

/-- `sna_cs_stop` -/
def csStop (l : Lists) (n : Netid) : Lists :=
  match csGetByName l n with
  | none => l
  | some cs =>
    if !cs.running then l
    else
      { l with csList := modifyFirst (sameName ·.netid n) ({ · with running := false }) l.csList
        }.setPorts (stopPorts n ⟨l.asmList, l.pcList⟩ l.portList)

/-- `sna_cs_destroy` -/
def csDestroy (l : Lists) (n : Netid) : Lists :=
  match csGetByName l n with
  | none => l
  | some _ =>
    let l := csStop l n
    let l := l.setPorts (deletePorts n ⟨l.asmList, l.pcList⟩ l.portList)
    { l with csList := l.csList.eraseP (sameName ·.netid n) }

/-! ## Nodes -/

/-- `sna_nof_node_stop` -/
def nodeStop (l : Lists) (n : Netid) : Int × Lists :=
  match nofGetByNetid l n with
  | none => (-enoent, l)
  | some nof =>
    if !nof.running then (0, l)
    else
      (0, csStop
        { l with nofList := modifyFirst (sameNetid ·.netid n) ({ · with running := false }) l.nofList } n)

/-- Whether there is memory for what the definition of a node allocates. -/
structure DefineEnv where
  tdm : Bool
  nof : Bool
  ss : Bool
  ds : Bool
  cs : Bool

/-- `sna_tdm_define_node_chars`, what it does to the list -/
def tdmDefineNodeChars (l : Lists) (n : Netid) (alloc : Bool) : Int × Lists :=
  match tdmNodeGetByNetid l n with
  | some _ => (0, l)
  | none => if alloc then (0, { l with nodeList := l.nodeList ++ [⟨n, []⟩] }) else (-enomem, l)

/-- `sna_ss_create` and `sna_ds_create`: a client with a new name. -/
def createClient (clients : List Netid) (n : Netid) (alloc : Bool) : List Netid :=
  if (clients.find? (sameName · n)).isNone && alloc then clients ++ [n] else clients

/-- `sna_cs_create`; `none` if there is no number left. -/
def csCreate (l : Lists) (n : Netid) (alloc : Bool) : Option Lists :=
  if (csGetByName l n).isNone && alloc then
    (newIndex (l.csList.map (·.index)) (l.csList.length + 1) l.csSystemIndex).map fun i =>
      { l with csSystemIndex := i, csList := l.csList ++ [⟨i, n, false⟩] }
  else some l

/-- `sna_nof_node_define`. What the components return is not looked at. -/
def nodeDefine (l : Lists) (n : Netid) (e : DefineEnv) : Option (Int × Lists) :=
  if (nofGetByNetid l n).isSome then some (-eexist, l)
  else
    let s := tdmDefineNodeChars l n e.tdm
    if s.1 < 0 then some s
    else if !e.nof then some (-enomem, s.2)
    else
      (csCreate { s.2 with
          nofList := s.2.nofList ++ [⟨n, false⟩]
          ssClients := createClient s.2.ssClients n e.ss
          dsClients := createClient s.2.dsClients n e.ds } n e.cs).map fun l => (0, l)

end LinuxSna.Nof
