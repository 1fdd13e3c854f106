import LinuxSna.Impl.Sna.Cosm

/-!
# The definition of a node

`sna_nof_node_define`, with all that the creators of the components put into their entries. The lists of
the path control instances, the address spaces, the ports, the LUs and the modes are there because the
creators leave them: `sna_asm_create`, `sna_sm_create`, `sna_rm_create`, `sna_rss_create` and
`sna_tdm_create` return 0 and do nothing else. Times are those of `do_gettimeofday`.
-/

namespace LinuxSna.Nodes

open Framework (modifyFirst newIndex)
open Asm (AsmCb)
open Cs (Netid PcCb)
open Nof (sameNetid sameName enomem eexist PortCb RmCb)

/-- `struct sna_nof_node`, what a definition reads -/
structure NofNode where
  netid : Netid
  nodeid : UInt32 := 0
  type : UInt8 := 0
  luSeg : UInt16 := 0
  bindSeg : UInt16 := 0
  maxLus : UInt32 := 0
  routeResistance : UInt8 := 0
  quiescing : UInt8 := 0

/-- `struct sna_nof_cb` -/
structure NofCb extends Nof.NofCb where
  nodeid : UInt32
  type : UInt8
  luSeg : UInt16
  bindSeg : UInt16
  maxLus : UInt32

/-- `struct sna_cs_cb` -/
structure CsCb extends Nof.CsCb where
  nodeid : UInt32

/-- `struct timeval` -/
structure Timeval where
  sec : UInt32 := 0
  usec : UInt32 := 0

/-- `struct sna_tdm_node_cb` -/
structure TdmNodeCb extends Nof.TdmNodeCb where
  updated : Timeval := {}
  cpName : Netid
  routeResistance : UInt8 := 0
  cn : UInt8 := 0
  interRouteDepleted : UInt8 := 0
  garbage : UInt8 := 0
  quiescing : UInt8 := 0
  gateway : UInt8 := 0
  cds : UInt8 := 0
  interRoute : UInt8 := 0
  peripheral : UInt8 := 0
  interchange : UInt8 := 0
  extended : UInt8 := 0
  hpr : UInt8 := 0

/-- The lists of the components -/
structure State where
  nofList : List NofCb
  csList : List CsCb
  csSystemIndex : UInt32
  dsClients : List Netid
  ssClients : List Netid
  nodeList : List TdmNodeCb
  cosm : Cosm.Table
  portList : List PortCb
  asmList : List AsmCb
  pcList : List PcCb
  localLuList : List RmCb
  remoteLuList : List RmCb
  modeList : List RmCb

/-- What a definition meets: the memory there is, for the classes of service at each of the default
definitions, and the time. -/
structure DefineEnv extends Nof.DefineEnv where
  now : Timeval := {}
  cos : Nat → Cosm.Memory := fun _ => {}

/-! ## The creators -/

/-- What `sna_tdm_define_node_chars` sets in the entry of a node -/
def TdmNodeCb.setChars (n : NofNode) (now : Timeval) (node : TdmNodeCb) : TdmNodeCb where
  toTdmNodeCb := node.toTdmNodeCb
  updated := now
  cpName := n.netid
  routeResistance := n.routeResistance
  cn := 0
  interRouteDepleted := 0
  garbage := 0
  quiescing := n.quiescing
  gateway := 0
  cds := 0
  interRoute := 0
  peripheral := 0
  interchange := 0
  extended := 0
  hpr := 0

/-- The entry of a node that is new -/
def newTdmNode (n : NofNode) (now : Timeval) : TdmNodeCb :=
  TdmNodeCb.setChars n now { netid := n.netid, tgList := [], cpName := n.netid }

/-- `sna_tdm_node_get_by_netid` -/
def tdmNodeGetByNetid (nodeList : List TdmNodeCb) (netid : Netid) : Option TdmNodeCb :=
  nodeList.find? (sameNetid ·.netid netid)

/-- `sna_tdm_define_node_chars` -/
def tdmDefineNodeChars (n : NofNode) (now : Timeval) (alloc : Bool) (nodeList : List TdmNodeCb) :
    Int × List TdmNodeCb :=
  match tdmNodeGetByNetid nodeList n.netid with
  | some _ => (0, modifyFirst (sameNetid ·.netid n.netid) (TdmNodeCb.setChars n now) nodeList)
  | none => if alloc then (0, nodeList ++ [newTdmNode n now]) else (-enomem, nodeList)

/-- A client with a new name -/
def createClient (n : Netid) (alloc : Bool) (clients : List Netid) : Int × List Netid :=
  match clients.find? (sameName · n) with
  | some _ => (-eexist, clients)
  | none => if alloc then (0, clients ++ [n]) else (-enomem, clients)

/-- `sna_ss_create` -/
def ssCreate (start : NofNode) (alloc : Bool) (ssClients : List Netid) : Int × List Netid :=
  createClient start.netid alloc ssClients

/-- `sna_ds_create` -/
def dsCreate (start : NofNode) (alloc : Bool) (dsClients : List Netid) : Int × List Netid :=
  createClient start.netid alloc dsClients

/-- `sna_cs_get_by_name` -/
def csGetByName (csList : List CsCb) (netid : Netid) : Option CsCb :=
  csList.find? (sameName ·.netid netid)

/-- `sna_cs_create`; `none` if there is no number left. -/
def csCreate (start : NofNode) (alloc : Bool) (csList : List CsCb) (csSystemIndex : UInt32) :
    Option (Int × List CsCb × UInt32) :=
  match csGetByName csList start.netid with
  | some _ => some (-eexist, csList, csSystemIndex)
  | none =>
    if alloc then
      (newIndex (csList.map (·.index)) (csList.length + 1) csSystemIndex).map fun i =>
        (0, csList ++ [{ index := i, netid := start.netid, running := false, nodeid := start.nodeid }], i)
    else some (-enomem, csList, csSystemIndex)

/-- `sna_trs_create` and `sna_cosm_create` -/
def trsCreate (m : Nat → Cosm.Memory) (cosm : Cosm.Table) : Option (Int × Cosm.Table) :=
  (Cosm.initDefaultCos m cosm).map fun cosm => (0, cosm)

/-! ## Nodes -/

/-- `sna_nof_get_by_netid` -/
def nofGetByNetid (nofList : List NofCb) (netid : Netid) : Option NofCb :=
  nofList.find? (sameNetid ·.netid netid)

/-- The entry of a node that is new -/
def newNof (start : NofNode) : NofCb where
  netid := start.netid
  running := false
  nodeid := start.nodeid
  type := start.type
  luSeg := start.luSeg
  bindSeg := start.bindSeg
  maxLus := start.maxLus

/-- The creators, one after the other. What they return is not looked at. -/
def create (start : NofNode) (e : DefineEnv) (s : State) : Option State :=
  let s := { s with ssClients := (ssCreate start e.ss s.ssClients).2 }
  let s := { s with dsClients := (dsCreate start e.ds s.dsClients).2 }
  (csCreate start e.cs s.csList s.csSystemIndex).bind fun cs =>
  let s := { s with csList := cs.2.1, csSystemIndex := cs.2.2 }
  (trsCreate e.cos s.cosm).map fun trs => { s with cosm := trs.2 }

/-- `sna_nof_node_define` -/
def nodeDefine (s : State) (start : NofNode) (e : DefineEnv) : Option (Int × State) :=
  match nofGetByNetid s.nofList start.netid with
  | some _ => some (-eexist, s)
  | none =>
    let tdm := tdmDefineNodeChars start e.now e.tdm s.nodeList
    let s := { s with nodeList := tdm.2 }
    if tdm.1 < 0 then some (tdm.1, s)
    else if !e.nof then some (-enomem, s)
    else
      let s := { s with nofList := s.nofList ++ [newNof start] }
      (create start e s).map fun s => (0, s)

end LinuxSna.Nodes
