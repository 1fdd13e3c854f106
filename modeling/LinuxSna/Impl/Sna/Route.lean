import LinuxSna.Impl.Sna.Nof

/-!
# Routes

How the activation of a link gets into the topology database, and how an init signal
of a session is given a link: `sna_cs_tg_activate` and `sna_tdm_tg_update`, and
`sna_ss_proc_init_sig` with `sna_cs_activate_route`. `sna_rss_req_single_hop_route`
returns what `sna_tdm_request_tg_vectors` does.
-/

namespace LinuxSna.Route

open Framework (find update modifyFirst)
open Nof Cs

/-! ## The topology database -/

/-- `struct sna_tg_update`; the node types and the routing are zero. -/
structure TgUpdate where
  pluName : Netid
  tgNumber : UInt8
  lsIndex : UInt32
  portIndex : UInt32
  dlcIndex : UInt32

/-- The transmission group as it is updated. -/
def TgUpdate.tg (u : TgUpdate) : TgCb := ⟨u.tgNumber, u.lsIndex, u.portIndex, u.dlcIndex⟩

/-- `sna_tdm_tg_get_by_number` -/
def tgGetByNumber (node : TdmNodeCb) (tgNumber : UInt8) : Option TgCb :=
  node.tgList.find? (·.tgNumber = tgNumber)

def setTgList (l : Lists) (name : Netid) (tgList : List TgCb) : Lists :=
  { l with nodeList := modifyFirst (sameNetid ·.netid name) ({ · with tgList := tgList }) l.nodeList }

/-- `sna_tdm_tg_update` -/
def tgUpdate (l : Lists) (name : Netid) (u : TgUpdate) (alloc : Bool) : Int × Lists :=
  match tdmNodeGetByNetid l name with
  | none => (-enoent, l)
  | some node =>
    match tgGetByNumber node u.tgNumber with
    | none => if !alloc then (-enomem, l) else (0, setTgList l name (node.tgList ++ [u.tg]))
    | some _ =>
      (0, setTgList l name (modifyFirst (·.tgNumber = u.tgNumber) (fun _ => u.tg) node.tgList))

/-- Whether there is memory for the update and for a transmission group. -/
structure TgAlloc where
  update : Bool
  tg : Bool

/-- What `sna_cs_tg_activate` has to say of a link station. -/
def lsTgUpdate (ls : Ls) (dlcIndex : UInt32) : TgUpdate :=
  ⟨ls.pluName, UInt8.ofNat ls.effectiveTg, ls.index, ls.portIndex, dlcIndex⟩

/-- `sna_cs_tg_activate` -/
def csTgActivate (l : Lists) (ls : Ls) (dlcIndex : UInt32) (alloc : TgAlloc) : Int × Lists :=
  if !alloc.update then (-enomem, l) else tgUpdate l ls.netid (lsTgUpdate ls dlcIndex) alloc.tg

/-! ## Link stations -/

/-- `sna_cs_port_get_by_index`, then `sna_cs_ls_get_by_index` -/
def station (l : Lists) (portIndex lsIndex : UInt32) : Option Ls :=
  (find PortCb.index portIndex l.portList).bind fun port => find Ls.index lsIndex port.lsList

def setStation (l : Lists) (portIndex lsIndex : UInt32) (ls : Ls) : Lists :=
  { l with
    portList := update PortCb.index portIndex
      (fun port => { port with lsList := update Ls.index lsIndex (fun _ => ls) port.lsList })
      l.portList }

/-! ## Init signals -/

/-- `struct sna_init_signal`, without the name of the mode -/
structure InitSignal where
  index : UInt32
  localName : Netid
  remoteName : Netid
  deriving DecidableEq

/-- What comes of an init signal. -/
inductive Outcome where
  /-- `-ENOENT` -/
  | noRoute
  /-- `sna_sm_proc_init_sig_neg_rsp` is called. -/
  | negRsp
  /-- `sna_sm_proc_cinit_sig_rsp` is called. -/
  | cinitRsp (pcIndex : UInt32)
  /-- The link station is connected, and its activation waited for. -/
  | sleeps (portIndex lsIndex : UInt32)
  deriving DecidableEq

/-- `sna_cs_activate_route`, up to where it sleeps; what `sna_cs_connect_out` does to the
link station is an event of its own. The remote name is not looked at. -/
def csActivateRoute (l : Lists) (tg : TgCb) : Outcome :=
  match station l tg.portIndex tg.lsIndex with
  | none => .negRsp
  | some ls =>
    if ls.state = .active then .cinitRsp ls.pcIndex else .sleeps tg.portIndex tg.lsIndex

/-- `sna_ss_proc_init_sig`, up to where it sleeps -/
def ssProcInitSig (l : Lists) (init : InitSignal) : Outcome :=
  match tdmRequestTgVectors l init.localName with
  | none => .noRoute
  | some tg => csActivateRoute l tg

/-- An init signal that waits for a link station. -/
structure Sleeper where
  init : InitSignal
  portIndex : UInt32
  lsIndex : UInt32
  deriving DecidableEq

/-- The rest of `sna_ss_proc_init_sig`, when `sna_cs_wait_for_link_station` comes back: the
link is active, or it is not and a signal came or the time has expired. -/
def wokenUp (l : Lists) (w : Sleeper) : Outcome :=
  match station l w.portIndex w.lsIndex with
  | none => .negRsp
  | some ls => if ls.state = .active ∧ ls.llcSk then .cinitRsp ls.pcIndex else .negRsp

/-! ## Runs -/

/-- The lists, the last number of a path control instance, the init signals that wait,
and with the names of their nodes the updates of the topology there have been. -/
structure State where
  lists : Lists
  pcSystemIndex : UInt32
  sleeping : List Sleeper
  updates : List (Netid × TgUpdate)

/-- A link station with the lists that belong to all. -/
def State.lend (s : State) (ls : Ls) : Ls :=
  { ls with
    asmList := s.lists.asmList
    pcList := s.lists.pcList
    pcSystemIndex := s.pcSystemIndex }

/-- What a link station has made of the lists. -/
def State.giveBack (s : State) (portIndex lsIndex : UInt32) (ls : Ls) : State :=
  { s with
    lists := { setStation s.lists portIndex lsIndex ls with
      asmList := ls.asmList, pcList := ls.pcList }
    pcSystemIndex := ls.pcSystemIndex }

def State.tgActivate (s : State) (ls : Ls) (dlcIndex : UInt32) (alloc : TgAlloc) : State :=
  let r := csTgActivate s.lists ls dlcIndex alloc
  { s with
    lists := r.2
    updates := if r.1 = 0 then s.updates ++ [(ls.netid, lsTgUpdate ls dlcIndex)] else s.updates }

inductive Event where
  /-- The exchange of XIDs makes another station of a link station, short of activating
  or resetting the link. -/
  | exchange (portIndex lsIndex : UInt32) (ls : Ls)
  /-- `xid_input_active` -/
  | activate (portIndex lsIndex dlcIndex : UInt32) (env : Env) (alloc : TgAlloc)
  /-- `xid_input_reset` -/
  | reset (portIndex lsIndex : UInt32) (b : Buffers)
  | initSig (init : InitSignal)
  | wake (w : Sleeper)

/-- What the exchange of XIDs leaves of a link station. -/
def SameLink (ls ls' : Ls) : Prop :=
  ls'.portIndex = ls.portIndex ∧ ls'.index = ls.index ∧ ls'.netid = ls.netid ∧
    ls'.pluName = ls.pluName ∧ ls'.pcIndex = ls.pcIndex ∧ (ls'.state = .active ↔ ls.state = .active)

instance (ls ls' : Ls) : Decidable (SameLink ls ls') :=
  inferInstanceAs (Decidable (_ ∧ _))

/-- `xid_input_active` in a link station; the topology is updated if what comes before it
succeeds. -/
def activate (s : State) (portIndex lsIndex dlcIndex : UInt32) (env : Env) (alloc : TgAlloc)
    (ls : Ls) : State :=
  let r := xidInputActive { env with tg := true } (s.lend ls)
  let s' := s.giveBack portIndex lsIndex r.2
  if ls.xidState ≠ .active ∧ r.1 then s'.tgActivate r.2 dlcIndex alloc else s'

/-- The state after an event. -/
def step (s : State) : Event → Option State
  | .exchange portIndex lsIndex ls' =>
    match station s.lists portIndex lsIndex with
    | none => none
    | some ls =>
      if SameLink ls ls' then some (s.giveBack portIndex lsIndex (s.lend ls')) else none
  | .activate portIndex lsIndex dlcIndex env alloc =>
    (station s.lists portIndex lsIndex).map (activate s portIndex lsIndex dlcIndex env alloc)
  | .reset portIndex lsIndex b =>
    (station s.lists portIndex lsIndex).map fun ls =>
      s.giveBack portIndex lsIndex (xidInputReset b (s.lend ls))
  | .initSig init =>
    match ssProcInitSig s.lists init with
    | .sleeps portIndex lsIndex =>
      some { s with sleeping := s.sleeping ++ [⟨init, portIndex, lsIndex⟩] }
    | .noRoute | .negRsp | .cinitRsp _ => some s
  | .wake w =>
    if w ∈ s.sleeping then some { s with sleeping := s.sleeping.erase w } else none

end LinuxSna.Route
