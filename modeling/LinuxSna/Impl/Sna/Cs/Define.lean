import LinuxSna.Impl.Sna.Nof

/-!
# The ports and their link stations

`port_list`, the link stations that are defined on each port, and the calls that define and delete
them. What the node has beside them is an argument: whether the node and the data link control are
found, and whether `kmalloc` finds memory. `use_name` of a control block has fewer bytes than are
copied to it. `Env.behind` is what is in memory behind them once the other fields are set.
-/

namespace LinuxSna.Stations

open Framework (find update newIndex)
open Nof (enoent enomem eexist)

/-- `SNA_RESOURCE_NAME_LEN` -/
def resourceNameLen : Nat := 9

/-- The bytes that `memcmp` compares, `IFHWADDRLEN` of them -/
abbrev Mac := Vector UInt8 6

/-- The string that `strcmp` finds in memory -/
def string (bytes : List UInt8) : List UInt8 := bytes.takeWhile (· ≠ 0)

/-- `struct sna_nof_port`; `useName` is the memory from its `use_name` on. -/
structure NofPort where
  useName : List UInt8
  saddr : Vector UInt8 12

/-- `struct sna_nof_ls`; `useName` is the memory from its `use_name` on. -/
structure NofLs where
  useName : List UInt8
  saddr : Vector UInt8 12
  dname : Vector UInt8 7
  daddr : Vector UInt8 12

/-- What a call meets. -/
structure Env where
  cs : Bool
  dlc : Bool
  alloc : Bool
  behind : List UInt8

/-- `struct sna_ls_cb`; `useName` is the string at its `use_name`. -/
structure LsCb where
  useName : List UInt8
  index : UInt32
  portIndex : UInt32
  pluMacAddr : Mac
  pluPort : UInt8
  deriving DecidableEq

/-- `struct sna_port_cb`; `useName` is the string at its `use_name`. -/
structure PortCb where
  useName : List UInt8
  index : UInt32
  saddr : Vector UInt8 12
  lsList : List LsCb
  lsQlen : UInt32
  lsSystemIndex : UInt32

/-- `port_list` and `sna_port_system_index` -/
structure Ports where
  portList : List PortCb
  portSystemIndex : UInt32

/-- All link stations, port by port -/
def Ports.stations (s : Ports) : List LsCb := s.portList.flatMap PortCb.lsList

/-! ## Looking for them -/

/-- `sna_cs_port_get_by_name` -/
def portGetByName (s : Ports) (name : List UInt8) : Option PortCb :=
  s.portList.find? fun port => port.useName = string name

/-- `sna_cs_port_get_by_addr`. One byte is compared. -/
def portGetByAddr (s : Ports) (saddr : UInt8) : Option PortCb :=
  s.portList.find? fun port => port.saddr[0] = saddr

/-- `sna_cs_port_get_by_index` -/
def portGetByIndex (s : Ports) (index : UInt32) : Option PortCb := find PortCb.index index s.portList

/-- `sna_cs_port_new_index`. One more pass than there are ports finds a number. -/
def portNewIndex (s : Ports) : Option UInt32 :=
  newIndex (s.portList.map PortCb.index) (s.portList.length + 1) s.portSystemIndex

/-- `sna_cs_ls_get_by_name` -/
def lsGetByName (s : Ports) (name : List UInt8) : Option LsCb :=
  s.portList.findSome? fun port => port.lsList.find? fun ls => ls.useName = string name

/-- `sna_cs_ls_get_by_addr`. `plu_port` is a `u_int8_t`, `lsap` points to a `char`, and both are compared
as `int`. -/
def lsGetByAddr (s : Ports) (mac : Mac) (lsap : UInt8) : Option LsCb :=
  s.portList.findSome? fun port => port.lsList.find? fun ls =>
    ls.pluMacAddr = mac ∧ (ls.pluPort.toNat : Int) = lsap.toInt8.toInt

/-- `sna_cs_ls_new_index` -/
def lsNewIndex (port : PortCb) : Option UInt32 :=
  newIndex (port.lsList.map LsCb.index) (port.lsList.length + 1) port.lsSystemIndex

/-! ## Defining them -/

/-- The string at a `use_name` to which a name has been copied -/
def copied (name behind : List UInt8) : List UInt8 := string (name.takeD resourceNameLen 0 ++ behind)

/-- The first bytes of `dname`, which are copied to `plu_mac_addr` -/
def NofLs.mac (cfg : NofLs) : Mac := cfg.dname.take 6

/-- The link station that `sna_cs_define_ls` sets up -/
def NofLs.ls (cfg : NofLs) (port : PortCb) (env : Env) (index : UInt32) : LsCb where
  useName := copied cfg.useName env.behind
  index := index
  portIndex := port.index
  pluMacAddr := cfg.mac
  pluPort := cfg.daddr[0]

/-- `list_add_tail` to the link stations of a port -/
def PortCb.add (ls : LsCb) (port : PortCb) : PortCb :=
  { port with lsList := port.lsList ++ [ls], lsQlen := port.lsQlen + 1, lsSystemIndex := ls.index }

/-- `sna_cs_define_ls`. It does not return (`none`) if every number is in use. -/
def defineLs (s : Ports) (cfg : NofLs) (env : Env) : Option (Int × Ports) :=
  if !env.cs || !env.dlc then some (-enoent, s)
  else
    match portGetByAddr s cfg.saddr[0] with
    | none => some (-enoent, s)
    | some port =>
      if (lsGetByAddr s cfg.mac cfg.daddr[0]).isSome then some (-eexist, s)
      else if (lsGetByName s cfg.useName).isSome then some (-eexist, s)
      else if !env.alloc then some (-enomem, s)
      else (lsNewIndex port).map fun index =>
        (0, { s with portList := update PortCb.index port.index (.add (cfg.ls port env index)) s.portList })

/-- The port that `sna_cs_define_port` sets up -/
def NofPort.port (cfg : NofPort) (env : Env) (index : UInt32) : PortCb where
  useName := copied cfg.useName env.behind
  index := index
  saddr := cfg.saddr
  lsList := []
  lsQlen := 0
  lsSystemIndex := 0

/-- `sna_cs_define_port`. It does not return (`none`) if every number is in use. -/
def definePort (s : Ports) (cfg : NofPort) (env : Env) : Option (Int × Ports) :=
  if !env.cs || !env.dlc then some (-enoent, s)
  else if (portGetByAddr s cfg.saddr[0]).isSome then some (-eexist, s)
  else if (portGetByName s cfg.useName).isSome then some (-eexist, s)
  else if !env.alloc then some (-enomem, s)
  else (portNewIndex s).map fun index =>
    (0, { portList := s.portList ++ [cfg.port env index], portSystemIndex := index })

/-! ## Deleting them -/

/-- `sna_cs_delete_ls_gen` of a link station that has not been started: it is taken off the list that
it is on. -/
def deleteLsGen (ls : LsCb) (port : PortCb) : PortCb := { port with lsList := port.lsList.erase ls }

def PortCb.uncount (port : PortCb) : PortCb := { port with lsQlen := port.lsQlen - 1 }

/-- `sna_cs_delete_ls` -/
def deleteLs (s : Ports) (name : List UInt8) : Int × Ports :=
  match lsGetByName s name with
  | none => (-enoent, s)
  | some ls =>
    match portGetByIndex s ls.portIndex with
    | none => (-enoent, s)
    | some port =>
      let counted := update PortCb.index port.index .uncount s.portList
      (0, { s with portList := counted.map (deleteLsGen ls) })

/-- `sna_cs_delete_ls_all` -/
def deleteLsAll (port : PortCb) : PortCb :=
  port.lsList.foldl (fun port ls => (deleteLsGen ls port).uncount) port

/-- `sna_cs_delete_port` of a port that has not been started -/
def deletePort (s : Ports) (name : List UInt8) : Int × Ports :=
  match portGetByName s name with
  | none => (-enoent, s)
  | some port =>
    let emptied := update PortCb.index port.index deleteLsAll s.portList
    (0, { s with portList := emptied.eraseP (·.index = port.index) })

/-! ## Any calls -/

inductive Call where
  | definePort (cfg : NofPort) (env : Env)
  | defineLs (cfg : NofLs) (env : Env)
  | deleteLs (name : List UInt8)
  | deletePort (name : List UInt8)

/-- The ports after a call, if it returns -/
def step (s : Ports) : Call → Option Ports
  | .definePort cfg env => (definePort s cfg env).map Prod.snd
  | .defineLs cfg env => (defineLs s cfg env).map Prod.snd
  | .deleteLs name => some (deleteLs s name).2
  | .deletePort name => some (deletePort s name).2

end LinuxSna.Stations
