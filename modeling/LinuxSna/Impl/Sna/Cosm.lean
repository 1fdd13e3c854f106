import LinuxSna.Framework.Chain
import LinuxSna.Framework.Table
import LinuxSna.Impl.Sna.Cs.Define

/-!
# The class-of-service table

`cosm_list`, with the rows of transmission groups and of nodes that hang off its entries, and
`sna_cosm_define_cos`, `sna_cosm_delete_cos` and `sna_cosm_init_default_cos`. `none` is where memory is
read that is not allocated. Fields of the rows that no definition sets are left out, and so is the pointer to
the previous row, which is never set.
-/

namespace LinuxSna.Cosm

open Framework (Heap Link padded strncmp search rowFuel storeRow freeAll put)
open Stations (string resourceNameLen)
open Nof (enoent enomem)

/-- What `struct sna_cosm_cb` and `struct sna_nof_cos` have of a class -/
structure Attributes where
  weight : UInt16 := 0
  txPriority : UInt16 := 0
  defaultCosInvalid : UInt8 := 0
  defaultCosNull : UInt8 := 0

/-- The characteristics of a transmission group -/
structure TgCharacteristics where
  minCostPerConnect : UInt16
  maxCostPerConnect : UInt16
  minCostPerByte : UInt16
  maxCostPerByte : UInt16
  minSecurity : UInt16
  maxSecurity : UInt16
  minPropagationDelay : UInt16
  maxPropagationDelay : UInt16
  minEffectiveCapacity : UInt16
  maxEffectiveCapacity : UInt16
  minUser1 : UInt16
  maxUser1 : UInt16
  minUser2 : UInt16
  maxUser2 : UInt16
  minUser3 : UInt16
  maxUser3 : UInt16

/-- `struct sna_nof_cos` -/
structure NofCos extends Attributes, TgCharacteristics where
  name : List UInt8
  tgRsn : UInt16
  nodeRsn : UInt16
  maxRouteResistance : UInt16
  maxNodeCongested : UInt16

/-- `struct sna_cosm_tg_cb` -/
structure TgCb extends TgCharacteristics where
  rsn : UInt16

/-- `struct sna_cosm_node_cb` -/
structure NodeCb where
  rsn : UInt16
  routeResistance : UInt16
  nodeCongested : UInt16

/-- The row of a transmission group that is defined -/
def NofCos.tg (cos : NofCos) : TgCb := { cos.toTgCharacteristics with rsn := cos.tgRsn }

/-- The row of a node that is defined -/
def NofCos.node (cos : NofCos) : NodeCb where
  rsn := cos.nodeRsn
  routeResistance := cos.maxRouteResistance
  nodeCongested := cos.maxNodeCongested

/-- `struct sna_cosm_cb` -/
structure CosmCb extends Attributes where
  name : List UInt8
  tg : Option Nat := none
  node : Option Nat := none

/-- What `strncmp` compares of a name -/
def CosmCb.key (c : CosmCb) : List UInt8 := padded resourceNameLen c.name

/-- `cosm_list`, and the memory that its rows are in -/
structure Table where
  cosmList : List CosmCb
  tgs : Heap (Link TgCb)
  nodes : Heap (Link NodeCb)

def Table.empty : Table := ⟨[], .empty, .empty⟩

/-- Whether there is memory for an entry and its rows, and where the system would give it out. -/
structure Memory where
  cos : Bool := true
  tg : Bool := true
  node : Bool := true
  tgHint : Nat := 0
  nodeHint : Nat := 0

/-- `sna_cosm_find` -/
def cosmFind (t : Table) (name : List UInt8) : Option CosmCb :=
  t.cosmList.find? fun c => strncmp resourceNameLen c.name name = 0

/-- `sna_cosm_find_tg_weight` -/
def cosmFindTgWeight (t : Table) (c : CosmCb) (rsn : UInt16) : Option (Option Nat) :=
  search t.tgs (fun r => r.rsn = rsn) (rowFuel t.tgs) c.tg

/-- `sna_cosm_find_node_weight` -/
def cosmFindNodeWeight (t : Table) (c : CosmCb) (rsn : UInt16) : Option (Option Nat) :=
  search t.nodes (fun r => r.rsn = rsn) (rowFuel t.nodes) c.node

/-- The entry in the list is as `c`, or `c` is added at its end. -/
def Table.store (t : Table) (c : CosmCb) : Table := { t with cosmList := put CosmCb.key c t.cosmList }

/-- The entry that `sna_cosm_define_cos` finds, or a new one; `none` without memory. -/
def entryFor (m : Memory) (t : Table) (name : List UInt8) : Option CosmCb :=
  match cosmFind t name with
  | some c => some c
  | none => if m.cos then some { name := padded resourceNameLen name } else none

/-- The end of `sna_cosm_define_cos`: append node cos records. -/
def appendNode (m : Memory) (cos : NofCos) (c : CosmCb) (t : Table) : Option (Int × Table) :=
  ((cosmFindNodeWeight t c cos.nodeRsn).bind
    (storeRow t.nodes m.node m.nodeHint c.node cos.node)).map fun r =>
  match r with
  | none => (-enomem, t)
  | some (nodes, node) => (0, { t with nodes := nodes }.store { c with node := node })

/-- What comes before: append tg cos records. -/
def appendTg (m : Memory) (cos : NofCos) (c : CosmCb) (t : Table) : Option (Int × Table) :=
  ((cosmFindTgWeight t c cos.tgRsn).bind (storeRow t.tgs m.tg m.tgHint c.tg cos.tg)).bind fun r =>
  match r with
  | none => some (-enomem, t)
  | some (tgs, tg) => appendNode m cos { c with tg := tg } ({ t with tgs := tgs }.store { c with tg := tg })

/-- `sna_cosm_define_cos` -/
def defineCos (m : Memory) (cos : NofCos) (t : Table) : Option (Int × Table) :=
  match entryFor m t cos.name with
  | none => some (-enomem, t)
  | some c =>
    let c := { c with toAttributes := cos.toAttributes }
    appendTg m cos c (t.store c)

/-- `sna_cosm_delete_cos`, which uses the name alone -/
def deleteCos (name : List UInt8) (t : Table) : Option (Int × Table) :=
  match t.cosmList.find? (fun c => string c.name = string name) with
  | none => some (-enoent, t)
  | some c =>
    (freeAll (rowFuel t.tgs) c.tg t.tgs).bind fun tgs =>
    (freeAll (rowFuel t.nodes) c.node t.nodes).bind fun nodes =>
    some (0, ⟨t.cosmList.eraseP fun c => string c.name = string name, tgs, nodes⟩)

/-! ## The default classes -/

def tpLow : UInt16 := 0
def tpMedium : UInt16 := 1
def tpHigh : UInt16 := 2
def tpNetwork : UInt16 := 3

/-- What `cos_defaults` has for each of its names -/
structure DefaultRow where
  tgRsn : UInt16
  maxCost : UInt16
  maxPropagationDelay : UInt16
  minEffectiveCapacity : UInt16
  nodeRsn : UInt16
  maxRouteResistance : UInt16
  maxNodeCongested : UInt16

def defaultRows : List DefaultRow :=
  [⟨30, 0, 0x4, 0x7, 5, 31, 0⟩, ⟨60, 0, 0x7, 0x4, 10, 63, 0⟩, ⟨90, 0, 0x7, 0x3, 20, 95, 0⟩,
   ⟨120, 0, 0x7, 0x3, 40, 127, 0⟩, ⟨150, 0, 0x9, 0x3, 60, 159, 0⟩, ⟨180, 128, 0x9, 0x3, 80, 191, 0⟩,
   ⟨210, 196, 0xF, 0x2, 120, 223, 0⟩, ⟨240, 255, 0xF, 0x0, 160, 255, 1⟩]

def defaultClasses : List (String × Attributes) :=
  [("CONNECT", ⟨0, tpMedium, 1, 1⟩), ("#BATCH", ⟨10, tpLow, 0, 0⟩), ("#INTER", ⟨20, tpHigh, 0, 0⟩),
   ("#BATCHSC", ⟨30, tpLow, 0, 0⟩), ("#INTERSC", ⟨40, tpHigh, 0, 0⟩), ("CPSVCMG", ⟨50, tpNetwork, 0, 0⟩),
   ("SNASVCMG", ⟨60, tpNetwork, 0, 0⟩)]

/-- The characters of a name, as bytes -/
def bytes (s : String) : List UInt8 := s.toList.map fun c => c.toNat.toUInt8

def defaultCos (name : List UInt8) (a : Attributes) (r : DefaultRow) : NofCos where
  toAttributes := a
  name := name
  tgRsn := r.tgRsn
  minCostPerConnect := 0
  maxCostPerConnect := r.maxCost
  minCostPerByte := 0
  maxCostPerByte := r.maxCost
  minSecurity := 0x01
  maxSecurity := 0xFF
  minPropagationDelay := 0x0
  maxPropagationDelay := r.maxPropagationDelay
  minEffectiveCapacity := r.minEffectiveCapacity
  maxEffectiveCapacity := 0xF
  minUser1 := 0
  maxUser1 := 255
  minUser2 := 0
  maxUser2 := 255
  minUser3 := 0
  maxUser3 := 255
  nodeRsn := r.nodeRsn
  maxRouteResistance := r.maxRouteResistance
  maxNodeCongested := r.maxNodeCongested

/-- `cos_defaults` -/
def cosDefaults : List NofCos :=
  defaultClasses.flatMap fun c => defaultRows.map (defaultCos (bytes c.1) c.2)

/-- `sna_cosm_init_default_cos`, with memory for each of the definitions. What they return is not looked
at. -/
def initDefaultCos (m : Nat → Memory) (t : Table) : Option Table :=
  cosDefaults.zipIdx.foldlM (fun t d => (defineCos (m d.2) d.1 t).map (·.2)) t

end LinuxSna.Cosm
