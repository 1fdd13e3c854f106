import LinuxSna.Framework.Run
import LinuxSna.Impl.Sna.Cosm
import LinuxSna.Impl.Sna.Nof.Define

/-!
# What the node operator defines

The class-of-service table as a map from names to classes. Names are filled up with NULs, so that they are
equal as strings are. And the definition of a node, as one operation on the lists of all components: where a
component has no memory or has an entry already it fails and leaves them, else every component gets its
entry.

* `Classes.define`, `Classes.delete`: what the two calls for a class are for;
* `Table.classes`: the map that a table is;
* `Fails`: the points at which the definition of a node fails;
* `Defined`: what it is for;
* `State.lists`: what other calls look at.
-/

namespace LinuxSna.Cosm

open Framework (Along padded find rowAt)
open Stations (resourceNameLen)

/-- A class of service, with its rows by their RSNs -/
structure Class where
  attributes : Attributes
  tg : UInt16 → Option TgCb
  node : UInt16 → Option NodeCb

def Class.empty : Class := ⟨{}, fun _ => none, fun _ => none⟩

/-- No row is left. -/
def Class.Bare (c : Class) : Prop := (∀ rsn, c.tg rsn = none) ∧ ∀ rsn, c.node rsn = none

abbrev Classes := List UInt8 → Option Class

def NofCos.key (cos : NofCos) : List UInt8 := padded resourceNameLen cos.name

namespace Classes

variable (cs : Classes) (cos : NofCos) (k : List UInt8)

/-- A class is changed, or a new one. -/
def modify (f : Class → Class) : Classes := Function.update cs k (some (f ((cs k).getD .empty)))

def withAttributes : Classes := cs.modify cos.key fun c => { c with attributes := cos.toAttributes }

def withTg : Classes :=
  cs.modify cos.key fun c => { c with tg := Function.update c.tg cos.tgRsn (some cos.tg) }

def withNode : Classes :=
  cs.modify cos.key fun c => { c with node := Function.update c.node cos.nodeRsn (some cos.node) }

/-- A class gets its attributes, a row of a transmission group and a row of a node. -/
def define : Classes := cs.modify cos.key fun c =>
  { attributes := cos.toAttributes
    tg := Function.update c.tg cos.tgRsn (some cos.tg)
    node := Function.update c.node cos.nodeRsn (some cos.node) }

def delete : Classes := Function.update cs k none

/-- There is what a definition gives: its attributes and both of its rows. -/
def Has : Prop := ∃ c, cs cos.key = some c ∧ c.attributes = cos.toAttributes ∧
  c.tg cos.tgRsn = some cos.tg ∧ c.node cos.nodeRsn = some cos.node

/-- The row of a class -/
def tg (rsn : UInt16) : Option TgCb := (cs k).bind (·.tg rsn)

/-- The row of a class -/
def node (rsn : UInt16) : Option NodeCb := (cs k).bind (·.node rsn)

end Classes

/-- The class that an entry is -/
def Table.classOf (t : Table) (c : CosmCb) : Class where
  attributes := c.toAttributes
  tg rsn := rowAt t.tgs TgCb.rsn rsn c.tg
  node rsn := rowAt t.nodes NodeCb.rsn rsn c.node

def Table.classes (t : Table) : Classes := fun k => (find CosmCb.key k t.cosmList).map t.classOf

/-! ## Definitions -/

/-- There is memory for what a definition adds. -/
def Enough (m : Memory) (cs : Classes) (cos : NofCos) : Prop :=
  (cs cos.key = none → m.cos = true) ∧ (cs.tg cos.key cos.tgRsn = none → m.tg = true) ∧
    (cs.node cos.key cos.nodeRsn = none → m.node = true)

/-- A call -/
inductive Call where
  | define (m : Memory) (cos : NofCos) (short : cos.name.length ≤ 8)
  | delete (name : List UInt8) (short : name.length ≤ 8)

/-- The table after a call -/
def step (t : Table) : Call → Option Table
  | .define m cos _ => (defineCos m cos t).map (·.2)
  | .delete name _ => (deleteCos name t).map (·.2)

/-- What a call should do: with memory a definition is made and without it nothing, and a class that is deleted
is gone. -/
def Law (t : Table) : Call → Prop
  | .define m cos _ => ∃ r t', defineCos m cos t = some (r, t') ∧
      (Enough m t.classes cos → r = 0 ∧ t'.classes = t.classes.define cos) ∧
      (¬Enough m t.classes cos → r = -Nof.enomem ∧ t'.classes = t.classes)
  | .delete name _ => ∃ r t', deleteCos name t = some (r, t') ∧
      t'.classes = t.classes.delete (padded resourceNameLen name) ∧
      r = if (t.classes (padded resourceNameLen name)).isSome then 0 else -Nof.enoent

/-! ## The default classes -/

/-- The table after one of the definitions of `sna_cosm_init_default_cos` -/
def defaultStep (m : Nat → Memory) (t : Table) (d : NofCos × Nat) : Option Table :=
  (defineCos (m d.2) d.1 t).map (·.2)

/-- All of them are made: each returns 0. -/
def DefaultsMade (m : Nat → Memory) (t : Table) : Prop :=
  Along (defaultStep m) (fun t d => ∃ t', defineCos (m d.2) d.1 t = some (0, t')) t cosDefaults.zipIdx

/-- There is memory for the classes that are missing, at the first definition of each, and for the rows that
are. -/
def EnoughForDefaults (m : Nat → Memory) (cs : Classes) : Prop :=
  ∀ i cos, cosDefaults[i]? = some cos →
    (cs cos.key = none → (∀ c ∈ cosDefaults.take i, c.key ≠ cos.key) → (m i).cos = true) ∧
      (cs.tg cos.key cos.tgRsn = none → (m i).tg = true) ∧
      (cs.node cos.key cos.nodeRsn = none → (m i).node = true)

end LinuxSna.Cosm

namespace LinuxSna.Nodes

open Cs (Netid)
open Nof (sameNetid)

/-- What there is of the entries for the components that do not look at the rest of them -/
def State.lists (s : State) : Nof.Lists where
  nofList := s.nofList.map (·.toNofCb)
  csList := s.csList.map (·.toCsCb)
  csSystemIndex := s.csSystemIndex
  dsClients := s.dsClients
  ssClients := s.ssClients
  portList := s.portList
  asmList := s.asmList
  pcList := s.pcList
  localLuList := s.localLuList
  remoteLuList := s.remoteLuList
  modeList := s.modeList
  nodeList := s.nodeList.map (·.toTdmNodeCb)

/-- A component has no memory for what it adds, or reports that it has an entry. -/
inductive Fails (s : State) (start : NofNode) (e : DefineEnv) : Prop
  | defined (h : (nofGetByNetid s.nofList start.netid).isSome)
  | nof (h : e.nof = false)
  | tdm (h : (tdmDefineNodeChars start e.now e.tdm s.nodeList).1 < 0)
  | ss (h : (ssCreate start e.ss s.ssClients).1 < 0)
  | ds (h : (dsCreate start e.ds s.dsClients).1 < 0)
  | cs (r : Int × List CsCb × UInt32) (h : csCreate start e.cs s.csList s.csSystemIndex = some r)
      (hr : r.1 < 0)
  | cos (h : ¬Cosm.DefaultsMade e.cos s.cosm)

/-- Every component has the entry of the node. Classes of service belong to no node: all default ones are
there. -/
structure Defined (s : State) (netid : Netid) : Prop where
  nof : ∃ nof ∈ s.nofList, sameNetid nof.netid netid
  tdm : ∃ node ∈ s.nodeList, sameNetid node.netid netid
  ss : ∃ client ∈ s.ssClients, sameNetid client netid
  ds : ∃ client ∈ s.dsClients, sameNetid client netid
  cs : ∃ cs ∈ s.csList, sameNetid cs.netid netid
  cos : ∀ cos ∈ Cosm.cosDefaults, s.cosm.classes.Has cos

/-- A definition -/
structure Call where
  start : NofNode
  env : DefineEnv

/-- The lists after a definition -/
def step (s : State) (c : Call) : Option State := (nodeDefine s c.start c.env).map (·.2)

/-- A definition that fails at any point returns an error; one that returns an error has changed nothing, and
one that does not has defined the node everywhere. -/
def Law (s : State) (c : Call) : Prop := ∃ r s', nodeDefine s c.start c.env = some (r, s') ∧
  (Fails s c.start c.env → r < 0) ∧ (r < 0 → s' = s) ∧ (r = 0 → Defined s' c.start.netid)

end LinuxSna.Nodes
