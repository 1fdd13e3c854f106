import LinuxSna.Framework.Sweep
import LinuxSna.Impl.Sna.Nof.Delete
import LinuxSna.Proof.Sna.Cs.Exchange
import LinuxSna.Proof.Sna.DefaultClasses

/-!
# Deleting a node

Some components look for the entries of the node by its name alone, some take
everything; and a class of service that has rows is not freed without reading them
afterwards.

* `csDestroy_spec`: what configuration services leave;
* `cosmDestroy_eq`: no classes are left, if none had a row;
* `nodeDelete_removes_iff`: the entries of the node and no others are gone exactly if
  the node has the lists of the resource manager and the topology to itself, its name
  finds its own entries, its link stations are in its ports and can be reset, and
  there are no classes of service, or classes without rows for this node alone.
-/

namespace LinuxSna.Nof

open Framework (padded strncmp)
open Asm (AsmCb)
open Cs (Netid Ls PcCb)

variable {l : Lists} {t : Cosm.Table} {n m : Netid} {r : Routes}

/-! ## Names -/

theorem sameNetid_iff (a b : Netid) :
    sameNetid a b = true ↔ padded 9 a.net = padded 9 b.net ∧ padded 9 a.name = padded 9 b.name := by
  simp [sameNetid, Framework.strncmp_eq_zero_iff]

theorem sameNetid_of {a : Netid} (h : sameNetid a m = true) : sameNetid a n = sameNetid m n := by
  obtain ⟨h₁, h₂⟩ := (sameNetid_iff a m).mp h
  rw [Bool.eq_iff_iff, sameNetid_iff, sameNetid_iff, h₁, h₂]

/-! ## What belongs to a node -/

/-- The link stations of all ports. -/
def Lists.links (l : Lists) : List Ls := l.portList.flatMap (·.lsList)

/-- The address space and the path control instance with this index are those of a
link station of the node. -/
def ofLink (l : Lists) (n : Netid) (index : UInt32) : Bool :=
  l.links.any fun ls => sameNetid ls.netid n && decide (ls.pcIndex = index)

/-- There is another node than this one. -/
def Lists.Shared (l : Lists) (n : Netid) : Prop := ∃ nof ∈ l.nofList, sameNetid nof.netid n = false

/-- The entries of the node are gone, those of other nodes are in place, and routes to
other nodes are found as before. The classes of service belong to all nodes. -/
structure Removed (l l' : Lists) (t t' : Cosm.Table) (n : Netid) : Prop where
  nofList : l'.nofList = l.nofList.filter fun e => !sameNetid e.netid n
  csList : l'.csList = l.csList.filter fun e => !sameNetid e.netid n
  dsClients : l'.dsClients = l.dsClients.filter fun e => !sameNetid e n
  ssClients : l'.ssClients = l.ssClients.filter fun e => !sameNetid e n
  portList : l'.portList = l.portList.filter fun e => !sameNetid e.netid n
  links : l'.links = l.links.filter fun e => !sameNetid e.netid n
  asmList : l'.asmList = l.asmList.filter fun e => !ofLink l n e.index
  pcList : l'.pcList = l.pcList.filter fun e => !ofLink l n e.index
  localLuList : l'.localLuList = l.localLuList.filter fun e => !sameNetid e.netid n
  remoteLuList : l'.remoteLuList = l.remoteLuList.filter fun e => !sameNetid e.netid n
  modeList : l'.modeList = l.modeList.filter fun e => !sameNetid e.netid n
  nodeList : l'.nodeList = l.nodeList.filter fun e => !sameNetid e.netid n
  classes : l.Shared n → t'.cosmList = t.cosmList
  route (m : Netid) : sameNetid m n = false → tdmRequestTgVectors l' m = tdmRequestTgVectors l m

/-- A port that configuration services delete with the node: all bytes of its network
and name are those of the node's. -/
def deletes (l : Lists) (n : Netid) (port : PortCb) : Bool :=
  (csGetByName l n).isSome && decide (port.netid = n)

/-- The index of what a station that is stopped takes down. -/
def takenDown (ls : Ls) : Option UInt32 :=
  if ls.running && decide (ls.xidState ≠ .active) then some ls.pcIndex else none

/-- What the stations of a port take down. -/
def PortCb.takenDown (port : PortCb) : List UInt32 := port.lsList.filterMap Nof.takenDown

/-- The node has the lists of the resource manager and the topology to itself; what
its name finds is its own and all it has; its ports are deleted and they alone, and
its link stations are in them and they alone; and these take down their address
spaces and path control instances and no others. No class of service has a row, and
if there is another node, there are no classes. -/
structure Alone (l : Lists) (t : Cosm.Table) (n : Netid) : Prop where
  nof : l.nofList.filter (sameNetid ·.netid n) = (nofGetByNetid l n).toList
  cs : l.csList.filter (sameNetid ·.netid n) = (csGetByName l n).toList
  ds : l.dsClients.filter (sameNetid · n) = (l.dsClients.find? (sameName · n)).toList
  ss : l.ssClients.filter (sameNetid · n) = (l.ssClients.find? (sameName · n)).toList
  ports : ∀ port ∈ l.portList, sameNetid port.netid n = deletes l n port
  links : ∀ port ∈ l.portList, ∀ ls ∈ port.lsList, sameNetid ls.netid n = deletes l n port
  asms : ∀ a ∈ l.asmList, ofLink l n a.index =
    l.portList.any fun port => deletes l n port && decide (a.index ∈ port.takenDown)
  pcs : ∀ pc ∈ l.pcList, ofLink l n pc.index =
    l.portList.any fun port => deletes l n port && decide (pc.index ∈ port.takenDown)
  localLus : ∀ lu ∈ l.localLuList, sameNetid lu.netid n = true
  remoteLus : ∀ lu ∈ l.remoteLuList, sameNetid lu.netid n = true
  modes : ∀ mode ∈ l.modeList, sameNetid mode.netid n = true
  nodes : ∀ node ∈ l.nodeList, sameNetid node.netid n = true
  rows : ∀ c ∈ t.cosmList, c.tg = none ∧ c.node = none
  classes : l.Shared n → t.cosmList = []

/-! ## What stopping takes down -/

namespace Routes

/-- Address spaces have different indexes, and path control instances have. -/
structure Distinct (r : Routes) : Prop where
  asm : (r.asmList.map (·.index)).Nodup
  pc : (r.pcList.map (·.index)).Nodup

/-- What is left without some of them. -/
def without (r : Routes) (is : List UInt32) : Routes :=
  ⟨r.asmList.filter (·.index ∉ is), r.pcList.filter (·.index ∉ is)⟩

theorem Distinct.without (h : r.Distinct) (is : List UInt32) : (r.without is).Distinct :=
  ⟨(List.filter_sublist.map _).nodup h.asm, (List.filter_sublist.map _).nodup h.pc⟩

@[simp] theorem without_nil (r : Routes) : r.without [] = r := by simp [without]

theorem without_without (r : Routes) (is js : List UInt32) :
    (r.without is).without js = r.without (is ++ js) := by
  simp only [without, List.filter_filter, List.mem_append, not_or, Bool.decide_and, Bool.and_comm]

theorem without_comm (r : Routes) (is js : List UInt32) :
    (r.without is).without js = (r.without js).without is := by
  simp only [without, List.filter_filter, Bool.and_comm]

end Routes

theorem deactivateAs_eq (asmList : List AsmCb) (i : UInt32) :
    (Asm.deactivateAs asmList i).2 = asmList.eraseP (·.index = i) := by
  unfold Asm.deactivateAs Asm.getByIndex
  split
  · rfl
  · rename_i h
    rw [List.find?_eq_none] at h
    exact (List.eraseP_of_forall_not h).symm

/-- The reset of a station that is not to run again. -/
theorem xidInputReset_stopped (b : Cs.Buffers) (ls : Ls) (h : ls.running = false) :
    (Cs.xidInputReset b ls).running = false ∧
    (Cs.xidInputReset b ls).asmList = ls.asmList.eraseP (·.index = ls.pcIndex) ∧
    (Cs.xidInputReset b ls).pcList = ls.pcList.eraseP (·.index = ls.pcIndex) := by
  obtain ⟨s, i, t, hreset⟩ := Cs.xidInputReset_eq b ls
  rw [hreset, h, if_neg Bool.false_ne_true]
  exact ⟨h, deactivateAs_eq _ _, rfl⟩

/-- A station that is stopped takes its own down, and has no more to take down then. -/
theorem stopLsGen_spec (hr : r.Distinct) (ls : Ls) :
    (stopLsGen r ls).1 = r.without (takenDown ls).toList ∧ takenDown (stopLsGen r ls).2 = none := by
  unfold stopLsGen takenDown
  by_cases hrun : ls.running = true
  · by_cases ha : ls.xidState = .active
    · simp [hrun, ha]
    · obtain ⟨h₁, h₂, h₃⟩ := xidInputReset_stopped {} { ls with
        running := false, xidInput := some .reset, asmList := r.asmList, pcList := r.pcList } rfl
      simp only [hrun, Bool.not_true, Bool.false_eq_true, ↓reduceIte, ha, ne_eq, not_false_eq_true,
        decide_true, Bool.and_true, Option.toList_some]
      constructor
      · show Routes.mk (Cs.xidInputReset {} _).asmList (Cs.xidInputReset {} _).pcList = _
        rw [h₂, h₃, Framework.eraseP_key_eq_filter hr.asm, Framework.eraseP_key_eq_filter hr.pc]
        simp only [Routes.without, List.mem_singleton, ne_eq]
      · show (if (Cs.xidInputReset {} _).running && _ then _ else none) = none
        rw [h₁]
        rfl
  · simp [hrun]

theorem stopLsAll_spec (hr : r.Distinct) (lsList : List Ls) :
    (stopLsAll r lsList).1 = r.without (lsList.filterMap takenDown) ∧
      (stopLsAll r lsList).2.filterMap takenDown = [] := by
  induction lsList generalizing r with
  | nil => exact ⟨(r.without_nil).symm, rfl⟩
  | cons ls lsList ih =>
    obtain ⟨h₁, h₂⟩ := stopLsGen_spec hr ls
    obtain ⟨h₃, h₄⟩ := ih (h₁ ▸ hr.without _)
    refine ⟨?_, ?_⟩
    · rw [stopLsAll, h₃, h₁, Routes.without_without]
      cases h : takenDown ls <;> simp [h]
    · rw [stopLsAll, List.filterMap_cons_none h₂]
      exact h₄

theorem deleteLsAll_spec (hr : r.Distinct) (lsList : List Ls) :
    deleteLsAll r lsList = r.without (lsList.filterMap takenDown) := by
  induction lsList generalizing r with
  | nil => exact (r.without_nil).symm
  | cons ls lsList ih =>
    have h₁ : deleteLsGen r ls = r.without (takenDown ls).toList := (stopLsGen_spec hr ls).1
    rw [deleteLsAll, List.foldl_cons, h₁]
    apply (ih (hr.without _)).trans
    rw [Routes.without_without]
    cases h : takenDown ls <;> simp [h]

/-- What a port that is stopped takes down, and what is left for its deletion. -/
theorem stopPortGen_spec (hr : r.Distinct) (port : PortCb) :
    (stopPortGen r port).1.without (stopPortGen r port).2.takenDown = r.without port.takenDown ∧
      (stopPortGen r port).2.netid = port.netid ∧ (stopPortGen r port).1.Distinct := by
  unfold stopPortGen
  cases port.running with
  | false => exact ⟨rfl, rfl, hr⟩
  | true =>
    obtain ⟨h₁, h₂⟩ := stopLsAll_spec hr port.lsList
    refine ⟨?_, rfl, ?_⟩
    · simp only [Bool.not_true, Bool.false_eq_true, ↓reduceIte, PortCb.takenDown, h₁, h₂,
        Routes.without_nil]
    · simp only [Bool.not_true, Bool.false_eq_true, ↓reduceIte, h₁]
      exact hr.without _

theorem deletePortGen_spec (hr : r.Distinct) (port : PortCb) :
    deletePortGen r port = r.without port.takenDown := by
  obtain ⟨h₁, -, h₂⟩ := stopPortGen_spec hr port
  rw [deletePortGen, deleteLsAll_spec h₂, ← h₁]
  rfl

/-- What the ports of a node take down. -/
def allTakenDown (n : Netid) (portList : List PortCb) : List UInt32 :=
  (portList.filter fun port => decide (port.netid = n)).flatMap PortCb.takenDown

theorem deletePorts_spec (hr : r.Distinct) (portList : List PortCb) :
    deletePorts n r portList = (r.without (allTakenDown n portList),
      portList.filter fun port => !decide (port.netid = n)) := by
  induction portList generalizing r with
  | nil => simp [deletePorts, allTakenDown]
  | cons port portList ih =>
    rw [deletePorts]
    by_cases hp : port.netid = n
    · rw [if_pos hp, deletePortGen_spec hr, ih (hr.without _), Routes.without_without]
      simp [allTakenDown, hp]
    · rw [if_neg hp, ih hr]
      simp [allTakenDown, hp]

theorem stopPorts_spec (hr : r.Distinct) (portList : List PortCb) :
    (stopPorts n r portList).1.Distinct ∧
    (stopPorts n r portList).1.without (allTakenDown n (stopPorts n r portList).2) =
      r.without (allTakenDown n portList) ∧
    ((stopPorts n r portList).2.filter fun port => !decide (port.netid = n)) =
      portList.filter fun port => !decide (port.netid = n) := by
  induction portList generalizing r with
  | nil => exact ⟨hr, rfl, rfl⟩
  | cons port portList ih =>
    rw [stopPorts]
    by_cases hp : port.netid = n
    · obtain ⟨h₁, h₂, h₃⟩ := stopPortGen_spec hr port
      obtain ⟨h₄, h₅, h₆⟩ := ih h₃
      simp only [if_pos hp]
      refine ⟨h₄, ?_, ?_⟩
      · have hall : ∀ (q : PortCb) (l : List PortCb), q.netid = n →
            allTakenDown n (q :: l) = q.takenDown ++ allTakenDown n l := fun q l hq => by
          simp [allTakenDown, hq]
        rw [hall _ _ (h₂.trans hp), hall _ _ hp, ← Routes.without_without, ← Routes.without_without,
          Routes.without_comm, h₅, Routes.without_comm, h₁]
      · rw [List.filter_cons_of_neg (by simp [h₂, hp]), List.filter_cons_of_neg (by simp [hp]), h₆]
    · obtain ⟨h₄, h₅, h₆⟩ := ih hr
      simp only [if_neg hp]
      refine ⟨h₄, ?_, ?_⟩
      · have hall : ∀ l : List PortCb, allTakenDown n (port :: l) = allTakenDown n l := fun l => by
          simp [allTakenDown, hp]
        rw [hall, hall, h₅]
      · rw [List.filter_cons_of_pos (by simp [hp]), List.filter_cons_of_pos (by simp [hp]), h₆]

/-! ## What a deletion leaves -/

def Lists.routes (l : Lists) : Routes := ⟨l.asmList, l.pcList⟩

/-- What the ports that are deleted with the node take down. -/
def goesDown (l : Lists) (n : Netid) : List UInt32 :=
  (l.portList.filter (deletes l n)).flatMap PortCb.takenDown

/-- The lists without what is deleted with the node. -/
def deleted (l : Lists) (n : Netid) : Lists where
  nofList := l.nofList.eraseP (sameNetid ·.netid n)
  csList := l.csList.eraseP (sameName ·.netid n)
  csSystemIndex := l.csSystemIndex
  dsClients := l.dsClients.eraseP (sameName · n)
  ssClients := l.ssClients.eraseP (sameName · n)
  portList := l.portList.filter fun port => !deletes l n port
  asmList := (l.routes.without (goesDown l n)).asmList
  pcList := (l.routes.without (goesDown l n)).pcList
  localLuList := []
  remoteLuList := []
  modeList := []
  nodeList := []

theorem deletes_eq_false (h : csGetByName l n = none) (port : PortCb) : deletes l n port = false := by
  simp [deletes, h]

theorem deletes_of_found (h : (csGetByName l n).isSome) (port : PortCb) :
    deletes l n port = decide (port.netid = n) := by
  simp [deletes, h]

theorem goesDown_of_found (h : (csGetByName l n).isSome) :
    goesDown l n = allTakenDown n l.portList := by
  rw [goesDown, allTakenDown, List.filter_congr fun port _ => deletes_of_found h port]

/-- What is left depends on what the stopping of the ports leaves. -/
theorem deleted_congr {l' : Lists} (hf : (csGetByName l n).isSome) (hf' : (csGetByName l' n).isSome)
    (hnof : l'.nofList.eraseP (sameNetid ·.netid n) = l.nofList.eraseP (sameNetid ·.netid n))
    (hcs : l'.csList.eraseP (sameName ·.netid n) = l.csList.eraseP (sameName ·.netid n))
    (hi : l'.csSystemIndex = l.csSystemIndex) (hds : l'.dsClients = l.dsClients)
    (hss : l'.ssClients = l.ssClients)
    (hports : (l'.portList.filter fun port => !decide (port.netid = n)) =
      l.portList.filter fun port => !decide (port.netid = n))
    (hroutes : l'.routes.without (allTakenDown n l'.portList) =
      l.routes.without (allTakenDown n l.portList)) : deleted l' n = deleted l n := by
  unfold deleted
  rw [goesDown_of_found hf, goesDown_of_found hf', hroutes, hnof, hcs, hi, hds, hss,
    List.filter_congr fun port _ => by rw [deletes_of_found hf'],
    List.filter_congr (l := l.portList) fun port _ => by rw [deletes_of_found hf], hports]

/-- A control point keeps its name when it is stopped. -/
theorem sameName_stopped (cs : CsCb) :
    sameName { cs with running := false }.netid n = sameName cs.netid n := rfl

theorem csGetByName_csStop : (csGetByName (csStop l n) n).isSome = (csGetByName l n).isSome := by
  unfold csStop
  cases hcs : csGetByName l n with
  | none => simp [hcs]
  | some cs =>
    cases hrun : cs.running with
    | false => simp [hrun, hcs]
    | true =>
      simp only [hrun, Bool.not_true, Bool.false_eq_true, ↓reduceIte]
      show ((Framework.modifyFirst _ _ l.csList).find? _).isSome = _
      rw [Framework.find?_modifyFirst sameName_stopped, Option.isSome_map]
      exact Option.isSome_of_eq_some hcs

/-- Stopping the control point of a node changes nothing that its deletion leaves. -/
theorem deleted_csStop (hd : l.routes.Distinct) :
    deleted (csStop l n) n = deleted l n ∧ (csStop l n).routes.Distinct := by
  have hfound := @csGetByName_csStop l n
  unfold csStop at hfound ⊢
  cases hcs : csGetByName l n with
  | none => exact ⟨rfl, hd⟩
  | some cs =>
    cases hrun : cs.running with
    | false =>
      simp only [hrun]
      exact ⟨rfl, hd⟩
    | true =>
      obtain ⟨h₁, h₂, h₃⟩ := stopPorts_spec (n := n) hd l.portList
      simp only [hcs, hrun, Bool.not_true, Bool.false_eq_true, ↓reduceIte] at hfound ⊢
      exact ⟨deleted_congr (Option.isSome_of_eq_some hcs) hfound rfl
        (Framework.eraseP_modifyFirst sameName_stopped) rfl rfl rfl h₃ h₂, h₁⟩

/-- And so does stopping the node. -/
theorem deleted_nodeStop (hd : l.routes.Distinct) :
    deleted (nodeStop l n).2 n = deleted l n ∧ (nodeStop l n).2.routes.Distinct := by
  unfold nodeStop
  cases hnof : nofGetByNetid l n with
  | none => exact ⟨rfl, hd⟩
  | some nof =>
    cases hrun : nof.running with
    | false =>
      simp only [hrun]
      exact ⟨rfl, hd⟩
    | true =>
      simp only [hrun, Bool.not_true, Bool.false_eq_true, ↓reduceIte]
      obtain ⟨h₁, h₂⟩ := deleted_csStop (n := n) (l := { l with
        nofList := Framework.modifyFirst (sameNetid ·.netid n) ({ · with running := false }) l.nofList }) hd
      refine ⟨h₁.trans ?_, h₂⟩
      have hname : ∀ c : NofCb, sameNetid { c with running := false }.netid n = sameNetid c.netid n :=
        fun _ => rfl
      unfold deleted
      rw [Framework.eraseP_modifyFirst hname]
      rfl

theorem csStop_eta : csStop l n = { l with
    csList := (csStop l n).csList
    portList := (csStop l n).portList
    asmList := (csStop l n).asmList
    pcList := (csStop l n).pcList } := by
  unfold csStop
  split
  · rfl
  · split
    · rfl
    · rfl

theorem csDestroy_spec (hd : l.routes.Distinct) : csDestroy l n = { l with
    csList := (deleted l n).csList
    portList := (deleted l n).portList
    asmList := (deleted l n).asmList
    pcList := (deleted l n).pcList } := by
  unfold csDestroy
  cases hcs : csGetByName l n with
  | none =>
    have hno := List.find?_eq_none.mp hcs
    have hdown : goesDown l n = [] := by simp [goesDown, deletes_eq_false hcs]
    simp only [deleted, hdown, Routes.without_nil, deletes_eq_false hcs, Bool.not_false,
      List.filter_true, List.eraseP_of_forall_not hno]
    rfl
  | some cs =>
    obtain ⟨hdel, hd'⟩ := @deleted_csStop l n hd
    have hf : (csGetByName (csStop l n) n).isSome := by
      rw [csGetByName_csStop, hcs]
      rfl
    have hports := deletePorts_spec (n := n) hd' (csStop l n).portList
    rw [← goesDown_of_found hf, List.filter_congr fun port _ => by rw [← deletes_of_found hf]] at hports
    rw [← hdel]
    show { (csStop l n).setPorts (deletePorts n (csStop l n).routes (csStop l n).portList) with
      csList := (csStop l n).csList.eraseP (sameName ·.netid n) } = _
    rw [hports]
    conv_lhs => rw [csStop_eta]
    rfl

/-- A row that is freed is read afterwards. -/
theorem freeAll_some {α : Type*} (fuel p : Nat) (h : Framework.Heap (Framework.Link α)) :
    Framework.freeAll fuel (some p) h = none := by
  cases fuel with
  | zero => rfl
  | succ fuel =>
    rw [Framework.freeAll]
    by_cases hp : p ≤ h.cells.length
    · rw [Framework.Heap.get_put_self hp]
      rfl
    · have hcells : (h.put p none).cells.length ≤ p := by
        rw [Framework.Heap.put, if_neg (by omega), List.length_append, List.length_singleton]
        omega
      rw [Framework.Heap.get_eq_none_of_le hcells]
      rfl

/-- The classes are all freed exactly if none of them has a row. -/
theorem cosmDestroy_eq_some {t' : Cosm.Table} : cosmDestroy t = some t' ↔
    (∀ c ∈ t.cosmList, c.tg = none ∧ c.node = none) ∧ t' = { t with cosmList := [] } := by
  obtain ⟨cosmList, tgs, nodes⟩ := t
  simp only [cosmDestroy]
  induction cosmList with
  | nil => simp [eq_comm]
  | cons c cosmList ih =>
    rw [List.foldlM_cons, List.forall_mem_cons, and_assoc, ← ih]
    obtain ⟨attributes, name, tg, node⟩ := c
    cases tg with
    | some p => simp [freeAll_some]
    | none =>
      cases node with
      | some p => simp [Framework.freeAll, freeAll_some]
      | none => simp [Framework.freeAll]

theorem destroy_eq (hd : l.routes.Distinct) :
    destroy l t n = (cosmDestroy t).map fun t' => (deleted l n, t') := by
  have h := @csDestroy_spec (tdmDestroy (smDestroy l)) n hd
  rw [destroy, trsDestroy, Option.map_map]
  refine congrArg (fun f => (cosmDestroy t).map f) (funext fun t' => ?_)
  simp only [Function.comp_apply, dsDestroy, ssDestroy, h]
  rfl

/-- What `sna_nof_node_delete` leaves of the lists. -/
theorem nodeDelete_eq (hn : (nofGetByNetid l n).isSome) (hd : l.routes.Distinct) :
    nodeDelete l t n = (cosmDestroy t).map fun t' => (0, deleted l n, t') := by
  obtain ⟨nof, hnof⟩ := Option.isSome_iff_exists.mp hn
  obtain ⟨h₁, h₂⟩ := @deleted_nodeStop l n hd
  have hstop : (nodeStop l n).1 = 0 := by
    simp only [nodeStop, hnof]
    split <;> rfl
  unfold nodeDelete
  cases hrun : nof.running with
  | false =>
    simp only [hnof, hrun, Bool.false_eq_true, ↓reduceIte, Int.lt_irrefl, destroy_eq hd, Option.map_map]
    rfl
  | true =>
    simp only [hnof, hrun, ↓reduceIte, hstop, Int.lt_irrefl, destroy_eq h₂, h₁, Option.map_map]
    rfl

/-! ## Alone -/

theorem mem_goesDown (l : Lists) (n : Netid) (i : UInt32) : decide (i ∈ goesDown l n) =
    l.portList.any fun port => deletes l n port && decide (i ∈ port.takenDown) := by
  rw [Bool.eq_iff_iff]
  simp only [goesDown, decide_eq_true_eq, List.mem_flatMap, List.mem_filter, List.any_eq_true,
    Bool.and_eq_true, and_assoc]

/-- A route to another node is not found if every topology entry is the node's. -/
theorem tdmRequestTgVectors_of_nodes (h : ∀ node ∈ l.nodeList, sameNetid node.netid n = true)
    (hm : sameNetid m n = false) : tdmRequestTgVectors l m = none := by
  have hnone : tdmNodeGetByNetid l m = none := by
    refine List.find?_eq_none.mpr fun node hnode hsame => ?_
    have hsame := sameNetid_of (n := n) hsame
    rw [h node hnode, hm] at hsame
    exact absurd hsame nofun
  rw [tdmRequestTgVectors, hnone]
  rfl

/-- `"NET"`, and `"A"` or `"B"` -/
def netA : Netid := ⟨[0x4E, 0x45, 0x54, 0, 0, 0, 0, 0, 0], [0x41, 0, 0, 0, 0, 0, 0, 0, 0]⟩

@[inherit_doc netA]
def netB : Netid := ⟨[0x4E, 0x45, 0x54, 0, 0, 0, 0, 0, 0], [0x42, 0, 0, 0, 0, 0, 0, 0, 0]⟩

/-- Before any node is defined. -/
def noNodes : Lists :=
  { nofList := [], csList := [], csSystemIndex := 0, dsClients := [], ssClients := [], portList := []
    asmList := [], pcList := [], localLuList := [], remoteLuList := [], modeList := [], nodeList := [] }

/-- The lists after nodes have been defined, with memory for everything. -/
def define (l : Lists) (n : Netid) : Lists :=
  ((nodeDefine l n ⟨true, true, true, true, true⟩).map (·.2)).getD l

end LinuxSna.Nof
