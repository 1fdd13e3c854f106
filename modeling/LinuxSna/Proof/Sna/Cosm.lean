import LinuxSna.Framework.Run
import LinuxSna.Spec.NodeOperator

/-!
# The class-of-service table is a map

A definition does to the table what it should do to the map, up to where memory runs out; a deletion reads
a row that it has freed.

* `defineCos_spec`: what a definition makes of the map;
* `deleteCos_spec`: a class can be deleted if it has no rows;
* `law_iff`: which calls do what they should;
* `classes_along_iff`: and which sequences of calls.
-/

namespace LinuxSna.Cosm

open Framework (Along Heap Link Owns padded find put rowAt)
open Stations (string resourceNameLen)
open Nof (enoent enomem)

variable {t : Table} {c d : CosmCb} {m : Memory} {cos : NofCos} {cs : Classes} {k name : List UInt8}

/-! ## Names -/

theorem cosmFind_eq (t : Table) (name : List UInt8) :
    cosmFind t name = find CosmCb.key (padded resourceNameLen name) t.cosmList := by
  have hp : (fun c : CosmCb => decide (Framework.strncmp resourceNameLen c.name name = 0)) =
      fun c => decide (c.key = padded resourceNameLen name) := by
    funext c
    exact decide_eq_decide.mpr (Framework.strncmp_eq_zero_iff ..)
  rw [cosmFind, hp]
  rfl

theorem string_padded (n : Nat) {s : List UInt8} (h : s.length ≤ n) :
    string (padded n s) = string s := by
  have htake : s.take n = s := List.take_of_length_le h
  rw [padded, htake, string, string]
  rw [List.takeWhile_append_of_pos fun a ha => by simpa using List.mem_takeWhile_imp ha]
  cases n - (s.takeWhile (· ≠ 0)).length with
  | zero => exact List.append_nil _
  | succ i => exact List.append_nil _

/-- In an array, strings are equal as they are filled up. -/
theorem string_eq_iff {s s' : List UInt8} (h : s.length ≤ resourceNameLen)
    (h' : s'.length ≤ resourceNameLen) :
    string s = string s' ↔ padded resourceNameLen s = padded resourceNameLen s' := by
  constructor
  · intro heq
    have htake : s.take resourceNameLen = s := List.take_of_length_le h
    have htake' : s'.take resourceNameLen = s' := List.take_of_length_le h'
    have hs : s.takeWhile (· ≠ 0) = s'.takeWhile (· ≠ 0) := heq
    rw [padded, padded, htake, htake', hs]
  · intro heq
    rw [← string_padded _ h, heq, string_padded _ h']

/-! ## The invariant -/

/-- Names differ and end in their arrays, and each entry has its own rows, with different RSNs. -/
structure Table.Wf (t : Table) : Prop where
  names : (t.cosmList.map CosmCb.key).Nodup
  ends : ∀ c ∈ t.cosmList, c.name.length = resourceNameLen
  tgs : ∃ owner : Nat → List UInt8, ∀ c ∈ t.cosmList, Owns t.tgs TgCb.rsn owner c.key c.tg
  nodes : ∃ owner : Nat → List UInt8, ∀ c ∈ t.cosmList, Owns t.nodes NodeCb.rsn owner c.key c.node

theorem wf_empty : Table.empty.Wf where
  names := List.nodup_nil
  ends _ hc := absurd hc List.not_mem_nil
  tgs := ⟨fun _ => [], fun _ hc => absurd hc List.not_mem_nil⟩
  nodes := ⟨fun _ => [], fun _ hc => absurd hc List.not_mem_nil⟩

theorem Table.classes_of_mem (h : t.Wf) (hc : c ∈ t.cosmList) : t.classes c.key = some (t.classOf c) := by
  rw [Table.classes, Framework.find_of_mem h.names hc]
  rfl

/-- An entry is stored, with memory in which the other entries have their rows. -/
theorem Table.Wf.store (h : t.Wf) (c : CosmCb) (hc : c.name.length = resourceNameLen) {tgs : Heap (Link TgCb)}
    {nodes : Heap (Link NodeCb)} {owner owner' : Nat → List UInt8}
    (htg : Owns tgs TgCb.rsn owner c.key c.tg) (hnode : Owns nodes NodeCb.rsn owner' c.key c.node)
    (htgs : ∀ d ∈ t.cosmList, d.key ≠ c.key → Owns tgs TgCb.rsn owner d.key d.tg)
    (hnodes : ∀ d ∈ t.cosmList, d.key ≠ c.key → Owns nodes NodeCb.rsn owner' d.key d.node) :
    (Table.store ⟨t.cosmList, tgs, nodes⟩ c).Wf := by
  have hmem : ∀ d ∈ put CosmCb.key c t.cosmList, d = c ∨ d ∈ t.cosmList ∧ d.key ≠ c.key := by
    intro d hd
    by_cases hkey : c.key = d.key
    · exact .inl (Framework.eq_of_mem_put h.names hd hkey)
    · exact .inr ⟨(Framework.mem_of_mem_put hd).resolve_left fun he => hkey (by rw [he]), Ne.symm hkey⟩
  refine ⟨Framework.nodup_put h.names, fun d hd => ?_, ⟨owner, fun d hd => ?_⟩, ⟨owner', fun d hd => ?_⟩⟩
  · rcases hmem d hd with rfl | ⟨hd, -⟩
    · exact hc
    · exact h.ends d hd
  · rcases hmem d hd with rfl | ⟨hd, hne⟩
    · exact htg
    · exact htgs d hd hne
  · rcases hmem d hd with rfl | ⟨hd, hne⟩
    · exact hnode
    · exact hnodes d hd hne

/-- And the map has it. -/
theorem Table.classes_store (c : CosmCb) {tgs : Heap (Link TgCb)} {nodes : Heap (Link NodeCb)}
    (hsame : ∀ d ∈ t.cosmList, d.key ≠ c.key →
      Table.classOf ⟨t.cosmList, tgs, nodes⟩ d = t.classOf d) :
    (Table.store ⟨t.cosmList, tgs, nodes⟩ c).classes =
      Function.update t.classes c.key (some (Table.classOf ⟨t.cosmList, tgs, nodes⟩ c)) := by
  funext k
  rw [Function.update_apply, Table.classes, Table.store, Framework.find_put]
  by_cases hk : c.key = k
  · rw [if_pos hk, if_pos hk.symm]
    rfl
  · rw [if_neg hk, if_neg (Ne.symm hk), Table.classes]
    cases hd : find CosmCb.key k t.cosmList with
    | none => rfl
    | some d =>
      have hkey : d.key = k := Framework.key_of_find hd
      exact congrArg some (hsame d (Framework.mem_of_find hd) fun he => hk (he.symm.trans hkey))

theorem Table.mem_store (t : Table) (c : CosmCb) : c ∈ (t.store c).cosmList := by
  have hfind : find CosmCb.key c.key (put CosmCb.key c t.cosmList) = some c := by
    rw [Framework.find_put, if_pos rfl]
  exact Framework.mem_of_find hfind

/-! ## The parts of a definition -/

/-- The entry that is found or added gets its attributes. -/
theorem store_attributes (h : t.Wf) (he : entryFor m t cos.name = some c) :
    c.key = cos.key ∧ (t.store { c with toAttributes := cos.toAttributes }).Wf ∧
      (t.store { c with toAttributes := cos.toAttributes }).classes = t.classes.withAttributes cos := by
  obtain ⟨owner, howner⟩ := h.tgs
  obtain ⟨owner', howner'⟩ := h.nodes
  have hsame := Table.classes_store (t := t) { c with toAttributes := cos.toAttributes }
    fun d _ _ => (rfl : t.classOf d = t.classOf d)
  rw [entryFor, cosmFind_eq] at he
  cases hfind : find CosmCb.key cos.key t.cosmList with
  | some c' =>
    have hpad : find CosmCb.key (padded resourceNameLen cos.name) t.cosmList = some c' := hfind
    rw [hpad] at he
    obtain rfl := Option.some.inj he
    have hmem := Framework.mem_of_find hfind
    have hkey : c'.key = cos.key := Framework.key_of_find hfind
    have hcls := Table.classes_of_mem h hmem
    rw [hkey] at hcls
    refine ⟨hkey, h.store { c' with toAttributes := cos.toAttributes } (h.ends c' hmem)
      (howner c' hmem) (howner' c' hmem) (fun d hd _ => howner d hd) (fun d hd _ => howner' d hd),
      hsame.trans ?_⟩
    rw [Classes.withAttributes, Classes.modify, hcls, ← hkey]
    rfl
  | none =>
    have hpad : find CosmCb.key (padded resourceNameLen cos.name) t.cosmList = none := hfind
    rw [hpad] at he
    dsimp only at he
    split at he
    · obtain rfl := Option.some.inj he
      have hkey : padded resourceNameLen (padded resourceNameLen cos.name) = cos.key :=
        Framework.padded_padded ..
      have hcls : t.classes cos.key = none := by
        rw [Table.classes, hfind]
        rfl
      refine ⟨hkey, h.store { toAttributes := cos.toAttributes, name := padded _ cos.name }
        (Framework.length_padded ..) Framework.owns_none Framework.owns_none
        (fun d hd _ => howner d hd) (fun d hd _ => howner' d hd), hsame.trans ?_⟩
      rw [Classes.withAttributes, Classes.modify, hcls]
      show Function.update t.classes (padded resourceNameLen (padded resourceNameLen cos.name)) _ = _
      rw [hkey]
      congr 2
      simp [Table.classOf, Class.empty]
    · cases he

/-- Its row of a transmission group is stored. -/
theorem store_tg (h : t.Wf) (hc : c ∈ t.cosmList) (hk : c.key = cos.key) (m : Memory) :
    if m.tg = false ∧ t.classes.tg cos.key cos.tgRsn = none then
      (cosmFindTgWeight t c cos.tgRsn).bind (Framework.storeRow t.tgs m.tg m.tgHint c.tg cos.tg) = some none
    else ∃ tgs tg,
      (cosmFindTgWeight t c cos.tgRsn).bind (Framework.storeRow t.tgs m.tg m.tgHint c.tg cos.tg) =
        some (some (tgs, tg)) ∧
      (Table.store ⟨t.cosmList, tgs, t.nodes⟩ { c with tg := tg }).Wf ∧
      (Table.store ⟨t.cosmList, tgs, t.nodes⟩ { c with tg := tg }).classes = t.classes.withTg cos := by
  obtain ⟨owner, howner⟩ := h.tgs
  obtain ⟨owner', howner'⟩ := h.nodes
  have hcls := Table.classes_of_mem h hc
  rw [hk] at hcls
  have hrow : t.classes.tg cos.key cos.tgRsn = rowAt t.tgs TgCb.rsn cos.tg.rsn c.tg := by
    rw [Classes.tg, hcls]
    rfl
  have hput := (howner c hc).putRow m.tg m.tgHint cos.tg
  rw [hrow]
  split
  · rename_i hout
    rw [if_pos hout] at hput
    exact hput
  · rename_i hin
    rw [if_neg hin] at hput
    obtain ⟨tgs, tg, owner₂, hput, hst⟩ := hput
    refine ⟨tgs, tg, hput, h.store { c with tg := tg } (h.ends c hc) hst.owns (howner' c hc)
      (fun d hd hne => (hst.others hne (howner d hd)).1) (fun d hd _ => howner' d hd), ?_⟩
    have hclass : Table.classOf ⟨t.cosmList, tgs, t.nodes⟩ { c with tg := tg } =
        { t.classOf c with tg := Function.update (t.classOf c).tg cos.tgRsn (some cos.tg) } :=
      congrArg (fun tg => { t.classOf c with tg := tg }) hst.rowAt_eq
    rw [Table.classes_store { c with tg := tg } fun d hd hne => ?_]
    · rw [hclass, Classes.withTg, Classes.modify, hcls, ← hk]
      rfl
    · exact congrArg (fun tg => { t.classOf d with tg := tg }) (hst.rowAt_other hne (howner d hd))

/-- Its row of a node is stored. -/
theorem store_node (h : t.Wf) (hc : c ∈ t.cosmList) (hk : c.key = cos.key) (m : Memory) :
    if m.node = false ∧ t.classes.node cos.key cos.nodeRsn = none then
      (cosmFindNodeWeight t c cos.nodeRsn).bind
        (Framework.storeRow t.nodes m.node m.nodeHint c.node cos.node) = some none
    else ∃ nodes node,
      (cosmFindNodeWeight t c cos.nodeRsn).bind
        (Framework.storeRow t.nodes m.node m.nodeHint c.node cos.node) = some (some (nodes, node)) ∧
      (Table.store ⟨t.cosmList, t.tgs, nodes⟩ { c with node := node }).Wf ∧
      (Table.store ⟨t.cosmList, t.tgs, nodes⟩ { c with node := node }).classes =
        t.classes.withNode cos := by
  obtain ⟨owner, howner⟩ := h.tgs
  obtain ⟨owner', howner'⟩ := h.nodes
  have hcls := Table.classes_of_mem h hc
  rw [hk] at hcls
  have hrow : t.classes.node cos.key cos.nodeRsn = rowAt t.nodes NodeCb.rsn cos.node.rsn c.node := by
    rw [Classes.node, hcls]
    rfl
  have hput := (howner' c hc).putRow m.node m.nodeHint cos.node
  rw [hrow]
  split
  · rename_i hout
    rw [if_pos hout] at hput
    exact hput
  · rename_i hin
    rw [if_neg hin] at hput
    obtain ⟨nodes, node, owner₂, hput, hst⟩ := hput
    refine ⟨nodes, node, hput, h.store { c with node := node } (h.ends c hc) (howner c hc) hst.owns
      (fun d hd _ => howner d hd) (fun d hd hne => (hst.others hne (howner' d hd)).1), ?_⟩
    have hclass : Table.classOf ⟨t.cosmList, t.tgs, nodes⟩ { c with node := node } =
        { t.classOf c with node := Function.update (t.classOf c).node cos.nodeRsn (some cos.node) } :=
      congrArg (fun node => { t.classOf c with node := node }) hst.rowAt_eq
    rw [Table.classes_store { c with node := node } fun d hd hne => ?_]
    · rw [hclass, Classes.withNode, Classes.modify, hcls, ← hk]
      rfl
    · exact congrArg (fun node => { t.classOf d with node := node }) (hst.rowAt_other hne (howner' d hd))

/-! ## Definitions -/

namespace Classes

theorem modify_modify (cs : Classes) (k : List UInt8) (f g : Class → Class) :
    (cs.modify k f).modify k g = cs.modify k (g ∘ f) := by
  rw [modify, modify, modify, Function.update_idem, Function.update_self]
  rfl

theorem modify_eq_self_iff (cs : Classes) (k : List UInt8) (f : Class → Class) :
    cs.modify k f = cs ↔ ∃ c, cs k = some c ∧ f c = c := by
  rw [modify, Function.update_eq_self_iff]
  cases cs k with
  | none => simp
  | some c => simp

theorem define_eq (cs : Classes) (cos : NofCos) :
    ((cs.withAttributes cos).withTg cos).withNode cos = cs.define cos := by
  rw [withNode, withTg, withAttributes, modify_modify, modify_modify]
  rfl

/-- The attributes are not looked for in the rows. -/
theorem tg_withAttributes (cs : Classes) (cos : NofCos) (rsn : UInt16) :
    (cs.withAttributes cos).tg cos.key rsn = cs.tg cos.key rsn := by
  rw [withAttributes, modify, tg, Function.update_self, tg]
  cases cs cos.key <;> rfl

theorem node_withTg (cs : Classes) (cos : NofCos) (rsn : UInt16) :
    ((cs.withAttributes cos).withTg cos).node cos.key rsn = cs.node cos.key rsn := by
  rw [withTg, withAttributes, modify_modify, modify, node, Function.update_self, node]
  cases cs cos.key <;> rfl

end Classes

/-- What a definition makes of the map: what it has done when memory runs out stays. -/
def outcome (m : Memory) (cos : NofCos) (cs : Classes) : Int × Classes :=
  if cs cos.key = none ∧ m.cos = false then (-enomem, cs)
  else if m.tg = false ∧ cs.tg cos.key cos.tgRsn = none then (-enomem, cs.withAttributes cos)
  else if m.node = false ∧ cs.node cos.key cos.nodeRsn = none then
    (-enomem, (cs.withAttributes cos).withTg cos)
  else (0, cs.define cos)

theorem enough_iff : Enough m cs cos ↔ ¬(cs cos.key = none ∧ m.cos = false) ∧
    ¬(m.tg = false ∧ cs.tg cos.key cos.tgRsn = none) ∧
      ¬(m.node = false ∧ cs.node cos.key cos.nodeRsn = none) := by
  have hmem : ∀ (p : Prop) (b : Bool), (p → b = true) ↔ ¬(p ∧ b = false) := fun p b => by
    cases b <;> simp
  rw [Enough, hmem, hmem, hmem, and_comm (a := m.tg = false), and_comm (a := m.node = false)]

theorem outcome_of_enough (h : Enough m cs cos) : outcome m cos cs = (0, cs.define cos) := by
  obtain ⟨hentry, htg, hnode⟩ := enough_iff.mp h
  rw [outcome, if_neg hentry, if_neg htg, if_neg hnode]

theorem enough_of_outcome (h : (outcome m cos cs).1 = 0) : Enough m cs cos := by
  rw [outcome] at h
  split_ifs at h with hentry htg hnode
  · cases h
  · cases h
  · cases h
  · exact enough_iff.mpr ⟨hentry, htg, hnode⟩

theorem entryFor_eq_none : entryFor m t cos.name = none ↔ t.classes cos.key = none ∧ m.cos = false := by
  have hcls : t.classes cos.key = none ↔ find CosmCb.key cos.key t.cosmList = none :=
    Option.map_eq_none_iff
  have hfind : cosmFind t cos.name = find CosmCb.key cos.key t.cosmList := cosmFind_eq t cos.name
  rw [hcls, entryFor, hfind]
  cases find CosmCb.key cos.key t.cosmList <;> cases m.cos <;> simp

theorem appendNode_spec (h : t.Wf) (hc : c ∈ t.cosmList) (hk : c.key = cos.key) (m : Memory) :
    ∃ r t', appendNode m cos c t = some (r, t') ∧ t'.Wf ∧ (r, t'.classes) =
      if m.node = false ∧ t.classes.node cos.key cos.nodeRsn = none then (-enomem, t.classes)
      else (0, t.classes.withNode cos) := by
  have hnode := store_node h hc hk m
  rw [appendNode]
  by_cases hout : m.node = false ∧ t.classes.node cos.key cos.nodeRsn = none
  · rw [if_pos hout] at hnode ⊢
    rw [hnode]
    exact ⟨_, _, rfl, h, rfl⟩
  · rw [if_neg hout] at hnode ⊢
    obtain ⟨nodes, node, hput, hwf, hcls⟩ := hnode
    rw [hput]
    exact ⟨_, _, rfl, hwf, congrArg _ hcls⟩

theorem appendTg_spec (h : t.Wf) (hc : c ∈ t.cosmList) (hk : c.key = cos.key) (m : Memory) :
    ∃ r t', appendTg m cos c t = some (r, t') ∧ t'.Wf ∧ (r, t'.classes) =
      if m.tg = false ∧ t.classes.tg cos.key cos.tgRsn = none then (-enomem, t.classes)
      else if m.node = false ∧ (t.classes.withTg cos).node cos.key cos.nodeRsn = none then
        (-enomem, t.classes.withTg cos)
      else (0, (t.classes.withTg cos).withNode cos) := by
  have htg := store_tg h hc hk m
  rw [appendTg]
  by_cases hout : m.tg = false ∧ t.classes.tg cos.key cos.tgRsn = none
  · rw [if_pos hout] at htg ⊢
    rw [htg]
    exact ⟨_, _, rfl, h, rfl⟩
  · rw [if_neg hout] at htg ⊢
    obtain ⟨tgs, tg, hput, hwf, hcls⟩ := htg
    rw [hput, ← hcls]
    exact appendNode_spec hwf (Table.mem_store _ _) hk m

/-- The table becomes what it should as a map. -/
theorem defineCos_spec (h : t.Wf) (m : Memory) (cos : NofCos) : ∃ r t',
    defineCos m cos t = some (r, t') ∧ t'.Wf ∧ (r, t'.classes) = outcome m cos t.classes := by
  rw [outcome, defineCos]
  cases he : entryFor m t cos.name with
  | none =>
    rw [if_pos (entryFor_eq_none.mp he)]
    exact ⟨_, t, rfl, h, rfl⟩
  | some c =>
    have hentry : ¬(t.classes cos.key = none ∧ m.cos = false) := by
      rw [← entryFor_eq_none, he]
      exact Option.some_ne_none c
    obtain ⟨hk, hwf, hcls⟩ := store_attributes h he
    obtain ⟨r, t', hr, hwf', hout⟩ := appendTg_spec hwf (Table.mem_store t _) hk m
    rw [hcls, Classes.tg_withAttributes, Classes.node_withTg, Classes.define_eq] at hout
    rw [if_neg hentry]
    exact ⟨r, t', hr, hwf', hout⟩

/-! ## Deletions -/

/-- Both names end in their arrays, so that `strcmp` finds what `strncmp` does. -/
theorem string_eq (h : t.Wf) (hname : name.length ≤ 8) (hc : c ∈ t.cosmList) :
    decide (string c.name = string name) = decide (c.key = padded resourceNameLen name) :=
  decide_eq_decide.mpr (string_eq_iff (Nat.le_of_eq (h.ends c hc)) (hname.trans (by decide)))

theorem deleteCos_none (h : t.Wf) (hname : name.length ≤ 8)
    (hnone : t.classes (padded resourceNameLen name) = none) :
    deleteCos name t = some (-enoent, t) := by
  have hfind : t.cosmList.find? (fun c => string c.name = string name) = none :=
    (List.find?_congr fun c hc => string_eq h hname hc).trans (Option.map_eq_none_iff.mp hnone)
  rw [deleteCos, hfind]

theorem deleteCos_spec (h : t.Wf) (hname : name.length ≤ 8) {cls : Class}
    (hsome : t.classes (padded resourceNameLen name) = some cls) :
    (cls.Bare → ∃ t', deleteCos name t = some (0, t') ∧ t'.Wf ∧
      t'.classes = t.classes.delete (padded resourceNameLen name)) ∧
    (¬cls.Bare → deleteCos name t = none) := by
  obtain ⟨c, hc, rfl⟩ := Option.map_eq_some_iff.mp hsome
  have hfind : t.cosmList.find? (fun c => string c.name = string name) = some c :=
    (List.find?_congr fun c hc => string_eq h hname hc).trans hc
  have herase : t.cosmList.eraseP (fun c => string c.name = string name) =
      t.cosmList.eraseP (·.key = padded resourceNameLen name) :=
    Framework.eraseP_congr fun c hc => string_eq h hname hc
  have hmem := Framework.mem_of_find hc
  obtain ⟨owner, howner⟩ := h.tgs
  obtain ⟨owner', howner'⟩ := h.nodes
  rw [deleteCos, hfind, herase]
  constructor
  · rintro ⟨htg, hnode⟩
    dsimp only
    rw [(howner c hmem).freeAll_none htg, Option.bind_some, (howner' c hmem).freeAll_none hnode]
    have hsub := List.eraseP_sublist (l := t.cosmList) (p := (·.key = padded resourceNameLen name))
    refine ⟨_, rfl, ⟨(hsub.map _).nodup h.names, fun d hd => h.ends d (hsub.subset hd),
      ⟨owner, fun d hd => howner d (hsub.subset hd)⟩, ⟨owner', fun d hd => howner' d (hsub.subset hd)⟩⟩, ?_⟩
    funext k
    rw [Classes.delete, Function.update_apply]
    split
    · rename_i hk
      rw [hk]
      refine Option.map_eq_none_iff.mpr (Framework.find_eq_none.mpr fun hin => ?_)
      rw [Framework.eraseP_key_eq_filter h.names] at hin
      obtain ⟨d, hd, hkey⟩ := List.mem_map.mp hin
      exact of_decide_eq_true (List.mem_filter.mp hd).2 hkey
    · rename_i hk
      exact congrArg (Option.map _) (Framework.find_eraseP_of_ne hk)
  · intro hbare
    dsimp only
    by_cases htg : ∀ rsn, (t.classOf c).tg rsn = none
    · obtain ⟨rsn, hrsn⟩ := not_forall.mp fun hnode => hbare ⟨htg, hnode⟩
      rw [(howner c hmem).freeAll_none htg, Option.bind_some, (howner' c hmem).freeAll_row hrsn]
      rfl
    · obtain ⟨rsn, hrsn⟩ := not_forall.mp htg
      rw [(howner c hmem).freeAll_row hrsn]
      rfl

/-! ## The law -/

/-- A definition has its memory, or there is none for a new entry, or what is changed before memory runs out
is as it is given; and what is deleted has no rows. -/
def Good (t : Table) : Call → Prop
  | .define m cos _ => Enough m t.classes cos ∨ (t.classes cos.key = none ∧ m.cos = false) ∨
      ∃ c, t.classes cos.key = some c ∧ c.attributes = cos.toAttributes ∧
        (c.tg cos.tgRsn = none ∧ m.tg = false ∨ c.tg cos.tgRsn = some cos.tg)
  | .delete name _ => ∀ c, t.classes (padded resourceNameLen name) = some c → c.Bare

theorem withAttributes_eq_self_iff : cs.withAttributes cos = cs ↔
    ∃ c, cs cos.key = some c ∧ c.attributes = cos.toAttributes := by
  refine (cs.modify_eq_self_iff cos.key _).trans (exists_congr fun c => and_congr_right fun _ => ?_)
  constructor
  · intro h
    rw [← h]
  · intro h
    rw [← h]

theorem withTg_eq_self_iff : (cs.withAttributes cos).withTg cos = cs ↔
    ∃ c, cs cos.key = some c ∧ c.attributes = cos.toAttributes ∧ c.tg cos.tgRsn = some cos.tg := by
  rw [Classes.withTg, Classes.withAttributes, Classes.modify_modify]
  refine (cs.modify_eq_self_iff cos.key _).trans (exists_congr fun c => and_congr_right fun _ => ?_)
  constructor
  · intro h
    rw [← h]
    exact ⟨rfl, Function.update_self ..⟩
  · rintro ⟨ha, htg⟩
    have hupdate : Function.update c.tg cos.tgRsn (some cos.tg) = c.tg :=
      Function.update_eq_self_iff.mpr htg.symm
    rw [Function.comp_apply, hupdate, ← ha]

theorem law_define_iff (h : t.Wf) (m : Memory) (cos : NofCos) (short : cos.name.length ≤ 8) :
    Law t (.define m cos short) ↔ Good t (.define m cos short) := by
  obtain ⟨r, t', hd, -, hout⟩ := defineCos_spec h m cos
  have hlaw : Law t (.define m cos short) ↔
      (Enough m t.classes cos → r = 0 ∧ t'.classes = t.classes.define cos) ∧
        (¬Enough m t.classes cos → r = -enomem ∧ t'.classes = t.classes) := by
    constructor
    · rintro ⟨r₂, t₂, hd₂, h₂⟩
      cases hd.symm.trans hd₂
      exact h₂
    · exact fun h₂ => ⟨r, t', hd, h₂⟩
  rw [hlaw, Good]
  rw [outcome] at hout
  by_cases hentry : t.classes cos.key = none ∧ m.cos = false
  · -- no entry: nothing has been changed
    have hnot : ¬Enough m t.classes cos := fun he => (enough_iff.mp he).1 hentry
    rw [if_pos hentry] at hout
    obtain ⟨rfl, hcls⟩ := Prod.mk.inj hout
    exact iff_of_true ⟨fun he => absurd he hnot, fun _ => ⟨rfl, hcls⟩⟩ (.inr (.inl hentry))
  rw [if_neg hentry] at hout
  by_cases htg : m.tg = false ∧ t.classes.tg cos.key cos.tgRsn = none
  · -- no row of a transmission group: the attributes have been changed
    have hnot : ¬Enough m t.classes cos := fun he => (enough_iff.mp he).2.1 htg
    rw [if_pos htg] at hout
    obtain ⟨rfl, hcls⟩ := Prod.mk.inj hout
    rw [hcls, withAttributes_eq_self_iff]
    constructor
    · rintro ⟨-, hsame⟩
      obtain ⟨-, c, hc, ha⟩ := hsame hnot
      have hrow : c.tg cos.tgRsn = none := by
        rw [← htg.2, Classes.tg, hc]
        rfl
      exact .inr (.inr ⟨c, hc, ha, .inl ⟨hrow, htg.1⟩⟩)
    · rintro (he | hn | ⟨c, hc, ha, -⟩)
      · exact absurd he hnot
      · exact absurd hn hentry
      · exact ⟨fun he => absurd he hnot, fun _ => ⟨rfl, c, hc, ha⟩⟩
  rw [if_neg htg] at hout
  by_cases hnode : m.node = false ∧ t.classes.node cos.key cos.nodeRsn = none
  · -- no row of a node: the row of the transmission group has been changed as well
    have hnot : ¬Enough m t.classes cos := fun he => (enough_iff.mp he).2.2 hnode
    rw [if_pos hnode] at hout
    obtain ⟨rfl, hcls⟩ := Prod.mk.inj hout
    rw [hcls, withTg_eq_self_iff]
    constructor
    · rintro ⟨-, hsame⟩
      obtain ⟨-, c, hc, ha, hrow⟩ := hsame hnot
      exact .inr (.inr ⟨c, hc, ha, .inr hrow⟩)
    · rintro (he | hn | ⟨c, hc, ha, hrow⟩)
      · exact absurd he hnot
      · exact absurd hn hentry
      · have hrow := hrow.resolve_left fun hnone => htg ⟨hnone.2, by
          rw [Classes.tg, hc]
          exact hnone.1⟩
        exact ⟨fun he => absurd he hnot, fun _ => ⟨rfl, c, hc, ha, hrow⟩⟩
  · rw [if_neg hnode] at hout
    obtain ⟨rfl, hcls⟩ := Prod.mk.inj hout
    have henough : Enough m t.classes cos := enough_iff.mpr ⟨hentry, htg, hnode⟩
    exact iff_of_true ⟨fun _ => ⟨rfl, hcls⟩, fun hnot => absurd henough hnot⟩ (.inl henough)

theorem law_delete_iff (h : t.Wf) (name : List UInt8) (short : name.length ≤ 8) :
    Law t (.delete name short) ↔ Good t (.delete name short) := by
  cases hcls : t.classes (padded resourceNameLen name) with
  | none =>
    have hdelete : t.classes = t.classes.delete (padded resourceNameLen name) :=
      (Function.update_eq_self_iff.mpr hcls.symm).symm
    refine iff_of_true ⟨-enoent, t, deleteCos_none h short hcls, hdelete, ?_⟩ fun c hc => ?_
    · rw [hcls]
      rfl
    · cases hcls.symm.trans hc
  | some cls =>
    obtain ⟨hbare, hrows⟩ := deleteCos_spec h short hcls
    constructor
    · rintro ⟨r, t', hd, -⟩ c hc
      cases hcls.symm.trans hc
      by_contra hnot
      cases (hrows hnot).symm.trans hd
    · intro hgood
      obtain ⟨t', hd, -, hcls'⟩ := hbare (hgood cls hcls)
      refine ⟨0, t', hd, hcls', ?_⟩
      rw [hcls]
      rfl

theorem law_iff (h : t.Wf) (call : Call) : Law t call ↔ Good t call := by
  cases call with
  | define m cos short => exact law_define_iff h m cos short
  | delete name short => exact law_delete_iff h name short

theorem Table.Wf.step {t' : Table} (h : t.Wf) {call : Call} (hs : step t call = some t') : t'.Wf := by
  cases call with
  | define m cos short =>
    obtain ⟨r, t₂, hd, hwf, -⟩ := defineCos_spec h m cos
    rw [Cosm.step, hd] at hs
    cases hs
    exact hwf
  | delete name short =>
    rw [Cosm.step] at hs
    cases hcls : t.classes (padded resourceNameLen name) with
    | none =>
      rw [deleteCos_none h short hcls] at hs
      cases hs
      exact h
    | some cls =>
      obtain ⟨hbare, hrows⟩ := deleteCos_spec h short hcls
      by_cases hb : cls.Bare
      · obtain ⟨t₂, hd, hwf, -⟩ := hbare hb
        rw [hd] at hs
        cases hs
        exact hwf
      · rw [hrows hb] at hs
        cases hs

/-- Every call of a sequence does what it should exactly if every one of them is good. -/
theorem classes_along_iff (calls : List Call) :
    Along step Law Table.empty calls ↔ Along step Good Table.empty calls :=
  Framework.along_iff (I := Table.Wf) (fun _ _ _ h _ hs => h.step hs) (fun _ call h => law_iff h call)
    wf_empty

/-- The first default definition of `#BATCH` -/
def batch : NofCos :=
  defaultCos [0x23, 0x42, 0x41, 0x54, 0x43, 0x48] ⟨10, tpLow, 0, 0⟩ ⟨30, 0, 0x4, 0x7, 5, 31, 0⟩

/-- A class that is defined, and deleted -/
theorem defined_not_deleted : ¬Along step Law Table.empty
    [.define {} batch (by decide), .delete batch.name (by decide)] := by
  rintro ⟨-, h⟩
  obtain ⟨⟨r, t', hd, -⟩, -⟩ := h _ rfl
  have hnone : (deleteCos batch.name
      ((step Table.empty (.define {} batch (by decide))).getD .empty)).isNone := by decide
  rw [Option.isNone_iff_eq_none] at hnone
  cases hnone.symm.trans hd

end LinuxSna.Cosm
