import LinuxSna.Proof.Sna.Cosm

/-!
# The default classes of service

They are defined one row at a time, and no row is defined twice.

* `initDefaultCos_run`: the definitions are a run;
* `defaultsMade_iff`: all of them are made exactly if there is memory for what is missing;
* `DefaultsMade.has`: and then all default classes are there.
-/

namespace LinuxSna.Cosm

open Framework (Along padded run)
open Stations (resourceNameLen)

variable {m : Nat → Memory} {t : Table} {a b cos : NofCos} {cs : Classes} {k : List UInt8} {rsn : UInt16}
  {l : List NofCos}

/-! ## What definitions leave -/

namespace Classes

theorem define_apply : cs.define cos k =
    if k = cos.key then some (Class.mk cos.toAttributes
      (Function.update ((cs cos.key).getD .empty).tg cos.tgRsn (some cos.tg))
      (Function.update ((cs cos.key).getD .empty).node cos.nodeRsn (some cos.node))) else cs k := by
  rw [define, modify, Function.update_apply]

theorem define_eq_none : cs.define cos k = none ↔ cs k = none ∧ cos.key ≠ k := by
  rw [define_apply]
  split
  · rename_i hk
    exact iff_of_false (Option.some_ne_none _) fun h => h.2 hk.symm
  · rename_i hk
    exact (and_iff_left (Ne.symm hk)).symm

theorem tg_define : (cs.define cos).tg k rsn =
    if cos.key = k ∧ cos.tgRsn = rsn then some cos.tg else cs.tg k rsn := by
  rw [tg, define_apply]
  by_cases hk : cos.key = k
  · subst hk
    rw [if_pos rfl]
    show Function.update ((cs cos.key).getD .empty).tg cos.tgRsn (some cos.tg) rsn = _
    rw [Function.update_apply]
    by_cases hr : cos.tgRsn = rsn
    · rw [if_pos hr.symm, if_pos ⟨rfl, hr⟩]
    · rw [if_neg (Ne.symm hr), if_neg fun h => hr h.2, tg]
      cases cs cos.key <;> rfl
  · rw [if_neg (Ne.symm hk), if_neg fun h => hk h.1]
    rfl

theorem node_define : (cs.define cos).node k rsn =
    if cos.key = k ∧ cos.nodeRsn = rsn then some cos.node else cs.node k rsn := by
  rw [node, define_apply]
  by_cases hk : cos.key = k
  · subst hk
    rw [if_pos rfl]
    show Function.update ((cs cos.key).getD .empty).node cos.nodeRsn (some cos.node) rsn = _
    rw [Function.update_apply]
    by_cases hr : cos.nodeRsn = rsn
    · rw [if_pos hr.symm, if_pos ⟨rfl, hr⟩]
    · rw [if_neg (Ne.symm hr), if_neg fun h => hr h.2, node]
      cases cs cos.key <;> rfl
  · rw [if_neg (Ne.symm hk), if_neg fun h => hk h.1]
    rfl

theorem ite_some_eq_none {β : Type} {p : Prop} [Decidable p] {b : β} {o : Option β} :
    (if p then some b else o) = none ↔ o = none ∧ ¬p := by
  split <;> simp_all

/-- A property that a definition keeps unless it is one of its own is kept by all but these. -/
theorem foldl_define_iff {P : Classes → Prop} {q : NofCos → Prop}
    (h : ∀ cs cos, P (cs.define cos) ↔ P cs ∧ ¬q cos) :
    P (l.foldl define cs) ↔ P cs ∧ ∀ c ∈ l, ¬q c := by
  induction l generalizing cs with
  | nil => exact (and_iff_left fun c hc => absurd hc List.not_mem_nil).symm
  | cons c l ih => rw [List.foldl_cons, ih, h, List.forall_mem_cons, and_assoc]

theorem has_define_self : (cs.define cos).Has cos := by
  refine ⟨_, define_apply.trans (if_pos rfl), rfl, Function.update_self .., Function.update_self ..⟩

end Classes

/-- Two definitions do not set the same to different values. -/
def Agree (a b : NofCos) : Prop := b.key = a.key →
  b.toAttributes = a.toAttributes ∧ (b.tgRsn = a.tgRsn → b.tg = a.tg) ∧
    (b.nodeRsn = a.nodeRsn → b.node = a.node)

theorem Classes.Has.define (h : cs.Has a) (hab : Agree a b) : (cs.define b).Has a := by
  obtain ⟨c, hc, ha, htg, hnode⟩ := h
  by_cases hk : a.key = b.key
  · obtain ⟨hattr, hbtg, hbnode⟩ := hab hk.symm
    refine ⟨_, define_apply.trans (if_pos hk), hattr, ?_, ?_⟩
    · rw [← hk, hc]
      show Function.update c.tg b.tgRsn (some b.tg) a.tgRsn = some a.tg
      rw [Function.update_apply]
      split
      · rename_i hr
        exact congrArg some (hbtg hr.symm)
      · exact htg
    · rw [← hk, hc]
      show Function.update c.node b.nodeRsn (some b.node) a.nodeRsn = some a.node
      rw [Function.update_apply]
      split
      · rename_i hr
        exact congrArg some (hbnode hr.symm)
      · exact hnode
  · exact ⟨c, (define_apply.trans (if_neg hk)).trans hc, ha, htg, hnode⟩

theorem Classes.Has.foldl (h : cs.Has a) (hab : ∀ b ∈ l, Agree a b) : (l.foldl Classes.define cs).Has a := by
  induction l generalizing cs with
  | nil => exact h
  | cons b l ih =>
    exact ih (h.define (hab b List.mem_cons_self)) fun c hc => hab c (List.mem_cons_of_mem b hc)

theorem foldl_has (hl : ∀ a ∈ l, ∀ b ∈ l, Agree a b) (ha : a ∈ l) : (l.foldl Classes.define cs).Has a := by
  induction l generalizing cs with
  | nil => exact absurd ha List.not_mem_nil
  | cons b l ih =>
    rcases List.mem_cons.mp ha with rfl | ha
    · exact Classes.has_define_self.foldl fun c hc => hl a List.mem_cons_self c (List.mem_cons_of_mem a hc)
    · exact ih (fun c hc d hd => hl c (List.mem_cons_of_mem b hc) d (List.mem_cons_of_mem b hd)) ha

/-! ## The default definitions -/

theorem defaultClasses_nodup : (defaultClasses.map fun c => padded resourceNameLen (bytes c.1)).Nodup := by
  decide +kernel

theorem map_cosDefaults {β : Type} {f : DefaultRow → β} {g : NofCos → β}
    (hg : ∀ name attributes r, g (defaultCos name attributes r) = f r) :
    cosDefaults.map (fun c => (c.key, g c)) =
      (defaultClasses.map fun c => padded resourceNameLen (bytes c.1)).product (defaultRows.map f) := by
  simp only [cosDefaults, List.map_flatMap, List.map_map, List.product, List.flatMap_map]
  refine List.flatMap_congr fun c _ => List.map_congr_left fun r _ => ?_
  exact congrArg (Prod.mk _) (hg ..)

/-- No row is defined twice. -/
theorem cosDefaults_tg : (cosDefaults.map fun c => (c.key, c.tgRsn)).Nodup := by
  rw [map_cosDefaults (f := DefaultRow.tgRsn) fun _ _ _ => rfl]
  exact defaultClasses_nodup.product (by decide)

@[inherit_doc cosDefaults_tg]
theorem cosDefaults_node : (cosDefaults.map fun c => (c.key, c.nodeRsn)).Nodup := by
  rw [map_cosDefaults (f := DefaultRow.nodeRsn) fun _ _ _ => rfl]
  exact defaultClasses_nodup.product (by decide)

theorem cosDefaults_agree : ∀ a ∈ cosDefaults, ∀ b ∈ cosDefaults, Agree a b := by
  intro a ha b hb hk
  refine ⟨?_, fun hr => ?_, fun hr => ?_⟩
  · obtain ⟨c, hc, ha⟩ := List.mem_flatMap.mp ha
    obtain ⟨r, -, rfl⟩ := List.mem_map.mp ha
    obtain ⟨c', hc', hb⟩ := List.mem_flatMap.mp hb
    obtain ⟨r', -, rfl⟩ := List.mem_map.mp hb
    exact congrArg Prod.snd (List.inj_on_of_nodup_map defaultClasses_nodup hc' hc hk)
  · exact congrArg NofCos.tg (List.inj_on_of_nodup_map cosDefaults_tg hb ha (Prod.ext hk hr))
  · exact congrArg NofCos.node (List.inj_on_of_nodup_map cosDefaults_node hb ha (Prod.ext hk hr))

theorem ne_of_mem_take {β : Type} {f : NofCos → β} (hf : (l.map f).Nodup) {i : Nat} (ha : l[i]? = some a)
    (hb : b ∈ l.take i) : f b ≠ f a := by
  obtain ⟨hi, rfl⟩ := List.getElem?_eq_some_iff.mp ha
  obtain ⟨j, hj, rfl⟩ := List.mem_take_iff_getElem.mp hb
  have hji : j < i := Nat.lt_of_lt_of_le hj (Nat.min_le_left ..)
  have hlen : j < (l.map f).length := by
    rw [List.length_map]
    omega
  have hlen' : i < (l.map f).length := by
    rw [List.length_map]
    exact hi
  have hne : (l.map f)[j] ≠ (l.map f)[i] := hf.getElem_inj_iff.not.mpr (Nat.ne_of_lt hji)
  rwa [List.getElem_map, List.getElem_map] at hne

/-- After the definitions before it, a default definition has its memory if there is some for what was missing
before. -/
theorem enough_take_iff {i : Nat} (hi : cosDefaults[i]? = some cos) (m : Memory) :
    Enough m ((cosDefaults.take i).foldl Classes.define cs) cos ↔
      (cs cos.key = none → (∀ c ∈ cosDefaults.take i, c.key ≠ cos.key) → m.cos = true) ∧
        (cs.tg cos.key cos.tgRsn = none → m.tg = true) ∧
        (cs.node cos.key cos.nodeRsn = none → m.node = true) := by
  have hkey : (cosDefaults.take i).foldl Classes.define cs cos.key = none ↔
      cs cos.key = none ∧ ∀ c ∈ cosDefaults.take i, c.key ≠ cos.key :=
    Classes.foldl_define_iff (P := fun cs => cs cos.key = none) (q := fun c => c.key = cos.key)
      fun _ _ => Classes.define_eq_none
  have htg : ((cosDefaults.take i).foldl Classes.define cs).tg cos.key cos.tgRsn = none ↔
      cs.tg cos.key cos.tgRsn = none := by
    refine (Classes.foldl_define_iff (P := fun cs => cs.tg cos.key cos.tgRsn = none)
      (q := fun c => c.key = cos.key ∧ c.tgRsn = cos.tgRsn) fun _ _ => ?_).trans (and_iff_left fun c hc he => ?_)
    · rw [Classes.tg_define, Classes.ite_some_eq_none]
    · exact ne_of_mem_take cosDefaults_tg hi hc (Prod.ext he.1 he.2)
  have hnode : ((cosDefaults.take i).foldl Classes.define cs).node cos.key cos.nodeRsn = none ↔
      cs.node cos.key cos.nodeRsn = none := by
    refine (Classes.foldl_define_iff (P := fun cs => cs.node cos.key cos.nodeRsn = none)
      (q := fun c => c.key = cos.key ∧ c.nodeRsn = cos.nodeRsn) fun _ _ => ?_).trans (and_iff_left fun c hc he => ?_)
    · rw [Classes.node_define, Classes.ite_some_eq_none]
    · exact ne_of_mem_take cosDefaults_node hi hc (Prod.ext he.1 he.2)
  rw [Enough, hkey, htg, hnode, and_imp]

/-! ## The run -/

theorem initDefaultCos_run (m : Nat → Memory) (t : Table) :
    initDefaultCos m t = run (defaultStep m) t cosDefaults.zipIdx := rfl

/-- A definition that returns 0 is made in the map. -/
theorem defineCos_zero (h : t.Wf) {m : Memory} {t' : Table} (hd : defineCos m cos t = some (0, t')) :
    Enough m t.classes cos ∧ t'.Wf ∧ t'.classes = t.classes.define cos := by
  obtain ⟨r, t₂, hd₂, hwf, hout⟩ := defineCos_spec h m cos
  cases hd.symm.trans hd₂
  have henough := enough_of_outcome (congrArg Prod.fst hout).symm
  rw [outcome_of_enough henough] at hout
  exact ⟨henough, hwf, congrArg Prod.snd hout⟩

theorem defineCos_enough (h : t.Wf) {m : Memory} (he : Enough m t.classes cos) :
    ∃ t', defineCos m cos t = some (0, t') := by
  obtain ⟨r, t', hd, -, hout⟩ := defineCos_spec h m cos
  rw [outcome_of_enough he] at hout
  obtain ⟨rfl, -⟩ := Prod.mk.inj hout
  exact ⟨t', hd⟩

/-- The definitions go through, whatever they return. -/
theorem run_defaultStep (h : t.Wf) (l : List (NofCos × Nat)) :
    ∃ t', run (defaultStep m) t l = some t' ∧ t'.Wf := by
  induction l generalizing t with
  | nil => exact ⟨t, rfl, h⟩
  | cons d l ih =>
    obtain ⟨r, t₂, hd, hwf, -⟩ := defineCos_spec h (m d.2) d.1
    obtain ⟨t', hr, hwf'⟩ := ih hwf
    refine ⟨t', Framework.run_cons.mpr ⟨t₂, ?_, hr⟩, hwf'⟩
    rw [defaultStep, hd]
    rfl

/-- On the map: as long as all are made. -/
theorem along_made_iff (h : t.Wf) (l : List (NofCos × Nat)) :
    Along (defaultStep m) (fun t d => ∃ t', defineCos (m d.2) d.1 t = some (0, t')) t l ↔
      Along (fun cs d => some (cs.define d.1)) (fun cs d => Enough (m d.2) cs d.1) t.classes l := by
  induction l generalizing t with
  | nil => exact Iff.rfl
  | cons d l ih =>
    rw [Along, Along]
    constructor
    · rintro ⟨⟨t', hd⟩, hl⟩
      obtain ⟨he, hwf, hcls⟩ := defineCos_zero h hd
      refine ⟨he, fun cs hcs => ?_⟩
      obtain rfl := Option.some.inj hcs
      rw [← hcls]
      refine (ih hwf).mp (hl t' ?_)
      rw [defaultStep, hd]
      rfl
    · rintro ⟨he, hl⟩
      obtain ⟨t', hd⟩ := defineCos_enough h he
      obtain ⟨-, hwf, hcls⟩ := defineCos_zero h hd
      refine ⟨⟨t', hd⟩, fun t₂ ht₂ => ?_⟩
      rw [defaultStep, hd] at ht₂
      obtain rfl := Option.some.inj ht₂
      refine (ih hwf).mpr ?_
      rw [hcls]
      exact hl _ rfl

theorem run_made (h : t.Wf) {l : List (NofCos × Nat)} (hl : Along (defaultStep m)
    (fun t d => ∃ t', defineCos (m d.2) d.1 t = some (0, t')) t l) {t' : Table}
    (hr : run (defaultStep m) t l = some t') :
    t'.classes = (l.map (·.1)).foldl Classes.define t.classes := by
  induction l generalizing t with
  | nil =>
    cases hr
    rfl
  | cons d l ih =>
    obtain ⟨⟨t₂, hd⟩, hl⟩ := hl
    obtain ⟨-, hwf, hcls⟩ := defineCos_zero h hd
    obtain ⟨t₃, ht₃, hr⟩ := Framework.run_cons.mp hr
    have ht₂ : defaultStep m t d = some t₂ := by
      rw [defaultStep, hd]
      rfl
    obtain rfl := Option.some.inj (ht₂.symm.trans ht₃)
    rw [ih hwf (hl t₂ ht₂) hr, hcls]
    rfl

/-- All default definitions are made exactly if there is memory for what is missing. -/
theorem defaultsMade_iff (h : t.Wf) : DefaultsMade m t ↔ EnoughForDefaults m t.classes := by
  rw [DefaultsMade, along_made_iff h, Framework.along_iff_take, EnoughForDefaults]
  refine forall_congr' fun i => ?_
  have htake : ((cosDefaults.zipIdx.take i).foldl (fun cs d => Classes.define cs d.1) t.classes) =
      (cosDefaults.take i).foldl Classes.define t.classes := by
    have hmap : (cosDefaults.zipIdx.take i).map (·.1) = cosDefaults.take i := by
      rw [List.map_take, List.zipIdx_map_fst]
    rw [← hmap, List.foldl_map]
  constructor
  · intro hi cos hcos
    have hget : cosDefaults.zipIdx[i]? = some (cos, i) := by
      rw [List.getElem?_zipIdx, hcos]
      simp
    have henough := hi (cos, i) hget _ (Framework.run_some _ _ _)
    rw [htake] at henough
    exact (enough_take_iff hcos (m i)).mp henough
  · intro hi d hd t' ht'
    rw [List.getElem?_zipIdx] at hd
    obtain ⟨cos, hcos, rfl⟩ := Option.map_eq_some_iff.mp hd
    rw [Framework.run_some] at ht'
    obtain rfl := Option.some.inj ht'
    rw [htake, Nat.zero_add]
    exact (enough_take_iff hcos (m i)).mpr (hi cos hcos)

/-- And then the default classes are there. -/
theorem DefaultsMade.has (h : t.Wf) (hm : DefaultsMade m t) {t' : Table} (ht' : initDefaultCos m t = some t')
    (hcos : cos ∈ cosDefaults) : t'.classes.Has cos := by
  rw [run_made h hm (initDefaultCos_run m t ▸ ht'), List.zipIdx_map_fst]
  exact foldl_has cosDefaults_agree hcos

/-- Then there is an entry with rows of transmission groups. -/
theorem DefaultsMade.exists_tg (h : t.Wf) (hm : DefaultsMade m t) {t' : Table}
    (ht' : initDefaultCos m t = some t') : ∃ c ∈ t'.cosmList, c.tg ≠ none := by
  obtain ⟨_, hfound, -, htg, -⟩ := hm.has h ht' (List.mem_cons_self : _ ∈ cosDefaults)
  obtain ⟨c, hc, rfl⟩ := Option.map_eq_some_iff.mp hfound
  refine ⟨c, Framework.mem_of_find hc, fun hnone => ?_⟩
  rw [Table.classOf, hnone] at htg
  exact Option.some_ne_none _ (htg.symm.trans Framework.rowAt_none)

theorem initDefaultCos_spec (h : t.Wf) (m : Nat → Memory) : ∃ t', initDefaultCos m t = some t' ∧ t'.Wf :=
  run_defaultStep h cosDefaults.zipIdx

end LinuxSna.Cosm
