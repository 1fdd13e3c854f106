import LinuxSna.Proof.Sna.Lfsid

/-!
# Counting the LFSIDs in use

`sna_asm_assign_lfsid` puts a slot in use before it looks for a `sidh`, and does not take that back
when there is none: the numbers from 1 to 254 then stand in the slots in this order
(`sidhPass_eq_none_iff`), whatever else does.

* `assignLfsid_cases`, `freeLfsid_cases`: how the slots in use change;
* `tally_step`: the count after a step, by what the step counts and whether it leaks;
* `assign_undone_iff`: the failing assignments that leave the slots in use as they were, and the runs
  after which the count is right.
-/

namespace LinuxSna.Asm

open Framework

/-! ## Slots in use -/

def AsmCb.active (a : AsmCb) : Multiset Lfsid := a.blkList.filter (·.active)

/-- The slots in use of an address space of the list -/
def activeSlots (asmList : List AsmCb) (index : UInt32) : Multiset Lfsid :=
  match getByIndex asmList index with
  | some a => a.active
  | none => 0

/-- There is a slot to put in use. -/
def AsmCb.HasRoom (a : AsmCb) (alloc : Bool) : Prop := (∃ lf ∈ a.blkList, lf.active = false) ∨ alloc

/-- The numbers from 1 to 254 stand in the slots in this order. -/
def AsmCb.Exhausted (a : AsmCb) : Prop :=
  (List.range' 1 254).Sublist (a.blkList.map fun lf => lf.sidh.toNat)

/-- A slot is put in use for nothing. -/
def Leaks (asmList : List AsmCb) (pcIndex : UInt32) (alloc : Bool) : Prop :=
  ∃ a, getByIndex asmList pcIndex = some a ∧ a.HasRoom alloc ∧ a.Exhausted

/-! ## The search for a `sidh` -/

theorem sidhPass_eq_none_iff {c : UInt8} (h1 : 1 ≤ c.toNat) (h254 : c.toNat ≤ 254) (ls : List Lfsid) :
    sidhPass c ls = none ↔
      (List.range' c.toNat (255 - c.toNat)).Sublist (ls.map fun lf => lf.sidh.toNat) := by
  induction ls generalizing c with
  | nil =>
    rw [sidhPass, List.map_nil, List.sublist_nil, List.range'_eq_nil_iff]
    simp only [reduceCtorEq, false_iff]
    omega
  | cons l ls ih =>
    have hhead : List.range' c.toNat (255 - c.toNat) =
        c.toNat :: List.range' (c.toNat + 1) (254 - c.toNat) := by
      rw [show 255 - c.toNat = (254 - c.toNat) + 1 by omega, List.range'_succ]
    have hnext : (c + 1).toNat = c.toNat + 1 := by
      rw [UInt8.toNat_add, UInt8.toNat_one]
      omega
    rw [sidhPass, List.map_cons, hhead]
    by_cases hl : l.sidh = c
    · rw [if_pos hl, hl, List.cons_sublist_cons]
      by_cases hlast : c + 1 > 0xFE
      · have hmax : (0xFE : UInt8).toNat = 254 := rfl
        rw [gt_iff_lt, UInt8.lt_iff_toNat_lt, hnext] at hlast
        have hc : 254 - c.toNat = 0 := by omega
        rw [if_pos (by rw [gt_iff_lt, UInt8.lt_iff_toNat_lt, hnext]; omega), hc, List.range'_zero]
        simp
      · rw [if_neg hlast]
        have hmax : (0xFE : UInt8).toNat = 254 := rfl
        rw [gt_iff_lt, UInt8.lt_iff_toNat_lt, hnext] at hlast
        rw [ih (by omega) (by omega), hnext, show 255 - (c.toNat + 1) = 254 - c.toNat by omega]
    · have hne : c.toNat ≠ l.sidh.toNat := fun heq => hl (UInt8.toNat_inj.mp heq).symm
      rw [if_neg hl, ih h1 h254, hhead, List.cons_sublist_cons']
      simp [hne]

theorem sidhPass_start (ls : List Lfsid) :
    sidhPass sidhStart ls = none ↔
      (List.range' 1 254).Sublist (ls.map fun lf => lf.sidh.toNat) :=
  sidhPass_eq_none_iff (by decide) (by decide) ls

/-- Numbers of 0 make no difference. -/
theorem range'_sublist_append_zero (ls : List Nat) (n : Nat) :
    (List.range' 1 254).Sublist (ls ++ List.replicate n 0) ↔ (List.range' 1 254).Sublist ls := by
  constructor
  · intro h
    have hf := h.filter (· ≠ 0)
    rw [List.filter_append, List.filter_replicate_of_neg (by decide), List.append_nil,
      List.filter_eq_self.mpr] at hf
    · exact hf.trans List.filter_sublist
    · intro k hk
      have := List.mem_range'_1.mp hk
      simp only [ne_eq, decide_not, Bool.not_eq_eq_eq_not, Bool.not_true, decide_eq_false_iff_not]
      omega
  · intro h
    exact h.trans (List.sublist_append_left ..)

theorem AsmCb.exhausted_addBlock (a : AsmCb) : a.addBlock.Exhausted ↔ a.Exhausted := by
  unfold AsmCb.Exhausted AsmCb.addBlock
  rw [List.map_append, List.map_replicate]
  exact range'_sublist_append_zero _ 256

/-! ## Assigning and freeing -/

/-- Another LFSID in a slot that is not in use -/
theorem filter_set {slots : List Lfsid} {k : Nat} {old lf : Lfsid} (hk : slots[k]? = some old)
    (hold : old.active = false) (hlf : lf.active = true) :
    ((slots.set k lf).filter (·.active) : Multiset Lfsid) =
      lf ::ₘ (slots.filter (·.active) : Multiset Lfsid) := by
  obtain ⟨hlt, rfl⟩ := List.getElem?_eq_some_iff.mp hk
  have hcut : slots = slots.take k ++ slots[k] :: slots.drop (k + 1) := by
    rw [← List.drop_eq_getElem_cons hlt, List.take_append_drop]
  rw [List.set_eq_take_append_cons_drop, if_pos hlt]
  conv_rhs => rw [hcut]
  rw [List.filter_append, List.filter_append, List.filter_cons_of_pos hlf,
    List.filter_cons_of_neg (by simp [hold]), Multiset.cons_coe, Multiset.coe_eq_coe]
  exact List.perm_middle

theorem assignFree_eq_none {a : AsmCb} {smIndex : UInt32} :
    a.assignFree smIndex = none ↔ ∀ lf ∈ a.blkList, lf.active = true := by
  unfold AsmCb.assignFree
  cases hf : a.blkList.findIdx? (!·.active) with
  | none => simpa using List.findIdx?_eq_none_iff.mp hf
  | some k =>
    obtain ⟨hlt, hk, -⟩ := List.findIdx?_eq_some_iff_getElem.mp hf
    constructor
    · intro h
      dsimp only at h
      split at h <;> cases h
    · intro h
      rw [h _ (List.getElem_mem hlt)] at hk
      exact absurd hk (by decide)

/-- A slot is put in use, and given out unless no `sidh` is left. -/
theorem assignFree_cases {a : AsmCb} {smIndex : UInt32} {r : Option Nat × AsmCb}
    (h : a.assignFree smIndex = some r) :
    (∃ lf, r.2.active = lf ::ₘ a.active) ∧ (r.1 = none ↔ a.Exhausted) := by
  unfold AsmCb.assignFree at h
  cases hf : a.blkList.findIdx? (!·.active) with
  | none => simp [hf] at h
  | some k =>
    obtain ⟨hlt, hk, -⟩ := List.findIdx?_eq_some_iff_getElem.mp hf
    have hget : a.blkList[k]? = some a.blkList[k] := List.getElem?_eq_getElem hlt
    have hold : a.blkList[k].active = false := by simpa using hk
    have hlf : a.lfsid k = a.blkList[k] := by
      rw [AsmCb.lfsid, List.getD_eq_getElem?_getD, hget, Option.getD_some]
    simp only [hf, hlf] at h
    set lf : Lfsid := { a.blkList[k] with active := true, smIndex := smIndex.toUInt16, odai := a.odai }
    -- the numbers in the slots are those from before
    have hsidh : (a.blkList.set k lf).map (fun lf => lf.sidh.toNat) =
        a.blkList.map fun lf => lf.sidh.toNat := by
      rw [List.map_set]
      apply List.ext_getElem
      · rw [List.length_set]
      · intro i h₁ h₂
        rw [List.getElem_set]
        split
        · rename_i hi
          subst hi
          rw [List.getElem_map]
        · rfl
    have hpass := sidhPass_start (a.blkList.set k lf)
    rw [hsidh] at hpass
    unfold AsmCb.setSidhl at h
    cases hs : sidhPass sidhStart (a.blkList.set k lf) with
    | none =>
      simp only [hs, Option.some.injEq] at h
      subst h
      exact ⟨⟨lf, filter_set hget hold rfl⟩, iff_of_true rfl (hpass.mp hs)⟩
    | some d =>
      obtain ⟨e, he⟩ := sidlPass_isSome sidlStart (a.blkList.set k lf)
      simp only [hs, he, Option.some.injEq, List.set_set] at h
      subst h
      have hself : AsmCb.lfsid { a with blkList := a.blkList.set k lf } k = lf := by
        rw [AsmCb.lfsid, List.getD_eq_getElem?_getD, List.getElem?_set_self hlt, Option.getD_some]
      refine ⟨⟨_, filter_set hget hold ?_⟩, iff_of_false (fun h => by cases h) fun hx => ?_⟩
      · rw [hself]
      · rw [hpass.mpr hx] at hs
        cases hs

theorem AsmCb.active_addBlock (a : AsmCb) : a.addBlock.active = a.active := by
  unfold AsmCb.active AsmCb.addBlock
  rw [List.filter_append, List.filter_replicate_of_neg (by decide), List.append_nil]

theorem AsmCb.assignLfsid_cases (a : AsmCb) (smIndex : UInt32) (alloc : Bool) :
    (a.HasRoom alloc ∧ (∃ lf, (a.assignLfsid smIndex alloc).2.active = lf ::ₘ a.active) ∧
      ((a.assignLfsid smIndex alloc).1 = none ↔ a.Exhausted)) ∨
    (¬ a.HasRoom alloc ∧ a.assignLfsid smIndex alloc = (none, a)) := by
  unfold AsmCb.assignLfsid
  cases hf : a.assignFree smIndex with
  | some r =>
    have hroom : a.HasRoom alloc := by
      have hsome : ¬ ∀ lf ∈ a.blkList, lf.active = true := by
        rw [← @assignFree_eq_none a smIndex, hf]
        exact nofun
      simp only [not_forall, exists_prop, Bool.not_eq_true] at hsome
      exact .inl hsome
    obtain ⟨hactive, hnone⟩ := assignFree_cases hf
    exact .inl ⟨hroom, hactive, hnone⟩
  | none =>
    have hall := assignFree_eq_none.mp hf
    by_cases halloc : alloc = true
    · have hne : a.addBlock.assignFree smIndex ≠ none := by
        rw [ne_eq, assignFree_eq_none]
        intro h
        have hz := h Lfsid.zero (List.mem_append_right _ (List.mem_replicate.mpr ⟨by decide, rfl⟩))
        exact absurd hz (by decide)
      obtain ⟨r, hr⟩ := Option.ne_none_iff_exists'.mp hne
      obtain ⟨hactive, hnone⟩ := assignFree_cases hr
      rw [a.active_addBlock] at hactive
      rw [a.exhausted_addBlock] at hnone
      rw [if_pos halloc, hr, Option.getD_some]
      exact .inl ⟨.inr halloc, hactive, hnone⟩
    · refine .inr ⟨?_, by rw [if_neg halloc]⟩
      rintro (⟨lf, hlf, hfree⟩ | h)
      · rw [hall lf hlf] at hfree
        exact absurd hfree (by decide)
      · exact halloc h

theorem AsmCb.freeLfsid_cases (a : AsmCb) (smIndex : UInt32) (lf : Lfsid) :
    ((a.freeLfsid smIndex lf).1 = 0 ∧ ∃ l, a.active = l ::ₘ (a.freeLfsid smIndex lf).2.active) ∨
    ((a.freeLfsid smIndex lf).1 ≠ 0 ∧ (a.freeLfsid smIndex lf).2 = a) := by
  rcases freeLfsid_spec a smIndex lf with ⟨h, -⟩ | ⟨k, l, hk, hm, h⟩
  · rw [h]
    exact .inr ⟨(by decide : -AsmCb.enoent ≠ 0), rfl⟩
  · obtain ⟨hlt, hget⟩ := List.getElem?_eq_some_iff.mp hk
    have hl : l.active = true := by
      simp only [AsmCb.matchesLfsid, Bool.and_eq_true] at hm
      exact hm.1.1.1.1
    have hback := @filter_set (a.blkList.set k Lfsid.zero) k Lfsid.zero l
      (List.getElem?_set_self hlt) rfl hl
    rw [List.set_set, ← hget, List.set_getElem_self] at hback
    rw [h]
    exact .inl ⟨rfl, a.blkList[k], hback⟩

/-! ## The list of address spaces -/

theorem onSpace_of_none {α : Type} {f : AsmCb → α × AsmCb} {index : UInt32} {l : List AsmCb}
    (h : getByIndex l index = none) : onSpace f index l = none := by
  induction l with
  | nil => rfl
  | cons b l ih =>
    rw [getByIndex, List.find?_eq_none] at h
    have hb : ¬ b.index = index := by simpa using h b List.mem_cons_self
    rw [onSpace, if_neg hb, ih (List.find?_eq_none.mpr fun x hx => h x (List.mem_cons_of_mem b hx))]
    rfl

theorem assignLfsid_ne {asmList : List AsmCb} {pcIndex index smIndex : UInt32} {alloc : Bool}
    (hne : pcIndex ≠ index) :
    activeSlots (assignLfsid asmList pcIndex smIndex alloc).2 index = activeSlots asmList index := by
  unfold activeSlots assignLfsid
  cases ho : onSpace (·.assignLfsid smIndex alloc) pcIndex asmList with
  | none => rfl
  | some r => rw [Option.getD_some, onSpace_ne (assignLfsid_index smIndex alloc) hne ho]

theorem freeLfsid_ne {asmList : List AsmCb} {pcIndex index smIndex : UInt32} {lf : Lfsid}
    (hne : pcIndex ≠ index) :
    activeSlots (freeLfsid asmList pcIndex smIndex lf).2 index = activeSlots asmList index := by
  unfold activeSlots freeLfsid
  cases ho : onSpace (·.freeLfsid smIndex lf) pcIndex asmList with
  | none => rfl
  | some r => rw [Option.getD_some, onSpace_ne (freeLfsid_index smIndex lf) hne ho]

/-- An assignment that does not leak puts a slot in use exactly if it gives it out. -/
theorem assignLfsid_cases (asmList : List AsmCb) (pcIndex smIndex : UInt32) (alloc : Bool) :
    (¬ Leaks asmList pcIndex alloc ∧ (assignLfsid asmList pcIndex smIndex alloc).1 = none ∧
      activeSlots (assignLfsid asmList pcIndex smIndex alloc).2 pcIndex =
        activeSlots asmList pcIndex) ∨
    ((Leaks asmList pcIndex alloc ↔ (assignLfsid asmList pcIndex smIndex alloc).1 = none) ∧
      ∃ lf, activeSlots (assignLfsid asmList pcIndex smIndex alloc).2 pcIndex =
        lf ::ₘ activeSlots asmList pcIndex) := by
  cases ha : getByIndex asmList pcIndex with
  | none =>
    have hsame : assignLfsid asmList pcIndex smIndex alloc = (none, asmList) := by
      rw [assignLfsid, onSpace_of_none ha, Option.getD_none]
    rw [hsame]
    refine .inl ⟨?_, rfl, rfl⟩
    rintro ⟨a, hget, -⟩
    rw [ha] at hget
    cases hget
  | some a =>
    obtain ⟨l', hl, hget⟩ := onSpace_self (assignLfsid_index smIndex alloc) ha
    have hr : assignLfsid asmList pcIndex smIndex alloc = ((a.assignLfsid smIndex alloc).1, l') := by
      rw [assignLfsid, hl, Option.getD_some]
    have hleaks : Leaks asmList pcIndex alloc ↔ a.HasRoom alloc ∧ a.Exhausted := by
      simp [Leaks, ha]
    simp only [hr, activeSlots, ha, hget]
    rcases a.assignLfsid_cases smIndex alloc with ⟨hroom, hactive, hnone⟩ | ⟨hroom, hsame⟩
    · exact .inr ⟨by rw [hleaks, hnone, and_iff_right hroom], hactive⟩
    · rw [hsame, hleaks]
      exact .inl ⟨fun h => hroom h.1, rfl, rfl⟩

theorem freeLfsid_cases (asmList : List AsmCb) (pcIndex smIndex : UInt32) (lf : Lfsid) :
    ((freeLfsid asmList pcIndex smIndex lf).1 = 0 ∧ ∃ l, activeSlots asmList pcIndex =
      l ::ₘ activeSlots (freeLfsid asmList pcIndex smIndex lf).2 pcIndex) ∨
    ((freeLfsid asmList pcIndex smIndex lf).1 ≠ 0 ∧
      activeSlots (freeLfsid asmList pcIndex smIndex lf).2 pcIndex =
        activeSlots asmList pcIndex) := by
  cases ha : getByIndex asmList pcIndex with
  | none =>
    have hsame : freeLfsid asmList pcIndex smIndex lf = (-AsmCb.enoent, asmList) := by
      rw [freeLfsid, onSpace_of_none ha, Option.getD_none]
    rw [hsame]
    exact .inr ⟨(by decide : -AsmCb.enoent ≠ 0), rfl⟩
  | some a =>
    obtain ⟨l', hl, hget⟩ := onSpace_self (freeLfsid_index smIndex lf) ha
    have hr : freeLfsid asmList pcIndex smIndex lf = ((a.freeLfsid smIndex lf).1, l') := by
      rw [freeLfsid, hl, Option.getD_some]
    simp only [hr, activeSlots, ha, hget]
    rcases a.freeLfsid_cases smIndex lf with h | ⟨hne, hsame⟩
    · exact .inl h
    · rw [hsame]
      exact .inr ⟨hne, rfl⟩

/-! ## Histories -/

/-- The address spaces, and how often one of them has given out and taken back an LFSID -/
structure Tally where
  asmList : List AsmCb
  assigned : Nat
  freed : Nat
  deriving DecidableEq

def Tally.step (index : UInt32) (w : Tally) : Event → Option Tally
  | .assign pcIndex smIndex alloc =>
    let r := assignLfsid w.asmList pcIndex smIndex alloc
    some ⟨r.2, if pcIndex = index ∧ r.1 ≠ none then w.assigned + 1 else w.assigned, w.freed⟩
  | .free pcIndex smIndex lf =>
    let r := freeLfsid w.asmList pcIndex smIndex lf
    some ⟨r.2, w.assigned, if pcIndex = index ∧ r.1 = 0 then w.freed + 1 else w.freed⟩

/-- The event does not leak a slot of the address space. -/
def Tally.Sound (index : UInt32) (w : Tally) : Event → Prop
  | .assign pcIndex _ alloc => pcIndex = index → ¬ Leaks w.asmList index alloc
  | .free _ _ _ => True

/-- The slots in use are those given out and not taken back. -/
def Tally.Right (index : UInt32) (w : Tally) : Prop :=
  (activeSlots w.asmList index).card + w.freed = w.assigned

/-- A leak is never made good. -/
theorem tally_step {index : UInt32} {w w' : Tally} {e : Event} (h : w.step index e = some w') :
    (w.Sound index e ∧ (activeSlots w'.asmList index).card + w'.freed + w.assigned =
      (activeSlots w.asmList index).card + w.freed + w'.assigned) ∨
    (¬ w.Sound index e ∧ (activeSlots w'.asmList index).card + w'.freed + w.assigned =
      (activeSlots w.asmList index).card + w.freed + w'.assigned + 1) := by
  cases e with
  | assign pcIndex smIndex alloc =>
    obtain rfl := Option.some.inj h
    by_cases hpc : pcIndex = index
    · subst hpc
      rcases assignLfsid_cases w.asmList pcIndex smIndex alloc with
        ⟨hleaks, hnone, hsame⟩ | ⟨hleaks, lf, hactive⟩
      · refine .inl ⟨fun _ => hleaks, ?_⟩
        simp only [hnone, hsame, ne_eq, not_true_eq_false, and_false, if_false]
      · simp only [hactive, Multiset.card_cons, true_and]
        by_cases hnone : (assignLfsid w.asmList pcIndex smIndex alloc).1 = none
        · refine .inr ⟨fun hs => hs rfl (hleaks.mpr hnone), ?_⟩
          rw [if_neg (not_not.mpr hnone)]
          omega
        · refine .inl ⟨fun _ hl => hnone (hleaks.mp hl), ?_⟩
          rw [if_pos hnone]
          omega
    · refine .inl ⟨fun h => absurd h hpc, ?_⟩
      simp only [assignLfsid_ne hpc, hpc, false_and, if_false]
  | free pcIndex smIndex lf =>
    obtain rfl := Option.some.inj h
    refine .inl ⟨trivial, ?_⟩
    by_cases hpc : pcIndex = index
    · subst hpc
      rcases freeLfsid_cases w.asmList pcIndex smIndex lf with ⟨hzero, l, hactive⟩ | ⟨hne, hsame⟩
      · simp only [hactive, hzero, Multiset.card_cons, and_self, if_true]
        omega
      · simp only [hsame, hne, and_false, if_false]
    · simp only [freeLfsid_ne hpc, hpc, false_and, if_false]

theorem tally_loses (index : UInt32) :
    Loses (Tally.step index) (Tally.Sound index) (Tally.Right index)
      fun w => w.assigned < (activeSlots w.asmList index).card + w.freed where
  good w e w' hw hG h := by
    unfold Tally.Right at hw ⊢
    rcases tally_step h with ⟨-, heq⟩ | ⟨hn, -⟩
    · omega
    · exact absurd hG hn
  bad w e w' hw hG h := by
    unfold Tally.Right at hw
    rcases tally_step h with ⟨hs, -⟩ | ⟨-, heq⟩
    · exact absurd hs hG
    · omega
  lost w e w' hw h := by
    rcases tally_step h with ⟨-, heq⟩ | ⟨-, heq⟩ <;> omega
  ne w hw hr := Nat.ne_of_gt hw hr

theorem activateAs_active {asmList : List AsmCb} {as : AsmCb} (h : (activateAs asmList as).1 = 0) :
    activeSlots (activateAs asmList as).2 as.index = 0 := by
  unfold activateAs at h ⊢
  cases hg : getByIndex asmList as.index with
  | some a => simp [hg, AsmCb.eexist] at h
  | none =>
    have hget : getByIndex (asmList ++ [{ as with blkList := [] }]) as.index =
        some { as with blkList := [] } := by
      rw [getByIndex, List.find?_append, ← getByIndex, hg]
      simp
    unfold activeSlots
    rw [hget]
    rfl

/-- An assignment that fails leaves the slots in use as they were exactly if it does not come to the
search for a `sidh`, or the numbers from 1 to 254 do not stand in the slots in order. After a history
from the activation of an address space on, the slots in use are the assignments that succeeded less
the frees that did, exactly if no assignment of the history was of the other kind. -/
theorem assign_undone_iff (asmList : List AsmCb) :
    (∀ pcIndex smIndex alloc, ((assignLfsid asmList pcIndex smIndex alloc).1 = none →
        ∀ index, activeSlots (assignLfsid asmList pcIndex smIndex alloc).2 index =
          activeSlots asmList index) ↔ ¬ Leaks asmList pcIndex alloc) ∧
    ∀ as, (activateAs asmList as).1 = 0 → ∀ es w,
      run (Tally.step as.index) ⟨(activateAs asmList as).2, 0, 0⟩ es = some w →
      (w.Right as.index ↔
        Along (Tally.step as.index) (Tally.Sound as.index) ⟨(activateAs asmList as).2, 0, 0⟩ es) := by
  refine ⟨fun pcIndex smIndex alloc => ?_, fun as has es w hw => ?_⟩
  · rcases assignLfsid_cases asmList pcIndex smIndex alloc with
      ⟨hleaks, -, hsame⟩ | ⟨hleaks, lf, hactive⟩
    · refine iff_of_true (fun _ index => ?_) hleaks
      by_cases hpc : pcIndex = index
      · rw [← hpc, hsame]
      · exact assignLfsid_ne hpc
    · constructor
      · intro h hl
        have hcard := congrArg Multiset.card (h (hleaks.mp hl) pcIndex)
        rw [hactive, Multiset.card_cons] at hcard
        omega
      · intro hl hnone
        exact absurd (hleaks.mpr hnone) hl
  · refine (tally_loses as.index).run_iff ?_ hw
    unfold Tally.Right
    rw [activateAs_active has]
    rfl

/-- An LFSID is assigned in a new address space and freed. -/
theorem assign_undone_iff_once :
    (¬ Leaks [] 7 true ∧ activateAs [] ⟨7, 0, 0, []⟩ = (0, [⟨7, 0, 0, []⟩])) ∧
    (Tally.Right 7 ⟨[⟨7, 0, 1, List.replicate 256 Lfsid.zero⟩], 1, 1⟩ ↔
      Along (Tally.step 7) (Tally.Sound 7) ⟨[⟨7, 0, 0, []⟩], 0, 0⟩
        [.assign 7 1 true, .free 7 1 ⟨true, 1, 0, 1, 1⟩]) :=
  ⟨⟨((assign_undone_iff []).1 7 1 true).mp fun _ _ => rfl, rfl⟩,
    (assign_undone_iff []).2 ⟨7, 0, 0, []⟩ (by decide)
      [.assign 7 1 true, .free 7 1 ⟨true, 1, 0, 1, 1⟩] _ (by decide +kernel)⟩

/-- An address space with the LFSIDs that 254 assignments leave, and two more -/
def crowded : AsmCb :=
  ⟨7, 0, 1, (List.range 254).map (fun k => ⟨true, 1, 0, UInt8.ofNat (k + 1), 1⟩) ++
    List.replicate 2 Lfsid.zero⟩

/-- The next assignment fails and leaves one more slot in use. -/
theorem crowded_leaks :
    (assignLfsid [crowded] 7 1 true).1 = none ∧
      (activeSlots [crowded] 7).card = 254 ∧
      (activeSlots (assignLfsid [crowded] 7 1 true).2 7).card = 255 := by
  decide +kernel

end LinuxSna.Asm
