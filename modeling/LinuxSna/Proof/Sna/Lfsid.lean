import LinuxSna.Framework.Run
import LinuxSna.Impl.Sna.Asm

/-!
# LFSIDs that are in use

The single forward pass that chooses `sidh` gives an LFSID the number of its
slot, counted from 1, because all slots before it are in use and numbered like
that (`Numbered`, `sidhPass_numbered`). From slot 254 on the pass runs out of
numbers.

* `assignFree_spec`, `assignLfsid_spec`, `freeLfsid_spec`: what assigning and
  freeing do to the slots of a numbered address space;
* `Held.step`: the LFSIDs in use stay pairwise different, and stay where
  they are;
* `lfsid_unique`: so it is after any run, in any list of address spaces. One
  that is in use is found again with the index it was assigned for exactly if
  that index fits into 16 bits.
-/

namespace LinuxSna.Asm

open Framework

/-! ## Slots and their numbers -/

/-- Every slot is unused and zero, or in use with its own number. -/
def Numbered (odai : UInt8) (slots : List Lfsid) : Prop :=
  ∀ k lf, slots[k]? = some lf → lf = Lfsid.zero ∨
    (lf.active = true ∧ lf.odai = odai ∧ lf.sidh.toNat = if k < 254 then k + 1 else 0)

theorem numbered_nil (odai : UInt8) : Numbered odai [] := by
  intro k lf h
  simp at h

theorem Numbered.append_zero {odai : UInt8} {slots : List Lfsid} (h : Numbered odai slots) (n : Nat) :
    Numbered odai (slots ++ List.replicate n Lfsid.zero) := by
  intro k lf hk
  rcases List.mem_append.mp (List.mem_of_getElem? hk) with _ | hz
  · rw [List.getElem?_append] at hk
    split at hk
    · exact h k lf hk
    · exact Or.inl (List.eq_of_mem_replicate (List.mem_of_getElem? hk))
  · exact Or.inl (List.eq_of_mem_replicate hz)

theorem Numbered.set {odai : UInt8} {slots : List Lfsid} (h : Numbered odai slots) {k : Nat} {lf : Lfsid}
    (hlf : lf = Lfsid.zero ∨
      (lf.active = true ∧ lf.odai = odai ∧ lf.sidh.toNat = if k < 254 then k + 1 else 0)) :
    Numbered odai (slots.set k lf) := by
  intro i l hi
  rw [List.getElem?_set] at hi
  split at hi
  · rename_i hki
    subst hki
    split at hi
    · cases hi
      exact hlf
    · cases hi
  · exact h i l hi

/-! ## The passes -/

/-- Slots that carry the candidate and the numbers after it. -/
theorem sidhPass_run {n : Nat} : ∀ {ls rest : List Lfsid} {c : UInt8},
    (∀ i lf, ls[i]? = some lf → lf.sidh.toNat = c.toNat + i) → ls.length = n →
    c.toNat + n ≤ 254 →
    ∃ d : UInt8, d.toNat = c.toNat + n ∧ sidhPass c (ls ++ rest) = sidhPass d rest := by
  induction n with
  | zero =>
    intro ls rest c _ hn _
    obtain rfl := List.length_eq_zero_iff.mp hn
    exact ⟨c, rfl, rfl⟩
  | succ n ih =>
    intro ls rest c hls hn hc
    rcases ls with _ | ⟨l, ls⟩
    · cases hn
    have hl : l.sidh = c := UInt8.toNat_inj.mp (by simpa using hls 0 l rfl)
    have hnext : (c + 1).toNat = c.toNat + 1 := by
      rw [UInt8.toNat_add, UInt8.toNat_one]
      omega
    have hle : ¬ c + 1 > 0xFE := by
      have hmax : (0xFE : UInt8).toNat = 254 := rfl
      rw [gt_iff_lt, UInt8.lt_iff_toNat_lt, hnext]
      omega
    obtain ⟨d, hd, heq⟩ := @ih ls rest (c + 1)
      (fun i lf hi => by rw [hls (i + 1) lf (by simpa using hi), hnext]; omega)
      (by simpa using hn) (by omega)
    exact ⟨d, by omega, by simpa [sidhPass, hl, hle] using heq⟩

/-- Past the last number there is no candidate. -/
theorem sidhPass_last {l : Lfsid} {rest : List Lfsid} {c : UInt8} (hc : c.toNat = 254)
    (hl : l.sidh = c) : sidhPass c (l :: rest) = none := by
  obtain rfl : c = 254 := UInt8.toNat_inj.mp hc
  rw [sidhPass, if_pos hl]
  exact if_pos (by decide)

theorem sidhPass_skip {c : UInt8} : ∀ {ls : List Lfsid}, (∀ l ∈ ls, l.sidh ≠ c) →
    sidhPass c ls = some c
  | [], _ => rfl
  | l :: ls, h => by
    rw [sidhPass, if_neg (h l (List.mem_cons_self ..))]
    exact sidhPass_skip fun m hm => h m (List.mem_cons_of_mem _ hm)

/-- A `sidl` is always found: the candidate never exceeds 8 bits. -/
theorem sidlPass_isSome : ∀ (c : UInt8) (ls : List Lfsid), ∃ d, sidlPass c ls = some d
  | c, [] => ⟨c, rfl⟩
  | c, l :: ls => by
    have hle : ¬ c + 1 > 0xFF := by
      have hmax : (0xFF : UInt8).toNat = 255 := rfl
      have := (c + 1).toNat_lt
      rw [gt_iff_lt, UInt8.lt_iff_toNat_lt]
      omega
    simp only [sidlPass, hle, ↓reduceIte]
    split
    · exact sidlPass_isSome (c + 1) ls
    · exact sidlPass_isSome c ls

/-- With the first `n` slots in use and numbered and no number given to slot
`n`, the pass gives slot `n` its number, or none from slot 254 on. -/
theorem sidhPass_numbered {slots : List Lfsid} {n : Nat} {lf : Lfsid} (hn : slots[n]? = some lf)
    (hused : ∀ k l, k < n → slots[k]? = some l → l.sidh.toNat = if k < 254 then k + 1 else 0)
    (hlf : lf.sidh = 0)
    (hrest : ∀ k l, n < k → slots[k]? = some l → l.sidh.toNat = 0 ∨ l.sidh.toNat = k + 1) :
    if n < 254 then ∃ d : UInt8, d.toNat = n + 1 ∧ sidhPass sidhStart slots = some d
    else sidhPass sidhStart slots = none := by
  have hlen := (List.getElem?_eq_some_iff.mp hn).1
  have hone : sidhStart.toNat = 1 := rfl
  split
  · rename_i h254
    obtain ⟨d, hd, heq⟩ := @sidhPass_run n (slots.take n) (slots.drop n)
      sidhStart (fun i l hi => by
        rw [List.getElem?_take, Option.ite_none_right_eq_some] at hi
        obtain ⟨hin, hi⟩ := hi
        rw [hused i l hin hi, if_pos (by omega), hone]
        omega) (by rw [List.length_take]; omega) (by omega)
    refine ⟨d, by omega, ?_⟩
    rw [List.take_append_drop] at heq
    rw [heq]
    apply sidhPass_skip
    intro l hl
    obtain ⟨i, hi⟩ := List.mem_iff_getElem?.mp hl
    rw [List.getElem?_drop] at hi
    intro hld
    rcases Nat.eq_zero_or_pos i with rfl | hpos
    · rw [Nat.add_zero, hn] at hi
      cases hi
      rw [← hld, hlf] at hd
      have hzero : (0 : UInt8).toNat = 0 := rfl
      omega
    · have := hrest (n + i) l (by omega) hi
      rw [hld] at this
      omega
  · rename_i h254
    have hlast : ∃ l, slots[253]? = some l := ⟨_, List.getElem?_eq_getElem (by omega)⟩
    obtain ⟨l, hl⟩ := hlast
    obtain ⟨d, hd, heq⟩ := @sidhPass_run 253 (slots.take 253) (slots.drop 253)
      sidhStart (fun i l hi => by
        rw [List.getElem?_take, Option.ite_none_right_eq_some] at hi
        obtain ⟨hin, hi⟩ := hi
        rw [hused i l (by omega) hi, if_pos (by omega), hone]
        omega) (by rw [List.length_take]; omega) (by omega)
    rw [List.take_append_drop] at heq
    have hdrop : slots.drop 253 = l :: slots.drop 254 := by
      obtain ⟨h253, rfl⟩ := List.getElem?_eq_some_iff.mp hl
      exact List.drop_eq_getElem_cons h253
    rw [heq, hdrop]
    refine sidhPass_last (by omega) (UInt8.toNat_inj.mp ?_)
    rw [hused 253 l (by omega) hl, if_pos (by omega)]
    omega

/-! ## Assigning and freeing -/

/-- What an assignment does to an address space: slots stay numbered, those in
use stay, and the one given out was not in use. -/
structure Assigned (a : AsmCb) (smIndex : UInt32) (r : Option Nat × AsmCb) : Prop where
  index : r.2.index = a.index
  odai : r.2.odai = a.odai
  numbered : Numbered a.odai r.2.blkList
  kept (k : Nat) (lf : Lfsid) : a.blkList[k]? = some lf → lf.active = true → r.2.blkList[k]? = some lf
  given (k : Nat) : r.1 = some k → k < 254 ∧ (∀ old : Lfsid, a.blkList[k]? = some old → old.active = false) ∧
    ∃ lf : Lfsid, r.2.blkList[k]? = some lf ∧ lf.active = true ∧ lf.smIndex = smIndex.toUInt16

/-- A slot that is not in use is zero. -/
theorem Numbered.zero_of_not_active {odai : UInt8} {slots : List Lfsid} (h : Numbered odai slots)
    {k : Nat} {lf : Lfsid} (hk : slots[k]? = some lf) (hlf : lf.active = false) : lf = Lfsid.zero := by
  rcases h k lf hk with rfl | ⟨ha, -⟩
  · rfl
  · rw [hlf] at ha
    cases ha

theorem Numbered.sidh {odai : UInt8} {slots : List Lfsid} (h : Numbered odai slots)
    {k : Nat} {lf : Lfsid} (hk : slots[k]? = some lf) (hlf : lf.active = true) :
    lf.sidh.toNat = if k < 254 then k + 1 else 0 := by
  rcases h k lf hk with rfl | ⟨-, -, hs⟩
  · cases hlf
  · exact hs

/-- The pass over the slots when the first free one is put in use. -/
theorem Numbered.sidhPass_first {odai : UInt8} {slots : List Lfsid} (h : Numbered odai slots) {n : Nat}
    (hn : n < slots.length) (hbefore : ∀ k l, k < n → slots[k]? = some l → l.active = true)
    {lf : Lfsid} (hlf : lf.sidh = 0) :
    if n < 254 then ∃ d : UInt8, d.toNat = n + 1 ∧ sidhPass sidhStart (slots.set n lf) = some d
    else sidhPass sidhStart (slots.set n lf) = none := by
  have hne {k : Nat} (hk : n ≠ k) : (slots.set n lf)[k]? = slots[k]? := List.getElem?_set_ne hk
  refine sidhPass_numbered (List.getElem?_set_self hn) (fun k l hk hl => ?_) hlf (fun k l hk hl => ?_)
  · rw [hne (by omega)] at hl
    exact h.sidh hl (hbefore k l hk hl)
  · rw [hne (by omega)] at hl
    rcases h k l hl with rfl | ⟨-, -, hs⟩
    · exact Or.inl rfl
    · rw [hs]
      split
      · exact Or.inr rfl
      · exact Or.inl rfl

/-- Writing a slot that is not in use keeps those that are. -/
theorem set_keeps {slots : List Lfsid} {n : Nat}
    (hn : ∀ old, slots[n]? = some old → old.active = false) (lf : Lfsid) (k : Nat) (old : Lfsid)
    (hk : slots[k]? = some old) (hactive : old.active = true) : (slots.set n lf)[k]? = some old := by
  by_cases hnk : n = k
  · subst hnk
    rw [hn old hk] at hactive
    cases hactive
  · rw [List.getElem?_set_ne hnk, hk]

theorem assignFree_spec {a : AsmCb} (h : Numbered a.odai a.blkList) {smIndex : UInt32}
    {r : Option Nat × AsmCb} (hr : a.assignFree smIndex = some r) : Assigned a smIndex r := by
  simp only [AsmCb.assignFree] at hr
  cases hfind : a.blkList.findIdx? (!·.active) with
  | none => simp [hfind] at hr
  | some k =>
    obtain ⟨hk, hfree, hbefore⟩ := List.findIdx?_eq_some_iff_getElem.mp hfind
    have hslot : a.blkList[k]? = some a.blkList[k] := List.getElem?_eq_getElem hk
    have hold : ∀ old, a.blkList[k]? = some old → old.active = false := by
      intro old hold
      rw [hslot] at hold
      cases hold
      simpa using hfree
    have hzero : a.lfsid k = Lfsid.zero := by
      rw [AsmCb.lfsid, List.getD_eq_getElem?_getD, hslot]
      exact h.zero_of_not_active hslot (hold _ hslot)
    -- the slot in use, before it is numbered
    let lf : Lfsid := ⟨true, smIndex.toUInt16, a.odai, 0, 0⟩
    have hset (l : Lfsid) : (a.blkList.set k l)[k]? = some l := List.getElem?_set_self hk
    have hpass := @Numbered.sidhPass_first _ _ h k hk (fun j l hj hl => by
      obtain ⟨hjlen, rfl⟩ := List.getElem?_eq_some_iff.mp hl
      simpa using hbefore j hj) lf rfl
    rw [hfind] at hr
    have hlf : { Lfsid.zero with active := true, smIndex := smIndex.toUInt16, odai := a.odai } = lf :=
      rfl
    simp only [hzero, hlf] at hr
    by_cases h254 : k < 254
    · rw [if_pos h254] at hpass
      obtain ⟨d, hd, hsome⟩ := hpass
      obtain ⟨e, he⟩ := sidlPass_isSome sidlStart (a.blkList.set k lf)
      have hlf : AsmCb.lfsid { a with blkList := a.blkList.set k lf } k = lf := by
        rw [AsmCb.lfsid, List.getD_eq_getElem?_getD, hset lf, Option.getD_some]
      simp only [AsmCb.setSidhl, hsome, he, hlf, List.set_set] at hr
      obtain rfl := Option.some.inj hr
      refine ⟨rfl, rfl, h.set (Or.inr ⟨rfl, rfl, by rw [if_pos h254]; exact hd⟩), set_keeps hold _, ?_⟩
      rintro _ ⟨⟩
      exact ⟨h254, hold, _, hset _, rfl, rfl⟩
    · rw [if_neg h254] at hpass
      simp only [AsmCb.setSidhl, hpass] at hr
      obtain rfl := Option.some.inj hr
      exact ⟨rfl, rfl, h.set (Or.inr ⟨rfl, rfl, by rw [if_neg h254]; rfl⟩), set_keeps hold _,
        fun _ hn => by cases hn⟩

theorem assignLfsid_spec {a : AsmCb} (h : Numbered a.odai a.blkList) (smIndex : UInt32) (alloc : Bool) :
    Assigned a smIndex (a.assignLfsid smIndex alloc) := by
  unfold AsmCb.assignLfsid
  cases hfree : a.assignFree smIndex with
  | some r => exact assignFree_spec h hfree
  | none =>
    have hsame : Assigned a smIndex (none, a) :=
      ⟨rfl, rfl, h, fun _ _ hk _ => hk, fun _ hn => by cases hn⟩
    by_cases halloc : alloc = true
    · simp only [halloc, ↓reduceIte]
      have hkept : ∀ (k : Nat) (lf : Lfsid), a.blkList[k]? = some lf → a.addBlock.blkList[k]? = some lf := by
        intro k lf hk
        rw [AsmCb.addBlock, List.getElem?_append_left (List.getElem?_eq_some_iff.mp hk).1, hk]
      have hnum : Numbered a.addBlock.odai a.addBlock.blkList := h.append_zero 256
      cases hadd : a.addBlock.assignFree smIndex with
      | none => exact ⟨rfl, rfl, hnum, fun k lf hk _ => hkept k lf hk, fun _ hn => by cases hn⟩
      | some r =>
        have hr := assignFree_spec hnum hadd
        exact ⟨hr.index, hr.odai, hr.numbered, fun k lf hk hactive => hr.kept k lf (hkept k lf hk) hactive,
          fun k hk => ⟨(hr.given k hk).1, fun old hold => (hr.given k hk).2.1 old (hkept k old hold),
            (hr.given k hk).2.2⟩⟩
    · simp only [halloc, Bool.false_eq_true, ↓reduceIte]
      exact hsame

theorem freeLfsid_spec (a : AsmCb) (smIndex : UInt32) (lf : Lfsid) :
    (a.freeLfsid smIndex lf = (-AsmCb.enoent, a) ∧
      ∀ l ∈ a.blkList, AsmCb.matchesLfsid l smIndex lf = false) ∨
    ∃ (k : Nat) (l : Lfsid), a.blkList[k]? = some l ∧ AsmCb.matchesLfsid l smIndex lf = true ∧
      a.freeLfsid smIndex lf = (0, { a with blkList := a.blkList.set k Lfsid.zero }) := by
  unfold AsmCb.freeLfsid
  cases hfind : a.blkList.findIdx? (AsmCb.matchesLfsid · smIndex lf) with
  | none => exact Or.inl ⟨rfl, List.findIdx?_eq_none_iff.mp hfind⟩
  | some k =>
    obtain ⟨hk, hm, -⟩ := List.findIdx?_eq_some_iff_getElem.mp hfind
    exact Or.inr ⟨k, _, List.getElem?_eq_getElem hk, hm, rfl⟩

/-! ## Operations on one address space of the list -/

section OnSpace

variable {α : Type} {f : AsmCb → α × AsmCb} (hf : ∀ a, (f a).2.index = a.index)

include hf

theorem onSpace_self {index : UInt32} : ∀ {l : List AsmCb} {a : AsmCb}, getByIndex l index = some a →
    ∃ l', onSpace f index l = some ((f a).1, l') ∧ getByIndex l' index = some (f a).2
  | [], a, h => by simp [getByIndex] at h
  | b :: l, a, h => by
    by_cases hb : b.index = index
    · obtain rfl : b = a := by simpa [getByIndex, hb] using h
      exact ⟨(f b).2 :: l, by simp [onSpace, hb], by simp [getByIndex, hf, hb]⟩
    · obtain ⟨l', hl, ha⟩ := onSpace_self (l := l) (a := a) (by simpa [getByIndex, hb] using h)
      exact ⟨b :: l', by simp [onSpace, hb, hl], by simpa [getByIndex, hb] using ha⟩

theorem onSpace_ne {pcIndex index : UInt32} (hne : pcIndex ≠ index) : ∀ {l : List AsmCb} {r : α × List AsmCb},
    onSpace f pcIndex l = some r → getByIndex r.2 index = getByIndex l index
  | [], r, h => by simp [onSpace] at h
  | b :: l, r, h => by
    by_cases hb : b.index = pcIndex
    · obtain rfl : _ = r := by simpa [onSpace, hb] using h
      have hi : ¬ b.index = index := by rwa [hb]
      simp [getByIndex, hf, hi]
    · simp only [onSpace, hb, ↓reduceIte] at h
      obtain ⟨q, hq, rfl⟩ := Option.map_eq_some_iff.mp h
      have := onSpace_ne hne hq
      by_cases hi : b.index = index
      · simp [getByIndex, hi]
      · simpa [getByIndex, hi] using this

end OnSpace

theorem assignFree_index {a : AsmCb} {smIndex : UInt32} {r : Option Nat × AsmCb}
    (h : a.assignFree smIndex = some r) : r.2.index = a.index := by
  unfold AsmCb.assignFree at h
  split at h
  · cases h
  · rename_i k _
    dsimp only at h
    unfold AsmCb.setSidhl at h
    split at h <;> rename_i hs <;> obtain rfl := Option.some.inj h
    · rfl
    · split at hs
      · cases hs
      · split at hs
        · cases hs
        · obtain rfl := Option.some.inj hs
          rfl

theorem assignLfsid_index (smIndex : UInt32) (alloc : Bool) (a : AsmCb) :
    (a.assignLfsid smIndex alloc).2.index = a.index := by
  unfold AsmCb.assignLfsid
  split
  · rename_i r hr
    exact assignFree_index hr
  · split
    · cases hr : a.addBlock.assignFree smIndex with
      | none => rfl
      | some r =>
        have := assignFree_index hr
        exact this
    · rfl

theorem freeLfsid_index (smIndex : UInt32) (lf : Lfsid) (a : AsmCb) :
    (a.freeLfsid smIndex lf).2.index = a.index := by
  rcases freeLfsid_spec a smIndex lf with ⟨h, -⟩ | ⟨k, l, -, -, h⟩ <;> rw [h]

/-! ## Runs -/

/-- An LFSID that was given out, and the session index it was assigned for. -/
structure Held where
  smIndex : UInt32
  lfsid : Lfsid
  deriving DecidableEq

/-- The address spaces, and the LFSIDs of one of them that `sna_asm_assign_lfsid`
returned and `sna_asm_free_lfsid` has not freed. -/
structure World where
  asmList : List AsmCb
  held : List Held
  deriving DecidableEq

inductive Event where
  | assign (pcIndex smIndex : UInt32) (alloc : Bool)
  | free (pcIndex smIndex : UInt32) (lf : Lfsid)

/-- Two LFSIDs are the same on the link. -/
def Lfsid.sameAddress (lf lf' : Lfsid) : Prop :=
  lf.odai = lf'.odai ∧ lf.sidh = lf'.sidh ∧ lf.sidl = lf'.sidl

instance (lf lf' : Lfsid) : Decidable (lf.sameAddress lf') := inferInstanceAs (Decidable (_ ∧ _ ∧ _))

/-- A call, with what it means for the LFSIDs of the address space `index`. -/
def World.step (index : UInt32) (w : World) : Event → Option World
  | .assign pcIndex smIndex alloc =>
    let r := assignLfsid w.asmList pcIndex smIndex alloc
    match r.1, getByIndex r.2 pcIndex with
    | some k, some a =>
      some ⟨r.2, if pcIndex = index then w.held ++ [⟨smIndex, a.lfsid k⟩] else w.held⟩
    | _, _ => some ⟨r.2, w.held⟩
  | .free pcIndex smIndex lf =>
    let r := freeLfsid w.asmList pcIndex smIndex lf
    some ⟨r.2, if pcIndex = index ∧ r.1 = 0 then w.held.filter (¬ ·.lfsid.sameAddress lf) else w.held⟩

/-- The address space is numbered, and the LFSIDs given out are in it, in use
and with different numbers. -/
structure Consistent (a : AsmCb) (held : List Held) : Prop where
  numbered : Numbered a.odai a.blkList
  inUse (e : Held) : e ∈ held → ∃ k < 254, a.blkList[k]? = some e.lfsid ∧ e.lfsid.active = true ∧
    e.lfsid.smIndex = e.smIndex.toUInt16
  different : held.Pairwise fun e f => e.lfsid.sidh ≠ f.lfsid.sidh

namespace Consistent

variable {a : AsmCb} {held : List Held}

theorem assign_none (h : Consistent a held) {smIndex : UInt32} {r : Option Nat × AsmCb}
    (hr : Assigned a smIndex r) : Consistent r.2 held where
  numbered := by rw [hr.odai]; exact hr.numbered
  inUse e he := by
    obtain ⟨k, hk, hslot, hactive, hsm⟩ := h.inUse e he
    exact ⟨k, hk, hr.kept k _ hslot hactive, hactive, hsm⟩
  different := h.different

theorem assign_some (h : Consistent a held) {smIndex : UInt32} {r : Option Nat × AsmCb}
    (hr : Assigned a smIndex r) {k : Nat} (hk : r.1 = some k) :
    Consistent r.2 (held ++ [⟨smIndex, r.2.lfsid k⟩]) := by
  obtain ⟨h254, hold, lf, hslot, hactive, hsm⟩ := hr.given k hk
  have hlf : r.2.lfsid k = lf := by
    rw [AsmCb.lfsid, List.getD_eq_getElem?_getD, hslot, Option.getD_some]
  have hnone := h.assign_none hr
  refine ⟨hnone.numbered, fun e he => ?_, List.pairwise_append.mpr
    ⟨h.different, List.pairwise_singleton _ _, fun e he f hf => ?_⟩⟩
  · rcases List.mem_append.mp he with he | he
    · exact hnone.inUse e he
    · obtain rfl := List.mem_singleton.mp he
      exact ⟨k, h254, by rw [hlf, hslot], by rw [hlf, hactive], by rw [hlf, hsm]⟩
  · -- a slot that was in use has another number than the one given out
    obtain rfl := List.mem_singleton.mp hf
    obtain ⟨j, hj, hjslot, hjactive, -⟩ := h.inUse e he
    have hjk : j ≠ k := by
      rintro rfl
      rw [hold _ hjslot] at hjactive
      cases hjactive
    have h₁ := h.numbered.sidh hjslot hjactive
    have h₂ := hr.numbered.sidh hslot hactive
    rw [if_pos hj] at h₁
    rw [if_pos h254] at h₂
    simp only [hlf]
    intro heq
    rw [heq, h₂] at h₁
    omega

theorem free (h : Consistent a held) {smIndex : UInt32} {lf l : Lfsid} {k : Nat}
    (hslot : a.blkList[k]? = some l) (hm : AsmCb.matchesLfsid l smIndex lf = true) :
    Consistent { a with blkList := a.blkList.set k Lfsid.zero }
      (held.filter (¬ ·.lfsid.sameAddress lf)) := by
  refine ⟨h.numbered.set (Or.inl rfl), fun e he => ?_, h.different.filter _⟩
  obtain ⟨he, haddr⟩ := List.mem_filter.mp he
  obtain ⟨j, hj, hjslot, hactive, hsm⟩ := h.inUse e he
  refine ⟨j, hj, ?_, hactive, hsm⟩
  rw [List.getElem?_set_ne, hjslot]
  rintro rfl
  rw [hslot] at hjslot
  obtain rfl := Option.some.inj hjslot
  simp only [AsmCb.matchesLfsid, Bool.and_eq_true, decide_eq_true_eq] at hm
  simp [Lfsid.sameAddress, hm] at haddr

/-- Those given out are pairwise different on the link. -/
theorem pairwise_ne (h : Consistent a held) :
    held.Pairwise fun e f => ¬ e.lfsid.sameAddress f.lfsid :=
  h.different.imp fun hne hsame => hne hsame.2.1

/-- `sna_asm_free_lfsid` finds an LFSID given out if its index fits into the
16 bits it is kept in. -/
theorem freeLfsid_eq_zero_iff (h : Consistent a held) {e : Held} (he : e ∈ held) :
    (a.freeLfsid e.smIndex e.lfsid).1 = 0 ↔ e.smIndex.toNat < 2 ^ 16 := by
  obtain ⟨k, -, hslot, hactive, hsm⟩ := h.inUse e he
  have hfits : e.smIndex.toUInt16.toUInt32 = e.smIndex ↔ e.smIndex.toNat < 2 ^ 16 := by
    rw [← UInt32.toNat_inj, UInt16.toNat_toUInt32, UInt32.toNat_toUInt16]
    omega
  constructor
  · intro hzero
    rcases freeLfsid_spec a e.smIndex e.lfsid with ⟨hr, -⟩ | ⟨j, l, -, hm, -⟩
    · rw [hr] at hzero
      cases hzero
    · simp only [AsmCb.matchesLfsid, Bool.and_eq_true, decide_eq_true_eq] at hm
      have := l.smIndex.toNat_lt
      rw [← hm.1.1.1.2, UInt16.toNat_toUInt32]
      exact this
  · intro hlt
    rcases freeLfsid_spec a e.smIndex e.lfsid with ⟨-, hnone⟩ | ⟨j, l, -, -, hr⟩
    · have := hnone _ (List.mem_of_getElem? hslot)
      simp [AsmCb.matchesLfsid, hactive, hsm, hfits.mpr hlt] at this
    · rw [hr]

end Consistent

/-- The world holds the address space `index`, consistent with what was given out. -/
def World.Ok (index : UInt32) (w : World) : Prop :=
  ∃ a, getByIndex w.asmList index = some a ∧ Consistent a w.held

theorem step_ok {index : UInt32} {w w' : World} {e : Event} (hw : w.Ok index)
    (h : w.step index e = some w') : w'.Ok index := by
  obtain ⟨a, ha, hc⟩ := hw
  rcases e with ⟨pcIndex, smIndex, alloc⟩ | ⟨pcIndex, smIndex, lf⟩
  · by_cases hpc : pcIndex = index
    · subst hpc
      obtain ⟨l', hl, hget⟩ := onSpace_self (assignLfsid_index smIndex alloc) ha
      have hspec := assignLfsid_spec hc.numbered smIndex alloc
      simp only [World.step, assignLfsid, hl, Option.getD_some, hget, ↓reduceIte] at h
      cases hk : (a.assignLfsid smIndex alloc).1 with
      | none =>
        rw [hk] at h
        cases h
        exact ⟨_, hget, hc.assign_none hspec⟩
      | some k =>
        rw [hk] at h
        cases h
        exact ⟨_, hget, hc.assign_some hspec hk⟩
    · have hget : getByIndex (assignLfsid w.asmList pcIndex smIndex alloc).2 index = some a := by
        rw [← ha, assignLfsid]
        cases ho : onSpace (·.assignLfsid smIndex alloc) pcIndex w.asmList with
        | none => rfl
        | some r => exact onSpace_ne (assignLfsid_index smIndex alloc) hpc ho
      simp only [World.step, hpc, ↓reduceIte] at h
      split at h <;> cases h <;> exact ⟨a, hget, hc⟩
  · by_cases hpc : pcIndex = index
    · subst hpc
      obtain ⟨l', hl, hget⟩ := onSpace_self (freeLfsid_index smIndex lf) ha
      simp only [World.step, freeLfsid, hl, Option.getD_some, true_and] at h
      obtain rfl := Option.some.inj h
      refine ⟨_, hget, ?_⟩
      rcases freeLfsid_spec a smIndex lf with ⟨hr, -⟩ | ⟨k, l, hslot, hm, hr⟩
      · simpa [hr, AsmCb.enoent] using hc
      · simpa [hr] using hc.free hslot hm
    · have hget : getByIndex (freeLfsid w.asmList pcIndex smIndex lf).2 index = some a := by
        rw [← ha, freeLfsid]
        cases ho : onSpace (·.freeLfsid smIndex lf) pcIndex w.asmList with
        | none => rfl
        | some r => exact onSpace_ne (freeLfsid_index smIndex lf) hpc ho
      simp only [World.step, hpc, false_and, ↓reduceIte] at h
      obtain rfl := Option.some.inj h
      exact ⟨a, hget, hc⟩

/-- From the activation of an address space on, through any assignments and
frees in it and in others: the LFSIDs given out in it and not freed are
pairwise different, and each is found again with the index it was assigned for
exactly if that index has at most 16 bits. -/
theorem lfsid_unique {asmList : List AsmCb} {as : AsmCb} (hactive : (activateAs asmList as).1 = 0)
    {es : List Event} {w : World}
    (h : run (World.step as.index) ⟨(activateAs asmList as).2, []⟩ es = some w) :
    (w.held.Pairwise fun e f => ¬ e.lfsid.sameAddress f.lfsid) ∧
      ∀ e ∈ w.held, (freeLfsid w.asmList as.index e.smIndex e.lfsid).1 = 0 ↔
        e.smIndex.toNat < 2 ^ 16 := by
  have hstart : World.Ok as.index ⟨(activateAs asmList as).2, []⟩ := by
    unfold activateAs at hactive ⊢
    cases hg : getByIndex asmList as.index with
    | some a => simp [hg, AsmCb.eexist] at hactive
    | none =>
      refine ⟨{ as with blkList := [] }, ?_, numbered_nil _, fun e he => absurd he List.not_mem_nil,
        List.Pairwise.nil⟩
      rw [getByIndex, List.find?_append, ← getByIndex, hg]
      simp
  obtain ⟨a, ha, hc⟩ := run_invariant' (fun w e w' => step_ok) hstart h
  refine ⟨hc.pairwise_ne, fun e he => ?_⟩
  obtain ⟨l', hl, -⟩ := onSpace_self (freeLfsid_index e.smIndex e.lfsid) ha
  rw [freeLfsid, hl, Option.getD_some]
  exact hc.freeLfsid_eq_zero_iff he

/-- Two sessions get LFSIDs in a new address space. -/
theorem lfsid_unique_two :
    let lf₁ : Lfsid := ⟨true, 1, 0, 1, 1⟩
    let lf₂ : Lfsid := ⟨true, 2, 0, 2, 1⟩
    let a : AsmCb := ⟨7, 0, 1, lf₁ :: lf₂ :: List.replicate 254 Lfsid.zero⟩
    let w : World := ⟨[a], [⟨1, lf₁⟩, ⟨2, lf₂⟩]⟩
    (w.held.Pairwise fun e f => ¬ e.lfsid.sameAddress f.lfsid) ∧
      ∀ e ∈ w.held, (freeLfsid w.asmList 7 e.smIndex e.lfsid).1 = 0 ↔ e.smIndex.toNat < 2 ^ 16 :=
  @lfsid_unique [] ⟨7, 0, 0, []⟩ (by decide) [.assign 7 1 true, .assign 7 2 true] _
    (by decide +kernel)

/-- The LFSID assigned for the session 65536 is not found with that index. -/
theorem lfsid_not_found :
    let lf : Lfsid := ⟨true, 0, 0, 1, 1⟩
    let a : AsmCb := ⟨7, 0, 1, lf :: List.replicate 255 Lfsid.zero⟩
    let w : World := ⟨[a], [⟨65536, lf⟩]⟩
    run (World.step 7) ⟨(activateAs [] ⟨7, 0, 0, []⟩).2, []⟩ [.assign 7 65536 true] = some w ∧
      (freeLfsid w.asmList 7 65536 lf).1 = -AsmCb.enoent := by
  decide +kernel

end LinuxSna.Asm
