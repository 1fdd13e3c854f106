import LinuxSna.Proof.Sna.Lfsid

/-!
# Address spaces and links

Every link has an address space of its own, but an MU that is received is looked
up in all of them, by an address that all of them give out.

* `lookup_isSome`: an address that some slot carries is found, in whatever space;
* `spaces_inv`: what the operations keep of every address space;
* `isolated_iff`: the links are kept apart while there is one address space, or
  none has any LFSIDs.
-/

namespace LinuxSna.Asm

open Framework

/-- The address spaces, and for each the LFSIDs given out in it. -/
structure Spaces where
  asmList : List AsmCb
  held : UInt32 → List Held

namespace Spaces

/-- One address space and what was given out in it. -/
def world (s : Spaces) (index : UInt32) : World := ⟨s.asmList, s.held index⟩

end Spaces

/-- What happens to the address spaces: links come and go, and LFSIDs are
assigned and freed. -/
inductive SpaceEvent where
  | activate (as : AsmCb)
  | deactivate (index : UInt32)
  | call (e : Event)

/-- The address spaces after a call. -/
def afterCall (asmList : List AsmCb) : Event → List AsmCb
  | .assign pcIndex smIndex alloc => (assignLfsid asmList pcIndex smIndex alloc).2
  | .free pcIndex smIndex lf => (freeLfsid asmList pcIndex smIndex lf).2

/-- A new address space has not given out anything. -/
def Spaces.step (s : Spaces) : SpaceEvent → Option Spaces
  | .activate as =>
    let r := activateAs s.asmList as
    some ⟨r.2, if r.1 = 0 then Function.update s.held as.index [] else s.held⟩
  | .deactivate index => some ⟨(deactivateAs s.asmList index).2, s.held⟩
  | .call e =>
    some ⟨afterCall s.asmList e,
      fun index => ((s.world index).step index e).elim [] World.held⟩

/-- No address space is active. -/
def Spaces.start : Spaces := ⟨[], fun _ => []⟩

/-- An MU received on a path control instance finds the LFSID that its address
space gave out, in use, and none of another one's; and an LFSID leads to the
address space that it is in. -/
structure Isolated (s : Spaces) : Prop where
  own : ∀ p ∈ s.asmList, ∀ e ∈ s.held p.index, ∃ k,
    rxMuMapLfsid s.asmList e.lfsid.odai e.lfsid.sidh e.lfsid.sidl = some (p, k) ∧
      (p.lfsid k).active = true
  foreign : ∀ p ∈ s.asmList, ∀ odai sidh sidl a k,
    rxMuMapLfsid s.asmList odai sidh sidl = some (a, k) → a.index = p.index
  space : ∀ p ∈ s.asmList, ∀ e ∈ s.held p.index, getByLfsid s.asmList e.lfsid = some p

/-! ## Lookups -/

/-- An address that some slot carries is found. -/
theorem lookup_isSome {asmList : List AsmCb} {a : AsmCb} (ha : a ∈ asmList) {l : Lfsid}
    (hl : l ∈ a.blkList) : (lfsidGetBySidhl asmList l.odai l.sidh l.sidl).isSome = true := by
  induction asmList with
  | nil => cases ha
  | cons b bs ih =>
    rw [lfsidGetBySidhl]
    split
    · rfl
    · rename_i hnone
      rcases List.mem_cons.mp ha with rfl | ha
      · have := List.findIdx?_eq_none_iff.mp hnone l hl
        simp at this
      · exact ih ha

theorem lookup_nil {asmList : List AsmCb} (h : ∀ a ∈ asmList, a.blkList = []) {odai sidh sidl : UInt8} :
    lfsidGetBySidhl asmList odai sidh sidl = none := by
  induction asmList with
  | nil => rfl
  | cons b bs ih =>
    rw [lfsidGetBySidhl, h b List.mem_cons_self, List.findIdx?_nil]
    exact ih fun a ha => h a (List.mem_cons_of_mem b ha)

theorem lookup_single {p a : AsmCb} {odai sidh sidl : UInt8} {k : Nat}
    (h : lfsidGetBySidhl [p] odai sidh sidl = some (a, k)) :
    a = p ∧ p.blkList.findIdx? (fun l => l.odai = odai && l.sidh = sidh && l.sidl = sidl) = some k := by
  rw [lfsidGetBySidhl] at h
  split at h
  · rename_i j hj
    cases h
    exact ⟨rfl, hj⟩
  · cases h

/-- The slot found for an LFSID that was given out is in use: the numbers of
those that are not are 0. -/
theorem Consistent.found_active {a : AsmCb} {held : List Held} (h : Consistent a held) {e : Held}
    (he : e ∈ held) {k : Nat}
    (hk : a.blkList.findIdx? (fun l => l.odai = e.lfsid.odai && l.sidh = e.lfsid.sidh &&
      l.sidl = e.lfsid.sidl) = some k) : (a.lfsid k).active = true := by
  obtain ⟨j, hj, hslot, hactive, -⟩ := h.inUse e he
  have hnum := h.numbered.sidh hslot hactive
  rw [if_pos hj] at hnum
  obtain ⟨hlt, hmatch, -⟩ := List.findIdx?_eq_some_iff_getElem.mp hk
  have hget : a.blkList[k]? = some a.blkList[k] := List.getElem?_eq_getElem hlt
  rw [AsmCb.lfsid, List.getD_eq_getElem?_getD, hget, Option.getD_some]
  rcases h.numbered k _ hget with hz | ⟨hact, -⟩
  · simp only [Bool.and_eq_true, decide_eq_true_eq] at hmatch
    have hsidh := hmatch.1.2
    rw [hz] at hsidh
    rw [← hsidh] at hnum
    cases hnum
  · exact hact

/-! ## Runs -/

/-- The address spaces have different indices, and each is consistent with what
was given out in it. -/
structure SpacesInv (s : Spaces) : Prop where
  nodup : (s.asmList.map (·.index)).Nodup
  consistent : ∀ a ∈ s.asmList, Consistent a (s.held a.index)

theorem getByIndex_eq_none {asmList : List AsmCb} {index : UInt32} :
    getByIndex asmList index = none ↔ index ∉ asmList.map (·.index) := by
  simp [getByIndex]

theorem getByIndex_of_mem {asmList : List AsmCb} (h : (asmList.map (·.index)).Nodup) {a : AsmCb}
    (ha : a ∈ asmList) : getByIndex asmList a.index = some a := by
  induction asmList with
  | nil => cases ha
  | cons b bs ih =>
    rw [List.map_cons, List.nodup_cons] at h
    rcases List.mem_cons.mp ha with rfl | ha
    · simp [getByIndex]
    · have hne : ¬ b.index = a.index := fun heq => h.1 (heq ▸ List.mem_map_of_mem ha)
      simpa [getByIndex, hne] using ih h.2 ha

theorem onSpace_indices {α : Type} {f : AsmCb → α × AsmCb} (hf : ∀ a, (f a).2.index = a.index)
    {index : UInt32} {l : List AsmCb} {r : α × List AsmCb} (h : onSpace f index l = some r) :
    r.2.map (·.index) = l.map (·.index) := by
  induction l generalizing r with
  | nil => cases h
  | cons b bs ih =>
    rw [onSpace] at h
    split at h
    · cases h
      rw [List.map_cons, List.map_cons, hf]
    · obtain ⟨q, hq, rfl⟩ := Option.map_eq_some_iff.mp h
      rw [List.map_cons, List.map_cons, ih hq]

/-- A call keeps the address spaces that there are. -/
theorem afterCall_indices (asmList : List AsmCb) (e : Event) :
    (afterCall asmList e).map (·.index) = asmList.map (·.index) := by
  cases e with
  | assign pcIndex smIndex alloc =>
    rw [afterCall, assignLfsid]
    cases h : onSpace (·.assignLfsid smIndex alloc) pcIndex asmList with
    | none => rfl
    | some r => exact onSpace_indices (assignLfsid_index smIndex alloc) h
  | free pcIndex smIndex lf =>
    rw [afterCall, freeLfsid]
    cases h : onSpace (·.freeLfsid smIndex lf) pcIndex asmList with
    | none => rfl
    | some r => exact onSpace_indices (freeLfsid_index smIndex lf) h

theorem world_step (w : World) (index : UInt32) (e : Event) :
    ∃ held, w.step index e = some ⟨afterCall w.asmList e, held⟩ := by
  cases e with
  | assign pcIndex smIndex alloc =>
    rw [World.step]
    split <;> exact ⟨_, rfl⟩
  | free pcIndex smIndex lf => exact ⟨_, rfl⟩

theorem inv_activate {s : Spaces} (h : SpacesInv s) (as : AsmCb) {s' : Spaces}
    (hs : s.step (.activate as) = some s') : SpacesInv s' := by
  cases hs
  cases hg : getByIndex s.asmList as.index with
  | some a =>
    have hr : activateAs s.asmList as = (-AsmCb.eexist, s.asmList) := by rw [activateAs, hg]
    rw [hr, if_neg (show (-AsmCb.eexist : Int) ≠ 0 by decide)]
    exact h
  | none =>
    have hr : activateAs s.asmList as = (0, s.asmList ++ [{ as with blkList := [] }]) := by
      rw [activateAs, hg]
    have hnew := getByIndex_eq_none.mp hg
    rw [hr, if_pos rfl]
    refine ⟨?_, fun a ha => ?_⟩
    · rw [List.map_append, List.nodup_append]
      refine ⟨h.nodup, List.pairwise_singleton _ _, fun i hi j hj heq => hnew ?_⟩
      obtain rfl := List.mem_singleton.mp hj
      rwa [heq] at hi
    · show Consistent a (Function.update s.held as.index [] a.index)
      rcases List.mem_append.mp ha with ha | ha
      · have hne : a.index ≠ as.index := fun heq => hnew (heq ▸ List.mem_map_of_mem ha)
        rw [Function.update_of_ne hne]
        exact h.consistent a ha
      · obtain rfl := List.mem_singleton.mp ha
        rw [Function.update_self]
        exact ⟨numbered_nil _, fun e he => absurd he List.not_mem_nil, List.Pairwise.nil⟩

theorem inv_deactivate {s : Spaces} (h : SpacesInv s) (index : UInt32) {s' : Spaces}
    (hs : s.step (.deactivate index) = some s') : SpacesInv s' := by
  cases hs
  have hsub : (deactivateAs s.asmList index).2.Sublist s.asmList := by
    rw [deactivateAs]
    split
    · exact List.eraseP_sublist
    · exact List.Sublist.refl _
  exact ⟨h.nodup.sublist (hsub.map _), fun a ha => h.consistent a (hsub.subset ha)⟩

theorem inv_call {s : Spaces} (h : SpacesInv s) (e : Event) {s' : Spaces}
    (hs : s.step (.call e) = some s') : SpacesInv s' := by
  cases hs
  have hidx := afterCall_indices s.asmList e
  have hnodup : ((afterCall s.asmList e).map (·.index)).Nodup := by rw [hidx]; exact h.nodup
  refine ⟨hnodup, fun a' ha' => ?_⟩
  -- the address space as it was before the call
  have hmem : a'.index ∈ s.asmList.map (·.index) := hidx ▸ List.mem_map_of_mem ha'
  obtain ⟨a, ha, heq⟩ := List.mem_map.mp hmem
  have hok : (s.world a'.index).Ok a'.index :=
    ⟨a, heq ▸ getByIndex_of_mem h.nodup ha, heq ▸ h.consistent a ha⟩
  obtain ⟨held, hstep⟩ := world_step (s.world a'.index) a'.index e
  obtain ⟨a'', ha'', hc⟩ := step_ok hok hstep
  have hsame : some a'' = some a' := ha''.symm.trans (getByIndex_of_mem hnodup ha')
  cases hsame
  simp only [hstep, Option.elim_some]
  exact hc

theorem spaces_inv {s s' : Spaces} {e : SpaceEvent} (h : SpacesInv s) (hs : s.step e = some s') :
    SpacesInv s' := by
  cases e with
  | activate as => exact inv_activate h as hs
  | deactivate index => exact inv_deactivate h index hs
  | call e => exact inv_call h e hs

/-! ## The links -/

theorem isolated_single {p : AsmCb} {held : UInt32 → List Held} (h : SpacesInv ⟨[p], held⟩) :
    Isolated ⟨[p], held⟩ := by
  have hc : Consistent p (held p.index) := h.consistent p List.mem_cons_self
  refine ⟨fun q hq e he => ?_, fun q hq odai sidh sidl a k hk => ?_, fun q hq e he => ?_⟩
  · obtain rfl := List.mem_singleton.mp hq
    obtain ⟨j, -, hslot, -⟩ := hc.inUse e he
    have hsome : (lfsidGetBySidhl [q] e.lfsid.odai e.lfsid.sidh e.lfsid.sidl).isSome = true :=
      lookup_isSome List.mem_cons_self (List.mem_of_getElem? hslot)
    obtain ⟨⟨a, k⟩, hk⟩ := Option.isSome_iff_exists.mp hsome
    obtain ⟨rfl, hfind⟩ := lookup_single hk
    exact ⟨k, hk, hc.found_active he hfind⟩
  · rw [List.mem_singleton.mp hq, (lookup_single hk).1]
  · obtain rfl := List.mem_singleton.mp hq
    obtain ⟨j, -, hslot, -⟩ := hc.inUse e he
    have hany : q.blkList.any (fun l => l.odai = e.lfsid.odai && l.sidh = l.sidh && l.sidl = l.sidl) :=
      List.any_eq_true.mpr ⟨e.lfsid, List.mem_of_getElem? hslot, by simp⟩
    rw [getByLfsid]
    exact List.find?_cons_of_pos hany

theorem isolated_empty {s : Spaces} (h : SpacesInv s) (hb : ∀ a ∈ s.asmList, a.blkList = []) :
    Isolated s := by
  have hheld : ∀ p ∈ s.asmList, ∀ e, e ∉ s.held p.index := by
    intro p hp e he
    obtain ⟨k, -, hslot, -⟩ := (h.consistent p hp).inUse e he
    rw [hb p hp] at hslot
    cases hslot
  refine ⟨fun p hp e he => absurd he (hheld p hp e), fun p hp odai sidh sidl a k hk => ?_,
    fun p hp e he => absurd he (hheld p hp e)⟩
  rw [rxMuMapLfsid, lookup_nil hb] at hk
  cases hk

/-- What carries the address of a slot leads to one address space, on whatever
link it comes. -/
theorem not_isolated {s : Spaces} {p q a : AsmCb} (hp : p ∈ s.asmList) (hq : q ∈ s.asmList)
    (hne : p.index ≠ q.index) (ha : a ∈ s.asmList) {l : Lfsid} (hl : l ∈ a.blkList) :
    ¬ Isolated s := by
  intro h
  obtain ⟨⟨b, k⟩, hk⟩ := Option.isSome_iff_exists.mp (lookup_isSome ha hl)
  exact hne ((h.foreign p hp _ _ _ b k hk).symm.trans (h.foreign q hq _ _ _ b k hk))

theorem isolated_iff_of_inv {s : Spaces} (h : SpacesInv s) :
    Isolated s ↔ s.asmList.length ≤ 1 ∨ ∀ a ∈ s.asmList, a.blkList = [] := by
  obtain ⟨asmList, held⟩ := s
  constructor
  · intro hi
    match asmList with
    | [] => exact .inl (Nat.zero_le 1)
    | [_] => exact .inl (Nat.le_refl 1)
    | p :: q :: rest =>
      refine .inr fun a ha => ?_
      by_contra hb
      obtain ⟨l, ls, hcons⟩ := List.exists_cons_of_ne_nil hb
      have hne : p.index ≠ q.index := by
        have := h.nodup
        simp only [List.map_cons, List.nodup_cons, List.mem_cons, not_or] at this
        exact this.1.1
      exact not_isolated (by simp) (by simp) hne ha (hcons ▸ List.mem_cons_self) hi
  · rintro (hlen | hb)
    · match asmList, h, hlen with
      | [], h, _ => exact isolated_empty h (by simp)
      | [p], h, _ => exact isolated_single h
    · exact isolated_empty h hb

theorem run_inv {es : List SpaceEvent} {s : Spaces} (h : run Spaces.step .start es = some s) :
    SpacesInv s := by
  have hstart : SpacesInv .start := ⟨List.nodup_nil, fun a ha => absurd ha List.not_mem_nil⟩
  exact run_invariant' (fun _ _ _ hi hs => spaces_inv hi hs) hstart h

/-- Whatever links come and go and LFSIDs are assigned and freed, the links are
kept apart exactly while at most one address space is active or none has a block
of LFSIDs. -/
theorem isolated_iff {es : List SpaceEvent} {s : Spaces} (h : run Spaces.step .start es = some s) :
    Isolated s ↔ s.asmList.length ≤ 1 ∨ ∀ a ∈ s.asmList, a.blkList = [] :=
  isolated_iff_of_inv (run_inv h)

/-- An address space without LFSIDs. -/
def linkSpace (index : UInt32) : AsmCb := ⟨index, 0, 0, []⟩

/-- A session over one link. -/
def oneLink : List SpaceEvent := [.activate (linkSpace 1), .call (.assign 1 7 true)]

/-- A session over one of two links. -/
def twoLinks : List SpaceEvent :=
  [.activate (linkSpace 1), .activate (linkSpace 2), .call (.assign 1 7 true)]

theorem isolated_one_link : ∃ s, run Spaces.step .start oneLink = some s ∧ Isolated s := by
  refine ⟨_, rfl, ?_⟩
  rw [@isolated_iff oneLink _ rfl]
  exact .inl (by decide)

/-- What is received over the second link finds the LFSID of the first. -/
theorem isolated_two_links : ¬ ∀ es s, run Spaces.step .start es = some s → Isolated s := by
  intro h
  have hrun : run Spaces.step .start twoLinks = some _ := rfl
  have hi := (isolated_iff_of_inv (run_inv hrun)).mp (h twoLinks _ hrun)
  revert hi
  decide +kernel

end LinuxSna.Asm
