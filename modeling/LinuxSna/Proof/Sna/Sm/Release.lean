import LinuxSna.Proof.Sna.Sm.Progress

/-!
# What a failed activation leaves behind

A session takes an entry in the list, a count in its mode, an LFSID and a
half-session, one after the other. The state machine puts it back into RES when
its activation fails; nothing else is given back.

* `assignLfsid_inUse`, `deactivateAs_inUse`: how many LFSIDs are in use after an
  assignment, and after a link has gone down;
* `Kept.of_step`, `Lost.of_step`: what a step without a failure keeps, and a failure
  loses;
* `released_iff`: nothing is left behind in a run exactly if nothing fails in it.
-/

namespace LinuxSna.Asm

variable {a a' : AsmCb} {k : ℕ} {smIndex index : UInt32} {asmList asmList' : List AsmCb}

/-- An LFSID is replaced. -/
theorem countP_set_active {slots : List Lfsid} {lf : Lfsid} (h : slots[k]? = some lf) (lf' : Lfsid) :
    (slots.set k lf').countP (·.active) + lf.active.toNat =
      slots.countP (·.active) + lf'.active.toNat := by
  induction slots generalizing k with
  | nil => simp at h
  | cons x slots ih =>
    cases k with
    | zero =>
      obtain rfl : x = lf := by simpa using h
      rw [List.set_cons_zero, List.countP_cons, List.countP_cons]
      cases x.active <;> cases lf'.active <;> simp
    | succ k =>
      have := ih (show slots[k]? = some lf by simpa using h)
      rw [List.set_cons_succ, List.countP_cons, List.countP_cons]
      omega

theorem setSidhl_inUse (h : a.setSidhl k = some a') : a'.inUse = a.inUse := by
  unfold AsmCb.setSidhl at h
  split at h
  · exact absurd h nofun
  · split at h
    · exact absurd h nofun
    · cases h
      by_cases hk : k < a.blkList.length
      · have hlf : a.blkList[k]? = some (a.lfsid k) := by
          simp [AsmCb.lfsid, List.getElem?_eq_getElem hk]
        exact Nat.add_right_cancel (countP_set_active hlf _)
      · rw [AsmCb.inUse, List.set_eq_of_length_le (not_lt.mp hk)]
        rfl

theorem assignFree_inUse (h : a.assignFree smIndex = some (some k, a')) :
    a'.inUse = a.inUse + 1 := by
  unfold AsmCb.assignFree at h
  cases hf : a.blkList.findIdx? (!·.active) with
  | none => simp [hf] at h
  | some j =>
    simp only [hf] at h
    split at h
    · exact absurd h nofun
    · rename_i b hb
      cases h
      obtain ⟨hj, hact, -⟩ := List.findIdx?_eq_some_iff_getElem.mp hf
      rw [setSidhl_inUse hb]
      have hset := countP_set_active (List.getElem?_eq_getElem hj)
        { a.lfsid k with active := true, smIndex := smIndex.toUInt16, odai := a.odai }
      rw [Bool.not_eq_true' _ |>.mp hact] at hset
      exact hset

theorem inUse_addBlock : a.addBlock.inUse = a.inUse := by
  have hz : (List.replicate 256 Lfsid.zero).countP (·.active) = 0 := by
    apply List.countP_eq_zero.mpr
    intro lf hlf
    rw [List.eq_of_mem_replicate hlf]
    nofun
  rw [AsmCb.inUse, AsmCb.addBlock, List.countP_append, hz]
  rfl

theorem AsmCb.assignLfsid_inUse {alloc : Bool} (h : a.assignLfsid smIndex alloc = (some k, a')) :
    a'.inUse = a.inUse + 1 := by
  unfold AsmCb.assignLfsid at h
  split at h
  · rename_i r hr
    exact assignFree_inUse (h ▸ hr)
  · split at h
    · cases hr : a.addBlock.assignFree smIndex with
      | none => simp [hr] at h
      | some r =>
        rw [hr, Option.getD_some] at h
        rw [assignFree_inUse (h ▸ hr), inUse_addBlock]
    · exact absurd h nofun

theorem onSpace_inUse {α : Type} {f : AsmCb → α × AsmCb} {r : α} {n : ℕ}
    (hf : ∀ a a', f a = (r, a') → a'.inUse = a.inUse + n)
    (h : onSpace f index asmList = some (r, asmList')) : inUse asmList' = inUse asmList + n := by
  induction asmList generalizing asmList' with
  | nil => exact absurd h nofun
  | cons a as ih =>
    rw [onSpace] at h
    split at h
    · cases h
      rw [inUse, List.map_cons, List.sum_cons, hf a _ rfl, inUse, List.map_cons, List.sum_cons]
      omega
    · obtain ⟨⟨r', as'⟩, has, h⟩ := Option.map_eq_some_iff.mp h
      cases h
      have := ih has
      rw [inUse, List.map_cons, List.sum_cons, inUse, List.map_cons, List.sum_cons]
      unfold inUse at this
      simp only at this ⊢
      omega

/-- One more LFSID is in use. -/
theorem assignLfsid_inUse {pcIndex : UInt32} {alloc : Bool}
    (h : assignLfsid asmList pcIndex smIndex alloc = (some k, asmList')) :
    inUse asmList' = inUse asmList + 1 := by
  unfold assignLfsid at h
  cases ho : onSpace (·.assignLfsid smIndex alloc) pcIndex asmList with
  | none => simp [ho] at h
  | some r =>
    rw [ho, Option.getD_some] at h
    exact onSpace_inUse (fun a a' ha => a.assignLfsid_inUse ha) (h ▸ ho)

theorem activateAs_inUse (as : AsmCb) : inUse (activateAs asmList as).2 = inUse asmList := by
  unfold activateAs
  split
  · rfl
  · simp [inUse, AsmCb.inUse]

/-- The LFSIDs of an address space are gone with it. -/
theorem deactivateAs_inUse :
    inUse (deactivateAs asmList index).2 + ((getByIndex asmList index).elim 0 AsmCb.inUse) =
      inUse asmList := by
  unfold deactivateAs
  cases h : getByIndex asmList index with
  | none => rfl
  | some a =>
    induction asmList with
    | nil => exact absurd h nofun
    | cons b as ih =>
      rw [getByIndex, List.find?_cons] at h
      by_cases hb : b.index = index
      · simp only [hb, decide_true, Option.some.injEq] at h
        subst h
        simp [hb, inUse, Nat.add_comm]
      · simp only [hb, decide_false] at h
        have := ih h
        simp only [Option.elim_some, inUse, List.eraseP_cons, hb, decide_false, cond_false,
          List.map_cons, List.sum_cons] at this ⊢
        omega

end LinuxSna.Asm

namespace LinuxSna.Sm

open Framework (find update run Always Along)
open Asm (AsmCb Lfsid)
open Rm (ModeCb RemoteLuCb TpCb Rcb LuCount)

variable {l l' : Lists} {u u' : Lulu} {route : Bool}

/-- The states in which a session has its LFSID and its half-session. -/
def Lulu.hasLfsid (u : Lulu) : Bool :=
  match u.state with
  | .pndBinRsp | .pndIniHsRspPlu | .act => true
  | _ => false

/-- The sessions of a mode that were counted as pending. -/
def Lists.requestedOf (l : Lists) (i : UInt32) : ℕ :=
  l.luluList.countP fun u => u.tpIndex ≠ 0 && u.modeIndex = i

/-- Nothing is left of an activation that has ended without a session: no entry in
the list, no LFSID or half-session, no count in its mode. -/
structure Released (l : Lists) : Prop where
  settled (u : Lulu) : u ∈ l.luluList → l.phase u ≠ .ended
  lfsids : Asm.inUse l.asmList = l.luluList.countP (·.hasLfsid)
  halfSessions : l.hsList.length = l.luluList.countP (·.hasLfsid)
  pending (i : UInt32) (mode : ModeCb) : l.mode i = some mode →
    mode.pending.sessions.toNat ≤ l.requestedOf i

/-- No activation fails once something has been acquired for it, and no link goes
down that has an LFSID in use. -/
def NothingFails (l : Lists) : Event → Prop
  | .allocRcb _ _ _ => True
  | .getSession tpIndex e => ∀ r, requested l tpIndex = some r →
      startRefused r.remoteLu (r.mode.countPending r.type) r.type e = false ∧ e.route = true
  | .startRemoteLu useName e => ∀ mode remoteLu, startLookup l useName = some (mode, remoteLu) →
      startRefused remoteLu mode .fsp e = true ∨ e.route = true
  | .routeDone i pcIndex e => ∀ u, l.lulu i = some u → bindSent l u pcIndex e = true
  | .bindRsp odai daf oaf rsp copied => ∀ u, correlate l odai daf oaf = some u →
      u.state = .pndBinRsp → completes l u rsp copied = true
  | .linkUp _ _ => True
  | .linkDown pcIndex => (Asm.getByIndex l.asmList pcIndex).elim 0 AsmCb.inUse = 0

/-- What steps without a failure keep: every count in a mode has its session. -/
structure Kept (l : Lists) : Prop where
  wf : Wf l
  released : Released l
  pending (i : UInt32) (mode : ModeCb) : l.mode i = some mode →
    mode.pending.sessions.toNat = l.requestedOf i

theorem Initial.kept (h : Initial l) : Kept l := by
  have hp : ∀ i mode, l.mode i = some mode → mode.pending.sessions.toNat = l.requestedOf i := by
    intro i mode hm
    rw [(h.modes i mode hm).2, Lists.requestedOf, h.luluList]
    rfl
  refine ⟨h.wf, ⟨fun u hu => ?_, ?_, ?_, fun i mode hm => (hp i mode hm).le⟩, hp⟩
  · rw [h.luluList] at hu
    exact absurd hu List.not_mem_nil
  · rw [h.inUse, h.luluList]
    rfl
  · rw [h.hsList, h.luluList]
    rfl

/-! ## Starting -/

/-- The modes after a granted request, and the program that made it. -/
theorem pending_mode_countPending {tpIndex i : UInt32} {r : Request} {mode' : ModeCb} (hw : Wf l)
    (h : requested l tpIndex = some r)
    (hm' : (l.countPending r.mode r.remoteLu.index r.type).mode i = some mode') :
    ∃ mode, l.mode i = some mode ∧ mode'.pending.sessions.toNat = mode.pending.sessions.toNat +
      (r.tp.index ≠ 0 && r.mode.index = i : Bool).toNat := by
  obtain ⟨ht, hm, -, -⟩ := requested_spec h
  have hi : r.mode.index = r.tp.modeIndex := Framework.key_of_find hm
  have ht0 : r.tp.index ≠ 0 := by
    intro h0
    exact hw.tp (h0 ▸ List.mem_map_of_mem (Framework.mem_of_find ht))
  rw [mode_countPending_eq _ _ hm] at hm'
  by_cases hj : i = r.tp.modeIndex
  · rw [if_pos hj, Option.some.injEq] at hm'
    subst hm'
    refine ⟨r.mode, hj ▸ hm, ?_⟩
    rw [pending_countPending h]
    simp [ht0, hi, hj]
  · rw [if_neg hj] at hm'
    refine ⟨mode', hm', ?_⟩
    simp [hi, Ne.symm hj]

theorem Starts.requestedOf (h : Starts l l' u route) (i : UInt32) :
    l'.requestedOf i = l.requestedOf i + (u.tpIndex ≠ 0 && u.modeIndex = i : Bool).toNat :=
  h.countP fun _ v => v.tpIndex ≠ 0 && v.modeIndex = i

theorem Starts.hasLfsid (h : Starts l l' u route) :
    l'.luluList.countP (·.hasLfsid) = l.luluList.countP (·.hasLfsid) := by
  have hc := h.countP fun _ v => v.hasLfsid
  rw [show u.hasLfsid = false by rw [Lulu.hasLfsid, h.state]] at hc
  exact hc

theorem Starts.settled (hw : Wf l) (h : Starts l l' u route)
    (hs : ∀ v ∈ l.luluList, l.phase v ≠ .ended) (hr : route = true) :
    ∀ v ∈ l'.luluList, l'.phase v ≠ .ended := by
  intro v hv
  rw [h.luluList] at hv
  rcases List.mem_cons.mp hv with rfl | hv
  · rw [h.phase_new hw, hr]
    nofun
  · rw [h.phase hv]
    exact hs v hv

/-- A session that does not wait for its route is left behind. -/
theorem Starts.not_settled (hw : Wf l) (h : Starts l l' u route) (hr : route = false) :
    ¬ Released l' := by
  intro hR
  apply hR.settled u (h.luluList ▸ List.mem_cons_self)
  rw [h.phase_new hw, hr]
  rfl

/-! ## Moving -/

theorem Moves.requestedOf (hw : Wf l) (h : Moves l l' u u') (i : UInt32) :
    l'.requestedOf i = l.requestedOf i := by
  have hc := h.countP hw fun _ v => v.tpIndex ≠ 0 && v.modeIndex = i
  simp only [h.kin.tpIndex, h.kin.modeIndex] at hc
  exact Nat.add_right_cancel hc

theorem Moves.mem (h : Moves l l' u u') : u' ∈ l'.luluList := by
  have := h.lulu u.index
  rw [if_pos rfl] at this
  exact Framework.mem_of_find this

theorem Moves.settled (h : Moves l l' u u') (hs : ∀ v ∈ l.luluList, l.phase v ≠ .ended)
    (hn : (l.luluList.map (·.index)).Nodup) (hu : l'.phase u' ≠ .ended) :
    ∀ v ∈ l'.luluList, l'.phase v ≠ .ended := by
  intro v hv
  by_cases hi : v.index = u.index
  · have hv' : l'.lulu v.index = some v := by
      refine Framework.find_of_mem ?_ hv
      rw [h.luluList, Framework.map_key_update fun _ _ => h.kin.index]
      exact hn
    rw [h.lulu, if_pos hi, Option.some.injEq] at hv'
    rwa [← hv']
  · rw [h.phase hi]
    rw [h.luluList] at hv
    rcases Framework.mem_update hv with hv | ⟨w, -, rfl⟩
    · exact hs v hv
    · exact absurd h.kin.index hi

theorem Moves.not_settled (h : Moves l l' u u') (hu : l'.phase u' = .ended) : ¬ Released l' :=
  fun hR => hR.settled u' h.mem hu

/-! ## A step without a failure -/

theorem Kept.congr (hk : Kept l) (hw : Wf l') (hl : l'.luluList = l.luluList)
    (hwait : l'.waiting = l.waiting) (hb : l'.bound = l.bound) (hh : l'.hsList.length = l.hsList.length)
    (ha : Asm.inUse l'.asmList = Asm.inUse l.asmList)
    (hm : ∀ i mode', l'.mode i = some mode' → ∃ mode, l.mode i = some mode ∧
      mode'.pending = mode.pending) : Kept l' := by
  have hp : ∀ i mode, l'.mode i = some mode → mode.pending.sessions.toNat = l'.requestedOf i := by
    intro i mode' hm'
    obtain ⟨mode, hmode, he⟩ := hm i mode' hm'
    rw [he, hk.pending i mode hmode, Lists.requestedOf, Lists.requestedOf, hl]
  refine ⟨hw, ⟨fun u hu => ?_, ?_, ?_, fun i mode hm => (hp i mode hm).le⟩, hp⟩
  · have hph : l'.phase u = l.phase u := phase_congr (by rw [hwait]) (by rw [hb])
    rw [hph]
    exact hk.released.settled u (hl ▸ hu)
  · rw [ha, hl, hk.released.lfsids]
  · rw [hh, hl, hk.released.halfSessions]

/-- A session that starts with a route, counted in its mode if a program asked
for it. -/
theorem Kept.of_starts (hk : Kept l) (hw : Wf l') (h : Starts l l' u true)
    (hh : l'.hsList = l.hsList) (ha : l'.asmList = l.asmList)
    (hm : ∀ i mode', l'.mode i = some mode' → ∃ mode, l.mode i = some mode ∧
      mode'.pending.sessions.toNat = mode.pending.sessions.toNat +
        (u.tpIndex ≠ 0 && u.modeIndex = i : Bool).toNat) : Kept l' := by
  have hp : ∀ i mode, l'.mode i = some mode → mode.pending.sessions.toNat = l'.requestedOf i := by
    intro i mode' hm'
    obtain ⟨mode, hmode, he⟩ := hm i mode' hm'
    rw [he, hk.pending i mode hmode, h.requestedOf]
  refine ⟨hw, ⟨h.settled hk.wf hk.released.settled rfl, ?_, ?_, fun i mode hm => (hp i mode hm).le⟩, hp⟩
  · rw [ha, h.hasLfsid, hk.released.lfsids]
  · rw [hh, h.hasLfsid, hk.released.halfSessions]

/-- A session that gets on: with an LFSID and a half-session if it had none. -/
theorem Kept.of_moves (hk : Kept l) (hw : Wf l') (h : Moves l l' u u') (hu : l'.phase u' ≠ .ended)
    {n : ℕ} (hn : u'.hasLfsid.toNat = u.hasLfsid.toNat + n)
    (hh : l'.hsList.length = l.hsList.length + n) (ha : Asm.inUse l'.asmList = Asm.inUse l.asmList + n)
    (hm : ∀ i mode', l'.mode i = some mode' → ∃ mode, l.mode i = some mode ∧
      mode'.pending = mode.pending) : Kept l' := by
  have hp : ∀ i mode, l'.mode i = some mode → mode.pending.sessions.toNat = l'.requestedOf i := by
    intro i mode' hm'
    obtain ⟨mode, hmode, he⟩ := hm i mode' hm'
    rw [he, hk.pending i mode hmode, h.requestedOf hk.wf]
  have hc := h.countP hk.wf fun _ v => v.hasLfsid
  refine ⟨hw, ⟨h.settled hk.released.settled hk.wf.nodup hu, ?_, ?_, fun i mode hm => (hp i mode hm).le⟩, hp⟩
  · rw [ha, hk.released.lfsids]
    omega
  · rw [hh, hk.released.halfSessions]
    omega

theorem Kept.of_step {e : Event} (hk : Kept l) (hG : NothingFails l e) (h : step l e = some l') :
    Kept l' := by
  have hw := hk.wf.of_step h
  cases e with
  | allocRcb tpIndex alloc scbHs =>
    obtain ⟨tp, -, ⟨-, rfl⟩ | ⟨-, rcb, -, ⟨-, rfl⟩ | ⟨-, mode, hm, rfl⟩⟩⟩ := step_allocRcb_cases h
    · exact hk
    · exact hk.congr hw rfl rfl rfl rfl rfl fun j mode' hm' => ⟨mode', hm', rfl⟩
    · apply hk.congr hw rfl rfl rfl rfl rfl
      intro j mode' hm'
      rw [mode_countActive_eq (l := l.linked tp rcb) _ _ hm] at hm'
      by_cases hj : j = tp.modeIndex
      · rw [if_pos hj, Option.some.injEq] at hm'
        exact ⟨mode, hj ▸ hm, by rw [← hm']; rfl⟩
      · rw [if_neg hj] at hm'
        exact ⟨mode', hm', rfl⟩
  | getSession tpIndex e =>
    rcases step_getSession_cases h with ⟨-, rfl⟩ | ⟨r, hr, ⟨hs, -⟩ | ⟨-, i, hi, rfl⟩⟩
    · exact hk
    · cases hs.symm.trans (hG r hr).1
    · have ht := (hG r hr).2
      rw [ht] at hw ⊢
      apply hk.of_starts hw (Starts.of_countPending hi) rfl rfl
      intro j mode' hm'
      exact pending_mode_countPending hk.wf hr hm'
  | startRemoteLu useName e =>
    rcases step_startRemoteLu_cases h with ⟨-, rfl⟩ | ⟨mode, remoteLu, hl, ⟨-, rfl⟩ | ⟨hs, i, hi, rfl⟩⟩
    · exact hk
    · exact hk
    · have ht : e.route = true := (hG mode remoteLu hl).resolve_left (by rw [hs]; exact Bool.false_ne_true)
      rw [ht] at hw ⊢
      exact hk.of_starts hw (Starts.of_starts hi) rfl rfl fun j mode' hm' => ⟨mode', hm', rfl⟩
  | routeDone i pcIndex e =>
    obtain ⟨u, hu, hs⟩ := hk.wf.waiting i (step_routeDone_mem h)
    obtain rfl : u.index = i := Framework.key_of_find hu
    obtain ⟨u', ho⟩ := step_routeDone_cases hu hs h
    have hb := hG u hu
    have hph := ho.phase hk.wf hu hs
    rw [hb] at hph
    rcases ho.outcome with ⟨hg, -⟩ | ⟨-, hst, -, p, k, hsb, -, -, hasg, hhs, -⟩
    · have hg : getsToBind l u pcIndex e = false := hg
      rw [bindSent, hg] at hb
      cases hb
    · have hhs : l'.hsList = hsb :: l.hsList := hhs
      have hmode : l'.modeList = l.modeList := ho.same.modeList
      refine hk.of_moves (n := 1) hw (ho.moves hu) (fun h => by cases hph.symm.trans h) ?_ ?_ ?_ fun j mode' hm' => ?_
      · rw [Lulu.hasLfsid, Lulu.hasLfsid, hst, hs]
        rfl
      · rw [hhs]
        rfl
      · exact Asm.assignLfsid_inUse hasg
      · exact ⟨mode', by rwa [Lists.mode, hmode] at hm', rfl⟩
  | bindRsp odai daf oaf rsp copied =>
    rcases step_bindRsp_cases h with ⟨-, hf, hl, hb⟩ | ⟨u, hc, hu, hs, ho⟩
    · refine hk.congr hw hl hf.waiting hf.bound ?_ (by rw [hf.asmList]) fun j mode' hm' => ?_
      · simpa using congrArg List.length hf.hs
      · exact ⟨mode', by rwa [Lists.mode, hb.modeList] at hm', rfl⟩
    · rw [hG u hc hs] at ho
      refine hk.of_moves (n := 0) hw (ho.moves hu) (fun h => by cases h) ?_ ?_ ?_ fun j mode' hm' => ?_
      · rw [Lulu.hasLfsid, Lulu.hasLfsid, hs]
        rfl
      · simpa using congrArg List.length ho.frame.hs
      · rw [ho.frame.asmList]
        rfl
      · rw [ho.mode, Option.map_eq_some_iff] at hm'
        obtain ⟨mode, hmode, rfl⟩ := hm'
        exact ⟨mode, hmode, by split <;> rfl⟩
  | linkUp as pc =>
    rw [step_linkUp h] at hw ⊢
    exact hk.congr hw rfl rfl rfl rfl (Asm.activateAs_inUse as) fun j mode' hm' => ⟨mode', hm', rfl⟩
  | linkDown pcIndex =>
    rw [step_linkDown h] at hw ⊢
    refine hk.congr hw rfl rfl rfl rfl ?_ fun j mode' hm' => ⟨mode', hm', rfl⟩
    have hd := @Asm.deactivateAs_inUse pcIndex l.asmList
    rw [show (Asm.getByIndex l.asmList pcIndex).elim 0 AsmCb.inUse = 0 from hG] at hd
    exact hd

/-! ## A failure -/

/-- A count that no session was started for stays behind. -/
theorem Kept.not_released_countPending {tpIndex : UInt32} {r : Request} (hk : Kept l)
    (h : requested l tpIndex = some r) :
    ¬ Released (l.countPending r.mode r.remoteLu.index r.type) := by
  intro hR
  obtain ⟨-, hm, -, -⟩ := requested_spec h
  have hm' := mode_countPending_eq (i := r.tp.modeIndex) (j := r.tp.modeIndex) r.type r.remoteLu.index hm
  rw [if_pos rfl] at hm'
  have hle := hR.pending _ _ hm'
  have heq := hk.pending _ _ hm
  rw [pending_countPending h, heq] at hle
  exact absurd hle (Nat.not_succ_le_self _)

theorem Kept.not_released {e : Event} (hk : Kept l) (hG : ¬ NothingFails l e)
    (h : step l e = some l') : ¬ Released l' := by
  cases e with
  | allocRcb tpIndex alloc scbHs => exact absurd trivial hG
  | getSession tpIndex e =>
    rcases step_getSession_cases h with ⟨hr, rfl⟩ | ⟨r, hr, ⟨-, rfl⟩ | ⟨hs, i, hi, rfl⟩⟩
    · refine absurd (fun r hr' => ?_) hG
      exact absurd (hr.symm.trans hr') nofun
    · exact hk.not_released_countPending hr
    · cases ht : e.route with
      | false =>
        exact (Starts.of_countPending hi).not_settled hk.wf rfl
      | true =>
        refine absurd (fun r' hr' => ?_) hG
        obtain rfl : r = r' := Option.some.inj (hr.symm.trans hr')
        exact ⟨hs, ht⟩
  | startRemoteLu useName e =>
    rcases step_startRemoteLu_cases h with ⟨hl, rfl⟩ | ⟨mode, remoteLu, hl, ⟨hs, rfl⟩ | ⟨hs, i, hi, rfl⟩⟩
    · refine absurd (fun m r hr' => ?_) hG
      exact absurd (hl.symm.trans hr') nofun
    · refine absurd (fun m r hr' => ?_) hG
      obtain ⟨rfl, rfl⟩ := Prod.mk.inj (Option.some.inj (hl.symm.trans hr'))
      exact .inl hs
    · cases ht : e.route with
      | false => exact (Starts.of_starts hi).not_settled hk.wf rfl
      | true => exact absurd (fun _ _ _ => .inr ht) hG
  | routeDone i pcIndex e =>
    obtain ⟨u, hu, hs⟩ := hk.wf.waiting i (step_routeDone_mem h)
    obtain rfl : u.index = i := Framework.key_of_find hu
    obtain ⟨u', ho⟩ := step_routeDone_cases hu hs h
    apply (ho.moves hu).not_settled
    rw [ho.phase hk.wf hu hs, if_neg]
    intro hb
    apply hG
    intro v hv
    obtain rfl : u = v := Option.some.inj (hu.symm.trans hv)
    exact hb
  | bindRsp odai daf oaf rsp copied =>
    rcases step_bindRsp_cases h with ⟨hn, -⟩ | ⟨u, hc, hu, hs, ho⟩
    · exact absurd (fun u hu hs => absurd hs (hn u hu)) hG
    · apply (ho.moves hu).not_settled
      rw [RspOutcome.phase, if_neg]
      intro hd
      apply hG
      intro v hv _
      obtain rfl : u = v := Option.some.inj (hc.symm.trans hv)
      exact hd
  | linkUp as pc => exact absurd trivial hG
  | linkDown pcIndex =>
    rw [step_linkDown h]
    intro hR
    -- an LFSID is gone, its session is not
    have hl := hR.lfsids
    have hl' := hk.released.lfsids
    have hd := @Asm.deactivateAs_inUse pcIndex l.asmList
    have hG : (Asm.getByIndex l.asmList pcIndex).elim 0 AsmCb.inUse ≠ 0 := hG
    simp only at hl
    omega

/-- In a run from a state without sessions nothing is ever left behind exactly if
nothing fails. -/
theorem released_iff (l l' : Lists) (es : List Event) (hl : Initial l) (h : run step l es = some l') :
    Always step Released l es ↔ Along step NothingFails l es :=
  Framework.always_iff_of_run (fun _ hk => hk.released) (fun _ _ _ hk hG h => hk.of_step hG h)
    (fun _ _ _ hk hG h => hk.not_released hG h) hl.kept h

set_option maxRecDepth 100000 in
theorem released_iff_active : Always step Released oneProgram (untilBind ++ [accepted]) ↔
    Along step NothingFails oneProgram (untilBind ++ [accepted]) :=
  released_iff oneProgram (after oneProgram (untilBind ++ [accepted])) _ initial_oneProgram rfl

/-- The partner refuses the session. -/
def refused : Event := .bindRsp 0 1 1 ⟨true, bindPktInit oneMode⟩ true

set_option maxRecDepth 100000 in
/-- A negative response leaves the LFSID in use and the session in the list. -/
theorem refused_not_released : ¬ ∀ (l l' : Lists) (es : List Event), Initial l →
    run step l es = some l' → Always step Released l es := by
  intro h
  have h := h oneProgram (after oneProgram (untilBind ++ [refused])) (untilBind ++ [refused])
    initial_oneProgram rfl
  have hr : run step oneProgram (untilBind ++ [refused]) =
      some (after oneProgram (untilBind ++ [refused])) := rfl
  have h := (h.run hr).lfsids
  revert h
  decide

end LinuxSna.Sm
