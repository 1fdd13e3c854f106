import LinuxSna.Proof.Sna.Sm.Progress

/-!
# The counters of a mode

The resource manager counts a session as pending when a program asks for it and
as active when its BIND has been accepted. No function counts down.

* `Booked.of_step`: as long as no activation ends, every count has its session;
* `accounted_iff`: the counters are right throughout a run exactly if no activation
  that was counted ends in it, and none starts uncounted.
-/

namespace LinuxSna.Sm

open Framework (find update run Always Along)
open Rm (ModeCb RemoteLuCb TpCb Rcb LuCount Admits)

variable {l l' : Lists} {u u' v : Lulu} {route : Bool}

/-- The sessions of a mode that are in a phase. -/
def Lists.sessionsIn (l : Lists) (ph : Phase) (i : UInt32) : ℕ :=
  l.luluList.countP fun u => l.phase u = ph && u.modeIndex = i

/-- The counters of a mode are the numbers of its sessions, they are balanced and
within the limit, and a mode without sessions has room for one. -/
structure Accounted (l : Lists) : Prop where
  pending (i : UInt32) (mode : ModeCb) : l.mode i = some mode →
    mode.pending.sessions.toNat = l.sessionsIn .inProgress i
  active (i : UInt32) (mode : ModeCb) : l.mode i = some mode →
    mode.active.sessions.toNat = l.sessionsIn .active i
  balanced (i : UInt32) (mode : ModeCb) : l.mode i = some mode →
    mode.pending.Balanced ∧ mode.active.Balanced
  limit (i : UInt32) (mode : ModeCb) : l.mode i = some mode →
    mode.total ≤ mode.userMax.sessions.toNat
  admits (i : UInt32) (mode : ModeCb) (remoteLu : RemoteLuCb) : l.mode i = some mode →
    l.sessionsIn .inProgress i = 0 → l.sessionsIn .active i = 0 →
    mode.userMax.sessions ≠ 0 → Admits mode remoteLu

/-- Every activation that is counted gets under way, none gets under way uncounted,
and none ends; and no conversation is allocated at once, which counts a session that
there is not. -/
def NothingEnds (l : Lists) : Event → Prop
  | .allocRcb tpIndex alloc _ => ∀ tp, l.tp tpIndex = some tp → createsRcb l tp alloc = true →
      tp.immediate = false
  | .getSession tpIndex e => ∀ r, requested l tpIndex = some r →
      startRefused r.remoteLu (r.mode.countPending r.type) r.type e = false ∧ e.route = true
  | .startRemoteLu useName e => ∀ mode remoteLu, startLookup l useName = some (mode, remoteLu) →
      startRefused remoteLu mode .fsp e = true ∨ e.route = false
  | .routeDone i pcIndex e => ∀ u, l.lulu i = some u → bindSent l u pcIndex e = true
  | .bindRsp odai daf oaf _ _ => ∀ u, correlate l odai daf oaf = some u → u.state ≠ .pndBinRsp
  | .linkUp _ _ | .linkDown _ => True

/-- What these steps keep: the counters are right, every session has its mode, and
its BIND was sent if it waits for a response. -/
structure Booked (l : Lists) : Prop where
  wf : Wf l
  accounted : Accounted l
  mode (u : Lulu) : u ∈ l.luluList → (l.mode u.modeIndex).isSome
  bound (u : Lulu) : u ∈ l.luluList → u.state = .pndBinRsp → u.index ∈ l.bound

/-- A mode without sessions has room for one. -/
theorem admits_of_zero {mode : ModeCb} (hp : mode.pending.sessions.toNat = 0)
    (ha : mode.active.sessions.toNat = 0) (hm : mode.userMax.sessions ≠ 0) (remoteLu : RemoteLuCb) :
    Admits mode remoteLu := by
  have ht : mode.total = 0 := by rw [ModeCb.total, hp, ha]
  refine ⟨?_, .inl ht⟩
  rw [ht, Nat.pos_iff_ne_zero]
  exact fun h => hm (UInt16.toNat_inj.mp h)

/-- What the counters have to be for every count to have its session. -/
theorem Accounted.of_counts
    (h : ∀ i mode, l.mode i = some mode → mode.pending.sessions.toNat = l.sessionsIn .inProgress i ∧
      mode.active.sessions.toNat = l.sessionsIn .active i ∧
      (mode.pending.Balanced ∧ mode.active.Balanced) ∧ mode.total ≤ mode.userMax.sessions.toNat) :
    Accounted l where
  pending i mode hm := (h i mode hm).1
  active i mode hm := (h i mode hm).2.1
  balanced i mode hm := (h i mode hm).2.2.1
  limit i mode hm := (h i mode hm).2.2.2
  admits i mode remoteLu hm hp ha hmax :=
    admits_of_zero ((h i mode hm).1.trans hp) ((h i mode hm).2.1.trans ha) hmax remoteLu

theorem Initial.booked (h : Initial l) : Booked l := by
  refine ⟨h.wf, .of_counts fun i mode hm => ?_, fun u hu => ?_, fun u hu => ?_⟩
  · obtain ⟨ha, hp⟩ := h.modes i mode hm
    have hn : ∀ ph, l.sessionsIn ph i = 0 := fun ph => by rw [Lists.sessionsIn, h.luluList]; rfl
    rw [hn, hn, ModeCb.total, ha, hp]
    exact ⟨rfl, rfl, ⟨rfl, rfl⟩, Nat.zero_le _⟩
  · rw [h.luluList] at hu
    exact absurd hu List.not_mem_nil
  · rw [h.luluList] at hu
    exact absurd hu List.not_mem_nil

/-! ## How many sessions of a mode are in a phase -/

theorem Starts.sessionsIn (h : Starts l l' u route) (ph : Phase) (i : UInt32) :
    l'.sessionsIn ph i = l.sessionsIn ph i + (l'.phase u = ph && u.modeIndex = i : Bool).toNat :=
  h.countP fun p v => p = ph && v.modeIndex = i

theorem Moves.sessionsIn (hw : Wf l) (h : Moves l l' u u') (ph : Phase) (i : UInt32) :
    l'.sessionsIn ph i + (l.phase u = ph && u.modeIndex = i : Bool).toNat =
      l.sessionsIn ph i + (l'.phase u' = ph && u.modeIndex = i : Bool).toNat := by
  have hc := h.countP hw fun p v => p = ph && v.modeIndex = i
  simp only [h.kin.modeIndex] at hc
  exact hc

theorem sessionsIn_congr (hl : l'.luluList = l.luluList) (hwait : l'.waiting = l.waiting)
    (hb : l'.bound = l.bound) (ph : Phase) (i : UInt32) : l'.sessionsIn ph i = l.sessionsIn ph i := by
  have hph : ∀ v, l'.phase v = l.phase v := fun v => phase_congr (by rw [hwait]) (by rw [hb])
  rw [Lists.sessionsIn, Lists.sessionsIn, hl]
  simp only [hph]

/-- The other sessions that wait for a response have their BIND sent. -/
theorem Booked.congr (hk : Booked l) (hw : Wf l') (hl : l'.luluList = l.luluList)
    (hwait : l'.waiting = l.waiting) (hb : l'.bound = l.bound) (hm : l'.modeList = l.modeList) :
    Booked l' := by
  have hmode : ∀ i, l'.mode i = l.mode i := fun i => congrArg (find ModeCb.index i) hm
  refine ⟨hw, .of_counts fun i mode hi => ?_, fun u hu => ?_, fun u hu hs => ?_⟩
  · rw [hmode] at hi
    rw [sessionsIn_congr hl hwait hb, sessionsIn_congr hl hwait hb]
    exact ⟨hk.accounted.pending i mode hi, hk.accounted.active i mode hi,
      hk.accounted.balanced i mode hi, hk.accounted.limit i mode hi⟩
  · rw [hmode]
    exact hk.mode u (hl ▸ hu)
  · rw [hb]
    exact hk.bound u (hl ▸ hu) hs

/-- A session that starts, with what it adds to the counters of its mode. -/
theorem Booked.of_starts (hk : Booked l) (hw : Wf l') (h : Starts l l' u route)
    (hm : ∀ i mode', l'.mode i = some mode' → ∃ mode, l.mode i = some mode ∧
      mode'.pending.sessions.toNat =
        mode.pending.sessions.toNat + (route && u.modeIndex = i : Bool).toNat ∧
      mode'.active = mode.active ∧ mode'.pending.Balanced ∧ mode'.total ≤ mode'.userMax.sessions.toNat)
    (hsome : ∀ i, (l.mode i).isSome → (l'.mode i).isSome) (hu : (l.mode u.modeIndex).isSome) :
    Booked l' := by
  refine ⟨hw, .of_counts fun i mode' hi => ?_, fun v hv => ?_, fun v hv hs => ?_⟩
  · obtain ⟨mode, hmode, hp, ha, hb, hlim⟩ := hm i mode' hi
    refine ⟨?_, ?_, ⟨hb, ha ▸ (hk.accounted.balanced i mode hmode).2⟩, hlim⟩
    · rw [hp, hk.accounted.pending i mode hmode, h.sessionsIn, h.phase_new hk.wf]
      cases route <;> simp
    · rw [ha, hk.accounted.active i mode hmode, h.sessionsIn, h.phase_new hk.wf]
      cases route <;> simp
  · rw [h.luluList] at hv
    rcases List.mem_cons.mp hv with rfl | hv
    · exact hsome _ hu
    · exact hsome _ (hk.mode v hv)
  · rw [h.luluList] at hv
    rw [h.bound]
    rcases List.mem_cons.mp hv with rfl | hv
    · exact absurd (h.state.symm.trans hs) nofun
    · exact hk.bound v hv hs

/-- A session that stays in progress. -/
theorem Booked.of_moves (hk : Booked l) (hw : Wf l') (h : Moves l l' u u')
    (hu : l.phase u = .inProgress) (hu' : l'.phase u' = .inProgress) (hb : u'.index ∈ l'.bound)
    (hm : l'.modeList = l.modeList) : Booked l' := by
  have hmode : ∀ i, l'.mode i = l.mode i := fun i => congrArg (find ModeCb.index i) hm
  have hcnt : ∀ ph i, l'.sessionsIn ph i = l.sessionsIn ph i := fun ph i => by
    have hc := h.sessionsIn hk.wf ph i
    rw [hu, hu'] at hc
    exact Nat.add_right_cancel hc
  refine ⟨hw, .of_counts fun i mode hi => ?_, fun v hv => ?_, fun v hv hs => ?_⟩
  · rw [hmode] at hi
    rw [hcnt, hcnt]
    exact ⟨hk.accounted.pending i mode hi, hk.accounted.active i mode hi,
      hk.accounted.balanced i mode hi, hk.accounted.limit i mode hi⟩
  · rw [hmode]
    rw [h.luluList] at hv
    rcases Framework.mem_update hv with hv | ⟨w, hw', rfl⟩
    · exact hk.mode v hv
    · rw [h.kin.modeIndex]
      exact hk.mode u (Framework.mem_of_find h.found)
  · by_cases hi : v.index = u.index
    · rw [hi, ← h.kin.index]
      exact hb
    · rw [h.luluList] at hv
      rcases Framework.mem_update hv with hv | ⟨w, -, rfl⟩
      · exact (h.bound _ hi).mpr (hk.bound v hv hs)
      · exact absurd h.kin.index hi

/-- The modes after a granted request. -/
theorem mode_of_request {tpIndex i : UInt32} {r : Request} {mode' : ModeCb} (hk : Booked l)
    (h : requested l tpIndex = some r)
    (hm' : (l.countPending r.mode r.remoteLu.index r.type).mode i = some mode') :
    ∃ mode, l.mode i = some mode ∧ mode'.pending.sessions.toNat =
        mode.pending.sessions.toNat + (true && r.mode.index = i : Bool).toNat ∧
      mode'.active = mode.active ∧ mode'.pending.Balanced ∧
        mode'.total ≤ mode'.userMax.sessions.toNat := by
  obtain ⟨-, hm, -, -⟩ := requested_spec h
  have hi : r.mode.index = r.tp.modeIndex := Framework.key_of_find hm
  rw [mode_countPending_eq _ _ hm] at hm'
  by_cases hj : i = r.tp.modeIndex
  · rw [if_pos hj, Option.some.injEq] at hm'
    subst hm'
    have hadd := pending_countPending h
    refine ⟨r.mode, hj ▸ hm, ?_, rfl, ?_, ?_⟩
    · rw [hadd]
      simp [hi, hj]
    · exact (hk.accounted.balanced _ _ hm).1.of_count (Request.pending_lt h) r.type
    · have hlt := (Request.admits h).1
      rw [ModeCb.total] at hlt ⊢
      rw [hadd]
      show r.mode.pending.sessions.toNat + 1 + r.mode.active.sessions.toNat ≤
        r.mode.userMax.sessions.toNat
      omega
  · rw [if_neg hj] at hm'
    refine ⟨mode', hm', ?_, rfl, (hk.accounted.balanced i mode' hm').1, hk.accounted.limit i mode' hm'⟩
    simp [hi, Ne.symm hj]

theorem mode_isSome_of_request {tpIndex i : UInt32} {r : Request} (h : requested l tpIndex = some r)
    (hi : (l.mode i).isSome) : ((l.countPending r.mode r.remoteLu.index r.type).mode i).isSome := by
  obtain ⟨-, hm, -, -⟩ := requested_spec h
  rw [mode_countPending_eq _ _ hm]
  split
  · rfl
  · exact hi

/-! ## Steps in which nothing ends -/

theorem Booked.of_step {e : Event} (hk : Booked l) (hG : NothingEnds l e) (h : step l e = some l') :
    Booked l' := by
  have hw := hk.wf.of_step h
  cases e with
  | allocRcb tpIndex alloc scbHs =>
    obtain ⟨tp, ht, ⟨-, rfl⟩ | ⟨hc, rcb, -, ⟨-, rfl⟩ | ⟨hi, -⟩⟩⟩ := step_allocRcb_cases h
    · exact hk
    · exact hk.congr hw rfl rfl rfl rfl
    · exact absurd (hi.symm.trans (hG tp ht hc)) nofun
  | getSession tpIndex e =>
    rcases step_getSession_cases h with ⟨-, rfl⟩ | ⟨r, hr, ⟨hs, -⟩ | ⟨-, i, hi, rfl⟩⟩
    · exact hk
    · exact absurd (hs.symm.trans (hG r hr).1) nofun
    · rw [(hG r hr).2] at hw ⊢
      obtain ⟨-, hm, -, -⟩ := requested_spec hr
      have hidx : r.mode.index = r.tp.modeIndex := Framework.key_of_find hm
      refine hk.of_starts hw (Starts.of_countPending hi) (fun j mode' hm' => ?_) (fun j hj => ?_) ?_
      · exact mode_of_request hk hr hm'
      · exact mode_isSome_of_request hr hj
      · show (l.mode r.mode.index).isSome
        rw [hidx, hm]
        rfl
  | startRemoteLu useName e =>
    rcases step_startRemoteLu_cases h with ⟨-, rfl⟩ | ⟨mode, remoteLu, hl, ⟨-, rfl⟩ | ⟨hs, i, hi, rfl⟩⟩
    · exact hk
    · exact hk
    · have ht : e.route = false := (hG mode remoteLu hl).resolve_left (by rw [hs]; nofun)
      rw [ht] at hw ⊢
      refine hk.of_starts hw (Starts.of_starts hi) (fun j mode' hm' => ?_) (fun j hj => hj)
        (startLookup_isSome hl)
      exact ⟨mode', hm', rfl, rfl, (hk.accounted.balanced j mode' hm').1,
        hk.accounted.limit j mode' hm'⟩
  | routeDone i pcIndex e =>
    obtain ⟨u, hu, hs⟩ := hk.wf.waiting i (step_routeDone_mem h)
    obtain rfl : u.index = i := Framework.key_of_find hu
    obtain ⟨u', ho⟩ := step_routeDone_cases hu hs h
    have hb := hG u hu
    exact hk.of_moves hw (ho.moves hu) (phase_of_waiting hs (step_routeDone_mem h))
      (by rw [ho.phase hk.wf hu hs, if_pos hb]) (ho.bound_of_bindSent hb) ho.same.modeList
  | bindRsp odai daf oaf rsp copied =>
    rcases step_bindRsp_cases h with ⟨-, hf, hl, hb⟩ | ⟨u, hc, hu, hs, ho⟩
    · exact hk.congr hw hl hf.waiting hf.bound hb.modeList
    · exact absurd hs (hG u hc)
  | linkUp as pc =>
    rw [step_linkUp h] at hw ⊢
    exact hk.congr hw rfl rfl rfl rfl
  | linkDown pcIndex =>
    rw [step_linkDown h] at hw ⊢
    exact hk.congr hw rfl rfl rfl rfl

/-! ## The other steps -/

/-- A mode that counts a session more than it has. -/
theorem Booked.not_accounted_of_counted {tpIndex : UInt32} {r : Request} (hk : Booked l)
    (h : requested l tpIndex = some r)
    (hm : l'.modeList = (l.countPending r.mode r.remoteLu.index r.type).modeList)
    (hn : ∀ i, l'.sessionsIn .inProgress i = l.sessionsIn .inProgress i) : ¬ Accounted l' := by
  intro hA
  obtain ⟨-, hmode, -, -⟩ := requested_spec h
  have hmode' : l'.mode r.tp.modeIndex = some (r.mode.countPending r.type) := by
    rw [Lists.mode, hm]
    have hc := mode_countPending_eq (i := r.tp.modeIndex) r.type r.remoteLu.index hmode
    rwa [if_pos rfl] at hc
  have hp := hA.pending _ _ hmode'
  rw [pending_countPending h, hn, hk.accounted.pending _ _ hmode] at hp
  omega

/-- A session of a mode that is not in progress any more is still counted. -/
theorem Booked.not_accounted_of_moves (hk : Booked l) (h : Moves l l' u u')
    (hu : l.phase u = .inProgress) (hu' : l'.phase u' ≠ .inProgress)
    (hm : ∀ i mode, l.mode i = some mode → ∃ mode', l'.mode i = some mode' ∧
      mode'.pending = mode.pending) : ¬ Accounted l' := by
  intro hA
  obtain ⟨mode, hmode⟩ := Option.isSome_iff_exists.mp (hk.mode u (Framework.mem_of_find h.found))
  obtain ⟨mode', hmode', he⟩ := hm _ _ hmode
  have hc := h.sessionsIn hk.wf .inProgress u.modeIndex
  have hp := hA.pending _ _ hmode'
  rw [he, hk.accounted.pending _ _ hmode] at hp
  simp [hu, hu'] at hc
  omega

theorem Booked.not_accounted {e : Event} (hk : Booked l) (hG : ¬ NothingEnds l e)
    (h : step l e = some l') : ¬ Accounted l' := by
  cases e with
  | allocRcb tpIndex alloc scbHs =>
    obtain ⟨tp, ht, hs⟩ := step_allocRcb_cases h
    have himm : createsRcb l tp alloc = true ∧ tp.immediate = true := by
      by_contra hn
      apply hG
      intro tp' ht' hc
      obtain rfl : tp = tp' := Option.some.inj (ht.symm.trans ht')
      exact Bool.eq_false_iff.mpr fun hi => hn ⟨hc, hi⟩
    rcases hs with ⟨hf, -⟩ | ⟨-, rcb, -, ⟨hi, -⟩ | ⟨-, mode, hm, rfl⟩⟩
    · cases himm.1.symm.trans hf
    · cases himm.2.symm.trans hi
    · -- one active session more is counted than there is
      intro hA
      have hm' := mode_countActive_eq (l := l.linked tp rcb) (i := tp.modeIndex) .fsp
        tp.remoteLuIndex hm
      rw [if_pos rfl] at hm'
      have ha := hA.active _ _ hm'
      have hcnt : ((l.linked tp rcb).countActive mode tp.remoteLuIndex .fsp).sessionsIn .active
          tp.modeIndex = l.sessionsIn .active tp.modeIndex := sessionsIn_congr rfl rfl rfl _ _
      rw [hcnt, ← hk.accounted.active _ _ hm] at ha
      exact toNat_succ_ne ha
  | getSession tpIndex e =>
    rcases step_getSession_cases h with ⟨hr, rfl⟩ | ⟨r, hr, ⟨-, rfl⟩ | ⟨hs, i, hi, rfl⟩⟩
    · refine absurd (fun r hr' => ?_) hG
      cases hr.symm.trans hr'
    · exact hk.not_accounted_of_counted hr rfl fun i => sessionsIn_congr rfl rfl rfl _ i
    · cases ht : e.route with
      | false =>
        refine hk.not_accounted_of_counted hr rfl fun j => ?_
        have hst : Starts l ((l.countPending r.mode r.remoteLu.index r.type).starts
            (newLulu r.mode r.remoteLu r.tp.index r.type i) false) _ false :=
          Starts.of_countPending hi
        rw [hst.sessionsIn, hst.phase_new hk.wf]
        rfl
      | true =>
        refine absurd (fun r' hr' => ?_) hG
        obtain rfl : r = r' := Option.some.inj (hr.symm.trans hr')
        exact ⟨hs, ht⟩
  | startRemoteLu useName e =>
    rcases step_startRemoteLu_cases h with ⟨hl, rfl⟩ | ⟨mode, remoteLu, hl, ⟨hs, rfl⟩ | ⟨hs, i, hi, rfl⟩⟩
    · refine absurd (fun m r hr' => ?_) hG
      cases hl.symm.trans hr'
    · refine absurd (fun m r hr' => ?_) hG
      obtain ⟨rfl, rfl⟩ := Prod.mk.inj (Option.some.inj (hl.symm.trans hr'))
      exact .inl hs
    · cases ht : e.route with
      | false => exact absurd (fun _ _ _ => .inr ht) hG
      | true =>
        -- in progress, and not counted
        intro hA
        have hst : Starts l (l.starts (newLulu mode remoteLu 0 .fsp i) true) _ true :=
          Starts.of_starts hi
        obtain ⟨m, hm⟩ := Option.isSome_iff_exists.mp (startLookup_isSome hl)
        have hp := hA.pending mode.index m hm
        rw [hk.accounted.pending _ _ hm, hst.sessionsIn, hst.phase_new hk.wf] at hp
        simp [newLulu] at hp
  | routeDone i pcIndex e =>
    obtain ⟨u, hu, hs⟩ := hk.wf.waiting i (step_routeDone_mem h)
    have hi := step_routeDone_mem h
    obtain rfl : u.index = i := Framework.key_of_find hu
    obtain ⟨u', ho⟩ := step_routeDone_cases hu hs h
    refine hk.not_accounted_of_moves (ho.moves hu) (phase_of_waiting hs hi) ?_ fun j mode hm => ?_
    · rw [ho.phase hk.wf hu hs, if_neg]
      · exact fun h => by cases h
      intro hb
      apply hG
      intro v hv
      obtain rfl : u = v := Option.some.inj (hu.symm.trans hv)
      exact hb
    · have hmode : l'.modeList = l.modeList := ho.same.modeList
      exact ⟨mode, by rwa [Lists.mode, hmode], rfl⟩
  | bindRsp odai daf oaf rsp copied =>
    rcases step_bindRsp_cases h with ⟨hn, -⟩ | ⟨u, hc, hu, hs, ho⟩
    · exact absurd hn hG
    · have hb := hk.bound u (Framework.mem_of_find hu) hs
      refine hk.not_accounted_of_moves (ho.moves hu) (by simp [Lists.phase, hs, hb]) ?_
        fun j mode hm => ?_
      · rw [RspOutcome.phase]
        split <;> exact fun h => by cases h
      · rw [ho.mode, hm]
        refine ⟨_, rfl, ?_⟩
        split <;> rfl
  | linkUp as pc => exact absurd trivial hG
  | linkDown pcIndex => exact absurd trivial hG

end LinuxSna.Sm
