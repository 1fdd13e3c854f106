import LinuxSna.Proof.Sna.Rm.Limit
import LinuxSna.Proof.Sna.Sm.Steps

/-!
# Activations in progress

A session is in progress while its activation sleeps or its BIND waits for an
answer. An event adds a session (`Starts`) or moves one (`Moves`), and leaves the
phase of the others.

* `Wf.of_step`: the sessions have different numbers, those that wait are there, in
  every reachable state;
* `Starts.countP`, `Moves.countP`: how many sessions have a property after the event.
-/

namespace LinuxSna.Asm

/-- The LFSIDs of an address space that are in use. -/
def AsmCb.inUse (a : AsmCb) : ℕ := a.blkList.countP (·.active)

/-- The LFSIDs that are in use in all address spaces. -/
def inUse (asmList : List AsmCb) : ℕ := (asmList.map AsmCb.inUse).sum

end LinuxSna.Asm

namespace LinuxSna.Sm

open Framework (find update newIndex)
open Asm (AsmCb Lfsid)
open Rm (ModeCb RemoteLuCb LuCount)

variable {l l' : Lists} {u u' v : Lulu} {route : Bool}

/-- How far a session has got. -/
inductive Phase where
  | ended
  | inProgress
  | active
  deriving DecidableEq

/-- The phase of a session: an activation that neither sleeps nor waits for an
answer to its BIND has ended. -/
def Lists.phase (l : Lists) (u : Lulu) : Phase :=
  match u.state with
  | .act => .active
  | .pndCin => if u.index ∈ l.waiting then .inProgress else .ended
  | .pndBinRsp => if u.index ∈ l.bound then .inProgress else .ended
  | .pndIniHsRspPlu | .pndIniHsRspSlu => .inProgress
  | .res => .ended

/-- The phase depends on the state and on whether the session waits. -/
theorem phase_congr (hw : v.index ∈ l'.waiting ↔ v.index ∈ l.waiting)
    (hb : v.index ∈ l'.bound ↔ v.index ∈ l.bound) : l'.phase v = l.phase v := by
  simp only [Lists.phase, hw, hb]

/-- What holds of the sessions in every reachable state. -/
structure Wf (l : Lists) : Prop where
  nodup : (l.luluList.map (·.index)).Nodup
  waiting (i : UInt32) : i ∈ l.waiting → ∃ u, l.lulu i = some u ∧ u.state = .pndCin
  waitingNodup : l.waiting.Nodup
  bound (i : UInt32) : i ∈ l.bound → ∃ u, l.lulu i = some u ∧ u.state ≠ .pndCin
  tp : 0 ∉ l.tpList.map (·.index)

theorem Wf.congr (hw : Wf l) (hl : l'.luluList = l.luluList) (hwait : l'.waiting = l.waiting)
    (hb : l'.bound = l.bound) (ht : l'.tpList.map (·.index) = l.tpList.map (·.index)) : Wf l' := by
  have hlulu : ∀ i, l'.lulu i = l.lulu i := fun i => congrArg (find Lulu.index i) hl
  refine ⟨hl ▸ hw.nodup, fun i hi => ?_, hwait ▸ hw.waitingNodup, fun i hi => ?_, ht ▸ hw.tp⟩
  · rw [hlulu]; exact hw.waiting i (hwait ▸ hi)
  · rw [hlulu]; exact hw.bound i (hb ▸ hi)

/-! ## A new session -/

/-- There is a new session, which waits for its route if there is one. -/
structure Starts (l l' : Lists) (u : Lulu) (route : Bool) : Prop where
  fresh : u.index ∉ l.luluList.map (·.index)
  state : u.state = .pndCin
  luluList : l'.luluList = u :: l.luluList
  waiting : l'.waiting = if route then u.index :: l.waiting else l.waiting
  bound : l'.bound = l.bound

namespace Starts

theorem of_starts {lulu : Lulu} (h : lulu.index ∉ l.luluList.map (·.index)) :
    Starts l (l.starts lulu route) { lulu with state := .pndCin } route :=
  ⟨h, rfl, rfl, rfl, rfl⟩

theorem of_countPending {lulu : Lulu} {mode : ModeCb} {r : UInt32} {type : Hs.HsType}
    (h : lulu.index ∉ l.luluList.map (·.index)) :
    Starts l ((l.countPending mode r type).starts lulu route) { lulu with state := .pndCin } route :=
  ⟨h, rfl, rfl, rfl, rfl⟩

theorem notMem_of_lulu (h : Starts l l' u route) (hv : l.lulu u.index = some v) : False := by
  have hi : v.index = u.index := Framework.key_of_find hv
  exact h.fresh (hi ▸ List.mem_map_of_mem (Framework.mem_of_find hv))

/-- The other sessions have the phase that they had. -/
theorem phase (h : Starts l l' u route) (hv : v ∈ l.luluList) : l'.phase v = l.phase v := by
  have hne : v.index ≠ u.index := fun he => h.fresh (he ▸ List.mem_map_of_mem hv)
  refine phase_congr ?_ (by rw [h.bound])
  rw [h.waiting]
  cases route <;> simp [hne]

/-- The new session is in progress if there is a route. -/
theorem phase_new (hw : Wf l) (h : Starts l l' u route) :
    l'.phase u = if route then .inProgress else .ended := by
  have hn : u.index ∉ l.waiting := fun hi =>
    have ⟨_, hv, _⟩ := hw.waiting _ hi
    h.notMem_of_lulu hv
  simp only [Lists.phase, h.state, h.waiting]
  cases route <;> simp [hn]

theorem lulu (h : Starts l l' u route) {i : UInt32} (hv : l.lulu i = some v) :
    l'.lulu i = some v := by
  rw [Lists.lulu, h.luluList, Framework.find_cons_ne]
  · exact hv
  · rintro rfl
    exact h.notMem_of_lulu hv

theorem wf (hw : Wf l) (h : Starts l l' u route)
    (ht : l'.tpList.map (·.index) = l.tpList.map (·.index)) : Wf l' := by
  have hn : u.index ∉ l.waiting := fun hi =>
    have ⟨_, hv, _⟩ := hw.waiting _ hi
    h.notMem_of_lulu hv
  have hold : ∀ i ∈ l.waiting, ∃ u, l'.lulu i = some u ∧ u.state = .pndCin := fun i hi =>
    have ⟨v, hv, hs⟩ := hw.waiting i hi
    ⟨v, h.lulu hv, hs⟩
  refine ⟨?_, fun i hi => ?_, ?_, fun i hi => ?_, ht ▸ hw.tp⟩
  · rw [h.luluList, List.map_cons, List.nodup_cons]
    exact ⟨h.fresh, hw.nodup⟩
  · rw [h.waiting] at hi
    cases route with
    | false => exact hold i hi
    | true =>
      rcases List.mem_cons.mp hi with rfl | hi
      · exact ⟨u, by rw [Lists.lulu, h.luluList, Framework.find_cons_self], h.state⟩
      · exact hold i hi
  · rw [h.waiting]
    cases route with
    | false => exact hw.waitingNodup
    | true => exact List.nodup_cons.mpr ⟨hn, hw.waitingNodup⟩
  · rw [h.bound] at hi
    obtain ⟨v, hv, hs⟩ := hw.bound i hi
    exact ⟨v, h.lulu hv, hs⟩

/-- One session more may have a property that depends on the phase. -/
theorem countP (h : Starts l l' u route) (p : Phase → Lulu → Bool) :
    l'.luluList.countP (fun v => p (l'.phase v) v) =
      l.luluList.countP (fun v => p (l.phase v) v) + (p (l'.phase u) u).toNat := by
  rw [h.luluList, List.countP_cons, List.countP_congr fun v hv => by rw [h.phase hv]]
  cases p (l'.phase u) u <;> rfl

end Starts

/-! ## A session that gets on -/

/-- One session is changed, the numbers of the others wait as they did. -/
structure Moves (l l' : Lists) (u u' : Lulu) : Prop where
  found : l.lulu u.index = some u
  kin : u'.Kin u
  luluList : l'.luluList = update Lulu.index u.index (fun _ => u') l.luluList
  waiting (i : UInt32) : i ≠ u.index → (i ∈ l'.waiting ↔ i ∈ l.waiting)
  bound (i : UInt32) : i ≠ u.index → (i ∈ l'.bound ↔ i ∈ l.bound)

namespace Moves

theorem phase (h : Moves l l' u u') (hv : v.index ≠ u.index) : l'.phase v = l.phase v :=
  phase_congr (h.waiting _ hv) (h.bound _ hv)

theorem lulu (h : Moves l l' u u') (i : UInt32) :
    l'.lulu i = if i = u.index then some u' else l.lulu i := by
  rw [Lists.lulu, h.luluList]
  exact Framework.find_update_of_find (fun _ _ => h.kin.index) h.found

theorem nodup (hw : Wf l) (h : Moves l l' u u') : (l'.luluList.map (·.index)).Nodup := by
  rw [h.luluList, Framework.map_key_update fun _ _ => h.kin.index]
  exact hw.nodup

/-- The session may gain or lose a property that depends on the phase. -/
theorem countP (hw : Wf l) (h : Moves l l' u u') (p : Phase → Lulu → Bool) :
    l'.luluList.countP (fun v => p (l'.phase v) v) + (p (l.phase u) u).toNat =
      l.luluList.countP (fun v => p (l.phase v) v) + (p (l'.phase u') u').toNat := by
  rw [h.luluList]
  exact Framework.countP_update_of_agree (p := fun v => p (l.phase v) v)
    (q := fun v => p (l'.phase v) v) h.found hw.nodup fun v _ hv => by rw [h.phase hv]

end Moves

/-! ## After the sleep and after the response -/

/-- The BIND has been given to path control. -/
def bindSent (l : Lists) (u : Lulu) (pcIndex : Option UInt32) (e : RouteEnv) : Bool :=
  getsToBind l u pcIndex e && decide (0 ≤ e.bindErr)

section Route

variable {pcIndex : Option UInt32} {e : RouteEnv}

theorem RouteOutcome.moves (hu : l.lulu u.index = some u)
    (h : RouteOutcome { l with waiting := l.waiting.erase u.index } l' u pcIndex e u') :
    Moves l l' u u' := by
  refine ⟨hu, h.kin, h.luluList, fun i hi => ?_, fun i hi => ?_⟩
  · rw [h.waiting]
    exact List.mem_erase_of_ne hi
  · rcases h.outcome with ⟨-, -, hb⟩ | ⟨-, -, hb, -⟩
    · rw [hb]
    · rw [hb]
      split
      · rfl
      · rw [List.mem_cons, or_iff_right hi]

theorem Wf.notMem_bound (hw : Wf l) (hu : l.lulu u.index = some u) (hs : u.state = .pndCin) :
    u.index ∉ l.bound := by
  intro hi
  obtain ⟨v, hv, hne⟩ := hw.bound _ hi
  obtain rfl : u = v := Option.some.inj (hu.symm.trans hv)
  exact hne hs

/-- The activation is in progress after its sleep exactly if its BIND was sent. -/
theorem RouteOutcome.phase (hw : Wf l) (hu : l.lulu u.index = some u) (hs : u.state = .pndCin)
    (h : RouteOutcome { l with waiting := l.waiting.erase u.index } l' u pcIndex e u') :
    l'.phase u' = if bindSent l u pcIndex e then .inProgress else .ended := by
  unfold bindSent
  rcases h.outcome with ⟨hg, hst, -⟩ | ⟨hg, hst, hb, -⟩
  · have hg : getsToBind l u pcIndex e = false := hg
    simp [Lists.phase, hst, hg]
  · have hg : getsToBind l u pcIndex e = true := hg
    simp only [Lists.phase, hst, hg, hb, h.kin.index, Bool.true_and]
    by_cases he : e.bindErr < 0
    · simp [he, hw.notMem_bound hu hs]
    · simp [he, not_lt.mp he]

theorem phase_of_waiting (hs : u.state = .pndCin) (hi : u.index ∈ l.waiting) :
    l.phase u = .inProgress := by
  simp [Lists.phase, hs, hi]

theorem RouteOutcome.bound_of_bindSent
    (h : RouteOutcome { l with waiting := l.waiting.erase u.index } l' u pcIndex e u')
    (hb : bindSent l u pcIndex e = true) : u'.index ∈ l'.bound := by
  rw [bindSent, Bool.and_eq_true, decide_eq_true_iff] at hb
  rcases h.outcome with ⟨hg, -⟩ | ⟨-, -, hbound, -⟩
  · exact absurd (hb.1.symm.trans hg) nofun
  · rw [hbound, if_neg (not_lt.mpr hb.2), h.kin.index]
    exact List.mem_cons_self

theorem RouteOutcome.wf (hw : Wf l) (hu : l.lulu u.index = some u)
    (h : RouteOutcome { l with waiting := l.waiting.erase u.index } l' u pcIndex e u') : Wf l' := by
  have hm := h.moves hu
  have hst : u'.state ≠ .pndCin := by
    rcases h.outcome with ⟨-, hst, -⟩ | ⟨-, hst, -⟩ <;> rw [hst] <;> nofun
  have hwait : l'.waiting = l.waiting.erase u.index := h.waiting
  refine ⟨hm.nodup hw, fun i hi => ?_, ?_, fun i hi => ?_, ?_⟩
  · rw [hwait] at hi
    have hne : i ≠ u.index := by
      rintro rfl
      exact hw.waitingNodup.not_mem_erase hi
    rw [hm.lulu, if_neg hne]
    exact hw.waiting i (List.mem_of_mem_erase hi)
  · rw [hwait]
    exact hw.waitingNodup.erase _
  · rw [hm.lulu]
    by_cases hi' : i = u.index
    · exact ⟨u', if_pos hi', hst⟩
    · rw [if_neg hi']
      exact hw.bound i ((hm.bound i hi').mp hi)
  · have ht : l'.tpList = l.tpList := h.same.tpList
    rw [ht]
    exact hw.tp

end Route

theorem RspOutcome.moves {done : Bool} (hu : l.lulu u.index = some u) (h : RspOutcome l l' u done) :
    Moves l l' u { u with state := if done then .act else .res } :=
  ⟨hu, ⟨rfl, rfl, rfl, rfl, rfl⟩, h.luluList, fun i _ => by rw [h.frame.waiting],
    fun i _ => by rw [h.frame.bound]⟩

theorem RspOutcome.phase {done : Bool} :
    l'.phase { u with state := if done then .act else .res } = if done then .active else .ended := by
  cases done <;> rfl

/-- The counters of the modes after the response. -/
theorem RspOutcome.mode {done : Bool} (h : RspOutcome l l' u done) (i : UInt32) :
    l'.mode i =
      (l.mode i).map fun m => if done = true ∧ i = u.modeIndex then m.countActive u.type else m := by
  rcases h.outcome with ⟨hd, hb⟩ | ⟨rfl, m, hf, ht⟩
  · have hmode : l'.mode i = l.mode i := congrArg (find ModeCb.index i) hb.modeList
    rw [hmode]
    rcases hd with rfl | hd
    · simp
    · by_cases hi : i = u.modeIndex
      · rw [hi, hd]
        rfl
      · simp [hi]
  · have hi : m.index = u.modeIndex := Framework.key_of_find hf
    rw [Lists.mode, ht.modeList, Framework.find_update (f := fun m : ModeCb => m.countActive u.type)
      fun n (h : n.index = m.index) => h, hi]
    by_cases hj : i = u.modeIndex
    · simp only [hj, ↓reduceIte, and_self]
      rfl
    · simp [hj, Lists.mode]

theorem RspOutcome.wf {done : Bool} (hw : Wf l) (hu : l.lulu u.index = some u)
    (hs : u.state = .pndBinRsp) (h : RspOutcome l l' u done) : Wf l' := by
  have hm := h.moves hu
  refine ⟨hm.nodup hw, fun i hi => ?_, by rw [h.frame.waiting]; exact hw.waitingNodup,
    fun i hi => ?_, by rw [h.frame.tp]; exact hw.tp⟩
  · rw [h.frame.waiting] at hi
    obtain ⟨v, hv, hst⟩ := hw.waiting i hi
    have hne : i ≠ u.index := by
      rintro rfl
      obtain rfl : u = v := Option.some.inj (hu.symm.trans hv)
      exact absurd (hs.symm.trans hst) nofun
    rw [hm.lulu, if_neg hne]
    exact ⟨v, hv, hst⟩
  · rw [hm.lulu]
    by_cases hi' : i = u.index
    · refine ⟨_, if_pos hi', ?_⟩
      cases done <;> nofun
    · rw [if_neg hi']
      exact hw.bound i (h.frame.bound ▸ hi)

/-! ## Every event -/

theorem Wf.of_step {e : Event} (hw : Wf l) (h : step l e = some l') : Wf l' := by
  cases e with
  | allocRcb tpIndex alloc scbHs =>
    obtain ⟨tp, -, ⟨-, rfl⟩ | ⟨-, rcb, -, ⟨-, rfl⟩ | ⟨-, mode, -, rfl⟩⟩⟩ := step_allocRcb_cases h
    · exact hw
    · exact hw.congr rfl rfl rfl (Framework.map_update _ fun _ => rfl)
    · exact hw.congr rfl rfl rfl (Framework.map_update _ fun _ => rfl)
  | getSession tpIndex e =>
    rcases step_getSession_cases h with ⟨-, rfl⟩ | ⟨r, -, ⟨-, rfl⟩ | ⟨-, i, hi, rfl⟩⟩
    · exact hw
    · exact hw.congr rfl rfl rfl rfl
    · have hw' : Wf (l.countPending r.mode r.remoteLu.index r.type) := hw.congr rfl rfl rfl rfl
      exact (Starts.of_starts hi).wf hw' rfl
  | startRemoteLu useName e =>
    rcases step_startRemoteLu_cases h with ⟨-, rfl⟩ | ⟨mode, remoteLu, -, ⟨-, rfl⟩ | ⟨-, i, hi, rfl⟩⟩
    · exact hw
    · exact hw
    · exact (Starts.of_starts hi).wf hw rfl
  | routeDone i pcIndex e =>
    by_cases hi : i ∈ l.waiting
    · obtain ⟨u, hu, hs⟩ := hw.waiting i hi
      obtain rfl : u.index = i := Framework.key_of_find hu
      obtain ⟨u', ho⟩ := step_routeDone_cases hu hs h
      exact ho.wf hw hu
    · exact absurd (step_routeDone_mem h) hi
  | bindRsp odai daf oaf rsp copied =>
    rcases step_bindRsp_cases h with ⟨-, hf, hl, -⟩ | ⟨u, -, hu, hs, ho⟩
    · exact hw.congr hl hf.waiting hf.bound hf.tp
    · exact ho.wf hw hu hs
  | linkUp as pc =>
    rw [step_linkUp h]
    exact hw.congr rfl rfl rfl rfl
  | linkDown pcIndex =>
    rw [step_linkDown h]
    exact hw.congr rfl rfl rfl rfl

/-! ## Requests -/

theorem Request.admits {tpIndex : UInt32} {r : Request} (h : requested l tpIndex = some r) :
    Rm.Admits r.mode r.remoteLu := by
  obtain ⟨-, -, -, hp⟩ := requested_spec h
  by_contra hn
  rw [Rm.polarity_eq_none.mpr hn] at hp
  exact absurd hp nofun

theorem Request.pending_lt {tpIndex : UInt32} {r : Request} (h : requested l tpIndex = some r) :
    r.mode.pending.sessions.toNat < r.mode.userMax.sessions.toNat :=
  Nat.lt_of_le_of_lt (Nat.le_add_right _ _) (Request.admits h).1

/-- The mode of a granted request has room for one more pending session. -/
theorem pending_countPending {tpIndex : UInt32} {r : Request} (h : requested l tpIndex = some r) :
    (r.mode.countPending r.type).pending.sessions.toNat = r.mode.pending.sessions.toNat + 1 := by
  cases r.type <;> exact Rm.toNat_succ (Request.pending_lt h) r.mode.userMax.sessions.toNat_lt

/-! ## The start -/

/-- Nothing has been activated yet. -/
structure Initial (l : Lists) : Prop where
  luluList : l.luluList = []
  hsList : l.hsList = []
  waiting : l.waiting = []
  bound : l.bound = []
  counted : l.counted = []
  inUse : Asm.inUse l.asmList = 0
  modes (i : UInt32) (mode : ModeCb) : l.mode i = some mode →
    mode.active = LuCount.zero ∧ mode.pending = LuCount.zero
  tp : 0 ∉ l.tpList.map (·.index)

theorem Initial.wf (h : Initial l) : Wf l := by
  refine ⟨by simp [h.luluList], fun i hi => ?_, by simp [h.waiting], fun i hi => ?_, h.tp⟩
  · rw [h.waiting] at hi
    exact absurd hi List.not_mem_nil
  · rw [h.bound] at hi
    exact absurd hi List.not_mem_nil

theorem initial_oneProgram : Initial oneProgram := by
  refine ⟨rfl, rfl, rfl, rfl, rfl, rfl, fun i mode hm => ?_, by decide⟩
  have hm := Framework.mem_of_find hm
  rw [show oneProgram.modeList = [oneMode] from rfl, List.mem_singleton] at hm
  subst hm
  exact ⟨rfl, rfl⟩

end LinuxSna.Sm
