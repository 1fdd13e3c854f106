import LinuxSna.Impl.Sna.Ps.Allocate
import LinuxSna.Proof.Sna.Sm.Progress

/-!
# Allocate, all or nothing

The conversation is linked before anything else can fail and is never taken off the
list, and the program waits for a state that an earlier session may have left.

* `converses_step`: a program's conversation stays its own;
* `quiet_step`: and is as it was after an event that does not concern the program;
* `allocate_atomic`: in a run in which every Allocate is refused at once or gets its
  session while it waits, each of them is all or nothing.
-/

namespace LinuxSna.Ps

open Framework (find update run Along)
open Hs (HsCb HsType)
open Rm (ModeCb RemoteLuCb TpCb)
open Sm

variable {l l' : Lists} {u : Lulu} {t n i : UInt32} {e : Event}

/-! ## What an event leaves of a conversation -/

/-- The program has allocated or asks for a session. -/
def IsVerbOf (t : UInt32) : Event → Prop
  | .allocRcb t' _ _ | .getSession t' _ => t' = t
  | _ => False

/-- A session becomes active. -/
def Completes (u : Lulu) (l : Lists) : Event → Prop
  | .bindRsp odai daf oaf rsp copied =>
    correlate l odai daf oaf = some u ∧ u.state = .pndBinRsp ∧ completes l u rsp copied = true
  | _ => False

/-- The event does not concern the program. -/
def Quiet (t : UInt32) (l : Lists) (e : Event) : Prop :=
  ¬ IsVerbOf t e ∧ ∀ u, Completes u l e → u.tpIndex ≠ t

theorem IsVerbOf.unique {t' : UInt32} (h : IsVerbOf t e) (h' : IsVerbOf t' e) : t = t' := by
  cases e with
  | allocRcb | getSession => exact h.symm.trans h'
  | _ => exact absurd h id

theorem Completes.not_isVerbOf (h : Completes u l e) : ¬ IsVerbOf t e := by
  cases e with
  | bindRsp => exact id
  | _ => exact absurd h id

/-- The conversations after an event: as they were, with a new one, or with one that
has been told of its session. -/
theorem step_conversations (hw : Wf l) (h : step l e = some l') :
    (l'.tpList = l.tpList ∧ l'.rcbList = l.rcbList) ∨
    (∃ tp rcb, IsVerbOf tp.index e ∧ l.tp tp.index = some tp ∧ IsNew l tp rcb ∧
      l'.tpList = (l.linked tp rcb).tpList ∧ l'.rcbList = (l.linked tp rcb).rcbList) ∨
    ∃ u, Completes u l e ∧ l'.tpList = (successfulSessionActivation l u).tpList ∧
      l'.rcbList = (successfulSessionActivation l u).rcbList := by
  cases e with
  | allocRcb tpIndex alloc scbHs =>
    obtain ⟨tp, ht, hs⟩ := step_allocRcb_cases h
    obtain rfl : tp.index = tpIndex := Framework.key_of_find ht
    rcases hs with ⟨-, rfl⟩ | ⟨-, rcb, hn, ⟨-, rfl⟩ | ⟨-, mode, -, rfl⟩⟩
    · exact .inl ⟨rfl, rfl⟩
    · exact .inr (.inl ⟨tp, rcb, rfl, ht, hn, rfl, rfl⟩)
    · exact .inr (.inl ⟨tp, rcb, rfl, ht, hn, rfl, rfl⟩)
  | getSession tpIndex e =>
    rcases step_getSession_cases h with ⟨-, rfl⟩ | ⟨r, -, ⟨-, rfl⟩ | ⟨-, i, -, rfl⟩⟩ <;>
      exact .inl ⟨rfl, rfl⟩
  | startRemoteLu useName e =>
    rcases step_startRemoteLu_cases h with ⟨-, rfl⟩ | ⟨m, r, -, ⟨-, rfl⟩ | ⟨-, i, -, rfl⟩⟩ <;>
      exact .inl ⟨rfl, rfl⟩
  | routeDone i pcIndex e =>
    obtain ⟨u, hu, hs⟩ := hw.waiting i (step_routeDone_mem h)
    obtain ⟨u', ho⟩ := step_routeDone_cases hu hs h
    exact .inl ⟨ho.same.tpList, ho.same.rcbList⟩
  | bindRsp odai daf oaf rsp copied =>
    rcases step_bindRsp_cases h with ⟨-, -, -, hb⟩ | ⟨u, hc, -, hs, ho⟩
    · exact .inl ⟨hb.tpList, hb.rcbList⟩
    · rcases ho.outcome with ⟨-, hb⟩ | ⟨hd, mode, -, ht⟩
      · exact .inl ⟨hb.tpList, hb.rcbList⟩
      · exact .inr (.inr ⟨u, ⟨hc, hs, hd⟩, ht.tpList, ht.rcbList⟩)
  | linkUp as pc =>
    rw [step_linkUp h]
    exact .inl ⟨rfl, rfl⟩
  | linkDown pcIndex =>
    rw [step_linkDown h]
    exact .inl ⟨rfl, rfl⟩

/-! ## A new conversation, and one that is told -/

theorem tp_linked {tp : TpCb} {rcb : Rm.Rcb} (ht : l.tp tp.index = some tp) :
    (l.linked tp rcb).tp t =
      if t = tp.index then some { tp with rcbIndex := rcb.index } else l.tp t :=
  Framework.find_update_of_find (f := fun x : TpCb => { x with rcbIndex := rcb.index })
    (fun _ h => h) ht

theorem rcb_linked {tp : TpCb} {rcb rcb' : Rm.Rcb} (h : l.rcb i = some rcb') :
    (l.linked tp rcb).rcb i = some rcb' := Framework.find_append_of_find h _

theorem rcb_linked_new {tp : TpCb} {rcb : Rm.Rcb} (h : IsNew l tp rcb) :
    (l.linked tp rcb).rcb rcb.index = some rcb := by
  show find _ _ (l.rcbList ++ [rcb]) = _
  rw [Framework.find_append_of_not_mem h.fresh, Framework.find_cons_self]

/-- The program of a session is active, and its conversation has the half-session. -/
def told (l : Lists) (u : Lulu) (n : UInt32) : Lists :=
  { l with
    rcbList := update Rm.Rcb.index n ({ · with hsIndex := u.hsIndex }) l.rcbList
    tpList := update TpCb.index u.tpIndex ({ · with state := .active }) l.tpList }

/-- A program that has no conversation is not told. -/
theorem successfulSessionActivation_cases (l : Lists) (u : Lulu) :
    (successfulSessionActivation l u = l ∧ ∀ tp, l.tp u.tpIndex = some tp → l.rcb tp.rcbIndex = none) ∨
    ∃ tp rcb, l.tp u.tpIndex = some tp ∧ l.rcb tp.rcbIndex = some rcb ∧
      successfulSessionActivation l u = told l u tp.rcbIndex := by
  unfold successfulSessionActivation told
  cases ht : l.tp u.tpIndex with
  | none => exact .inl ⟨rfl, nofun⟩
  | some tp =>
    have hti : tp.index = u.tpIndex := Framework.key_of_find ht
    cases hr : l.rcb tp.rcbIndex with
    | none => exact .inl ⟨by simp only [hr], fun tp' h => Option.some.inj h ▸ hr⟩
    | some rcb =>
      have hri : rcb.index = tp.rcbIndex := Framework.key_of_find hr
      refine .inr ⟨tp, rcb, rfl, hr, ?_⟩
      simp only [hr, hti, hri]

theorem tp_told : (told l u n).tp t =
    if t = u.tpIndex then (l.tp t).map ({ · with state := .active }) else l.tp t :=
  Framework.find_update (f := fun x : TpCb => { x with state := .active }) fun _ h => h

theorem rcb_told : (told l u n).rcb i =
    if i = n then (l.rcb i).map ({ · with hsIndex := u.hsIndex }) else l.rcb i :=
  Framework.find_update (f := fun x : Rm.Rcb => { x with hsIndex := u.hsIndex }) fun _ h => h

/-! ## A program and its conversation -/

/-- The program's control block names the conversation, which is the program's own. -/
def Converses (l : Lists) (t n : UInt32) : Prop :=
  (l.tp t).map (·.rcbIndex) = some n ∧ (l.rcb n).map (·.tpIndex) = some t

/-- The programs have no conversation, or one of their own. -/
def OwnConversations (l : Lists) : Prop :=
  ∀ t tp, l.tp t = some tp → tp.rcbIndex = 0 ∨ Converses l t tp.rcbIndex

theorem tp_congr (h : l'.tpList = l.tpList) (t : UInt32) : l'.tp t = l.tp t :=
  congrArg (find TpCb.index t) h

theorem rcb_congr (h : l'.rcbList = l.rcbList) (n : UInt32) : l'.rcb n = l.rcb n :=
  congrArg (find Rm.Rcb.index n) h

theorem converses_congr (ht : l'.tpList = l.tpList) (hr : l'.rcbList = l.rcbList) :
    Converses l' t n ↔ Converses l t n := by
  rw [Converses, tp_congr ht, rcb_congr hr, Converses]

/-- What telling the program of a session leaves of the conversations. -/
theorem successfulSessionActivation_maps (l : Lists) (u : Lulu) (t n : UInt32) :
    ((successfulSessionActivation l u).tp t).map (·.rcbIndex) = (l.tp t).map (·.rcbIndex) ∧
    ((successfulSessionActivation l u).rcb n).map (·.tpIndex) = (l.rcb n).map (·.tpIndex) := by
  rcases successfulSessionActivation_cases l u with ⟨h, -⟩ | ⟨tp, rcb, -, -, h⟩
  · rw [h]
    exact ⟨rfl, rfl⟩
  · rw [h]
    exact ⟨Framework.map_find_update (f := fun x : TpCb => { x with state := .active })
        (fun _ h => h) fun _ => rfl,
      Framework.map_find_update (f := fun x : Rm.Rcb => { x with hsIndex := u.hsIndex })
        (fun _ h => h) fun _ => rfl⟩

/-- A program's conversation stays its own while the program sleeps. -/
theorem converses_step (hw : Wf l) (hc : Converses l t n) (hv : ¬ IsVerbOf t e)
    (h : step l e = some l') : Converses l' t n := by
  rcases step_conversations hw h with ⟨ht, hr⟩ | ⟨tp, rcb, hv', hf, -, ht, hr⟩ | ⟨u, -, ht, hr⟩
  · exact (converses_congr ht hr).mpr hc
  · have hne : t ≠ tp.index := fun he => hv (he ▸ hv')
    obtain ⟨rcb', hn, -⟩ := Option.map_eq_some_iff.mp hc.2
    rw [converses_congr ht hr, Converses, tp_linked hf, if_neg hne, rcb_linked hn, ← hn]
    exact hc
  · rw [converses_congr ht hr, Converses, (successfulSessionActivation_maps l u t n).1,
      (successfulSessionActivation_maps l u t n).2]
    exact hc

theorem ownConversations_step (hw : Wf l) (hc : OwnConversations l) (h : step l e = some l') :
    OwnConversations l' := by
  intro t tp' ht'
  have hkept : ∀ tp, l.tp t = some tp → tp.rcbIndex = tp'.rcbIndex → ¬ IsVerbOf t e →
      tp'.rcbIndex = 0 ∨ Converses l' t tp'.rcbIndex := fun tp hf hi hv =>
    hi ▸ (hc t tp hf).imp_right fun hc => converses_step hw hc hv h
  rcases step_conversations hw h with ⟨ht, hr⟩ | ⟨tp, rcb, hv, hf, hnew, ht, hr⟩ | ⟨u, hu, ht, hr⟩
  · rw [tp_congr ht] at ht'
    exact (hc t tp' ht').imp_right (converses_congr ht hr).mpr
  · rw [tp_congr ht, tp_linked hf] at ht'
    by_cases hi : t = tp.index
    · rw [if_pos hi, Option.some.injEq] at ht'
      subst ht'
      refine .inr ((converses_congr ht hr).mpr ⟨?_, ?_⟩)
      · rw [tp_linked hf, if_pos hi]
        rfl
      · rw [rcb_linked_new hnew, Option.map_some, hnew.tpIndex, hi]
    · rw [if_neg hi] at ht'
      exact hkept tp' ht' rfl fun hv' => hi (hv'.unique hv)
  · have hm := (successfulSessionActivation_maps l u t 0).1
    rw [← tp_congr ht t, ht', Option.map_some, eq_comm, Option.map_eq_some_iff] at hm
    obtain ⟨tp, hf, hi⟩ := hm
    exact hkept tp hf hi hu.not_isVerbOf

/-- An event that does not concern a program leaves it and its conversation. -/
theorem quiet_step (hw : Wf l) (ho : OwnConversations l) (hc : Converses l t n) (hn : n ≠ 0)
    (hq : Quiet t l e) (h : step l e = some l') : l'.tp t = l.tp t ∧ l'.rcb n = l.rcb n := by
  rcases step_conversations hw h with ⟨ht, hr⟩ | ⟨tp, rcb, hv, hf, -, ht, hr⟩ | ⟨u, hu, ht, hr⟩
  · exact ⟨tp_congr ht t, rcb_congr hr n⟩
  · have hne : t ≠ tp.index := fun he => hq.1 (he ▸ hv)
    obtain ⟨rcb', hf', -⟩ := Option.map_eq_some_iff.mp hc.2
    rw [tp_congr ht, rcb_congr hr, tp_linked hf, if_neg hne, rcb_linked hf', hf']
    exact ⟨rfl, rfl⟩
  · have hne : t ≠ u.tpIndex := (hq.2 u hu).symm
    rw [tp_congr ht, rcb_congr hr]
    rcases successfulSessionActivation_cases l u with ⟨h, -⟩ | ⟨tp, rcb, hf, -, h⟩
    · rw [h]
      exact ⟨rfl, rfl⟩
    · -- the program told has another conversation, which is its own
      have hnr : n ≠ tp.rcbIndex := by
        rintro rfl
        rcases ho _ _ hf with h0 | hc'
        · exact hn h0
        · exact hne (Option.some.inj (hc.2.symm.trans hc'.2))
      rw [h, tp_told, if_neg hne, rcb_told, if_neg hnr]
      exact ⟨rfl, rfl⟩

/-! ## What an event leaves of the sessions and of what was defined -/

/-- The half-sessions are those of sessions. -/
def Owned (l : Lists) : Prop := ∀ hs ∈ l.hsList, (l.lulu hs.luluIndex).isSome

/-- A session stays, and one that is active stays as it is. -/
theorem lulu_step (hw : Wf l) (hu : l.lulu i = some u) (h : step l e = some l') :
    ∃ u', l'.lulu i = some u' ∧ u'.Kin u ∧ (u.state = .act → u' = u) := by
  have hui : u.index = i := Framework.key_of_find hu
  have hsame : l'.luluList = l.luluList → ∃ u', l'.lulu i = some u' ∧ u'.Kin u ∧
      (u.state = .act → u' = u) := fun hl =>
    ⟨u, (congrArg (find Lulu.index i) hl).trans hu, .refl u, fun _ => rfl⟩
  have hmoves : ∀ v v', Sm.Moves l l' v v' → v.state ≠ .act →
      ∃ u', l'.lulu i = some u' ∧ u'.Kin u ∧ (u.state = .act → u' = u) := fun v v' hm hs => by
    by_cases hi : i = v.index
    · obtain rfl : u = v := Option.some.inj (hu.symm.trans (hi ▸ hm.found))
      exact ⟨v', by rw [hm.lulu, if_pos hi], hm.kin, fun ha => absurd ha hs⟩
    · exact ⟨u, by rw [hm.lulu, if_neg hi, hu], .refl u, fun _ => rfl⟩
  cases e with
  | allocRcb tpIndex alloc scbHs =>
    obtain ⟨tp, -, ⟨-, rfl⟩ | ⟨-, rcb, -, ⟨-, rfl⟩ | ⟨-, mode, -, rfl⟩⟩⟩ := step_allocRcb_cases h <;>
      exact hsame rfl
  | getSession tpIndex e =>
    rcases step_getSession_cases h with ⟨-, rfl⟩ | ⟨r, -, ⟨-, rfl⟩ | ⟨-, j, hj, rfl⟩⟩
    · exact hsame rfl
    · exact hsame rfl
    · exact ⟨u, (Starts.of_countPending hj).lulu hu, .refl u, fun _ => rfl⟩
  | startRemoteLu useName e =>
    rcases step_startRemoteLu_cases h with ⟨-, rfl⟩ | ⟨m, r, -, ⟨-, rfl⟩ | ⟨-, j, hj, rfl⟩⟩
    · exact hsame rfl
    · exact hsame rfl
    · exact ⟨u, (Starts.of_starts hj).lulu hu, .refl u, fun _ => rfl⟩
  | routeDone j pcIndex e =>
    obtain ⟨v, hv, hs⟩ := hw.waiting j (step_routeDone_mem h)
    obtain rfl : v.index = j := Framework.key_of_find hv
    obtain ⟨v', ho⟩ := step_routeDone_cases hv hs h
    exact hmoves v v' (ho.moves hv) (by rw [hs]; nofun)
  | bindRsp odai daf oaf rsp copied =>
    rcases step_bindRsp_cases h with ⟨-, -, hl, -⟩ | ⟨v, -, hv, hs, ho⟩
    · exact hsame hl
    · exact hmoves v _ (ho.moves hv) (by rw [hs]; nofun)
  | linkUp as pc =>
    rw [step_linkUp h] at hsame ⊢
    exact hsame rfl
  | linkDown pcIndex =>
    rw [step_linkDown h] at hsame ⊢
    exact hsame rfl

/-- The modes and the remote LUs stay. -/
theorem defs_step (hw : Wf l) (h : step l e = some l') (i : UInt32) :
    (l'.mode i).isSome = (l.mode i).isSome ∧ (l'.remoteLu i).isSome = (l.remoteLu i).isSome := by
  have hmodes : ∀ (j : UInt32) (f : ModeCb → ModeCb), (∀ m, (f m).index = m.index) →
      (find ModeCb.index i (update ModeCb.index j f l.modeList)).isSome = (l.mode i).isSome :=
    fun j f hf => Framework.isSome_find_congr (Framework.map_update _ hf)
  cases e with
  | allocRcb tpIndex alloc scbHs =>
    obtain ⟨tp, -, ⟨-, rfl⟩ | ⟨-, rcb, -, ⟨-, rfl⟩ | ⟨-, mode, -, rfl⟩⟩⟩ := step_allocRcb_cases h
    · exact ⟨rfl, rfl⟩
    · exact ⟨rfl, rfl⟩
    · exact ⟨hmodes _ (·.countActive .fsp) fun _ => rfl, rfl⟩
  | getSession tpIndex e =>
    rcases step_getSession_cases h with ⟨-, rfl⟩ | ⟨r, -, ⟨-, rfl⟩ | ⟨-, j, -, rfl⟩⟩
    · exact ⟨rfl, rfl⟩
    · exact ⟨hmodes _ (·.countPending r.type) fun _ => rfl, rfl⟩
    · exact ⟨hmodes _ (·.countPending r.type) fun _ => rfl, rfl⟩
  | startRemoteLu useName e =>
    rcases step_startRemoteLu_cases h with ⟨-, rfl⟩ | ⟨m, r, -, ⟨-, rfl⟩ | ⟨-, j, -, rfl⟩⟩ <;>
      exact ⟨rfl, rfl⟩
  | routeDone j pcIndex e =>
    obtain ⟨v, hv, hs⟩ := hw.waiting j (step_routeDone_mem h)
    obtain ⟨v', ho⟩ := step_routeDone_cases hv hs h
    exact ⟨congrArg (fun m => (find ModeCb.index i m).isSome) ho.same.modeList,
      congrArg (fun r => (find RemoteLuCb.index i r).isSome) ho.same.remoteLuList⟩
  | bindRsp odai daf oaf rsp copied =>
    have hrsp : RspFrame l l' → (l'.remoteLu i).isSome = (l.remoteLu i).isSome := fun hf => by
      rw [← Option.isSome_map (f := (·.parallel)), hf.parallel, Option.isSome_map]
    rcases step_bindRsp_cases h with ⟨-, hf, -, hb⟩ | ⟨v, -, -, -, ho⟩
    · exact ⟨congrArg (fun m => (find ModeCb.index i m).isSome) hb.modeList, hrsp hf⟩
    · exact ⟨by rw [ho.mode, Option.isSome_map], hrsp ho.frame⟩
  | linkUp as pc =>
    rw [step_linkUp h]
    exact ⟨rfl, rfl⟩
  | linkDown pcIndex =>
    rw [step_linkDown h]
    exact ⟨rfl, rfl⟩

/-- The sessions of the half-sessions after an event. -/
theorem owner_step (hw : Wf l) (h : step l e = some l') {hs : HsCb} (hh : hs ∈ l'.hsList) :
    (∃ hs₀ ∈ l.hsList, hs₀.luluIndex = hs.luluIndex) ∨ (l'.lulu hs.luluIndex).isSome := by
  cases e with
  | allocRcb tpIndex alloc scbHs =>
    obtain ⟨tp, -, ⟨-, rfl⟩ | ⟨-, rcb, -, ⟨-, rfl⟩ | ⟨-, mode, -, rfl⟩⟩⟩ := step_allocRcb_cases h <;>
      exact .inl ⟨hs, hh, rfl⟩
  | getSession tpIndex e =>
    rcases step_getSession_cases h with ⟨-, rfl⟩ | ⟨r, -, ⟨-, rfl⟩ | ⟨-, j, -, rfl⟩⟩ <;>
      exact .inl ⟨hs, hh, rfl⟩
  | startRemoteLu useName e =>
    rcases step_startRemoteLu_cases h with ⟨-, rfl⟩ | ⟨m, r, -, ⟨-, rfl⟩ | ⟨-, j, -, rfl⟩⟩ <;>
      exact .inl ⟨hs, hh, rfl⟩
  | routeDone j pcIndex e =>
    obtain ⟨v, hv, hst⟩ := hw.waiting j (step_routeDone_mem h)
    obtain rfl : v.index = j := Framework.key_of_find hv
    obtain ⟨v', ho⟩ := step_routeDone_cases hv hst h
    rcases ho.owner hs hh with hm | hm
    · exact .inl ⟨hs, hm, rfl⟩
    · rw [hm, (ho.moves hv).lulu, if_pos rfl]
      exact .inr rfl
  | bindRsp odai daf oaf rsp copied =>
    have hrsp : RspFrame l l' → ∃ hs₀ ∈ l.hsList, hs₀.luluIndex = hs.luluIndex := fun hf =>
      List.mem_map.mp (hf.owner ▸ List.mem_map_of_mem hh)
    rcases step_bindRsp_cases h with ⟨-, hf, -, -⟩ | ⟨v, -, -, -, ho⟩
    · exact .inl (hrsp hf)
    · exact .inl (hrsp ho.frame)
  | linkUp as pc =>
    rw [step_linkUp h] at hh
    exact .inl ⟨hs, hh, rfl⟩
  | linkDown pcIndex =>
    rw [step_linkDown h] at hh
    exact .inl ⟨hs, hh, rfl⟩

theorem owned_step (hw : Wf l) (ho : Owned l) (h : step l e = some l') : Owned l' := by
  intro hs hh
  rcases owner_step hw h hh with ⟨hs₀, hm, he⟩ | hs
  · obtain ⟨u, hu⟩ := Option.isSome_iff_exists.mp (ho hs₀ hm)
    obtain ⟨u', hu', -⟩ := lulu_step hw hu h
    rw [← he, hu']
    rfl
  · exact hs

/-! ## A program that sleeps -/

/-- What holds in every reachable state. -/
structure Sound (l : Lists) : Prop where
  wf : Wf l
  conversations : OwnConversations l
  owned : Owned l

theorem Sound.of_step (hs : Sound l) (h : step l e = some l') : Sound l' :=
  ⟨hs.wf.of_step h, ownConversations_step hs.wf hs.conversations h, owned_step hs.wf hs.owned h⟩

/-- A program sleeps, with its conversation and a session that it has started. -/
structure Sleeps (t n i remoteLu : UInt32) (l : Lists) : Prop where
  sound : Sound l
  converses : Converses l t n
  lulu : ∃ u, l.lulu i = some u ∧ u.tpIndex = t ∧ (l.mode u.modeIndex).isSome
  remoteLu : (l.remoteLu remoteLu).isSome

theorem Sleeps.of_step {r : UInt32} (hs : Sleeps t n i r l) (hv : ¬ IsVerbOf t e)
    (h : step l e = some l') : Sleeps t n i r l' := by
  obtain ⟨u, hu, ht, hm⟩ := hs.lulu
  obtain ⟨u', hu', hk, -⟩ := lulu_step hs.sound.wf hu h
  refine ⟨hs.sound.of_step h, converses_step hs.sound.wf hs.converses hv h, ⟨u', hu', ?_, ?_⟩, ?_⟩
  · rw [hk.tpIndex, ht]
  · rw [hk.modeIndex, (defs_step hs.sound.wf h _).1]
    exact hm
  · rw [(defs_step hs.sound.wf h _).2]
    exact hs.remoteLu

/-- The session is active, and the program and its conversation know it. -/
structure Knows (t n : UInt32) (u : Lulu) (l : Lists) : Prop where
  lulu : l.lulu u.index = some u
  act : u.state = .act
  tp : (l.tp t).map (·.state) = some .active
  rcb : (l.rcb n).map (·.hsIndex) = some u.hsIndex

theorem Knows.of_quiet {r : UInt32} (hs : Sleeps t n i r l) (hn : n ≠ 0) (hk : Knows t n u l)
    (hq : Quiet t l e) (h : step l e = some l') : Knows t n u l' := by
  obtain ⟨ht, hr⟩ := quiet_step hs.sound.wf hs.sound.conversations hs.converses hn hq h
  obtain ⟨u', hu', -, ha⟩ := lulu_step hs.sound.wf hk.lulu h
  refine ⟨?_, hk.act, ht ▸ hk.tp, hr ▸ hk.rcb⟩
  rw [hu', ha hk.act]

/-- The event that makes the session of a program active tells the program. -/
theorem Knows.of_completes {r : UInt32} (hs : Sleeps t n u.index r l) (hu : Completes u l e)
    (h : step l e = some l') : Knows t n { u with state := .act } l' ∧ u.tpIndex = t := by
  cases e with
  | bindRsp odai daf oaf rsp copied =>
    obtain ⟨hc, hst, hd⟩ := hu
    rcases step_bindRsp_cases h with ⟨hne, -⟩ | ⟨u', hc', hu', -, ho⟩
    · exact absurd hst (hne u hc)
    · obtain rfl : u = u' := Option.some.inj (hc.symm.trans hc')
      obtain ⟨v, hv, ht, hm⟩ := hs.lulu
      obtain rfl : u = v := Option.some.inj (hu'.symm.trans hv)
      rw [hd] at ho
      refine ⟨?_, ht⟩
      rcases ho.outcome with ⟨hf | hf, -⟩ | ⟨-, mode, -, htold⟩
      · exact absurd hf nofun
      · rw [hf] at hm
        exact absurd hm nofun
      · obtain ⟨tp, htp, hn⟩ := Option.map_eq_some_iff.mp hs.converses.1
        obtain ⟨rcb, hrcb, -⟩ := Option.map_eq_some_iff.mp hs.converses.2
        have hlulu : l'.lulu u.index = some { u with state := .act } := by
          rw [(ho.moves hu').lulu, if_pos rfl]
          rfl
        rcases successfulSessionActivation_cases l u with ⟨-, hnone⟩ | ⟨tp', rcb', htp', -, htold'⟩
        · rw [ht] at hnone
          exact absurd (hn ▸ hnone tp htp) (by rw [hrcb]; nofun)
        · rw [ht, htp, Option.some.injEq] at htp'
          subst htp' hn
          refine ⟨hlulu, rfl, ?_, ?_⟩
          · rw [tp_congr htold.tpList, htold', tp_told, if_pos ht.symm, htp]
            rfl
          · rw [rcb_congr htold.rcbList, htold', rcb_told, if_pos rfl, hrcb]
            rfl
  | _ => exact absurd hu id

/-! ## All or nothing -/

/-- The session that an Allocate has started is active, and its half-session is that
of the conversation and has got the Attach. -/
def HasOwnSession (l : Lists) (t : UInt32) (d : AllocDone) : Prop :=
  ∃ n u rcb, d.rcbIndex = some n ∧ d.own = some u.index ∧ l.lulu u.index = none ∧
    d.lists.lulu u.index = some u ∧ u.state = .act ∧ u.tpIndex = t ∧
    d.lists.rcb n = some rcb ∧ rcb.hsIndex = u.hsIndex ∧ d.attached = some u.hsIndex

/-- An Allocate has got a session of its own, or it has changed no conversation; and
`sna_rm_get_session` has returned 0 only with a session of its own. -/
structure AllOrNothing (l : Lists) (t : UInt32) (d : AllocDone) : Prop where
  all : d.rc = acRcOk → HasOwnSession l t d
  nothing : d.rc ≠ acRcOk →
    d.lists.rcbList = l.rcbList ∧ (d.lists.tp t).map (·.rcbIndex) = (l.tp t).map (·.rcbIndex)
  session : d.session = some 0 →
    ∃ u, d.own = some u.index ∧ l.lulu u.index = none ∧ d.lists.lulu u.index = some u ∧ u.state = .act

/-- An Allocate that comes back is all or nothing. -/
def Atomic (l : Lists) : AllocEvent → Prop
  | .allocate t e => ∀ d, allocProc l t e = some d → AllOrNothing l t d
  | .other _ => True

/-- The half-session and its link are there. -/
def hasLink (l : Lists) (hsIndex : UInt32) : Bool :=
  match l.hs hsIndex with
  | none => false
  | some hs => (l.pc hs.pcIndex).isSome

/-- Session `u` becomes active while its program waits, then nothing more concerns the
program, and the link stays up. -/
def Comes (t : UInt32) (u : Lulu) (l : Lists) (waiting : List Event) : Prop :=
  ∃ es₁ e es₂ l₁ l₂ l₃, waiting = es₁ ++ e :: es₂ ∧ (∀ e ∈ es₁, ¬ IsVerbOf t e) ∧
    run step l es₁ = some l₁ ∧ Completes u l₁ e ∧ step l₁ e = some l₂ ∧
    Along step (Quiet t) l₂ es₂ ∧ run step l₂ es₂ = some l₃ ∧ hasLink l₃ u.hsIndex = true

/-- The program asks for a session while it does not look as if it had one, the
session is started, and it comes. -/
def SessionComes (t : UInt32) (e : AllocEnv) (l : Lists) : Prop :=
  ∃ r l₁ l₂ l₃ u, requested l t = some r ∧ r.tp.state ≠ .active ∧
    startRefused r.remoteLu (r.mode.countPending r.type) r.type e.start = false ∧
    e.start.route = true ∧ step l (.getSession t e.start) = some l₁ ∧ u.index = l₁.luluSystemIndex ∧
    Along step (Quiet t) l₁ e.routing ∧ run step l₁ e.routing = some l₂ ∧
    step l₂ (.routeDone u.index e.pcIndex e.route) = some l₃ ∧ Comes t u l₃ e.waiting

/-- There is no control block for the conversation; or its session comes, and there
are a port and memory for the Attach. -/
def Good (l : Lists) : AllocEvent → Prop
  | .allocate t e => ∀ tp r, l.tp t = some tp → createsRcb l tp e.rcbAlloc = true →
      allocRcb l tp e.rcbAlloc e.scbHs = some r → SessionComes t e r.2 ∧ e.attach = ⟨true, true, true⟩
  | .other _ => True

/-! ## The session of an Allocate -/

/-- A request that is granted starts a session, which sleeps. -/
theorem requestSession_sleeps {tp : TpCb} {mode : ModeCb} {remoteLu : RemoteLuCb} {r : Request}
    {e : StartEnv} {p : Progress × Lists} (hr : requested l t = some r) (ht : l.tp t = some tp)
    (hg : getSessionLookup l tp = .ok (mode, remoteLu))
    (hs : startRefused r.remoteLu (r.mode.countPending r.type) r.type e = false)
    (hroute : e.route = true) (h : requestSession l tp mode remoteLu e = some p) :
    p.1 = .sleeps p.2.luluSystemIndex := by
  unfold requested at hr
  simp only [ht, hg] at hr
  obtain ⟨type, hp, rfl⟩ := Option.map_eq_some_iff.mp hr
  simp only [requestSession, hp, sendActivateSession] at h
  obtain ⟨hm, hl, -⟩ := getSessionLookup_ok hg
  have hli : remoteLu.index = tp.remoteLuIndex := Framework.key_of_find hl
  have hm' : ((l.countPending mode remoteLu.index type).mode (mode.countPending type).index).isSome :=
    Option.isSome_of_eq_some
      ((mode_countPending_eq type remoteLu.index hm).trans (if_pos (Framework.key_of_find hm)))
  have hl' : ((l.countPending mode remoteLu.index type).remoteLu remoteLu.index).isSome := by
    rw [hli]
    exact Option.isSome_of_eq_some hl
  rcases procActivateSession_cases hm' hl' h with ⟨hf, -⟩ | ⟨-, i, -, hp2, hp1⟩
  · cases hs.symm.trans hf
  · rw [hp1, hp2, hroute]
    rfl

/-- What a granted request starts. -/
theorem sleeps_of_getSession {r : Request} {e : StartEnv} (hs : Sound l) (hc : Converses l t n)
    (hr : requested l t = some r)
    (hst : startRefused r.remoteLu (r.mode.countPending r.type) r.type e = false)
    (h : step l (.getSession t e) = some l') :
    Sleeps t n l'.luluSystemIndex r.tp.remoteLuIndex l' ∧ l.lulu l'.luluSystemIndex = none ∧
      l'.tp t = l.tp t := by
  have hs' := hs.of_step h
  have hdefs := defs_step hs.wf h
  rcases step_getSession_cases h with ⟨hn, -⟩ | ⟨r', hr', ⟨hf, -⟩ | ⟨-, i, hi, rfl⟩⟩
  · exact absurd (hr.symm.trans hn) nofun
  · obtain rfl : r = r' := Option.some.inj (hr.symm.trans hr')
    exact absurd (hst.symm.trans hf) nofun
  · obtain rfl : r = r' := Option.some.inj (hr.symm.trans hr')
    obtain ⟨ht, hm, hl, -⟩ := requested_spec hr
    have hti : r.tp.index = t := Framework.key_of_find ht
    have hmi : r.mode.index = r.tp.modeIndex := Framework.key_of_find hm
    refine ⟨⟨hs', hc, ⟨{ newLulu r.mode r.remoteLu r.tp.index r.type i with state := .pndCin },
      Framework.find_cons_self, hti, ?_⟩, ?_⟩, Framework.find_eq_none.mpr hi, rfl⟩
    · show (Lists.mode _ r.mode.index).isSome
      rw [(hdefs _).1, hmi, hm]
      rfl
    · rw [(hdefs _).2, hl]
      rfl

theorem sleeps_run {r : UInt32} {es : List Event} (hs : Sleeps t n i r l) (hq : ∀ e ∈ es, ¬ IsVerbOf t e)
    (h : run step l es = some l') : Sleeps t n i r l' := by
  induction es generalizing l with
  | nil =>
    obtain rfl := Option.some.inj h
    exact hs
  | cons e es ih =>
    obtain ⟨m, hm, h⟩ := Framework.run_cons.mp h
    exact ih (hs.of_step (hq e List.mem_cons_self) hm) (fun e he => hq e (List.mem_cons_of_mem _ he)) h

/-- While nothing concerns a program that sleeps, it stays as it is. -/
theorem quiet_run {r : UInt32} {es : List Event} (hs : Sleeps t n i r l) (hn : n ≠ 0)
    (hq : Along step (Quiet t) l es) (h : run step l es = some l') :
    Sleeps t n i r l' ∧ l'.tp t = l.tp t :=
  Framework.run_invariant (I := fun m => Sleeps t n i r m ∧ m.tp t = l.tp t)
    (fun _ _ _ hm hq h =>
      have hst := hm.1.sound
      ⟨hm.1.of_step hq.1 h, ((quiet_step hst.wf hst.conversations hm.1.converses hn hq h).1).trans hm.2⟩)
    ⟨hs, rfl⟩ hq h

theorem knows_run {r : UInt32} {es : List Event} (hs : Sleeps t n i r l) (hn : n ≠ 0) (hk : Knows t n u l)
    (hq : Along step (Quiet t) l es) (h : run step l es = some l') :
    Sleeps t n i r l' ∧ Knows t n u l' :=
  Framework.run_invariant (I := fun m => Sleeps t n i r m ∧ Knows t n u m)
    (fun _ _ _ hm hq h => ⟨hm.1.of_step hq.1 h, hm.2.of_quiet hm.1 hn hq h⟩) ⟨hs, hk⟩ hq h

/-- What the wait for a session that comes ends with. -/
theorem wait_of_comes {r : UInt32} {es : List Event} {tp : TpCb} (hs : Sleeps t n u.index r l)
    (hn : n ≠ 0) (ht : l.tp t = some tp) (hst : tp.state ≠ .active) (hc : Comes t u l es) :
    ∃ l', waitForSessionActivated l t es = some (0, l') ∧ Sleeps t n u.index r l' ∧
      Knows t n { u with state := .act } l' ∧ u.tpIndex = t ∧ hasLink l' u.hsIndex = true := by
  obtain ⟨es₁, e, es₂, l₁, l₂, l₃, rfl, hv, h₁, hcomp, h₂, hq, h₃, hlink⟩ := hc
  have hs₁ := sleeps_run hs hv h₁
  obtain ⟨hk, hut⟩ := Knows.of_completes hs₁ hcomp h₂
  have hs₂ := hs₁.of_step hcomp.not_isVerbOf h₂
  obtain ⟨hs₃, hk₃⟩ := knows_run hs₂ hn hk hq h₃
  have hrun : run step l (es₁ ++ e :: es₂) = some l₃ := by
    rw [Framework.run_append, h₁]
    exact Framework.run_cons.mpr ⟨l₂, h₂, h₃⟩
  refine ⟨l₃, ?_, hs₃, hk₃, hut, hlink⟩
  obtain ⟨tp₃, ht₃, hact⟩ := Option.map_eq_some_iff.mp hk₃.tp
  simp only [waitForSessionActivated, ht, if_neg hst, hrun, Option.bind_some, ht₃, Option.map_some,
    hact, ↓reduceIte]

theorem requested_lookup {r : Request} (h : requested l t = some r) :
    ∃ mode remoteLu, l.tp t = some r.tp ∧ getSessionLookup l r.tp = .ok (mode, remoteLu) := by
  unfold requested at h
  cases ht : l.tp t with
  | none => simp [ht] at h
  | some tp =>
    simp only [ht] at h
    cases hg : getSessionLookup l tp with
    | error err => simp [hg] at h
    | ok mr =>
      simp only [hg] at h
      obtain ⟨type, -, rfl⟩ := Option.map_eq_some_iff.mp h
      exact ⟨mr.1, mr.2, rfl, hg⟩

/-- `sna_rm_get_session` returns 0 with the session that it has started. -/
theorem getSession_of_comes {s : GotSession} {e : AllocEnv} (hs : Sound l) (hn : n ≠ 0)
    (hc : Converses l t n) (h : SessionComes t e l) (hg : getSession l t e = some s) :
    ∃ r u, requested l t = some r ∧ s.err = 0 ∧ s.own = some u.index ∧ l.lulu u.index = none ∧
      Sleeps t n u.index r.tp.remoteLuIndex s.lists ∧ Knows t n u s.lists ∧ u.tpIndex = t ∧
      hasLink s.lists u.hsIndex = true := by
  obtain ⟨r, l₁, l₂, l₃, u, hr, hst, hadm, hroute, h₁, hu, hq, h₂, h₃, hcomes⟩ := h
  obtain ⟨mode, remoteLu, ht, hlook⟩ := requested_lookup hr
  obtain ⟨hs₁, hfresh, ht₁⟩ := sleeps_of_getSession hs hc hr hadm h₁
  rw [← hu] at hs₁ hfresh
  obtain ⟨hs₂, ht₂⟩ := quiet_run hs₁ hn hq h₂
  have hq₃ : Quiet t l₂ (.routeDone u.index e.pcIndex e.route) := ⟨id, fun _ h => absurd h id⟩
  have hs₃ := hs₂.of_step hq₃.1 h₃
  have ht₃ := (quiet_step hs₂.sound.wf hs₂.sound.conversations hs₂.converses hn hq₃ h₃).1
  obtain ⟨l₄, hwait, hs₄, hk, hut, hlink⟩ :=
    wait_of_comes hs₃ hn ((ht₃.trans (ht₂.trans ht₁)).trans ht) hst hcomes
  -- the function comes to the same lists
  unfold step at h₁
  simp only [ht, hlook] at h₁
  obtain ⟨p, hp, rfl⟩ := Option.map_eq_some_iff.mp h₁
  have hsl := requestSession_sleeps hr ht hlook hadm hroute hp
  rw [← hu] at hsl
  simp only [getSession, ht, hlook, hp, Option.bind_some, hsl, h₂, h₃, awaitSession, hwait,
    Option.map_some, Option.some.injEq] at hg
  subst hg
  exact ⟨r, { u with state := .act }, hr, rfl, rfl, hfresh, hs₄, hk, hut, hlink⟩

/-- The conversation as it is after a session was obtained, and its half-session with
the Attach. -/
theorem rcbAllocatedProc_ok {tp : TpCb} {rcb : Rm.Rcb} {s : GotSession} (herr : s.err = 0)
    (ho : Owned s.lists) (hk : Knows t n u s.lists) (hr : s.lists.rcb n = some rcb)
    (hremote : (s.lists.remoteLu tp.remoteLuIndex).isSome)
    (hlink : hasLink s.lists u.hsIndex = true) :
    ∃ rcb' hs hs', rcb'.index = n ∧ rcb'.hsIndex = u.hsIndex ∧ rcb'.tpIndex = rcb.tpIndex ∧
      s.lists.hs u.hsIndex = some hs ∧ hs'.index = hs.index ∧ hs'.luluIndex = hs.luluIndex ∧
      rcbAllocatedProc tp rcb s ⟨true, true, true⟩ =
        ⟨acRcOk, (setRcb s.lists rcb').setHs hs', some n, some 0, s.own, some u.hsIndex⟩ := by
  have hri : rcb.index = n := Framework.key_of_find hr
  have hrh : rcb.hsIndex = u.hsIndex := by
    have h := hk.rcb
    rw [hr] at h
    exact Option.some.inj h
  unfold hasLink at hlink
  cases hh : s.lists.hs u.hsIndex with
  | none => simp [hh] at hlink
  | some hs =>
    simp only [hh] at hlink
    obtain ⟨pc, hp⟩ := Option.isSome_iff_exists.mp hlink
    have hhi : hs.index = u.hsIndex := Framework.key_of_find hh
    have howner : (s.lists.lulu hs.luluIndex).isSome := ho hs (Framework.mem_of_find hh)
    have hobtain : obtainSession s.lists rcb 0 = (0,
        { rcb with rxMaxBtu := pc.rxMaxBtu, ps := { rcb.ps with txMaxBtu := pc.txMaxBtu.toNat } }) := by
      simp only [obtainSession, Int.lt_irrefl, ↓reduceIte, hrh, hh, hp]
    -- the conversation as it is when the Attach is sent
    obtain ⟨rcb₁, h₁⟩ : ∃ rcb₁, rcb₁ = fsmRcb .none .allocate
        { rcb with rxMaxBtu := pc.rxMaxBtu, ps := { rcb.ps with txMaxBtu := pc.txMaxBtu.toNat } } :=
      ⟨_, rfl⟩
    have h₁i : rcb₁.index = n := by rw [h₁]; exact hri
    have h₁h : rcb₁.hsIndex = u.hsIndex := by rw [h₁]; exact hrh
    have h₁t : rcb₁.tpIndex = rcb.tpIndex := by rw [h₁]; rfl
    have hh' : (setRcb s.lists rcb₁).hs rcb₁.hsIndex = some hs := by rw [h₁h]; exact hh
    have hp' : (setRcb s.lists rcb₁).pc hs.pcIndex = some pc := hp
    have hl' : ((setRcb s.lists rcb₁).lulu hs.luluIndex).isNone = false := by
      rw [← Option.not_isSome, Bool.not_eq_false']
      exact howner
    have hr' : ((setRcb s.lists rcb₁).remoteLu tp.remoteLuIndex).isNone = false := by
      rw [← Option.not_isSome, Bool.not_eq_false']
      exact hremote
    have hsend : buildAndSendFmh5 (setRcb s.lists rcb₁) tp rcb₁ ⟨true, true, true⟩ =
        (0, (setRcb s.lists rcb₁).setHs { hs with dfc := { hs.dfc with sendMu := true } },
          some u.hsIndex) := by
      simp only [buildAndSendFmh5, sendFromPsData, hh', hp', hl', hr', Option.isNone_some, Bool.not_true,
        Bool.or_false, Bool.false_eq_true, ↓reduceIte, Bool.or_true, hhi]
    refine ⟨rcb₁, hs, { hs with dfc := { hs.dfc with sendMu := true } }, h₁i, h₁h, h₁t, rfl, rfl, rfl, ?_⟩
    simp only [rcbAllocatedProc, herr, hobtain, Int.lt_irrefl, ↓reduceIte, ← h₁, hsend, h₁i]

theorem rcb_setRcb {rcb rcb' : Rm.Rcb} (h : l.rcb n = some rcb) (hi : rcb'.index = n) (i : UInt32) :
    (setRcb l rcb').rcb i = if i = n then some rcb' else l.rcb i := by
  have hk : rcb'.index = rcb.index := hi.trans (Framework.key_of_find h).symm
  show find _ i (update _ rcb'.index (fun _ => rcb') l.rcbList) = _
  rw [hk]
  exact Framework.find_update_of_find (fun _ _ => hi) h

/-- What presentation services write keeps the invariants. -/
theorem Sound.of_set {rcb rcb' : Rm.Rcb} {hs hs' : HsCb} (h : Sound l) (hr : l.rcb n = some rcb)
    (hi : rcb'.index = n) (ht : rcb'.tpIndex = rcb.tpIndex) (hh : l.hs i = some hs)
    (hhi : hs'.index = hs.index) (hho : hs'.luluIndex = hs.luluIndex) :
    Sound ((setRcb l rcb').setHs hs') := by
  refine ⟨h.wf.congr rfl rfl rfl rfl, fun t tp htp => ?_, fun hs₁ hm => ?_⟩
  · refine (h.conversations t tp htp).imp_right fun hc => ⟨hc.1, ?_⟩
    show ((setRcb l rcb').rcb tp.rcbIndex).map _ = _
    rw [rcb_setRcb hr hi]
    by_cases hn : tp.rcbIndex = n
    · have hc := hc.2
      rw [hn, hr, Option.map_some, ← ht] at hc
      rw [if_pos hn]
      exact hc
    · rw [if_neg hn]
      exact hc.2
  · have hmap : ((setRcb l rcb').setHs hs').hsList.map (·.luluIndex) = l.hsList.map (·.luluIndex) :=
      owner_setHs (l := setRcb l rcb') hh hhi hho
    have hm := List.mem_map_of_mem (f := (·.luluIndex)) hm
    rw [hmap] at hm
    obtain ⟨hs₂, hm₂, he⟩ := List.mem_map.mp hm
    show (l.lulu hs₁.luluIndex).isSome
    rw [← he]
    exact h.owned hs₂ hm₂

/-- A new conversation is the program's own, and no session is new with it. -/
theorem allocRcb_spec {tp : TpCb} {rcb : Rm.Rcb} {alloc : Bool} {scbHs : UInt32} {l₁ : Lists}
    (hs : Sound l) (ht : l.tp t = some tp) (h : allocRcb l tp alloc scbHs = some (some rcb, l₁)) :
    createsRcb l tp alloc = true ∧ Sound l₁ ∧ Converses l₁ t rcb.index ∧ rcb.index ≠ 0 ∧
      l₁.luluList = l.luluList ∧ l₁.tp t = some { tp with rcbIndex := rcb.index } := by
  have hti : tp.index = t := Framework.key_of_find ht
  have hs₁ : Sound l₁ := by
    apply hs.of_step (e := .allocRcb t alloc scbHs)
    simp only [step, ht, h, Option.map_some]
  have htl : ∀ r : Rm.Rcb, (l.linked tp r).tp t = some { tp with rcbIndex := r.index } := fun r => by
    rw [tp_linked (hti ▸ ht), if_pos hti.symm]
  have hcl : IsNew l tp rcb → Converses (l.linked tp rcb) t rcb.index := fun hn => by
    refine ⟨by rw [htl]; rfl, ?_⟩
    rw [rcb_linked_new hn, Option.map_some, hn.tpIndex, hti]
  rcases allocRcb_cases h with ⟨-, he⟩ | ⟨hc, rcb', hn, ⟨-, -, he⟩ | ⟨-, mode, -, he⟩⟩
  · cases congrArg Prod.fst he
  · obtain ⟨hr, rfl⟩ := Prod.mk.inj he
    obtain rfl := Option.some.inj hr
    exact ⟨hc, hs₁, hcl hn, hn.ne_zero, rfl, htl rcb⟩
  · obtain ⟨hr, rfl⟩ := Prod.mk.inj he
    obtain rfl := Option.some.inj hr
    exact ⟨hc, hs₁, hcl hn, hn.ne_zero, rfl, htl rcb⟩

/-- An Allocate that is refused at once or gets its session is all or nothing. -/
theorem allocProc_of_good {d : AllocDone} {e : AllocEnv} (hs : Sound l) (hG : Good l (.allocate t e))
    (h : allocProc l t e = some d) : AllOrNothing l t d ∧ Sound d.lists := by
  unfold allocProc at h
  cases ht : l.tp t with
  | none => simp [ht] at h
  | some tp =>
    simp only [ht] at h
    obtain ⟨⟨o, l₁⟩, ha, h⟩ := Option.bind_eq_some_iff.mp h
    cases o with
    | none =>
      -- nothing was linked
      simp only [Option.some.injEq] at h
      subst h
      rcases allocRcb_cases ha with ⟨-, he⟩ | ⟨-, rcb, -, ⟨-, -, he⟩ | ⟨-, mode, -, he⟩⟩
      · obtain ⟨-, rfl⟩ := Prod.mk.inj he
        exact ⟨⟨fun hrc => absurd (show acRcUnsuccessful = acRcOk from hrc) (by decide),
          fun _ => ⟨rfl, rfl⟩, nofun⟩, hs⟩
      · exact absurd (congrArg Prod.fst he) nofun
      · exact absurd (congrArg Prod.fst he) nofun
    | some new =>
      obtain ⟨hcr, hs₁, hc, hn, hlulus, ht₁⟩ := allocRcb_spec hs ht ha
      obtain ⟨hcomes, hattach⟩ := hG tp _ ht hcr ha
      obtain ⟨s, hg, h⟩ := Option.bind_eq_some_iff.mp h
      obtain ⟨r, u, hr, herr, hown, hfresh, hsl, hk, hut, hlink⟩ := getSession_of_comes hs₁ hn hc hcomes hg
      obtain ⟨rcb, hrcb, rfl⟩ := Option.map_eq_some_iff.mp h
      have hremote : (s.lists.remoteLu tp.remoteLuIndex).isSome := by
        have hrt := (requested_spec hr).1
        rw [ht₁, Option.some.injEq] at hrt
        have hrl := hsl.remoteLu
        rw [← hrt] at hrl
        exact hrl
      obtain ⟨rcb', hcb, hcb', hi, hh, ht', hf, hci, hco, hdone⟩ :=
        rcbAllocatedProc_ok herr hsl.sound.owned hk hrcb hremote hlink
      rw [hattach, hdone]
      have hfresh' : l.lulu u.index = none := by
        rw [← hfresh]
        exact congrArg (find Lulu.index u.index) hlulus.symm
      have hnew : ((setRcb s.lists rcb').setHs hcb').rcb new.index = some rcb' := by
        have h := rcb_setRcb hrcb hi new.index
        rw [if_pos rfl] at h
        exact h
      refine ⟨⟨fun _ => ?_, fun hrc => absurd rfl hrc, fun _ => ?_⟩, hsl.sound.of_set hrcb hi ht' hf hci hco⟩
      · exact ⟨new.index, u, rcb', rfl, hown, hfresh', hk.lulu, hk.act, hut, hnew, hh, rfl⟩
      · exact ⟨u, hown, hfresh', hk.lulu, hk.act⟩

theorem Sound.of_allocStep {v : AllocEvent} (hs : Sound l) (hG : Good l v)
    (h : allocStep l v = some l') : Sound l' := by
  cases v with
  | allocate t e =>
    obtain ⟨d, hd, rfl⟩ := Option.map_eq_some_iff.mp h
    exact (allocProc_of_good hs hG hd).2
  | other e => exact hs.of_step h

/-! ## What fails -/

theorem awaitSession_run {es : List Event} {own : Option UInt32} {s : GotSession}
    (h : awaitSession l t es own = some s) : ∃ fs, run step l fs = some s.lists := by
  obtain ⟨r, hw, rfl⟩ := Option.map_eq_some_iff.mp h
  unfold waitForSessionActivated at hw
  cases ht : l.tp t with
  | none => simp [ht] at hw
  | some tp =>
    simp only [ht] at hw
    split at hw
    · obtain rfl := Option.some.inj hw
      exact ⟨[], rfl⟩
    · obtain ⟨m, hm, hw⟩ := Option.bind_eq_some_iff.mp hw
      obtain ⟨tp', -, rfl⟩ := Option.map_eq_some_iff.mp hw
      exact ⟨es, hm⟩

/-- The lists after `sna_rm_get_session` are those after some events. -/
theorem getSession_run {e : AllocEnv} {s : GotSession} (h : getSession l t e = some s) :
    ∃ es, run step l es = some s.lists := by
  unfold getSession at h
  cases ht : l.tp t with
  | none => simp [ht] at h
  | some tp =>
    simp only [ht] at h
    cases hg : getSessionLookup l tp with
    | error err =>
      simp only [hg, Option.some.injEq] at h
      subst h
      exact ⟨[], rfl⟩
    | ok mr =>
      simp only [hg] at h
      obtain ⟨⟨p, l₁⟩, hr, h⟩ := Option.bind_eq_some_iff.mp h
      have h₁ : step l (.getSession t e.start) = some l₁ := by
        simp only [step, ht, hg, hr, Option.map_some]
      cases p with
      | returned err =>
        obtain ⟨fs, hf⟩ := awaitSession_run h
        exact ⟨_ :: fs, Framework.run_cons.mpr ⟨l₁, h₁, hf⟩⟩
      | sleeps i =>
        obtain ⟨l₂, h₂, h⟩ := Option.bind_eq_some_iff.mp h
        obtain ⟨l₃, h₃, h⟩ := Option.bind_eq_some_iff.mp h
        obtain ⟨fs, hf⟩ := awaitSession_run h
        refine ⟨.getSession t e.start :: (e.routing ++ .routeDone i e.pcIndex e.route :: fs), ?_⟩
        refine Framework.run_cons.mpr ⟨l₁, h₁, ?_⟩
        rw [Framework.run_append, h₂]
        exact Framework.run_cons.mpr ⟨l₃, h₃, hf⟩

/-- No event takes a conversation off the list. -/
theorem rcb_isSome_step (hw : Wf l) (hr : (l.rcb n).isSome) (h : step l e = some l') :
    (l'.rcb n).isSome := by
  rcases step_conversations hw h with ⟨-, hr'⟩ | ⟨tp, rcb, -, -, -, -, hr'⟩ | ⟨u, -, -, hr'⟩
  · rw [rcb_congr hr']
    exact hr
  · obtain ⟨rcb', hf⟩ := Option.isSome_iff_exists.mp hr
    rw [rcb_congr hr', rcb_linked hf]
    rfl
  · rw [rcb_congr hr', ← Option.isSome_map (f := (·.tpIndex)),
      (successfulSessionActivation_maps l u 0 n).2, Option.isSome_map]
    exact hr

theorem rcbAllocatedProc_keys (tp : TpCb) (rcb : Rm.Rcb) (s : GotSession) (e : AttachEnv) :
    (rcbAllocatedProc tp rcb s e).lists.rcbList.map Rm.Rcb.index = s.lists.rcbList.map Rm.Rcb.index := by
  have hset : ∀ rcb', (setRcb s.lists rcb').rcbList.map Rm.Rcb.index = s.lists.rcbList.map Rm.Rcb.index :=
    fun rcb' => Framework.map_key_update fun _ _ => rfl
  have hsend : ∀ l rcb', (buildAndSendFmh5 l tp rcb' e).2.1.rcbList = l.rcbList := fun l rcb' => by
    unfold buildAndSendFmh5 sendFromPsData
    repeat' split
    all_goals rfl
  unfold rcbAllocatedProc
  dsimp only
  split
  · exact hset _
  · rw [hsend, hset]

/-- An Allocate that has linked a conversation and fails leaves it on the list, so a
failed Allocate is all or nothing exactly if it has linked none. -/
theorem failed_allOrNothing_iff {d : AllocDone} {e : AllocEnv} {tp : TpCb} (hs : Sound l)
    (ht : l.tp t = some tp) (h : allocProc l t e = some d) (hrc : d.rc ≠ acRcOk) :
    AllOrNothing l t d ↔ createsRcb l tp e.rcbAlloc = false := by
  unfold allocProc at h
  simp only [ht] at h
  obtain ⟨⟨o, l₁⟩, ha, hd⟩ := Option.bind_eq_some_iff.mp h
  clear h
  rcases allocRcb_cases ha with ⟨hcr, he⟩ | ⟨hcr, new, hnew, hr⟩
  · obtain ⟨rfl, rfl⟩ := Prod.mk.inj he
    obtain rfl := Option.some.inj hd
    exact iff_of_true ⟨fun hok => absurd hok hrc, fun _ => ⟨rfl, rfl⟩, nofun⟩ hcr
  · have hfst : o = some new := by
      rcases hr with ⟨-, -, he⟩ | ⟨-, mode, -, he⟩ <;> exact congrArg Prod.fst he
    subst hfst
    refine iff_of_false (fun hA => ?_) (by rw [hcr]; nofun)
    obtain ⟨-, hs₁, hc, -⟩ := allocRcb_spec hs ht ha
    obtain ⟨s, hg, hd⟩ := Option.bind_eq_some_iff.mp hd
    obtain ⟨rcb, -, rfl⟩ := Option.map_eq_some_iff.mp hd
    obtain ⟨es, hes⟩ := getSession_run hg
    obtain ⟨rcb₁, hf, -⟩ := Option.map_eq_some_iff.mp hc.2
    -- the new conversation is on the list to the end
    have hrun : Sound s.lists ∧ (s.lists.rcb new.index).isSome :=
      Framework.run_invariant' (I := fun m => Sound m ∧ (m.rcb new.index).isSome)
        (fun _ _ _ hm h => ⟨hm.1.of_step h, rcb_isSome_step hm.1.wf hm.2 h⟩)
        ⟨hs₁, Option.isSome_of_eq_some hf⟩ hes
    have hin : (find Rm.Rcb.index new.index s.lists.rcbList).isSome := hrun.2
    rw [← Framework.isSome_find_congr (rcbAllocatedProc_keys tp rcb s e.attach),
      (hA.nothing hrc).1, Option.isSome_iff_ne_none] at hin
    exact hin (Framework.find_eq_none.mpr hnew.fresh)

/-! ## Runs of Allocates -/

/-- In a run in which every Allocate is refused at once or gets its session, every
Allocate is all or nothing. -/
theorem allocate_atomic (l : Lists) (vs : List AllocEvent) (hl : Initial l) (hc : OwnConversations l)
    (hG : Along allocStep Good l vs) : Along allocStep Atomic l vs := by
  have hs : Sound l := ⟨hl.wf, hc, fun hs h => absurd h (by rw [hl.hsList]; exact List.not_mem_nil)⟩
  refine Framework.along_of_invariant (fun _ _ _ hs hG h => hs.of_allocStep hG h)
    (fun m v hs hG => ?_) hs hG
  cases v with
  | allocate t e => exact fun d hd => (allocProc_of_good hs hG hd).1
  | other e => trivial

/-- A program that has not allocated yet, and a link that comes up. -/
def freshProgram : Lists :=
  { oneProgram with tpList := [⟨1, 0, 1, 0, 1, .reset, false⟩], rcbList := [], rcbSystemIndex := 0 }

def up : AllocEvent := .other (.linkUp ⟨1, 0, 0, []⟩ ⟨1, 2048, 2048⟩)

/-- An Allocate while which the partner accepts the BIND. -/
def served : AllocEnv where
  rcbAlloc := true
  scbHs := 0
  start := ⟨true, true⟩
  routing := []
  pcIndex := some 1
  route := ⟨true, true, 0⟩
  waiting := [accepted]
  attach := ⟨true, true, true⟩

theorem initial_freshProgram : Initial freshProgram :=
  ⟨rfl, rfl, rfl, rfl, rfl, rfl, initial_oneProgram.modes, by decide⟩

theorem ownConversations_freshProgram : OwnConversations freshProgram := by
  intro t tp ht
  have hm := Framework.mem_of_find ht
  rw [show freshProgram.tpList = [_] from rfl, List.mem_singleton] at hm
  rw [hm]
  exact .inl rfl

set_option maxRecDepth 100000 in
theorem good_served : Along allocStep Good freshProgram [up, .allocate 1 served] := by
  refine ⟨trivial, fun l₁ h₁ => ⟨fun tp r ht _ ha => ?_, fun _ _ => trivial⟩⟩
  obtain rfl := Option.some.inj (show some _ = some l₁ from h₁)
  obtain rfl := Option.some.inj (show some _ = some tp from ht)
  obtain rfl := Option.some.inj (show some _ = some r from ha)
  refine ⟨⟨⟨⟨1, 1, 1, 0, 1, .reset, false⟩, oneMode,
    { useName := [0x4C], index := 1, sessions := 0, parallel := true }, .fsp⟩, _, _, _,
    { activeLulu with state := .pndBinRsp }, rfl, nofun, rfl, rfl, rfl, rfl, trivial, rfl, rfl,
    [], accepted, [], _, _, _, rfl, nofun, rfl, ⟨rfl, rfl, rfl⟩, rfl, trivial, rfl, rfl⟩, rfl⟩

theorem allocate_atomic_served : Along allocStep Atomic freshProgram [up, .allocate 1 served] :=
  allocate_atomic _ _ initial_freshProgram ownConversations_freshProgram good_served

set_option maxRecDepth 100000 in
/-- The program allocates once more, and there is no memory for a second session: the
state says that there is one. -/
theorem again_not_atomic : ¬ ∀ (l : Lists) (vs : List AllocEvent), Initial l → OwnConversations l →
    Along allocStep Atomic l vs := by
  intro h
  have h := h freshProgram [up, .allocate 1 served, .allocate 1 { served with start := ⟨false, true⟩ }]
    initial_freshProgram ownConversations_freshProgram
  have h := (((h.2 _ rfl).2 _ rfl).1 _ rfl).session rfl
  obtain ⟨u, hu, -⟩ := h
  exact absurd hu nofun

end LinuxSna.Ps
