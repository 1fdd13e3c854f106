import LinuxSna.Proof.Sna.Sm.Stray

/-!
# What an event does to the sessions

For each event, what the lists are after it, so that nothing after this module
unfolds the functions that it goes through.

* `step_allocRcb_cases`: a program gets a control block for a conversation or not;
* `procActivateSession_cases`, `step_getSession_cases`, `step_startRemoteLu_cases`:
  an activation is refused or starts;
* `step_routeDone_cases`: after its sleep it fails or gets to the BIND;
* `step_bindRsp_cases`: a response to the BIND ends it or makes the session active.
-/

namespace LinuxSna.Sm

open Framework (find update newIndex run)
open Hs (HsCb Bind HsType)
open Asm (AsmCb Lfsid)
open Rm (ModeCb RemoteLuCb TpCb Rcb sessionActivationPolarity)

variable {l l' : Lists} {lulu lulu' : Lulu} {mode : ModeCb} {remoteLu : RemoteLuCb} {type : HsType}

/-- The same session, with other fields that an activation fills in. -/
structure Lulu.Kin (lulu' lulu : Lulu) : Prop where
  index : lulu'.index = lulu.index
  modeIndex : lulu'.modeIndex = lulu.modeIndex
  remoteLuIndex : lulu'.remoteLuIndex = lulu.remoteLuIndex
  tpIndex : lulu'.tpIndex = lulu.tpIndex
  type : lulu'.type = lulu.type

namespace Lulu.Kin

theorem refl (lulu : Lulu) : lulu.Kin lulu := ⟨rfl, rfl, rfl, rfl, rfl⟩

theorem trans {a b c : Lulu} (h : a.Kin b) (h' : b.Kin c) : a.Kin c :=
  ⟨h.1.trans h'.1, h.2.trans h'.2, h.3.trans h'.3, h.4.trans h'.4, h.5.trans h'.5⟩

theorem with_state (h : lulu'.Kin lulu) (s : FsmState) : Lulu.Kin { lulu' with state := s } lulu :=
  ⟨h.1, h.2, h.3, h.4, h.5⟩

end Lulu.Kin

/-- Two updates of a session, of which the second sees the first. -/
theorem setLulu_setLulu (h : lulu'.index = lulu.index) :
    (l.setLulu lulu).setLulu lulu' = l.setLulu lulu' := by
  simp only [Lists.setLulu, h]
  rw [Framework.update_update_const rfl]

/-! ## Conversations -/

/-- The resource manager has a control block for a new conversation. -/
def createsRcb (l : Lists) (tp : TpCb) (alloc : Bool) : Bool :=
  alloc && (!tp.immediate ||
    match l.mode tp.modeIndex with
    | none => false
    | some mode => !decide (mode.active.conwinners < mode.userMax.conwinners))

/-- A control block that has just been made for a program. -/
structure IsNew (l : Lists) (tp : TpCb) (rcb : Rcb) : Prop where
  fresh : rcb.index ∉ l.rcbList.map (·.index)
  ne_zero : rcb.index ≠ 0
  tpIndex : rcb.tpIndex = tp.index
  ps : rcb.ps = {}

/-- The lists with a new conversation of a program. -/
def Lists.linked (l : Lists) (tp : TpCb) (rcb : Rcb) : Lists :=
  { l with
    rcbSystemIndex := rcb.index
    rcbList := l.rcbList ++ [rcb]
    tpList := update TpCb.index tp.index ({ · with rcbIndex := rcb.index }) l.tpList }

theorem createRcb_true {tp : TpCb} {r : Option Rcb × Lists} (h : createRcb l tp true = some r) :
    ∃ rcb, IsNew l tp rcb ∧ r.1 = some rcb ∧ rcb.hsIndex = 0 ∧
      r.2 = { l with rcbSystemIndex := rcb.index, rcbList := l.rcbList ++ [rcb] } := by
  obtain ⟨i, hi, rfl⟩ := Option.map_eq_some_iff.mp h
  exact ⟨_, ⟨Framework.newIndex_notMem hi, Framework.newIndex_ne_zero hi, rfl, rfl⟩, rfl, rfl, rfl⟩

theorem testForFreeFspSession_cases {tp : TpCb} {alloc : Bool} {scbHs : UInt32}
    {r : Option Rcb × Lists} (h : testForFreeFspSession l tp alloc scbHs = some r) :
    ((alloc && match l.mode tp.modeIndex with
      | none => false
      | some mode => !decide (mode.active.conwinners < mode.userMax.conwinners)) = false ∧
      r = (none, l)) ∨
    ((alloc && match l.mode tp.modeIndex with
      | none => false
      | some mode => !decide (mode.active.conwinners < mode.userMax.conwinners)) = true ∧
      ∃ rcb mode, IsNew l tp rcb ∧ l.mode tp.modeIndex = some mode ∧ r = (some rcb,
        { l with rcbSystemIndex := rcb.index, rcbList := l.rcbList ++ [rcb] }.countActive mode
          tp.remoteLuIndex .fsp)) := by
  unfold testForFreeFspSession at h
  cases hmode : l.mode tp.modeIndex with
  | none =>
    simp only [hmode, Option.some.injEq] at h
    exact .inl ⟨by simp, h.symm⟩
  | some mode =>
    simp only [hmode] at h
    by_cases hw : mode.active.conwinners < mode.userMax.conwinners
    · rw [if_pos hw, Option.some.injEq] at h
      exact .inl ⟨by simp [hw], h.symm⟩
    · rw [if_neg hw] at h
      obtain ⟨⟨o, m⟩, hc, hr⟩ := Option.map_eq_some_iff.mp h
      cases alloc with
      | false =>
        cases hc
        exact .inl ⟨rfl, hr.symm⟩
      | true =>
        obtain ⟨rcb, hn, ho, -, hm⟩ := createRcb_true hc
        obtain rfl : o = some rcb := ho
        obtain rfl : m = _ := hm
        -- the control block, with what was read as its half-session
        obtain ⟨rcb', hrcb⟩ : ∃ rcb' : Rcb,
            rcb' = { rcb with hsIndex := if (l.hs scbHs).isSome then scbHs else rcb.hsIndex } := ⟨_, rfl⟩
        have hi : rcb'.index = rcb.index := by rw [hrcb]
        have hupd : update Rcb.index rcb.index (fun _ => rcb') (l.rcbList ++ [rcb]) =
            l.rcbList ++ [rcb'] := by
          rw [Framework.update_append hn.fresh, update, if_pos rfl]
        have hnew : IsNew l tp rcb' := by
          rw [hrcb]
          exact ⟨hn.fresh, hn.ne_zero, hn.tpIndex, hn.ps⟩
        refine .inr ⟨by simp [hw], rcb', mode, hnew, rfl, hr.symm.trans ?_⟩
        rw [hi, ← hupd, hrcb]
        rfl

/-- A program gets a control block or not; it is counted as an active session if it
wants one at once. -/
theorem allocRcb_cases {tp : TpCb} {alloc : Bool} {scbHs : UInt32} {r : Option Rcb × Lists}
    (h : allocRcb l tp alloc scbHs = some r) :
    (createsRcb l tp alloc = false ∧ r = (none, l)) ∨
    (createsRcb l tp alloc = true ∧ ∃ rcb, IsNew l tp rcb ∧
      ((tp.immediate = false ∧ rcb.hsIndex = 0 ∧ r = (some rcb, l.linked tp rcb)) ∨
      (tp.immediate = true ∧ ∃ mode, l.mode tp.modeIndex = some mode ∧
        r = (some rcb, (l.linked tp rcb).countActive mode tp.remoteLuIndex .fsp)))) := by
  unfold allocRcb at h
  obtain ⟨⟨o, m⟩, hc, hr⟩ := Option.map_eq_some_iff.mp h
  unfold createsRcb
  cases hi : tp.immediate with
  | false =>
    rw [hi, if_neg Bool.false_ne_true] at hc
    cases alloc with
    | false =>
      cases hc
      exact .inl ⟨rfl, hr.symm⟩
    | true =>
      obtain ⟨rcb, hn, ho, hhs, hm⟩ := createRcb_true hc
      obtain rfl : o = some rcb := ho
      obtain rfl : m = _ := hm
      exact .inr ⟨rfl, rcb, hn, .inl ⟨rfl, hhs, hr.symm⟩⟩
  | true =>
    rw [hi, if_pos rfl] at hc
    rw [Bool.not_true, Bool.false_or]
    rcases testForFreeFspSession_cases hc with ⟨hf, hom⟩ | ⟨ht, rcb, mode, hn, hmode, hom⟩
    · obtain ⟨rfl, rfl⟩ := Prod.mk.inj hom
      exact .inl ⟨hf, hr.symm⟩
    · obtain ⟨rfl, rfl⟩ := Prod.mk.inj hom
      exact .inr ⟨ht, rcb, hn, .inr ⟨rfl, mode, hmode, hr.symm⟩⟩

theorem step_allocRcb_cases {tpIndex : UInt32} {alloc : Bool} {scbHs : UInt32}
    (h : step l (.allocRcb tpIndex alloc scbHs) = some l') :
    ∃ tp, l.tp tpIndex = some tp ∧
      ((createsRcb l tp alloc = false ∧ l' = l) ∨
      (createsRcb l tp alloc = true ∧ ∃ rcb, IsNew l tp rcb ∧
        ((tp.immediate = false ∧ l' = l.linked tp rcb) ∨
        (tp.immediate = true ∧ ∃ mode, l.mode tp.modeIndex = some mode ∧
          l' = (l.linked tp rcb).countActive mode tp.remoteLuIndex .fsp)))) := by
  unfold step at h
  cases ht : l.tp tpIndex with
  | none => simp [ht] at h
  | some tp =>
    simp only [ht] at h
    obtain ⟨r, hr, rfl⟩ := Option.map_eq_some_iff.mp h
    refine ⟨tp, rfl, ?_⟩
    rcases allocRcb_cases hr with ⟨hf, rfl⟩ | ⟨hc, rcb, hn, ⟨hi, -, rfl⟩ | ⟨hi, mode, hm, rfl⟩⟩
    · exact .inl ⟨hf, rfl⟩
    · exact .inr ⟨hc, rcb, hn, .inl ⟨hi, rfl⟩⟩
    · exact .inr ⟨hc, rcb, hn, .inr ⟨hi, mode, hm, rfl⟩⟩

/-! ## Starting -/

/-- The session manager refuses an activation: by its limits, or for want of
memory. -/
def startRefused (remoteLu : RemoteLuCb) (mode : ModeCb) (type : HsType) (e : StartEnv) : Bool :=
  luModeSessionLimit remoteLu mode type .initSent || !e.alloc

/-- The lists with a new session, which waits for its route if there is one. -/
def Lists.starts (l : Lists) (lulu : Lulu) (route : Bool) : Lists :=
  { l with
    luluSystemIndex := lulu.index
    luluList := { lulu with state := .pndCin } :: l.luluList
    waiting := if route then lulu.index :: l.waiting else l.waiting }

@[simp] theorem newLulu_index {tpIndex i : UInt32} :
    (newLulu mode remoteLu tpIndex type i).index = i := rfl

/-- What an activation comes back with. -/
def started (lulu : Lulu) (route : Bool) : Progress :=
  if route then .sleeps lulu.index else .returned (-enoent)

theorem fsmInputActivateSession_eq {route : Bool} {m : ModeCb} (hs : lulu.state = .res)
    (hm : l.mode lulu.modeIndex = some m) :
    fsmInputActivateSession l lulu route = (started lulu route,
      { l.setLulu { lulu with state := .pndCin } with
        waiting := if route then lulu.index :: l.waiting else l.waiting }) := by
  have hm' : (l.setLulu { lulu with state := .pndCin }).mode lulu.modeIndex = some m := hm
  unfold fsmInputActivateSession started
  rw [if_neg (not_not.mpr hs)]
  simp only [hm']
  cases route <;> rfl

/-- An activation is refused, or there is a new session. -/
theorem procActivateSession_cases {tpIndex : UInt32} {e : StartEnv} {p : Progress}
    (hm : (l.mode mode.index).isSome) (hr : (l.remoteLu remoteLu.index).isSome)
    (h : procActivateSession l mode remoteLu tpIndex type e = some (p, l')) :
    (startRefused remoteLu mode type e = true ∧ l' = l ∧
      p = .returned (if luModeSessionLimit remoteLu mode type .initSent then -eusers else -enomem)) ∨
    (startRefused remoteLu mode type e = false ∧ ∃ i, i ∉ l.luluList.map (·.index) ∧
      l' = l.starts (newLulu mode remoteLu tpIndex type i) e.route ∧
      p = started (newLulu mode remoteLu tpIndex type i) e.route) := by
  unfold procActivateSession at h
  unfold startRefused
  by_cases hlim : luModeSessionLimit remoteLu mode type .initSent = true
  · rw [if_pos hlim, Option.some.injEq, Prod.mk.injEq] at h
    rw [hlim]
    exact .inl ⟨rfl, h.2.symm, h.1.symm⟩
  · rw [if_neg hlim] at h
    rw [Bool.not_eq_true] at hlim
    rw [hlim]
    cases ha : e.alloc with
    | false =>
      rw [if_pos ha, Option.some.injEq, Prod.mk.injEq] at h
      exact .inl ⟨rfl, h.2.symm, h.1.symm⟩
    | true =>
      rw [if_neg (by simp [ha]), Option.map_eq_some_iff] at h
      obtain ⟨i, hi, h⟩ := h
      refine .inr ⟨rfl, i, Framework.newIndex_notMem hi, ?_⟩
      obtain ⟨m, hm⟩ := Option.isSome_iff_exists.mp hm
      obtain ⟨r, hr⟩ := Option.isSome_iff_exists.mp hr
      have hr' : Lists.remoteLu { l with luluSystemIndex := i } remoteLu.index = some r := hr
      simp only [hr'] at h
      rw [fsmInputActivateSession_eq rfl (m := m) hm, Prod.mk.injEq] at h
      refine ⟨h.2.symm.trans ?_, h.1.symm⟩
      simp [Lists.starts, Lists.setLulu, update]

/-- A request of a program that the resource manager grants. -/
structure Request where
  tp : TpCb
  mode : ModeCb
  remoteLu : RemoteLuCb
  type : HsType
  deriving DecidableEq

/-- What a request leads to before anything is counted; `none` if it is refused
there. -/
def requested (l : Lists) (tpIndex : UInt32) : Option Request :=
  match l.tp tpIndex with
  | none => none
  | some tp =>
    match getSessionLookup l tp with
    | .error _ => none
    | .ok (mode, remoteLu) =>
      (sessionActivationPolarity mode remoteLu).map fun type => ⟨tp, mode, remoteLu, type⟩

theorem getSessionLookup_ok {tp : TpCb}
    (h : getSessionLookup l tp = .ok (mode, remoteLu)) :
    l.mode tp.modeIndex = some mode ∧ l.remoteLu tp.remoteLuIndex = some remoteLu ∧
      (l.rcb tp.rcbIndex).isSome := by
  unfold getSessionLookup at h
  cases hb : l.rcb tp.rcbIndex with
  | none => simp [hb] at h
  | some rcb =>
    cases hr : l.remoteLu tp.remoteLuIndex with
    | none => simp [hb, hr] at h
    | some r =>
      cases hm : l.mode tp.modeIndex with
      | none => simp [hb, hr, hm] at h
      | some m =>
        simp only [hb, hr, hm] at h
        split at h
        · exact absurd h nofun
        · cases h
          exact ⟨rfl, rfl, rfl⟩

/-- What was looked up for a granted request. -/
theorem requested_spec {tpIndex : UInt32} {r : Request} (h : requested l tpIndex = some r) :
    l.tp tpIndex = some r.tp ∧ l.mode r.tp.modeIndex = some r.mode ∧
      l.remoteLu r.tp.remoteLuIndex = some r.remoteLu ∧
      sessionActivationPolarity r.mode r.remoteLu = some r.type := by
  unfold requested at h
  cases ht : l.tp tpIndex with
  | none => simp [ht] at h
  | some tp =>
    simp only [ht] at h
    cases hg : getSessionLookup l tp with
    | error err => simp [hg] at h
    | ok mr =>
      obtain ⟨m, rl⟩ := mr
      simp only [hg] at h
      rw [Option.map_eq_some_iff] at h
      obtain ⟨t, hp, rfl⟩ := h
      obtain ⟨hm, hr, -⟩ := getSessionLookup_ok hg
      exact ⟨rfl, hm, hr, hp⟩

/-! The mode of a request, counted -/

theorem mode_countPending_eq {i j : UInt32} (type : Hs.HsType) (r : UInt32)
    (hm : l.mode j = some mode) :
    (l.countPending mode r type).mode i =
      if i = j then some (mode.countPending type) else l.mode i :=
  Framework.find_update_of_find (f := fun m : ModeCb => m.countPending type) (fun _ h => h) hm

theorem mode_countActive_eq {i j : UInt32} (type : Hs.HsType) (r : UInt32)
    (hm : l.mode j = some mode) :
    (l.countActive mode r type).mode i =
      if i = j then some (mode.countActive type) else l.mode i :=
  Framework.find_update_of_find (f := fun m : ModeCb => m.countActive type) (fun _ h => h) hm

/-- A request changes nothing, or it is counted and then refused or started. -/
theorem step_getSession_cases {tpIndex : UInt32} {e : StartEnv}
    (h : step l (.getSession tpIndex e) = some l') :
    (requested l tpIndex = none ∧ l' = l) ∨
    ∃ r, requested l tpIndex = some r ∧
      ((startRefused r.remoteLu (r.mode.countPending r.type) r.type e = true ∧
        l' = l.countPending r.mode r.remoteLu.index r.type) ∨
      (startRefused r.remoteLu (r.mode.countPending r.type) r.type e = false ∧
        ∃ i, i ∉ l.luluList.map (·.index) ∧
        l' = (l.countPending r.mode r.remoteLu.index r.type).starts
          (newLulu r.mode r.remoteLu r.tp.index r.type i) e.route)) := by
  unfold step at h
  cases ht : l.tp tpIndex with
  | none => simp [ht] at h
  | some tp =>
    simp only [ht] at h
    cases hg : getSessionLookup l tp with
    | error err =>
      simp only [hg, Option.some.injEq] at h
      exact .inl ⟨by simp [requested, ht, hg], h.symm⟩
    | ok mr =>
      obtain ⟨m, rl⟩ := mr
      simp only [hg, requestSession] at h
      cases hp : sessionActivationPolarity m rl with
      | none =>
        simp only [hp, Option.map_some, Option.some.injEq] at h
        exact .inl ⟨by simp [requested, ht, hg, hp], h.symm⟩
      | some t =>
        simp only [hp, sendActivateSession, Option.map_eq_some_iff] at h
        obtain ⟨⟨p, l''⟩, h, rfl⟩ := h
        obtain ⟨hm, hr, -⟩ := getSessionLookup_ok hg
        have hri : rl.index = tp.remoteLuIndex := Framework.key_of_find hr
        have hr' : (l.countPending m rl.index t).remoteLu rl.index = some rl := by
          rw [hri]; exact hr
        refine .inr ⟨⟨tp, m, rl, t⟩, by simp [requested, ht, hg, hp], ?_⟩
        have hm' : (l.countPending m rl.index t).mode (m.countPending t).index =
          some (m.countPending t) :=
          (mode_countPending_eq t rl.index hm).trans (if_pos (Framework.key_of_find hm))
        rcases procActivateSession_cases (Option.isSome_of_eq_some hm')
          (Option.isSome_of_eq_some hr') h with
          ⟨hs, rfl, -⟩ | ⟨hs, i, hi, rfl, -⟩
        · exact .inl ⟨hs, rfl⟩
        · exact .inr ⟨hs, i, hi, rfl⟩

/-- The mode and the remote LU that `sna_rm_start_remote_lu` finds. -/
def startLookup (l : Lists) (useName : List UInt8) : Option (ModeCb × RemoteLuCb) :=
  match l.remoteLuList.find? (·.useName = useName) with
  | none => none
  | some remoteLu => (l.modeList.find? (·.modeName = snasvcmg)).map fun mode => (mode, remoteLu)

theorem startLookup_isSome {useName : List UInt8} (h : startLookup l useName = some (mode, remoteLu)) :
    (l.mode mode.index).isSome := by
  unfold startLookup at h
  split at h
  · exact absurd h nofun
  · obtain ⟨m, hm, h⟩ := Option.map_eq_some_iff.mp h
    cases h
    exact Framework.find_isSome_of_mem (List.mem_of_find?_eq_some hm)

/-- An activation by the operator changes nothing or starts. -/
theorem step_startRemoteLu_cases {useName : List UInt8} {e : StartEnv}
    (h : step l (.startRemoteLu useName e) = some l') :
    (startLookup l useName = none ∧ l' = l) ∨
    ∃ mode remoteLu, startLookup l useName = some (mode, remoteLu) ∧
      ((startRefused remoteLu mode .fsp e = true ∧ l' = l) ∨
      (startRefused remoteLu mode .fsp e = false ∧ ∃ i, i ∉ l.luluList.map (·.index) ∧
        l' = l.starts (newLulu mode remoteLu 0 .fsp i) e.route)) := by
  simp only [step, startRemoteLu] at h
  cases hr : l.remoteLuList.find? (·.useName = useName) with
  | none =>
    simp only [hr, Option.map_some, Option.some.injEq] at h
    exact .inl ⟨by simp [startLookup, hr], h.symm⟩
  | some r =>
    cases hm : l.modeList.find? (·.modeName = snasvcmg) with
    | none =>
      simp only [hr, hm, Option.map_some, Option.some.injEq] at h
      exact .inl ⟨by simp [startLookup, hr, hm], h.symm⟩
    | some m =>
      simp only [hr, hm, Option.map_eq_some_iff] at h
      obtain ⟨⟨p, l''⟩, h, rfl⟩ := h
      refine .inr ⟨m, r, by simp [startLookup, hr, hm], ?_⟩
      rcases procActivateSession_cases (Framework.find_isSome_of_mem (List.mem_of_find?_eq_some hm))
        (Framework.find_isSome_of_mem (List.mem_of_find?_eq_some hr)) h with
        ⟨hs, rfl, -⟩ | ⟨hs, i, hi, rfl, -⟩
      · exact .inl ⟨hs, rfl⟩
      · exact .inr ⟨hs, i, hi, rfl⟩

/-! ## After the sleep -/

/-- The lists that an activation leaves alone after its sleep. -/
structure SameDefs (l l' : Lists) : Prop where
  modeList : l'.modeList = l.modeList
  remoteLuList : l'.remoteLuList = l.remoteLuList
  tpList : l'.tpList = l.tpList
  rcbList : l'.rcbList = l.rcbList
  counted : l'.counted = l.counted
  luluSystemIndex : l'.luluSystemIndex = l.luluSystemIndex
  pcList : l'.pcList = l.pcList

theorem SameDefs.of_setLulu : SameDefs l (l.setLulu lulu) := ⟨rfl, rfl, rfl, rfl, rfl, rfl, rfl⟩

theorem SameDefs.trans {l'' : Lists} (h : SameDefs l l') (h' : SameDefs l' l'') : SameDefs l l'' :=
  ⟨h'.1.trans h.1, h'.2.trans h.2, h'.3.trans h.3, h'.4.trans h.4, h'.5.trans h.5, h'.6.trans h.6,
    h'.7.trans h.7⟩

/-- The activation gets as far as its BIND: there is a route, the limits and the
BTU sizes allow the session, and there are an LFSID and a half-session for it. -/
def getsToBind (l : Lists) (lulu : Lulu) (pcIndex : Option UInt32) (e : RouteEnv) : Bool :=
  match pcIndex with
  | none => false
  | some p =>
    !cinitRefused l lulu p && (Asm.assignLfsid l.asmList p lulu.index e.blkAlloc).1.isSome && e.hsAlloc

/-- What the activation has acquired with its BIND: an LFSID and a half-session. -/
def Acquired (l l' : Lists) (lulu' : Lulu) (pcIndex : Option UInt32) (e : RouteEnv) : Prop :=
  ∃ p k hs, pcIndex = some p ∧ lulu'.pcIndex = p ∧
    Asm.assignLfsid l.asmList p lulu'.index e.blkAlloc = (some k, l'.asmList) ∧
    l'.hsList = hs :: l.hsList ∧ hs.index ∉ l.hsList.map (·.index) ∧ lulu'.hsIndex = hs.index

theorem exists_pc_of_cinitRefused {p : UInt32} (h : cinitRefused l lulu p = false) :
    ∃ pc, l.pc p = some pc := by
  cases hp : l.pc p with
  | some pc => exact ⟨pc, rfl⟩
  | none =>
    unfold cinitRefused at h
    split at h
    · simp [hp] at h
    · exact absurd h nofun

theorem fsmInputCinitSignalNg_eq (hs : lulu.state = .pndCin) :
    fsmInputCinitSignalNg l lulu = (0, l.setLulu { lulu with state := .res }) :=
  if_neg (not_not.mpr hs)

/-- A session gets a BIND, or the error with which it does not. -/
theorem fsmInputCinitSignalOk_eq {err : Int} {pc : Pc.PcCb} (hs : lulu.state = .pndCin)
    (hp : l.pc lulu.pcIndex = some pc) :
    fsmInputCinitSignalOk l lulu err = (if err < 0 then err else 0,
      { l.setLulu { lulu with state := .pndBinRsp } with
        bound := if err < 0 then l.bound else lulu.index :: l.bound }) := by
  have hp' : (l.setLulu { lulu with state := .pndBinRsp }).pc lulu.pcIndex = some pc := hp
  unfold fsmInputCinitSignalOk buildAndSendBindReq
  rw [if_neg (not_not.mpr hs)]
  simp only [hp']
  split <;> rfl

/-- What the preparation of a BIND has left: the lists of the sessions are as they
were, and there are an LFSID and a half-session if it did not fail. -/
structure Prepared (l l' : Lists) (lulu lulu' : Lulu) (e : RouteEnv) (err : Int) : Prop where
  kin : lulu'.Kin lulu
  state : lulu'.state = lulu.state
  pcIndex : lulu'.pcIndex = lulu.pcIndex
  luluList : l'.luluList = l.luluList
  waiting : l'.waiting = l.waiting
  bound : l'.bound = l.bound
  same : SameDefs l l'
  owner (hs : HsCb) : hs ∈ l'.hsList → hs ∈ l.hsList ∨ hs.luluIndex = lulu.index
  outcome :
    (err < 0 ∧
      ((Asm.assignLfsid l.asmList lulu.pcIndex lulu.index e.blkAlloc).1.isSome && e.hsAlloc) = false) ∨
    (err = 0 ∧
      ((Asm.assignLfsid l.asmList lulu.pcIndex lulu.index e.blkAlloc).1.isSome && e.hsAlloc) = true ∧
      Acquired l l' lulu' (some lulu.pcIndex) e)

theorem prepareToSendBind_cases {e : RouteEnv} {err : Int}
    (h : prepareToSendBind l lulu e = some (err, lulu', l')) : Prepared l l' lulu lulu' e err := by
  unfold prepareToSendBind at h
  cases ha : Asm.assignLfsid l.asmList lulu.pcIndex lulu.index e.blkAlloc with
  | mk k asmList =>
    cases k with
    | none =>
      simp only [ha, Option.some.injEq, Prod.mk.injEq] at h
      obtain ⟨rfl, rfl, rfl⟩ := h
      exact ⟨.refl _, rfl, rfl, rfl, rfl, rfl, ⟨rfl, rfl, rfl, rfl, rfl, rfl, rfl⟩, fun _ => .inl,
        .inl ⟨neg_lt_zero.mpr (by decide : (0 : Int) < einval), by simp [ha]⟩⟩
    | some k =>
      simp only [ha, Option.map_eq_some_iff, Prod.mk.injEq] at h
      obtain ⟨⟨err, i, m⟩, hi, rfl, rfl, rfl⟩ := h
      unfold hsInit at hi
      cases hh : e.hsAlloc with
      | false =>
        simp only [hh, Bool.false_eq_true, ↓reduceIte, Option.some.injEq, Prod.mk.injEq] at hi
        obtain ⟨rfl, rfl, rfl⟩ := hi
        exact ⟨⟨rfl, rfl, rfl, rfl, rfl⟩, rfl, rfl, rfl, rfl, rfl,
          ⟨rfl, rfl, rfl, rfl, rfl, rfl, rfl⟩, fun _ => .inl,
          .inl ⟨neg_lt_zero.mpr (by decide : (0 : Int) < enomem), by simp [hh]⟩⟩
      | true =>
        simp only [hh, ↓reduceIte, Option.map_eq_some_iff, Prod.mk.injEq] at hi
        obtain ⟨i, hi, rfl, rfl, rfl⟩ := hi
        refine ⟨⟨rfl, rfl, rfl, rfl, rfl⟩, rfl, rfl, rfl, rfl, rfl,
          ⟨rfl, rfl, rfl, rfl, rfl, rfl, rfl⟩, fun hs h => ?_, .inr ⟨rfl, by simp [ha, hh],
            lulu.pcIndex, k, _, rfl, rfl, ha, rfl, Framework.newIndex_notMem hi, rfl⟩⟩
        rcases List.mem_cons.mp h with rfl | h
        · exact .inr rfl
        · exact .inl h

/-- The lists after an activation has failed, or has got to its BIND. -/
structure RouteOutcome (l l' : Lists) (lulu : Lulu) (pcIndex : Option UInt32) (e : RouteEnv)
    (lulu' : Lulu) : Prop where
  kin : lulu'.Kin lulu
  luluList : l'.luluList = update Lulu.index lulu.index (fun _ => lulu') l.luluList
  waiting : l'.waiting = l.waiting
  same : SameDefs l l'
  owner (hs : HsCb) : hs ∈ l'.hsList → hs ∈ l.hsList ∨ hs.luluIndex = lulu.index
  outcome :
    (getsToBind l lulu pcIndex e = false ∧ lulu'.state = .res ∧ l'.bound = l.bound) ∨
    (getsToBind l lulu pcIndex e = true ∧ lulu'.state = .pndBinRsp ∧
      l'.bound = (if e.bindErr < 0 then l.bound else lulu.index :: l.bound) ∧
      Acquired l l' lulu' pcIndex e)

theorem procInitSigNegRsp_outcome (hl : l.lulu lulu.index = some lulu) (hs : lulu.state = .pndCin)
    (e : RouteEnv) :
    RouteOutcome l (procInitSigNegRsp l lulu.index).2 lulu none e { lulu with state := .res } := by
  have h : procInitSigNegRsp l lulu.index = (0, l.setLulu { lulu with state := .res }) := by
    simp only [procInitSigNegRsp, hl]
    exact if_neg (not_not.mpr hs)
  rw [h]
  exact ⟨⟨rfl, rfl, rfl, rfl, rfl⟩, rfl, rfl, ⟨rfl, rfl, rfl, rfl, rfl, rfl, rfl⟩, fun _ => .inl,
    .inl ⟨rfl, rfl, rfl⟩⟩

theorem procCinitSigRsp_cases {p : UInt32} {e : RouteEnv} {err : Int}
    (hl : l.lulu lulu.index = some lulu) (hs : lulu.state = .pndCin)
    (h : procCinitSigRsp l lulu.index p e = some (err, l')) :
    ∃ lulu', RouteOutcome l l' lulu (some p) e lulu' := by
  simp only [procCinitSigRsp, hl] at h
  -- the session with the path control index that has come back
  obtain ⟨lulu0, h0⟩ : ∃ lulu0, lulu0 = { lulu with pcIndex := p } := ⟨_, rfl⟩
  rw [← h0] at h
  have hs0 : lulu0.state = .pndCin := by rw [h0]; exact hs
  have hk0 : lulu0.Kin lulu := by rw [h0]; exact ⟨rfl, rfl, rfl, rfl, rfl⟩
  have hp0 : lulu0.pcIndex = p := by rw [h0]
  have hr0 : cinitRefused (l.setLulu lulu0) lulu0 p = cinitRefused l lulu p := by rw [h0]; rfl
  rw [hr0] at h
  by_cases hr : cinitRefused l lulu p = true
  · rw [if_pos hr, fsmInputCinitSignalNg_eq hs0] at h
    cases h
    refine ⟨{ lulu0 with state := .res }, hk0.with_state _, ?_, rfl, .trans .of_setLulu .of_setLulu,
      fun _ => .inl, .inl ⟨by simp [getsToBind, hr], rfl, rfl⟩⟩
    rw [← hk0.index]
    exact Framework.update_update_const rfl
  · rw [if_neg hr, Option.map_eq_some_iff] at h
    obtain ⟨⟨err', lulu1, l1⟩, hprep, h⟩ := h
    have P := prepareToSendBind_cases hprep
    have hs1 : lulu1.state = .pndCin := P.state.trans hs0
    have hk : lulu1.Kin lulu := P.kin.trans hk0
    have hset : ∀ s : FsmState, ((l1.setLulu lulu1).setLulu { lulu1 with state := s }).luluList =
        update Lulu.index lulu.index (fun _ => { lulu1 with state := s }) l.luluList := by
      intro s
      rw [setLulu_setLulu (by rfl), Lists.setLulu]
      show update _ lulu1.index _ l1.luluList = _
      rw [P.luluList, hk.index, ← hk0.index]
      exact Framework.update_update_const rfl
    have hsame : SameDefs l l1 := .trans .of_setLulu P.same
    have howner : ∀ hs ∈ l1.hsList, hs ∈ l.hsList ∨ hs.luluIndex = lulu.index := fun hs h =>
      hk0.index ▸ P.owner hs h
    have hn := P.outcome
    rw [hp0, hk0.index] at hn
    have hgets : getsToBind l lulu (some p) e =
        ((Asm.assignLfsid l.asmList p lulu.index e.blkAlloc).1.isSome && e.hsAlloc) := by
      rw [getsToBind, Bool.eq_false_iff.mpr hr]
      rfl
    rcases hn with ⟨he, hn⟩ | ⟨rfl, hn, hacq⟩
    · simp only [he, ↓reduceIte] at h
      rw [fsmInputCinitSignalNg_eq hs1] at h
      cases h
      exact ⟨{ lulu1 with state := .res }, hk.with_state _, hset .res, P.waiting,
        .trans hsame (.trans .of_setLulu .of_setLulu), howner, .inl ⟨hgets.trans hn, rfl, P.bound⟩⟩
    · obtain ⟨pc, hpc⟩ := exists_pc_of_cinitRefused (Bool.eq_false_iff.mpr hr)
      have hpc' : (l1.setLulu lulu1).pc lulu1.pcIndex = some pc := by
        rw [P.pcIndex, hp0]
        show find _ _ l1.pcList = some pc
        rw [P.same.pcList]
        exact hpc
      simp only [Int.lt_irrefl, ↓reduceIte] at h
      rw [fsmInputCinitSignalOk_eq hs1 hpc'] at h
      cases h
      refine ⟨{ lulu1 with state := .pndBinRsp }, hk.with_state _, hset .pndBinRsp, P.waiting,
        ⟨hsame.1, hsame.2, hsame.3, hsame.4, hsame.5, hsame.6, hsame.7⟩, howner,
        .inr ⟨hgets.trans hn, rfl, ?_, hacq⟩⟩
      show (if _ then l1.bound else lulu1.index :: l1.bound) = _
      rw [P.bound, hk.index]
      rfl

/-- Only an activation that sleeps comes back. -/
theorem step_routeDone_mem {i : UInt32} {pcIndex : Option UInt32} {e : RouteEnv}
    (h : step l (.routeDone i pcIndex e) = some l') : i ∈ l.waiting := by
  by_contra hi
  simp [step, hi] at h

/-- An activation that comes back from its sleep. -/
theorem step_routeDone_cases {i : UInt32} {pcIndex : Option UInt32} {e : RouteEnv}
    (hl : l.lulu i = some lulu) (hs : lulu.state = .pndCin)
    (h : step l (.routeDone i pcIndex e) = some l') :
    ∃ lulu', RouteOutcome { l with waiting := l.waiting.erase i } l' lulu pcIndex e lulu' := by
  have hi := step_routeDone_mem h
  simp only [step, hi, ↓reduceIte, routeDone, Option.map_eq_some_iff] at h
  obtain ⟨⟨err, l''⟩, h, rfl⟩ := h
  obtain rfl : lulu.index = i := Framework.key_of_find hl
  cases pcIndex with
  | none =>
    have h := congrArg Prod.snd (Option.some.inj h)
    change _ = l'' at h
    subst h
    exact ⟨_, procInitSigNegRsp_outcome (l := { l with waiting := l.waiting.erase lulu.index }) hl hs e⟩
  | some p => exact procCinitSigRsp_cases hl hs h

/-! ## Links -/

theorem step_linkUp {as : AsmCb} {pc : Pc.PcCb} (h : step l (.linkUp as pc) = some l') :
    l' = { l with asmList := (Asm.activateAs l.asmList as).2, pcList := l.pcList ++ [pc] } := by
  simp only [step, Option.ite_none_right_eq_some, Option.some.injEq] at h
  exact h.2.symm

theorem step_linkDown {pcIndex : UInt32} (h : step l (.linkDown pcIndex) = some l') :
    l' = { l with
      asmList := (Asm.deactivateAs l.asmList pcIndex).2
      pcList := l.pcList.eraseP (·.index = pcIndex) } := (Option.some.inj h).symm

/-! ## RSP(BIND) -/

/-- A response completes an activation: it is positive, the remote LU and the
half-session are there, and the BIND can be copied. -/
def completes (l : Lists) (lulu : Lulu) (rsp : BindRsp) (copied : Bool) : Bool :=
  !rsp.neg && (l.remoteLu lulu.remoteLuIndex).isSome && (l.hs lulu.hsIndex).isSome && copied

/-- The lists that no response changes, and what it leaves of the others. -/
structure RspFrame (l l' : Lists) : Prop where
  waiting : l'.waiting = l.waiting
  bound : l'.bound = l.bound
  asmList : l'.asmList = l.asmList
  pcList : l'.pcList = l.pcList
  luluSystemIndex : l'.luluSystemIndex = l.luluSystemIndex
  hs : l'.hsList.map (·.index) = l.hsList.map (·.index)
  tp : l'.tpList.map (·.index) = l.tpList.map (·.index)
  parallel (i : UInt32) : (l'.remoteLu i).map (·.parallel) = (l.remoteLu i).map (·.parallel)
  owner : l'.hsList.map (·.luluIndex) = l.hsList.map (·.luluIndex)

/-- Nothing is counted, and no conversation is changed. -/
structure SameBooks (l l' : Lists) : Prop where
  modeList : l'.modeList = l.modeList
  counted : l'.counted = l.counted
  tpList : l'.tpList = l.tpList
  rcbList : l'.rcbList = l.rcbList

/-- A session is counted as active, and its program is told. -/
structure Told (l l' : Lists) (lulu : Lulu) (mode : ModeCb) : Prop where
  modeList : l'.modeList = update ModeCb.index mode.index (·.countActive lulu.type) l.modeList
  counted : l'.counted = ⟨mode.index, lulu.remoteLuIndex, lulu.type, true⟩ :: l.counted
  tpList : l'.tpList = (successfulSessionActivation l lulu).tpList
  rcbList : l'.rcbList = (successfulSessionActivation l lulu).rcbList

theorem parallel_addSession (i j : UInt32) :
    ((l.addSession j).remoteLu i).map (·.parallel) = (l.remoteLu i).map (·.parallel) :=
  Framework.map_find_update (f := fun r : RemoteLuCb => { r with sessions := r.sessions + 1 })
    (fun _ h => h) fun _ => rfl

theorem index_setHs {hs : HsCb} : (l.setHs hs).hsList.map (·.index) = l.hsList.map (·.index) :=
  Framework.map_key_update fun _ _ => rfl

/-- A half-session that is written stays that of its session. -/
theorem owner_setHs {hs hs' : HsCb} {i : UInt32} (h : l.hs i = some hs) (hi : hs'.index = hs.index)
    (ho : hs'.luluIndex = hs.luluIndex) :
    (l.setHs hs').hsList.map (·.luluIndex) = l.hsList.map (·.luluIndex) := by
  have hk : hs.index = i := Framework.key_of_find h
  show (update HsCb.index hs'.index (fun _ => hs') l.hsList).map _ = _
  rw [hi, hk]
  exact Framework.map_update_of_find h ho

theorem owner_finishHs {hs : HsCb} {i p : UInt32} {lf : Lfsid} {bind : Bind} {copied : Bool}
    (h : l.hs i = some hs) : (l.setHs (finishHs hs p lf bind copied)).hsList.map (·.luluIndex) =
      l.hsList.map (·.luluIndex) := by
  refine owner_setHs h ?_ ?_ <;> cases copied <;> rfl

/-- A response for a session that waits for none leaves the sessions and the modes. -/
theorem bindRspFor_frame_of_ne {lf : Lfsid} {rsp : BindRsp} {copied : Bool}
    (hs : lulu.state ≠ .pndBinRsp) :
    RspFrame l (bindRspFor l lulu lf rsp copied).2 ∧
      (bindRspFor l lulu lf rsp copied).2.luluList = l.luluList ∧
      SameBooks l (bindRspFor l lulu lf rsp copied).2 := by
  rw [bindRspFor_of_ne hs]
  have hrefl : RspFrame l l := ⟨rfl, rfl, rfl, rfl, rfl, rfl, rfl, fun _ => rfl, rfl⟩
  dsimp only
  split
  · exact ⟨hrefl, rfl, rfl, rfl, rfl, rfl⟩
  · split
    · rename_i hh
      split
      · exact ⟨⟨rfl, rfl, rfl, rfl, rfl, index_setHs, rfl, fun i => parallel_addSession i _,
          owner_finishHs hh⟩, rfl, rfl, rfl, rfl, rfl⟩
      · exact ⟨⟨rfl, rfl, rfl, rfl, rfl, index_setHs, rfl, fun _ => rfl, owner_finishHs hh⟩, rfl, rfl,
          rfl, rfl, rfl⟩
    · exact ⟨hrefl, rfl, rfl, rfl, rfl, rfl⟩

/-- The lists after the response to a BIND. -/
structure RspOutcome (l l' : Lists) (lulu : Lulu) (done : Bool) : Prop where
  frame : RspFrame l l'
  luluList : l'.luluList =
    update Lulu.index lulu.index (fun _ => { lulu with state := if done then .act else .res }) l.luluList
  outcome :
    ((done = false ∨ l.mode lulu.modeIndex = none) ∧ SameBooks l l') ∨
    (done = true ∧ ∃ mode, l.mode lulu.modeIndex = some mode ∧ Told l l' lulu mode)

/-- What telling the resource manager leaves of the lists of the session manager. -/
theorem successfulSessionActivation_same :
    (successfulSessionActivation l lulu).modeList = l.modeList ∧
    (successfulSessionActivation l lulu).remoteLuList = l.remoteLuList ∧
    (successfulSessionActivation l lulu).luluList = l.luluList ∧
    (successfulSessionActivation l lulu).luluSystemIndex = l.luluSystemIndex ∧
    (successfulSessionActivation l lulu).hsList = l.hsList ∧
    (successfulSessionActivation l lulu).asmList = l.asmList ∧
    (successfulSessionActivation l lulu).pcList = l.pcList ∧
    (successfulSessionActivation l lulu).waiting = l.waiting ∧
    (successfulSessionActivation l lulu).bound = l.bound ∧
    (successfulSessionActivation l lulu).counted = l.counted ∧
    (successfulSessionActivation l lulu).tpList.map (·.index) = l.tpList.map (·.index) := by
  unfold successfulSessionActivation
  split
  · exact ⟨rfl, rfl, rfl, rfl, rfl, rfl, rfl, rfl, rfl, rfl, rfl⟩
  · split
    · exact ⟨rfl, rfl, rfl, rfl, rfl, rfl, rfl, rfl, rfl, rfl, rfl⟩
    · exact ⟨rfl, rfl, rfl, rfl, rfl, rfl, rfl, rfl, rfl, rfl, Framework.map_update _ fun _ => rfl⟩

/-- What the program is told depends on its index and on that of the half-session
only. -/
theorem successfulSessionActivation_congr {l₁ : Lists} {u₁ : Lulu} (ht : l₁.tpList = l.tpList)
    (hr : l₁.rcbList = l.rcbList) (hi : u₁.tpIndex = lulu.tpIndex) (hh : u₁.hsIndex = lulu.hsIndex) :
    (successfulSessionActivation l₁ u₁).tpList = (successfulSessionActivation l lulu).tpList ∧
    (successfulSessionActivation l₁ u₁).rcbList = (successfulSessionActivation l lulu).rcbList := by
  have htp : ∀ i, l₁.tp i = l.tp i := fun i => congrArg (find TpCb.index i) ht
  have hrcb : ∀ i, l₁.rcb i = l.rcb i := fun i => congrArg (find Rcb.index i) hr
  unfold successfulSessionActivation
  rw [hi, htp]
  cases l.tp lulu.tpIndex with
  | none => exact ⟨ht, hr⟩
  | some tp =>
    simp only [hrcb]
    cases l.rcb tp.rcbIndex with
    | none => exact ⟨ht, hr⟩
    | some rcb => simp only [ht, hr, hh, and_self]

/-- A session that becomes active is counted in its mode. -/
theorem fsmInputPosInitHsRsp_outcome {remoteLu : RemoteLuCb}
    (hr : l.remoteLu lulu.remoteLuIndex = some remoteLu) (hs : lulu.state = .pndIniHsRspPlu) :
    RspOutcome l (fsmInputPosInitHsRsp l lulu).2 lulu true := by
  have hi : remoteLu.index = lulu.remoteLuIndex := Framework.key_of_find hr
  have hr' : (l.setLulu { lulu with state := .act }).remoteLu lulu.remoteLuIndex = some remoteLu := hr
  simp only [fsmInputPosInitHsRsp, hs, sessionActivatedProc]
  cases hm : l.mode lulu.modeIndex with
  | none =>
    have hm' : (l.setLulu { lulu with state := .act }).mode lulu.modeIndex = none := hm
    simp only [hm']
    exact ⟨⟨rfl, rfl, rfl, rfl, rfl, rfl, rfl, fun _ => rfl, rfl⟩, rfl,
      .inl ⟨.inr hm, rfl, rfl, rfl, rfl⟩⟩
  | some mode =>
    have hm' : (l.setLulu { lulu with state := .act }).mode lulu.modeIndex = some mode := hm
    simp only [hm', hr']
    obtain ⟨h1, h2, h3, h4, h5, h6, h7, h8, h9, h10, h11⟩ := @successfulSessionActivation_same
      ((l.setLulu { lulu with state := .act }).countActive mode remoteLu.index lulu.type)
      { lulu with state := .act }
    obtain ⟨h12, h13⟩ := @successfulSessionActivation_congr l lulu
      ((l.setLulu { lulu with state := .act }).countActive mode remoteLu.index lulu.type)
      { lulu with state := .act } rfl rfl rfl rfl
    refine ⟨⟨h8, h9, h6, h7, h4, congrArg _ h5, h11, fun i => ?_, congrArg _ h5⟩, h3,
      .inr ⟨rfl, mode, hm, h1, ?_, h12, h13⟩⟩
    · rw [Lists.remoteLu, h2]
      rfl
    · rw [h10, hi]
      rfl

theorem fsmInputBindRspNg_outcome (hs : lulu.state = .pndBinRsp) :
    RspOutcome l (fsmInputBindRspNg l lulu).2 lulu false := by
  rw [fsmInputBindRspNg, if_neg (not_not.mpr hs)]
  exact ⟨⟨rfl, rfl, rfl, rfl, rfl, rfl, rfl, fun _ => rfl, rfl⟩, rfl,
    .inl ⟨.inl rfl, rfl, rfl, rfl, rfl⟩⟩

/-- What comes before the state machine leaves the sessions and the modes. -/
theorem RspOutcome.of_frame {l0 : Lists} {done : Bool} (hf : RspFrame l l0)
    (hl : l0.luluList = l.luluList) (hb : SameBooks l l0) (h : RspOutcome l0 l' lulu done) :
    RspOutcome l l' lulu done := by
  refine ⟨⟨h.1.1.trans hf.1, h.1.2.trans hf.2, h.1.3.trans hf.3, h.1.4.trans hf.4, h.1.5.trans hf.5,
    h.1.6.trans hf.6, h.1.7.trans hf.7, fun i => (h.1.8 i).trans (hf.8 i), h.1.9.trans hf.9⟩,
    h.2.trans (by rw [hl]), ?_⟩
  have hmode : ∀ i, l0.mode i = l.mode i := fun i => congrArg (find ModeCb.index i) hb.modeList
  obtain ⟨ht, hr⟩ := @successfulSessionActivation_congr l lulu l0 lulu hb.tpList hb.rcbList rfl rfl
  rcases h.outcome with ⟨hd, ho⟩ | ⟨hd, mode, hm, ho⟩
  · exact .inl ⟨hmode _ ▸ hd, ho.1.trans hb.1, ho.2.trans hb.2, ho.3.trans hb.3, ho.4.trans hb.4⟩
  · exact .inr ⟨hd, mode, hmode _ ▸ hm, ho.1.trans (by rw [hb.modeList]),
      ho.2.trans (by rw [hb.counted]), ho.3.trans ht, ho.4.trans hr⟩

/-- A response to a BIND ends the activation or completes it. -/
theorem bindRspFor_outcome {lf : Lfsid} {rsp : BindRsp} {copied : Bool} (hs : lulu.state = .pndBinRsp) :
    RspOutcome l (bindRspFor l lulu lf rsp copied).2 lulu (completes l lulu rsp copied) := by
  unfold bindRspFor completes
  by_cases hn : rsp.neg = true
  · rw [if_pos hn, hn]
    exact fsmInputBindRspNg_outcome hs
  rw [if_neg hn, Bool.eq_false_iff.mpr hn]
  cases hr : l.remoteLu lulu.remoteLuIndex with
  | none => exact fsmInputBindRspNg_outcome hs
  | some remoteLu =>
    cases hh : l.hs lulu.hsIndex with
    | none =>
      simp only [hsInitFinish, hh, show -enoent < 0 by decide, ↓reduceIte, Option.isSome_none,
        Bool.and_false, Bool.false_and]
      exact fsmInputBindRspNg_outcome hs
    | some h =>
      cases copied with
      | false =>
        simp only [hsInitFinish, hh, Bool.false_eq_true, show -enomem < 0 by decide, ↓reduceIte,
          Bool.and_false]
        have h0 := @fsmInputBindRspNg_outcome (l.setHs (finishHs h lulu.pcIndex lf rsp.bind false))
          lulu hs
        have hf : RspFrame l (l.setHs (finishHs h lulu.pcIndex lf rsp.bind false)) :=
          ⟨rfl, rfl, rfl, rfl, rfl, index_setHs, rfl, fun _ => rfl, owner_finishHs hh⟩
        exact h0.of_frame hf rfl ⟨rfl, rfl, rfl, rfl⟩
      | true =>
        simp only [hsInitFinish, hh, Int.lt_irrefl, ↓reduceIte, fsmInputPosBindRspOk, hs, ne_eq,
          not_true_eq_false, Option.isSome_some, Bool.and_true, Bool.not_false]
        have hi : remoteLu.index = lulu.remoteLuIndex := Framework.key_of_find hr
        have hr' : (l.addSession remoteLu.index).remoteLu lulu.remoteLuIndex =
            some { remoteLu with sessions := remoteLu.sessions + 1 } := by
          have hr := Framework.find_update_self
            (f := fun r : RemoteLuCb => { r with sessions := r.sessions + 1 })
            (fun r (h : r.index = lulu.remoteLuIndex) => h) hr
          rw [← hi] at hr ⊢
          exact hr
        -- the session goes through PND_INI_HS_RSP_PLU on the way
        have h0 := @fsmInputPosInitHsRsp_outcome
          (((l.setHs (finishHs h lulu.pcIndex lf rsp.bind true)).addSession remoteLu.index).setLulu
            { lulu with state := .pndIniHsRspPlu }) { lulu with state := .pndIniHsRspPlu } _ hr' rfl
        refine ⟨⟨h0.1.1, h0.1.2, h0.1.3, h0.1.4, h0.1.5, h0.1.6.trans index_setHs,
          h0.1.7, fun i => (h0.1.8 i).trans (parallel_addSession i _), h0.1.9.trans (owner_finishHs hh)⟩,
          ?_, ?_⟩
        · exact h0.luluList.trans (Framework.update_update_const rfl)
        · rcases h0.outcome with ⟨hd, ho⟩ | ⟨hd, mode, hm, ho⟩
          · exact .inl ⟨hd, ho.1, ho.2, ho.3, ho.4⟩
          · obtain ⟨ht, hrc⟩ := @successfulSessionActivation_congr l lulu
              (((l.setHs (finishHs h lulu.pcIndex lf rsp.bind true)).addSession remoteLu.index).setLulu
                { lulu with state := .pndIniHsRspPlu }) { lulu with state := .pndIniHsRspPlu }
              rfl rfl rfl rfl
            exact .inr ⟨hd, mode, hm, ho.1, ho.2, ho.3.trans ht, ho.4.trans hrc⟩

/-- The session that a response received under an address is for. -/
def correlate (l : Lists) (odai daf oaf : UInt8) : Option Lulu :=
  (Asm.rxMuMapLfsid l.asmList odai daf oaf).bind fun r => l.lulu (r.1.lfsid r.2).smIndex.toUInt32

/-- A response changes no session and no mode, or it is for a session that waits
for it. -/
theorem step_bindRsp_cases {odai daf oaf : UInt8} {rsp : BindRsp} {copied : Bool}
    (h : step l (.bindRsp odai daf oaf rsp copied) = some l') :
    ((∀ lulu, correlate l odai daf oaf = some lulu → lulu.state ≠ .pndBinRsp) ∧ RspFrame l l' ∧
      l'.luluList = l.luluList ∧ SameBooks l l') ∨
    ∃ lulu, correlate l odai daf oaf = some lulu ∧ l.lulu lulu.index = some lulu ∧
      lulu.state = .pndBinRsp ∧ RspOutcome l l' lulu (completes l lulu rsp copied) := by
  have hrefl : RspFrame l l := ⟨rfl, rfl, rfl, rfl, rfl, rfl, rfl, fun _ => rfl, rfl⟩
  unfold step at h
  cases hm : Asm.rxMuMapLfsid l.asmList odai daf oaf with
  | none =>
    simp only [hm, Option.some.injEq] at h
    subst h
    exact .inl ⟨by simp [correlate, hm], hrefl, rfl, rfl, rfl, rfl, rfl⟩
  | some r =>
    obtain ⟨as, k⟩ := r
    simp only [hm, Option.some.injEq, procBindRsp] at h
    have hc : correlate l odai daf oaf = l.lulu (as.lfsid k).smIndex.toUInt32 := by
      simp [correlate, hm]
    cases hl : l.lulu (as.lfsid k).smIndex.toUInt32 with
    | none =>
      simp only [hl] at h
      subst h
      exact .inl ⟨by simp [hc, hl], hrefl, rfl, rfl, rfl, rfl, rfl⟩
    | some lulu =>
      simp only [hl] at h
      subst h
      by_cases hs : lulu.state = .pndBinRsp
      · have hi : lulu.index = (as.lfsid k).smIndex.toUInt32 := Framework.key_of_find hl
        have hl' : l.lulu lulu.index = some lulu := by rw [hi]; exact hl
        exact .inr ⟨lulu, hc.trans hl, hl', hs, bindRspFor_outcome hs⟩
      · refine .inl ⟨fun lulu' hl' => ?_, bindRspFor_frame_of_ne hs⟩
        rw [hc, hl, Option.some.injEq] at hl'
        rwa [← hl']

end LinuxSna.Sm
