import LinuxSna.Proof.Sna.Sm.Progress

/-!
# Partners that share a mode

The limits are kept for each mode name, over the sessions with all remote LUs, for
the resource manager and for the session manager. A remote LU without parallel
sessions is admitted if its mode has no session at all, whoever it is with, and is
not looked for in the other modes.

* `Shared.admits_iff`, `AddsUp.grants_iff`, `AddsUp.limit_iff`: what the counters of a
  mode decide is what the sessions with the LU alone would, as long as every partner
  has room beside the others;
* `Shared.of_step`: which a step keeps that leaves room;
* `partners`: then a remote LU without parallel sessions has one at most, and two
  runs in which it has the same sessions admit and refuse the same.
-/

namespace LinuxSna.Sm

open Framework (find update run Along)
open Hs (HsType)
open Rm (ModeCb RemoteLuCb LuCount Admits sessionActivationPolarity)

variable {l l' : Lists} {u u' v : Lulu} {route : Bool} {mode : ModeCb}
  {r : RemoteLuCb} {type : HsType}

/-- The sessions with a remote LU, over all modes, that are pending or active. -/
def Lists.sessionsWith (l : Lists) (j : UInt32) : ℕ :=
  l.luluList.countP fun u => u.state ≠ .res && u.remoteLuIndex = j

/-- What a mode has counted with a remote LU, and with all of them. -/
def Lists.held (l : Lists) (i j : UInt32) : ℕ :=
  l.counted.countP fun c => c.modeIndex = i && c.remoteLuIndex = j

def Lists.heldByAll (l : Lists) (i : UInt32) : ℕ := l.counted.countP (·.modeIndex = i)

/-- A remote LU without parallel sessions has one session at most. -/
def AtMostOne (l : Lists) : Prop :=
  ∀ j r, l.remoteLu j = some r → r.parallel = false → l.sessionsWith j ≤ 1

/-- Of the sessions counted: the pending conwinners and conlosers, and all
conwinners. -/
structure Share where
  pndWinners : ℕ
  pndLosers : ℕ
  winners : ℕ

/-- The share of a remote LU, and that of all of them. -/
def Lists.share (l : Lists) (i j : UInt32) : Share :=
  let own := l.counted.filter fun c => c.modeIndex = i && c.remoteLuIndex = j
  ⟨own.countP fun c => c.type = .fsp && !c.active, own.countP fun c => c.type = .bidder && !c.active,
    own.countP (·.type = .fsp)⟩

def Share.ofMode (mode : ModeCb) : Share :=
  ⟨mode.pending.conwinners.toNat, mode.pending.conlosers.toNat,
    mode.active.conwinners.toNat + mode.pending.conwinners.toNat⟩

/-- A request for a session is granted: the resource manager admits it, and for the
session manager it exceeds no limit when it is counted. -/
def Grants (mode : ModeCb) (r : RemoteLuCb) : Prop :=
  ∃ type, sessionActivationPolarity mode r = some type ∧
    luModeSessionLimit r (mode.countPending type) type .initSent = false

/-- A session that the one state admits the other does too, if the remote LU has as
many sessions of the mode in both. If it has as many of every kind, then a request
is granted in both or in none, and a session of either type that is started
without a request, or whose BIND is to be sent, exceeds a limit in both or in none. -/
def SameAnswers (l₁ l₂ : Lists) : Prop :=
  ∀ i j m₁ m₂ r₁ r₂, l₁.mode i = some m₁ → l₂.mode i = some m₂ → l₁.remoteLu j = some r₁ →
    l₂.remoteLu j = some r₂ → l₁.held i j = l₂.held i j →
    ((sessionActivationPolarity m₁ r₁).isSome ↔ (sessionActivationPolarity m₂ r₂).isSome) ∧
    (l₁.share i j = l₂.share i j → (Grants m₁ r₁ ↔ Grants m₂ r₂) ∧
      ∀ type state, state ≠ .active →
        luModeSessionLimit r₁ m₁ type state = luModeSessionLimit r₂ m₂ type state)

/-- The limits leave a remote LU what they would leave it alone, if the mode has
counted so many sessions in all and so many with the LU: there is room for one more,
or the LU has taken it all up; if it has no parallel sessions, the mode has counted
none or it has one itself. -/
def LeavesRoom (mode : ModeCb) (r : RemoteLuCb) (total own : ℕ) : Prop :=
  if r.parallel then total < mode.userMax.sessions.toNat ∨ mode.userMax.sessions.toNat ≤ own
  else mode.userMax.sessions = 0 ∨ total = 0 ∨ 0 < own

instance (mode : ModeCb) (r : RemoteLuCb) (total own : ℕ) : Decidable (LeavesRoom mode r total own) := by
  unfold LeavesRoom
  infer_instance

namespace Share

variable (s : Share) (max : LuCount) (parallel : Bool)

/-- One session more. -/
def count (type : HsType) (active : Bool) : Share where
  pndWinners := s.pndWinners + (type = .fsp && !active : Bool).toNat
  pndLosers := s.pndLosers + (type = .bidder && !active : Bool).toNat
  winners := s.winners + (type = .fsp : Bool).toNat

/-- The pending sessions of a type are as many as the limits allow. -/
def AtLimit : HsType → Prop
  | .fsp => parallel = true ∧ max.sessions.toNat = max.conlosers.toNat + s.pndWinners
  | .bidder => max.sessions.toNat = max.conwinners.toNat + s.pndLosers

instance : (type : HsType) → Decidable (s.AtLimit max parallel type)
  | .fsp => inferInstanceAs (Decidable (_ ∧ _))
  | .bidder => inferInstanceAs (Decidable (_ = _))

/-- The type of the next session that is requested. -/
def next : HsType :=
  if max.conlosers.toNat + s.winners < max.sessions.toNat then .fsp else .bidder

/-- With that session, the pending ones of its type are as many as the limits allow. -/
def Last : Prop := (s.count (s.next max) false).AtLimit max parallel (s.next max)

instance : Decidable (s.Last max parallel) :=
  inferInstanceAs (Decidable ((s.count (s.next max) false).AtLimit max parallel (s.next max)))

end Share

/-- The share of all meets a limit that concerns a remote LU where its own share does:
for either type, and with one more session if it may have one. -/
structure LeavesLimits (mode : ModeCb) (r : RemoteLuCb) (held : ℕ) (all own : Share) : Prop where
  fsp : all.AtLimit mode.userMax r.parallel .fsp ↔ own.AtLimit mode.userMax r.parallel .fsp
  bidder : all.AtLimit mode.userMax r.parallel .bidder ↔ own.AtLimit mode.userMax r.parallel .bidder
  last : held < mode.userMax.sessions.toNat ∧ (held = 0 ∨ r.parallel = true) →
    (all.Last mode.userMax r.parallel ↔ own.Last mode.userMax r.parallel)

instance (mode : ModeCb) (r : RemoteLuCb) (held : ℕ) (all own : Share) :
    Decidable (LeavesLimits mode r held all own) :=
  decidable_of_iff (_ ∧ _ ∧ _) ⟨fun h => ⟨h.1, h.2.1, h.2.2⟩, fun h => ⟨h.fsp, h.bidder, h.last⟩⟩

/-- The room that is left when the mode counts a session more with a remote LU. -/
def CountLeavesRoom (l : Lists) (mode : ModeCb) (j : UInt32) (type : HsType) (active : Bool) : Prop :=
  ∀ k r, l.remoteLu k = some r →
    LeavesRoom mode r (mode.total + 1) (l.held mode.index k + if k = j then 1 else 0) ∧
    LeavesLimits mode r (l.held mode.index k + if k = j then 1 else 0)
      ((Share.ofMode mode).count type active)
      (if k = j then (l.share mode.index k).count type active else l.share mode.index k)

/-- The remote LU may have a session more. -/
def MayStart (l : Lists) (j : UInt32) : Prop :=
  ∀ r, l.remoteLu j = some r → r.parallel = false → l.sessionsWith j = 0

/-- A session is started with a remote LU without parallel sessions only if it has
none, and what is counted leaves room for every remote LU. -/
def RoomIsLeft (l : Lists) : Event → Prop
  | .allocRcb tpIndex alloc _ => ∀ tp mode, l.tp tpIndex = some tp → createsRcb l tp alloc = true →
      tp.immediate = true → l.mode tp.modeIndex = some mode →
      CountLeavesRoom l mode tp.remoteLuIndex .fsp true ∧ mode.active.sessions.toNat + 1 < 2 ^ 16
  | .getSession tpIndex e => ∀ r, requested l tpIndex = some r →
      CountLeavesRoom l r.mode r.remoteLu.index r.type false ∧
      (startRefused r.remoteLu (r.mode.countPending r.type) r.type e = false →
        MayStart l r.remoteLu.index)
  | .startRemoteLu useName e => ∀ mode r, startLookup l useName = some (mode, r) →
      startRefused r mode .fsp e = false → MayStart l r.index
  | .bindRsp odai daf oaf rsp copied => ∀ u mode, correlate l odai daf oaf = some u →
      u.state = .pndBinRsp → completes l u rsp copied = true → l.mode u.modeIndex = some mode →
      CountLeavesRoom l mode u.remoteLuIndex u.type true ∧ mode.active.sessions.toNat + 1 < 2 ^ 16
  | .routeDone _ _ _ | .linkUp _ _ | .linkDown _ => True

/-! ## The decision -/

/-- With room left, the decision is the one that the sessions with the LU alone
would lead to. -/
theorem LeavesRoom.admits_iff {own : ℕ} (hle : own ≤ mode.total)
    (h : LeavesRoom mode r mode.total own) :
    Admits mode r ↔ own < mode.userMax.sessions.toNat ∧ (own = 0 ∨ r.parallel = true) := by
  unfold LeavesRoom at h
  unfold Admits
  cases hp : r.parallel with
  | true =>
    rw [hp, if_pos rfl] at h
    simp only [or_true, and_true]
    omega
  | false =>
    rw [hp, if_neg Bool.false_ne_true] at h
    simp only [Bool.false_eq_true, or_false]
    rcases h with h | h | h
    · rw [h]
      simp
    · rw [h] at hle ⊢
      rw [Nat.le_zero.mp hle]
    · omega

/-- The counters of a mode add up, and no more sessions are pending than it may have. -/
structure AddsUp (mode : ModeCb) : Prop where
  pending : mode.pending.Balanced
  active : mode.active.Balanced
  limit : mode.pending.sessions.toNat ≤ mode.userMax.sessions.toNat

/-- The session manager refuses a session of a type that is at its limit. -/
theorem AddsUp.limit_iff (h : AddsUp mode) {state : SessionState} (hs : state ≠ .active) :
    luModeSessionLimit r mode type state = true ↔
      (Share.ofMode mode).AtLimit mode.userMax r.parallel type := by
  have hc : limitCount mode state = mode.pending := by
    cases state with
    | active => exact absurd rfl hs
    | initSent => rfl
    | bindSent => rfl
  have hp := h.pending
  rw [LuCount.Balanced] at hp
  rw [← Bool.not_eq_false, Rm.luModeSessionLimit_eq_false, hc, and_iff_right (hp ▸ h.limit),
    not_and_or, not_not, not_not]
  cases type with
  | fsp => simp [Share.AtLimit, Share.ofMode]
  | bidder => simp [Share.AtLimit, Share.ofMode]

/-- And a request is granted that is admitted and not the last of its type. -/
theorem AddsUp.grants_iff (h : AddsUp mode) :
    Grants mode r ↔ Admits mode r ∧ ¬ (Share.ofMode mode).Last mode.userMax r.parallel := by
  have hs : SessionState.initSent ≠ .active := nofun
  have hn : (Share.ofMode mode).next mode.userMax = if Rm.RoomForWinner mode then .fsp else .bidder := by
    simp only [Share.next, Share.ofMode, Rm.RoomForWinner, Nat.add_assoc]
    rfl
  unfold Grants
  rw [Rm.polarity_eq]
  by_cases had : Admits mode r
  · have key := fun t => Rm.luModeSessionLimit_countPending h.pending had t hs
    rw [if_pos had, and_iff_right had, Share.Last, hn]
    simp only [Option.some.injEq, exists_eq_left', key]
    split <;> simp [Share.AtLimit, Share.count, Share.ofMode, Nat.add_assoc]
  · rw [if_neg had]
    simp [had]

theorem LeavesLimits.atLimit_iff {held : ℕ} {all own : Share} (h : LeavesLimits mode r held all own) :
    all.AtLimit mode.userMax r.parallel type ↔ own.AtLimit mode.userMax r.parallel type := by
  cases type with
  | fsp => exact h.fsp
  | bidder => exact h.bidder

/-- Of the remote LU, it matters only whether it has parallel sessions. -/
theorem LeavesLimits.congr {held : ℕ} {all own : Share} {mode' : ModeCb} {r' : RemoteLuCb}
    (h : LeavesLimits mode r held all own) (hp : r.parallel = r'.parallel)
    (hm : mode'.userMax = mode.userMax) : LeavesLimits mode' r' held all own := by
  obtain ⟨hf, hb, hl⟩ := h
  rw [hp] at hf hb hl
  constructor <;> rwa [hm]

/-- What every step keeps that leaves room. -/
structure Shared (l₀ l : Lists) : Prop where
  wf : Wf l
  atMostOne : AtMostOne l
  total (i : UInt32) (mode : ModeCb) : l.mode i = some mode → mode.total = l.heldByAll i
  room (i j : UInt32) (mode : ModeCb) (r : RemoteLuCb) : l.mode i = some mode →
    l.remoteLu j = some r → LeavesRoom mode r mode.total (l.held i j)
  addsUp (i : UInt32) (mode : ModeCb) : l.mode i = some mode → AddsUp mode
  limits (i j : UInt32) (mode : ModeCb) (r : RemoteLuCb) : l.mode i = some mode →
    l.remoteLu j = some r → LeavesLimits mode r (l.held i j) (Share.ofMode mode) (l.share i j)
  userMax (i : UInt32) : (l.mode i).map (·.userMax) = (l₀.mode i).map (·.userMax)
  parallel (j : UInt32) : (l.remoteLu j).map (·.parallel) = (l₀.remoteLu j).map (·.parallel)

theorem held_le (l : Lists) (i j : UInt32) : l.held i j ≤ l.heldByAll i :=
  List.countP_mono_left fun _ _ h => (Bool.and_eq_true _ _ ▸ h).1

theorem Shared.admits_iff {l₀ : Lists} {i j : UInt32}
    (hk : Shared l₀ l) (hm : l.mode i = some mode) (hr : l.remoteLu j = some r) :
    Admits mode r ↔
      l.held i j < mode.userMax.sessions.toNat ∧ (l.held i j = 0 ∨ r.parallel = true) :=
  (hk.room i j mode r hm hr).admits_iff (hk.total i mode hm ▸ held_le l i j)

theorem Initial.shared (h : Initial l) : Shared l l := by
  have hz : ∀ i mode, l.mode i = some mode → mode.total = 0 := fun i mode hm => by
    rw [ModeCb.total, (h.modes i mode hm).1, (h.modes i mode hm).2]
    rfl
  refine ⟨h.wf, fun j r _ _ => ?_, fun i mode hm => ?_, fun i j mode r hm hr => ?_, fun i mode hm => ?_,
    fun i j mode r hm hr => ?_, fun _ => rfl, fun _ => rfl⟩
  · rw [Lists.sessionsWith, h.luluList]
    exact Nat.zero_le _
  · rw [hz i mode hm, Lists.heldByAll, h.counted]
    rfl
  · rw [hz i mode hm, LeavesRoom]
    split
    · rcases Nat.eq_zero_or_pos mode.userMax.sessions.toNat with h0 | h0
      · exact .inr (h0 ▸ Nat.zero_le _)
      · exact .inl h0
    · exact .inr (.inl rfl)
  · obtain ⟨ha, hp⟩ := h.modes i mode hm
    exact ⟨hp ▸ rfl, ha ▸ rfl, hp ▸ Nat.zero_le _⟩
  · obtain ⟨ha, hp⟩ := h.modes i mode hm
    have hs : Share.ofMode mode = l.share i j := by
      rw [Share.ofMode, Lists.share, ha, hp, h.counted]
      rfl
    rw [hs]
    exact ⟨.rfl, .rfl, fun _ => .rfl⟩

/-- Two runs give the same answers. -/
theorem Shared.sameAnswers {l₀ l₁ l₂ : Lists} (h₁ : Shared l₀ l₁) (h₂ : Shared l₀ l₂) :
    SameAnswers l₁ l₂ := by
  intro i j m₁ m₂ r₁ r₂ hm₁ hm₂ hr₁ hr₂ hh
  have hmax := (h₁.userMax i).trans (h₂.userMax i).symm
  have hpar := (h₁.parallel j).trans (h₂.parallel j).symm
  rw [hm₁, hm₂, Option.map_some, Option.map_some, Option.some.injEq] at hmax
  rw [hr₁, hr₂, Option.map_some, Option.map_some, Option.some.injEq] at hpar
  have ha : ∀ (m : ModeCb) (r : RemoteLuCb),
      (sessionActivationPolarity m r).isSome ↔ Admits m r := fun m r => by
    rw [Option.isSome_iff_ne_none, ne_eq, Rm.polarity_eq_none, not_not]
  have hadm : Admits m₁ r₁ ↔ Admits m₂ r₂ := by
    rw [h₁.admits_iff hm₁ hr₁, h₂.admits_iff hm₂ hr₂, hh, hmax, hpar]
  have hlim₁ := h₁.limits i j m₁ r₁ hm₁ hr₁
  have hlim₂ := h₂.limits i j m₂ r₂ hm₂ hr₂
  rw [ha, ha]
  refine ⟨hadm, fun hsh => ⟨?_, fun type state hs => ?_⟩⟩
  · rw [(h₁.addsUp i m₁ hm₁).grants_iff, (h₂.addsUp i m₂ hm₂).grants_iff, ← hadm]
    refine and_congr_right fun had => not_congr ?_
    have had₁ := (h₁.admits_iff hm₁ hr₁).mp had
    have had₂ := (h₂.admits_iff hm₂ hr₂).mp (hadm.mp had)
    rw [hlim₁.last had₁, hlim₂.last had₂, hsh, hmax, hpar]
  · rw [Bool.eq_iff_iff, (h₁.addsUp i m₁ hm₁).limit_iff hs, (h₂.addsUp i m₂ hm₂).limit_iff hs,
      hlim₁.atLimit_iff, hlim₂.atLimit_iff, hsh, hmax, hpar]

/-! ## What a step changes -/

theorem Starts.sessionsWith (h : Starts l l' u route) (j : UInt32) :
    l'.sessionsWith j = l.sessionsWith j + (u.remoteLuIndex = j : Bool).toNat := by
  have hc := h.countP fun _ v => v.state ≠ .res && v.remoteLuIndex = j
  rw [h.state] at hc
  exact hc

/-- A session that gets on was one before. -/
theorem Moves.sessionsWith_le (hw : Wf l) (h : Moves l l' u u') (hu : u.state ≠ .res) (j : UInt32) :
    l'.sessionsWith j ≤ l.sessionsWith j := by
  have hc := h.countP hw fun _ v => v.state ≠ .res && v.remoteLuIndex = j
  simp only [h.kin.remoteLuIndex, ne_eq, hu, not_false_eq_true, decide_true, Bool.true_and] at hc
  have hle : (!decide (u'.state = .res) && decide (u.remoteLuIndex = j)).toNat ≤
      (decide (u.remoteLuIndex = j)).toNat := by
    cases decide (u'.state = .res) <;> simp
  have hc : l'.sessionsWith j + (decide (u.remoteLuIndex = j)).toNat = l.sessionsWith j + _ := hc
  simp only [decide_not] at hc
  omega

theorem AtMostOne.of_le (h : AtMostOne l) (hle : ∀ j, l'.sessionsWith j ≤ l.sessionsWith j)
    (hp : ∀ j, (l'.remoteLu j).map (·.parallel) = (l.remoteLu j).map (·.parallel)) : AtMostOne l' := by
  intro j r' hr' hpar
  have hj := hp j
  rw [hr', Option.map_some] at hj
  obtain ⟨r, hr, he⟩ := Option.map_eq_some_iff.mp hj.symm
  exact (hle j).trans (h j r hr (he.trans hpar))

/-- A session that starts with a remote LU that may have one. -/
theorem AtMostOne.of_starts (h : AtMostOne l) (hs : Starts l l' u route)
    (hr : l'.remoteLuList = l.remoteLuList) (hm : MayStart l u.remoteLuIndex) : AtMostOne l' := by
  intro j r hj hpar
  have hj : l.remoteLu j = some r := by rwa [Lists.remoteLu, ← hr]
  rw [hs.sessionsWith]
  by_cases hu : u.remoteLuIndex = j
  · subst hu
    rw [hm r hj hpar, Nat.zero_add]
    exact Bool.toNat_le _
  · simpa [hu] using h j r hj hpar

/-- A step that counts nothing. -/
theorem Shared.congr {l₀ : Lists} (hk : Shared l₀ l) (hw : Wf l') (ha : AtMostOne l')
    (hm : l'.modeList = l.modeList) (hc : l'.counted = l.counted)
    (hp : ∀ j, (l'.remoteLu j).map (·.parallel) = (l.remoteLu j).map (·.parallel)) : Shared l₀ l' := by
  have hmode : ∀ i, l'.mode i = l.mode i := fun i => congrArg (find ModeCb.index i) hm
  have hr : ∀ j r', l'.remoteLu j = some r' → ∃ r, l.remoteLu j = some r ∧ r.parallel = r'.parallel := by
    intro j r' hr'
    have hj := hp j
    rw [hr', Option.map_some] at hj
    exact Option.map_eq_some_iff.mp hj.symm
  refine ⟨hw, ha, fun i mode hi => ?_, fun i j mode r' hi hr' => ?_,
    fun i mode hi => hk.addsUp i mode (hmode i ▸ hi), fun i j mode r' hi hr' => ?_, fun i => ?_, fun j => ?_⟩
  · rw [hmode] at hi
    rw [Lists.heldByAll, hc]
    exact hk.total i mode hi
  · rw [hmode] at hi
    obtain ⟨r, hr, he⟩ := hr j r' hr'
    have hroom := hk.room i j mode r hi hr
    rw [Lists.held, hc]
    rwa [LeavesRoom, he] at hroom
  · rw [hmode] at hi
    obtain ⟨r, hr, he⟩ := hr j r' hr'
    rw [Lists.held, Lists.share, hc]
    exact (hk.limits i j mode r hi hr).congr he rfl
  · rw [hmode, hk.userMax]
  · rw [hp, hk.parallel]

/-- A session is counted with one mode. -/
theorem heldByAll_cons {i j i' : UInt32} {a : Bool} (h : l'.counted = ⟨i, j, type, a⟩ :: l.counted) :
    l'.heldByAll i' = l.heldByAll i' + if i' = i then 1 else 0 := by
  rw [Lists.heldByAll, h, List.countP_cons]
  simp only [decide_eq_true_eq, eq_comm (a := i')]
  rfl

/-- And with one LU -/
theorem held_cons {i j i' k : UInt32} {a : Bool} (h : l'.counted = ⟨i, j, type, a⟩ :: l.counted) :
    l'.held i' k = l.held i' k + if i' = i ∧ k = j then 1 else 0 := by
  rw [Lists.held, h, List.countP_cons]
  simp only [Bool.and_eq_true, decide_eq_true_eq, eq_comm (a := i'), eq_comm (a := k)]
  rfl

theorem share_cons {i j i' k : UInt32} {a : Bool} (h : l'.counted = ⟨i, j, type, a⟩ :: l.counted) :
    l'.share i' k = if i' = i ∧ k = j then (l.share i' k).count type a else l.share i' k := by
  rw [Lists.share, h, Lists.share]
  by_cases hik : i' = i ∧ k = j
  · obtain ⟨rfl, rfl⟩ := hik
    cases type <;> cases a <;> simp [Share.count]
  · rw [if_neg hik, List.filter_cons_of_neg]
    rw [Bool.and_eq_true, decide_eq_true_eq, decide_eq_true_eq]
    exact fun hc => hik ⟨hc.1.symm, hc.2.symm⟩

/-- A mode of the lists is the one that has changed, or is as it was. -/
theorem mode_of_changed {mode' m : ModeCb} {i : UInt32}
    (hm : ∀ i, l'.mode i = if i = mode.index then some mode' else l.mode i) (hi : l'.mode i = some m) :
    i = mode.index ∧ m = mode' ∨ i ≠ mode.index ∧ l.mode i = some m := by
  rw [hm] at hi
  by_cases h : i = mode.index
  · rw [if_pos h, Option.some.injEq] at hi
    exact .inl ⟨h, hi.symm⟩
  · rw [if_neg h] at hi
    exact .inr ⟨h, hi⟩

/-- A step that counts a session and leaves room. -/
theorem Shared.of_counted {l₀ : Lists} {mode' : ModeCb} {j : UInt32} {a : Bool}
    (hk : Shared l₀ l) (hw : Wf l') (ha : AtMostOne l') (hmode : l.mode mode.index = some mode)
    (hadd : AddsUp mode') (hs : Share.ofMode mode' = (Share.ofMode mode).count type a)
    (hm : ∀ i, l'.mode i = if i = mode.index then some mode' else l.mode i)
    (hmax : mode'.userMax = mode.userMax) (ht : mode'.total = mode.total + 1)
    (hc : l'.counted = ⟨mode.index, j, type, a⟩ :: l.counted)
    (hroom : CountLeavesRoom l mode j type a)
    (hp : ∀ k, (l'.remoteLu k).map (·.parallel) = (l.remoteLu k).map (·.parallel)) : Shared l₀ l' := by
  have hr : ∀ k r', l'.remoteLu k = some r' → ∃ r, l.remoteLu k = some r ∧ r.parallel = r'.parallel := by
    intro k r' hr'
    have hj := hp k
    rw [hr', Option.map_some] at hj
    exact Option.map_eq_some_iff.mp hj.symm
  refine ⟨hw, ha, fun i m hi => ?_, fun i k m r' hi hr' => ?_, fun i m hi => ?_,
    fun i k m r' hi hr' => ?_, fun i => ?_, fun k => by rw [hp, hk.parallel]⟩
  · rw [heldByAll_cons hc]
    obtain ⟨rfl, rfl⟩ | ⟨hne, hi⟩ := mode_of_changed hm hi
    · rw [ht, if_pos rfl, hk.total _ _ hmode]
    · rw [if_neg hne]
      exact hk.total i m hi
  · obtain ⟨r, hr, he⟩ := hr k r' hr'
    rw [held_cons hc, LeavesRoom, ← he]
    obtain ⟨rfl, rfl⟩ | ⟨hne, hi⟩ := mode_of_changed hm hi
    · have hk' := (hroom k r hr).1
      rw [LeavesRoom] at hk'
      simpa [ht, hmax] using hk'
    · simpa [LeavesRoom, hne] using hk.room i k m r hi hr
  · obtain ⟨-, rfl⟩ | ⟨-, hi⟩ := mode_of_changed hm hi
    · exact hadd
    · exact hk.addsUp i m hi
  · obtain ⟨r, hr, he⟩ := hr k r' hr'
    rw [held_cons hc, share_cons hc]
    obtain ⟨rfl, rfl⟩ | ⟨hne, hi⟩ := mode_of_changed hm hi
    · simpa [hs] using (hroom k r hr).2.congr he hmax
    · simpa [hne] using (hk.limits i k m r hi hr).congr he rfl
  · rw [hm]
    by_cases hi : i = mode.index
    · rw [if_pos hi, Option.map_some, hmax, ← hk.userMax, hi, hmode, Option.map_some]
    · rw [if_neg hi, hk.userMax]

/-! ## Steps that leave room -/

theorem total_countPending {tpIndex : UInt32} {r : Request} (h : requested l tpIndex = some r) :
    (r.mode.countPending r.type).total = r.mode.total + 1 := by
  have hadd := pending_countPending h
  rw [ModeCb.total, hadd]
  show _ + r.mode.active.sessions.toNat = r.mode.pending.sessions.toNat + _ + 1
  omega

theorem total_countActive (type : HsType)
    (h : mode.active.sessions.toNat + 1 < 2 ^ 16) :
    (mode.countActive type).total = mode.total + 1 := by
  have hadd : (mode.countActive type).active.sessions.toNat = mode.active.sessions.toNat + 1 := by
    cases type <;> exact Rm.toNat_succ (Nat.lt_succ_self _) h
  rw [ModeCb.total, hadd]
  rfl

theorem AddsUp.of_countPending (h : AddsUp mode)
    (hlt : mode.pending.sessions.toNat < mode.userMax.sessions.toNat) (type : HsType) :
    AddsUp (mode.countPending type) ∧
      Share.ofMode (mode.countPending type) = (Share.ofMode mode).count type false := by
  obtain ⟨hs, hw, hl⟩ := h.pending.count hlt type
  refine ⟨⟨h.pending.of_count hlt type, h.active, hs.trans_le hlt⟩, ?_⟩
  show Share.mk (mode.pending.count type).conwinners.toNat (mode.pending.count type).conlosers.toNat
    (_ + (mode.pending.count type).conwinners.toNat) = _
  rw [hw, hl]
  cases type <;> rfl

theorem AddsUp.of_countActive (h : AddsUp mode) (hlt : mode.active.sessions.toNat + 1 < 2 ^ 16)
    (type : HsType) :
    AddsUp (mode.countActive type) ∧
      Share.ofMode (mode.countActive type) = (Share.ofMode mode).count type true := by
  have hn : mode.active.sessions.toNat < (0xFFFF : UInt16).toNat := Nat.lt_of_succ_lt_succ hlt
  obtain ⟨-, hw, -⟩ := h.active.count hn type
  refine ⟨⟨h.pending, h.active.of_count hn type, h.limit⟩, ?_⟩
  show Share.mk _ _ ((mode.active.count type).conwinners.toNat + _) = _
  rw [hw]
  cases type <;> simp [Share.count, Share.ofMode, ModeCb.countActive, Nat.add_right_comm]

theorem Shared.of_step {l₀ : Lists} {e : Event} (hk : Shared l₀ l) (hG : RoomIsLeft l e)
    (h : step l e = some l') : Shared l₀ l' := by
  have hw := hk.wf.of_step h
  cases e with
  | allocRcb tpIndex alloc scbHs =>
    obtain ⟨tp, ht, ⟨-, rfl⟩ | ⟨hc, rcb, -, ⟨-, rfl⟩ | ⟨hi, mode, hm, rfl⟩⟩⟩ := step_allocRcb_cases h
    · exact hk
    · exact hk.congr hw hk.atMostOne rfl rfl fun _ => rfl
    · obtain ⟨hroom, hlt⟩ := hG tp mode ht hc hi hm
      have hidx : mode.index = tp.modeIndex := Framework.key_of_find hm
      have hmode : l.mode mode.index = some mode := hidx ▸ hm
      obtain ⟨hadd, hs⟩ := (hk.addsUp _ _ hm).of_countActive hlt .fsp
      exact hk.of_counted hw hk.atMostOne hmode hadd hs
        (fun i => mode_countActive_eq (l := l.linked tp rcb) _ tp.remoteLuIndex hmode) rfl
        (total_countActive .fsp hlt) rfl hroom fun _ => rfl
  | getSession tpIndex e =>
    rcases step_getSession_cases h with ⟨-, rfl⟩ | ⟨r, hr, hs⟩
    · exact hk
    obtain ⟨hroom, hstart⟩ := hG r hr
    obtain ⟨-, hm, -, -⟩ := requested_spec hr
    have hidx : r.mode.index = r.tp.modeIndex := Framework.key_of_find hm
    have hmode : l.mode r.mode.index = some r.mode := hidx ▸ hm
    obtain ⟨hadd, hsh⟩ := (hk.addsUp _ _ hm).of_countPending (Request.pending_lt hr) r.type
    have hcount := fun i => mode_countPending_eq (i := i) r.type r.remoteLu.index hmode
    rcases hs with ⟨-, rfl⟩ | ⟨hs, i, hi, rfl⟩
    · exact hk.of_counted hw (hk.atMostOne.of_le (fun _ => le_rfl) fun _ => rfl) hmode hadd hsh hcount rfl
        (total_countPending hr) rfl hroom fun _ => rfl
    · have hst : Starts l ((l.countPending r.mode r.remoteLu.index r.type).starts
          (newLulu r.mode r.remoteLu r.tp.index r.type i) e.route) _ e.route := Starts.of_countPending hi
      exact hk.of_counted hw (hk.atMostOne.of_starts hst rfl (hstart hs)) hmode hadd hsh hcount rfl
        (total_countPending hr) rfl hroom fun _ => rfl
  | startRemoteLu useName e =>
    rcases step_startRemoteLu_cases h with ⟨-, rfl⟩ | ⟨mode, r, hl, ⟨-, rfl⟩ | ⟨hs, i, hi, rfl⟩⟩
    · exact hk
    · exact hk
    · have hst : Starts l (l.starts (newLulu mode r 0 .fsp i) e.route) _ e.route := Starts.of_starts hi
      exact hk.congr hw (hk.atMostOne.of_starts hst rfl (hG mode r hl hs)) rfl rfl fun _ => rfl
  | routeDone i pcIndex e =>
    obtain ⟨u, hu, hs⟩ := hk.wf.waiting i (step_routeDone_mem h)
    obtain rfl : u.index = i := Framework.key_of_find hu
    obtain ⟨u', ho⟩ := step_routeDone_cases hu hs h
    have hp : ∀ j, (l'.remoteLu j).map (·.parallel) = (l.remoteLu j).map (·.parallel) := fun j => by
      rw [Lists.remoteLu, ho.same.remoteLuList]
      rfl
    refine hk.congr hw (hk.atMostOne.of_le (fun j => ?_) hp) ho.same.modeList ho.same.counted hp
    exact (ho.moves hu).sessionsWith_le hk.wf (fun h => by cases hs.symm.trans h) j
  | bindRsp odai daf oaf rsp copied =>
    rcases step_bindRsp_cases h with ⟨-, hf, hl, hb⟩ | ⟨u, hc, hu, hs, ho⟩
    · refine hk.congr hw (hk.atMostOne.of_le (fun j => ?_) hf.parallel) hb.modeList hb.counted
        hf.parallel
      rw [Lists.sessionsWith, hl]
      rfl
    have hle := (ho.moves hu).sessionsWith_le hk.wf (fun h => by cases hs.symm.trans h)
    have hone := hk.atMostOne.of_le hle ho.frame.parallel
    rcases ho.outcome with ⟨-, hb⟩ | ⟨hd, mode, hmode, ht⟩
    · exact hk.congr hw hone hb.modeList hb.counted ho.frame.parallel
    · obtain ⟨hroom, hlt⟩ := hG u mode hc hs hd hmode
      have hidx : mode.index = u.modeIndex := Framework.key_of_find hmode
      have hcount : ∀ i, l'.mode i =
          if i = mode.index then some (mode.countActive u.type) else l.mode i := fun i => by
        rw [ho.mode, hd, hidx]
        by_cases hi : i = u.modeIndex
        · simp [hi, hmode]
        · simp [hi]
      obtain ⟨hadd, hsh⟩ := (hk.addsUp _ _ hmode).of_countActive hlt u.type
      exact hk.of_counted hw hone (hidx ▸ hmode) hadd hsh hcount rfl (total_countActive u.type hlt)
        ht.counted hroom ho.frame.parallel
  | linkUp as pc =>
    rw [step_linkUp h] at hw ⊢
    exact hk.congr hw hk.atMostOne rfl rfl fun _ => rfl
  | linkDown pcIndex =>
    rw [step_linkDown h] at hw ⊢
    exact hk.congr hw hk.atMostOne rfl rfl fun _ => rfl

/-- After two runs from the same start in which every step leaves room, a remote LU
without parallel sessions has one session at most, and a remote LU that has the same
sessions of a mode in both gets the same answer. -/
theorem partners (l l₁ l₂ : Lists) (es₁ es₂ : List Event) (hl : Initial l)
    (h₁ : run step l es₁ = some l₁) (h₂ : run step l es₂ = some l₂)
    (hG₁ : Along step RoomIsLeft l es₁) (hG₂ : Along step RoomIsLeft l es₂) :
    AtMostOne l₁ ∧ SameAnswers l₁ l₂ := by
  have hrun : ∀ {es l'}, Along step RoomIsLeft l es → run step l es = some l' → Shared l l' :=
    fun hG h => Framework.run_invariant (I := Shared l) (fun _ _ _ hk hG h => hk.of_step hG h)
      hl.shared hG h
  exact ⟨(hrun hG₁ h₁).atMostOne, (hrun hG₁ h₁).sameAnswers (hrun hG₂ h₂)⟩

/-- A program asks for a session, and there are memory and a route. -/
def request (tpIndex : UInt32) : Event := .getSession tpIndex ⟨true, true⟩

/-- Two remote LUs without parallel sessions and two modes. The first two programs
have conversations with the first LU, in either mode, the third has one with the
second LU. -/
def twoPartners : Lists :=
  { oneProgram with
    modeList := [oneMode, { oneMode with index := 2, modeName := [0x24] }]
    remoteLuList := [{ useName := [0x4C], index := 1, sessions := 0, parallel := false },
      { useName := [0x4D], index := 2, sessions := 0, parallel := false }]
    tpList := [⟨1, 1, 1, 0, 1, .reset, false⟩, ⟨2, 2, 2, 0, 1, .reset, false⟩,
      ⟨3, 3, 1, 0, 2, .reset, false⟩]
    rcbList := [⟨1, 0, 1, 1, 0, 0, {}⟩, ⟨2, 0, 2, 2, 0, 0, {}⟩, ⟨3, 0, 3, 1, 0, 0, {}⟩] }

theorem initial_twoPartners : Initial twoPartners := by
  refine ⟨rfl, rfl, rfl, rfl, rfl, rfl, fun i mode hm => ?_, by decide⟩
  have hm := Framework.mem_of_find hm
  simp only [twoPartners, List.mem_cons, List.not_mem_nil, or_false] at hm
  rcases hm with rfl | rfl <;> exact ⟨rfl, rfl⟩

/-- The first LU has no parallel sessions, the second has. -/
def mixedPartners : Lists :=
  { twoPartners with
    remoteLuList := [{ useName := [0x4C], index := 1, sessions := 0, parallel := false },
      { useName := [0x4D], index := 2, sessions := 0, parallel := true }] }

theorem initial_mixedPartners : Initial mixedPartners :=
  { initial_twoPartners with }

/-- What the requests of the programs with the two lead to. -/
def mixedRequest (tpIndex : UInt32) (mode : ModeCb) (r : RemoteLuCb) : Request :=
  ⟨⟨tpIndex, tpIndex, 1, 0, r.index, .reset, false⟩, mode, r, .fsp⟩

/-- A request of a program, and the LUs that it leaves room. -/
theorem roomIsLeft_request {tpIndex : UInt32} {q : Request} (h : requested l tpIndex = some q)
    (hr : ∀ r ∈ l.remoteLuList,
      (LeavesRoom q.mode r (q.mode.total + 1)
          (l.held q.mode.index r.index + if r.index = q.remoteLu.index then 1 else 0) ∧
        LeavesLimits q.mode r
          (l.held q.mode.index r.index + if r.index = q.remoteLu.index then 1 else 0)
          ((Share.ofMode q.mode).count q.type false)
          (if r.index = q.remoteLu.index then (l.share q.mode.index r.index).count q.type false
            else l.share q.mode.index r.index)) ∧
      (r.index = q.remoteLu.index → r.parallel = false → l.sessionsWith q.remoteLu.index = 0)) :
    RoomIsLeft l (request tpIndex) := by
  intro q' hq'
  obtain rfl := Option.some.inj (h.symm.trans hq')
  refine ⟨fun k r hk => ?_, fun _ r hk hp => ?_⟩
  · obtain rfl := Framework.key_of_find hk
    exact (hr r (Framework.mem_of_find hk)).1
  · exact (hr r (Framework.mem_of_find hk)).2 (Framework.key_of_find hk) hp

set_option maxRecDepth 100000 in
/-- A session with the first LU, and then one with the second. -/
theorem along_mixedPartners : Along step RoomIsLeft mixedPartners [request 1, request 3] := by
  have h₁ : requested mixedPartners 1 = some (mixedRequest 1 oneMode
      { useName := [0x4C], index := 1, sessions := 0, parallel := false }) := by decide
  have h₃ : requested (after mixedPartners [request 1]) 3 = some (mixedRequest 3
      { oneMode with pending := ⟨1, 1, 0⟩ }
      { useName := [0x4D], index := 2, sessions := 0, parallel := true }) := by decide
  refine ⟨roomIsLeft_request h₁ (by decide), fun l hl => ⟨?_, fun _ _ => trivial⟩⟩
  obtain rfl : after mixedPartners [request 1] = l := Option.some.inj hl
  exact roomIsLeft_request h₃ (by decide)

set_option maxRecDepth 100000 in
theorem partners_mixedPartners :
    AtMostOne (after mixedPartners [request 1, request 3]) ∧
      SameAnswers (after mixedPartners [request 1, request 3]) (after mixedPartners [request 1]) :=
  partners mixedPartners _ _ [request 1, request 3] [request 1] initial_mixedPartners rfl rfl
    along_mixedPartners ⟨along_mixedPartners.1, fun _ _ => trivial⟩

set_option maxRecDepth 100000 in
/-- One session in either mode with the same LU; and the second LU, which has none,
is refused in the mode in which the first has one. -/
theorem twoPartners_share :
    (¬ ∀ (l l₁ : Lists) (es : List Event), Initial l → run step l es = some l₁ → AtMostOne l₁) ∧
    ¬ ∀ (l l₁ l₂ : Lists) (es₁ es₂ : List Event), Initial l → run step l es₁ = some l₁ →
      run step l es₂ = some l₂ → SameAnswers l₁ l₂ := by
  constructor
  · intro h
    have h := h twoPartners (after twoPartners [request 1, request 2]) [request 1, request 2]
      initial_twoPartners rfl 1 { useName := [0x4C], index := 1, sessions := 0, parallel := false }
      (by decide) rfl
    revert h
    decide
  · intro h
    have h := h twoPartners (after twoPartners [request 1]) twoPartners [request 1] []
      initial_twoPartners rfl rfl 1 2 { oneMode with pending := ⟨1, 1, 0⟩ } oneMode
      { useName := [0x4D], index := 2, sessions := 0, parallel := false }
      { useName := [0x4D], index := 2, sessions := 0, parallel := false }
      (by decide) (by decide) (by decide) (by decide) (by decide)
    have h := h.1
    revert h
    decide

end LinuxSna.Sm
