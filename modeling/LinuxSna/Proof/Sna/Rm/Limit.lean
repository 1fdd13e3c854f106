import LinuxSna.Impl.Sna.Rm.Mode

/-!
# The session limit, decided twice

The resource manager decides on the type of a new session from the active and
the pending sessions and counts it; the session manager then looks at the
pending sessions only, the new one among them.

* `polarity_eq_fsp`, `polarity_eq_bidder`: when a session is admitted, and as what;
* `luModeSessionLimit_eq_false`: when the session manager sees no limit exceeded;
* `limitsAgree_iff`: they agree except for the last session below a limit.
-/

namespace LinuxSna.Rm

open Hs (HsType)
open Sm (luModeSessionLimit SessionState)

variable {mode : ModeCb} {remoteLu : RemoteLuCb}

/-! ## Counters -/

/-- The sessions of both types are all sessions. -/
def LuCount.Balanced (c : LuCount) : Prop :=
  c.sessions.toNat = c.conwinners.toNat + c.conlosers.toNat

instance (c : LuCount) : Decidable c.Balanced := inferInstanceAs (Decidable (_ = _))

theorem toNat_succ {x : UInt16} {n : ℕ} (h : x.toNat < n) (hn : n < 2 ^ 16) :
    (x + 1).toNat = x.toNat + 1 := by
  rw [UInt16.toNat_add]
  show (x.toNat + 1) % 2 ^ 16 = _
  omega

/-- A counter below a limit is not at its end. -/
theorem LuCount.Balanced.count {c : LuCount} (h : c.Balanced) {n : UInt16}
    (hn : c.sessions.toNat < n.toNat) (type : HsType) :
    (c.count type).sessions.toNat = c.sessions.toNat + 1 ∧
    (c.count type).conwinners.toNat = c.conwinners.toNat + (if type = .fsp then 1 else 0) ∧
    (c.count type).conlosers.toNat = c.conlosers.toNat + (if type = .bidder then 1 else 0) := by
  have hl := n.toNat_lt
  rw [LuCount.Balanced] at h
  have hs := toNat_succ hn hl
  cases type with
  | fsp => exact ⟨hs, toNat_succ (show c.conwinners.toNat < n.toNat by omega) hl, rfl⟩
  | bidder => exact ⟨hs, rfl, toNat_succ (show c.conlosers.toNat < n.toNat by omega) hl⟩

theorem LuCount.Balanced.of_count {c : LuCount} (h : c.Balanced) {n : UInt16}
    (hn : c.sessions.toNat < n.toNat) (type : HsType) : (c.count type).Balanced := by
  obtain ⟨hs, hw, hl⟩ := h.count hn type
  rw [LuCount.Balanced] at h ⊢
  rw [hs, hw, hl]
  cases type <;> simp <;> omega

/-! ## The two decisions -/

/-- The mode has room for a session with the remote LU. -/
def Admits (mode : ModeCb) (remoteLu : RemoteLuCb) : Prop :=
  mode.total < mode.userMax.sessions.toNat ∧ (mode.total = 0 ∨ remoteLu.parallel = true)

instance : Decidable (Admits mode remoteLu) := inferInstanceAs (Decidable (_ ∧ _))

/-- The limits leave room for a conwinner. -/
def RoomForWinner (mode : ModeCb) : Prop :=
  mode.userMax.conlosers.toNat + mode.active.conwinners.toNat + mode.pending.conwinners.toNat <
    mode.userMax.sessions.toNat

instance : Decidable (RoomForWinner mode) := inferInstanceAs (Decidable (_ < _))

theorem polarity_eq (mode : ModeCb) (remoteLu : RemoteLuCb) :
    sessionActivationPolarity mode remoteLu =
      if Admits mode remoteLu then some (if RoomForWinner mode then .fsp else .bidder) else none := by
  unfold sessionActivationPolarity
  by_cases h : mode.total < mode.userMax.sessions.toNat
  · rw [if_neg (by omega)]
    by_cases hn : mode.total ≠ 0 ∧ remoteLu.parallel = false
    · rw [if_pos hn, if_neg]
      rintro ⟨-, h0 | hp⟩
      · exact hn.1 h0
      · exact absurd (hp.symm.trans hn.2) nofun
    · have had : Admits mode remoteLu := by
        refine ⟨h, ?_⟩
        by_contra hc
        rw [not_or, Bool.not_eq_true] at hc
        exact hn hc
      rw [if_neg hn, if_pos had]
      by_cases hw : RoomForWinner mode
      · rw [if_pos hw, if_pos (by unfold RoomForWinner at hw; omega)]
      · rw [if_neg hw, if_neg (by unfold RoomForWinner at hw; omega)]
  · rw [if_pos (by omega), if_neg fun had => h had.1]

theorem polarity_eq_none :
    sessionActivationPolarity mode remoteLu = none ↔ ¬ Admits mode remoteLu := by
  rw [polarity_eq]
  split <;> simp [*]

theorem polarity_eq_fsp :
    sessionActivationPolarity mode remoteLu = some .fsp ↔
      Admits mode remoteLu ∧ RoomForWinner mode := by
  rw [polarity_eq]
  split_ifs <;> simp [*]

theorem polarity_eq_bidder :
    sessionActivationPolarity mode remoteLu = some .bidder ↔
      Admits mode remoteLu ∧ ¬ RoomForWinner mode := by
  rw [polarity_eq]
  split_ifs <;> simp [*]

theorem luModeSessionLimit_eq_false {type : HsType} {state : SessionState} :
    luModeSessionLimit remoteLu mode type state = false ↔
      (Sm.limitCount mode state).conwinners.toNat + (Sm.limitCount mode state).conlosers.toNat ≤
        mode.userMax.sessions.toNat ∧
      ¬ (type = .fsp ∧ remoteLu.parallel = true ∧ mode.userMax.sessions.toNat =
        mode.userMax.conlosers.toNat + (Sm.limitCount mode state).conwinners.toNat) ∧
      ¬ (type = .bidder ∧ mode.userMax.sessions.toNat =
        mode.userMax.conwinners.toNat + (Sm.limitCount mode state).conlosers.toNat) := by
  simp only [luModeSessionLimit]
  generalize (Sm.limitCount mode state).conwinners.toNat = w
  generalize (Sm.limitCount mode state).conlosers.toNat = l
  cases type <;> cases remoteLu.parallel <;> split_ifs <;> simp at * <;> omega

/-! ## Agreement -/

/-- A session that the resource manager admits and counts as pending exceeds no
limit for the session manager, before INIT_SIGNAL and before BIND; and at the
limit the resource manager admits none. -/
structure LimitsAgree (mode : ModeCb) (remoteLu : RemoteLuCb) : Prop where
  admitted (type : HsType) : sessionActivationPolarity mode remoteLu = some type →
    luModeSessionLimit remoteLu (mode.countPending type) type .initSent = false ∧
    luModeSessionLimit remoteLu (mode.countPending type) type .bindSent = false
  refused : mode.userMax.sessions.toNat ≤ mode.total →
    sessionActivationPolarity mode remoteLu = none

/-- The session would be the last conwinner that the limits allow, and all
conwinners are pending. -/
def LastWinner (mode : ModeCb) (remoteLu : RemoteLuCb) : Prop :=
  remoteLu.parallel = true ∧ mode.active.conwinners.toNat = 0 ∧ mode.userMax.sessions.toNat =
    mode.userMax.conlosers.toNat + mode.pending.conwinners.toNat + 1

/-- There is no room for a conwinner, and the session would be the last conloser
that the limits allow beside the pending ones. -/
def LastLoser (mode : ModeCb) : Prop :=
  ¬ RoomForWinner mode ∧ mode.userMax.sessions.toNat = mode.userMax.conwinners.toNat + mode.pending.conlosers.toNat + 1

instance : Decidable (LastWinner mode remoteLu) := inferInstanceAs (Decidable (_ ∧ _ ∧ _))
instance : Decidable (LastLoser mode) := inferInstanceAs (Decidable (_ ∧ _))

/-- What the session manager sees of an admitted session: only the last one below
a limit exceeds it. -/
theorem luModeSessionLimit_countPending (ha : mode.pending.Balanced) (had : Admits mode remoteLu)
    (type : HsType) {state : SessionState} (hs : state ≠ .active) :
    luModeSessionLimit remoteLu (mode.countPending type) type state = false ↔
      ¬ (type = .fsp ∧ remoteLu.parallel = true ∧ mode.userMax.sessions.toNat =
        mode.userMax.conlosers.toNat + mode.pending.conwinners.toNat + 1) ∧
      ¬ (type = .bidder ∧ mode.userMax.sessions.toNat =
        mode.userMax.conwinners.toNat + mode.pending.conlosers.toNat + 1) := by
  have hlt : mode.pending.sessions.toNat < mode.userMax.sessions.toNat :=
    Nat.lt_of_le_of_lt (Nat.le_add_right _ _) had.1
  obtain ⟨-, hw, hl⟩ := ha.count hlt type
  have hc : Sm.limitCount (mode.countPending type) state = mode.pending.count type := by
    cases state with
    | active => exact absurd rfl hs
    | initSent => rfl
    | bindSent => rfl
  rw [luModeSessionLimit_eq_false, hc, hw, hl]
  rw [LuCount.Balanced] at ha
  show _ ≤ mode.userMax.sessions.toNat ∧ ¬ (_ ∧ _ ∧ mode.userMax.sessions.toNat =
    mode.userMax.conlosers.toNat + _) ∧ ¬ (_ ∧ mode.userMax.sessions.toNat =
    mode.userMax.conwinners.toNat + _) ↔ _
  cases type with
  | fsp =>
    simp only [↓reduceIte, reduceCtorEq, true_and, false_and, not_false_eq_true, and_true]
    exact and_iff_right (by omega)
  | bidder =>
    simp only [↓reduceIte, reduceCtorEq, true_and, false_and, not_false_eq_true]
    exact and_iff_right (by omega)

/-- The decisions agree unless the session admitted is the last one below a
limit. -/
theorem limitsAgree_iff (mode : ModeCb) (remoteLu : RemoteLuCb) (hp : mode.pending.Balanced) :
    LimitsAgree mode remoteLu ↔
      (Admits mode remoteLu → ¬ LastWinner mode remoteLu ∧ ¬ LastLoser mode) := by
  constructor
  · intro h had
    constructor
    · rintro ⟨hpar, hw, hl⟩
      have h := (h.admitted .fsp (polarity_eq_fsp.mpr ⟨had, by unfold RoomForWinner; omega⟩)).1
      have hs : SessionState.initSent ≠ .active := nofun
      exact ((luModeSessionLimit_countPending hp had .fsp hs).mp h).1 ⟨rfl, hpar, hl⟩
    · rintro ⟨hw, hl⟩
      have h := (h.admitted .bidder (polarity_eq_bidder.mpr ⟨had, hw⟩)).1
      have hs : SessionState.initSent ≠ .active := nofun
      exact ((luModeSessionLimit_countPending hp had .bidder hs).mp h).2 ⟨rfl, hl⟩
  · intro h
    have key : ∀ type, sessionActivationPolarity mode remoteLu = some type →
        ∀ state ≠ SessionState.active,
          luModeSessionLimit remoteLu (mode.countPending type) type state = false := by
      intro type ht state hs
      cases type with
      | fsp =>
        obtain ⟨had, hw⟩ := polarity_eq_fsp.mp ht
        refine (luModeSessionLimit_countPending hp had .fsp hs).mpr ⟨?_, nofun⟩
        rintro ⟨-, hpar, hl⟩
        exact (h had).1 ⟨hpar, by unfold RoomForWinner at hw; omega, hl⟩
      | bidder =>
        obtain ⟨had, hw⟩ := polarity_eq_bidder.mp ht
        refine (luModeSessionLimit_countPending hp had .bidder hs).mpr ⟨nofun, ?_⟩
        rintro ⟨-, hl⟩
        exact (h had).2 ⟨hw, hl⟩
    refine ⟨fun type ht => ⟨key type ht _ nofun, key type ht _ nofun⟩, fun hle => ?_⟩
    exact polarity_eq_none.mpr fun had => absurd had.1 (Nat.not_lt.mpr hle)

/-- A mode as `sna_rm_define_mode` leaves it, and after so many requests for a conwinner that are not
yet answered -/
def asked (n : ℕ) : ModeCb :=
  (fun mode : ModeCb => mode.countPending .fsp)^[n]
    { index := 1, modeName := [0x23], active := .zero, pending := .zero, userMax := ⟨1200, 10, 10⟩,
      txMaxRu := 1024, rxMaxRu := 1024, txPacing := 7, rxPacing := 7 }

/-- A remote LU with parallel sessions. -/
def parallelLu : RemoteLuCb := { useName := [0x4C], index := 1, sessions := 0, parallel := true }

theorem asked_eq (n : ℕ) :
    asked n = { asked 0 with pending := ⟨UInt16.ofNat n, UInt16.ofNat n, 0⟩ } := by
  induction n with
  | zero => rfl
  | succ n ih =>
    have hstep : asked (n + 1) = (asked n).countPending .fsp := Function.iterate_succ_apply' _ _ _
    rw [hstep, ih, UInt16.ofNat_add]
    rfl

theorem asked_balanced (n : ℕ) : (asked n).pending.Balanced := by
  rw [asked_eq]
  show _ = _ + 0
  rfl

/-- The requests before are granted by both, so that a mode comes to have 1189 of them pending. -/
theorem asked_agrees {n : ℕ} (hn : n < 1189) :
    sessionActivationPolarity (asked n) parallelLu = some .fsp ∧ LimitsAgree (asked n) parallelLu := by
  have hw : (UInt16.ofNat n).toNat = n := by
    rw [UInt16.toNat_ofNat', Nat.mod_eq_of_lt (by omega)]
  have hpending : (asked n).pending = ⟨UInt16.ofNat n, UInt16.ofNat n, 0⟩ := by rw [asked_eq]
  have hmax : (asked n).userMax = ⟨1200, 10, 10⟩ := by rw [asked_eq]; rfl
  have hactive : (asked n).active = .zero := by rw [asked_eq]; rfl
  have hroom : RoomForWinner (asked n) := by
    rw [RoomForWinner, hmax, hactive, hpending, hw]
    show 10 + 0 + n < 1200
    omega
  have had : Admits (asked n) parallelLu := by
    refine ⟨?_, .inr rfl⟩
    rw [ModeCb.total, hmax, hactive, hpending, hw]
    show n + 0 < 1200
    omega
  refine ⟨polarity_eq_fsp.mpr ⟨had, hroom⟩, (limitsAgree_iff _ _ (asked_balanced n)).mpr fun _ => ⟨?_, ?_⟩⟩
  · rintro ⟨-, -, hl⟩
    rw [hmax, hpending, hw] at hl
    have hl : 1200 = 10 + n + 1 := hl
    omega
  · exact fun hl => hl.1 hroom

theorem limitsAgree_iff_asked : LimitsAgree (asked 1189) parallelLu ↔
    (Admits (asked 1189) parallelLu →
      ¬ LastWinner (asked 1189) parallelLu ∧ ¬ LastLoser (asked 1189)) :=
  limitsAgree_iff (asked 1189) parallelLu (asked_balanced 1189)

/-- The last conwinner that the limits leave room for is admitted by the
resource manager and refused by the session manager. -/
theorem not_limitsAgree_asked : ¬ ∀ (mode : ModeCb) (remoteLu : RemoteLuCb),
    mode.active.Balanced → mode.pending.Balanced → LimitsAgree mode remoteLu := by
  intro h
  have h := h (asked 1189) parallelLu (by rw [asked_eq]; decide) (asked_balanced 1189)
  rw [asked_eq] at h
  exact absurd (h.admitted .fsp (by decide)).1 (by decide)

end LinuxSna.Rm
