import LinuxSna.Impl.Sna.Sm.Session
import LinuxSna.Proof.Sna.Tc.Flow

/-!
# What a BIND negotiates

The RU sizes that the BIND carries, and the parameters that its two ends take
from it.

* `bindRuFold_isGreatest`: the byte decodes to the largest size that can be
  written and is not above the mode's;
* `bindRuUnfold_eq_iff`: `sna_sm_bind_ru_unfold` decodes it unless its exponent
  is 0;
* `segment_accepts_iff`: the half-session compares the length of an RU with the
  byte itself, which is never the size (`not_ruNegotiated`);
* `matching_iff`: when the two ends of a session agree on windows and RU sizes.
-/

namespace LinuxSna.Sm

open Hs
open Rm (LuCount ModeCb)
open Framework (halve sizes)

/-- The size that a byte of the BIND stands for. -/
def ruSize (code : UInt8) : ℕ := (code / 16).toNat * 2 ^ (code % 16).toNat

/-! ## The byte -/

/-- Mantissa and exponent of a size that is neither too small nor too large for
the byte. -/
theorem halve_range {n : ℕ} (h : 8 ≤ n) (hn : n < 491520) :
    8 ≤ (halve 15 32 n).1 ∧ (halve 15 32 n).1 ≤ 15 ∧ (halve 15 32 n).2 ≤ 15 := by
  have hle : (halve 15 32 n).1 * 2 ^ (halve 15 32 n).2 ≤ n := Framework.halve_mul_le
  have hlt : n < ((halve 15 32 n).1 + 1) * 2 ^ (halve 15 32 n).2 := Framework.lt_halve_mul
  have hm : 8 ≤ (halve 15 32 n).1 := by
    by_cases he : (halve 15 32 n).2 = 0
    · rw [he] at hlt; omega
    · have := Framework.le_halve_fst he
      omega
  refine ⟨hm, Framework.halve_fst_le (by omega), ?_⟩
  by_contra he
  have h16 : 2 ^ 16 ≤ 2 ^ (halve 15 32 n).2 := Nat.pow_le_pow_right (by omega) (by omega)
  have : 8 * 2 ^ 16 ≤ (halve 15 32 n).1 * 2 ^ (halve 15 32 n).2 := Nat.mul_le_mul hm h16
  omega

theorem toNat_code {m b : ℕ} (hm : m ≤ 15) (hb : b ≤ 15) :
    (UInt8.ofNat m * 16 ||| UInt8.ofNat b).toNat = 16 * m + b := by
  have h : 2 ^ 4 * m + b = 2 ^ 4 * m ||| b := Nat.two_pow_add_eq_or_of_lt (by omega) m
  rw [UInt8.toNat_or, UInt8.toNat_mul, UInt8.toNat_ofNat', UInt8.toNat_ofNat',
    Nat.mod_eq_of_lt (show b < 2 ^ 8 by omega), Nat.mod_eq_of_lt (show m < 2 ^ 8 by omega)]
  show m * 16 % 2 ^ 8 ||| b = _
  rw [Nat.mod_eq_of_lt (by omega), Nat.mul_comm m 16]
  exact h.symm

theorem toNat_bindRuFold {n : UInt32} (h : 8 ≤ n.toNat) (hn : n.toNat < 491520) :
    (bindRuFold n).toNat = 16 * (halve 15 32 n.toNat).1 + (halve 15 32 n.toNat).2 := by
  obtain ⟨-, hm, hb⟩ := halve_range h hn
  rw [bindRuFold, if_neg (by omega), if_neg (by omega)]
  exact toNat_code hm hb

theorem bindRuFold_div {n : UInt32} (h : 8 ≤ n.toNat) (hn : n.toNat < 491520) :
    (bindRuFold n / 16).toNat = (halve 15 32 n.toNat).1 := by
  have hr := halve_range h hn
  rw [UInt8.toNat_div, toNat_bindRuFold h hn]
  show _ / 16 = _
  omega

theorem bindRuFold_mod {n : UInt32} (h : 8 ≤ n.toNat) (hn : n.toNat < 491520) :
    (bindRuFold n % 16).toNat = (halve 15 32 n.toNat).2 := by
  have hr := halve_range h hn
  rw [UInt8.toNat_mod, toNat_bindRuFold h hn]
  show _ % 16 = _
  omega

theorem ruSize_bindRuFold {n : UInt32} (h : 8 ≤ n.toNat) (hn : n.toNat < 491520) :
    ruSize (bindRuFold n) = (halve 15 32 n.toNat).1 * 2 ^ (halve 15 32 n.toNat).2 := by
  rw [ruSize, bindRuFold_div h hn, bindRuFold_mod h hn]

/-- The byte decodes to the largest size with a mantissa and an exponent of 4
bits that is not above the size. -/
theorem bindRuFold_isGreatest {n : UInt32} (h : 8 ≤ n.toNat) (hn : n.toNat < 491520) :
    IsGreatest {s ∈ sizes 15 15 | s ≤ n.toNat} (ruSize (bindRuFold n)) := by
  obtain ⟨-, hm, hb⟩ := halve_range h hn
  rw [ruSize_bindRuFold h hn]
  exact Framework.halve_isGreatest hm hb

example : bindRuFold 1024 = 0x87 ∧ ruSize 0x87 = 1024 := by decide

/-! ## Its inverse -/

theorem toNat_double (k : ℕ) (hk : k ≤ 14) : ((· * 2)^[k] (2 : UInt32)).toNat = 2 ^ (k + 1) := by
  induction k with
  | zero => rfl
  | succ k ih =>
    have hp : 2 ^ (k + 1) ≤ 2 ^ 15 := Nat.pow_le_pow_right (by omega) (by omega)
    rw [Function.iterate_succ_apply', UInt32.toNat_mul, ih (by omega)]
    show 2 ^ (k + 1) * 2 % 2 ^ 32 = _
    rw [Nat.mod_eq_of_lt (by omega), ← pow_succ]

theorem toNat_bindRuUnfold {a b : UInt8} (ha : a.toNat ≤ 15) (hb : b.toNat ≤ 15) :
    (bindRuUnfold a b).toNat = a.toNat * 2 ^ max 1 b.toNat := by
  have hp : 2 ^ max 1 b.toNat ≤ 2 ^ 15 := Nat.pow_le_pow_right (by omega) (by omega)
  have hm : a.toNat * 2 ^ max 1 b.toNat ≤ 15 * 2 ^ 15 := Nat.mul_le_mul ha hp
  rw [bindRuUnfold, UInt32.toNat_mul, toNat_double _ (by omega),
    show b.toNat - 1 + 1 = max 1 b.toNat by omega]
  exact Nat.mod_eq_of_lt (by rw [UInt8.toNat_toUInt32]; omega)

/-- Sizes below 16 have the exponent 0, which is taken for 1. -/
theorem bindRuUnfold_eq_iff {n : UInt32} (h : 8 ≤ n.toNat) (hn : n.toNat < 491520) :
    (bindRuUnfold (bindRuFold n / 16) (bindRuFold n % 16)).toNat = ruSize (bindRuFold n) ↔
      16 ≤ n.toNat := by
  obtain ⟨h8, hm, hb⟩ := halve_range h hn
  rw [toNat_bindRuUnfold (by rw [bindRuFold_div h hn]; exact hm)
      (by rw [bindRuFold_mod h hn]; exact hb),
    ruSize_bindRuFold h hn, bindRuFold_div h hn, bindRuFold_mod h hn]
  constructor
  · intro he
    by_contra hlt
    rw [Framework.halve_of_le (by omega)] at he
    simp only [Nat.zero_le, sup_of_le_left, pow_one, pow_zero] at he
    omega
  · intro h16
    have he : (halve 15 32 n.toNat).2 ≠ 0 := by
      rw [Framework.halve_of_gt (by omega)]; exact Nat.succ_ne_zero _
    rw [Nat.max_eq_right (by omega)]

/-! ## What the half-session accepts -/

theorem bindRuFold_ne_ruSize {n : UInt32} (h : 8 ≤ n.toNat) (hn : n.toNat < 491520) :
    (bindRuFold n).toNat ≠ ruSize (bindRuFold n) := by
  obtain ⟨h8, hm, hb⟩ := halve_range h hn
  rw [toNat_bindRuFold h hn, ruSize_bindRuFold h hn]
  generalize (halve 15 32 n.toNat).1 = m at *
  generalize (halve 15 32 n.toNat).2 = b at *
  rcases Nat.lt_or_ge b 5 with h5 | h5
  · -- at most `16 * m`, and less if the exponent is 0
    have hp : 2 ^ b ≤ 2 ^ 4 := Nat.pow_le_pow_right (by omega) (by omega)
    have hle : m * 2 ^ b ≤ m * 2 ^ 4 := Nat.mul_le_mul_left m hp
    intro he
    have hb0 : b = 0 := by omega
    rw [hb0] at he
    omega
  · have hp : 2 ^ 5 ≤ 2 ^ b := Nat.pow_le_pow_right (by omega) h5
    have hle : m * 2 ^ 5 ≤ m * 2 ^ b := Nat.mul_le_mul_left m hp
    omega

/-- An RU that comes whole is accepted if it is no longer than the byte of the
BIND says as a number. -/
theorem segment_accepts_iff {type : HsType} {bind : Bind} {m : Mu} {truesize : ℕ}
    {alloc : Option ℕ} (hm : m.mpf = .wholeBiu) :
    (Hs.init type bind).segment m truesize alloc = some (Hs.init type bind, some m) ↔
      m.data.length ≤ (bind.maxRuSize type).toNat := by
  have hs : (Hs.init type bind).maxRxRuSize.toNat = (bind.maxRuSize type).toNat :=
    UInt8.toNat_toUInt16 _
  by_cases h : m.data.length ≤ (bind.maxRuSize type).toNat
  · simp [Hs.segment, hs, hm, h]
  · simp [Hs.segment, hs, h, Nat.lt_of_not_le h]

/-- RU size negotiation for the half-session of a type that takes its
parameters from the unchanged BIND of a mode. -/
structure RuNegotiated (mode : ModeCb) (type : HsType) : Prop where
  largest (n : UInt16) : n = mode.rxMaxRu ∨ n = mode.txMaxRu →
    IsGreatest {s ∈ sizes 15 15 | s ≤ n.toNat} (ruSize (bindRuFold n.toUInt32))
  inverts (n : UInt16) : n = mode.rxMaxRu ∨ n = mode.txMaxRu →
    (bindRuUnfold (bindRuFold n.toUInt32 / 16) (bindRuFold n.toUInt32 % 16)).toNat =
      ruSize (bindRuFold n.toUInt32)
  accepts (m : Mu) (truesize : ℕ) (alloc : Option ℕ) : m.mpf = .wholeBiu →
    ((Hs.init type (bindPktInit mode)).segment m truesize alloc =
        some (Hs.init type (bindPktInit mode), some m) ↔
      m.data.length ≤ ruSize ((bindPktInit mode).maxRuSize type))

/-- The size is never negotiated: the half-session takes the byte of the BIND
for a length. -/
theorem not_ruNegotiated (mode : ModeCb) (type : HsType) (hrx : 8 ≤ mode.rxMaxRu.toNat)
    (htx : 8 ≤ mode.txMaxRu.toNat) : ¬ RuNegotiated mode type := by
  intro h
  have hne : ((bindPktInit mode).maxRuSize type).toNat ≠
      ruSize ((bindPktInit mode).maxRuSize type) := by
    have hr := mode.rxMaxRu.toNat_lt
    have ht := mode.txMaxRu.toNat_lt
    cases type with
    | fsp => exact bindRuFold_ne_ruSize hrx (show mode.rxMaxRu.toNat < _ by omega)
    | bidder => exact bindRuFold_ne_ruSize htx (show mode.txMaxRu.toNat < _ by omega)
  apply hne
  apply eq_of_forall_le_iff
  intro k
  -- an RU of `k` bytes
  have hk := h.accepts (Tc.request .wholeBiu (List.replicate k 0)) 0 none rfl
  rw [segment_accepts_iff rfl] at hk
  simpa [Tc.request] using hk

/-- A mode with RUs of 1024 bytes both ways. -/
def mode1024 : ModeCb :=
  { index := 1, modeName := [0x23], active := .zero, pending := .zero,
    userMax := ⟨1200, 10, 10⟩, txMaxRu := 1024, rxMaxRu := 1024, txPacing := 7, rxPacing := 7 }

theorem not_ruNegotiated_mode1024 : ¬ RuNegotiated mode1024 .fsp :=
  not_ruNegotiated mode1024 .fsp (by decide) (by decide)

/-- An RU of 300 bytes is not accepted. -/
theorem mode1024_refuses : ¬ ∀ mode : ModeCb, 8 ≤ mode.rxMaxRu.toNat → 8 ≤ mode.txMaxRu.toNat →
    ∀ type, RuNegotiated mode type := by
  intro h
  have ha := (h mode1024 (by decide) (by decide) .fsp).accepts
    (Tc.request .wholeBiu (List.replicate 300 0)) 0 none rfl
  rw [segment_accepts_iff rfl, show (Tc.request .wholeBiu (List.replicate 300 0)).data.length = 300
    from List.length_replicate] at ha
  exact absurd ha (by decide)

/-! ## Both ends of a session -/

/-- The other type. -/
def partnerType : HsType → HsType
  | .fsp => .bidder
  | .bidder => .fsp

/-- The half-session of a type that sent the BIND, the primary one, and its
partner agree: what the one may send first the other expects, and each accepts
the RUs of the size that the BIND allows the other to send. -/
structure Matching (bind : Bind) (sender : HsType) : Prop where
  priWindow : (Hs.init sender bind).txPacing.nws = (Hs.init (partnerType sender) bind).rxPacing.nws
  secWindow : (Hs.init (partnerType sender) bind).txPacing.nws = (Hs.init sender bind).rxPacing.nws
  priLimit : (Hs.init sender bind).maxRxRuSize = bind.secMaxRuSize.toUInt16
  secLimit : (Hs.init (partnerType sender) bind).maxRxRuSize = bind.priMaxRuSize.toUInt16

/-- Two sizes that the byte of the BIND does not tell apart: they have the same
leading four bits, or neither is above 8. -/
def SameRuSize (a b : UInt16) : Prop := halve 15 32 (max 8 a.toNat) = halve 15 32 (max 8 b.toNat)

instance (a b : UInt16) : Decidable (SameRuSize a b) :=
  inferInstanceAs (Decidable (halve 15 32 (max 8 a.toNat) = _))

theorem toNat_bindRuFold_mode (n : UInt16) :
    (bindRuFold n.toUInt32).toNat =
      16 * (halve 15 32 (max 8 n.toNat)).1 + (halve 15 32 (max 8 n.toNat)).2 := by
  have hn := n.toNat_lt
  rcases Nat.lt_or_ge n.toNat 8 with h | h
  · rw [bindRuFold, if_pos (show n.toUInt32.toNat < 8 from h), Nat.max_eq_left (by omega)]
    rfl
  · rw [Nat.max_eq_right h]
    exact toNat_bindRuFold h (show n.toNat < _ by omega)

theorem bindRuFold_eq_iff {a b : UInt16} :
    bindRuFold a.toUInt32 = bindRuFold b.toUInt32 ↔ SameRuSize a b := by
  have ha := halve_range (n := max 8 a.toNat) (by omega) (by have := a.toNat_lt; omega)
  have hb := halve_range (n := max 8 b.toNat) (by omega) (by have := b.toNat_lt; omega)
  rw [← UInt8.toNat_inj, toNat_bindRuFold_mode, toNat_bindRuFold_mode, SameRuSize, Prod.ext_iff]
  omega

/-- The ends agree if the mode's windows are the same both ways, and its RU
sizes too unless the first speaker sent the BIND. -/
theorem matching_iff (mode : ModeCb) (sender : HsType) (htx : mode.txPacing.toNat < 64)
    (hrx : mode.rxPacing.toNat < 64) :
    Matching (bindPktInit mode) sender ↔
      mode.txPacing = mode.rxPacing ∧ (sender = .fsp ∨ SameRuSize mode.txMaxRu mode.rxMaxRu) := by
  have h64 : ∀ {w : UInt8}, w.toNat < 64 → w % 64 = w := fun {w} hw =>
    UInt8.toNat_inj.mp (by rw [UInt8.toNat_mod]; exact Nat.mod_eq_of_lt hw)
  have hb : (bindPktInit mode).txWinSize .fsp = mode.txPacing ∧
      (bindPktInit mode).txWinSize .bidder = mode.txPacing ∧
      (bindPktInit mode).rxWinSize .fsp = mode.rxPacing ∧
      (bindPktInit mode).rxWinSize .bidder = mode.rxPacing :=
    ⟨h64 htx, h64 htx, h64 hrx, h64 hrx⟩
  have hinj : ∀ {a b : UInt8}, a.toUInt16 = b.toUInt16 → a = b := fun {a b} h => by
    have h := congrArg UInt16.toNat h
    rwa [UInt8.toNat_toUInt16, UInt8.toNat_toUInt16, UInt8.toNat_inj] at h
  obtain ⟨ht, ht', hr, hr'⟩ := hb
  constructor
  · rintro ⟨hw, -, hl, -⟩
    cases sender with
    | fsp => exact ⟨ht.symm.trans (hw.trans hr'), .inl rfl⟩
    | bidder => exact ⟨ht'.symm.trans (hw.trans hr), .inr (bindRuFold_eq_iff.mp (hinj hl))⟩
  · rintro ⟨hw, hs⟩
    cases sender with
    | fsp => exact ⟨ht.trans (hw.trans hr'.symm), ht'.trans (hw.trans hr.symm), rfl, rfl⟩
    | bidder =>
      have hf := bindRuFold_eq_iff.mpr (hs.resolve_left nofun)
      exact ⟨ht'.trans (hw.trans hr.symm), ht.trans (hw.trans hr'.symm),
        congrArg UInt8.toUInt16 hf, congrArg UInt8.toUInt16 hf.symm⟩

theorem matching_iff_mode1024 : Matching (bindPktInit mode1024) .bidder ↔
    mode1024.txPacing = mode1024.rxPacing ∧
      (HsType.bidder = .fsp ∨ SameRuSize mode1024.txMaxRu mode1024.rxMaxRu) :=
  matching_iff mode1024 .bidder (by decide) (by decide)

/-- One end sends 7 requests at once where the other expects 3. -/
theorem not_matching_window : ¬ ∀ mode : ModeCb, mode.txPacing.toNat < 64 →
    mode.rxPacing.toNat < 64 → ∀ sender, Matching (bindPktInit mode) sender := by
  intro h
  exact absurd (h { mode1024 with rxPacing := 3 } (by decide) (by decide) .fsp).priWindow (by decide)

end LinuxSna.Sm
