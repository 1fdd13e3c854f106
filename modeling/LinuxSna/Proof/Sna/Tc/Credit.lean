import LinuxSna.Proof.Sna.Tc.Flow

/-!
# The receive window

`sna_tc_rx` counts the first segments that it is sent against the windows that it has granted, but
`sna_tc_mu_pacing_chk`, which should refuse those beyond, checks nothing, and whole BIUs do not get
to it.

* `rx_rxPacing`: what an MU does to the receive pacing;
* `receive_window`: the counts are right in the runs in which the partner keeps to its windows.
-/

namespace LinuxSna.Tc

open Hs Framework

variable {hs : Hs} {m : Mu}

/-- An MU of the normal flow, with what happens while it is received -/
structure Incoming where
  mu : Mu
  env : RxEnv
  norm : mu.efi = .norm

/-- The MU begins a BIU. -/
def Begins (m : Mu) : Prop := m.mpf = .bbiu ∨ m.mpf = .wholeBiu

/-- There is credit left, or the MU opens the next window. -/
def HasCredit (p : Pacing) (m : Mu) : Prop := p.rpc ≠ 0 ∨ m.pi = true ∧ p.nws ≠ 0

/-- `sna_tc_rx` counts the MU. -/
def Counts (hs : Hs) (m : Mu) : Prop := 0 ≤ hs.rxSegmentChk m ∧ m.mpf = .bbiu

instance : Decidable (Begins m) := inferInstanceAs (Decidable (_ ∨ _))
instance (p : Pacing) : Decidable (HasCredit p m) := inferInstanceAs (Decidable (_ ∨ _))
instance : Decidable (Counts hs m) := inferInstanceAs (Decidable (_ ∧ _))

/-- The window that a RESET message makes valid while the MU is received -/
def renewed (hs : Hs) (i : Incoming) : Option UInt8 :=
  if hs.rxSegmentChk i.mu < 0 then none
  else
    let hs := if i.mu.mpf = .bbiu then hs.rxPacingUpdate i.mu else hs
    match hs.segment i.mu i.env.truesize i.env.alloc with
    | some (hs, some biu) =>
      if 0 ≤ hs.rxBiuChk biu ∧ biu.isPacingRsp ∧ hs.txPacing.type = .adaptive ∧ biu.ipm.type = .reset
      then some hs.unsolicitedNws
      else none
    | _ => none

/-- A half-session with the last window that it has granted -/
structure Granting where
  hs : Hs
  window : Nat

namespace Granting

def start (hs : Hs) : Granting := ⟨hs, hs.rxPacing.nws.toNat⟩

def step (g : Granting) (i : Incoming) : Option Granting :=
  (g.hs.rx i.mu i.env).map fun r => ⟨r.hs, (renewed g.hs i).elim g.window (·.toNat)⟩

end Granting

/-- The MU is refused: nothing has changed, and nobody gets it. -/
structure Discarded (hs : Hs) (m : Mu) (r : Received) : Prop where
  same : r.hs = hs
  mus : r.mus = []
  dfc : r.dfc = none
  err : r.err < 0 ∨ hs.maxRxRuSize.toNat < m.data.length

/-- What is counted does not wrap, and what begins a BIU without credit is refused. -/
structure Exact (g : Granting) (i : Incoming) : Prop where
  counted : Counts g.hs i.mu → ((g.hs.rxPacingUpdate i.mu).rxPacing.rpc.toNat : Int) =
    (if i.mu.pi then (g.hs.rxPacing.nws.toNat : Int) else g.hs.rxPacing.rpc.toNat) - 1
  refused : Begins i.mu → ¬ HasCredit g.hs.rxPacing i.mu →
    ∀ r, g.hs.rx i.mu i.env = some r → Discarded g.hs i.mu r

/-- The count does not exceed the last window. -/
def Within (g : Granting) : Prop := g.hs.rxPacing.rpc.toNat ≤ g.window

/-- A whole BIU that is refused for another reason -/
def Unfit (hs : Hs) (m : Mu) : Prop :=
  hs.maxRxRuSize.toNat < m.data.length ∨ hs.rxBiuChk m < 0 ∨
    m.isPacingRsp = true ∧ hs.txPacing.type = .none ∨ m.isPacingRsp = false ∧ isEncrypted m = true

/-- The partner keeps to its windows: a first segment that is counted takes credit that is left or
opens a window that has been granted, and a whole BIU that would be accepted finds credit. -/
structure Abides (g : Granting) (i : Incoming) : Prop where
  first : Counts g.hs i.mu → if i.mu.pi then g.hs.rxPacing.nws ≠ 0 else g.hs.rxPacing.rpc ≠ 0
  whole : i.mu.mpf = .wholeBiu → HasCredit g.hs.rxPacing i.mu ∨ Unfit g.hs i.mu

instance (hs : Hs) (m : Mu) : Decidable (Unfit hs m) :=
  inferInstanceAs (Decidable (_ ∨ _ ∨ _ ∧ _ ∨ _ ∧ _))

instance (g : Granting) (i : Incoming) : Decidable (Abides g i) :=
  decidable_of_iff
    ((Counts g.hs i.mu → if i.mu.pi then g.hs.rxPacing.nws ≠ 0 else g.hs.rxPacing.rpc ≠ 0) ∧
      (i.mu.mpf = .wholeBiu → HasCredit g.hs.rxPacing i.mu ∨ Unfit g.hs i.mu))
    ⟨fun h => ⟨h.1, h.2⟩, fun h => ⟨h.first, h.whole⟩⟩

/-! ## What the functions leave -/

@[simp] theorem sendToPc_rxPacing (hs : Hs) (m : Mu) (pc : Option Int) :
    (hs.sendToPc m pc).hs.rxPacing = hs.rxPacing := by
  unfold sendToPc sendPacing
  split
  · rfl
  · split_ifs <;> rfl

@[simp] theorem sendNext_rxPacing (hs : Hs) (err : Int) (pc : Option Int) :
    (hs.sendNext err pc).hs.rxPacing = hs.rxPacing := by
  unfold sendNext
  split
  · rfl
  · split_ifs
    · rw [sendToPc_rxPacing]
    · rfl

theorem rxPacingRsp_rxPacing (hs : Hs) (m : Mu) (copied : Bool) (ack pc : Option Int) :
    (hs.rxPacingRsp m copied ack pc).hs.rxPacing =
      if hs.txPacing.type = .adaptive ∧ m.ipm.type = .reset then
        { hs.rxPacing with rpc := 0, nws := hs.unsolicitedNws }
      else hs.rxPacing := by
  unfold rxPacingRsp
  cases hs.txPacing.type with
  | none => rfl
  | fixed => simp
  | adaptive =>
    cases m.ipm.type with
    | reset => simp
    | rsv => simp
    | solicit =>
      dsimp only
      split_ifs <;> simp_all [setWindow]
    | unsolicit => cases copied <;> simp [setWindow]

@[simp] theorem segmentQueue_rxPacing (hs : Hs) (m : Mu) (truesize : Nat) :
    (hs.segmentQueue m truesize).rxPacing = hs.rxPacing := by
  unfold segmentQueue
  split_ifs <;> rfl

theorem segmentReasm_rxPacing {alloc : Option Nat} {x : Hs × Option Mu}
    (h : hs.segmentReasm alloc = some x) : x.1.rxPacing = hs.rxPacing := by
  unfold segmentReasm at h
  dsimp only at h
  split at h
  · cases h
    rfl
  · split at h
    · cases h
      rfl
    · split at h
      · cases h
      · cases h
        rfl

theorem segment_rxPacing {truesize : Nat} {alloc : Option Nat} {x : Hs × Option Mu}
    (h : hs.segment m truesize alloc = some x) : x.1.rxPacing = hs.rxPacing := by
  unfold Hs.segment at h
  dsimp only at h
  split_ifs at h
  · cases h
    rfl
  · cases h
    rfl
  · obtain ⟨y, hy, rfl⟩ := Option.map_eq_some_iff.mp h
    exact (segmentReasm_rxPacing hy).trans (segmentQueue_rxPacing hs m truesize)
  · cases h
    exact segmentQueue_rxPacing hs m truesize

/-- The half-session once the MU has been counted, if it is -/
def afterCount (hs : Hs) (m : Mu) : Hs := if Counts hs m then hs.rxPacingUpdate m else hs

theorem rxBiu_rxPacing (hs : Hs) (m : Mu) (e : RxEnv) :
    (hs.rxBiu m e).hs.rxPacing =
      if 0 ≤ hs.rxBiuChk m ∧ m.isPacingRsp ∧ hs.txPacing.type = .adaptive ∧ m.ipm.type = .reset then
        { hs.rxPacing with rpc := 0, nws := hs.unsolicitedNws }
      else hs.rxPacing := by
  unfold rxBiu
  by_cases hchk : hs.rxBiuChk m < 0
  · rw [if_pos hchk, if_neg fun h => absurd h.1 (by omega)]
  · rw [if_neg hchk]
    by_cases hrsp : m.isPacingRsp = true
    · rw [if_pos hrsp]
      dsimp only
      rw [rxPacingRsp_rxPacing]
      simp only [show 0 ≤ hs.rxBiuChk m by omega, hrsp, true_and]
    · have hno : ¬ (0 ≤ hs.rxBiuChk m ∧ m.isPacingRsp ∧ hs.txPacing.type = .adaptive ∧
          m.ipm.type = .reset) := fun h => hrsp h.2.1
      rw [if_neg hrsp]
      refine Eq.trans ?_ (if_neg hno).symm
      split_ifs <;> rfl

/-- The pacing of what is received, after an MU -/
theorem rx_rxPacing {i : Incoming} {r : Received} (h : hs.rx i.mu i.env = some r) :
    r.hs.rxPacing = (renewed hs i).elim (afterCount hs i.mu).rxPacing
      fun w => { (afterCount hs i.mu).rxPacing with rpc := 0, nws := w } := by
  unfold rx at h
  by_cases hchk : hs.rxSegmentChk i.mu < 0
  · have hafter : afterCount hs i.mu = hs := if_neg fun hc => absurd hc.1 (by omega)
    rw [if_pos hchk] at h
    cases h
    rw [renewed, if_pos hchk, hafter]
    rfl
  · have hafter : afterCount hs i.mu = if i.mu.mpf = .bbiu then hs.rxPacingUpdate i.mu else hs := by
      simp only [afterCount, Counts, show 0 ≤ hs.rxSegmentChk i.mu by omega, true_and]
    rw [if_neg hchk, if_neg (not_not.mpr i.norm), ← hafter] at h
    obtain ⟨x, hx, rfl⟩ := Option.map_eq_some_iff.mp h
    have hkept := segment_rxPacing hx
    rw [renewed, if_neg hchk, ← hafter]
    dsimp only
    rw [hx]
    obtain ⟨t, biu⟩ := x
    cases biu with
    | none => exact hkept
    | some biu =>
      dsimp only
      rw [rxBiu_rxPacing, hkept]
      split_ifs <;> rfl

/-! ## One MU -/

/-- Neither count exceeds the last window. -/
structure Granted (g : Granting) : Prop where
  rpc : g.hs.rxPacing.rpc.toNat ≤ g.window
  nws : g.hs.rxPacing.nws.toNat ≤ g.window

theorem toNat_sub_one {n : UInt8} (h : n ≠ 0) : (n - 1).toNat = n.toNat - 1 := by
  have hpos : n.toNat ≠ 0 := fun hz => h (UInt8.toNat_inj.mp hz)
  rw [UInt8.toNat_sub_of_le n 1 (by rw [UInt8.le_iff_toNat_le]; show 1 ≤ n.toNat; omega)]
  rfl

theorem Granted.afterCount {g : Granting} (h : Granted g) {i : Incoming} (hi : Abides g i) :
    (afterCount g.hs i.mu).rxPacing.rpc.toNat ≤ g.window ∧
      (afterCount g.hs i.mu).rxPacing.nws.toNat ≤ g.window := by
  have hrpc := h.rpc
  have hnws := h.nws
  unfold Tc.afterCount
  by_cases hc : Counts g.hs i.mu
  · have hfirst := hi.first hc
    rw [if_pos hc, rxPacingUpdate]
    cases hpi : i.mu.pi with
    | false =>
      rw [hpi, if_neg Bool.false_ne_true] at hfirst
      refine ⟨?_, hnws⟩
      show (g.hs.rxPacing.rpc - 1).toNat ≤ g.window
      rw [toNat_sub_one hfirst]
      omega
    | true =>
      rw [hpi, if_pos rfl] at hfirst
      refine ⟨?_, Nat.zero_le _⟩
      show (g.hs.rxPacing.nws - 1).toNat ≤ g.window
      rw [toNat_sub_one hfirst]
      omega
  · rw [if_neg hc]
    exact ⟨hrpc, hnws⟩

theorem Granted.step {g g' : Granting} (h : Granted g) {i : Incoming} (hi : Abides g i)
    (hstep : Granting.step g i = some g') : Granted g' := by
  obtain ⟨r, hr, rfl⟩ := Option.map_eq_some_iff.mp hstep
  have hpacing := rx_rxPacing hr
  have hafter := h.afterCount hi
  cases hw : renewed g.hs i with
  | none =>
    rw [hw] at hpacing
    have hpacing : r.hs.rxPacing = (Tc.afterCount g.hs i.mu).rxPacing := hpacing
    refine ⟨?_, ?_⟩
    · show r.hs.rxPacing.rpc.toNat ≤ g.window
      rw [hpacing]
      exact hafter.1
    · show r.hs.rxPacing.nws.toNat ≤ g.window
      rw [hpacing]
      exact hafter.2
  | some w =>
    rw [hw] at hpacing
    have hpacing : r.hs.rxPacing = { (Tc.afterCount g.hs i.mu).rxPacing with rpc := 0, nws := w } :=
      hpacing
    refine ⟨?_, ?_⟩
    · show r.hs.rxPacing.rpc.toNat ≤ w.toNat
      rw [hpacing]
      exact Nat.zero_le _
    · apply Nat.le_of_eq
      show r.hs.rxPacing.nws.toNat = w.toNat
      rw [hpacing]

/-- An unfit BIU is refused. -/
theorem rx_unfit {e : RxEnv} (hnorm : m.efi = .norm) (hw : m.mpf = .wholeBiu) (h : Unfit hs m)
    {r : Received} (hr : hs.rx m e = some r) : Discarded hs m r := by
  have hchk : ¬ hs.rxSegmentChk m < 0 := by simp [rxSegmentChk, hw]
  have hb : m.mpf ≠ .bbiu := by simp [hw]
  rw [rx, if_neg hchk, if_neg (not_not.mpr hnorm)] at hr
  dsimp only at hr
  rw [if_neg hb] at hr
  by_cases hlong : hs.maxRxRuSize.toNat < m.data.length
  · rw [Hs.segment, if_pos hlong] at hr
    cases hr
    exact ⟨rfl, rfl, rfl, .inr hlong⟩
  · rw [Hs.segment, if_neg hlong, if_pos hw, Option.map_some, Option.some.injEq] at hr
    subst hr
    show Discarded hs m (hs.rxBiu m e)
    unfold rxBiu
    by_cases hbiu : hs.rxBiuChk m < 0
    · rw [if_pos hbiu]
      exact ⟨rfl, rfl, rfl, .inl hbiu⟩
    · rw [if_neg hbiu]
      obtain ⟨hrsp, ht⟩ | ⟨hrsp, henc⟩ := (h.resolve_left hlong).resolve_left hbiu
      · rw [if_pos hrsp]
        have hnone : hs.rxPacingRsp m e.copied e.ack e.pc = ⟨-einval, hs, []⟩ := by
          rw [rxPacingRsp, ht]
        rw [hnone]
        exact ⟨rfl, rfl, rfl, .inl (show -einval < 0 by decide)⟩
      · rw [if_neg (by rw [hrsp]; decide), if_pos henc]
        exact ⟨rfl, rfl, rfl, .inl (show -einval < 0 by decide)⟩

theorem exact_of_abides {g : Granting} {i : Incoming} (h : Abides g i) : Exact g i where
  counted := by
    intro hc
    have hfirst := h.first hc
    rw [rxPacingUpdate]
    cases hpi : i.mu.pi with
    | false =>
      rw [hpi, if_neg Bool.false_ne_true] at hfirst
      show ((g.hs.rxPacing.rpc - 1).toNat : Int) = (g.hs.rxPacing.rpc.toNat : Int) - 1
      have hpos : g.hs.rxPacing.rpc.toNat ≠ 0 := fun hz => hfirst (UInt8.toNat_inj.mp hz)
      rw [toNat_sub_one hfirst]
      omega
    | true =>
      rw [hpi, if_pos rfl] at hfirst
      show ((g.hs.rxPacing.nws - 1).toNat : Int) = (g.hs.rxPacing.nws.toNat : Int) - 1
      have hpos : g.hs.rxPacing.nws.toNat ≠ 0 := fun hz => hfirst (UInt8.toNat_inj.mp hz)
      rw [toNat_sub_one hfirst]
      omega
  refused := by
    intro hb hno r hr
    obtain hb | hw := hb
    · by_cases hchk : g.hs.rxSegmentChk i.mu < 0
      · rw [rx, if_pos hchk] at hr
        cases hr
        exact ⟨rfl, rfl, rfl, .inl hchk⟩
      · -- a first segment without credit would have to be counted
        have hfirst := h.first ⟨by omega, hb⟩
        exfalso
        apply hno
        split_ifs at hfirst with hpi
        · exact .inr ⟨hpi, hfirst⟩
        · exact .inl hfirst
    · exact rx_unfit i.norm hw ((h.whole hw).resolve_left hno) hr

/-! ## Runs -/

/-- In the runs in which the partner keeps to its windows, no count wraps or exceeds the last window,
and nothing that begins a BIU without credit is accepted. -/
theorem receive_window (type : HsType) (bind : Bind) (is : List Incoming)
    (h : Along Granting.step Abides (.start (init type bind)) is) :
    Along Granting.step Exact (.start (init type bind)) is ∧
      Always Granting.step Within (.start (init type bind)) is := by
  have hstart : Granted (.start (init type bind)) := ⟨Nat.zero_le _, Nat.le_refl _⟩
  exact ⟨along_of_invariant (fun _ _ _ hg hi hs => hg.step hi hs) (fun _ _ _ hi => exact_of_abides hi)
      hstart h,
    always_of_invariant (fun _ _ _ hg hi hs => hg.step hi hs) (fun _ hg => hg.rpc) hstart h⟩

def firstSegment (pi : Bool) : Incoming where
  mu := { request .bbiu (List.replicate 10 0) with pi := pi }
  env := ⟨300, none, false, none, none, 0⟩
  norm := rfl

/-- Two first segments in a window of two -/
theorem receive_window_of_two :
    Along Granting.step Exact (.start (init .fsp (adaptiveBind 2))) [firstSegment true, firstSegment false] ∧
      Always Granting.step Within (.start (init .fsp (adaptiveBind 2)))
        [firstSegment true, firstSegment false] :=
  receive_window .fsp (adaptiveBind 2) _ (by decide)

/-- The first of all first segments does not open the window, and the count goes to 255. -/
theorem receive_window_wraps :
    ¬ (Along Granting.step Exact (.start (init .fsp (adaptiveBind 2))) [firstSegment false] ∧
      Always Granting.step Within (.start (init .fsp (adaptiveBind 2))) [firstSegment false]) := by
  rintro ⟨h, -⟩
  have hcount := h.1.counted (by decide)
  revert hcount
  decide

end LinuxSna.Tc
