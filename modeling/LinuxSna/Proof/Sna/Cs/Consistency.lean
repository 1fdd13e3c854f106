import LinuxSna.Framework.Run
import LinuxSna.Impl.Sna.Cs.Dlc
import LinuxSna.Proof.Sna.Cs.Activation
import LinuxSna.Proof.Sna.Cs.Exchange

/-!
# The state of a link station and of its XID exchange

A link station is active exactly if its XID exchange is, and it owns at most
one path control instance, its `pc_index`. All inputs keep this but one: a
SETMODE in Reset, S_PN, S_NEG or S_SEC by which the surprise SNRM activates the
link (`SupriseGap`). Its handler then puts the exchange into R_PRI_S_SEC, where
another SETMODE activates the link again. `consistency_iff`: the property holds
throughout exactly the runs without such an input.
-/

namespace LinuxSna.Cs

open Framework

/-- The path control instances of a link station -/
def owned (ls : Ls) : List PcCb :=
  ls.pcList.filter fun pc => pc.portIndex = ls.portIndex ∧ pc.lsIndex = ls.index

structure Consistent (ls : Ls) : Prop where
  active : ls.state = .active ↔ ls.xidState = .active
  one : (owned ls).length ≤ 1
  last : ∀ pc ∈ owned ls, pc.index = ls.pcIndex

/-- The indexes of the path control instances tell them apart, and a link
station has the index of the one it owns, if any. -/
structure Tracked (ls : Ls) : Prop where
  nodup : (ls.pcList.map (·.index)).Nodup
  one : (owned ls).length ≤ 1
  last : ∀ pc ∈ owned ls, pc.index = ls.pcIndex

/-- A link station that is not active. -/
structure Inactive (ls : Ls) : Prop where
  nodup : (ls.pcList.map (·.index)).Nodup
  owned : owned ls = []
  state : ls.state ≠ .active
  xidState : ls.xidState ≠ .active

structure Active (ls : Ls) : Prop where
  tracked : Tracked ls
  state : ls.state = .active
  xidState : ls.xidState = .active

theorem Inactive.tracked {ls : Ls} (h : Inactive ls) : Tracked ls where
  nodup := h.nodup
  one := by
    rw [h.owned]
    exact Nat.zero_le 1
  last _ hpc := absurd (h.owned ▸ hpc) List.not_mem_nil

theorem Inactive.consistent {ls : Ls} (h : Inactive ls) : Consistent ls :=
  ⟨⟨fun hs => absurd hs h.state, fun hx => absurd hx h.xidState⟩, h.tracked.one, h.tracked.last⟩

theorem Active.consistent {ls : Ls} (h : Active ls) : Consistent ls :=
  ⟨⟨fun _ => h.xidState, fun _ => h.state⟩, h.tracked.one, h.tracked.last⟩

/-! ## What keeps a link station inactive -/

theorem kept_inactive : Kept Inactive where
  after _ h := ⟨h.nodup, h.owned, h.state, h.xidState⟩
  state hs h := ⟨h.nodup, h.owned, h.state, hs⟩
  direction _ h := ⟨h.nodup, h.owned, h.state, h.xidState⟩
  renegotiate _ _ _ h := ⟨h.nodup, h.owned, h.state, h.xidState⟩

theorem Inactive.connectOutWith {ls : Ls} (h : Inactive ls) {doit : Ls → Ls}
    (hdoit : ∀ ls, Inactive ls → Inactive (doit ls)) : Inactive (connectOutWith doit ls) := by
  have hq : Inactive { ls with retry := false } := ⟨h.nodup, h.owned, h.state, h.xidState⟩
  unfold Cs.connectOutWith
  dsimp only
  split
  case h_1 | h_2 => split_ifs <;> exact ⟨h.nodup, h.owned, h.state, h.xidState⟩
  case h_3 => exact hdoit _ ⟨h.nodup, h.owned, h.state, h.xidState⟩
  case h_4 => exact hdoit _ hq
  case h_5 | h_6 => exact hq

/-! ## Resetting -/

theorem index_ne_of_mem_eraseP {pcs : List PcCb} (h : (pcs.map (·.index)).Nodup) (i : UInt32) :
    ∀ pc ∈ pcs.eraseP (·.index = i), pc.index ≠ i := by
  induction pcs with
  | nil => exact fun _ hpc => absurd hpc List.not_mem_nil
  | cons p pcs ih =>
    have hnd := List.nodup_cons.mp h
    intro pc hpc
    by_cases hp : p.index = i
    · rw [List.eraseP_cons_of_pos (by simpa using hp)] at hpc
      rintro rfl
      exact hnd.1 (List.mem_map.mpr ⟨pc, hpc, hp.symm⟩)
    · rw [List.eraseP_cons_of_neg (by simpa using hp)] at hpc
      rcases List.mem_cons.mp hpc with rfl | hpc
      · exact hp
      · exact ih hnd.2 pc hpc

/-- A link station that is cleared owns no path control instance. -/
theorem Tracked.cleared {ls : Ls} (h : Tracked ls) {s : TgState} {i : TgInput} {t : Nat} :
    ((ls.cleared s i t).pcList.map (·.index)).Nodup ∧ owned (ls.cleared s i t) = [] := by
  refine ⟨((List.eraseP_sublist).map _).nodup h.nodup, ?_⟩
  apply List.filter_eq_nil_iff.mpr
  intro pc hpc ho
  refine index_ne_of_mem_eraseP h.nodup ls.pcIndex pc hpc (h.last pc ?_)
  exact List.mem_filter.mpr ⟨List.mem_of_mem_eraseP hpc, ho⟩

theorem Tracked.reset {ls : Ls} (h : Tracked ls) (b : Buffers) : Inactive (xidInputReset b ls) := by
  obtain ⟨s, i, t, hr⟩ := xidInputReset_eq b ls
  obtain ⟨hnd, ho⟩ := h.cleared (s := s) (i := i) (t := t)
  rw [hr]
  split
  · refine Inactive.connectOutWith ?_ fun _ hi => kept_inactive.inputBegin b hi
    exact ⟨hnd, ho, LsState.noConfusion, XidState.noConfusion⟩
  · exact ⟨hnd, ho, LsState.noConfusion, XidState.noConfusion⟩

theorem Inactive.resend {ls : Ls} (h : Inactive ls) (env : Env) :
    Inactive (xidOutputResend env ls) := by
  unfold xidOutputResend
  split
  · exact h
  · split_ifs
    · exact h
    · exact h
    · refine Tracked.reset ?_ env.reset
      exact ⟨h.nodup, h.tracked.one, h.tracked.last⟩
    · exact ⟨h.nodup, h.owned, h.state, h.xidState⟩

/-! ## Activating -/

theorem Tracked.new {ls : Ls} (hnd : (ls.pcList.map (·.index)).Nodup) (ho : owned ls = [])
    (h : pcGetByIndex ls.pcList ls.pcIndex = none) :
    Tracked { ls with pcList := ls.pcList ++ [⟨ls.pcIndex, ls.portIndex, ls.index⟩] } := by
  have hown : owned { ls with pcList := ls.pcList ++ [⟨ls.pcIndex, ls.portIndex, ls.index⟩] } =
      [⟨ls.pcIndex, ls.portIndex, ls.index⟩] := by
    show List.filter _ (ls.pcList ++ [_]) = _
    rw [List.filter_append]
    show owned ls ++ _ = _
    rw [ho]
    simp
  refine ⟨?_, ?_, ?_⟩
  · show (List.map (fun pc : PcCb => pc.index) (ls.pcList ++ [_])).Nodup
    rw [List.map_append]
    refine List.nodup_append.mpr ⟨hnd, List.pairwise_singleton _ _, ?_⟩
    intro a ha b hb hab
    obtain ⟨pc, hpc, rfl⟩ := List.mem_map.mp ha
    have hne := List.find?_eq_none.mp h pc hpc
    rw [hab, List.mem_singleton.mp hb] at hne
    exact hne (decide_eq_true rfl)
  · rw [hown]
    exact Nat.le_refl 1
  · rw [hown]
    intro pc hpc
    rw [List.mem_singleton.mp hpc]

theorem Inactive.inputActive {ls : Ls} (h : Inactive ls) (env : Env) :
    Active (xidInputActive env ls).2 := by
  obtain ⟨odai, ho⟩ := xidInputActive_of_ne env h.xidState
  obtain ⟨pcIndex, _, _, _, hact, hpc⟩ := activations_eq env
    { ls with xidState := .active, state := .active, odai := odai }
  rw [ho, hact]
  rcases hpc with ⟨-, rfl⟩ | ⟨⟨-, hpc⟩, rfl⟩
  · have ht : Tracked { ls with pcIndex := pcIndex } :=
      ⟨h.nodup, h.tracked.one, fun _ hpc => absurd (h.owned ▸ hpc) List.not_mem_nil⟩
    exact ⟨⟨ht.nodup, ht.one, ht.last⟩, rfl, rfl⟩
  · have ht : Tracked { ls with
        pcIndex := pcIndex, pcList := ls.pcList ++ [⟨pcIndex, ls.portIndex, ls.index⟩] } :=
      @Tracked.new { ls with pcIndex := pcIndex } h.nodup h.owned hpc
    exact ⟨⟨ht.nodup, ht.one, ht.last⟩, rfl, rfl⟩

theorem Inactive.suprise {ls : Ls} (h : Inactive ls) (env : Env) :
    Tracked (xidSupriseSrnm env ls).2 ∧
      (SupriseActivates env ls → Active (xidSupriseSrnm env ls).2) := by
  by_cases ha : ∃ r, ls.xidLastRx = some r ∧ supriseAllowed r.xid ls.effectiveRole
  · obtain ⟨s, i, t, hs⟩ := suprise_of_allowed env ha
    have hin : Inactive { ls with
        tgState := s, tgInput := i, effectiveTg := t, xidInput := some .active } :=
      ⟨h.nodup, h.owned, h.state, h.xidState⟩
    rw [hs]
    exact ⟨(hin.inputActive env).tracked, fun _ => hin.inputActive env⟩
  · rw [suprise_of_not_allowed env ha]
    exact ⟨h.tracked, fun hc => absurd hc.1 ha⟩

/-- Without an activation the handler leaves the link station inactive. -/
theorem Inactive.outputErrOpt {ls : Ls} (h : Inactive ls) (env : Env)
    (hs : ¬ SupriseActivates env ls) : Inactive (xidOutputErrOpt env ls) := by
  have hiff := xidSupriseSrnm_fst env h.xidState
  obtain ⟨ht, -⟩ := h.suprise env
  unfold xidOutputErrOpt
  split
  · rename_i ls' hp
    rw [hp] at hiff
    exact absurd (hiff.mp rfl) hs
  · rename_i ls' hp
    rw [hp] at ht
    obtain ⟨s, i, t, htg⟩ := tgNegotiate_eq { ls' with tgInput := .reset }
    rw [htg]
    have hr : Inactive (xidInputReset env.reset { ls' with
        tgState := s, tgInput := i, effectiveTg := t, xidInput := some .reset }) :=
      Tracked.reset (by exact ⟨ht.nodup, ht.one, ht.last⟩) env.reset
    have hp : Inactive { xidInputReset env.reset { ls' with
        tgState := s, tgInput := i, effectiveTg := t, xidInput := some .reset } with
        xidInput := some .pn, xidDirection := .outbound } :=
      ⟨hr.nodup, hr.owned, hr.state, hr.xidState⟩
    exact kept_inactive.inputPn (fun _ => id) env hp fun _ => hp.resend env

/-- With an activation the link station is active after the handler. -/
theorem Inactive.outputErrOpt_active {ls : Ls} (h : Inactive ls) (env : Env)
    (hs : SupriseActivates env ls) : Active (xidOutputErrOpt env ls) := by
  have hiff := xidSupriseSrnm_fst env h.xidState
  obtain ⟨-, hact⟩ := h.suprise env
  unfold xidOutputErrOpt
  split
  · rename_i ls' hp
    rw [hp] at hact
    exact hact hs
  · rename_i ls' hp
    rw [hp] at hiff
    cases hiff.mpr hs

/-! ## Every input -/

/-- A SETMODE by which the surprise SNRM activates the link. -/
def SupriseGap (env : Env) (ls : Ls) : Prop :=
  ls.xidInput = some .setmode ∧
    (ls.xidState = .reset ∨ ls.xidState = .sPn ∨ ls.xidState = .sNeg ∨ ls.xidState = .sSec) ∧
    SupriseActivates env ls

theorem Inactive.inputSetmode {ls : Ls} (h : Inactive ls) (env : Env)
    (hi : ls.xidInput = some .setmode) (hg : ¬ SupriseGap env ls) :
    Inactive (xidInputSetmode env ls) ∨ Active (xidInputSetmode env ls) := by
  have hs : ls.xidState = .reset ∨ ls.xidState = .sPn ∨ ls.xidState = .sNeg ∨ ls.xidState = .sSec →
      Inactive (xidOutputErrOpt env ls) :=
    fun hx => h.outputErrOpt env fun hc => hg ⟨hi, hx, hc⟩
  unfold xidInputSetmode
  split
  case h_1 hx =>
    have he := hs (.inl hx)
    exact .inl ⟨he.nodup, he.owned, he.state, nofun⟩
  case h_2 hx =>
    have he := hs (.inr (.inl hx))
    exact .inl ⟨he.nodup, he.owned, he.state, nofun⟩
  case h_3 hx =>
    have he := hs (.inr (.inr (.inl hx)))
    exact .inl ⟨he.nodup, he.owned, he.state, nofun⟩
  case h_4 hx =>
    have he := hs (.inr (.inr (.inr hx)))
    exact .inl ⟨he.nodup, he.owned, he.state, nofun⟩
  case h_5 | h_6 => exact .inl (kept_inactive.output env.own .z2 nofun h)
  case h_7 =>
    have hin : Inactive { ls with xidInput := some .active, xidDirection := .inbound } :=
      ⟨h.nodup, h.owned, h.state, h.xidState⟩
    exact .inr (hin.inputActive env)
  case h_8 => exact .inl h

/-- An inactive link station handles every input but the gap. -/
theorem Inactive.doit {ls : Ls} (h : Inactive ls) (env : Env) (hg : ¬ SupriseGap env ls) :
    Inactive (xidDoit env ls) ∨ Active (xidDoit env ls) := by
  unfold xidDoit
  split
  · exact .inl (kept_inactive.inputBegin env.own h)
  · exact .inl (kept_inactive.inputNull (fun _ => id) env h fun _ => h.resend env)
  · exact .inl (kept_inactive.inputPn (fun _ => id) env h fun _ => h.resend env)
  · exact .inl (kept_inactive.inputNeg (fun _ => id) env h fun _ => h.resend env)
  · exact .inl (kept_inactive.inputPri env h)
  · exact .inl (kept_inactive.inputSec env h)
  · rename_i hi
    exact h.inputSetmode env hi hg
  · exact .inr (h.inputActive env)
  · exact .inl (h.tracked.reset env.own)
  · exact .inl h

/-- In an active link station no input but a reset does anything. -/
theorem Active.doit {ls : Ls} (h : Active ls) (env : Env) :
    Inactive (xidDoit env ls) ∨ xidDoit env ls = ls := by
  have hx := h.xidState
  unfold xidDoit
  split
  · exact .inr (by unfold xidInputBegin; simp [hx])
  · exact .inr (by unfold xidInputNull; simp [hx])
  · exact .inr (by unfold xidInputPn; simp [hx])
  · exact .inr (by unfold xidInputNeg; simp [hx])
  · exact .inr (by unfold xidInputPri; simp [hx])
  · exact .inr (by unfold xidInputSec; simp [hx])
  · exact .inr (by unfold xidInputSetmode; simp [hx])
  · exact .inr (by unfold xidInputActive; simp [hx])
  · exact .inl (h.tracked.reset env.own)
  · exact .inr rfl

/-- The gap leaves the link station active and its exchange not. -/
theorem Inactive.doit_gap {ls : Ls} (h : Inactive ls) (env : Env) (hg : SupriseGap env ls) :
    ¬ Consistent (xidDoit env ls) := by
  obtain ⟨hi, hx, hs⟩ := hg
  have hact := h.outputErrOpt_active env hs
  have hdoit : xidDoit env ls = { xidOutputErrOpt env ls with xidState := .rPriSSec } := by
    unfold xidDoit
    rw [hi]
    show xidInputSetmode env ls = _
    unfold xidInputSetmode
    rcases hx with hx | hx | hx | hx <;> rw [hx]
  intro hc
  rw [hdoit] at hc
  cases hc.active.mp hact.state

theorem Inactive.prepare {ls : Ls} (h : Inactive ls) (c : XidCall) : Inactive (c.prepare ls) :=
  ⟨h.nodup, h.owned, h.state, h.xidState⟩

theorem Active.prepare {ls : Ls} (h : Active ls) (c : XidCall) : Active (c.prepare ls) :=
  ⟨⟨h.tracked.nodup, h.tracked.one, h.tracked.last⟩, h.state, h.xidState⟩

/-- In a run of XID inputs a link station is consistent throughout exactly if
by no SETMODE the surprise SNRM activates the link. -/
theorem consistency_iff (ls : Ls) (h : Inactive ls) (calls : List XidCall) :
    Always xidCall Consistent ls calls ↔
      Along xidCall (fun ls c => ¬ SupriseGap c.env (c.prepare ls)) ls calls := by
  refine always_iff (I := fun ls => Inactive ls ∨ Active ls) ?_ ?_ ?_ (.inl h)
  · rintro ls (h | h)
    · exact h.consistent
    · exact h.consistent
  · rintro ls c ls' (h | h) hg hs
    · rw [← Option.some.inj hs]
      exact (h.prepare c).doit c.env hg
    · rw [← Option.some.inj hs]
      rcases (h.prepare c).doit c.env with hr | hr
      · exact .inl hr
      · rw [hr]
        exact .inr (h.prepare c)
  · rintro ls c (h | h) hg
    · exact ⟨_, rfl, (h.prepare c).doit_gap c.env (not_not.mp hg)⟩
    · obtain ⟨-, hx, -⟩ := not_not.mp hg
      have hact : (c.prepare ls).xidState = .active := h.xidState
      rw [hact] at hx
      simp at hx

/-- A link station that has just been defined, and its calls on the XIDs of an
end node in the secondary role -/
def definedLs : Ls := defineLs ⟨.neg, .dirBoth, true, 3, 0, ⟨[], []⟩, ⟨[], []⟩⟩ 1 false 1 1

@[inherit_doc definedLs]
def secondaryCall (input : XidIn) : XidCall :=
  ⟨{}, input, .inbound, some ⟨false, { xidPktInit definedLs with state := .pn, lsRole := .sec }⟩, true⟩

theorem inactive_definedLs : Inactive definedLs := ⟨List.nodup_nil, rfl, nofun, nofun⟩

theorem consistency_reset :
    Always xidCall Consistent definedLs [secondaryCall .pn, secondaryCall .reset] :=
  (consistency_iff _ inactive_definedLs _).mpr
    ⟨fun hg => absurd hg.1 nofun, fun _ _ => ⟨fun hg => absurd hg.1 nofun, fun _ _ => trivial⟩⟩

/-- After a SETMODE in S_PN the link is active and its exchange is not, and
after another the link station owns two path control instances. -/
theorem consistency_lost :
    ¬ Always xidCall Consistent definedLs [secondaryCall .pn, secondaryCall .setmode] ∧
      ((run xidCall definedLs [secondaryCall .pn, secondaryCall .setmode]).map fun ls =>
        (ls.state, ls.xidState)) = some (.active, .rPriSSec) ∧
      ((run xidCall definedLs [secondaryCall .pn, secondaryCall .setmode,
        secondaryCall .setmode]).map fun ls => (owned ls).length) = some 2 := by
  have hrun : ((run xidCall definedLs [secondaryCall .pn, secondaryCall .setmode]).map fun ls =>
      (ls.state, ls.xidState)) = some (.active, .rPriSSec) := by decide +kernel
  refine ⟨fun h => ?_, hrun, by decide +kernel⟩
  obtain ⟨ls, hls, hstates⟩ := Option.map_eq_some_iff.mp hrun
  have hc := (h.run hls).active
  rw [(Prod.mk.inj hstates).1, (Prod.mk.inj hstates).2] at hc
  cases hc.mp rfl

end LinuxSna.Cs
