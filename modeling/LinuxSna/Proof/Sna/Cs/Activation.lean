import LinuxSna.Proof.Sna.Cs.Exchange

/-!
# Activating a link

What `xid_input_active` and the surprise SNRM change (`xidInputActive_eq`,
`xidSupriseSrnm_eq`) and when they succeed (`activations_eq`,
`xidSupriseSrnm_fst`).
-/

namespace LinuxSna.Cs

/-- The activations can succeed: what they allocate is there, and the next path
control instance gets an index for which there is no address space. -/
def canActivate (env : Env) (ls : Ls) : Bool :=
  env.pc && env.as && env.tg &&
    match pcNewIndex (ls.pcList.length + 1) ls.pcSystemIndex ls.pcList with
    | none => false
    | some i => (Asm.getByIndex ls.asmList i).isNone

/-- The surprise SNRM activates the link. -/
def SupriseActivates (env : Env) (ls : Ls) : Prop :=
  (∃ r, ls.xidLastRx = some r ∧ supriseAllowed r.xid ls.effectiveRole) ∧ canActivate env ls

instance (env : Env) (ls : Ls) : Decidable (SupriseActivates env ls) :=
  decidable_of_iff (ls.xidLastRx.any (fun r => supriseAllowed r.xid ls.effectiveRole) ∧
    canActivate env ls) (by simp [SupriseActivates, Option.any_eq_true])

/-- What an activation may change -/
structure Activation where
  tgState : TgState
  tgInput : TgInput
  effectiveTg : Nat
  xidInput : Option XidIn
  state : LsState
  xidState : XidState
  odai : UInt8
  pcIndex : UInt32
  pcSystemIndex : UInt32
  pcList : List PcCb
  asmList : List Asm.AsmCb

def Ls.activated (ls : Ls) (α : Activation) : Ls :=
  { ls with
    tgState := α.tgState
    tgInput := α.tgInput
    effectiveTg := α.effectiveTg
    xidInput := α.xidInput
    state := α.state
    xidState := α.xidState
    odai := α.odai
    pcIndex := α.pcIndex
    pcSystemIndex := α.pcSystemIndex
    pcList := α.pcList
    asmList := α.asmList }

/-! ## `xid_input_active` -/

/-- A new index is not 0, and no path control instance has it. -/
theorem pcNewIndex_spec {n : Nat} {s i : UInt32} {pcs : List PcCb}
    (h : pcNewIndex n s pcs = some i) : i ≠ 0 ∧ pcGetByIndex pcs i = none := by
  induction n generalizing s with
  | zero => cases h
  | succ n ih =>
    simp only [pcNewIndex] at h
    have hne : (if s + 1 = 0 then 1 else s + 1) ≠ 0 := by
      split
      · decide
      · assumption
    generalize (if s + 1 = 0 then 1 else s + 1) = j at h hne
    split_ifs at h with hn
    · rw [← Option.some.inj h]
      exact ⟨hne, Option.isNone_iff_eq_none.mp hn⟩
    · exact ih h

theorem asActivate_eq (alloc : Bool) (ls : Ls) : ∃ asmList, asActivate alloc ls =
    (alloc && (Asm.getByIndex ls.asmList ls.pcIndex).isNone, { ls with asmList := asmList }) := by
  unfold asActivate Asm.activateAs
  cases alloc with
  | false => exact ⟨ls.asmList, rfl⟩
  | true =>
    cases Asm.getByIndex ls.asmList ls.pcIndex with
    | none => exact ⟨_, rfl⟩
    | some as => exact ⟨_, rfl⟩

/-- The activations create no path control instance, or one with an index that
none has, which the link station then has. -/
theorem activations_eq (env : Env) (ls : Ls) : ∃ pcIndex pcSystemIndex pcList asmList,
    activations env ls = (canActivate env ls, { ls with
      pcIndex := pcIndex, pcSystemIndex := pcSystemIndex, pcList := pcList, asmList := asmList }) ∧
    (pcIndex = ls.pcIndex ∧ pcList = ls.pcList ∨
      (pcIndex ≠ 0 ∧ pcGetByIndex ls.pcList pcIndex = none) ∧
        pcList = ls.pcList ++ [⟨pcIndex, ls.portIndex, ls.index⟩]) := by
  unfold activations pcActivate canActivate
  cases env.pc with
  | false => exact ⟨ls.pcIndex, ls.pcSystemIndex, ls.pcList, ls.asmList, rfl, .inl ⟨rfl, rfl⟩⟩
  | true =>
    cases hi : pcNewIndex (ls.pcList.length + 1) ls.pcSystemIndex ls.pcList with
    | none => exact ⟨ls.pcIndex, ls.pcSystemIndex, ls.pcList, ls.asmList, by simp, .inl ⟨rfl, rfl⟩⟩
    | some i =>
      obtain ⟨asmList, has⟩ := asActivate_eq env.as { ls with
        pcIndex := i, pcSystemIndex := i, pcList := ls.pcList ++ [⟨i, ls.portIndex, ls.index⟩] }
      refine ⟨i, i, _, asmList, ?_, .inr ⟨pcNewIndex_spec hi, rfl⟩⟩
      simp only [Bool.not_true, Bool.false_eq_true, if_false, has, Bool.true_and]
      rw [Bool.and_right_comm]
      cases env.as && (Asm.getByIndex ls.asmList i).isNone <;> rfl

theorem xidResults_eq (ls : Ls) : ∃ odai, xidResults ls = { ls with odai := odai } := by
  unfold xidResults
  split
  · exact ⟨ls.odai, rfl⟩
  · exact ⟨_, rfl⟩

theorem xidInputActive_of_ne (env : Env) {ls : Ls} (h : ls.xidState ≠ .active) :
    ∃ odai, xidInputActive env ls =
      activations env { ls with xidState := .active, state := .active, odai := odai } := by
  obtain ⟨odai, hres⟩ := xidResults_eq { ls with xidState := .active, state := .active }
  refine ⟨odai, ?_⟩
  unfold xidInputActive
  rw [if_neg h, hres]

theorem xidInputActive_eq (env : Env) (ls : Ls) :
    ∃ α, (xidInputActive env ls).2 = ls.activated α := by
  by_cases h : ls.xidState = .active
  · refine ⟨⟨ls.tgState, ls.tgInput, ls.effectiveTg, ls.xidInput, ls.state, ls.xidState, ls.odai,
      ls.pcIndex, ls.pcSystemIndex, ls.pcList, ls.asmList⟩, ?_⟩
    unfold xidInputActive
    rw [if_pos h]
    rfl
  · obtain ⟨odai, ho⟩ := xidInputActive_of_ne env h
    obtain ⟨pcIndex, pcSystemIndex, pcList, asmList, ha, -⟩ := activations_eq env
      { ls with xidState := .active, state := .active, odai := odai }
    rw [ho, ha]
    exact ⟨⟨ls.tgState, ls.tgInput, ls.effectiveTg, ls.xidInput, .active, .active, odai,
      pcIndex, pcSystemIndex, pcList, asmList⟩, rfl⟩

/-! ## The surprise SNRM -/

theorem suprise_of_allowed (env : Env) {ls : Ls}
    (h : ∃ r, ls.xidLastRx = some r ∧ supriseAllowed r.xid ls.effectiveRole) :
    ∃ s i t, xidSupriseSrnm env ls = xidInputActive env
      { ls with tgState := s, tgInput := i, effectiveTg := t, xidInput := some .active } := by
  obtain ⟨r, hrx, ha⟩ := h
  obtain ⟨s, i, t, htg⟩ := tgNegotiate_eq { ls with tgInput := .setmode }
  refine ⟨s, i, t, ?_⟩
  unfold xidSupriseSrnm
  split
  · rename_i hn
    rw [hn] at hrx
    cases hrx
  · rename_i r' hr'
    obtain rfl := Option.some.inj (hr'.symm.trans hrx)
    rw [if_pos ha, htg]

theorem suprise_of_not_allowed (env : Env) {ls : Ls}
    (h : ¬ ∃ r, ls.xidLastRx = some r ∧ supriseAllowed r.xid ls.effectiveRole) :
    xidSupriseSrnm env ls = (false, ls) := by
  unfold xidSupriseSrnm
  cases hrx : ls.xidLastRx with
  | none => rfl
  | some r => exact if_neg fun ha => h ⟨r, hrx, ha⟩

theorem xidSupriseSrnm_fst (env : Env) {ls : Ls} (hx : ls.xidState ≠ .active) :
    (xidSupriseSrnm env ls).1 = true ↔ SupriseActivates env ls := by
  unfold SupriseActivates
  by_cases ha : ∃ r, ls.xidLastRx = some r ∧ supriseAllowed r.xid ls.effectiveRole
  · obtain ⟨s, i, t, hs⟩ := suprise_of_allowed env ha
    have hn : ({ ls with
      tgState := s, tgInput := i, effectiveTg := t, xidInput := some .active } : Ls).xidState ≠
        .active := hx
    obtain ⟨odai, ho⟩ := xidInputActive_of_ne env hn
    obtain ⟨_, _, _, _, hact, -⟩ := activations_eq env { ls with
      tgState := s, tgInput := i, effectiveTg := t, xidInput := some .active
      xidState := .active, state := .active, odai := odai }
    rw [hs, ho, hact]
    exact ⟨fun hc => ⟨ha, hc⟩, fun hc => hc.2⟩
  · rw [suprise_of_not_allowed env ha]
    exact ⟨nofun, fun hc => absurd hc.1 ha⟩

theorem xidSupriseSrnm_eq (env : Env) (ls : Ls) :
    ∃ α, (xidSupriseSrnm env ls).2 = ls.activated α := by
  by_cases ha : ∃ r, ls.xidLastRx = some r ∧ supriseAllowed r.xid ls.effectiveRole
  · obtain ⟨s, i, t, hs⟩ := suprise_of_allowed env ha
    obtain ⟨α, hα⟩ := xidInputActive_eq env { ls with
      tgState := s, tgInput := i, effectiveTg := t, xidInput := some .active }
    rw [hs, hα]
    exact ⟨α, rfl⟩
  · rw [suprise_of_not_allowed env ha]
    exact ⟨⟨ls.tgState, ls.tgInput, ls.effectiveTg, ls.xidInput, ls.state, ls.xidState, ls.odai,
      ls.pcIndex, ls.pcSystemIndex, ls.pcList, ls.asmList⟩, rfl⟩

/-!
## Activations that fail

`xid_input_active` makes the link station active before it asks for a path control instance, an
address space and the transmission group, and returns at the first of them that fails. Nothing is
taken back (`failed_activation_active`, `left_when_tg_fails`), which `xid_input_reset` would do.
-/

variable {env : Env} {ls ls' : Ls}

/-- The link station is not active, and what is registered was so before. -/
structure Undone (ls ls' : Ls) : Prop where
  state : ls'.state ≠ .active
  pc : ∀ pc ∈ ls'.pcList, pc ∈ ls.pcList
  as : ∀ as ∈ ls'.asmList, as ∈ ls.asmList

theorem xidInputActive_fst (env : Env) (ls : Ls) :
    (xidInputActive env ls).1 = true ↔ ls.xidState = .active ∨ canActivate env ls = true := by
  by_cases h : ls.xidState = .active
  · rw [xidInputActive, if_pos h]
    exact iff_of_true rfl (.inl h)
  · obtain ⟨odai, ho⟩ := xidInputActive_of_ne env h
    obtain ⟨_, _, _, _, ha, -⟩ := activations_eq env
      { ls with xidState := .active, state := .active, odai := odai }
    rw [ho, ha, or_iff_right h]
    rfl

/-- Wherever the activation fails, the link station stays active. -/
theorem failed_activation_active (h : (xidInputActive env ls).1 = false) :
    (xidInputActive env ls).2.state = .active ∧ (xidInputActive env ls).2.xidState = .active := by
  have hne : ls.xidState ≠ .active := by
    intro hx
    rw [(xidInputActive_fst env ls).mpr (.inl hx)] at h
    exact absurd h (by decide)
  obtain ⟨odai, ho⟩ := xidInputActive_of_ne env hne
  obtain ⟨_, _, _, _, ha, -⟩ := activations_eq env
    { ls with xidState := .active, state := .active, odai := odai }
  rw [ho, ha]
  exact ⟨rfl, rfl⟩

/-- Where the last step fails, the path control instance and the address space of the link station stay
registered, with its new index. -/
theorem left_when_tg_fails (hx : ls.xidState ≠ .active) (hpc : env.pc = true) (has : env.as = true)
    (htg : env.tg = false) {i : UInt32}
    (hi : pcNewIndex (ls.pcList.length + 1) ls.pcSystemIndex ls.pcList = some i)
    (hfree : Asm.getByIndex ls.asmList i = none) :
    (xidInputActive env ls).1 = false ∧ (xidInputActive env ls).2.pcIndex = i ∧
      (xidInputActive env ls).2.pcList = ls.pcList ++ [⟨i, ls.portIndex, ls.index⟩] ∧
      ∃ as : Asm.AsmCb, as.index = i ∧ (xidInputActive env ls).2.asmList = ls.asmList ++ [as] := by
  obtain ⟨odai, ho⟩ := xidInputActive_of_ne env hx
  rw [ho]
  simp only [activations, pcActivate, asActivate, Asm.activateAs, hpc, has, htg, hi, hfree,
    Bool.not_true, Bool.false_eq_true, if_false]
  exact ⟨rfl, rfl, rfl, ⟨i, odai, 0, []⟩, rfl, rfl⟩

/-- A link activation that fails is undone only where none fails: the link station is active already,
or there is memory, the new index is not that of an address space, and the topology is updated. -/
theorem failed_activation_undone_iff (env : Env) (ls : Ls) :
    ((xidInputActive env ls).1 = false → Undone ls (xidInputActive env ls).2) ↔
      ls.xidState = .active ∨ canActivate env ls = true := by
  rw [← xidInputActive_fst]
  constructor
  · intro h
    by_contra hf
    rw [Bool.not_eq_true] at hf
    exact (h hf).state (failed_activation_active hf).1
  · intro ht hf
    rw [ht] at hf
    exact absurd hf (by decide)

/-- A link station that was started, in the exchange of XIDs -/
def exchanging : Ls :=
  { defineLs ⟨.neg, .dirBoth, true, 3, 0, ⟨[], []⟩, ⟨[], []⟩⟩ 1 false 1 1 with
    running := true
    state := .activated
    xidState := .sPriRSec }

/-- The topology cannot be updated: the link station is active, with what it has registered. -/
theorem exchanging_fails :
    (xidInputActive { tg := false } exchanging).1 = false ∧
      (xidInputActive { tg := false } exchanging).2.state = .active ∧
      (xidInputActive { tg := false } exchanging).2.pcList = [⟨1, 1, 1⟩] ∧
      (xidInputActive { tg := false } exchanging).2.asmList = [⟨1, 0, 0, []⟩] ∧
      ¬ Undone exchanging (xidInputActive { tg := false } exchanging).2 :=
  ⟨by decide, by decide, by decide, by decide, fun h => h.state (by decide)⟩

end LinuxSna.Cs
