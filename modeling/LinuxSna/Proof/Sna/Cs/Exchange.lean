import LinuxSna.Impl.Sna.Cs.Xid

/-!
# What the handlers of XIDs are made of

The handlers of BEGIN and of the XIDs send, change the state and direction of
the exchange, and renegotiate; only a resending does more. So they keep every
property that these do (`Kept`), and where they resend their result is that of
`xid_output_resend`: `Kept.inputPn` and the others.
-/

namespace LinuxSna.Cs

/-!
## What negotiating, sending and resetting change

Negotiating a transmission group number and sending an XID change a few fields
of a link station each, and no sending is a resending (`xidOutput_eq`). A reset
clears a station, which then begins again if it is to run (`xidInputReset_eq`).
What a result says of the other fields follows by rewriting.
-/

/-- A frame that `xid_output_resend` sent. -/
def Frame.isResent : Frame → Bool
  | .xid _ _ resent => resent
  | .test => false

theorem tgNegotiate_eq (ls : Ls) : ∃ tgState tgInput effectiveTg, tgNegotiate ls =
    { ls with tgState := tgState, tgInput := tgInput, effectiveTg := effectiveTg } := by
  unfold tgNegotiate
  split
  · exact ⟨_, _, _, rfl⟩
  · exact ⟨_, _, _, rfl⟩
  · split_ifs <;> exact ⟨_, _, _, rfl⟩
  · exact ⟨_, _, _, rfl⟩
  · split_ifs <;> exact ⟨_, _, _, rfl⟩

/-- What an output may change, and the frames it sends. -/
structure Sending where
  tgState : TgState
  tgInput : TgInput
  effectiveTg : Nat
  effectiveRole : Role
  xidLastTx : Option (Option Xid3)
  xidLastTxDirection : XidDir
  retry : Bool
  frames : List Frame
  fresh : ∀ f ∈ frames, f.isResent = false

def Ls.after (ls : Ls) (δ : Sending) : Ls :=
  { ls with
    tgState := δ.tgState
    tgInput := δ.tgInput
    effectiveTg := δ.effectiveTg
    effectiveRole := δ.effectiveRole
    xidLastTx := δ.xidLastTx
    xidLastTxDirection := δ.xidLastTxDirection
    retry := δ.retry
    sent := ls.sent ++ δ.frames }

/-- Nothing is sent. -/
def Ls.quiet (ls : Ls) : Sending where
  tgState := ls.tgState
  tgInput := ls.tgInput
  effectiveTg := ls.effectiveTg
  effectiveRole := ls.effectiveRole
  xidLastTx := ls.xidLastTx
  xidLastTxDirection := ls.xidLastTxDirection
  retry := ls.retry
  frames := []
  fresh _ h := absurd h List.not_mem_nil

theorem Ls.after_quiet (ls : Ls) : ls.after ls.quiet = ls := by
  unfold Ls.after Ls.quiet
  rw [List.append_nil]

theorem xidSend_eq (b : Buffers) (image : Option Xid3) (ls : Ls) :
    ∃ δ, xidSend b image ls = ls.after δ := by
  unfold xidSend
  split
  · exact ⟨ls.quiet, ls.after_quiet.symm⟩
  · refine ⟨⟨ls.tgState, ls.tgInput, ls.effectiveTg, ls.effectiveRole, _, _, _, _, ?_⟩, rfl⟩
    intro f hf
    rw [List.mem_singleton.mp hf]
    rfl

theorem xidOutputNeg_eq (b : Buffers) (ls : Ls) : ∃ δ, xidOutputNeg b ls = ls.after δ := by
  obtain ⟨s, i, t, htg⟩ := tgNegotiate_eq { ls with tgInput := .adjLoc }
  obtain ⟨δ, hδ⟩ := xidSend_eq b
    (some { xidPktInit { ls with tgState := s, tgInput := i, effectiveTg := t } with state := .neg })
    { ls with tgState := s, tgInput := i, effectiveTg := t }
  refine ⟨δ, ?_⟩
  show xidSend b _ (tgNegotiate { ls with tgInput := .adjLoc }) = _
  rw [htg]
  exact hδ

theorem xidOutput_eq (b : Buffers) (action : XidOut) (ls : Ls) :
    ∃ δ, xidOutput b action ls = ls.after δ := by
  cases action with
  | null | pn => exact xidSend_eq b _ ls
  | neg | negId | pri | sec => exact xidOutputNeg_eq b _
  | priR => exact ⟨Ls.quiet { ls with effectiveRole := .pri }, (Ls.after_quiet _).symm⟩
  | secR => exact ⟨Ls.quiet { ls with effectiveRole := .sec }, (Ls.after_quiet _).symm⟩
  | random | z2 => exact ⟨ls.quiet, ls.after_quiet.symm⟩

theorem xidFlipDirection_eq (ls : Ls) :
    ∃ direction, xidFlipDirection ls = { ls with xidDirection := direction } := by
  unfold xidFlipDirection
  split
  · exact ⟨_, rfl⟩
  · exact ⟨_, rfl⟩
  · exact ⟨_, rfl⟩

/-- A link station after the clearing part of a reset. -/
def Ls.cleared (ls : Ls) (tgState : TgState) (tgInput : TgInput) (effectiveTg : Nat) : Ls :=
  { ls with
    retry := false
    retries := 0
    tgState := tgState
    tgInput := tgInput
    effectiveTg := effectiveTg
    coStatus := if ls.direction = .dirOut then .reset else .testOk
    xidState := .reset
    xidInput := some .reset
    xidDirection := .invalid
    xidLastTxDirection := .invalid
    effectiveRole := ls.role
    xidLastTx := none
    xidLastRx := none
    asmList := (Asm.deactivateAs ls.asmList ls.pcIndex).2
    pcList := ls.pcList.eraseP (·.index = ls.pcIndex)
    pcIndex := 0 }

theorem xidInputReset_eq (b : Buffers) (ls : Ls) : ∃ s i t, xidInputReset b ls =
    if ls.running then
      connectOutWith (xidInputBegin b) { ls.cleared s i t with
        state := .activated, xidInput := some .start, xidDirection := .outbound }
    else { ls.cleared s i t with state := .defined } := by
  obtain ⟨s, i, t, htg⟩ := tgNegotiate_eq { ls with retry := false, retries := 0, tgInput := .reset }
  refine ⟨s, i, t, ?_⟩
  unfold xidInputReset
  rw [htg]
  rfl

/-! ## The handlers -/

/-- An XID on which `xid_output_resend` is run. -/
def Resends : XidIn → XidState → Bool
  | .null, .sPn | .null, .sNeg | .null, .sPri | .null, .sSec | .null, .rPriSSec
  | .null, .sPriRSec => true
  | .pn, .sNeg | .pn, .sPri | .pn, .sSec | .pn, .rPriSSec | .pn, .sPriRSec => true
  | .neg, .sPri | .neg, .sSec | .neg, .rPriSSec | .neg, .sPriRSec => true
  | _, _ => false

/-- A property that sending keeps, and the changes around it. -/
structure Kept (P : Ls → Prop) : Prop where
  after {ls} (δ : Sending) : P ls → P (ls.after δ)
  state {ls} {state : XidState} : state ≠ .active → P ls → P { ls with xidState := state }
  direction {ls} (direction : XidDir) : P ls → P { ls with xidDirection := direction }
  renegotiate {ls} (s : TgState) (i : TgInput) (t : Nat) : P ls → P { ls with
    tgState := s, tgInput := i, effectiveTg := t, xidInput := some .pn, xidDirection := .outbound }

namespace Kept

variable {P Q : Ls → Prop} (hk : Kept P) {ls : Ls}
include hk

theorem xidOutput (b : Buffers) (action : XidOut) (h : P ls) : P (xidOutput b action ls) := by
  obtain ⟨δ, hδ⟩ := xidOutput_eq b action ls
  rw [hδ]
  exact hk.after δ h

theorem output (b : Buffers) (action : XidOut) {state : XidState} (hs : state ≠ .active)
    (h : P ls) : P (output b action state ls) :=
  hk.state hs (hk.xidOutput b action h)

theorem flip (h : P ls) : P (xidFlipDirection ls) := by
  obtain ⟨direction, hd⟩ := xidFlipDirection_eq ls
  rw [hd]
  exact hk.direction direction h

theorem answer (b : Buffers) (action : XidOut) {state : XidState} (hs : state ≠ .active)
    (h : P ls) : P (answer b action state ls) :=
  hk.output b action hs (hk.flip h)

theorem inputBegin (b : Buffers) (h : P ls) : P (xidInputBegin b ls) := by
  unfold xidInputBegin
  split_ifs
  · exact h
  · exact h
  · split
    · exact hk.xidOutput b .null h
    · exact hk.output b .pn nofun h
    · exact hk.output b .neg nofun h
    · exact hk.output b .pri nofun h
    · exact h
  · exact h

variable (hPQ : ∀ ls, P ls → Q ls) (env : Env) (h : P ls)
include hPQ h

theorem inputPn (hr : Resends .pn ls.xidState → Q (xidOutputResend env ls)) :
    Q (xidInputPn env ls) := by
  unfold xidInputPn
  split
  case h_1 | h_2 =>
    split
    all_goals first
      | exact hPQ _ h
      | exact hPQ _ (hk.answer env.own _ nofun h)
  case h_8 => exact hPQ _ h
  all_goals
    rename_i hx
    exact hr (by rw [hx]; rfl)

theorem inputNull (hr : Resends .null ls.xidState → Q (xidOutputResend env ls)) :
    Q (xidInputNull env ls) := by
  unfold xidInputNull
  split
  case h_1 =>
    split
    all_goals first
      | exact hPQ _ h
      | exact hPQ _ (hk.answer env.own _ nofun h)
  case h_8 => exact hPQ _ h
  all_goals
    rename_i hx
    exact hr (by rw [hx]; rfl)

theorem inputNeg (hr : Resends .neg ls.xidState → Q (xidOutputResend env ls)) :
    Q (xidInputNeg env ls) := by
  unfold xidInputNeg
  split
  case h_1 | h_2 =>
    split_ifs
    all_goals first
      | exact hPQ _ h
      | exact hPQ _ (hk.answer env.own _ nofun h)
  case h_3 =>
    split_ifs
    · exact hPQ _ (hk.output env.own .priR nofun h)
    · exact hPQ _ (hk.output env.own .secR nofun h)
    · exact hPQ _ (hk.xidOutput env.own .random h)
    · exact hPQ _ h
  case h_8 => exact hPQ _ h
  all_goals
    rename_i hx
    exact hr (by rw [hx]; rfl)

omit hPQ in
theorem outputZ1 : P (xidOutputZ1 env ls) := by
  unfold xidOutputZ1
  split_ifs with hx
  · obtain ⟨s, i, t, htg⟩ := tgNegotiate_eq { ls with tgInput := .reset }
    rw [htg]
    have hp := hk.renegotiate s i t h
    apply hk.inputPn (fun _ => id) env hp
    intro hr
    simp only [hx] at hr
    cases hr
  · exact h

omit hPQ in
theorem inputPri : P (xidInputPri env ls) := by
  unfold xidInputPri
  split
  case h_1 =>
    split
    · exact hk.answer env.own .sec nofun h
    · exact hk.answer env.own .sec nofun h
    · exact hk.outputZ1 env h
    · exact h
  case h_2 =>
    split
    · exact hk.answer env.own .sec nofun h
    · exact hk.answer env.own .sec nofun h
    · exact hk.state nofun (hk.outputZ1 env (hk.flip h))
    · exact h
  case h_3 => exact hk.output env.own .secR nofun h
  case h_4 | h_5 => exact hk.state nofun (hk.outputZ1 env h)
  case h_6 => exact hk.state nofun h
  case h_7 | h_8 => exact h

omit hPQ in
theorem inputSec : P (xidInputSec env ls) := by
  unfold xidInputSec
  split
  case h_1 | h_2 =>
    split_ifs
    · exact hk.answer env.own .pri nofun h
    · exact hk.outputZ1 env h
  case h_3 => exact hk.output env.own .priR nofun h
  case h_4 => exact hk.state nofun h
  case h_5 | h_6 => exact hk.state nofun (hk.outputZ1 env h)
  case h_7 | h_8 => exact h

end Kept

end LinuxSna.Cs
