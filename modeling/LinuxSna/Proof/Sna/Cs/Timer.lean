import LinuxSna.Framework.Run
import LinuxSna.Impl.Sna.Cs.Timer
import LinuxSna.Proof.Sna.Cs.Activation
import LinuxSna.Proof.Sna.Cs.Calls
import LinuxSna.Proof.Sna.Cs.Exchange

/-!
# The retry timers of the link stations

Every handler finds its timer as it needs it and leaves it as the link station says (`Timed`), if
the timer is not pending when `xid_doit` is called or it is called to reset. What a handling keeps
of a link station is split by whether it is to run: a stopped one waits for nothing but the
disconnection of an active link (`Idle`). From both follows what a step of the ports keeps, and
from that what holds along a run (`timer_discipline`).
-/

namespace LinuxSna.Cs

open Framework

/-! ## What is called while an input is handled -/

/-- The calls find the timer as they need it, and leave it as the link station has it. -/
def Timed (ops : List TimerOp) (ls ls' : Ls) : Prop := runTimer ls.retry ops = some ls'.retry

@[simp] theorem runTimer_nil (pending : Bool) : runTimer pending [] = some pending := by
  cases pending <;> rfl

@[simp] theorem runTimer_del (pending : Bool) (ops : List TimerOp) :
    runTimer pending (.del :: ops) = runTimer false ops := by
  cases pending <;> rfl

theorem runTimer_append (pending : Bool) (ops ops' : List TimerOp) :
    runTimer pending (ops ++ ops') = (runTimer pending ops).bind fun p => runTimer p ops' := by
  induction ops generalizing pending with
  | nil => simp
  | cons op ops ih =>
    cases op with
    | del => simpa using ih false
    | add =>
      cases pending with
      | false => exact ih true
      | true => rfl

section

variable {ls : Ls}

theorem Timed.of_nil {ls' : Ls} (h : ls'.retry = ls.retry) : Timed [] ls ls' := by
  unfold Timed
  rw [runTimer_nil, h]

theorem timed_send (h : ls.retry = false ∨ ls.xidDirection ≠ .outbound) (b : Buffers)
    (image : Option Xid3) : Timed (sendOps b ls) ls (xidSend b image ls) := by
  unfold Timed sendOps xidSend
  cases b.image with
  | false => simp
  | true =>
    by_cases hd : ls.xidDirection = .outbound
    · have hr := h.resolve_right (not_not.mpr hd)
      simp [hd, hr, runTimer]
    · simp [hd]

/-- The outputs that send an XID. -/
def XidOut.sends : XidOut → Bool
  | .null | .pn | .neg | .negId | .pri | .sec => true
  | .priR | .secR | .random | .z2 => false

theorem timed_output (h : ls.retry = false ∨ ls.xidDirection ≠ .outbound) (b : Buffers) (action : XidOut) (ha : action.sends = true) :
    Timed (sendOps b ls) ls (xidOutput b action ls) := by
  have hneg (role : Role) : Timed (sendOps b ls) ls (xidOutputNeg b { ls with effectiveRole := role }) := by
    obtain ⟨s, i, t, htg⟩ := tgNegotiate_eq { ls with effectiveRole := role, tgInput := .adjLoc }
    unfold xidOutputNeg
    dsimp only
    rw [htg]
    exact @timed_send { ls with
      effectiveRole := role, tgState := s, tgInput := i, effectiveTg := t } h b _
  cases action with
  | null | pn => exact timed_send h b _
  | neg | negId | pri | sec => exact hneg _
  | priR | secR | random | z2 => cases ha

/-- What has gone out is answered as if it had come in, which leaves the timer as it is. -/
theorem timed_answer (h : ls.retry = false ∨ ls.xidDirection = .outbound) (b : Buffers)
    (action : XidOut) (ha : action.sends = true) (state : XidState) :
    Timed (answerOps b ls) ls (answer b action state ls) := by
  have hf : ls.retry = false ∨ (xidFlipDirection ls).xidDirection ≠ .outbound := by
    refine h.imp_right fun hd => ?_
    unfold xidFlipDirection
    rw [hd]
    exact nofun
  obtain ⟨direction, hd⟩ := xidFlipDirection_eq ls
  unfold answerOps answer
  rw [hd] at hf ⊢
  exact @timed_output { ls with xidDirection := direction } hf b action ha

theorem timed_begin (h : ls.retry = false) (b : Buffers) :
    Timed (beginOps b ls) ls (xidInputBegin b ls) := by
  unfold beginOps xidInputBegin
  split_ifs
  · exact .of_nil rfl
  · exact .of_nil rfl
  · cases hi : ls.xidInitMethod with
    | null => exact timed_output (.inl h) b .null rfl
    | pn => exact timed_output (.inl h) b .pn rfl
    | np =>
      cases hr : ls.effectiveRole with
      | neg => exact timed_output (.inl h) b .neg rfl
      | pri => exact timed_output (.inl h) b .pri rfl
      | sec | rsv => exact .of_nil rfl
  · exact .of_nil rfl

theorem timed_connectOut {doitOps : Ls → List TimerOp} {doit : Ls → Ls}
    (hd : ∀ l, l.retry = false → outCalled ls = some l → Timed (doitOps l) l (doit l)) :
    Timed (connectOutOps doitOps ls) ls (connectOutWith doit ls) := by
  have hex (status : CoStatus) :
      exhausted { ls with retry := false, coStatus := status } = exhausted ls := rfl
  unfold Timed connectOutOps connectOutWith
  dsimp only
  cases hco : ls.coStatus with
  | reset | sTestC =>
    dsimp only
    rw [runTimer_del]
    by_cases hs : ls.state ≠ .activated
    · rw [if_pos (.inl hs), if_pos hs]
      rfl
    · rw [if_neg hs, hex]
      by_cases he : exhausted ls = true
      · rw [if_pos (.inr he), if_pos he]
        rfl
      · rw [if_neg (not_or.mpr ⟨hs, he⟩), if_neg he]
        rfl
  | rTestR =>
    dsimp only
    rw [runTimer_del]
    exact hd _ rfl (by unfold outCalled; rw [hco])
  | testOk =>
    dsimp only
    rw [runTimer_del]
    exact hd _ rfl (by unfold outCalled; rw [hco])
  | fail | active =>
    dsimp only
    rw [runTimer_del, runTimer_nil]

theorem timed_reset (b : Buffers) : Timed (resetOps b ls) ls (xidInputReset b ls) := by
  obtain ⟨s, i, t, hr⟩ := xidInputReset_eq b ls
  unfold Timed resetOps
  rw [hr, runTimer_del]
  by_cases hrun : ls.running = true
  · rw [if_pos hrun, if_pos hrun]
    exact @timed_connectOut { ls.cleared s i t with
      state := .activated, xidInput := some .start, xidDirection := .outbound } (beginOps b)
      (xidInputBegin b) fun l hl _ => timed_begin hl b
  · rw [if_neg hrun, if_neg hrun]
    rfl

theorem timed_resend (h : ls.retry = false) (env : Env) :
    Timed (resendOps env ls) ls (xidOutputResend env ls) := by
  unfold resendOps xidOutputResend
  cases htx : ls.xidLastTx with
  | none => exact .of_nil rfl
  | some image =>
    dsimp only
    split_ifs
    · exact .of_nil rfl
    · exact .of_nil rfl
    · rw [← htx]
      exact @timed_reset { ls with xidInput := some .reset, xidFailed := true } env.reset
    · unfold Timed
      rw [h]
      rfl

theorem timed_inputPn (h : ls.retry = false ∨ ls.xidDirection = .outbound ∧ ls.xidState = .reset)
    (env : Env) : Timed (inputPnOps env ls) ls (xidInputPn env ls) := by
  have ha := h.imp_right And.left
  unfold inputPnOps xidInputPn
  cases hx : ls.xidState with
  | reset =>
    cases hi : ls.xidInitMethod with
    | null | pn => exact timed_answer ha env.own .pn rfl .sPn
    | np =>
      cases hr : ls.effectiveRole with
      | neg => exact timed_answer ha env.own .neg rfl .sNeg
      | pri => exact timed_answer ha env.own .pri rfl .sPri
      | sec => exact timed_answer ha env.own .sec rfl .sSec
      | rsv => exact .of_nil rfl
  | sPn =>
    cases hr : ls.effectiveRole with
    | neg => exact timed_answer ha env.own .neg rfl .sNeg
    | pri => exact timed_answer ha env.own .pri rfl .sPri
    | sec => exact timed_answer ha env.own .sec rfl .sSec
    | rsv => exact .of_nil rfl
  | sNeg | sPri | sSec | rPriSSec | sPriRSec =>
    refine timed_resend (h.resolve_right fun hr => ?_) env
    rw [hx] at hr
    cases hr.2
  | active => exact .of_nil rfl

theorem timed_inputNull (h : ls.retry = false) (env : Env) :
    Timed (inputNullOps env ls) ls (xidInputNull env ls) := by
  unfold inputNullOps xidInputNull
  cases hx : ls.xidState with
  | reset =>
    cases hi : ls.xidInitMethod with
    | null | pn => exact timed_answer (.inl h) env.own .pn rfl .sPn
    | np =>
      cases hr : ls.effectiveRole with
      | neg => exact timed_answer (.inl h) env.own .neg rfl .sNeg
      | pri => exact timed_answer (.inl h) env.own .pri rfl .sPri
      | sec => exact timed_answer (.inl h) env.own .sec rfl .sSec
      | rsv => exact .of_nil rfl
  | sPn | sNeg | sPri | sSec | rPriSSec | sPriRSec => exact timed_resend h env
  | active => exact .of_nil rfl

theorem timed_outputZ1 (h : ls.retry = false) (env : Env) :
    Timed (outputZ1Ops env ls) ls (xidOutputZ1 env ls) := by
  unfold outputZ1Ops xidOutputZ1
  split_ifs
  · obtain ⟨s, i, t, htg⟩ := tgNegotiate_eq { ls with tgInput := .reset }
    rw [htg]
    exact @timed_inputPn { ls with
      tgState := s, tgInput := i, effectiveTg := t, xidInput := some .pn
      xidDirection := .outbound } (.inl h) env
  · exact .of_nil rfl

theorem timed_inputNeg (h : ls.retry = false) (env : Env) :
    Timed (inputNegOps env ls) ls (xidInputNeg env ls) := by
  have ha (action : XidOut) (hs : action.sends = true) (state : XidState) :
      Timed (answerOps env.own ls) ls (answer env.own action state ls) :=
    timed_answer (.inl h) env.own action hs state
  unfold inputNegOps xidInputNeg
  cases hx : ls.xidState with
  | reset | sPn =>
    dsimp only
    split_ifs with h₁ h₂ h₃ h₄ h₅ h₆ h₇ h₈ h₉ h₁₀ h₁₁
    all_goals first
      | exact ha _ rfl _
      | exact .of_nil rfl
      | (exfalso; simp_all)
  | sNeg =>
    refine .of_nil ?_
    dsimp only
    split_ifs <;> rfl
  | sPri | sSec | rPriSSec | sPriRSec => exact timed_resend h env
  | active => exact .of_nil rfl

theorem timed_inputPri (h : ls.retry = false) (env : Env) :
    Timed (inputPriOps env ls) ls (xidInputPri env ls) := by
  unfold inputPriOps xidInputPri
  cases hx : ls.xidState with
  | reset =>
    cases hr : ls.effectiveRole with
    | neg | sec => exact timed_answer (.inl h) env.own .sec rfl .rPriSSec
    | pri => exact timed_outputZ1 h env
    | rsv => exact .of_nil rfl
  | sPn =>
    cases hr : ls.effectiveRole with
    | neg | sec => exact timed_answer (.inl h) env.own .sec rfl .rPriSSec
    | pri =>
      obtain ⟨direction, hd⟩ := xidFlipDirection_eq ls
      dsimp only
      rw [hd]
      exact @timed_outputZ1 { ls with xidDirection := direction } h env
    | rsv => exact .of_nil rfl
  | sPri | sPriRSec => exact timed_outputZ1 h env
  | sNeg | sSec | rPriSSec | active => exact .of_nil rfl

theorem timed_inputSec (h : ls.retry = false) (env : Env) :
    Timed (inputSecOps env ls) ls (xidInputSec env ls) := by
  unfold inputSecOps xidInputSec
  cases hx : ls.xidState with
  | reset | sPn =>
    dsimp only
    split_ifs
    · exact timed_answer (.inl h) env.own .pri rfl .sPri
    · exact timed_outputZ1 h env
  | sSec | rPriSSec => exact timed_outputZ1 h env
  | sNeg | sPri | sPriRSec | active => exact .of_nil rfl

/-- A reset leaves a link station in Reset, if it begins with null XIDs. -/
theorem xidState_reset (hi : ls.xidInitMethod = .null) (b : Buffers) :
    (xidInputReset b ls).xidState = .reset := by
  obtain ⟨s, i, t, hr⟩ := xidInputReset_eq b ls
  have hbegin (l : Ls) (hx : l.xidState = .reset) (hl : l.xidInitMethod = .null) :
      (xidInputBegin b l).xidState = .reset := by
    unfold xidInputBegin
    split_ifs
    · exact hx
    · exact hx
    · rw [hl]
      obtain ⟨δ, hδ⟩ := xidOutput_eq b .null l
      dsimp only
      rw [hδ]
      exact hx
  rw [hr]
  split
  · generalize hl : ({ ls.cleared s i t with
      state := .activated, xidInput := some .start, xidDirection := .outbound } : Ls) = l
    have hx : l.xidState = .reset ∧ l.xidInitMethod = .null := by
      rw [← hl]
      exact ⟨rfl, hi⟩
    cases ho : outCalled l with
    | none =>
      obtain ⟨_, _, _, _, hq, -⟩ := connectOutWith_quiet (xidInputBegin b) ho
      rw [hq]
      exact hx.1
    | some l' =>
      rw [connectOutWith_called _ ho]
      obtain ⟨_, _, rfl⟩ := outCalled_eq ho
      exact hbegin _ hx.1 hx.2
  · rfl

theorem xidInputActive_retry (env : Env) (l : Ls) : (xidInputActive env l).2.retry = l.retry := by
  obtain ⟨α, hα⟩ := xidInputActive_eq env l
  rw [hα]
  rfl

/-- After a reset the PN goes out as an answer. -/
theorem timed_outputErrOpt (hi : ls.xidInitMethod = .null) (env : Env) :
    Timed (outputErrOptOps env ls) ls (xidOutputErrOpt env ls) := by
  obtain ⟨α, hα⟩ := xidSupriseSrnm_eq env ls
  unfold outputErrOptOps xidOutputErrOpt
  cases hp : xidSupriseSrnm env ls with
  | mk ok l =>
  rw [hp] at hα
  cases ok with
  | true =>
    refine .of_nil ?_
    rw [show l = ls.activated α from hα]
    rfl
  | false =>
    dsimp only
    obtain ⟨s, i, t, htg⟩ := tgNegotiate_eq { l with tgInput := .reset }
    rw [htg]
    generalize hl : ({ l with tgState := s, tgInput := i, effectiveTg := t, xidInput := some .reset } : Ls) = l'
    have hops : resetOps env.reset l = resetOps env.reset l' := by
      rw [← hl]
      rfl
    have hnull : l'.xidInitMethod = .null := by
      rw [← hl]
      show l.xidInitMethod = _
      rw [show l = ls.activated α from hα]
      exact hi
    have hretry : ls.retry = l'.retry := by
      rw [← hl]
      show _ = l.retry
      rw [show l = ls.activated α from hα]
      rfl
    have hreset : Timed (resetOps env.reset l') l' (xidInputReset env.reset l') := timed_reset env.reset
    unfold Timed at hreset ⊢
    rw [if_neg Bool.false_ne_true, runTimer_append, hops, hretry, hreset]
    exact @timed_inputPn { xidInputReset env.reset l' with
      xidInput := some .pn, xidDirection := .outbound } (.inr ⟨rfl, xidState_reset hnull env.reset⟩) env

theorem timed_inputSetmode (hi : ls.xidInitMethod = .null) (env : Env) :
    Timed (inputSetmodeOps env ls) ls (xidInputSetmode env ls) := by
  unfold inputSetmodeOps xidInputSetmode
  cases hx : ls.xidState with
  | reset | sPn | sNeg | sSec => exact timed_outputErrOpt hi env
  | sPri | sPriRSec | active => exact .of_nil rfl
  | rPriSSec =>
    refine .of_nil ?_
    exact xidInputActive_retry env _

/-- `xid_doit` is called when the timer is not pending, or with an input that waits for none. -/
theorem timed_doit (hi : ls.xidInitMethod = .null)
    (h : ls.retry = false ∨ ls.xidInput = some .active ∨ ls.xidInput = some .reset) (env : Env) :
    Timed (doitOps env ls) ls (xidDoit env ls) := by
  have hf {input : XidIn} (hin : ls.xidInput = some input) (hn : input ≠ .active) (hr : input ≠ .reset) :
      ls.retry = false := by
    refine h.resolve_right ?_
    rw [hin]
    simp [hn, hr]
  unfold doitOps xidDoit
  cases hin : ls.xidInput with
  | none => exact .of_nil rfl
  | some input =>
    cases input with
    | start => exact timed_begin (hf hin nofun nofun) env.own
    | null => exact timed_inputNull (hf hin nofun nofun) env
    | pn => exact timed_inputPn (.inl (hf hin nofun nofun)) env
    | neg => exact timed_inputNeg (hf hin nofun nofun) env
    | pri => exact timed_inputPri (hf hin nofun nofun) env
    | sec => exact timed_inputSec (hf hin nofun nofun) env
    | setmode => exact timed_inputSetmode hi env
    | active => exact .of_nil (xidInputActive_retry env ls)
    | reset => exact timed_reset env.own

end

/-! ## What every handling keeps -/

/-- Link stations begin with null XIDs, and are active if their exchange is; and this one is to run
or not. -/
structure Based (running : Bool) (ls : Ls) : Prop where
  init : ls.xidInitMethod = .null
  active : ls.xidState = .active → ls.state = .active
  running : ls.running = running

section

variable {running : Bool} {ls : Ls}

theorem kept_based (running : Bool) : Kept (Based running) where
  after _ h := ⟨h.init, h.active, h.running⟩
  state hs h := ⟨h.init, fun ha => absurd ha hs, h.running⟩
  direction _ h := ⟨h.init, h.active, h.running⟩
  renegotiate _ _ _ h := ⟨h.init, h.active, h.running⟩

theorem Based.connectOutWith (h : Based running ls) {doit : Ls → Ls}
    (hd : ∀ l, Based running l → Based running (doit l)) : Based running (connectOutWith doit ls) := by
  cases ho : outCalled ls with
  | none =>
    obtain ⟨_, _, _, _, hq, -⟩ := connectOutWith_quiet doit ho
    rw [hq]
    exact ⟨h.init, h.active, h.running⟩
  | some l =>
    rw [connectOutWith_called doit ho]
    obtain ⟨_, _, rfl⟩ := outCalled_eq ho
    exact hd _ ⟨h.init, h.active, h.running⟩

theorem Based.reset (h : Based running ls) (b : Buffers) : Based running (xidInputReset b ls) := by
  obtain ⟨s, i, t, hr⟩ := xidInputReset_eq b ls
  have hc : Based running (ls.cleared s i t) := ⟨h.init, nofun, h.running⟩
  rw [hr]
  by_cases hrun : ls.running = true
  · rw [if_pos hrun]
    refine Based.connectOutWith ?_ fun l hl => (kept_based running).inputBegin b hl
    exact ⟨hc.init, nofun, hc.running⟩
  · rw [if_neg hrun]
    exact ⟨hc.init, nofun, hc.running⟩

theorem Based.resend (h : Based running ls) (env : Env) : Based running (xidOutputResend env ls) := by
  unfold xidOutputResend
  split
  · exact h
  · split_ifs
    · exact h
    · exact h
    · refine Based.reset ?_ env.reset
      exact ⟨h.init, h.active, h.running⟩
    · exact ⟨h.init, h.active, h.running⟩

theorem Based.inputActive (h : Based running ls) (env : Env) :
    Based running (xidInputActive env ls).2 := by
  by_cases hx : ls.xidState = .active
  · unfold xidInputActive
    rw [if_pos hx]
    exact h
  · obtain ⟨odai, ho⟩ := xidInputActive_of_ne env hx
    obtain ⟨_, _, _, _, ha, -⟩ := activations_eq env
      { ls with xidState := .active, state := .active, odai := odai }
    rw [ho, ha]
    exact ⟨h.init, fun _ => rfl, h.running⟩

theorem Based.suprise (h : Based running ls) (env : Env) : Based running (xidSupriseSrnm env ls).2 := by
  by_cases ha : ∃ r, ls.xidLastRx = some r ∧ supriseAllowed r.xid ls.effectiveRole
  · obtain ⟨s, i, t, hs⟩ := suprise_of_allowed env ha
    rw [hs]
    refine Based.inputActive ?_ env
    exact ⟨h.init, h.active, h.running⟩
  · rw [suprise_of_not_allowed env ha]
    exact h

theorem Based.outputErrOpt (h : Based running ls) (env : Env) :
    Based running (xidOutputErrOpt env ls) := by
  have hs := h.suprise env
  unfold xidOutputErrOpt
  split
  · rename_i l hp
    rw [hp] at hs
    exact hs
  · rename_i l hp
    rw [hp] at hs
    obtain ⟨s, i, t, htg⟩ := tgNegotiate_eq { l with tgInput := .reset }
    rw [htg]
    have hr := @Based.reset running { l with
      tgState := s, tgInput := i, effectiveTg := t, xidInput := some .reset }
      ⟨hs.init, hs.active, hs.running⟩ env.reset
    refine (kept_based running).inputPn (fun _ h => h) env ⟨hr.init, hr.active, hr.running⟩ fun _ => ?_
    refine Based.resend ?_ env
    exact ⟨hr.init, hr.active, hr.running⟩

theorem Based.doit (h : Based running ls) (env : Env) : Based running (xidDoit env ls) := by
  have hk := kept_based running
  unfold xidDoit
  split
  · exact hk.inputBegin env.own h
  · exact hk.inputNull (fun _ h => h) env h fun _ => h.resend env
  · exact hk.inputPn (fun _ h => h) env h fun _ => h.resend env
  · exact hk.inputNeg (fun _ h => h) env h fun _ => h.resend env
  · exact hk.inputPri env h
  · exact hk.inputSec env h
  · unfold xidInputSetmode
    split
    case h_1 | h_2 | h_3 | h_4 => exact hk.state nofun (h.outputErrOpt env)
    case h_5 | h_6 => exact hk.output env.own .z2 nofun h
    case h_7 =>
      refine Based.inputActive ?_ env
      exact ⟨h.init, h.active, h.running⟩
    case h_8 => exact h
  · exact h.inputActive env
  · exact h.reset env.own
  · exact h

end

/-! ## A link station that is stopped -/

/-- An XID -/
def XidIn.isXid : XidIn → Bool
  | .null | .pn | .neg | .pri | .sec => true
  | .start | .setmode | .active | .reset => false

/-- A link station that is not to run: it waits for nothing but the disconnection of an active
link. -/
structure Idle (ls : Ls) : Prop where
  state : ls.state ≠ .activated
  xidState : ls.xidState = .reset ∨ ls.xidState = .rPriSSec ∨ ls.xidState = .active
  input : ls.xidInput ≠ some .start
  timer : ls.retry = true → ls.state = .active

section

variable {ls : Ls}

theorem idle_reset (hr : ls.running = false) (b : Buffers) : Idle (xidInputReset b ls) := by
  obtain ⟨s, i, t, hres⟩ := xidInputReset_eq b ls
  rw [hres, if_neg (by simp [hr])]
  exact ⟨nofun, .inl rfl, nofun, nofun⟩

theorem Idle.inputActive (h : Idle ls) (env : Env) : Idle (xidInputActive env ls).2 := by
  by_cases hx : ls.xidState = .active
  · unfold xidInputActive
    rw [if_pos hx]
    exact h
  · obtain ⟨odai, ho⟩ := xidInputActive_of_ne env hx
    obtain ⟨_, _, _, _, ha, -⟩ := activations_eq env
      { ls with xidState := .active, state := .active, odai := odai }
    rw [ho, ha]
    exact ⟨nofun, .inr (.inr rfl), h.input, fun _ => rfl⟩

/-- A PN that answers what has gone out starts no timer. -/
theorem answer_pn_outbound {l : Ls} (hd : l.xidDirection = .outbound) (b : Buffers) :
    (answer b .pn .sPn l).retry = l.retry ∧ (answer b .pn .sPn l).state = l.state ∧
      (answer b .pn .sPn l).xidInput = l.xidInput := by
  unfold answer output xidFlipDirection xidOutput xidOutputPn xidSend
  rw [hd]
  dsimp only
  by_cases hb : (!b.image) = true
  · rw [if_pos hb]
    exact ⟨rfl, rfl, rfl⟩
  · rw [if_neg hb]
    exact ⟨Bool.or_false _, rfl, rfl⟩

theorem Idle.outputErrOpt (h : Idle ls) (hr : ls.running = false) (hi : ls.xidInitMethod = .null)
    (env : Env) : Idle { xidOutputErrOpt env ls with xidState := .rPriSSec } := by
  by_cases hact : (xidSupriseSrnm env ls).1 = true
  · have hout : xidOutputErrOpt env ls = (xidSupriseSrnm env ls).2 := by
      unfold xidOutputErrOpt
      split
      · rename_i hp
        rw [hp]
      · rename_i hp
        rw [hp] at hact
        cases hact
    have hs : Idle (xidSupriseSrnm env ls).2 := by
      by_cases ha : ∃ r, ls.xidLastRx = some r ∧ supriseAllowed r.xid ls.effectiveRole
      · obtain ⟨s, i, t, hs⟩ := suprise_of_allowed env ha
        rw [hs]
        refine Idle.inputActive ?_ env
        exact ⟨h.state, h.xidState, nofun, h.timer⟩
      · rw [suprise_of_not_allowed env ha]
        exact h
    rw [hout]
    exact ⟨hs.state, .inr (.inl rfl), hs.input, hs.timer⟩
  · obtain ⟨α, hα⟩ := xidSupriseSrnm_eq env ls
    obtain ⟨s, i, t, htg⟩ := tgNegotiate_eq { ls.activated α with tgInput := .reset }
    have hout : xidOutputErrOpt env ls = xidInputPn env { xidInputReset env.reset { ls.activated α with
        tgState := s, tgInput := i, effectiveTg := t, xidInput := some .reset } with
          xidInput := some .pn, xidDirection := .outbound } := by
      unfold xidOutputErrOpt
      split
      · rename_i hp
        rw [hp] at hact
        exact absurd rfl hact
      · rename_i l hp
        rw [hp] at hα
        obtain rfl : l = ls.activated α := hα
        dsimp only
        rw [htg]
    obtain ⟨s', i', t', hres⟩ := xidInputReset_eq env.reset { ls.activated α with
        tgState := s, tgInput := i, effectiveTg := t, xidInput := some .reset }
    rw [hout, hres, if_neg (by show ¬ ls.running = true; simp [hr])]
    generalize hl : (({ (({ ls.activated α with
        tgState := s, tgInput := i, effectiveTg := t, xidInput := some .reset } : Ls).cleared s' i' t') with
          state := .defined, xidInput := some .pn, xidDirection := .outbound }) : Ls) = l
    have hl' : l.xidState = .reset ∧ l.xidInitMethod = .null ∧ l.xidDirection = .outbound ∧
        l.retry = false ∧ l.state = .defined ∧ l.xidInput = some .pn := by
      rw [← hl]
      exact ⟨rfl, hi, rfl, rfl, rfl, rfl⟩
    obtain ⟨hx, hinit, hd, hretry, hstate, hinput⟩ := hl'
    have hpn : xidInputPn env l = answer env.own .pn .sPn l := by
      unfold xidInputPn
      rw [hx, hinit]
    obtain ⟨h₁, h₂, h₃⟩ := answer_pn_outbound hd env.own
    rw [hpn]
    refine ⟨?_, .inr (.inl rfl), ?_, ?_⟩
    · show (answer env.own .pn .sPn l).state ≠ _
      rw [h₂, hstate]
      exact nofun
    · show (answer env.own .pn .sPn l).xidInput ≠ _
      rw [h₃, hinput]
      exact nofun
    · show (answer env.own .pn .sPn l).retry = true → _
      rw [h₁, hretry]
      exact nofun

/-- A link station that is not to run handles no XID in Reset. -/
theorem Idle.doit (h : Idle ls) (hr : ls.running = false) (hi : ls.xidInitMethod = .null)
    (hm : ls.xidState = .reset → ∀ input ∈ ls.xidInput, input.isXid = false) (env : Env) :
    Idle (xidDoit env ls) := by
  have hresend : xidOutputResend env ls = ls := by
    unfold xidOutputResend
    split
    · rfl
    · split_ifs with h₁
      · rfl
      · rfl
      all_goals exact absurd h.state ‹_›
  have hz (hx : ls.xidState ≠ .reset) : xidOutputZ1 env ls = ls := if_neg hx
  cases hin : ls.xidInput with
  | none =>
    unfold xidDoit
    rw [hin]
    exact h
  | some input =>
    have hxid (hx : ls.xidState = .reset) : input.isXid = false := hm hx input (by rw [hin]; rfl)
    unfold xidDoit
    rw [hin]
    cases input with
    | start => exact absurd hin h.input
    | null =>
      rcases h.xidState with hx | hx | hx
      · cases hxid hx
      · simp only [xidInputNull, hx, hresend]
        exact h
      · simp only [xidInputNull, hx]
        exact h
    | pn =>
      rcases h.xidState with hx | hx | hx
      · cases hxid hx
      · simp only [xidInputPn, hx, hresend]
        exact h
      · simp only [xidInputPn, hx]
        exact h
    | neg =>
      rcases h.xidState with hx | hx | hx
      · cases hxid hx
      · simp only [xidInputNeg, hx, hresend]
        exact h
      · simp only [xidInputNeg, hx]
        exact h
    | pri =>
      rcases h.xidState with hx | hx | hx
      · cases hxid hx
      · simp only [xidInputPri, hx]
        exact h
      · simp only [xidInputPri, hx]
        exact h
    | sec =>
      rcases h.xidState with hx | hx | hx
      · cases hxid hx
      · have hne : ls.xidState ≠ .reset := by simp [hx]
        simp only [xidInputSec, hx, hz hne]
        exact ⟨h.state, .inl rfl, h.input, h.timer⟩
      · simp only [xidInputSec, hx]
        exact h
    | setmode =>
      rcases h.xidState with hx | hx | hx
      · simp only [xidInputSetmode, hx]
        exact h.outputErrOpt hr hi env
      · simp only [xidInputSetmode, hx]
        refine Idle.inputActive ?_ env
        exact ⟨h.state, .inr (.inl rfl), nofun, h.timer⟩
      · simp only [xidInputSetmode, hx]
        exact h
    | active => exact h.inputActive env
    | reset => exact idle_reset hr env.own

end

/-! ## Every event -/

/-- A link station whose timer runs as it should. -/
structure Sound (ls : Ls) : Prop where
  based : Based ls.running ls
  idle : ls.running = false → Idle ls

/-- What may happen to a link station: an active link is stopped when its timer is not pending,
and an XID is handled in Reset only if the link station is to run. -/
structure Meets (ls : Ls) (e : Event) : Prop where
  stop : e = .stopLs → ls.running = true → ls.xidState = .active → ls.retry = false
  xid : ∀ l ∈ called ls e, l.running = false → l.xidState = .reset →
    ∀ input ∈ l.xidInput, input.isXid = false

instance (ls : Ls) (e : Event) : Decidable (Meets ls e) :=
  decidable_of_iff (_ ∧ _) ⟨fun h => ⟨h.1, h.2⟩, fun h => ⟨h.stop, h.xid⟩⟩

section

variable {ls : Ls}

theorem Sound.doit (h : Sound ls) (hm : ls.running = false → ls.xidState = .reset →
    ∀ input ∈ ls.xidInput, input.isXid = false) (env : Env) : Sound (xidDoit env ls) := by
  have hb := h.based.doit env
  refine ⟨hb.running.symm ▸ hb, fun hr => ?_⟩
  have hr' : ls.running = false := hb.running.symm.trans hr
  exact (h.idle hr').doit hr' h.based.init (hm hr') env

theorem Sound.connectOut (h : Sound ls) (hm : ∀ l ∈ outCalled ls, l.running = false →
    l.xidState = .reset → ∀ input ∈ l.xidInput, input.isXid = false) (env : Env) :
    Sound (connectOut env ls) := by
  have hset (retries : Nat) (coStatus : CoStatus) :
      Sound { ls with retry := false, retries := retries, coStatus := coStatus } :=
    ⟨⟨h.based.init, h.based.active, rfl⟩, fun hr =>
      ⟨(h.idle hr).state, (h.idle hr).xidState, (h.idle hr).input, nofun⟩⟩
  unfold Cs.connectOut
  cases ho : outCalled ls with
  | some l =>
    rw [connectOutWith_called _ ho]
    obtain ⟨coStatus, retries, rfl⟩ := outCalled_eq ho
    exact (hset retries coStatus).doit (hm _ ho) env
  | none =>
    unfold outCalled at ho
    unfold connectOutWith
    dsimp only
    split
    case h_1 | h_2 =>
      split_ifs with hs
      · exact hset _ _
      · exact hset _ _
      · refine ⟨⟨h.based.init, h.based.active, rfl⟩, fun hr => ?_⟩
        exact absurd (not_not.mp hs) (h.idle hr).state
    case h_3 hc | h_4 hc =>
      rw [hc] at ho
      cases ho
    case h_5 | h_6 => exact hset _ _

/-- Only an active link has its timer started when it is stopped. -/
theorem Sound.stop (h : Sound ls) (env : Env) :
    Sound (stopLs env ls) ∧ (ls.running = true → ls.xidState ≠ .active → (stopLs env ls).retry = false) := by
  unfold stopLs
  split_ifs with hr hx
  · refine ⟨h, fun hrun => ?_⟩
    rw [hrun] at hr
    cases hr
  · refine ⟨⟨⟨h.based.init, h.based.active, rfl⟩, fun _ => ?_⟩, fun _ hn => absurd hx hn⟩
    have ha := h.based.active hx
    refine ⟨?_, .inr (.inr hx), nofun, fun _ => ha⟩
    show ls.state ≠ _
    rw [ha]
    exact nofun
  · have hd : xidDoit env { ls with running := false, xidInput := some .reset } =
        xidInputReset env.own { ls with running := false, xidInput := some .reset } := rfl
    have hb := @Based.reset false { ls with running := false, xidInput := some .reset }
      ⟨h.based.init, h.based.active, rfl⟩ env.own
    rw [hd]
    refine ⟨⟨hb.running.symm ▸ hb, fun _ => idle_reset rfl env.own⟩, fun _ _ => ?_⟩
    obtain ⟨s, i, t, hres⟩ :=
      xidInputReset_eq env.own { ls with running := false, xidInput := some .reset }
    rw [hres, if_neg Bool.false_ne_true]
    rfl

/-- An XID is received, or something else that does not begin the exchange. -/
theorem Sound.set (h : Sound ls) {xidInput : Option XidIn}
    (hi : ls.running = false → xidInput ≠ some .start) (direction : XidDir) (rx : Option Received)
    (sk : Bool) (coStatus : CoStatus) :
    Sound { ls with
      xidInput := xidInput, xidDirection := direction, xidLastRx := rx, llcSk := sk
      coStatus := coStatus } :=
  ⟨⟨h.based.init, h.based.active, rfl⟩, fun hr =>
    ⟨(h.idle hr).state, (h.idle hr).xidState, hi hr, (h.idle hr).timer⟩⟩

theorem xidPktInput_ne_start (r : Received) : xidPktInput r ≠ some .start := by
  unfold xidPktInput
  split_ifs
  · exact nofun
  · split
    · exact nofun
    · split <;> exact nofun
    · split <;> exact nofun
    · exact nofun

theorem Sound.connectIn (h : Sound ls) {env : Env}
    (hm : ∀ m ∈ (if ls.state = .defined then none else some { ls with retry := false } : Option Ls),
      m.running = false → m.xidState = .reset → ∀ input ∈ m.xidInput, input.isXid = false) :
    Sound (connectIn env ls) := by
  have h' : Sound { ls with retry := false } :=
    ⟨⟨h.based.init, h.based.active, rfl⟩, fun hr =>
      ⟨(h.idle hr).state, (h.idle hr).xidState, (h.idle hr).input, nofun⟩⟩
  unfold Cs.connectIn
  dsimp only
  split_ifs at hm ⊢ with hd
  · exact h'
  · exact h'.doit (hm _ rfl) env

theorem Sound.handle (h : Sound ls) {env : Env} {e : Event} (hm : Meets ls e) {ls' : Ls}
    (hs : handle ls (env, e) = some ls') : Sound ls' := by
  have hxid := hm.xid
  cases e with
  | startLs =>
    dsimp only [called] at hxid
    obtain rfl := Option.some.inj hs
    unfold startLs
    split_ifs at hxid ⊢ with hc
    · exact h
    · refine Sound.connectOut ?_ hxid env
      refine ⟨⟨h.based.init, fun hx => ?_, rfl⟩, fun h => by cases h⟩
      have hd : ls.state = .defined := not_not.mp (not_or.mp hc).1
      cases hd.symm.trans (h.based.active hx)
  | stopLs =>
    obtain rfl := Option.some.inj hs
    exact (h.stop env).1
  | activateRoute =>
    dsimp only [called] at hxid
    obtain rfl := Option.some.inj hs
    unfold activateRoute
    split_ifs at hxid ⊢ with hc
    · exact h
    · exact h.connectOut hxid env
  | retry =>
    obtain ⟨-, rfl⟩ : ls.retry = true ∧ Cs.connectOut env ls = ls' := by simpa [Cs.handle] using hs
    exact h.connectOut hxid env
  | indTestRsp =>
    dsimp only [called] at hxid
    obtain rfl := Option.some.inj hs
    refine Sound.connectOut ?_ hxid env
    exact h.set (fun hr => (h.idle hr).input) _ _ _ _
  | indXidCmd r =>
    obtain rfl := Option.some.inj hs
    refine Sound.connectIn ?_ hxid
    refine h.set ?_ _ _ _ _
    exact fun _ => xidPktInput_ne_start r
  | indXidRsp r =>
    obtain rfl := Option.some.inj hs
    refine Sound.connectOut ?_ hxid env
    refine h.set ?_ _ _ _ _
    exact fun _ => xidPktInput_ne_start r
  | indConn =>
    obtain rfl := Option.some.inj hs
    refine Sound.connectOut ?_ hxid env
    refine h.set ?_ _ _ _ _
    exact fun _ h => by cases h
  | indDisc =>
    obtain rfl := Option.some.inj hs
    refine Sound.connectIn ?_ hxid
    refine h.set ?_ _ _ _ _
    exact fun _ h => by cases h
  | confConn ok =>
    obtain rfl := Option.some.inj hs
    refine h.set (fun _ => ?_) _ _ _ _
    cases ok <;> exact fun h => by cases h
  | connectFinish =>
    dsimp only [called] at hxid
    obtain rfl := Option.some.inj hs
    unfold xidOutputConnectFinish
    split_ifs at hxid ⊢ with hc
    · refine Sound.doit ?_ (hxid _ rfl) env
      exact h.set (fun hr => (h.idle hr).input) _ _ _ _
    · exact h
  | confDisc =>
    obtain rfl := Option.some.inj hs
    refine Sound.connectOut ?_ hxid env
    refine h.set ?_ _ _ _ _
    exact fun _ h => by cases h

/-- No event adds the timer while it is pending. -/
theorem Sound.timed (h : Sound ls) {env : Env} {e : Event} (hm : Meets ls e) {ls' : Ls}
    (hs : Cs.handle ls (env, e) = some ls') : Timed (eventOps ls (env, e)) ls ls' := by
  have hout (l : Ls) (hi : l.xidInitMethod = .null) :
      Timed (connectOutOps (doitOps env) l) l (Cs.connectOut env l) := by
    refine timed_connectOut fun l' hr ho => ?_
    obtain ⟨_, _, rfl⟩ := outCalled_eq ho
    refine timed_doit ?_ (.inl hr) env
    exact hi
  have hin (l : Ls) (hi : l.xidInitMethod = .null) :
      Timed (connectInOps env l) l (Cs.connectIn env l) := by
    unfold Timed connectInOps Cs.connectIn
    rw [runTimer_del]
    dsimp only
    split_ifs
    · rfl
    · exact @timed_doit { l with retry := false } hi (.inl rfl) env
  have hi := h.based.init
  cases e with
  | startLs =>
    obtain rfl := Option.some.inj hs
    unfold eventOps startLs
    dsimp only
    split_ifs
    · exact .of_nil rfl
    · exact hout _ hi
  | stopLs =>
    obtain rfl := Option.some.inj hs
    unfold eventOps stopLsOps stopLs
    dsimp only
    split_ifs with hr hx
    · exact .of_nil rfl
    · have hp := hm.stop rfl (by simpa using hr) hx
      unfold Timed
      rw [hp]
      rfl
    · exact @timed_doit { ls with running := false, xidInput := some .reset } hi (.inr (.inr rfl)) env
  | activateRoute =>
    obtain rfl := Option.some.inj hs
    unfold eventOps activateRoute
    dsimp only
    split_ifs
    · exact .of_nil rfl
    · exact hout _ hi
  | retry =>
    obtain ⟨-, rfl⟩ : ls.retry = true ∧ Cs.connectOut env ls = ls' := by simpa [Cs.handle] using hs
    exact hout _ hi
  | indTestRsp =>
    obtain rfl := Option.some.inj hs
    exact hout { ls with coStatus := .rTestR } hi
  | indXidCmd r =>
    obtain rfl := Option.some.inj hs
    exact hin { ls with
      xidInput := xidPktInput r, xidDirection := .inbound, xidLastRx := some r } hi
  | indXidRsp r =>
    obtain rfl := Option.some.inj hs
    exact hout { ls with
      xidInput := xidPktInput r, xidDirection := .inbound, xidLastRx := some r } hi
  | indConn =>
    obtain rfl := Option.some.inj hs
    exact hout { ls with llcSk := true, xidInput := some .setmode, xidDirection := .inbound } hi
  | indDisc =>
    obtain rfl := Option.some.inj hs
    exact hin { ls with xidInput := some .reset, xidDirection := .inbound } hi
  | confDisc =>
    obtain rfl := Option.some.inj hs
    exact hout { ls with xidInput := some .reset } hi
  | confConn ok =>
    obtain rfl := Option.some.inj hs
    exact .of_nil rfl
  | connectFinish =>
    obtain rfl := Option.some.inj hs
    unfold eventOps xidOutputConnectFinish
    dsimp only
    split_ifs with hc
    · exact @timed_doit { ls with xidDirection := .outbound } hi (.inr (.inl hc.1)) env
    · exact .of_nil rfl

end

/-! ## The ports -/

/-- What may happen: a link station that is deleted is to run and is not active, or its timer is
not pending. -/
def PortsMeets (k : Ports) : PortsEvent → Prop
  | .define .. => True
  | .delete i _ => ∀ ls ∈ k.stations[i]?,
      if ls.running then ls.xidState ≠ .active else ls.retry = false
  | .station i e => ∀ ls ∈ k.stations[i]?, Meets ls e.2

instance : ∀ k e, Decidable (PortsMeets k e)
  | _, .define .. => .isTrue trivial
  | k, .delete i _ => inferInstanceAs (Decidable (∀ ls ∈ k.stations[i]?,
      if ls.running then ls.xidState ≠ .active else ls.retry = false))
  | k, .station i e => inferInstanceAs (Decidable (∀ ls ∈ k.stations[i]?, Meets ls e.2))

/-- No step adds a timer that is pending. -/
def Disciplined (k : Ports) (e : PortsEvent) : Prop :=
  ∀ c ∈ k.ops e, runTimer c.1.retry c.2 ≠ none

/-- Every timer that is pending is that of a link station in a list, which is to run or is active. -/
structure Accounted (k : Ports) : Prop where
  freed : k.freed = []
  stopped : ∀ ls ∈ k.stations, ls.running = false → ls.state ≠ .active → ls.retry = false

/-- The invariant: all link stations are sound, and none was freed with its timer pending. -/
structure AllSound (k : Ports) : Prop where
  freed : k.freed = []
  stations : ∀ ls ∈ k.stations, Sound ls

theorem AllSound.accounted {k : Ports} (h : AllSound k) : Accounted k := by
  refine ⟨h.freed, fun ls hl hr hs => ?_⟩
  by_contra hp
  exact hs (((h.stations ls hl).idle hr).timer (by simpa using hp))

theorem sound_defineLs (cfg : LsCfg) (nodeid : UInt32) (networkNode : Bool) (portIndex index : UInt32) :
    Sound (defineLs cfg nodeid networkNode portIndex index) :=
  ⟨⟨rfl, nofun, rfl⟩, fun _ => ⟨nofun, .inl rfl, nofun, nofun⟩⟩

/-- A link station that may be deleted is freed with its timer not pending. -/
theorem Sound.deleted {ls : Ls} (h : Sound ls)
    (hm : if ls.running then ls.xidState ≠ .active else ls.retry = false) (env : Env) :
    (stopLs env ls).retry = false := by
  by_cases hr : ls.running = true
  · rw [if_pos hr] at hm
    exact (h.stop env).2 hr hm
  · rw [if_neg hr] at hm
    unfold stopLs
    rw [if_pos (by simpa using hr)]
    exact hm

theorem AllSound.step {k k' : Ports} {e : PortsEvent} (h : AllSound k) (hm : PortsMeets k e)
    (hs : k.step e = some k') : AllSound k' := by
  cases e with
  | define cfg nodeid networkNode portIndex index =>
    obtain rfl := Option.some.inj hs
    refine ⟨h.freed, fun ls hl => ?_⟩
    rcases List.mem_append.mp hl with hl | hl
    · exact h.stations ls hl
    · rw [List.mem_singleton.mp hl]
      exact sound_defineLs ..
  | delete i env =>
    obtain ⟨ls, hl, rfl⟩ := Option.map_eq_some_iff.mp hs
    have hd := (h.stations ls (List.mem_of_getElem? hl)).deleted (hm ls hl) env
    refine ⟨?_, fun l hl => h.stations l (List.mem_of_mem_eraseIdx hl)⟩
    dsimp only
    rw [hd]
    exact h.freed
  | station i e =>
    obtain ⟨ls, hl, hs⟩ := Option.bind_eq_some_iff.mp hs
    obtain ⟨ls', hls, hs⟩ := Option.bind_eq_some_iff.mp hs
    obtain rfl := Option.some.inj hs
    refine ⟨h.freed, fun l hmem => ?_⟩
    rcases List.mem_or_eq_of_mem_set hmem with hmem | rfl
    · exact h.stations l hmem
    · exact (h.stations ls (List.mem_of_getElem? hl)).handle (hm ls hl) hls

theorem AllSound.disciplined {k k' : Ports} {e : PortsEvent} (h : AllSound k) (hm : PortsMeets k e)
    (hs : k.step e = some k') : Disciplined k e := by
  intro c hc
  cases e with
  | define => cases hc
  | delete i env =>
    obtain ⟨ls, hl, rfl⟩ := Option.map_eq_some_iff.mp hc
    have hmeets : Meets ls .stopLs := by
      refine ⟨fun _ hr hx => ?_, fun l hl hr hx input hi => ?_⟩
      · have hd := hm ls hl
        rw [if_pos hr] at hd
        exact absurd hx hd
      · dsimp only [called] at hl
        split_ifs at hl
        · cases hl
        · obtain rfl := Option.some.inj hl
          obtain rfl := Option.some.inj hi
          rfl
    have ht : Timed (eventOps ls (env, .stopLs)) ls (stopLs env ls) :=
      (h.stations ls (List.mem_of_getElem? hl)).timed hmeets rfl
    exact ht.symm ▸ Option.some_ne_none _
  | station i e =>
    obtain ⟨ls, hl, rfl⟩ := Option.map_eq_some_iff.mp hc
    obtain ⟨ls₁, hl₁, hs⟩ := Option.bind_eq_some_iff.mp hs
    obtain ⟨ls', hls, -⟩ := Option.bind_eq_some_iff.mp hs
    obtain rfl := Option.some.inj (hl₁.symm.trans hl)
    have ht : Timed (eventOps ls₁ e) ls₁ ls' :=
      (h.stations ls₁ (List.mem_of_getElem? hl)).timed (hm ls₁ hl) hls
    exact ht.symm ▸ Option.some_ne_none _

/-- A step that happens is disciplined. -/
def Right (k : Ports) (e : PortsEvent) : Prop := (k.step e).isSome → Disciplined k e

/-- In every run in which link stations are only deleted and stopped with their timer not pending
or about to be cleared, and those that are stopped are sent no XIDs, no timer is added while it is
pending, and at all times every pending timer is accounted for. -/
theorem timer_discipline (es : List PortsEvent) (hm : Along Ports.step PortsMeets {} es) :
    Along Ports.step Right {} es ∧ Always Ports.step Accounted {} es := by
  have hstep (k : Ports) (e : PortsEvent) (k' : Ports) (h : AllSound k) (hm : PortsMeets k e)
      (hs : k.step e = some k') : AllSound k' := h.step hm hs
  have hstart : AllSound {} := ⟨rfl, fun ls hl => absurd hl List.not_mem_nil⟩
  have hright (k : Ports) (e : PortsEvent) (h : AllSound k) (hm : PortsMeets k e) : Right k e := by
    intro hs
    obtain ⟨k', hs⟩ := Option.isSome_iff_exists.mp hs
    exact h.disciplined hm hs
  constructor
  · exact along_of_invariant hstep hright hstart hm
  · exact always_of_invariant hstep (fun k h => h.accounted) hstart hm

/-! ## Two runs -/

/-- A primary in both directions -/
def timedCfg : LsCfg := ⟨.pri, .dirBoth, true, 3, 0, ⟨[], []⟩, ⟨[], []⟩⟩

/-- An XID of a secondary -/
def secondaryXid (state : XchgState) : Received :=
  ⟨false, { xidPktInit (defineLs timedCfg 2 false 1 1) with state := state, lsRole := .sec }⟩

def atStation (e : Event) : PortsEvent := .station 0 ({}, e)

/-- A link station is defined and started, and its link becomes active. -/
def activation : List PortsEvent :=
  [.define timedCfg 1 false 1 1, atStation .startLs, atStation (.indXidCmd (secondaryXid .pn)),
    atStation (.indXidCmd (secondaryXid .pn)), atStation (.indXidCmd (secondaryXid .neg)),
    atStation (.confConn true), atStation .connectFinish]

/-- The link is stopped and disconnected, and then the link station is deleted. -/
def orderlyEnd : List PortsEvent :=
  activation ++ [atStation .stopLs, atStation .confDisc, .delete 0 {}]

/-- The link station is deleted at once. -/
def hastyEnd : List PortsEvent := activation ++ [.delete 0 {}]

theorem timer_discipline_orderly :
    Along Ports.step Right {} orderlyEnd ∧ Always Ports.step Accounted {} orderlyEnd :=
  timer_discipline orderlyEnd (by decide +kernel)

/-- The link station is freed with the timer pending that `sna_cs_stop_ls_gen` has added. -/
theorem timer_freed : ¬ Always Ports.step Accounted {} hastyEnd := by
  intro h
  have hrun : ((run Ports.step {} hastyEnd).map fun k => (k.stations.length, k.freed.length)) =
      some (0, 1) := by decide +kernel
  obtain ⟨k, hk, hc⟩ := Option.map_eq_some_iff.mp hrun
  have hf := congrArg List.length (h.run hk).freed
  rw [(Prod.mk.inj hc).2] at hf
  cases hf

end LinuxSna.Cs
