import LinuxSna.Framework.Run
import LinuxSna.Proof.Sna.Cs.Activation
import LinuxSna.Proof.Sna.Cs.Calls
import LinuxSna.Proof.Sna.Cs.Exchange

/-!
# The retry limit

`xid_output_resend` counts its retries in a field that a TEST response and the
reset handler clear; reaching the limit runs the reset handler, which begins
anew while the link is to run. `retry_limit`: the images sent again stay within
the limit, and reaching it is the end of the attempt, in every run in which
what clears the count while the station goes on does so before an image was
sent again, and in which the limit is reached only where a reset does not begin
anew (`Steady`).
-/

namespace LinuxSna.Cs

open Framework

/-! ## Attempts -/

/-- The images that `xid_output_resend` has sent -/
def resent (ls : Ls) : Nat := ls.sent.countP Frame.isResent

/-- The timer runs, or there is an XID to send again. -/
def trying (ls : Ls) : Bool := ls.retry || ls.xidLastTx.isSome

/-- When a station stops trying, its next attempt begins with nothing sent. -/
def observe (ls : Ls) : Ls :=
  if trying ls then ls else { ls with sent := [], xidFailed := false }

/-- What follows an event, where only the present attempt is recorded. -/
def attempt (ls : Ls) (e : Env × Event) : Option Ls := (handle ls e).map observe

/-- At most `n` retries: `retry_on_fail` with `retry_times` of `n`, or none. -/
def Retries (n : Nat) (ls : Ls) : Prop :=
  ls.retryOnFail = true ∧ ls.retryTimes = n ∧ 0 < n ∨ ls.retryOnFail = false ∧ n = 0

/-- A defined station: `xid_init_method` is nowhere set. -/
def Configured (n : Nat) (ls : Ls) : Prop := Retries n ls ∧ ls.xidInitMethod = .null

theorem exhausted_eq {n : Nat} {ls : Ls} (h : Configured n ls) :
    exhausted ls = decide (n ≤ ls.retries) := by
  unfold exhausted
  rcases h.1 with ⟨hf, rfl, hn⟩ | ⟨hf, rfl⟩
  · have hne : ls.retryTimes ≠ 0 := by omega
    simp [hf, hne]
  · simp [hf]

/-- A station has made at most `n` retries, has sent `k` images again, and has
reached the limit or not. -/
structure Counted (n k : Nat) (failed : Bool) (ls : Ls) : Prop where
  config : Configured n ls
  retries : ls.retries ≤ n
  coStatus : ls.coStatus ≠ .rTestR
  resent : resent ls = k
  failed : ls.xidFailed = failed

/-- A station that has not reached its limit, and has counted every image it
has sent again. -/
structure Limited (n : Nat) (ls : Ls) : Prop where
  counted : Counted n (resent ls) false ls
  resent : resent ls ≤ ls.retries

theorem Counted.limited {n : Nat} {ls : Ls} (h : Counted n 0 false ls) : Limited n ls where
  counted := ⟨h.config, h.retries, h.coStatus, rfl, h.failed⟩
  resent := by
    rw [h.resent]
    exact Nat.zero_le _

theorem Limited.rest {n : Nat} {ls : Ls} (h : Limited n ls) (h0 : Cs.resent ls = 0) :
    Counted n 0 false ls :=
  ⟨h.counted.config, h.counted.retries, h.counted.coStatus, h0, h.counted.failed⟩

/-- A station that has stopped trying is within the limit of its next attempt. -/
theorem Counted.observe {n k : Nat} {failed : Bool} {ls : Ls} (h : Counted n k failed ls)
    (ht : trying ls = false) : Limited n (observe ls) := by
  unfold Cs.observe
  rw [ht]
  exact Counted.limited ⟨h.config, h.retries, h.coStatus, rfl, rfl⟩

theorem Limited.observe {n : Nat} {ls : Ls} (h : Limited n ls) : Limited n (observe ls) := by
  cases ht : trying ls with
  | true =>
    unfold Cs.observe
    rw [ht]
    exact h
  | false => exact h.counted.observe ht

/-! ## What keeps the counts -/

theorem resent_after (ls : Ls) (δ : Sending) : resent (ls.after δ) = resent ls := by
  have h0 : δ.frames.countP Frame.isResent = 0 :=
    List.countP_eq_zero.mpr fun f hf => by simp [δ.fresh f hf]
  show (ls.sent ++ δ.frames).countP Frame.isResent = _
  rw [List.countP_append, h0]
  rfl

theorem kept_counted (n k : Nat) (failed : Bool) : Kept (Counted n k failed) where
  after δ h := ⟨h.config, h.retries, h.coStatus, (resent_after _ δ).trans h.resent, h.failed⟩
  state _ h := ⟨h.config, h.retries, h.coStatus, h.resent, h.failed⟩
  direction _ h := ⟨h.config, h.retries, h.coStatus, h.resent, h.failed⟩
  renegotiate _ _ _ h := ⟨h.config, h.retries, h.coStatus, h.resent, h.failed⟩

/-- A station with the counts of another is as limited. -/
theorem Limited.same {n : Nat} {ls ls' : Ls} (h : Limited n ls)
    (hc : Counted n (Cs.resent ls) false ls') (hr : ls'.retries = ls.retries) : Limited n ls' := by
  have hk : Cs.resent ls' = Cs.resent ls := hc.resent
  refine ⟨⟨hc.config, hc.retries, hc.coStatus, rfl, hc.failed⟩, ?_⟩
  rw [hk, hr]
  exact h.resent

/-- What an event sets before it calls `xid_doit` leaves the counts alone. -/
theorem Limited.prepared {n : Nat} {ls : Ls} (h : Limited n ls) {state : LsState} {running : Bool}
    {input : Option XidIn} {direction : XidDir} {rx : Option Received} {sk retry : Bool} :
    Limited n { ls with
      state := state, running := running, xidInput := input, xidDirection := direction
      xidLastRx := rx, llcSk := sk, retry := retry } :=
  h.same ⟨h.counted.config, h.counted.retries, h.counted.coStatus, rfl, h.counted.failed⟩ rfl

theorem kept_limited (n : Nat) : Kept (Limited n) where
  after δ h := h.same ((kept_counted n _ false).after δ h.counted) rfl
  state hs h := h.same ((kept_counted n _ false).state hs h.counted) rfl
  direction d h := h.same ((kept_counted n _ false).direction d h.counted) rfl
  renegotiate s i t h := h.same ((kept_counted n _ false).renegotiate s i t h.counted) rfl

theorem Counted.activated {n k : Nat} {failed : Bool} {ls : Ls} (h : Counted n k failed ls)
    (α : Activation) : Counted n k failed (ls.activated α) :=
  ⟨h.config, h.retries, h.coStatus, h.resent, h.failed⟩

/-! ## `sna_cs_connect_out` -/

/-- If `xid_doit` is not called the link is tested, which counts as a retry, or given up. -/
theorem Counted.connectOut_tests {n k : Nat} {failed : Bool} {ls : Ls} (h : Counted n k failed ls)
    (doit : Ls → Ls) (hn : outCalled ls = none) :
    Counted n k failed (connectOutWith doit ls) ∧ ls.retries ≤ (connectOutWith doit ls).retries := by
  have htest (he : exhausted ls = false) : ls.retries + 1 ≤ n := by
    rw [exhausted_eq h.config] at he
    have := of_decide_eq_false he
    omega
  unfold connectOutWith
  dsimp only
  split
  case h_1 hc | h_2 hc =>
    split_ifs with hs he
    · exact ⟨⟨h.config, h.retries, h.coStatus, h.resent, h.failed⟩, Nat.le_refl _⟩
    · exact ⟨⟨h.config, h.retries, nofun, h.resent, h.failed⟩, Nat.le_refl _⟩
    · refine ⟨⟨h.config, htest (Bool.eq_false_iff.mpr he), nofun, ?_, h.failed⟩,
        Nat.le_succ _⟩
      rw [← h.resent]
      show (ls.sent ++ [Frame.test]).countP Frame.isResent = _
      rw [List.countP_append]
      rfl
  case h_3 hc => exact absurd hc h.coStatus
  case h_4 hc =>
    unfold outCalled at hn
    rw [hc] at hn
    cases hn
  case h_5 | h_6 => exact ⟨⟨h.config, h.retries, h.coStatus, h.resent, h.failed⟩, Nat.le_refl _⟩

theorem Counted.called {n k : Nat} {failed : Bool} {ls l : Ls} (h : Counted n k failed ls)
    (hl : outCalled ls = some l) : l = { ls with retry := false } := by
  unfold outCalled at hl
  split at hl
  case h_1 hc => exact absurd hc h.coStatus
  case h_2 => exact (Option.some.inj hl).symm
  all_goals cases hl

/-! ## Resetting -/

/-- A reset begins anew: it tests the link or sends an XID. -/
def Restarts (b : Buffers) (ls : Ls) : Prop :=
  ls.running ∧ (ls.direction = .dirOut ∧ ls.retryOnFail ∨ ls.direction = .dirBoth ∧ b.image)

instance (b : Buffers) (ls : Ls) : Decidable (Restarts b ls) :=
  inferInstanceAs (Decidable (_ ∧ _))

theorem Counted.cleared {n k : Nat} {failed : Bool} {ls : Ls} (h : Counted n k failed ls)
    (s : TgState) (i : TgInput) (t : Nat) : Counted n k failed (ls.cleared s i t) where
  config := h.config
  retries := Nat.zero_le n
  coStatus := by
    show (if ls.direction = .dirOut then CoStatus.reset else .testOk) ≠ .rTestR
    split <;> exact nofun
  resent := h.resent
  failed := h.failed

theorem Counted.reset {n k : Nat} {failed : Bool} {ls : Ls} (h : Counted n k failed ls)
    (b : Buffers) : Counted n k failed (xidInputReset b ls) := by
  obtain ⟨s, i, t, hr⟩ := xidInputReset_eq b ls
  have hc := h.cleared s i t
  rw [hr]
  split
  · generalize hl : ({ ls.cleared s i t with
      state := .activated, xidInput := some .start, xidDirection := .outbound } : Ls) = l
    have hcl : Counted n k failed l := by
      rw [← hl]
      exact ⟨hc.config, hc.retries, hc.coStatus, hc.resent, hc.failed⟩
    cases ho : outCalled l with
    | none => exact (hcl.connectOut_tests _ ho).1
    | some l' =>
      rw [connectOutWith_called _ ho, hcl.called ho]
      apply (kept_counted n k failed).inputBegin b
      exact ⟨hcl.config, hcl.retries, hcl.coStatus, hcl.resent, hcl.failed⟩
  · exact ⟨hc.config, hc.retries, hc.coStatus, hc.resent, hc.failed⟩

/-- What a reset does, in a station whose exchange begins with a null XID. -/
theorem xidInputReset_null (b : Buffers) {ls : Ls} (hi : ls.xidInitMethod = .null) : ∃ s i t,
    let l : Ls := { ls.cleared s i t with
      state := .activated, xidInput := some .start, xidDirection := .outbound }
    xidInputReset b ls =
      if ls.running then
        match ls.direction with
        | .dirOut =>
          if exhausted l then { l with coStatus := .fail }
          else { l with
            retries := 1, coStatus := .sTestC, retry := true, sent := ls.sent ++ [.test] }
        | .dirIn => l
        | .dirBoth => xidOutputNull b l
      else { ls.cleared s i t with state := .defined } := by
  obtain ⟨s, i, t, hr⟩ := xidInputReset_eq b ls
  refine ⟨s, i, t, ?_⟩
  rw [hr]
  cases hd : ls.direction with
  | dirOut => simp [connectOutWith, Ls.cleared, hd]
  | dirIn => simp [connectOutWith, Ls.cleared, xidInputBegin, hd]
  | dirBoth => simp [connectOutWith, Ls.cleared, xidInputBegin, xidOutput, hd, hi]

theorem reset_xidState (b : Buffers) {ls : Ls} (hi : ls.xidInitMethod = .null) :
    (xidInputReset b ls).xidState = .reset := by
  obtain ⟨s, i, t, hr⟩ := xidInputReset_null b hi
  rw [hr]
  split
  · split
    · dsimp only
      split <;> rfl
    · rfl
    · unfold xidOutputNull xidSend
      split <;> rfl
  · rfl

/-- A reset that does not begin anew is the end of the attempt. -/
theorem reset_stops {b : Buffers} {ls : Ls} (hi : ls.xidInitMethod = .null)
    (h : ¬ Restarts b ls) : trying (xidInputReset b ls) = false := by
  obtain ⟨s, i, t, hr⟩ := xidInputReset_null b hi
  unfold Restarts at h
  by_cases hrun : ls.running
  · rw [hr, if_pos hrun]
    cases hd : ls.direction with
    | dirOut =>
      have hf : ls.retryOnFail = false := by simpa [hrun, hd] using h
      have he : exhausted { ls.cleared s i t with
          state := .activated, xidInput := some .start, xidDirection := .outbound } = true := by
        simp [exhausted, Ls.cleared, hf]
      dsimp only
      rw [if_pos he]
      rfl
    | dirIn => rfl
    | dirBoth =>
      have hb : b.image = false := by simpa [hrun, hd] using h
      unfold xidOutputNull xidSend
      dsimp only
      rw [hb]
      rfl
  · rw [hr, if_neg hrun]
    rfl

/-! ## Every input -/

/-- The resending of an XID reaches the retry limit. -/
def Exhausts (env : Env) (ls : Ls) : Prop :=
  ls.xidLastTx ≠ none ∧ env.own.copy ∧ ls.state = .activated ∧ exhausted ls

/-- What clears the count of the retries while the station goes on does so
before an image was sent again, and reaching the limit is the end. -/
structure Steady (env : Env) (ls : Ls) : Prop where
  reset : ls.xidInput = some .reset → Restarts env.own ls → resent ls = 0
  setmode : ls.xidInput = some .setmode →
    ls.xidState = .reset ∨ ls.xidState = .sPn ∨ ls.xidState = .sNeg ∨ ls.xidState = .sSec →
    ¬ SupriseActivates env ls → resent ls = 0
  limit : ls.xidInput.any (Resends · ls.xidState) → Exhausts env ls → ¬ Restarts env.reset ls

instance (env : Env) (ls : Ls) : Decidable (Exhausts env ls) :=
  inferInstanceAs (Decidable (_ ∧ _))

instance (env : Env) (ls : Ls) : Decidable (Steady env ls) :=
  decidable_of_iff (_ ∧ _ ∧ _)
    ⟨fun h => ⟨h.1, h.2.1, h.2.2⟩, fun h => ⟨h.reset, h.setmode, h.limit⟩⟩

theorem Limited.resend {n : Nat} {ls : Ls} (h : Limited n ls) (env : Env)
    (hl : Exhausts env ls → ¬ Restarts env.reset ls) :
    Limited n (Cs.observe (xidOutputResend env ls)) := by
  unfold xidOutputResend
  split
  · exact h.observe
  · rename_i image hx
    split_ifs with hcopy hstate he
    · exact h.observe
    · exact h.observe
    · have hr : ¬ Restarts env.reset { ls with xidInput := some .reset, xidFailed := true } := by
        refine hl ⟨?_, by simpa using hcopy, not_not.mp hstate, he⟩
        rw [hx]
        exact nofun
      have hc : Counted n (Cs.resent ls) true
          { ls with xidInput := some .reset, xidFailed := true } :=
        ⟨h.counted.config, h.counted.retries, h.counted.coStatus, rfl, rfl⟩
      exact (hc.reset env.reset).observe (reset_stops hc.config.2 hr)
    · rw [exhausted_eq h.counted.config] at he
      have hlt : ls.retries < n := by simpa using he
      have hk : Cs.resent { ls with
          retries := ls.retries + 1
          retry := true
          sent := ls.sent ++ [.xid ls.xidLastTxDirection image true] } = Cs.resent ls + 1 := by
        show (ls.sent ++ [_]).countP Frame.isResent = _
        rw [List.countP_append]
        rfl
      refine Limited.observe ⟨⟨h.counted.config, hlt, h.counted.coStatus, rfl, h.counted.failed⟩, ?_⟩
      rw [hk]
      exact Nat.succ_le_succ h.resent

theorem Limited.activated {n : Nat} {ls : Ls} (h : Limited n ls) (α : Activation) :
    Limited n (ls.activated α) :=
  h.same (h.counted.activated α) rfl

theorem Limited.outputErrOpt {n : Nat} {ls : Ls} (h : Limited n ls) (env : Env)
    (hx : ls.xidState ≠ .active) (h0 : ¬ SupriseActivates env ls → Cs.resent ls = 0) :
    Limited n (xidOutputErrOpt env ls) := by
  have hiff := xidSupriseSrnm_fst env hx
  obtain ⟨α, hα⟩ := xidSupriseSrnm_eq env ls
  unfold xidOutputErrOpt
  split
  · rename_i ls' hp
    rw [hp] at hα
    subst hα
    exact h.activated α
  · rename_i ls' hp
    rw [hp] at hα hiff
    subst hα
    have hc : Counted n 0 false (ls.activated α) :=
      (h.rest (h0 fun hs => nomatch hiff.mpr hs)).activated α
    obtain ⟨s, i, t, htg⟩ := tgNegotiate_eq { ls.activated α with tgInput := .reset }
    rw [htg]
    generalize hl : ({ ls.activated α with
      tgState := s, tgInput := i, effectiveTg := t, xidInput := some .reset } : Ls) = l
    have hcl : Counted n 0 false l := by
      rw [← hl]
      exact ⟨hc.config, hc.retries, hc.coStatus, hc.resent, hc.failed⟩
    have hr := (hcl.reset env.reset).limited
    have hs := reset_xidState env.reset hcl.config.2
    refine (kept_limited n).inputPn (fun _ => id) env ?_ fun hpn => ?_
    · exact hr.prepared
    · simp only [hs] at hpn
      cases hpn

theorem Limited.inputSetmode {n : Nat} {ls : Ls} (h : Limited n ls) (env : Env)
    (h0 : ls.xidState = .reset ∨ ls.xidState = .sPn ∨ ls.xidState = .sNeg ∨ ls.xidState = .sSec →
      ¬ SupriseActivates env ls → Cs.resent ls = 0) :
    Limited n (xidInputSetmode env ls) := by
  have herr (hx : ls.xidState = .reset ∨ ls.xidState = .sPn ∨ ls.xidState = .sNeg ∨
      ls.xidState = .sSec) : Limited n { xidOutputErrOpt env ls with xidState := .rPriSSec } := by
    refine (kept_limited n).state nofun (h.outputErrOpt env ?_ (h0 hx))
    rcases hx with hx | hx | hx | hx <;> rw [hx] <;> exact nofun
  unfold xidInputSetmode
  split
  case h_1 hx => exact herr (.inl hx)
  case h_2 hx => exact herr (.inr (.inl hx))
  case h_3 hx => exact herr (.inr (.inr (.inl hx)))
  case h_4 hx => exact herr (.inr (.inr (.inr hx)))
  case h_5 | h_6 => exact (kept_limited n).output env.own .z2 nofun h
  case h_7 =>
    obtain ⟨α, hα⟩ := xidInputActive_eq env
      { ls with xidInput := some .active, xidDirection := .inbound }
    rw [hα]
    exact h.prepared.activated α
  case h_8 => exact h

/-- Every input keeps a station within its limit, where it is steady. -/
theorem Limited.doit {n : Nat} {ls : Ls} (h : Limited n ls) {env : Env} (hs : Steady env ls) :
    Limited n (Cs.observe (xidDoit env ls)) := by
  have hk := kept_limited n
  unfold xidDoit
  split
  case h_1 => exact (hk.inputBegin env.own h).observe
  case h_2 hi =>
    refine hk.inputNull (fun _ => observe) env h fun hr => h.resend env (hs.limit ?_)
    rw [hi]
    exact hr
  case h_3 hi =>
    refine hk.inputPn (fun _ => observe) env h fun hr => h.resend env (hs.limit ?_)
    rw [hi]
    exact hr
  case h_4 hi =>
    refine hk.inputNeg (fun _ => observe) env h fun hr => h.resend env (hs.limit ?_)
    rw [hi]
    exact hr
  case h_5 => exact (hk.inputPri env h).observe
  case h_6 => exact (hk.inputSec env h).observe
  case h_7 hi => exact (h.inputSetmode env (hs.setmode hi)).observe
  case h_8 =>
    obtain ⟨α, hα⟩ := xidInputActive_eq env ls
    rw [hα]
    exact (h.activated α).observe
  case h_9 hi =>
    by_cases hr : Restarts env.own ls
    · exact ((h.rest (hs.reset hi hr)).reset env.own).limited.observe
    · exact (h.counted.reset env.own).observe (reset_stops h.counted.config.2 hr)
  case h_10 => exact h.observe

/-! ## Every event -/

/-- An event is steady: a response to a TEST clears the count before an image
was sent again, and where the event calls `xid_doit` the station is steady. -/
def SteadyEvent (ls : Ls) (e : Env × Event) : Prop :=
  (e.2 = .indTestRsp → resent ls = 0) ∧ ∀ l ∈ called ls e.2, Steady e.1 l

instance (ls : Ls) (e : Env × Event) : Decidable (SteadyEvent ls e) :=
  inferInstanceAs (Decidable (_ ∧ _))

theorem Limited.connectOut {n : Nat} {ls : Ls} (h : Limited n ls) {env : Env}
    (hs : ∀ l, outCalled ls = some l → Steady env l) : Limited n (Cs.observe (connectOut env ls)) := by
  unfold Cs.connectOut
  cases ho : outCalled ls with
  | none =>
    obtain ⟨hc, hr⟩ := h.counted.connectOut_tests (xidDoit env) ho
    refine Limited.observe ⟨⟨hc.config, hc.retries, hc.coStatus, rfl, hc.failed⟩, ?_⟩
    rw [hc.resent]
    exact Nat.le_trans h.resent hr
  | some l =>
    rw [connectOutWith_called _ ho]
    refine Limited.doit ?_ (hs l ho)
    rw [h.counted.called ho]
    exact h.prepared

theorem Limited.connectIn {n : Nat} {ls : Ls} (h : Limited n ls) {env : Env}
    (hs : ls.state ≠ .defined → Steady env { ls with retry := false }) :
    Limited n (Cs.observe (connectIn env ls)) := by
  unfold Cs.connectIn
  dsimp only
  split
  · exact h.prepared.observe
  · rename_i hd
    exact h.prepared.doit (hs hd)

/-- A response to a TEST clears the count. -/
theorem Limited.indTestRsp {n : Nat} {ls : Ls} (h : Limited n ls) (h0 : Cs.resent ls = 0) {env : Env}
    (hs : ∀ l, outCalled { ls with coStatus := .rTestR } = some l → Steady env l) :
    Limited n (Cs.observe (indTestRsp env ls)) := by
  have hc := h.rest h0
  refine Limited.doit ?_ (hs _ rfl)
  exact Counted.limited ⟨hc.config, Nat.zero_le n, nofun, hc.resent, hc.failed⟩

/-- Every steady event keeps a station within its limit. -/
theorem Limited.attempt {n : Nat} {ls ls' : Ls} (h : Limited n ls) {e : Env × Event}
    (he : SteadyEvent ls e) (ha : attempt ls e = some ls') : Limited n ls' := by
  obtain ⟨env, e⟩ := e
  obtain ⟨h0, hs⟩ := he
  obtain ⟨l, hl, rfl⟩ := Option.map_eq_some_iff.mp ha
  cases e with
  | startLs =>
    obtain rfl := Option.some.inj hl
    unfold Cs.startLs
    split_ifs with hc
    · exact h.observe
    · exact h.prepared.connectOut fun l hl => hs l ((if_neg hc).trans hl)
  | stopLs =>
    obtain rfl := Option.some.inj hl
    unfold Cs.stopLs
    split_ifs with hr hx
    · exact h.observe
    · exact h.prepared.observe
    · exact h.prepared.doit (hs _ (if_neg (not_or.mpr ⟨hr, hx⟩)))
  | activateRoute =>
    obtain rfl := Option.some.inj hl
    unfold Cs.activateRoute
    split_ifs with hc
    · exact h.observe
    · exact h.connectOut fun l hl => hs l ((if_neg hc).trans hl)
  | retry =>
    obtain ⟨-, rfl⟩ : ls.retry = true ∧ Cs.connectOut env ls = l := by simpa [handle] using hl
    exact h.connectOut hs
  | indTestRsp =>
    obtain rfl := Option.some.inj hl
    exact h.indTestRsp (h0 rfl) hs
  | indXidCmd r =>
    obtain rfl := Option.some.inj hl
    exact h.prepared.connectIn fun hd => hs _ (if_neg hd)
  | indXidRsp r =>
    obtain rfl := Option.some.inj hl
    exact h.prepared.connectOut hs
  | indConn =>
    obtain rfl := Option.some.inj hl
    exact h.prepared.connectOut hs
  | indDisc =>
    obtain rfl := Option.some.inj hl
    exact h.prepared.connectIn fun hd => hs _ (if_neg hd)
  | confConn ok =>
    obtain rfl := Option.some.inj hl
    exact h.prepared.observe
  | connectFinish =>
    obtain rfl := Option.some.inj hl
    unfold Cs.xidOutputConnectFinish
    split_ifs with hc
    · exact h.prepared.doit (hs _ (if_pos hc))
    · exact h.observe
  | confDisc =>
    obtain rfl := Option.some.inj hl
    exact h.prepared.connectOut hs

theorem limited_defineLs {n : Nat} {cfg : LsCfg} {nodeid : UInt32} {networkNode : Bool}
    {portIndex index : UInt32} (h : Retries n (defineLs cfg nodeid networkNode portIndex index)) :
    Limited n (defineLs cfg nodeid networkNode portIndex index) := by
  refine Counted.limited ⟨⟨h, rfl⟩, Nat.zero_le n, ?_, rfl, rfl⟩
  show (if cfg.direction = .dirOut then CoStatus.reset else .testOk) ≠ .rTestR
  split <;> exact nofun

/-- In a run of steady events from the definition of a station, an attempt sends
at most `n` images again, and reaching the limit is the end of it. -/
theorem retry_limit (n : Nat) (cfg : LsCfg) (nodeid : UInt32) (networkNode : Bool)
    (portIndex index : UInt32) (hn : Retries n (defineLs cfg nodeid networkNode portIndex index))
    (es : List (Env × Event))
    (hes : Along attempt SteadyEvent (defineLs cfg nodeid networkNode portIndex index) es) (ls : Ls)
    (h : run attempt (defineLs cfg nodeid networkNode portIndex index) es = some ls) :
    resent ls ≤ n ∧ ls.xidFailed = false := by
  have hl : Limited n ls :=
    run_invariant (fun _ _ _ hl he ha => Limited.attempt hl he ha) (limited_defineLs hn) hes h
  exact ⟨Nat.le_trans hl.resent hl.counted.retries, hl.counted.failed⟩

/-- A station of the negotiable role with one retry -/
def retryCfg (direction : LsDir) : LsCfg := ⟨.neg, direction, true, 1, 0, ⟨[], []⟩, ⟨[], []⟩⟩

/-- A prenegotiation XID and two null XIDs, on each of which it is to be sent again -/
def nullXids : List (Env × Event) :=
  let xid : Xid3 := { xidPktInit (defineLs (retryCfg .dirBoth) 1 false 1 1) with state := .pn }
  [({}, .indXidCmd ⟨false, xid⟩), ({}, .indXidCmd ⟨true, xid⟩), ({}, .indXidCmd ⟨true, xid⟩)]

/-- A station that only waits for the partner reaches its limit, and begins
another attempt on the next XID. -/
theorem retry_limit_waiting : ∃ ls,
    run attempt (defineLs (retryCfg .dirIn) 1 false 1 1) (({}, .startLs) :: nullXids ++ nullXids) =
      some ls ∧ resent ls ≤ 1 ∧ ls.xidFailed = false := by
  obtain ⟨ls, hls⟩ := Option.isSome_iff_exists.mp (show (run attempt
    (defineLs (retryCfg .dirIn) 1 false 1 1) (({}, .startLs) :: nullXids ++ nullXids)).isSome by
      decide +kernel)
  exact ⟨ls, hls, retry_limit 1 (retryCfg .dirIn) 1 false 1 1 (by unfold Retries; decide +kernel) _
    (by decide +kernel) ls hls⟩

/-- A station that may begin by itself reaches its limit of one retry, begins
anew and sends a second image again. It is never active. -/
theorem retry_limit_exceeded :
    Always attempt (fun ls => ls.state ≠ .active ∧ ls.xidState ≠ .active)
      (defineLs (retryCfg .dirBoth) 1 false 1 1) (({}, .startLs) :: nullXids ++ nullXids) ∧
    ((run attempt (defineLs (retryCfg .dirBoth) 1 false 1 1)
      (({}, .startLs) :: nullXids ++ nullXids)).map fun ls => (resent ls, ls.xidFailed)) =
        some (2, true) := by
  decide +kernel

end LinuxSna.Cs
