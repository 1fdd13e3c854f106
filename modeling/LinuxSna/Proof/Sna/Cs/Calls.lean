import LinuxSna.Impl.Sna.Cs.Dlc

/-!
# What an event does

An event calls `xid_doit` in a station in which little has been set (`called_eq`), or
does not call it and sets no more than that (`handle_eq`).
-/

namespace LinuxSna.Cs

/-! ## `sna_cs_connect_out` -/

theorem connectOutWith_called (doit : Ls → Ls) {ls l : Ls} (h : outCalled ls = some l) :
    connectOutWith doit ls = doit l := by
  unfold outCalled at h
  unfold connectOutWith
  split at h
  case h_1 hc => rw [← Option.some.inj h]; simp only [hc]
  case h_2 hc => rw [← Option.some.inj h]; simp only [hc]
  all_goals cases h

/-! ## Every event -/

/-- What an event may set. -/
structure Setting where
  state : LsState
  running : Bool
  xidInput : Option XidIn
  xidDirection : XidDir
  xidLastRx : Option Received
  llcSk : Bool
  retry : Bool
  retries : Nat
  coStatus : CoStatus
  sent : List Frame

def Ls.set (ls : Ls) (σ : Setting) : Ls :=
  { ls with
    state := σ.state
    running := σ.running
    xidInput := σ.xidInput
    xidDirection := σ.xidDirection
    xidLastRx := σ.xidLastRx
    llcSk := σ.llcSk
    retry := σ.retry
    retries := σ.retries
    coStatus := σ.coStatus
    sent := σ.sent }

/-- Nothing is set. -/
def Ls.setting (ls : Ls) : Setting where
  state := ls.state
  running := ls.running
  xidInput := ls.xidInput
  xidDirection := ls.xidDirection
  xidLastRx := ls.xidLastRx
  llcSk := ls.llcSk
  retry := ls.retry
  retries := ls.retries
  coStatus := ls.coStatus
  sent := ls.sent

/-- The link station is active if it was. -/
def Setting.Holds (σ : Setting) (ls : Ls) : Prop :=
  σ.state = ls.state ∨ ls.state = .defined ∧ σ.state = .activated

theorem outCalled_eq {ls l : Ls} (h : outCalled ls = some l) : ∃ coStatus retries,
    l = { ls with retry := false, coStatus := coStatus, retries := retries } := by
  unfold outCalled at h
  split at h
  case h_1 => exact ⟨_, _, (Option.some.inj h).symm⟩
  case h_2 => exact ⟨_, _, (Option.some.inj h).symm⟩
  all_goals cases h

/-- Otherwise the link may be tested. -/
theorem connectOutWith_quiet (doit : Ls → Ls) {ls : Ls} (h : outCalled ls = none) :
    ∃ retry retries coStatus sent, connectOutWith doit ls =
      { ls with retry := retry, retries := retries, coStatus := coStatus, sent := sent } ∧
      (sent = ls.sent ∨ sent = ls.sent ++ [.test]) := by
  unfold outCalled at h
  unfold connectOutWith
  dsimp only
  split
  case h_1 | h_2 =>
    split_ifs
    · exact ⟨_, _, _, _, rfl, .inl rfl⟩
    · exact ⟨_, _, _, _, rfl, .inl rfl⟩
    · exact ⟨_, _, _, _, rfl, .inr rfl⟩
  case h_3 hc | h_4 hc =>
    rw [hc] at h
    cases h
  case h_5 | h_6 => exact ⟨_, _, _, _, rfl, .inl rfl⟩

/-- What is set of a link station when it is prepared for an event. -/
def prepared (ls : Ls) : Event → Setting
  | .startLs => { ls.setting with
      state := .activated, running := true, xidInput := some .start, xidDirection := .outbound }
  | .stopLs => { ls.setting with running := false, xidInput := some .reset }
  | .activateRoute | .retry => ls.setting
  | .indTestRsp => { ls.setting with coStatus := .rTestR }
  | .indXidCmd r | .indXidRsp r => { ls.setting with
      xidInput := xidPktInput r, xidDirection := .inbound, xidLastRx := some r }
  | .indConn => { ls.setting with
      llcSk := true, xidInput := some .setmode, xidDirection := .inbound }
  | .indDisc => { ls.setting with xidInput := some .reset, xidDirection := .inbound }
  | .confConn ok => { ls.setting with
      llcSk := ok, xidInput := some (if ok then .active else .reset) }
  | .connectFinish => { ls.setting with xidDirection := .outbound }
  | .confDisc => { ls.setting with xidInput := some .reset }

/-- The station in which an event calls `xid_doit`. -/
theorem called_eq {ls l : Ls} {e : Event} (h : called ls e = some l) :
    ∃ retry retries coStatus,
      l = ls.set { prepared ls e with retry := retry, retries := retries, coStatus := coStatus } := by
  have hout {σ : Setting} (ho : outCalled (ls.set σ) = some l) : ∃ retry retries coStatus,
      l = ls.set { σ with retry := retry, retries := retries, coStatus := coStatus } := by
    obtain ⟨coStatus, retries, rfl⟩ := outCalled_eq ho
    exact ⟨false, retries, coStatus, rfl⟩
  cases e with
  | startLs | activateRoute =>
    dsimp only [called] at h
    split_ifs at h
    exact hout h
  | retry | indTestRsp | indXidRsp r | indConn | confDisc => exact hout h
  | stopLs | indXidCmd r | indDisc | connectFinish =>
    dsimp only [called] at h
    split_ifs at h
    obtain rfl := Option.some.inj h
    exact ⟨_, _, _, rfl⟩
  | confConn ok => cases h

/-- An event handles an XID input in the station in which it calls `xid_doit`. -/
theorem handle_called {ls ls' l : Ls} {env : Env} {e : Event} (hc : called ls e = some l)
    (h : handle ls (env, e) = some ls') : ls' = xidDoit env l := by
  have hout {ls₁ : Ls} (ho : outCalled ls₁ = some l) : connectOut env ls₁ = xidDoit env l :=
    connectOutWith_called (xidDoit env) ho
  cases e with
  | startLs =>
    dsimp only [called] at hc
    split_ifs at hc with hcond
    obtain rfl := Option.some.inj h
    exact (if_neg hcond).trans (hout hc)
  | stopLs =>
    dsimp only [called] at hc
    split_ifs at hc with hcond
    obtain rfl := Option.some.inj hc
    obtain ⟨hr, hx⟩ := not_or.mp hcond
    obtain rfl := Option.some.inj h
    exact (if_neg hr).trans (if_neg hx)
  | activateRoute =>
    dsimp only [called] at hc
    split_ifs at hc with hcond
    obtain rfl := Option.some.inj h
    exact (if_neg hcond).trans (hout hc)
  | retry =>
    obtain ⟨-, rfl⟩ : ls.retry = true ∧ connectOut env ls = ls' := by simpa [handle] using h
    exact hout hc
  | indTestRsp | indXidRsp r | indConn | confDisc =>
    obtain rfl := Option.some.inj h
    exact hout hc
  | indXidCmd r | indDisc =>
    dsimp only [called] at hc
    split_ifs at hc with hcond
    obtain rfl := Option.some.inj hc
    obtain rfl := Option.some.inj h
    exact if_neg hcond
  | confConn ok => cases hc
  | connectFinish =>
    dsimp only [called] at hc
    split_ifs at hc with hcond
    obtain rfl := Option.some.inj hc
    obtain rfl := Option.some.inj h
    exact if_pos hcond

/-- The station was defined if it is started. -/
theorem prepared_holds {ls l : Ls} {e : Event} (h : called ls e = some l) :
    (prepared ls e).Holds ls := by
  cases e with
  | startLs =>
    dsimp only [called] at h
    split_ifs at h with hc
    exact .inr ⟨not_not.mp (not_or.mp hc).1, rfl⟩
  | stopLs | activateRoute | retry | indTestRsp | indXidCmd | indXidRsp | indConn | indDisc | confConn
    | connectFinish | confDisc => exact .inl rfl

/-- What an event sets that does not call `xid_doit`: no more than others, or nothing if it comes
in vain. It may send a test. -/
structure Setting.Quiet (σ : Setting) (ls : Ls) (e : Event) : Prop where
  holds : σ.Holds ls
  xidLastRx : σ.xidLastRx = (prepared ls e).xidLastRx
  xidInput : σ.xidInput = (prepared ls e).xidInput ∨
    σ.xidInput = ls.xidInput ∧ σ.xidLastRx = ls.xidLastRx
  sent : σ.sent = ls.sent ∨ σ.sent = ls.sent ++ [.test]

theorem handle_quiet {ls ls' : Ls} {env : Env} {e : Event} (hc : called ls e = none)
    (h : handle ls (env, e) = some ls') : ∃ σ : Setting, σ.Quiet ls e ∧ ls' = ls.set σ := by
  have hself (hp : (prepared ls e).xidLastRx = ls.xidLastRx) :
      ∃ σ : Setting, σ.Quiet ls e ∧ ls = ls.set σ :=
    ⟨ls.setting, ⟨.inl rfl, hp.symm, .inr ⟨rfl, rfl⟩, .inl rfl⟩, rfl⟩
  have hset {σ : Setting} (hσ : (prepared ls e).Holds ls) (hs : (prepared ls e).sent = ls.sent)
      (hrx : σ.xidLastRx = (prepared ls e).xidLastRx) (hin : σ.xidInput = (prepared ls e).xidInput)
      (hst : σ.state = (prepared ls e).state)
      (hsent : σ.sent = (prepared ls e).sent ∨ σ.sent = (prepared ls e).sent ++ [.test]) :
      σ.Quiet ls e := by
    refine ⟨?_, hrx, .inl hin, hs ▸ hsent⟩
    unfold Setting.Holds
    rw [hst]
    exact hσ
  have hout (hσ : (prepared ls e).Holds ls) (hs : (prepared ls e).sent = ls.sent)
      (ho : outCalled (ls.set (prepared ls e)) = none) :
      ∃ τ : Setting, τ.Quiet ls e ∧ connectOut env (ls.set (prepared ls e)) = ls.set τ := by
    obtain ⟨retry, retries, coStatus, sent, hq, hsent⟩ := connectOutWith_quiet (xidDoit env) ho
    exact ⟨{ prepared ls e with retry := retry, retries := retries, coStatus := coStatus, sent := sent },
      hset hσ hs rfl rfl rfl hsent, hq⟩
  cases e with
  | startLs =>
    dsimp only [called] at hc
    obtain rfl := Option.some.inj h
    unfold startLs
    split_ifs at hc ⊢ with hcond
    · exact hself rfl
    · exact hout (.inr ⟨not_not.mp (not_or.mp hcond).1, rfl⟩) rfl hc
  | stopLs =>
    dsimp only [called] at hc
    obtain rfl := Option.some.inj h
    unfold stopLs
    by_cases h₁ : (!ls.running) = true
    · rw [if_pos h₁]
      exact hself rfl
    · by_cases h₂ : ls.xidState = .active
      · rw [if_neg h₁, if_pos h₂]
        exact ⟨{ prepared ls .stopLs with retry := true }, hset (.inl rfl) rfl rfl rfl rfl (.inl rfl),
          rfl⟩
      · rw [if_neg (not_or.mpr ⟨h₁, h₂⟩)] at hc
        cases hc
  | activateRoute =>
    dsimp only [called] at hc
    obtain rfl := Option.some.inj h
    unfold activateRoute
    split_ifs at hc ⊢ with hcond
    · exact hself rfl
    · exact hout (.inl rfl) rfl hc
  | retry =>
    obtain ⟨-, rfl⟩ : ls.retry = true ∧ connectOut env ls = ls' := by simpa [handle] using h
    exact hout (.inl rfl) rfl hc
  | indTestRsp | indXidRsp | indConn | confDisc =>
    obtain rfl := Option.some.inj h
    exact hout (.inl rfl) rfl hc
  | indXidCmd r =>
    dsimp only [called] at hc
    obtain rfl := Option.some.inj h
    split_ifs at hc with hcond
    exact ⟨{ prepared ls (.indXidCmd r) with retry := false },
      hset (.inl rfl) rfl rfl rfl rfl (.inl rfl), if_pos hcond⟩
  | indDisc =>
    dsimp only [called] at hc
    obtain rfl := Option.some.inj h
    split_ifs at hc with hcond
    exact ⟨{ prepared ls .indDisc with retry := false },
      hset (.inl rfl) rfl rfl rfl rfl (.inl rfl), if_pos hcond⟩
  | confConn ok =>
    obtain rfl := Option.some.inj h
    exact ⟨prepared ls (.confConn ok), hset (.inl rfl) rfl rfl rfl rfl (.inl rfl), rfl⟩
  | connectFinish =>
    dsimp only [called] at hc
    obtain rfl := Option.some.inj h
    unfold xidOutputConnectFinish
    split_ifs at hc ⊢ with hcond
    exact hself rfl

end LinuxSna.Cs
