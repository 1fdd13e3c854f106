import LinuxSna.Framework.Run
import LinuxSna.Proof.Sna.Cpic.TwoPhase

/-!
# What Send_Data does to the state

The rows of the Send_Data tables for a Send_Data that also deallocates, or
also prepares to receive, ask `sna_cpic_fsm_cc_c`, `cc_f` and `cc_s` about
Send_Data, not about Deallocate or Prepare_To_Receive; about Send_Data they
look at the send type, which is another. So no such row ever applies but the
one for an abend, and no call sets the deallocate type that this one asks for.

* `sent_state`: the state after a Send_Data in Send or Send-Pending;
* `characteristics_run`: what the calls of a run can set;
* `sendData_iff`: over all runs, Send_Data has its effect on the state exactly
  if the send type asks for nothing more than to send.
-/

namespace LinuxSna.Cpic

open Framework (Row next run run_invariant')

/-! ## The tables -/

/-- `CM_OK` is the code of one condition only. -/
theorem conditions_ok :
    rcOk cmOk = true ∧ (∀ allocate, rcAe cmOk allocate = false) ∧ rcBo cmOk = false ∧
      rcDa cmOk = false ∧ rcDb cmOk = false ∧ rcEp cmOk = false ∧ rcOi cmOk = false ∧
      rcPb cmOk = false ∧ rcPc cmOk = false ∧ rcRb cmOk = false ∧ rcRf cmOk = false ∧
      rcSc cmOk = false := by
  decide

/-- A send type that deallocates or prepares to receive is neither of those
that confirm or flush, and `sna_cpic_fsm_cc_s` says nothing of Send_Data: the
rows that ask for both never apply. -/
theorem unsatisfiable (c : Conversation) :
    (ccD c .cmsend && ccC c .cmsend) = false ∧ (ccD c .cmsend && ccF c .cmsend) = false ∧
      (ccP c .cmsend && ccC c .cmsend) = false ∧ (ccP c .cmsend && ccF c .cmsend) = false ∧
      ccS c .cmsend = false := by
  simp only [ccC, ccD, ccF, ccP, ccS, Bool.and_eq_false_iff, decide_eq_false_iff_not, and_true]
  simp only [acSendAndFlush, acSendAndConfirm, acSendAndDeallocate, acSendAndPrepToReceive]
  omega

/-- What is left of a Send_Data table for `CM_OK`. -/
theorem next_sendTable (t : SendTable) {i : Input} (hi : i.rc = cmOk) (c : Conversation) :
    next (t.rows i c) =
      if ccB c .cmsend then t.b
      else if ccC c .cmsend then t.c
      else if ccD c .cmsend && ccA c .cmsend then t.da
      else if ccF c .cmsend then t.f
      else none := by
  obtain ⟨ok, ae, bo, da, db, ep, oi, pb, pc, rb, rf, sc⟩ := conditions_ok
  obtain ⟨dc, df, pc', pf, s⟩ := unsatisfiable c
  simp only [SendTable.rows, next, hi, ok, ae, bo, da, db, ep, oi, pb, pc, rb, rf, sc, dc, df, pc',
    pf, s, Bool.true_and, Bool.and_false, Bool.or_self, Bool.false_eq_true, if_false]

theorem table_state (rows : Input → Conversation → List (Row State)) (i : Input)
    (c : Conversation) : (table rows i c false).2.state = (next (rows i c)).getD c.state := by
  simp only [table, Bool.false_eq_true, if_false]
  cases next (rows i c) <;> rfl

/-- The state after Send_Data, from a state that has a table. -/
theorem sendTable_state (t : SendTable) {i : Input} (hi : i.rc = cmOk) (c : Conversation) :
    (table t.rows i c false).2.state =
      (if ccB c .cmsend then t.b
        else if ccC c .cmsend then t.c
        else if ccD c .cmsend && ccA c .cmsend then t.da
        else if ccF c .cmsend then t.f
        else none).getD c.state := by
  rw [← next_sendTable t hi c, table_state]

/-! ## The call -/

/-- The state to which the send type asks Send_Data to lead: a state in which
the right to send is with the partner, one in which the conversation is over
or about to be, or Send. -/
def SendEffect (tp : Tp) (s : State) : Prop :=
  if tp.sendType = acSendAndPrepToReceive then s = .receive ∨ s = .deferReceive
  else if tp.sendType = acSendAndDeallocate then s = .reset ∨ s = .deferDeallocate
  else s = .send

/-- Send_Data hands over the right to send. -/
def HandsOver (tp : Tp) : Prop :=
  tp.sendType = acSendAndPrepToReceive ∨ tp.sendType = acSendAndDeallocate

instance (tp : Tp) (s : State) : Decidable (SendEffect tp s) := by
  unfold SendEffect
  infer_instance

instance (tp : Tp) : Decidable (HandsOver tp) := inferInstanceAs (Decidable (_ ∨ _))

/-- The state machine does not refuse Send_Data. -/
def MaySend (c : Conversation) : Prop :=
  (fsmHd c .cmsend cmOk c.tp.dataReceived c.tp.statusReceived c.tp.sendReceiveMode true).1 = 0

/-- What a Send_Data from one conversation to another should do. -/
def SendsRight (c c' : Conversation) : Prop :=
  SendEffect c.tp c'.state ∧ (HandsOver c.tp → ¬ MaySend c')

/-- The verb router, and with it Send_Data, keeps the characteristics. -/
theorem cmsend_characteristics (router : Router) (bytes : UserBytes) (length : UserValue)
    (alloc : Bool) (tp : Tp) :
    (cmsend router bytes length alloc tp).2.sendType = tp.sendType ∧
      (cmsend router bytes length alloc tp).2.deallocateType = tp.deallocateType ∧
      (cmsend router bytes length alloc tp).2.receiveType = tp.receiveType := by
  unfold cmsend
  split
  · exact ⟨rfl, rfl, rfl⟩
  · split_ifs
    · exact ⟨rfl, rfl, rfl⟩
    · exact ⟨rfl, rfl, rfl⟩
    · split
      · exact ⟨rfl, rfl, rfl⟩
      · exact ⟨rfl, rfl, rfl⟩

/-- What the Set calls can have set, of what Send_Data and Receive ask for. `appc.h` has
`AC_DEALLOCATE_ABEND` above what Set_Deallocate_Type takes. -/
structure Characteristics (tp : Tp) : Prop where
  sendType : tp.sendType ≤ acSendAndDeallocate
  deallocateType : tp.deallocateType < acDeallocateAbend
  receiveType : tp.receiveType ≤ acReceiveImmediate

/-- The state machine for Send_Data, told of `CM_OK` in Send or Send-Pending. -/
theorem fsmCmsend_state {i : Input} (hi : i.rc = cmOk) {c : Conversation}
    (hc : Characteristics c.tp) (hs : c.state = .send ∨ c.state = .sendPending) :
    (fsmCmsend i c false).2.state = if HandsOver c.tp then c.state else .send := by
  have hda : (ccD c .cmsend && ccA c .cmsend) = false := by
    have := hc.deallocateType
    simp only [ccA, Bool.and_eq_false_iff, decide_eq_false_iff_not]
    omega
  have hcases : HandsOver c.tp ↔ ¬ (ccB c .cmsend ∨ ccC c .cmsend ∨ ccF c .cmsend) := by
    have := hc.sendType
    simp only [HandsOver, ccB, ccC, ccF, decide_eq_true_eq]
    simp only [acBufferData, acSendAndFlush, acSendAndConfirm, acSendAndDeallocate,
      acSendAndPrepToReceive] at this ⊢
    omega
  have htable : (fsmCmsend i c false).2.state =
      if ccB c .cmsend ∨ ccC c .cmsend ∨ ccF c .cmsend then .send else c.state := by
    rcases hs with hs | hs
    · show (byState _ i c false).2.state = _
      simp only [byState, choose, hs, cmsendSend, sendTable_state _ hi, hda, Bool.false_eq_true,
        if_false, ite_self, Option.getD_none]
    · show (byState _ i c false).2.state = _
      simp only [byState, choose, hs, cmsendSendPending, sendTable_state _ hi, hda,
        Bool.false_eq_true, if_false]
      split_ifs <;> simp_all
  rw [htable, if_congr hcases rfl rfl, ite_not]

/-- The state after a Send_Data that ends with `CM_OK` in Send or
Send-Pending. -/
theorem sent_state {c : Conversation} (hc : Characteristics c.tp)
    (hs : c.state = .send ∨ c.state = .sendPending) {router : Router} {bytes : UserBytes}
    {length : UserValue} {alloc : Bool}
    (h : (cpicall router (.cmsend bytes length alloc) c).rc = cmOk) :
    (cpicall router (.cmsend bytes length alloc) c).conversation.state =
      if HandsOver c.tp then c.state else .send := by
  obtain ⟨hst, hdt, hrt⟩ := cmsend_characteristics router bytes length alloc c.tp
  have hb : attempt .cmsend (cmsend router bytes length alloc) c =
      cmsend router bytes length alloc c.tp := by
    rcases attempt_cases .cmsend (cmsend router bytes length alloc) c with hg | hb
    · have h : (attempt .cmsend (cmsend router bytes length alloc) c).1 = cmOk := h
      rw [hg] at h
      exact absurd h (show cmProgramStateCheck ≠ cmOk by decide)
    · exact hb
  show (guarded .cmsend (cmsend router bytes length alloc) c).2.state = _
  have h : (attempt .cmsend (cmsend router bytes length alloc) c).1 = cmOk := h
  rw [hb] at h
  simp only [guarded, hb, h, fsmHd, fsmOf]
  refine (fsmCmsend_state (c := ⟨c.state, (cmsend router bytes length alloc c.tp).2⟩) ?_
    ⟨?_, ?_, ?_⟩ hs).trans ?_
  · rfl
  · rw [hst]
    exact hc.sendType
  · rw [hdt]
    exact hc.deallocateType
  · rw [hrt]
    exact hc.receiveType
  · exact if_congr (by simp only [HandsOver, hst]) rfl rfl

/-- After such a Send_Data, it has had its effect exactly if it did not have
to hand over the right to send. -/
theorem sendEffect_iff {c : Conversation} (hs : c.state = .send ∨ c.state = .sendPending)
    {s : State} (h : s = if HandsOver c.tp then c.state else .send) :
    SendEffect c.tp s ↔ ¬ HandsOver c.tp := by
  by_cases hh : HandsOver c.tp
  · refine ⟨fun he => ?_, fun hn => absurd hh hn⟩
    rw [if_pos hh] at h
    rw [← h] at hs
    unfold SendEffect at he
    rcases hs with rfl | rfl <;> split_ifs at he <;> simp_all [HandsOver]
  · refine ⟨fun _ => hh, fun _ => ?_⟩
    obtain ⟨h3, h4⟩ := not_or.mp hh
    rw [SendEffect, if_neg h3, if_neg h4, h, if_neg hh]

/-! ## Runs -/

section Keeps

variable {P : Tp → Prop} {tp : Tp}

theorem setValue_keeps {values : List Nat} {put : Tp → Nat → Tp}
    (h : ∀ v ∈ values, P (put tp v)) (hp : P tp) (v : UserValue) :
    P (setValue values put v tp).2 := by
  unfold setValue
  split
  · exact hp
  · split_ifs with hv
    · exact h _ hv
    · exact hp

theorem setBuffer_keeps {least most : Nat} {target : Target} {putLength : Tp → Nat → Tp}
    (h : ∀ bs, P (target.put tp bs)) (hl : ∀ bs n, P (putLength (target.put tp bs) n)) (hp : P tp)
    (source : UserBuffer) (length : UserValue) :
    P (setBuffer least most target putLength source length tp).2 := by
  unfold setBuffer
  split
  · exact hp
  · split_ifs
    · exact hp
    · split
      · exact h _
      · exact hl _ _

theorem setFormatted_keeps {formats : List Nat} {target : Target}
    {putLength : Tp → Nat → Nat → Tp} (h : ∀ bs, P (target.put tp bs))
    (hl : ∀ bs n f, P (putLength (target.put tp bs) n f)) (hp : P tp)
    (source : UserBuffer) (length format : UserValue) :
    P (setFormatted formats target putLength source length format tp).2 := by
  unfold setFormatted
  split
  · split
    · exact hp
    · split
      · exact hp
      · split
        · exact h _
        · exact hl _ _ _
  · exact hp

end Keeps

theorem cmspid_characteristics (a : PartnerId) {tp : Tp} (h : Characteristics tp) :
    Characteristics (cmspid a tp).2 := by
  unfold cmspid
  repeat' split
  all_goals exact ⟨h.1, h.2, h.3⟩

theorem cmallc_characteristics (router : Router) {tp : Tp} (h : Characteristics tp) :
    Characteristics (cmallc router tp).2 := by
  unfold cmallc
  split_ifs <;> exact ⟨h.1, h.2, h.3⟩

theorem cmrcv_characteristics (router : Router) (length : UserValue) (toData toLength : Bool)
    {tp : Tp} (h : Characteristics tp) :
    Characteristics (cmrcv router length toData toLength tp).2 := by
  unfold cmrcv
  split
  · exact h
  · split_ifs
    · exact h
    · unfold toUser
      split_ifs <;> exact ⟨h.1, h.2, h.3⟩

/-- No body of a call sets the send type, the deallocate type or the receive type to another
value. -/
theorem body_characteristics {router : Router} {req : Request} {call : Call} {body : Body}
    (hb : req.body router = some (call, body)) {tp : Tp} (h : Characteristics tp) :
    Characteristics (body tp).2 := by
  cases req with
  | cmdeal | unsupported => cases hb
  | cmallc => cases hb; exact cmallc_characteristics router h
  | cmrcv => cases hb; exact cmrcv_characteristics router _ _ _ h
  | cmsend bytes length alloc =>
    cases hb
    obtain ⟨hst, hdt, hrt⟩ := cmsend_characteristics router bytes length alloc tp
    exact ⟨hst ▸ h.1, hdt ▸ h.2, hrt ▸ h.3⟩
  | cmspid => cases hb; exact cmspid_characteristics _ h
  | cmsdt =>
    cases hb
    refine setValue_keeps (fun v hv => ⟨h.1, ?_, h.3⟩) h _
    show v < acDeallocateAbend
    revert v
    decide
  | cmsst =>
    cases hb
    refine setValue_keeps (fun v hv => ⟨?_, h.2, h.3⟩) h _
    show v ≤ acSendAndDeallocate
    revert v
    decide
  | cmsrt =>
    cases hb
    refine setValue_keeps (fun v hv => ⟨h.1, h.2, ?_⟩) h _
    show v ≤ acReceiveImmediate
    revert v
    decide
  | cmsaeq | cmsapt =>
    cases hb
    exact setFormatted_keeps (fun _ => ⟨h.1, h.2, h.3⟩) (fun _ _ _ => ⟨h.1, h.2, h.3⟩) h _ _ _
  | cmsacn | cmscsp | cmscsu | cmsid | cmsld | cmsmn | cmspln | cmstpn =>
    cases hb
    exact setBuffer_keeps (fun _ => ⟨h.1, h.2, h.3⟩) (fun _ _ => ⟨h.1, h.2, h.3⟩) h _ _
  | _ => cases hb; exact setValue_keeps (fun _ _ => ⟨h.1, h.2, h.3⟩) h _

theorem cpicall_characteristics (router : Router) (req : Request) {c : Conversation}
    (h : Characteristics c.tp) : Characteristics (cpicall router req c).conversation.tp := by
  have hg : ∀ {call : Call} {body : Body}, req.body router = some (call, body) →
      Characteristics (guarded call body c).2.tp := by
    intro call body hb
    rw [guarded_tp]
    rcases attempt_cases call body c with ha | ha
    · rw [ha]
      exact h
    · rw [ha]
      exact body_characteristics hb h
  cases req with
  | cmdeal | unsupported => exact h
  | _ => exact hg rfl

theorem characteristics_cminit (side : Option SideInfo) :
    Characteristics (cminit side).tp := by
  have htp : (cminit side).tp = defaults side := (fsmOf_disciplined .cminit).tp _ _ _
  have hst : (defaults side).sendType = acBufferData := by cases side <;> rfl
  have hdt : (defaults side).deallocateType = acDeallocateSyncLevel := by cases side <;> rfl
  have hrt : (defaults side).receiveType = acReceiveAndWait := by cases side <;> rfl
  rw [htp]
  refine ⟨?_, ?_, ?_⟩
  · rw [hst]
    decide
  · rw [hdt]
    decide
  · rw [hrt]
    decide

theorem characteristics_run {side : Option SideInfo} {es : List (Router × Request)}
    {c : Conversation} (h : run step (cminit side) es = some c) : Characteristics c.tp := by
  refine run_invariant' (I := fun c => Characteristics c.tp) (fun c e c' hc he => ?_)
    (characteristics_cminit side) h
  unfold step at he
  split_ifs at he
  cases he
  exact cpicall_characteristics e.1 e.2 hc

/-- In every run, a Send_Data that ends with `CM_OK` in Send or Send-Pending
leads where the send type asks exactly if the send type does not hand over the
right to send. -/
theorem sendData_iff (side : Option SideInfo) (es : List (Router × Request)) (c : Conversation)
    (h : run step (cminit side) es = some c) (hs : c.state = .send ∨ c.state = .sendPending)
    (router : Router) (bytes : UserBytes) (length : UserValue) (alloc : Bool)
    (hok : (cpicall router (.cmsend bytes length alloc) c).rc = cmOk) :
    SendsRight c (cpicall router (.cmsend bytes length alloc) c).conversation ↔
      ¬ HandsOver c.tp := by
  have he := sendEffect_iff hs (sent_state (characteristics_run h) hs hok)
  exact ⟨fun hr => he.mp hr.1, fun hn => ⟨he.mpr hn, fun hh => absurd hh hn⟩⟩

/-- A router whose verbs all succeed, and bring nothing. -/
def routerOk : Router := fun _ _ => ⟨0, cmNoDataReceived, cmNoStatusReceived, 0⟩

/-- Side information that names a mode, a program and its partner. -/
def sideOne : SideInfo := ⟨[77], 1, [80], [84], 1⟩

/-- A conversation allocated, and told to send and prepare to receive. -/
def preparing : List (Router × Request) :=
  [(routerOk, .cmallc), (routerOk, .cmsst (some cmSendAndPrepToReceive))]

/-- The conversation after that. -/
def told : Conversation :=
  ⟨.send, { defaults (some sideOne) with sendType := cmSendAndPrepToReceive }⟩

theorem sendData_prepare :
    SendsRight told (cpicall routerOk (.cmsend [] (some 0) true) told).conversation ↔
      ¬ HandsOver told.tp :=
  sendData_iff (some sideOne) preparing told rfl (Or.inl rfl) routerOk [] (some 0) true rfl

/-- A Send_Data that hands over the right to send ends with `CM_OK` and leaves
the conversation in Send, where the next is allowed. -/
theorem sendData_keeps_right :
    ¬ ∀ (side : Option SideInfo) (es : List (Router × Request)) (c : Conversation),
      run step (cminit side) es = some c → c.state = .send ∨ c.state = .sendPending →
      ∀ (router : Router) (bytes : UserBytes) (length : UserValue) (alloc : Bool),
        (cpicall router (.cmsend bytes length alloc) c).rc = cmOk →
          SendsRight c (cpicall router (.cmsend bytes length alloc) c).conversation := by
  intro h
  have hr := h (some sideOne) preparing told rfl (Or.inl rfl) routerOk [] (some 0) true rfl
  exact hr.2 (Or.inl rfl) rfl

end LinuxSna.Cpic
