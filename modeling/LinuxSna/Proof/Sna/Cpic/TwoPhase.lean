import LinuxSna.Impl.Sna.Cpic.Calls

/-!
# The two passes of a CPI-C call

The state machine that a call asks before its work is the one it tells of its
return code after it. `Disciplined` collects what the tables, and the choices
between them, must have for that to be sound: the read-only pass is a dry run
of the other, only the state is changed, and nothing is changed when the call
comes to nothing, with `CM_PROGRAM_STATE_CHECK` or another such code.
`fsmOf_disciplined` proves it of the state machine of every call; `two_phase`
states what follows for the calls.
-/

namespace LinuxSna.Cpic

open Framework (Row next next_nil next_cons_pos next_cons_neg next_eq_none TwoPhase)

/-- The codes of a call that has come to nothing. -/
def inertCodes : List Int :=
  [cmProgramStateCheck, cmProgramParameterCheck, cmProductSpecificError, cmUnsuccessful]

/-- What the frame of the calls needs of a state machine. -/
structure Disciplined (f : Fsm) : Prop where
  twoPhase (i : Input) : TwoPhase (f i)
  tp (i : Input) (c : Conversation) (readonly : Bool) : (f i c readonly).2.tp = c.tp
  inert (i : Input) (c : Conversation) (readonly : Bool) :
    i.rc ∈ inertCodes → (f i c readonly).2 = c

/-! ## The state machines -/

theorem disciplined_const (v : Int) : Disciplined fun _ c _ => (v, c) where
  twoPhase _ := TwoPhase.const v
  tp _ _ _ := rfl
  inert _ _ _ _ := rfl

theorem disciplined_choose {f : Conversation → Fsm} (h : ∀ c, Disciplined (f c)) :
    Disciplined (choose f) where
  twoPhase i := TwoPhase.dispatch (f := fun c => f c i) (fun c => c) fun c => (h c).twoPhase i
  tp i c := (h c).tp i c
  inert i c := (h c).inert i c

theorem disciplined_byState {f : State → Fsm} (h : ∀ s, Disciplined (f s)) :
    Disciplined (byState f) :=
  disciplined_choose fun c => h c.state

/-- A table is disciplined if no row that applies to an inert code leads
anywhere. -/
theorem disciplined_table {rows : Input → Conversation → List (Row State)}
    (h : ∀ i c, i.rc ∈ inertCodes → next (rows i c) = none) :
    Disciplined (table rows) where
  twoPhase i := TwoPhase.table 0 (rows i) fun c s => { c with state := s }
  tp i c readonly := by
    cases readonly with
    | true => rfl
    | false =>
      simp only [table, Bool.false_eq_true, if_false]
      cases next (rows i c) <;> rfl
  inert i c readonly hrc := by
    simp only [table, h i c hrc, Option.map_none, Option.getD_none, ite_self]

/-- Rows that lead nowhere. -/
theorem next_quiet {α : Type} (l : List α) (p : α → Bool) :
    next (l.map fun a => (⟨p a, none⟩ : Row State)) = none := by
  apply next_eq_none
  intro r hr _
  obtain ⟨_, _, rfl⟩ := List.mem_map.mp hr
  rfl

/-- An inert code meets none of the conditions under which a row leads
anywhere. -/
theorem conditions_inert {rc : Int} (h : rc ∈ inertCodes) :
    rcOk rc = false ∧ (∀ allocate, rcAe rc allocate = false) ∧ rcBo rc = false ∧
      rcDa rc = false ∧ rcDb rc = false ∧ rcDn rc = false ∧ rcEn rc = false ∧ rcEp rc = false ∧
      rcEt rc = false ∧ rcPb rc = false ∧ rcRb rc = false ∧ rcRf rc = false := by
  revert rc
  decide

theorem disciplined_receive (t : ReceiveTable) : Disciplined (table t.rows) := by
  apply disciplined_table
  intro i c hrc
  obtain ⟨ok, ae, bo, da, db, dn, en, ep, et, pb, rb, rf⟩ := conditions_inert hrc
  simp only [ReceiveTable.rows, List.cons_append, List.nil_append, next, ok, ae, bo, da, db, dn,
    en, ep, et, pb, rb, rf, Bool.false_and, Bool.or_self, Bool.false_eq_true, if_false]
  exact next_quiet t.ends fun p => p i.rc

theorem disciplined_send (t : SendTable) : Disciplined (table t.rows) := by
  apply disciplined_table
  intro i c hrc
  obtain ⟨ok, ae, bo, da, db, -, -, ep, -, pb, rb, rf⟩ := conditions_inert hrc
  simp only [SendTable.rows, next, ok, ae, bo, da, db, ep, pb, rb, rf, Bool.false_and,
    Bool.or_self, Bool.false_eq_true, if_false, ite_self]

theorem disciplined_setter (accepts : State → Bool) : Disciplined (setter accepts) := by
  apply disciplined_byState
  intro s
  split
  · exact disciplined_const _
  · split
    · exact disciplined_const _
    · exact disciplined_const _

theorem disciplined_byQueue {n q : Fsm} (hn : Disciplined n) (hq : Disciplined q) :
    Disciplined (byQueue n q) := by
  apply disciplined_choose
  intro c
  split
  · exact hn
  · split
    · exact hq
    · exact disciplined_const _

theorem fsmCmsend_disciplined : Disciplined fsmCmsend := by
  apply disciplined_byState
  intro s
  cases s with
  | send | sendPending | syncPoint | syncPointSend | syncPointDeallocate =>
    exact disciplined_send _
  | _ => exact disciplined_const _

theorem fsmCmrcvW_disciplined : Disciplined fsmCmrcvW := by
  apply disciplined_byState
  intro s
  cases s with
  | send | receive | confirm | prepared => exact disciplined_receive _
  | _ => exact disciplined_const _

theorem fsmCmrcvI_disciplined : Disciplined fsmCmrcvI := by
  apply disciplined_byState
  intro s
  cases s with
  | receive | prepared => exact disciplined_receive _
  | _ => exact disciplined_const _

theorem fsmCmrcv_disciplined : Disciplined fsmCmrcv := by
  apply disciplined_choose
  intro c
  split
  · exact fsmCmrcvW_disciplined
  · split
    · exact fsmCmrcvI_disciplined
    · exact disciplined_const _

theorem cmallcInitialize_disciplined : Disciplined cmallcInitialize where
  twoPhase _ := ⟨fun _ => rfl, fun _ => rfl⟩
  tp i c readonly := by
    simp only [cmallcInitialize]
    split_ifs <;> rfl
  inert i c readonly hrc := by
    obtain ⟨ok, ae, -⟩ := conditions_inert hrc
    simp only [cmallcInitialize, ok, ae, Bool.false_eq_true, if_false, ite_self]

theorem fsmCmallc_disciplined : Disciplined fsmCmallc := by
  apply disciplined_byState
  intro s
  cases s with
  | initialized => exact cmallcInitialize_disciplined
  | _ => exact disciplined_const _

theorem cminitReset_disciplined : Disciplined cminitReset where
  twoPhase _ := ⟨fun _ => rfl, fun _ => rfl⟩
  tp i c readonly := by
    simp only [cminitReset]
    split_ifs <;> rfl
  inert i c readonly hrc := by
    obtain ⟨ok, -⟩ := conditions_inert hrc
    simp only [cminitReset, ok, Bool.and_false, Bool.false_eq_true, if_false]

theorem fsmCminit_disciplined : Disciplined fsmCminit := by
  apply disciplined_byState
  intro s
  cases s with
  | reset => exact cminitReset_disciplined
  | _ => exact disciplined_const _

/-- The state machine of every call is disciplined. -/
theorem fsmOf_disciplined (call : Call) : Disciplined (fsmOf call) := by
  cases call with
  | cmallc => exact fsmCmallc_disciplined
  | cminit => exact fsmCminit_disciplined
  | cmrcv => exact fsmCmrcv_disciplined
  | cmsend => exact fsmCmsend_disciplined
  | cmsqcf | cmsqpm => exact disciplined_byQueue (disciplined_setter _) (disciplined_setter _)
  | cmsac | cmsacn | cmsaeq | cmsapt | cmsbt | cmscsp | cmscst | cmscsu | cmsct | cmscu | cmsdt
  | cmsed | cmsf | cmsid | cmsld | cmsmn | cmspdp | cmspid | cmspln | cmspm | cmsptr | cmsrc
  | cmsrt | cmssl | cmssrm | cmsst | cmstc | cmstpn => exact disciplined_setter _
  | _ => exact disciplined_const _

/-! ## The calls -/

theorem attempt_cases (call : Call) (body : Body) (c : Conversation) :
    attempt call body c = (cmProgramStateCheck, c.tp) ∨ attempt call body c = body c.tp := by
  unfold attempt
  split
  · exact Or.inl rfl
  · exact Or.inr rfl

theorem guarded_tp (call : Call) (body : Body) (c : Conversation) :
    (guarded call body c).2.tp = (attempt call body c).2 := by
  simp only [guarded, fsmHd]
  rw [(fsmOf_disciplined call).tp]

/-- A call that goes through the frame and ends with an inert code keeps the
state, also if it is its own work that ends so. -/
theorem guarded_inert (call : Call) (body : Body) (c : Conversation)
    (h : (guarded call body c).1 ∈ inertCodes) : (guarded call body c).2.state = c.state := by
  have hrc := (fsmOf_disciplined call).inert
  simp only [guarded, fsmHd] at h ⊢
  rw [hrc _ _ _ h]

theorem cpicall_inert (router : Router) (req : Request) (c : Conversation)
    (h : (cpicall router req c).rc ∈ inertCodes) :
    (cpicall router req c).conversation.state = c.state := by
  cases req with
  | cmdeal | unsupported => rfl
  | _ => exact guarded_inert _ _ c h

/-- The read-only pass of the state machine keeps the conversation and gives
the verdict of the other pass; and a call that ends with
`CM_PROGRAM_STATE_CHECK` keeps the state of the conversation. -/
theorem two_phase :
    (∀ (c : Conversation) (input : Call) (rc : Int) (dr sr fd : Nat),
      (fsmHd c input rc dr sr fd true).2 = c ∧
        (fsmHd c input rc dr sr fd true).1 = (fsmHd c input rc dr sr fd false).1) ∧
    (∀ (router : Router) (req : Request) (c : Conversation),
      (cpicall router req c).rc = cmProgramStateCheck →
        (cpicall router req c).conversation.state = c.state) := by
  constructor
  · intro c input rc dr sr fd
    have h := (fsmOf_disciplined input).twoPhase ⟨input, rc, dr, sr, fd⟩
    exact ⟨h.unchanged c, h.verdict c⟩
  · intro router req c h
    exact cpicall_inert router req c (h ▸ .head _)

/-- A conversation that may receive only, told to send. -/
theorem two_phase_send :
    (cpicall (fun _ _ => ⟨0, 0, 0, 0⟩) (.cmsend [] (some 0) true) ⟨.receive, {}⟩).rc =
        cmProgramStateCheck ∧
      (cpicall (fun _ _ => ⟨0, 0, 0, 0⟩) (.cmsend [] (some 0) true)
        ⟨.receive, {}⟩).conversation.state = .receive :=
  ⟨rfl, two_phase.2 _ _ _ rfl⟩

end LinuxSna.Cpic
