import LinuxSna.Proof.Sna.Ps.Data
import LinuxSna.Proof.Sna.Ps.Fsm

/-!
# What arrives later

Only a wait looks at what is to arrive: the records that are there, the state machine and the
processing of an MU give the same whatever it is.

* `receiveRecords_later`, `fsmConversation_later`, `processData_later`.
-/

namespace LinuxSna.Ps

open Framework (loop_map)

/-- The conversation with something else to arrive -/
def Conversation.later (c : Conversation) (as : List Arrival) : Conversation :=
  { c with arrivals := as }

variable {c : Conversation} {as : List Arrival} {t : Take}

/-! ## Records -/

theorem conversationFailure_later (c : Conversation) (r : RmRecord) :
    conversationFailure (c.later as) r = (conversationFailure c r).later as := by
  rw [conversationFailure, conversationFailure]
  by_cases hpost : (fsmErrorOrFailure c
      (if r.protocolViolation then .convFailProtocol else .convFailSon)).rcb.postState = .pendPosted
  · rw [if_pos hpost]
    exact if_pos hpost
  · rw [if_neg hpost]
    exact if_neg hpost

theorem hsRecord_later (c : Conversation) (r : HsRecord) :
    hsRecord (c.later as) r = (hsRecord c r).later as := by
  cases r with
  | reqToSend =>
    rw [hsRecord, hsRecord]
    by_cases herr : c.rcb.errState.number = ErrInput.reset.number
    · rw [if_pos herr]
      exact if_pos herr
    · rw [if_neg herr]
      exact if_neg herr
  | receiveError => rfl
  | confirmed => rfl
  | mu m =>
    rw [hsRecord, hsRecord]
    by_cases hqueue : c.rcb.convState = .rcvState ∨ c.rcb.errState = .rcvdError
    · rw [if_pos hqueue]
      exact if_pos hqueue
    · rw [if_neg hqueue]
      refine (if_neg hqueue).trans ?_
      by_cases hend : c.rcb.convState = .endConv
      · rw [if_pos hend]
        exact if_pos hend
      · rw [if_neg hend]
        exact if_neg hend
  | unknown => rfl

theorem receiveRecords_later (c : Conversation) (as : List Arrival) :
    receiveRecords (c.later as) = (receiveRecords c).later as := by
  rw [receiveRecords, receiveRecords]
  have hstart : { c.later as with rcb.rmToPsQueue := [], rcb.hsToPsQueue := [] } =
      { c with rcb.rmToPsQueue := [], rcb.hsToPsQueue := [] }.later as := rfl
  rw [hstart, List.foldl_hom (Conversation.later · as) fun d r => conversationFailure_later d r,
    List.foldl_hom (Conversation.later · as) fun d r => hsRecord_later d r]
  rfl

/-! ## The state machine -/

theorem fsmConvOutputA_later (c : Conversation) (as : List Arrival) :
    fsmConvOutputA (c.later as) = (fsmConvOutputA c).later as := by
  by_cases herr : c.rcb.errState = .noRequests ∨ c.rcb.errState = .rcvdError
  · have herr' : (c.later as).rcb.errState = .noRequests ∨ (c.later as).rcb.errState = .rcvdError :=
      herr
    rw [fsmConvOutputA, if_pos herr', fsmConvOutputA, if_pos herr]
    by_cases halloc : c.allocs.headD true = true
    · have hmu (d : Conversation) (hd : d.allocs.headD true = true) : createAndInitLimitedMu d =
          (some ⟨.recSendData, []⟩, { d with allocs := d.allocs.tail }) := if_pos hd
      rw [hmu c halloc, hmu (c.later as) halloc]
      rfl
    · have hmu (d : Conversation) (hd : ¬ d.allocs.headD true = true) : createAndInitLimitedMu d =
          (none, { d with allocs := d.allocs.tail }) := if_neg hd
      rw [hmu c halloc, hmu (c.later as) halloc]
      rfl
  · rw [fsmConvOutputA, fsmConvOutputA, if_neg herr]
    exact if_neg herr

theorem fsmConversation_later (who : Who) (a : ConvInput) (c : Conversation) (as : List Arrival)
    (readonly : Bool) :
    fsmConversation who a (c.later as) readonly =
      ((fsmConversation who a c readonly).1, (fsmConversation who a c readonly).2.later as) := by
  have hmove : move who a (c.later as).rcb.convState = move who a c.rcb.convState := rfl
  rw [fsmConversation, fsmConversation, hmove]
  cases move who a c.rcb.convState with
  | stay => rfl
  | refuse => rfl
  | go s => cases readonly <;> rfl
  | goA s =>
    cases readonly with
    | true => rfl
    | false => exact congrArg (Prod.mk false) (fsmConvOutputA_later { c with rcb.convState := s } as)
  | goB s => cases readonly <;> rfl

/-! ## The data of an MU -/

def Take.later (t : Take) (as : List Arrival) : Take := { t with c := t.c.later as }

def Data.later (d : Data) (as : List Arrival) : Data := { d with c := d.c.later as }

theorem begin_later : begin (t.later as) = (begin t).map (Take.later · as) := by
  rw [begin, begin]
  by_cases hs : t.c.rcb.llRx.state = .none
  · rw [if_pos hs]
    refine (if_pos hs).trans ?_
    rw [startRecord, startRecord]
    by_cases hlen : t.mu.data.length < 2
    · rw [if_pos hlen]
      exact if_pos hlen
    · rw [if_neg hlen]
      refine (if_neg hlen).trans ?_
      by_cases hsize : llSize t.mu.data < 2 ∨ llSize t.mu.data > 32767
      · rw [if_pos hsize]
        exact if_pos hsize
      · rw [if_neg hsize]
        refine (if_neg hsize).trans ?_
        have htype : (t.later as).c.tp.conversationType = t.c.tp.conversationType := rfl
        rw [htype]
        cases t.c.tp.conversationType <;> rfl
  · rw [if_neg hs]
    exact if_neg hs

theorem pullLl_later : pullLl (t.later as) = (pullLl t).later as := by
  rw [pullLl, pullLl]
  by_cases hpull : t.c.tp.conversationType = .mapped ∧ t.c.tp.rxMcLlPullLeft ≠ 0
  · rw [if_pos hpull]
    exact if_pos hpull
  · rw [if_neg hpull]
    exact if_neg hpull

theorem readRecord_later :
    readRecord (t.later as) = ((readRecord t).1.later as, (readRecord t).2) := by
  rw [readRecord, readRecord]
  by_cases hs : t.c.rcb.llRx.state = .incomplete
  · rw [if_pos hs]
    refine (if_pos hs).trans ?_
    rw [pullLl_later]
    rfl
  · rw [if_neg hs]
    exact if_neg hs

theorem endRecord_later : endRecord (t.later as) = (endRecord t).later as := by
  rw [endRecord, endRecord]
  by_cases hs : t.c.rcb.llRx.state = .complete
  · rw [if_pos hs]
    exact if_pos hs
  · rw [if_neg hs]
    exact if_neg hs

theorem turn_later (llEnd : Bool) :
    turn (t.later as) llEnd = (turn t llEnd).map (Take.later · as) (Data.later · as) := by
  rw [turn, turn]
  by_cases hstop : (t.c.tp.fill = .ll ∧ llEnd) ∨ t.c.tp.rxReqLen = t.c.tp.rxRcvLen
  · rw [if_pos hstop]
    exact if_pos hstop
  · rw [if_neg hstop]
    refine (if_neg hstop).trans ?_
    by_cases hmore : t.mu.data ≠ []
    · rw [if_pos hmore]
      exact if_pos hmore
    · rw [if_neg hmore]
      exact if_neg hmore

theorem pass_later : pass (t.later as) = (pass t).map (Take.later · as) (Data.later · as) := by
  rw [pass, pass, begin_later]
  cases begin t with
  | none => rfl
  | some u =>
    rw [Option.map_some]
    dsimp only
    rw [readRecord_later, endRecord_later, turn_later]

theorem processData_later (c : Conversation) (m : Mu) (as : List Arrival) :
    processData (c.later as) m = (processData c m).map (Data.later · as) :=
  loop_map (I := fun _ => True) (f := (Take.later · as)) (s := ⟨c, m⟩)
    (fun _ _ _ _ => trivial) (fun _ _ => pass_later) trivial

end LinuxSna.Ps
