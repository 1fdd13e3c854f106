import LinuxSna.Framework.Run
import LinuxSna.Proof.Sna.Ps.Buffer

/-!
# Each Send_Data sends its own data

The program's data reach Send_Data through a queue that only some of its exits
empty. A call that leaves its buffer there makes the next one send it.

* `sendData_refused`, `sendData_failed`, `sendData_rcvdError`, `sendData_head`: what a
  call does, from the state before it;
* `send_data_once`: every call that returns OK has handed on its own buffer, in
  order, and every refused call has failed, exactly along the runs in which no
  call is refused, none meets the partner's error, and none finds an older buffer
  in front of its own.
-/

namespace LinuxSna.Ps

open Framework (Along Always always_iff run)

/-! ## What a call does -/

/-- The call hands nothing on and returns the code. -/
def Returns (slack : UInt8) (c : Conversation) (rc : Rc) : Prop :=
  ∃ c', sendData slack c = some (rc, c') ∧ c'.handed = c.handed

/-- The call hands a buffer on and returns OK. -/
def Hands (slack : UInt8) (c : Conversation) (data : List UInt8) : Prop :=
  ∃ c', sendData slack c = some (acRcOk, c') ∧ c'.handed = c.handed ++ [data]

section SendData

variable {slack : UInt8} {c : Conversation}

theorem fsmConversation_sendData (c : Conversation) :
    (fsmConversation .s .sendData c true).1 = true ↔ c.rcb.convState ∈ notSendStates := by
  rw [fsmConversation, move, moveS, refuseIn]
  by_cases h : c.rcb.convState ∈ notSendStates
  · rw [if_pos h]
    exact iff_of_true rfl h
  · rw [if_neg h]
    exact iff_of_false Bool.false_ne_true h

theorem sendData_not_found (h : c.found = false) : Returns slack c acRcProductSpecific :=
  ⟨c, by rw [sendData, h]; rfl, rfl⟩

theorem sendData_refused (h : c.found = true) (hstate : c.rcb.convState ∈ notSendStates) :
    Returns slack c acRcOk := by
  refine ⟨c, ?_, rfl⟩
  rw [sendData, if_neg (by simp [h]), if_pos ((fsmConversation_sendData c).mpr hstate)]
  rfl

/-- A call that is not refused goes by the error state. -/
theorem sendData_permitted (h : c.found = true) (hstate : c.rcb.convState ∉ notSendStates) :
    sendData slack c =
      match (receiveRecords c).rcb.errState with
      | .convFailureProtocolError | .convFailureSon =>
        some (passRqToSend (failureReported (receiveRecords c)))
      | .rcvdError => (sendRcvdError (receiveRecords c)).map passRqToSend
      | .noRequests => (sendQueued slack (receiveRecords c)).map passRqToSend := by
  have hrefused : ¬ (fsmConversation .s .sendData c true).1 = true := by
    rwa [fsmConversation_sendData]
  exact (if_neg (by simp [h])).trans ((if_neg hrefused).trans rfl)

theorem failureReported_handed (c : Conversation) : (failureReported c).2.handed = c.handed :=
  (received_moves _ c).handed

theorem failureReported_ne (c : Conversation) : (failureReported c).1 ≠ acRcOk := by
  rw [failureReported]
  dsimp only
  split <;> decide

theorem sendData_failed (h : c.found = true) (hstate : c.rcb.convState ∉ notSendStates)
    (herr : (receiveRecords c).rcb.errState.failed) :
    ∃ rc, rc ≠ acRcOk ∧ Returns slack c rc := by
  refine ⟨_, failureReported_ne (receiveRecords c),
    (passRqToSend (failureReported (receiveRecords c))).2, ?_, ?_⟩
  · rw [sendData_permitted h hstate]
    obtain he | he := herr <;> rw [he] <;> rfl
  · exact (failureReported_handed _).trans (receiveRecords_drained c).handed

theorem sendRcvdError_cons {b : List UInt8} {q : List (List UInt8)}
    (hq : c.tp.writeQueue = b :: q) :
    sendRcvdError c = some (acRcOk, { c with tp.writeQueue := q }) := by
  rw [sendRcvdError, hq]

theorem sendQueued_cons {b : List UInt8} {q : List (List UInt8)} {r : Rc × LlTx}
    (hq : c.tp.writeQueue = b :: q) (hr : validateLogicalRecords slack c.rcb.llTx b = some r) :
    sendQueued slack c =
      if r.1 ≠ acRcOk then some (r.1, { c with tp.writeQueue := q, rcb.llTx := r.2 })
      else
        (sendDataBufferManagement { c with tp.writeQueue := q, rcb.llTx := r.2 } b false).map
          fun m => (acRcOk, m.2) := by
  rw [sendQueued, hq]
  dsimp only
  rw [hr]
  rfl

/-- Data that meet the partner's error are dropped, and the call returns OK. -/
theorem sendData_rcvdError (h : c.found = true) (hstate : c.rcb.convState ∉ notSendStates)
    (herr : (receiveRecords c).rcb.errState = .rcvdError) (hq : c.tp.writeQueue ≠ []) :
    Returns slack c acRcOk := by
  obtain ⟨b, q, hq⟩ := List.exists_cons_of_ne_nil hq
  have hdrained := receiveRecords_drained c
  have hq' : (receiveRecords c).tp.writeQueue = b :: q := by rw [hdrained.tp, hq]
  refine ⟨(passRqToSend (acRcOk, { receiveRecords c with tp.writeQueue := q })).2, ?_, ?_⟩
  · rw [sendData_permitted h hstate, herr]
    exact congrArg (Option.map passRqToSend) (sendRcvdError_cons hq')
  · exact hdrained.handed

/-- Without an error the first buffer on the queue is checked. -/
theorem sendData_head {b : List UInt8} {q : List (List UInt8)} {r : Rc × LlTx}
    (h : c.found = true) (hstate : c.rcb.convState ∉ notSendStates)
    (herr : (receiveRecords c).rcb.errState = .noRequests) (hq : c.tp.writeQueue = b :: q)
    (hr : validateLogicalRecords slack c.rcb.llTx b = some r) :
    (r.1 ≠ acRcOk → Returns slack c r.1) ∧
      (r.1 = acRcOk → (¬ FillEnds c b → sendData slack c = none) ∧
        (FillEnds c b → Hands slack c b)) := by
  have hdrained := receiveRecords_drained c
  have hsend : sendQueued slack (receiveRecords c) = _ :=
    sendQueued_cons (hdrained.tp ▸ hq) (hdrained.llTx ▸ hr)
  have hcall : sendData slack c = (sendQueued slack (receiveRecords c)).map passRqToSend := by
    rw [sendData_permitted h hstate, herr]
  constructor
  · intro hne
    rw [if_pos hne] at hsend
    rw [hsend] at hcall
    exact ⟨_, hcall, hdrained.handed⟩
  · intro hok
    rw [if_neg (not_not.mpr hok)] at hsend
    have hends : FillEnds { receiveRecords c with tp.writeQueue := q, rcb.llTx := r.2 } b ↔
        FillEnds c b := by
      simp only [FillEnds, hdrained.txMaxBtu, hdrained.allocs]
    constructor
    · intro hnot
      cases hm : sendDataBufferManagement
          { receiveRecords c with tp.writeQueue := q, rcb.llTx := r.2 } b false with
      | none =>
        rw [hcall, hsend, hm]
        rfl
      | some m => exact absurd (hends.mp (sendDataBufferManagement_ends.mp ⟨m, hm⟩)) hnot
    · intro h
      obtain ⟨m, hm⟩ := sendDataBufferManagement_ends.mpr (hends.mpr h)
      refine ⟨(passRqToSend (acRcOk, m.2)).2, by rw [hcall, hsend, hm]; rfl, ?_⟩
      exact (sendDataBufferManagement_handed hm).trans (congrArg (· ++ [b]) hdrained.handed)

end SendData

/-! ## Runs of verbs -/

/-- A verb on the conversation: Send_Data of a buffer that was just queued, or
anything else, which may do what it likes but for the queue, which only Send_Data
takes from. -/
inductive Verb where
  | sendData (buffer : List UInt8) (slack : UInt8)
  | other (c : Conversation)

/-- The conversation, the buffers of the calls that returned OK, and the codes of
the calls that the state machine refused. -/
structure Sending where
  c : Conversation
  accepted : List (List UInt8) := []
  refused : List Rc := []

/-- The state machine refuses Send_Data. -/
def Conversation.refuses (c : Conversation) : Bool :=
  c.found && (fsmConversation .s .sendData c true).1

/-- The state after a verb; `none` if Send_Data does not return. -/
def Sending.step (s : Sending) : Verb → Option Sending
  | .sendData buffer slack =>
    (sendData slack (queueTail s.c buffer)).map fun r =>
      { c := r.2
        accepted := if r.1 = acRcOk then s.accepted ++ [buffer] else s.accepted
        refused := if s.c.refuses then s.refused ++ [r.1] else s.refused }
  | .other c =>
    if c.tp.writeQueue = s.c.tp.writeQueue ∧ c.handed = s.c.handed then some { s with c := c }
    else none

/-- Before the first verb -/
def Sending.start (c : Conversation) : Sending := { c := { c with handed := [] } }

/-- What was handed on are the buffers of the calls that returned OK, and a call
that was refused has failed. -/
structure SentOnce (s : Sending) : Prop where
  handed : s.c.handed = s.accepted
  refused : ∀ rc ∈ s.refused, rc ≠ acRcOk

/-- The buffer is what a call would hand on, if anything: the conversation permits
it to be sent, the partner's error has not been received, and no older buffer is
handed on in its place. -/
structure Sends (c : Conversation) (buffer : List UInt8) (slack : UInt8) : Prop where
  permitted : c.rcb.convState ∉ notSendStates
  noError : ¬ (c.rcb.rmToPsQueue = [] ∧ (c.rcb.errState = .rcvdError ∨
    c.rcb.errState = .noRequests ∧ .receiveError ∈ c.rcb.hsToPsQueue))
  own : c.rcb.rmToPsQueue = [] → c.rcb.errState = .noRequests → .receiveError ∉ c.rcb.hsToPsQueue →
    ∀ older l, c.tp.writeQueue.head? = some older →
      validateLogicalRecords slack c.rcb.llTx older = some (acRcOk, l) → FillEnds c older →
        older = buffer

/-- The condition on a verb. -/
def InStep (s : Sending) : Verb → Prop
  | .sendData buffer slack => s.c.found = true → Sends s.c buffer slack
  | .other _ => True

section Step

variable {s s' : Sending} {buffer : List UInt8} {slack : UInt8}

theorem Conversation.refuses_eq (c : Conversation) :
    c.refuses = true ↔ c.found = true ∧ c.rcb.convState ∈ notSendStates := by
  rw [Conversation.refuses, Bool.and_eq_true, fsmConversation_sendData]

theorem step_sendData {rc : Rc} {c' : Conversation}
    (h : sendData slack (queueTail s.c buffer) = some (rc, c')) :
    s.step (.sendData buffer slack) = some
      { c := c'
        accepted := if rc = acRcOk then s.accepted ++ [buffer] else s.accepted
        refused := if s.c.refuses then s.refused ++ [rc] else s.refused } := by
  rw [Sending.step, h]
  rfl

/-- A call that hands nothing on and fails keeps the order. -/
theorem Returns.keeps {rc : Rc} (h : Returns slack (queueTail s.c buffer) rc) (hne : rc ≠ acRcOk)
    (hs : SentOnce s) (hstep : s.step (.sendData buffer slack) = some s') : SentOnce s' := by
  obtain ⟨c', hsend, hhanded⟩ := h
  rw [step_sendData hsend, if_neg hne] at hstep
  obtain rfl := Option.some.inj hstep
  refine ⟨hhanded.trans hs.handed, fun code hcode => ?_⟩
  dsimp only at hcode
  split at hcode
  · obtain hcode | hcode := List.mem_append.mp hcode
    · exact hs.refused code hcode
    · rw [List.mem_singleton.mp hcode]
      exact hne
  · exact hs.refused code hcode

/-- A call that hands nothing on and returns OK breaks the order. -/
theorem Returns.breaks (h : Returns slack (queueTail s.c buffer) acRcOk) (hs : SentOnce s) :
    ∃ s', s.step (.sendData buffer slack) = some s' ∧ ¬ SentOnce s' := by
  obtain ⟨c', hsend, hhanded⟩ := h
  refine ⟨_, step_sendData hsend, fun hs' => ?_⟩
  have heq : s.accepted = s.accepted ++ [buffer] :=
    (hhanded.trans hs.handed).symm.trans hs'.handed
  simp at heq

/-- A call that hands a buffer on keeps the order exactly if the buffer is its own. -/
theorem Hands.step {first : List UInt8} (h : Hands slack (queueTail s.c buffer) first)
    (hstate : s.c.rcb.convState ∉ notSendStates) (hs : SentOnce s) :
    ∃ s', s.step (.sendData buffer slack) = some s' ∧ (SentOnce s' ↔ first = buffer) := by
  obtain ⟨c', hsend, hhanded⟩ := h
  have hrefuses : ¬ s.c.refuses = true := fun hr => hstate (s.c.refuses_eq.mp hr).2
  have hhanded' : c'.handed = s.accepted ++ [first] := hs.handed ▸ hhanded
  refine ⟨_, step_sendData hsend, ?_⟩
  rw [if_pos rfl, if_neg hrefuses]
  constructor
  · intro hs'
    have heq : s.accepted ++ [first] = s.accepted ++ [buffer] := hhanded'.symm.trans hs'.handed
    simpa using heq
  · rintro rfl
    exact ⟨hhanded', hs.refused⟩

/-- What a call does that is not refused and meets no error: it goes by the first
buffer on the queue. -/
theorem sends_head (slack : UInt8) (hfound : s.c.found = true)
    (hstate : s.c.rcb.convState ∉ notSendStates)
    (herr : (receiveRecords (queueTail s.c buffer)).rcb.errState = .noRequests) :
    ∃ first r, (s.c.tp.writeQueue ++ [buffer]).head? = some first ∧
      validateLogicalRecords slack s.c.rcb.llTx first = some r ∧
      (r.1 ≠ acRcOk → Returns slack (queueTail s.c buffer) r.1) ∧
      (r.1 = acRcOk → (¬ FillEnds s.c first → sendData slack (queueTail s.c buffer) = none) ∧
        (FillEnds s.c first → Hands slack (queueTail s.c buffer) first)) := by
  obtain ⟨first, q, hq⟩ := List.exists_cons_of_ne_nil
    (List.append_ne_nil_of_right_ne_nil s.c.tp.writeQueue (List.cons_ne_nil buffer []))
  obtain ⟨r, hr⟩ := validateLogicalRecords_ends slack s.c.rcb.llTx first
  have hfound' : (queueTail s.c buffer).found = true := hfound
  obtain ⟨hne, hok⟩ := sendData_head hfound' hstate herr hq hr
  exact ⟨first, r, by rw [hq]; rfl, hr, hne, hok⟩

/-- A step that meets the condition keeps the order. -/
theorem SentOnce.step {e : Verb} (hs : SentOnce s) (he : InStep s e) (h : s.step e = some s') :
    SentOnce s' := by
  cases e with
  | other c =>
    rw [Sending.step] at h
    split at h
    · rename_i hkeep
      obtain rfl := Option.some.inj h
      exact ⟨hkeep.2.trans hs.handed, hs.refused⟩
    · cases h
  | sendData buffer slack =>
    cases hfound : s.c.found with
    | false =>
      have hret : Returns slack (queueTail s.c buffer) acRcProductSpecific :=
        sendData_not_found hfound
      exact hret.keeps (by decide) hs h
    | true =>
      have hsends : Sends s.c buffer slack := he hfound
      have hfound' : (queueTail s.c buffer).found = true := hfound
      have hstate : (queueTail s.c buffer).rcb.convState ∉ notSendStates := hsends.permitted
      cases herr : (receiveRecords (queueTail s.c buffer)).rcb.errState with
      | convFailureProtocolError =>
        obtain ⟨rc, hne, hret⟩ := sendData_failed hfound' hstate (Or.inl herr)
        exact hret.keeps hne hs h
      | convFailureSon =>
        obtain ⟨rc, hne, hret⟩ := sendData_failed hfound' hstate (Or.inr herr)
        exact hret.keeps hne hs h
      | rcvdError => exact absurd (receiveRecords_rcvdError.mp herr) hsends.noError
      | noRequests =>
        obtain ⟨first, r, hfirst, hr, hne, hok⟩ :=
          sends_head slack hfound hsends.permitted herr
        by_cases hcode : r.1 = acRcOk
        · obtain ⟨hnone, hhands⟩ := hok hcode
          have hends : FillEnds s.c first := by
            by_contra hnot
            rw [Sending.step, hnone hnot] at h
            cases h
          obtain ⟨hrm, he0, hmem⟩ := receiveRecords_noRequests.mp herr
          have hown : first = buffer := by
            cases hq : s.c.tp.writeQueue with
            | nil => simpa [hq] using hfirst.symm
            | cons older q =>
              obtain rfl : older = first := by simpa [hq] using hfirst
              refine hsends.own hrm he0 hmem older r.2 (by rw [hq]; rfl) ?_ hends
              rw [hr, ← hcode]
          obtain ⟨t, ht, hiff⟩ := (hhands hends).step hsends.permitted hs
          obtain rfl := Option.some.inj (ht.symm.trans h)
          exact hiff.mpr hown
        · exact (hne hcode).keeps hcode hs h

/-- A step that does not breaks it. -/
theorem SentOnce.broken {e : Verb} (hs : SentOnce s) (he : ¬ InStep s e) :
    ∃ s', s.step e = some s' ∧ ¬ SentOnce s' := by
  cases e with
  | other c => exact absurd trivial he
  | sendData buffer slack =>
    obtain ⟨hfound, hsends⟩ : s.c.found = true ∧ ¬ Sends s.c buffer slack := by
      simpa [InStep] using he
    have hfound' : (queueTail s.c buffer).found = true := hfound
    by_cases hstate : (queueTail s.c buffer).rcb.convState ∈ notSendStates
    · exact (sendData_refused hfound' hstate).breaks hs
    · by_cases hrcvd : (receiveRecords (queueTail s.c buffer)).rcb.errState = .rcvdError
      · have hq : (queueTail s.c buffer).tp.writeQueue ≠ [] := by simp [queueTail]
        exact (sendData_rcvdError hfound' hstate hrcvd hq).breaks hs
      · -- an older buffer is handed on
        have hown : ¬ (s.c.rcb.rmToPsQueue = [] → s.c.rcb.errState = .noRequests →
            .receiveError ∉ s.c.rcb.hsToPsQueue → ∀ older l,
              s.c.tp.writeQueue.head? = some older →
                validateLogicalRecords slack s.c.rcb.llTx older = some (acRcOk, l) →
                  FillEnds s.c older → older = buffer) :=
          fun hown => hsends ⟨hstate, fun h => hrcvd (receiveRecords_rcvdError.mpr h), hown⟩
        push Not at hown
        obtain ⟨hrm, he0, hmem, older, l, holder, hvalid, hends, hne⟩ := hown
        have herr : (receiveRecords (queueTail s.c buffer)).rcb.errState = .noRequests :=
          receiveRecords_noRequests.mpr ⟨hrm, he0, hmem⟩
        obtain ⟨first, r, hfirst, hr, -, hok⟩ := sends_head slack hfound hstate herr
        obtain rfl : older = first := by
          have hq : s.c.tp.writeQueue ≠ [] := by rintro hnil; simp [hnil] at holder
          rw [List.head?_append_of_ne_nil _ hq, holder] at hfirst
          exact Option.some.inj hfirst
        have hcode : r.1 = acRcOk := by rw [← Option.some.inj (hvalid.symm.trans hr)]
        obtain ⟨t, ht, hiff⟩ := ((hok hcode).2 hends).step hstate hs
        exact ⟨t, ht, fun hs' => hne (hiff.mp hs')⟩

end Step

theorem sentOnce_start (c : Conversation) : SentOnce (Sending.start c) :=
  ⟨rfl, fun _ h => by cases h⟩

/-- Every Send_Data that returns OK has handed on its own data, in order, and none
that was refused did, exactly along the runs all of whose calls meet the
condition. -/
theorem send_data_once (c : Conversation) (es : List Verb) :
    Always Sending.step SentOnce (.start c) es ↔ Along Sending.step InStep (.start c) es :=
  always_iff (fun _ h => h) (fun _ _ _ hs he h => hs.step he h) (fun _ _ hs he => hs.broken he)
    (sentOnce_start c)

/-- A conversation in Receive -/
def receiving : Conversation := { rcb := { convState := .rcvState, txMaxBtu := 256 } }

/-- The conversation after the refused call, in Send -/
def sending : Conversation :=
  { rcb := { convState := .sendState, txMaxBtu := 256 }, tp := { writeQueue := [[0, 3, 1]] } }

/-- A call in Receive is refused with the code for OK; the next call, in Send, hands
on the buffer of the first. -/
theorem send_data_shifted :
    ¬ Always Sending.step SentOnce (.start receiving)
        [.sendData [0, 3, 1] 0, .other sending, .sendData [0, 3, 2] 0] ∧
      ∃ s, run Sending.step (.start receiving)
          [.sendData [0, 3, 1] 0, .other sending, .sendData [0, 3, 2] 0] = some s ∧
        s.refused = [acRcOk] ∧ s.accepted = [[0, 3, 1], [0, 3, 2]] ∧ s.c.handed = [[0, 3, 1]] := by
  have hrun : ∃ s, run Sending.step (.start receiving)
      [.sendData [0, 3, 1] 0, .other sending, .sendData [0, 3, 2] 0] = some s ∧
        s.refused = [acRcOk] ∧ s.accepted = [[0, 3, 1], [0, 3, 2]] ∧ s.c.handed = [[0, 3, 1]] :=
    ⟨_, rfl, rfl, rfl, rfl⟩
  refine ⟨fun h => ?_, hrun⟩
  obtain ⟨s, hs, hrefused, -⟩ := hrun
  exact (h.run hs).refused acRcOk (by simp [hrefused]) rfl

end LinuxSna.Ps
