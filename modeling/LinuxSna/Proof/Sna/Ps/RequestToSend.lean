import LinuxSna.Framework.Run
import LinuxSna.Proof.Sna.Ps.Arrivals
import LinuxSna.Proof.Sna.Ps.Marks
import LinuxSna.Proof.Sna.Ps.Records

/-!
# Requests to send

No record sets the flag of the conversation, so no verb ever hands it up.

* `LeavesMarks.unflagged`: what a verb leaves of flags that are not set;
* `reports_iff_unasked`: a step;
* `rq_to_send_reported_iff`: in every run all verbs report what requests there were, if and only if
  there were none.
-/

namespace LinuxSna.Ps

open Framework

variable {c c' d : Conversation}

/-- No request to send is on record or was handed up. -/
def Conversation.Unflagged (c : Conversation) : Prop :=
  c.rcb.rqToSendRcvd = false ∧ c.tp.rqToSendRcvd = false

theorem LeavesMarks.unflagged (h : LeavesMarks c d) (hc : c.Unflagged) : d.Unflagged := by
  obtain h | h := h
  · exact ⟨(congrArg Prod.fst h).trans hc.1, (congrArg (fun m => m.2.1) h).trans hc.2⟩
  · exact ⟨congrArg Prod.fst h, (congrArg (fun m => m.2.1) h).trans hc.1⟩

/-! ## Runs -/

/-- The verbs that send and receive -/
inductive DataVerb where
  /-- What stands beyond the end of the buffer. -/
  | sendData (slack : UInt8)
  | rcvAndWait
  | rcvImmediate

def DataVerb.input : DataVerb → ConvInput
  | .sendData _ => .sendData
  | .rcvAndWait => .receiveAndWait
  | .rcvImmediate => .receiveImmediate

def DataVerb.proc : DataVerb → Conversation → Option (Rc × Conversation)
  | .sendData slack => Ps.sendData slack
  | .rcvAndWait => Ps.rcvAndWait
  | .rcvImmediate => Ps.rcvImmediate

/-- The verb comes to nothing: it takes no record and hands nothing up. -/
def DataVerb.refused (v : DataVerb) (c : Conversation) : Bool :=
  !c.found || (fsmConversation .s v.input c true).1

/-- What happens on a conversation. A verb comes with what arrives while it runs. -/
inductive Event where
  | arrives (a : Arrival)
  | writes (buffer : List UInt8)
  | asks (n : Nat) (fill : Fill)
  | verb (v : DataVerb) (as : List Arrival)

def Arrival.hs : Arrival → List HsRecord
  | .records _ hs => hs
  | .signal => []

/-- The records of the half-session that a verb takes -/
def DataVerb.takes (v : DataVerb) (as : List Arrival) (c : Conversation) : List HsRecord :=
  if v.refused c then [] else c.rcb.hsToPsQueue ++ as.flatMap Arrival.hs

/-- A verb that returns, with no more to arrive -/
def DataVerb.call (v : DataVerb) (as : List Arrival) (c : Conversation) : Option Conversation :=
  (v.proc (c.later as)).bind fun r => if r.2.arrivals = [] then some r.2 else none

def Event.step (c : Conversation) : Event → Option Conversation
  | .arrives a => some (arrive c a)
  | .writes buffer => some (queueTail c buffer)
  | .asks n fill => some { askFor n c with tp.fill := fill }
  | .verb v as => v.call as c

/-- A verb hands up whether there was a request among the records that it took. -/
def Reports (c : Conversation) : Event → Prop
  | .verb v as => ∀ d, v.call as c = some d →
      d.tp.rqToSendRcvd = decide (.reqToSend ∈ v.takes as c)
  | _ => True

/-- There is none. -/
def Unasked (c : Conversation) : Event → Prop
  | .verb v as => .reqToSend ∉ v.takes as c
  | _ => True

instance (c : Conversation) : DecidablePred (Reports c)
  | .arrives _ | .writes _ | .asks _ _ => .isTrue trivial
  | .verb v as => inferInstanceAs (Decidable (∀ d ∈ v.call as c,
      d.tp.rqToSendRcvd = decide (.reqToSend ∈ v.takes as c)))

instance (c : Conversation) : DecidablePred (Unasked c)
  | .arrives _ | .writes _ | .asks _ _ => .isTrue trivial
  | .verb v as => inferInstanceAs (Decidable (.reqToSend ∉ v.takes as c))

theorem call_unflagged {v : DataVerb} {as : List Arrival} (hc : c.Unflagged)
    (h : v.call as c = some d) : d.Unflagged := by
  obtain ⟨r, hr, h⟩ := Option.bind_eq_some_iff.mp h
  have hd : r.2.Unflagged := by
    have hlater : (c.later as).Unflagged := hc
    cases v with
    | sendData slack => exact (sendData_leavesMarks hr).unflagged hlater
    | rcvAndWait => exact (rcvAndWait_leavesMarks hr).unflagged hlater
    | rcvImmediate => exact (rcvImmediate_leavesMarks hr).unflagged hlater
  split at h
  · cases h
    exact hd
  · cases h

theorem step_unflagged {e : Event} (hc : c.Unflagged) (h : Event.step c e = some d) :
    d.Unflagged := by
  cases e with
  | arrives a =>
    cases h
    cases a <;> exact hc
  | writes buffer =>
    cases h
    exact hc
  | asks n fill =>
    cases h
    exact hc
  | verb v as => exact call_unflagged hc h

/-- A step -/
theorem reports_iff_unasked {e : Event} (hc : c.Unflagged) (h : Event.step c e = some d) :
    Reports c e ↔ Unasked c e := by
  cases e with
  | arrives a => exact Iff.rfl
  | writes buffer => exact Iff.rfl
  | asks n fill => exact Iff.rfl
  | verb v as =>
    have hflag {d : Conversation} (hd : v.call as c = some d) : d.tp.rqToSendRcvd = false :=
      (call_unflagged hc hd).2
    constructor
    · intro hrep hmem
      have htrue := hrep d h
      rw [hflag h, decide_eq_true hmem] at htrue
      cases htrue
    · intro hnone d hd
      rw [hflag hd, decide_eq_false hnone]

/-- In every run all verbs report what there was of requests to send, if and only if no verb took
one. -/
theorem rq_to_send_reported_iff {es : List Event} (hc : c.Unflagged)
    (h : run Event.step c es = some c') :
    Along Event.step Reports c es ↔ Along Event.step Unasked c es :=
  along_iff_of_run (fun _ _ _ => step_unflagged) (fun _ _ _ => reports_iff_unasked) hc h

/-- A conversation in which the program sends -/
def sendingConversation : Conversation := { rcb.convState := .sendState, rcb.txMaxBtu := 8 }

/-- Data that are sent, with a confirmation on the queue, and a wait that a signal ends -/
theorem rq_to_send_reported_iff_send :
    Along Event.step Reports sendingConversation
      [.arrives (.records [] [.confirmed]), .writes [0, 3, 7], .verb (.sendData 0) [],
        .asks 4 .ll, .verb .rcvAndWait [.signal]] := by
  have hrun : (run Event.step sendingConversation
      [.arrives (.records [] [.confirmed]), .writes [0, 3, 7], .verb (.sendData 0) [],
        .asks 4 .ll, .verb .rcvAndWait [.signal]]).isSome := by decide
  obtain ⟨c, hc⟩ := Option.isSome_iff_exists.mp hrun
  have hstart : sendingConversation.Unflagged := ⟨rfl, rfl⟩
  exact (rq_to_send_reported_iff hstart hc).mpr (by decide)

/-- The partner asks to send, and Send_Data returns without an error and says that it did not. -/
theorem request_forgotten :
    (run Event.step sendingConversation
        [.arrives (.records [] [.reqToSend]), .writes [0, 3, 7], .verb (.sendData 0) []]).map
      (fun c => (c.rcb.hsToPsQueue, c.rcb.errState, c.tp.rqToSendRcvd, c.handed)) =
        some ([], .noRequests, false, [[0, 3, 7]]) ∧
      ¬ Along Event.step Reports sendingConversation
        [.arrives (.records [] [.reqToSend]), .writes [0, 3, 7], .verb (.sendData 0) []] := by
  decide

end LinuxSna.Ps
