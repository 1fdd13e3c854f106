import LinuxSna.Proof.Sna.Ps.Queue

/-!
# Receive_Immediate and Receive_And_Wait

Both verbs drain the records and go through the queue of MUs in one loop, which
runs only while a posting is pending. Receive_And_Wait makes it so and clears what
the program was told before; Receive_Immediate does neither.

* `performReceive_pendPosted`: a pass over the queue that has not posted has
  emptied it;
* `performReceive_first`: a pass over the queue with a posting pending takes an MU
  or returns another code than UNSUCCESSFUL;
* `receive_immediate_agrees`: when the two verbs agree.
-/

namespace LinuxSna.Ps

/-! ## The end of the loop over the queue -/

theorem ecProcessing_keeps (c : Conversation) (t : CtrlType) :
    (ecProcessing c t).2.rcb.postState = c.rcb.postState ∧
      (ecProcessing c t).2.rcb.hsToPsBufferQueue = c.rcb.hsToPsBufferQueue := by
  have hkeep (a : ConvInput) (d : Conversation) : (received a d).rcb.postState = d.rcb.postState ∧
      (received a d).rcb.hsToPsBufferQueue = d.rcb.hsToPsBufferQueue :=
    ⟨(received_moves a d).postState, (received_moves a d).queue⟩
  unfold ecProcessing
  split
  · exact hkeep _ _
  · split
    · exact hkeep _ _
    · split
      · exact hkeep _ _
      · exact hkeep _ _
      · exact hkeep _ _
      · exact hkeep _ _
      · exact hkeep _ _
      · exact ⟨rfl, rfl⟩

/-- The end of a chain never makes a Receive unsuccessful. -/
theorem ecProcessing_ne {c : Conversation} {t : CtrlType} (ht : t ∈ CtrlType.received)
    (hne : t ≠ .notEndOfData) : (ecProcessing c t).1 ≠ acRcUnsuccessful := by
  have hfail : acRcResourceFailureNoRetry ≠ acRcUnsuccessful := by decide
  have hok : acRcOk ≠ acRcUnsuccessful := by decide
  have hnormal : acRcDeallocateNormal ≠ acRcUnsuccessful := by decide
  unfold ecProcessing
  split
  · exact hfail
  · split
    · exact hfail
    · split
      · exact hok
      · exact hok
      · exact hok
      · exact hok
      · exact hnormal
      · simp_all [CtrlType.received]

theorem finish_queue (g : Got) : g.finish.2.rcb.hsToPsBufferQueue = g.c.rcb.hsToPsBufferQueue := by
  rw [Got.finish]
  split
  · exact (ecProcessing_keeps _ _).2
  · rfl

theorem finish_pendPosted {g : Got} (h : g.finish.2.rcb.postState = .pendPosted) :
    g.finish.2 = g.c := by
  rw [Got.finish] at h ⊢
  split at h
  · rw [(ecProcessing_keeps _ _).1] at h
    exact absurd h (fsmPost_post g.c)
  · rename_i hend
    rw [if_neg hend]

theorem finish_ne {g : Got} (herr : g.err = acRcOk) (ht : g.endOfChainType ∈ CtrlType.received) :
    g.finish.1 ≠ acRcUnsuccessful := by
  rw [Got.finish]
  split
  · rename_i hend
    apply ecProcessing_ne ht
    intro hne
    simp [Got.endOfChain, hne] at hend
  · exact herr ▸ (by decide : acRcOk ≠ acRcUnsuccessful)

/-! ## A pass over the queue -/

section PerformReceive

variable {c : Conversation} {r : Rc × Conversation}

theorem performReceive_signal (h : c.signal = true) :
    performReceive c = some (acRcUnsuccessful, fsmPost c .post) := by
  rw [performReceive, if_pos h]

theorem performReceive_gather (h : c.signal = false) (hq : c.rcb.hsToPsBufferQueue ≠ []) :
    performReceive c = (gather c).map Got.finish := by
  rw [performReceive, if_neg (by simp [h]), if_neg hq]

/-- A pass that has not posted has emptied the queue. -/
theorem performReceive_pendPosted (hq : c.rcb.hsToPsBufferQueue ≠ [])
    (hr : performReceive c = some r) (hpost : r.2.rcb.postState = .pendPosted) :
    r.2.rcb.hsToPsBufferQueue = [] ∧ Kept c r.2 ∧ c.signal = false := by
  cases hs : c.signal with
  | true =>
    rw [performReceive_signal hs] at hr
    cases hr
    exact absurd hpost (fsmPost_post c)
  | false =>
    rw [performReceive_gather hs hq] at hr
    obtain ⟨g, hg, rfl⟩ := Option.map_eq_some_iff.mp hr
    have hfinish := finish_pendPosted hpost
    rw [hfinish] at hpost ⊢
    obtain ⟨hnil, hkept⟩ := takeMus_pendPosted hg hpost
    exact ⟨hnil, hkept, rfl⟩

/-- A pass with a posting pending takes an MU off the queue or returns another code
than UNSUCCESSFUL. -/
theorem performReceive_first (h : c.signal = false) (hq : c.rcb.hsToPsBufferQueue ≠ [])
    (hpost : c.rcb.postState = .pendPosted) (hr : performReceive c = some r) :
    r.1 ≠ acRcUnsuccessful ∨ r.2.rcb.hsToPsBufferQueue ≠ c.rcb.hsToPsBufferQueue := by
  rw [performReceive_gather h hq] at hr
  obtain ⟨g, hg, rfl⟩ := Option.map_eq_some_iff.mp hr
  obtain ⟨m, q, hmq⟩ := List.exists_cons_of_ne_nil hq
  rw [gather, hmq] at hg
  obtain hlt | ⟨herr, htype⟩ := takeMus_first hg hpost
  · apply Or.inr
    intro heq
    rw [finish_queue, hmq] at heq
    rw [heq, List.length_cons] at hlt
    omega
  · exact Or.inl (finish_ne herr htype)

/-- A pass without a posting pending leaves all as it is. -/
theorem performReceive_of_ne (h : c.signal = false) (hq : c.rcb.hsToPsBufferQueue ≠ [])
    (hpost : c.rcb.postState ≠ .pendPosted) :
    performReceive c = some (acRcUnsuccessful, c) := by
  obtain ⟨m, q, hmq⟩ := List.exists_cons_of_ne_nil hq
  rw [performReceive_gather h hq, gather, hmq, takeMus_of_ne hpost, ← hmq]
  rfl

end PerformReceive

/-! ## The two verbs -/

/-- What both verbs leave is the same to the program and to the conversation. -/
structure Agrees (w i : Rc × Conversation) : Prop where
  rc : i.1 = w.1
  bytes : i.2.tp.rxBuffer = w.2.tp.rxBuffer
  count : i.2.tp.rxRcvLen = w.2.tp.rxRcvLen
  queue : i.2.rcb.hsToPsBufferQueue = w.2.rcb.hsToPsBufferQueue
  ll : i.2.rcb.llRx = w.2.rcb.llRx
  pull : i.2.tp.rxMcLlPullLeft = w.2.tp.rxMcLlPullLeft
  data : i.2.tp.dataReceived = w.2.tp.dataReceived
  status : i.2.tp.statusReceived = w.2.tp.statusReceived

theorem Agrees.refl (w : Rc × Conversation) : Agrees w w := ⟨rfl, rfl, rfl, rfl, rfl, rfl, rfl, rfl⟩

/-- The conversation if nothing more happens to it, with or without a signal for
the program. -/
def Conversation.alone (c : Conversation) (signal : Bool) : Conversation :=
  { c with signal := signal, arrivals := [] }

/-- Receive_Immediate agrees with Receive_And_Wait if that completes without
waiting. -/
def AgreesWithoutWaiting (c : Conversation) : Prop :=
  ∀ signal w, rcvAndWait (c.alone signal) = some w →
    ∃ i, rcvImmediate (c.alone signal) = some i ∧ Agrees w i

section Verbs

variable {c : Conversation}

theorem fsmConversation_stay {who : Who} {a : ConvInput}
    (h : move who a c.rcb.convState = .stay) (readonly : Bool) :
    fsmConversation who a c readonly = (false, c) := by
  rw [fsmConversation, h]

theorem rcvAndWait_rcv (hfound : c.found = true) (hstate : c.rcb.convState = .rcvState) :
    rcvAndWait c =
      if (receiveRecords c).rcb.errState = .rcvdError then rcvdError (receiveRecords c)
      else (receiveAndTestPosting (receiveRecords c)).map passRqToSend := by
  have hdrained : (receiveRecords c).rcb.convState = .rcvState :=
    (receiveRecords_drained c).convState.trans hstate
  have hmove (d : Conversation) (hd : d.rcb.convState = .rcvState) (readonly : Bool) :
      fsmConversation .s .receiveAndWait d readonly = (false, d) :=
    fsmConversation_stay (by rw [hd]; rfl) readonly
  have hturn : turnAround (receiveRecords c) = (some (receiveRecords c), receiveRecords c) :=
    if_neg (by simp [hdrained])
  rw [rcvAndWait, if_neg (by simp [hfound]), if_neg (by simp [hmove c hstate])]
  dsimp only
  rw [hmove _ hdrained, hturn]

theorem rcvImmediate_rcv (hfound : c.found = true) (hstate : c.rcb.convState = .rcvState) :
    rcvImmediate c =
      if (receiveRecords c).rcb.errState = .rcvdError then rcvdError (receiveRecords c)
      else (performReceive (setPostInfo (receiveRecords c))).map fun r =>
        passRqToSend (r.1, fsmPost r.2 .receiveImmediate) := by
  have hdrained : (receiveRecords c).rcb.convState = .rcvState :=
    (receiveRecords_drained c).convState.trans hstate
  have hmove (d : Conversation) (hd : d.rcb.convState = .rcvState) (readonly : Bool) :
      fsmConversation .s .receiveImmediate d readonly = (false, d) :=
    fsmConversation_stay (by rw [hd]; rfl) readonly
  rw [rcvImmediate, if_neg (by simp [hfound]), if_neg (by simp [hmove c hstate])]
  dsimp only
  rw [hmove _ hdrained]

/-- Where no record is left and none comes, only the first pass over the queue can
give a result. -/
theorem receiveAndTestPosting_alone {w : Rc × Conversation} (hrm : c.rcb.rmToPsQueue = [])
    (hhs : c.rcb.hsToPsQueue = []) (harr : c.arrivals = []) (hq : c.rcb.hsToPsBufferQueue ≠ [])
    (h : receiveAndTestPosting c = some w) :
    ∃ r, performReceive (postOnReceipt c) = some r ∧ w = (r.1, fsmPost r.2 .receiveImmediate) := by
  rw [receiveAndTestPosting, harr, Option.map_eq_some_iff] at h
  obtain ⟨s, hs, rfl⟩ := h
  obtain ⟨r, hr, htest⟩ := Option.bind_eq_some_iff.mp hs
  refine ⟨r, hr, ?_⟩
  by_cases hpost : r.2.rcb.postState = .pendPosted
  · -- the queue is empty, and nothing ends the wait
    have hq' : (postOnReceipt c).rcb.hsToPsBufferQueue ≠ [] := hq
    obtain ⟨hnil, hkept, hsignal⟩ := performReceive_pendPosted hq' hr hpost
    have hwait : receiveRecordsSuspended r.2 = none := by
      have hready : ready r.2 = false := by
        rw [ready, hkept.rm.trans hrm, hkept.hs.trans hhs, hkept.signal.trans hsignal]
        rfl
      rw [receiveRecordsSuspended, hkept.arrivals.trans harr, waitForRecords,
        if_neg (by simp [hready])]
      rfl
    rw [testPosting, if_neg (not_not.mpr hpost), if_pos hnil, hwait] at htest
    cases htest
  · rw [testPosting, if_pos hpost] at htest
    cases htest
    rfl

theorem receiveRecords_ne_nil {signal : Bool} (hqueue : c.rcb.hsToPsBufferQueue ≠ []) :
    (receiveRecords (c.alone signal)).rcb.hsToPsBufferQueue ≠ [] := by
  obtain ⟨more, hmore⟩ := (receiveRecords_drained (c.alone signal)).queue
  rw [← hmore]
  exact List.append_ne_nil_of_left_ne_nil hqueue more

theorem postOnReceipt_postState (c : Conversation) :
    (postOnReceipt c).rcb.postState = .pendPosted := by
  cases h : c.rcb.postState <;> simp [postOnReceipt, setPostInfo, fsmPost, h, PostState.next]

/-- The start of Receive_And_Wait changes nothing that Receive_Immediate does not. -/
theorem postOnReceipt_eq (hpost : c.rcb.postState = .pendPosted)
    (hdata : c.tp.dataReceived = acWrNoDataReceived)
    (hstatus : c.tp.statusReceived = acSrNoStatusReceived) :
    postOnReceipt c = setPostInfo c := by
  obtain ⟨rcb, tp, found, signal, allocs, arrivals, toHs, handed⟩ := c
  cases rcb
  cases tp
  dsimp only at hpost hdata hstatus
  subst hpost hdata hstatus
  rfl

/-- What Receive_And_Wait leaves if it does not wait: the first pass over the
queue. -/
theorem rcvAndWait_alone {signal : Bool} {w : Rc × Conversation} (hfound : c.found = true)
    (hstate : c.rcb.convState = .rcvState) (hqueue : c.rcb.hsToPsBufferQueue ≠ [])
    (herr : (receiveRecords (c.alone signal)).rcb.errState ≠ .rcvdError)
    (hw : rcvAndWait (c.alone signal) = some w) :
    ∃ r, performReceive (postOnReceipt (receiveRecords (c.alone signal))) = some r ∧
      w = passRqToSend (r.1, fsmPost r.2 .receiveImmediate) := by
  have hdrained := receiveRecords_drained (c.alone signal)
  have hfound' : (c.alone signal).found = true := hfound
  rw [rcvAndWait_rcv hfound' hstate, if_neg herr] at hw
  obtain ⟨v, hv, rfl⟩ := Option.map_eq_some_iff.mp hw
  obtain ⟨r, hr, rfl⟩ := receiveAndTestPosting_alone hdrained.rm hdrained.hs hdrained.arrivals
    (receiveRecords_ne_nil hqueue) hv
  exact ⟨r, hr, rfl⟩

/-- With the partner's error both verbs do the same. -/
theorem agrees_of_rcvdError (hfound : c.found = true) (hstate : c.rcb.convState = .rcvState)
    (herr : ∀ signal, (receiveRecords (c.alone signal)).rcb.errState = .rcvdError) :
    AgreesWithoutWaiting c := by
  intro signal w hw
  have hfound' : (c.alone signal).found = true := hfound
  rw [rcvAndWait_rcv hfound' hstate, if_pos (herr signal)] at hw
  refine ⟨w, ?_, Agrees.refl w⟩
  rw [rcvImmediate_rcv hfound' hstate, if_pos (herr signal), hw]

/-- With a posting pending and nothing told to the program before, the verbs start
from the same state. -/
theorem agrees_of_pendPosted (hfound : c.found = true) (hstate : c.rcb.convState = .rcvState)
    (hqueue : c.rcb.hsToPsBufferQueue ≠ [])
    (herr : ∀ signal, (receiveRecords (c.alone signal)).rcb.errState ≠ .rcvdError)
    (hpost : ∀ signal, (receiveRecords (c.alone signal)).rcb.postState = .pendPosted)
    (hdata : c.tp.dataReceived = acWrNoDataReceived)
    (hstatus : c.tp.statusReceived = acSrNoStatusReceived) : AgreesWithoutWaiting c := by
  intro signal w hw
  have hfound' : (c.alone signal).found = true := hfound
  have htp : (receiveRecords (c.alone signal)).tp = c.tp :=
    (receiveRecords_drained (c.alone signal)).tp
  have hsame : postOnReceipt (receiveRecords (c.alone signal)) =
      setPostInfo (receiveRecords (c.alone signal)) :=
    postOnReceipt_eq (hpost signal) (htp ▸ hdata) (htp ▸ hstatus)
  obtain ⟨r, hr, rfl⟩ := rcvAndWait_alone hfound hstate hqueue (herr signal) hw
  refine ⟨_, ?_, Agrees.refl _⟩
  rw [rcvImmediate_rcv hfound' hstate, if_neg (herr signal), ← hsame, hr]
  rfl

/-- Without a posting pending Receive_Immediate leaves the queue as it is. -/
theorem not_agrees_of_ne (hfound : c.found = true) (hstate : c.rcb.convState = .rcvState)
    (hqueue : c.rcb.hsToPsBufferQueue ≠ [])
    (herr : (receiveRecords (c.alone false)).rcb.errState ≠ .rcvdError)
    (hpost : (receiveRecords (c.alone false)).rcb.postState ≠ .pendPosted)
    (hdone : (rcvAndWait (c.alone false)).isSome) : ¬ AgreesWithoutWaiting c := by
  intro hall
  have hdrained := receiveRecords_drained (c.alone false)
  have hfound' : (c.alone false).found = true := hfound
  have hsignal : (receiveRecords (c.alone false)).signal = false := hdrained.signal
  have hne : (receiveRecords (c.alone false)).rcb.hsToPsBufferQueue ≠ [] :=
    receiveRecords_ne_nil hqueue
  obtain ⟨w, hw⟩ := Option.isSome_iff_exists.mp hdone
  obtain ⟨i, hi, hagrees⟩ := hall false w hw
  obtain ⟨r, hr, rfl⟩ := rcvAndWait_alone hfound hstate hqueue herr hw
  have hleft : performReceive (setPostInfo (receiveRecords (c.alone false))) =
      some (acRcUnsuccessful, setPostInfo (receiveRecords (c.alone false))) :=
    performReceive_of_ne hsignal hne hpost
  rw [rcvImmediate_rcv hfound' hstate, if_neg herr, hleft] at hi
  obtain rfl := Option.some.inj hi
  have hne' : (postOnReceipt (receiveRecords (c.alone false))).rcb.hsToPsBufferQueue ≠ [] := hne
  obtain hrc | hqueue' := performReceive_first (c := postOnReceipt _) hsignal hne'
    (postOnReceipt_postState _) hr
  · exact hrc hagrees.rc.symm
  · exact hqueue' hagrees.queue.symm

/-- With a signal pending only Receive_And_Wait clears what the program was told
before. -/
theorem told_of_agrees (hfound : c.found = true) (hstate : c.rcb.convState = .rcvState)
    (herr : (receiveRecords (c.alone true)).rcb.errState ≠ .rcvdError)
    (hall : AgreesWithoutWaiting c) :
    c.tp.dataReceived = acWrNoDataReceived ∧ c.tp.statusReceived = acSrNoStatusReceived := by
  have hdrained := receiveRecords_drained (c.alone true)
  have hfound' : (c.alone true).found = true := hfound
  have hsignal : (receiveRecords (c.alone true)).signal = true := hdrained.signal
  have hfirst : performReceive (postOnReceipt (receiveRecords (c.alone true))) =
      some (acRcUnsuccessful, fsmPost (postOnReceipt (receiveRecords (c.alone true))) .post) :=
    performReceive_signal hsignal
  have hw : rcvAndWait (c.alone true) = some (passRqToSend (acRcUnsuccessful,
      fsmPost (fsmPost (postOnReceipt (receiveRecords (c.alone true))) .post)
        .receiveImmediate)) := by
    rw [rcvAndWait_rcv hfound' hstate, if_neg herr, receiveAndTestPosting, hfirst, Option.bind_some,
      testPosting, if_pos (fsmPost_post _)]
    rfl
  obtain ⟨i, hi, hagrees⟩ := hall true _ hw
  have hleft : performReceive (setPostInfo (receiveRecords (c.alone true))) =
      some (acRcUnsuccessful, fsmPost (setPostInfo (receiveRecords (c.alone true))) .post) :=
    performReceive_signal hsignal
  rw [rcvImmediate_rcv hfound' hstate, if_neg herr, hleft] at hi
  obtain rfl := Option.some.inj hi
  have htp : (receiveRecords (c.alone true)).tp = c.tp := hdrained.tp
  exact ⟨htp ▸ hagrees.data, htp ▸ hagrees.status⟩

end Verbs

/-- In Receive, with something on the queue and no error recorded, Receive_Immediate
agrees with Receive_And_Wait exactly if an error of the partner, and nothing worse,
waits to be recorded, or if a posting is pending, no failure waits, and the program
has been told nothing. -/
theorem receive_immediate_agrees (c : Conversation) (hfound : c.found = true)
    (hstate : c.rcb.convState = .rcvState) (herr : c.rcb.errState = .noRequests)
    (hqueue : c.rcb.hsToPsBufferQueue ≠ []) (hdone : (rcvAndWait (c.alone false)).isSome) :
    AgreesWithoutWaiting c ↔
      c.rcb.rmToPsQueue = [] ∧ (.receiveError ∈ c.rcb.hsToPsQueue ∨
        c.rcb.postState = .pendPosted ∧ c.tp.dataReceived = acWrNoDataReceived ∧
          c.tp.statusReceived = acSrNoStatusReceived) := by
  have hrcvd (signal : Bool) : (receiveRecords (c.alone signal)).rcb.errState = .rcvdError ↔
      c.rcb.rmToPsQueue = [] ∧ .receiveError ∈ c.rcb.hsToPsQueue := by
    rw [receiveRecords_rcvdError]
    simp [Conversation.alone, herr]
  have hpend (signal : Bool) : (receiveRecords (c.alone signal)).rcb.postState = .pendPosted ↔
      c.rcb.rmToPsQueue = [] ∧ c.rcb.postState = .pendPosted := receiveRecords_pendPosted
  by_cases hpartner : c.rcb.rmToPsQueue = [] ∧ .receiveError ∈ c.rcb.hsToPsQueue
  · exact iff_of_true (agrees_of_rcvdError hfound hstate fun signal => (hrcvd signal).mpr hpartner)
      ⟨hpartner.1, Or.inl hpartner.2⟩
  · have herr' (signal : Bool) : (receiveRecords (c.alone signal)).rcb.errState ≠ .rcvdError :=
      fun h => hpartner ((hrcvd signal).mp h)
    constructor
    · intro hall
      have hpost : c.rcb.rmToPsQueue = [] ∧ c.rcb.postState = .pendPosted := by
        by_contra h
        exact not_agrees_of_ne hfound hstate hqueue (herr' false) (mt (hpend false).mp h) hdone hall
      exact ⟨hpost.1, Or.inr ⟨hpost.2, told_of_agrees hfound hstate (herr' true) hall⟩⟩
    · rintro ⟨hrm, herror | ⟨hpost, hdata, hstatus⟩⟩
      · exact absurd ⟨hrm, herror⟩ hpartner
      · exact agrees_of_pendPosted hfound hstate hqueue herr'
          (fun signal => (hpend signal).mpr ⟨hrm, hpost⟩) hdata hstatus

/-- A conversation in Receive that has received a record of 3 bytes, which the
program has room for. -/
def receivable (post : PostState) : Conversation :=
  { rcb := { convState := .rcvState, postState := post, hsToPsBufferQueue := [{ data := [0, 3, 1] }] }
    tp := { conversationType := .basic, rxReqLen := 8 } }

theorem receive_immediate_agrees_pending :
    AgreesWithoutWaiting (receivable .pendPosted) ↔
      (receivable .pendPosted).rcb.rmToPsQueue = [] ∧
        (.receiveError ∈ (receivable .pendPosted).rcb.hsToPsQueue ∨
          (receivable .pendPosted).rcb.postState = .pendPosted ∧
            (receivable .pendPosted).tp.dataReceived = acWrNoDataReceived ∧
              (receivable .pendPosted).tp.statusReceived = acSrNoStatusReceived) :=
  receive_immediate_agrees (receivable .pendPosted) rfl rfl rfl (List.cons_ne_nil _ _) rfl

/-- After any verb the state of posting is reset, and Receive_Immediate leaves the
record that Receive_And_Wait copies. -/
theorem receive_immediate_leaves :
    (receivable .reset).found = true ∧ (receivable .reset).rcb.convState = .rcvState ∧
      (receivable .reset).rcb.errState = .noRequests ∧
      (receivable .reset).rcb.hsToPsBufferQueue ≠ [] ∧
      (∃ w i, rcvAndWait ((receivable .reset).alone false) = some w ∧ w.1 = acRcOk ∧
        w.2.tp.rxBuffer = [0, 3, 1] ∧ rcvImmediate ((receivable .reset).alone false) = some i ∧
        i.1 = acRcUnsuccessful ∧ i.2.tp.rxBuffer = []) ∧
      ¬ AgreesWithoutWaiting (receivable .reset) := by
  have hruns : ∃ w i, rcvAndWait ((receivable .reset).alone false) = some w ∧ w.1 = acRcOk ∧
      w.2.tp.rxBuffer = [0, 3, 1] ∧ rcvImmediate ((receivable .reset).alone false) = some i ∧
      i.1 = acRcUnsuccessful ∧ i.2.tp.rxBuffer = [] :=
    ⟨_, _, rfl, rfl, rfl, rfl, rfl, rfl⟩
  refine ⟨rfl, rfl, rfl, List.cons_ne_nil _ _, hruns, fun hall => ?_⟩
  obtain ⟨w, i, hw, hok, -, hi, hun, -⟩ := hruns
  obtain ⟨i', hi', hagrees⟩ := hall false w hw
  obtain rfl := Option.some.inj (hi.symm.trans hi')
  exact absurd (hun.symm.trans (hagrees.rc.trans hok)) (by decide)

end LinuxSna.Ps
