import LinuxSna.Proof.Sna.Ps.ErrorHeader
import LinuxSna.Proof.Sna.Ps.FailedReceive
import LinuxSna.Proof.Sna.Ps.Marks

/-!
# What the verbs come to while MUs come in

Where only MUs are received, no error is on record and nothing breaks a wait off. Then an Allocate is
followed by verbs that leave the conversation in Send or in Receive, or end it, and the return code
with what was received tells which: unless an FMH-7 comes that is not a deallocation, or an MU with an
LL field that is not valid, on which the conversation stays in Receive whatever the code.

* `takeMus_left`, `performReceive_brought`: a pass over the queue, by induction on it;
* `within_brought`: the rounds of a wait;
* `sendData_idle`, `rcvAndWait_brought`, `rcvImmediate_idle`: the verbs.
-/

namespace LinuxSna.Ps

open Framework (before_invariant loop_last)

variable {c d e s : Conversation} {r : Rc × Conversation} {q : List Mu} {m : Mu} {sends : Prop}

/-! ## Without errors -/

/-- What comes in is MUs, and no error is on record. No confirmation was agreed upon. -/
structure Calm (c : Conversation) : Prop where
  signal : c.signal = false
  errState : c.rcb.errState = .noRequests
  syncLevel : c.rcb.syncLevel = .none
  rm : c.rcb.rmToPsQueue = []
  hs : ∀ r ∈ c.rcb.hsToPsQueue, ∃ m, r = .mu m
  arrivals : ∀ a ∈ c.arrivals, ∃ ms : List Mu, a = .records [] (ms.map .mu)

/-- What a program is told of by, beside the return code -/
def Conversation.told (c : Conversation) : ConvState × Nat × Nat :=
  (c.rcb.convState, c.tp.dataReceived, c.tp.statusReceived)

theorem told_eq {s : ConvState} {dr sr : Nat} : c.told = (s, dr, sr) ↔
    c.rcb.convState = s ∧ c.tp.dataReceived = dr ∧ c.tp.statusReceived = sr := by
  simp [Conversation.told]

/-- What is left for the next verb -/
structure Idle (c : Conversation) : Prop where
  calm : Calm c
  post : c.rcb.postState ≠ .pendPosted

theorem Kept.calm (h : Kept c d) (hc : Calm c) : Calm d where
  signal := h.signal.trans hc.signal
  errState := h.errState.trans hc.errState
  syncLevel := (congrArg (fun m => m.2.2) h.marks).trans hc.syncLevel
  rm := h.rm.trans hc.rm
  hs := h.hs.symm ▸ hc.hs
  arrivals := h.arrivals.symm ▸ hc.arrivals

theorem Calm.post (h : Calm c) (input : PostInput) : Calm (fsmPost c input) :=
  ⟨h.signal, h.errState, h.syncLevel, h.rm, h.hs, h.arrivals⟩

/-- Where no error is on record, an indication changes the state of the conversation and nothing
else. -/
theorem Calm.received_eq (h : Calm c) {a : ConvInput} {s : ConvState}
    (hs : moveR a c.rcb.convState = .go s ∨ moveR a c.rcb.convState = .goB s) :
    received a c = { c with rcb.convState := s } := by
  have hreset : c.rcb.errState.next .reset = c.rcb.errState := by
    rw [h.errState]
    rfl
  unfold received fsmConversation move
  obtain hs | hs := hs
  · simp only [hs]
    rfl
  · simp only [hs, fsmConvOutputB, fsmErrorOrFailure, hreset]
    rfl

/-! ## Records -/

theorem Calm.arrive (h : Calm c) (ms : List Mu) :
    Calm (arrive c (.records [] (ms.map .mu))) where
  signal := h.signal
  errState := h.errState
  syncLevel := h.syncLevel
  rm := (List.append_nil _).trans h.rm
  hs r hr := by
    obtain hr | hr := List.mem_append.mp hr
    · exact h.hs r hr
    · obtain ⟨m, -, rfl⟩ := List.mem_map.mp hr
      exact ⟨m, rfl⟩
  arrivals := h.arrivals

theorem Calm.receiveRecords (h : Calm c) : Calm (receiveRecords c) := by
  have hdrained := receiveRecords_drained c
  constructor
  · exact hdrained.signal.trans h.signal
  · apply receiveRecords_noRequests.mpr
    refine ⟨h.rm, h.errState, fun hmem => ?_⟩
    obtain ⟨m, hm⟩ := h.hs _ hmem
    cases hm
  · exact (congrArg (fun m => m.2.2) (receiveRecords_marks c)).trans h.syncLevel
  · exact hdrained.rm
  · intro r hr
    rw [hdrained.hs] at hr
    cases hr
  · rw [hdrained.arrivals]
    exact h.arrivals

theorem receiveRecords_told (c : Conversation) : (receiveRecords c).told = c.told := by
  have hdrained := receiveRecords_drained c
  rw [Conversation.told, hdrained.convState, hdrained.tp]
  rfl

theorem waitForRecords_calm {as : List Arrival} (h : Calm c)
    (has : ∀ a ∈ as, ∃ ms : List Mu, a = .records [] (ms.map .mu))
    (hd : waitForRecords as c = some d) : Calm d ∧ d.told = c.told := by
  induction as generalizing c with
  | nil =>
    rw [waitForRecords] at hd
    split at hd
    · cases hd
      exact ⟨⟨h.signal, h.errState, h.syncLevel, h.rm, h.hs, fun a ha => by cases ha⟩, rfl⟩
    · cases hd
  | cons a as ih =>
    rw [waitForRecords] at hd
    split at hd
    · cases hd
      exact ⟨⟨h.signal, h.errState, h.syncLevel, h.rm, h.hs, has⟩, rfl⟩
    · rw [List.forall_mem_cons] at has
      obtain ⟨⟨ms, rfl⟩, has⟩ := has
      have hrest := ih (h.arrive ms) has hd
      exact hrest

/-! ## MUs -/

/-- The first byte of the FMH-7 is its length. -/
def Mu.Whole (m : Mu) : Prop := fmh7Size ≤ m.data.length ∧ byte m.data 0 = m.data.length

/-- The FMH-7 says that the conversation was deallocated, and no log data follow. -/
def Mu.Deallocates (m : Mu) : Prop :=
  fmh7Logi m.data = false ∧ fmh7Sense m.data ∈ deallocateAbendSenses

instance (m : Mu) : Decidable m.Whole := inferInstanceAs (Decidable (_ ∧ _))

instance (m : Mu) : Decidable m.Deallocates := inferInstanceAs (Decidable (_ ∧ _))

/-- Each MU that a wait comes to on its queue is an FMH-7 that is whole, or an MU that is not one. If
the program had sent, the FMH-7 deallocates, and the LL fields of the others are valid. -/
def Fair (sends : Prop) (c : Conversation) : List Mu → Prop
  | [] => True
  | m :: q =>
    (m.isFmh7 = true → m.Whole ∧ (sends → m.Deallocates)) ∧
      (m.isFmh7 = false → ∀ d, processData { c with rcb.hsToPsBufferQueue := q } m = some d →
        (sends → d.err = acRcOk) ∧ (d.err = acRcOk → d.reason = .none → Fair sends d.c q))

instance Fair.decidable [Decidable sends] :
    ∀ (c : Conversation) (q : List Mu), Decidable (Fair sends c q)
  | _, [] => .isTrue trivial
  | c, m :: q =>
    have : ∀ d, Decidable (Fair sends d q) := fun d => Fair.decidable d q
    inferInstanceAs (Decidable ((m.isFmh7 = true → m.Whole ∧ (sends → m.Deallocates)) ∧
      (m.isFmh7 = false → ∀ d ∈ processData { c with rcb.hsToPsBufferQueue := q } m,
        (sends → d.err = acRcOk) ∧ (d.err = acRcOk → d.reason = .none → Fair sends d.c q))))

/-- What a wait of a program brings: the return code, the state of the conversation, and what was
received -/
inductive Brought (sends : Prop) : Rc → ConvState × Nat × Nat → Prop where
  | data {dr : Nat} (h : dr ∈ [acWrData, acWrDataComplete, acWrDataIncomplete]) :
    Brought sends acRcOk (.rcvState, dr, acSrNoStatusReceived)
  | turned {dr : Nat}
    (h : dr ∈ [acWrNoDataReceived, acWrData, acWrDataComplete, acWrDataIncomplete]) :
    Brought sends acRcOk (.sendState, dr, acSrSendReceived)
  | ended {rc : Rc} {dr : Nat}
    (h : rc ∈ [acRcResourceFailureNoRetry, acRcDeallocateNormal, acRcDeallocateAbendProg,
      acRcDeallocateAbendSvc, acRcDeallocateAbendTimer]) :
    Brought sends rc (.endConv, dr, acSrNoStatusReceived)
  | stays {rc : Rc} {dr : Nat} (h : ¬ sends) : Brought sends rc (.rcvState, dr, acSrNoStatusReceived)

/-- A deallocation ends the conversation; another FMH-7 leaves it as it is. -/
theorem processFmh7_brought (h : Calm c) (hstate : c.rcb.convState = .rcvState)
    (hstatus : c.tp.statusReceived = acSrNoStatusReceived) (hw : m.Whole)
    (hd : sends → m.Deallocates) :
    Calm (processFmh7 c m.data).2 ∧
      Brought sends (processFmh7 c m.data).1 (processFmh7 c m.data).2.told := by
  by_cases hdealloc : m.Deallocates
  · obtain ⟨hlogi, hsense⟩ := hdealloc
    have hset := (@setFmh7Rc_deallocate c _ hsense).1
    have hended : Brought sends (setFmh7Rc c (fmh7Sense m.data)).1
        (.endConv, c.tp.dataReceived, acSrNoStatusReceived) :=
      .ended (.tail _ (.tail _ (setFmh7Rc_abend hsense)))
    rw [processFmh7_whole ⟨hw.1, hw.2, hlogi⟩, if_pos hsense, hset,
      h.received_eq (s := .endConv) (by rw [hstate]; exact .inr rfl)]
    rw [← hstatus] at hended
    exact ⟨⟨h.signal, h.errState, h.syncLevel, h.rm, h.hs, h.arrivals⟩, hended⟩
  · have hstays (rc : Rc) : Brought sends rc c.told := by
      rw [Conversation.told, hstate, hstatus]
      exact .stays fun hs => hdealloc (hd hs)
    have hlen : ¬ (m.data.length < fmh7Size ∨ byte m.data 0 ≠ m.data.length) :=
      not_or.mpr ⟨Nat.not_lt.mpr hw.1, not_not.mpr hw.2⟩
    rw [processFmh7, if_neg hlen]
    split
    · exact ⟨h, hstays _⟩
    · rename_i hlogi
      rw [if_pos fun hsense => hdealloc ⟨Bool.not_eq_true _ ▸ hlogi, hsense⟩]
      exact ⟨h, hstays _⟩

/-! ## A pass over the queue -/

/-- A wait goes on: nothing has been received. -/
structure Waiting (c : Conversation) : Prop where
  calm : Calm c
  post : c.rcb.postState = .pendPosted
  told : c.told = (.rcvState, acWrNoDataReceived, acSrNoStatusReceived)

/-- What the loop over the queue leaves: what ends the wait, or data, or nothing yet -/
inductive Left (sends : Prop) (g : Got) : Prop where
  | brought (hend : g.endOfChain = false) (post : g.c.rcb.postState ≠ .pendPosted)
    (h : Brought sends g.err g.c.told)
  | data {dr : Nat} (err : g.err = acRcOk) (post : g.c.rcb.postState ≠ .pendPosted)
    (h : dr ∈ [acWrData, acWrDataComplete, acWrDataIncomplete])
    (told : g.c.told = (.rcvState, dr, acSrNoStatusReceived))
  | read (err : g.err = acRcOk) (h : Waiting g.c)

/-- An FMH-7 is the last MU that the loop comes to. -/
theorem takeMus_posted {err : Rc} {ec : CtrlType} {g : Got} (hpost : c.rcb.postState ≠ .pendPosted)
    (hg : takeMus err true ec c q = some g) :
    g.c = { c with rcb.hsToPsBufferQueue := q } ∧ g.err = err ∧ g.endOfChainType = ec ∧
      g.endOfChain = false := by
  have hend := endOfChain_of_fmh7 (takeMus_fmh7 hg)
  cases q with
  | nil =>
    cases hg
    exact ⟨rfl, rfl, rfl, hend⟩
  | cons m q =>
    rw [takeMus_of_ne hpost] at hg
    cases hg
    exact ⟨rfl, rfl, rfl, hend⟩

theorem takeMus_left {err : Rc} {ec : CtrlType} {g : Got} (hc : Waiting c) (hf : Fair sends c q)
    (hq : q ≠ [] ∨ err = acRcOk) (hec : ec ∈ CtrlType.received)
    (hg : takeMus err false ec c q = some g) :
    Calm g.c ∧ g.endOfChainType ∈ CtrlType.received ∧ Left sends g := by
  induction q generalizing c err ec with
  | nil =>
    have hqueue := (Kept.queue c []).calm hc.calm
    cases hg
    exact ⟨hqueue, hec, .read (hq.resolve_left fun h => h rfl) ⟨hqueue, hc.post, hc.told⟩⟩
  | cons m q ih =>
    have hqueue := (Kept.queue c q).calm hc.calm
    have hpost := hc.post
    obtain ⟨hstate, hdata, hstatus⟩ := told_eq.mp hc.told
    cases hm : m.isFmh7 with
    | true =>
      obtain ⟨hw, hd⟩ := hf.1 hm
      have hbrought := processFmh7_brought (hqueue.post .post) hstate hstatus hw hd
      have hposted : (processFmh7 (fsmPost { c with rcb.hsToPsBufferQueue := q } .post)
          m.data).2.rcb.postState ≠ .pendPosted := by
        rw [processFmh7_postState]
        exact fsmPost_post _
      rw [takeMus_of_fmh7 hpost hm] at hg
      obtain ⟨hgc, hgerr, hgec, hend⟩ := takeMus_posted hposted hg
      rw [hgc, hgec]
      refine ⟨(Kept.queue _ q).calm hbrought.1, hec, .brought hend ?_ ?_⟩
      · rw [hgc]
        exact hposted
      · rw [hgc, hgerr]
        exact hbrought.2
    | false =>
      cases ha : processData { c with rcb.hsToPsBufferQueue := q } m with
      | none =>
        rw [takeMus_of_none hpost hm ha] at hg
        cases hg
      | some a =>
        have hdone := processData_done ha
        have hreceives := processData_receives ha
        have hcalm' : Calm a.c := hdone.kept.calm hqueue
        have htold : a.c.told = (.rcvState, a.c.tp.dataReceived, acSrNoStatusReceived) :=
          told_eq.mpr ⟨hdone.kept.convState.trans hstate, rfl, hdone.kept.status.trans hstatus⟩
        obtain ⟨hvalid, hrest⟩ := hf.2 hm a ha
        have htype : a.endOfChainType ∈ CtrlType.received := hdone.type ▸ m.received
        rw [takeMus_of_some hpost hm ha] at hg
        split at hg
        · rename_i herr
          cases hg
          refine ⟨hcalm'.post .post, htype, .brought rfl (fsmPost_post a.c) ?_⟩
          show Brought sends a.err a.c.told
          rw [htold]
          exact .stays fun hs => herr (hvalid hs)
        · rename_i herr
          split at hg
          · rename_i hreason
            cases hg
            exact ⟨hcalm'.post .post, htype, .data (not_not.mp herr) (fsmPost_post a.c)
              (hreceives.2 hreason) htold⟩
          · rename_i hreason
            have hnone : a.c.tp.dataReceived = acWrNoDataReceived :=
              (hreceives.1 (not_not.mp hreason)).trans hdata
            rw [hnone] at htold
            have hwaiting : Waiting a.c := ⟨hcalm', hdone.kept.postState.trans hpost, htold⟩
            exact ih hwaiting (hrest (not_not.mp herr) (not_not.mp hreason))
              (.inr (not_not.mp herr)) htype hg

/-- The end of a chain turns the conversation around, or ends it. -/
theorem ecProcessing_brought {t : CtrlType} {dr : Nat} (h : Calm c)
    (htold : c.told = (.rcvState, dr, acSrNoStatusReceived))
    (hdr : dr ∈ [acWrNoDataReceived, acWrData, acWrDataComplete, acWrDataIncomplete])
    (ht : t ∈ CtrlType.received) (hend : t ≠ .notEndOfData) :
    Calm (ecProcessing c t).2 ∧ Brought sends (ecProcessing c t).1 (ecProcessing c t).2.told := by
  obtain ⟨hstate, rfl, hstatus⟩ := told_eq.mp htold
  have hmoved (s : ConvState) : Calm { c with rcb.convState := s } :=
    ⟨h.signal, h.errState, h.syncLevel, h.rm, h.hs, h.arrivals⟩
  have hended {rc : Rc} (hrc : rc ∈ [acRcResourceFailureNoRetry, acRcDeallocateNormal,
      acRcDeallocateAbendProg, acRcDeallocateAbendSvc, acRcDeallocateAbendTimer]) :
      Brought sends rc (.endConv, c.tp.dataReceived, c.tp.statusReceived) := by
    rw [hstatus]
    exact .ended hrc
  have hprotocol : ecProtocolError c =
      (acRcResourceFailureNoRetry, { c with rcb.convState := .endConv }) :=
    congrArg (Prod.mk _) (h.received_eq (by rw [hstate]; exact .inr rfl))
  unfold ecProcessing
  by_cases hinc : c.rcb.llRx.state = .incomplete
  · rw [if_pos hinc, hprotocol]
    exact ⟨hmoved .endConv, hended (.head _)⟩
  · rw [if_neg hinc]
    by_cases hconfirm : c.rcb.syncLevel = .none ∧ t ∈ confirmTypes
    · rw [if_pos hconfirm, hprotocol]
      exact ⟨hmoved .endConv, hended (.head _)⟩
    · rw [if_neg hconfirm]
      have htype : t = .prepareToRcvFlush ∨ t = .deallocateFlush := by
        have hnot : t ∉ confirmTypes := fun hmem => hconfirm ⟨h.syncLevel, hmem⟩
        revert ht hend hnot
        cases t <;> decide
      obtain rfl | rfl := htype
      · have hcalm : Calm { c with tp.statusReceived := acSrSendReceived } :=
          ⟨h.signal, h.errState, h.syncLevel, h.rm, h.hs, h.arrivals⟩
        have hsend := hcalm.received_eq (a := .sendIndicator) (s := .sendState)
          (by show moveR _ c.rcb.convState = _ ∨ _; rw [hstate]; exact .inl rfl)
        dsimp only
        rw [hsend]
        exact ⟨⟨h.signal, h.errState, h.syncLevel, h.rm, h.hs, h.arrivals⟩, .turned hdr⟩
      · dsimp only
        rw [h.received_eq (s := .endConv) (by rw [hstate]; exact .inl rfl)]
        exact ⟨hmoved .endConv, hended (.tail _ (.head _))⟩

theorem Calm.nothingQueued (h : Calm c) : nothingQueued c = (acRcUnsuccessful, c) := by
  have herr := h.errState
  rw [Ps.nothingQueued, if_neg (by rw [herr]; decide), if_neg (by rw [herr]; decide)]

/-- A pass over the queue ends the wait, or has received nothing. -/
theorem performReceive_brought (hc : Waiting c) (hf : Fair sends c c.rcb.hsToPsBufferQueue)
    (hr : performReceive c = some r) :
    Calm r.2 ∧ (Waiting r.2 ∨ r.2.rcb.postState ≠ .pendPosted ∧ Brought sends r.1 r.2.told) := by
  have hs := hc.calm.signal
  by_cases hq : c.rcb.hsToPsBufferQueue = []
  · rw [performReceive, if_neg (by simp [hs]), if_pos hq, hc.calm.nothingQueued] at hr
    cases hr
    exact ⟨hc.calm, .inl hc⟩
  · rw [performReceive_gather hs hq] at hr
    obtain ⟨g, hg, rfl⟩ := Option.map_eq_some_iff.mp hr
    obtain ⟨hcalm, htype, hleft⟩ := takeMus_left hc hf (.inl hq) (by decide) hg
    rw [Got.finish]
    have hec {dr : Nat} (hend : g.endOfChain = true)
        (htold : g.c.told = (.rcvState, dr, acSrNoStatusReceived))
        (hdr : dr ∈ [acWrNoDataReceived, acWrData, acWrDataComplete, acWrDataIncomplete]) :
        Calm (ecProcessing (fsmPost g.c .post) g.endOfChainType).2 ∧
          (Waiting (ecProcessing (fsmPost g.c .post) g.endOfChainType).2 ∨
            (ecProcessing (fsmPost g.c .post) g.endOfChainType).2.rcb.postState ≠ .pendPosted ∧
            Brought sends (ecProcessing (fsmPost g.c .post) g.endOfChainType).1
              (ecProcessing (fsmPost g.c .post) g.endOfChainType).2.told) := by
      have hne : g.endOfChainType ≠ .notEndOfData := by
        simp only [Got.endOfChain, Bool.and_eq_true, decide_eq_true_eq] at hend
        exact hend.2
      obtain ⟨hcalm', hbrought⟩ := ecProcessing_brought (hcalm.post .post) htold hdr htype hne
      refine ⟨hcalm', .inr ⟨?_, hbrought⟩⟩
      rw [(ecProcessing_keeps _ _).1]
      exact fsmPost_post g.c
    cases hleft with
    | brought hend post h =>
      rw [hend]
      exact ⟨hcalm, .inr ⟨post, h⟩⟩
    | data err post h told =>
      split
      · rename_i hend
        exact hec hend told (.tail _ h)
      · refine ⟨hcalm, .inr ⟨post, ?_⟩⟩
        show Brought sends g.err g.c.told
        rw [err, told]
        exact .data h
    | read err h =>
      split
      · rename_i hend
        exact hec hend h.told (.head _)
      · exact ⟨hcalm, .inl h⟩

/-! ## Rounds -/

theorem Waiting.next (hc : Waiting c) (hf : Fair sends c c.rcb.hsToPsBufferQueue)
    (h : nextRound c = some d) : Waiting d := by
  obtain ⟨r, e, hr, hpost, -, he, rfl⟩ := nextRound_spec h
  obtain ⟨hcalm, hwaiting | ⟨hne, -⟩⟩ := performReceive_brought hc hf hr
  · obtain ⟨hcalm', htold⟩ := waitForRecords_calm hcalm hcalm.arrivals he
    refine ⟨hcalm'.receiveRecords, ?_, ?_⟩
    · apply receiveRecords_pendPosted.mpr
      exact ⟨hcalm'.rm, (waitForRecords_waited he).1.postState.trans hpost⟩
    · rw [receiveRecords_told, htold, hwaiting.told]
  · exact absurd hpost hne

/-- The wait, if all that it comes to is fair -/
theorem within_brought {n : Nat} (hc : Waiting c)
    (hf : ∀ d, Rounds c d → Fair sends d d.rcb.hsToPsBufferQueue) (h : within n c = some r) :
    Calm r.2 ∧ Brought sends r.1 r.2.told := by
  induction n generalizing c with
  | zero =>
    rw [within_zero] at h
    cases h
  | succ n ih =>
    have hfair := hf c .refl
    obtain ⟨hr, hpost⟩ | ⟨d, hd, hn⟩ := within_cases h
    · obtain ⟨hcalm, hwaiting | ⟨-, hbrought⟩⟩ := performReceive_brought hc hfair hr
      · exact absurd hwaiting.post hpost
      · exact ⟨hcalm, hbrought⟩
    · exact ih (hc.next hfair hd) (fun e he => hf e (.head hd he)) hn

/-! ## The verbs -/

theorem passRqToSend_idle (h : Calm r.2) (hpost : r.2.rcb.postState ≠ .pendPosted) :
    Idle (passRqToSend r).2 :=
  ⟨⟨h.signal, h.errState, h.syncLevel, h.rm, h.hs, h.arrivals⟩, hpost⟩

theorem fsmPost_receiveImmediate (c : Conversation) :
    (fsmPost c .receiveImmediate).rcb.postState ≠ .pendPosted := by
  show c.rcb.postState.next .receiveImmediate ≠ .pendPosted
  cases c.rcb.postState <;> decide

theorem fsmConvOutputA_eq (c : Conversation) :
    ∃ allocs toHs, fsmConvOutputA c = { c with allocs := allocs, toHs := toHs } := by
  have halloc := createAndInitLimitedMu_snd c
  rw [fsmConvOutputA]
  split
  · split
    · rename_i h
      rw [h] at halloc
      subst halloc
      exact ⟨_, _, rfl⟩
    · rename_i h
      rw [h] at halloc
      subst halloc
      exact ⟨_, _, rfl⟩
  · exact ⟨c.allocs, c.toHs, rfl⟩

/-- The wait is in Receive. -/
theorem Calm.waits (h : Calm c)
    (hstate : c.rcb.convState = .sendState ∨ c.rcb.convState = .rcvState) :
    (fsmConversation .s .receiveAndWait c true).1 = false ∧
      Waiting (postOnReceipt (fsmConversation .s .receiveAndWait c false).2) := by
  have hmove : (fsmConversation .s .receiveAndWait c true).1 = false ∧
      Calm (fsmConversation .s .receiveAndWait c false).2 ∧
        (fsmConversation .s .receiveAndWait c false).2.rcb.convState = .rcvState := by
    unfold fsmConversation move
    obtain hs | hs := hstate
    · obtain ⟨allocs, toHs, heq⟩ := fsmConvOutputA_eq { c with rcb.convState := .rcvState }
      rw [hs]
      show false = false ∧ Calm (fsmConvOutputA _) ∧ (fsmConvOutputA _).rcb.convState = _
      rw [heq]
      exact ⟨rfl, ⟨h.signal, h.errState, h.syncLevel, h.rm, h.hs, h.arrivals⟩, rfl⟩
    · rw [hs]
      exact ⟨rfl, h, hs⟩
  obtain ⟨hrefused, hcalm, hrcv⟩ := hmove
  refine ⟨hrefused, ?_, postOnReceipt_postState _, told_eq.mpr ⟨hrcv, rfl, rfl⟩⟩
  exact ⟨hcalm.signal, hcalm.errState, hcalm.syncLevel, hcalm.rm, hcalm.hs, hcalm.arrivals⟩

/-- The program waits in Send or in Receive. -/
theorem rcvAndWait_brought (h : Idle c)
    (hstate : c.rcb.convState = .sendState ∨ c.rcb.convState = .rcvState)
    (hf : ∀ s d, loopStart c = some s → Rounds s d → Fair sends d d.rcb.hsToPsBufferQueue)
    (hr : rcvAndWait c = some r) :
    Idle r.2 ∧ (r = (acRcProductSpecific, c) ∨ Brought sends r.1 r.2.told) := by
  have hrefused := (h.calm.waits hstate).1
  cases hfound : c.found with
  | false =>
    rw [rcvAndWait, if_pos (by simp [hfound])] at hr
    cases hr
    exact ⟨h, .inl rfl⟩
  | true =>
    have hrec := h.calm.receiveRecords
    have hconv := (receiveRecords_drained c).convState
    have hwaiting := (hrec.waits (by rw [hconv]; exact hstate)).2
    have herr : (receiveRecords c).rcb.errState ≠ .rcvdError := by
      rw [hrec.errState]
      decide
    rw [rcvAndWait, if_neg (by simp [hfound]), if_neg (by simp [hrefused])] at hr
    dsimp only at hr
    rw [if_neg herr] at hr
    obtain ⟨x, hx, rfl⟩ := Option.map_eq_some_iff.mp hr
    obtain ⟨y, hy, rfl⟩ := Option.map_eq_some_iff.mp hx
    have hstart : loopStart c =
        some (postOnReceipt (fsmConversation .s .receiveAndWait (receiveRecords c) false).2) := by
      rw [loopStart, if_neg (by simp [hfound, hrefused]), if_neg herr]
    obtain ⟨hcalm, hbrought⟩ := within_brought hwaiting (fun d hd => hf _ d hstart hd) hy
    exact ⟨passRqToSend_idle (hcalm.post _) (fsmPost_receiveImmediate y.2), .inr hbrought⟩

theorem Idle.performReceive (h : Idle c) : performReceive c = some (acRcUnsuccessful, c) := by
  have hs := h.calm.signal
  by_cases hq : c.rcb.hsToPsBufferQueue = []
  · rw [Ps.performReceive, if_neg (by simp [hs]), if_pos hq, h.calm.nothingQueued]
  · exact performReceive_of_ne hs hq h.post

/-- Without a wait nothing is received: no posting is pending. -/
theorem rcvImmediate_idle (h : Idle c) (hstate : c.rcb.convState = .rcvState)
    (hr : rcvImmediate c = some r) :
    Idle r.2 ∧ r.2.rcb.convState = .rcvState ∧ r.1 ∈ [acRcUnsuccessful, acRcProductSpecific] := by
  cases hfound : c.found with
  | false =>
    rw [rcvImmediate, if_pos (by simp [hfound])] at hr
    cases hr
    exact ⟨h, hstate, .tail _ (.head _)⟩
  | true =>
    have hrec := h.calm.receiveRecords
    have hconv : (receiveRecords c).rcb.convState = .rcvState :=
      (receiveRecords_drained c).convState.trans hstate
    have hpost : (receiveRecords c).rcb.postState ≠ .pendPosted :=
      fun hp => h.post (receiveRecords_pendPosted.mp hp).2
    have hidle : Idle (setPostInfo (receiveRecords c)) :=
      ⟨⟨hrec.signal, hrec.errState, hrec.syncLevel, hrec.rm, hrec.hs, hrec.arrivals⟩, hpost⟩
    have hstay (readonly : Bool) {d : Conversation} (hd : d.rcb.convState = .rcvState) :
        fsmConversation .s .receiveImmediate d readonly = (false, d) := by
      unfold fsmConversation move
      rw [hd]
      rfl
    rw [rcvImmediate, if_neg (by simp [hfound]), hstay true hstate, if_neg Bool.false_ne_true] at hr
    dsimp only at hr
    rw [if_neg (by rw [hrec.errState]; decide), hstay false hconv, hidle.performReceive] at hr
    cases hr
    exact ⟨passRqToSend_idle (hidle.calm.post _) (fsmPost_receiveImmediate _), hconv, .head _⟩

theorem validate_rc {slack : UInt8} {l : LlTx} {data : List UInt8} {v : Rc × LlTx}
    (h : validateLogicalRecords slack l data = some v) :
    v.1 ∈ [acRcOk, acRcProgramParameterCheck] := by
  obtain ⟨k, t, -, ht⟩ := loop_last h
  rw [validatePass] at ht
  split at ht
  · cases ht
    exact .tail _ (.head _)
  · dsimp only at ht
    split at ht
    · cases ht
    · cases ht
      exact .head _

/-- Send_Data leaves the program in Send. -/
theorem sendData_idle {slack : UInt8} (h : Idle c) (hstate : c.rcb.convState = .sendState)
    (hr : sendData slack c = some r) :
    Idle r.2 ∧ r.2.rcb.convState = .sendState ∧
      r.1 ∈ [acRcOk, acRcProgramParameterCheck, acRcProductSpecific] := by
  cases hfound : c.found with
  | false =>
    rw [sendData, if_pos (by simp [hfound])] at hr
    cases hr
    exact ⟨h, hstate, .tail _ (.tail _ (.head _))⟩
  | true =>
    have hrec := h.calm.receiveRecords
    have hconv : (receiveRecords c).rcb.convState = .sendState :=
      (receiveRecords_drained c).convState.trans hstate
    have hpost : (receiveRecords c).rcb.postState ≠ .pendPosted :=
      fun hp => h.post (receiveRecords_pendPosted.mp hp).2
    have hpermitted : (fsmConversation .s .sendData c true).1 = false := by
      unfold fsmConversation move
      rw [hstate]
      rfl
    rw [sendData, if_neg (by simp [hfound]), if_neg (by simp [hpermitted])] at hr
    dsimp only at hr
    rw [hrec.errState] at hr
    obtain ⟨x, hx, rfl⟩ := Option.map_eq_some_iff.mp hr
    suffices hx : Calm x.2 ∧ x.2.rcb.postState ≠ .pendPosted ∧ x.2.rcb.convState = .sendState ∧
        x.1 ∈ [acRcOk, acRcProgramParameterCheck] by
      obtain ⟨hcalm, hpost', hconv', hrc⟩ := hx
      refine ⟨passRqToSend_idle hcalm hpost', hconv', ?_⟩
      exact List.mem_append_left [acRcProductSpecific] hrc
    rw [sendQueued] at hx
    split at hx
    · cases hx
      exact ⟨hrec, hpost, hconv, .head _⟩
    · obtain ⟨v, hv, hx⟩ := Option.bind_eq_some_iff.mp hx
      split at hx
      · cases hx
        exact ⟨⟨hrec.signal, hrec.errState, hrec.syncLevel, hrec.rm, hrec.hs, hrec.arrivals⟩, hpost,
          hconv, validate_rc hv⟩
      · obtain ⟨b, hb, rfl⟩ := Option.map_eq_some_iff.mp hx
        obtain ⟨_, _, _, heq⟩ := sendDataBufferManagement_fills hb
        rw [heq]
        exact ⟨⟨hrec.signal, hrec.errState, hrec.syncLevel, hrec.rm, hrec.hs, hrec.arrivals⟩, hpost,
          hconv, .head _⟩

end LinuxSna.Ps
