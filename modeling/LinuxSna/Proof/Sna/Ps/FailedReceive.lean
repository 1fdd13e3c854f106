import LinuxSna.Proof.Sna.Ps.Arrivals
import LinuxSna.Proof.Sna.Ps.ErrorHeader
import LinuxSna.Proof.Sna.Ps.Immediate

/-!
# Receive_And_Wait on a failed conversation

A failure that is received during the wait posts; one that is on record before does not, and
`sna_ps_conv_perform_receive_processing` reports it without posting. Then the loop of
`sna_ps_conv_receive_and_test_posting` waits on.

* `within_enough`: the rounds that the model makes are enough;
* `round_failed`: a failure that a round receives has posted;
* `satisfied_iff`: when the first round ends the loop as it should;
* `receive_returns_iff`: whatever arrives later, the verb returns on a failed conversation, and tells
  of the failure once the data are used up, exactly if a failure that is on record before the loop
  finds what satisfies the posting.
-/

namespace LinuxSna.Ps

variable {c d e s : Conversation} {r : Rc × Conversation} {n m : Nat}

/-! ## Rounds -/

/-- The verb gets to its loop. -/
def loopStart (c : Conversation) : Option Conversation :=
  if !c.found || (fsmConversation .s .receiveAndWait c true).1 then none
  else if (receiveRecords c).rcb.errState = .rcvdError then none
  else some (postOnReceipt (fsmConversation .s .receiveAndWait (receiveRecords c) false).2)

/-- The state before the processing of the next round. -/
def nextRound (c : Conversation) : Option Conversation :=
  (performReceive c).bind fun r =>
    if r.2.rcb.postState ≠ .pendPosted then none
    else if r.2.rcb.hsToPsBufferQueue = [] then receiveRecordsSuspended r.2
    else some r.2

/-- Rounds lead from one state to the other. -/
def Rounds : Conversation → Conversation → Prop :=
  Relation.ReflTransGen fun c d => nextRound c = some d

/-- What the loop leaves if it ends within so many rounds. -/
def within (n : Nat) (c : Conversation) : Option (Rc × Conversation) :=
  (performReceive c).bind (testPosting n)

theorem within_posted (hr : performReceive c = some r) (hpost : r.2.rcb.postState ≠ .pendPosted)
    (n : Nat) : within (n + 1) c = some r := by
  rw [within, hr, Option.bind_some, testPosting, if_pos hpost]

theorem nextRound_posted (hr : performReceive c = some r) (hpost : r.2.rcb.postState ≠ .pendPosted) :
    nextRound c = none := by
  rw [nextRound, hr, Option.bind_some, if_pos hpost]

theorem within_pending (hr : performReceive c = some r) (hpost : r.2.rcb.postState = .pendPosted)
    (n : Nat) : within (n + 1) c = (nextRound c).bind (within n) := by
  rw [within, nextRound, hr, Option.bind_some, Option.bind_some, testPosting,
    if_neg (not_not.mpr hpost), if_neg (not_not.mpr hpost)]
  rfl

theorem within_succ (hd : nextRound c = some d) (n : Nat) : within (n + 1) c = within n d := by
  obtain ⟨r, hr, hnext⟩ := Option.bind_eq_some_iff.mp hd
  have hpost : r.2.rcb.postState = .pendPosted := by
    by_contra hpost
    rw [if_pos hpost] at hnext
    cases hnext
  rw [within_pending hr hpost, hd, Option.bind_some]

theorem within_zero (c : Conversation) : within 0 c = none := by
  rw [within]
  cases performReceive c <;> rfl

/-- A round ends the loop, or leads to the next. -/
theorem within_cases (h : within (n + 1) c = some r) :
    performReceive c = some r ∧ r.2.rcb.postState ≠ .pendPosted ∨
      ∃ d, nextRound c = some d ∧ within n d = some r := by
  cases hr : performReceive c with
  | none =>
    rw [within, hr] at h
    cases h
  | some x =>
    by_cases hpost : x.2.rcb.postState = .pendPosted
    · rw [within_pending hr hpost] at h
      exact .inr (Option.bind_eq_some_iff.mp h)
    · rw [within_posted hr hpost] at h
      obtain rfl := Option.some.inj h
      exact .inl ⟨rfl, hpost⟩

theorem within_mono (h : within n c = some r) (hm : n ≤ m) : within m c = some r := by
  induction n generalizing c m with
  | zero =>
    rw [within_zero] at h
    cases h
  | succ n ih =>
    obtain ⟨m, rfl⟩ : ∃ k, m = k + 1 := ⟨m - 1, by omega⟩
    obtain ⟨hr, hpost⟩ | ⟨d, hd, hn⟩ := within_cases h
    · exact within_posted hr hpost m
    · rw [within_succ hd]
      exact ih hn (by omega)

/-- The loop goes on from where rounds lead. -/
theorem Rounds.within (h : Rounds c d) (hd : Ps.within n d = some r) :
    ∃ m, Ps.within m c = some r := by
  induction h using Relation.ReflTransGen.head_induction_on with
  | refl => exact ⟨n, hd⟩
  | head hc _ ih =>
    obtain ⟨m, hm⟩ := ih
    exact ⟨m + 1, (within_succ hc m).trans hm⟩

/-! ## The wait -/

/-- What a wait leaves alone -/
structure Waited (c d : Conversation) : Prop where
  errState : d.rcb.errState = c.rcb.errState
  postState : d.rcb.postState = c.rcb.postState
  queue : d.rcb.hsToPsBufferQueue = c.rcb.hsToPsBufferQueue

theorem waitForRecords_waited {as : List Arrival} (h : waitForRecords as c = some d) :
    Waited c d ∧ d.arrivals.length ≤ as.length := by
  induction as generalizing c with
  | nil =>
    rw [waitForRecords] at h
    split at h
    · cases h
      exact ⟨⟨rfl, rfl, rfl⟩, Nat.le_refl _⟩
    · cases h
  | cons a as ih =>
    rw [waitForRecords] at h
    split at h
    · cases h
      exact ⟨⟨rfl, rfl, rfl⟩, Nat.le_refl _⟩
    · obtain ⟨⟨herr, hpost, hqueue⟩, hle⟩ := ih h
      refine ⟨?_, Nat.le_succ_of_le hle⟩
      cases a <;> exact ⟨herr, hpost, hqueue⟩

/-- Something has arrived if nothing was there. -/
theorem waitForRecords_lt {as : List Arrival} (hready : ready c = false)
    (h : waitForRecords as c = some d) : d.arrivals.length < as.length := by
  cases as with
  | nil =>
    rw [waitForRecords, if_neg (by simp [hready])] at h
    cases h
  | cons a as =>
    rw [waitForRecords, if_neg (by simp [hready])] at h
    exact Nat.lt_succ_of_le (waitForRecords_waited h).2

theorem waitForRecords_ready {as : List Arrival} (h : ready c = true) :
    waitForRecords as c = some (c.later as) := by
  cases as <;> rw [waitForRecords, if_pos h] <;> rfl

/-- A signal ends a wait before a record of the resource manager is there. -/
theorem waitForRecords_signal {as : List Arrival} (hs : c.signal = false)
    (hrm : c.rcb.rmToPsQueue = []) (h : waitForRecords as c = some d) :
    d.rcb.rmToPsQueue = [] ∨ d.signal = false := by
  induction as generalizing c with
  | nil =>
    rw [waitForRecords] at h
    split at h
    · cases h
      exact .inl hrm
    · cases h
  | cons a as ih =>
    rw [waitForRecords] at h
    split at h
    · cases h
      exact .inl hrm
    · cases a with
      | signal =>
        rw [waitForRecords_ready (by simp [ready, arrive])] at h
        obtain rfl := Option.some.inj h
        exact .inl hrm
      | records rm hs' =>
        by_cases hnil : rm = []
        · subst hnil
          have hrm' : (arrive c (.records [] hs')).rcb.rmToPsQueue = [] :=
            (List.append_nil _).trans hrm
          exact ih (by exact hs) hrm' h
        · rw [waitForRecords_ready (by simp [ready, arrive, hnil])] at h
          obtain rfl := Option.some.inj h
          exact .inr hs

/-- No record is left. -/
structure NoRecords (c : Conversation) : Prop where
  rm : c.rcb.rmToPsQueue = []
  hs : c.rcb.hsToPsQueue = []

theorem receiveRecords_noRecords (c : Conversation) : NoRecords (receiveRecords c) :=
  ⟨(receiveRecords_drained c).rm, (receiveRecords_drained c).hs⟩

/-! ## What a round leaves that has not posted -/

structure Pending (c c' : Conversation) : Prop where
  queue : c'.rcb.hsToPsBufferQueue = []
  rm : c'.rcb.rmToPsQueue = c.rcb.rmToPsQueue
  hs : c'.rcb.hsToPsQueue = c.rcb.hsToPsQueue
  arrivals : c'.arrivals = c.arrivals
  signal : c'.signal = false
  errState : ¬ c.rcb.errState.failed → c'.rcb.errState = c.rcb.errState

theorem nothingQueued_moves (c : Conversation) : Moves c (nothingQueued c).2 := by
  rw [nothingQueued]
  split
  · exact received_moves _ _
  · split
    · exact received_moves _ _
    · exact Moves.refl c

theorem performReceive_pending (hr : performReceive c = some r)
    (hpost : r.2.rcb.postState = .pendPosted) : Pending c r.2 := by
  by_cases hq : c.rcb.hsToPsBufferQueue = []
  · cases hs : c.signal with
    | true =>
      rw [performReceive_signal hs] at hr
      cases hr
      exact absurd hpost (fsmPost_post c)
    | false =>
      rw [performReceive, if_neg (by simp [hs]), if_pos hq] at hr
      obtain rfl := Option.some.inj hr
      obtain ⟨_, _, _, _, heq⟩ := nothingQueued_moves c
      have herr (h : ¬ c.rcb.errState.failed) :
          (nothingQueued c).2.rcb.errState = c.rcb.errState := by
        rw [nothingQueued, if_neg fun he => h (.inl he), if_neg fun he => h (.inr he)]
      refine ⟨?_, ?_, ?_, ?_, ?_, herr⟩ <;> rw [heq]
      · exact hq
      · exact hs
  · obtain ⟨hnil, hkept, hs⟩ := performReceive_pendPosted hq hr hpost
    exact ⟨hnil, hkept.rm, hkept.hs, hkept.arrivals, hkept.signal.trans hs, fun _ => hkept.errState⟩

/-- What is known of the next round -/
theorem nextRound_spec (h : nextRound c = some d) :
    ∃ r e, performReceive c = some r ∧ r.2.rcb.postState = .pendPosted ∧ Pending c r.2 ∧
      waitForRecords r.2.arrivals r.2 = some e ∧ d = receiveRecords e := by
  obtain ⟨r, hr, hnext⟩ := Option.bind_eq_some_iff.mp h
  by_cases hpost : r.2.rcb.postState = .pendPosted
  · have hpend := performReceive_pending hr hpost
    rw [if_neg (not_not.mpr hpost), if_pos hpend.queue] at hnext
    obtain ⟨e, he, rfl⟩ := Option.map_eq_some_iff.mp hnext
    exact ⟨r, e, hr, hpost, hpend, he, rfl⟩
  · rw [if_pos hpost] at hnext
    cases hnext

theorem next_receiveError_failed {s : ErrState} : (s.next .receiveError).failed ↔ s.failed := by
  cases s <;> simp [ErrState.next, ErrState.failed]

/-- A failure that a round receives has posted, and no signal is pending with it. -/
theorem round_failed (hrec : NoRecords c) (hc : ¬ c.rcb.errState.failed)
    (h : nextRound c = some d) (hd : d.rcb.errState.failed) :
    d.rcb.postState ≠ .pendPosted ∧ d.signal = false := by
  obtain ⟨r, e, -, -, hpend, he, rfl⟩ := nextRound_spec h
  have herr := (waitForRecords_waited he).1.errState.trans (hpend.errState hc)
  have hne : e.rcb.rmToPsQueue ≠ [] := by
    intro hrm
    rw [receiveRecords_errState hrm, herr] at hd
    apply hc
    split at hd
    · exact next_receiveError_failed.mp hd
    · exact hd
  constructor
  · intro hpost
    exact hne (receiveRecords_pendPosted.mp hpost).1
  · have hsignal := waitForRecords_signal hpend.signal (hpend.rm.trans hrec.rm) he
    exact (receiveRecords_drained e).signal.trans (hsignal.resolve_left hne)

theorem Rounds.noRecords (hs : NoRecords s) (h : Rounds s d) : NoRecords d := by
  induction h with
  | refl => exact hs
  | tail hc hnext ih =>
    obtain ⟨-, e, -, -, -, -, rfl⟩ := nextRound_spec hnext
    exact receiveRecords_noRecords e

/-- The rounds that the model makes are enough. -/
theorem within_enough (hrec : NoRecords c) (h : within n c = some r) :
    within (c.arrivals.length + 2) c = some r := by
  induction n generalizing c with
  | zero =>
    rw [within_zero] at h
    cases h
  | succ n ih =>
    obtain ⟨hr, hpost⟩ | ⟨d, hd, hn⟩ := within_cases h
    · exact within_posted hr hpost _
    · obtain ⟨x, e, -, -, hpend, he, rfl⟩ := nextRound_spec hd
      have hready : ready x.2 = false := by
        rw [ready, hpend.rm, hrec.rm, hpend.hs, hrec.hs, hpend.signal]
        rfl
      have hlt := waitForRecords_lt hready he
      have harr : (receiveRecords e).arrivals = e.arrivals := (receiveRecords_drained e).arrivals
      rw [hpend.arrivals, ← harr] at hlt
      rw [within_succ hd]
      exact within_mono (ih (receiveRecords_noRecords e) hn) (by omega)

/-! ## What the verb gives -/

/-- What tells of a failed conversation -/
def Reported (rc : Rc) : Prop := rc = acRcResourceFailureRetry ∨ rc = acRcResourceFailureNoRetry

/-- What is given of the MUs: data, a status, or that the partner has deallocated the
conversation. -/
def Given (r : Rc × Conversation) : Prop :=
  r.1 = acRcOk ∧
      (r.2.tp.dataReceived ≠ acWrNoDataReceived ∨ r.2.tp.statusReceived ≠ acSrNoStatusReceived) ∨
    r.1 = acRcDeallocateNormal

/-- With no data left the failure is told of, unless what was given are the last of them. -/
def Tells (c : Conversation) (r : Rc × Conversation) : Prop :=
  r.2.rcb.hsToPsBufferQueue = [] →
    Reported r.1 ∨ c.rcb.hsToPsBufferQueue ≠ [] ∧ Given r

/-- Nothing has been given yet. -/
structure New (tp : Tp) : Prop where
  data : tp.dataReceived = acWrNoDataReceived
  status : tp.statusReceived = acSrNoStatusReceived

theorem not_given {rc : Rc} (h : New c.tp) (hrc : rc ≠ acRcDeallocateNormal) : ¬ Given (rc, c) := by
  rintro (⟨-, hdata | hstatus⟩ | hdealloc)
  · exact hdata h.data
  · exact hstatus h.status
  · exact hrc hdealloc

theorem unsuccessful_untold (h : New c.tp) :
    ¬ (Reported acRcUnsuccessful ∨ Given (acRcUnsuccessful, c)) := by
  rintro (hreported | hgiven)
  · exact absurd hreported (by unfold Reported; decide)
  · exact not_given h (by decide) hgiven

/-- An FMH-7 whose sense data are the number of one of these codes -/
structure TellsSense (m : Mu) : Prop where
  len : fmh7Size ≤ m.data.length
  eq : byte m.data 0 = m.data.length
  sense : fmh7Sense m.data ∈
    [acRcResourceFailureRetry, acRcResourceFailureNoRetry, acRcDeallocateNormal]

/-- An FMH-7 gives its sense data, or the code of a deallocation. -/
theorem processFmh7_rc {c : Conversation} {m : Mu} :
    (processFmh7 c m.data).1 ∈
        [acRcResourceFailureRetry, acRcResourceFailureNoRetry, acRcDeallocateNormal] ↔
      TellsSense m := by
  rw [processFmh7]
  by_cases hlen : m.data.length < fmh7Size ∨ byte m.data 0 ≠ m.data.length
  · rw [if_pos hlen]
    refine iff_of_false (by show (0x10086000 : Rc) ∉ _; decide) fun h => ?_
    exact hlen.elim (Nat.not_lt.mpr h.len) (not_not.mpr h.eq)
  · have hsense : fmh7Sense m.data ∈
        [acRcResourceFailureRetry, acRcResourceFailureNoRetry, acRcDeallocateNormal] ↔
        TellsSense m := by
      obtain ⟨hlen, heq⟩ := not_or.mp hlen
      exact ⟨fun h => ⟨Nat.not_lt.mp hlen, not_not.mp heq, h⟩, fun h => h.sense⟩
    rw [if_neg hlen]
    split
    · exact hsense
    · by_cases habend : fmh7Sense m.data ∈ deallocateAbendSenses
      · rw [if_neg (not_not.mpr habend), deallocateAbendRc_eq habend]
        have hrc := @setFmh7Rc_abend c _ habend
        apply iff_of_false
        · intro hmem
          generalize (setFmh7Rc c (fmh7Sense m.data)).1 = rc at hmem hrc
          revert rc
          decide
        · intro h
          have hmem := h.sense
          generalize fmh7Sense m.data = sense at hmem habend
          revert sense
          decide
      · rw [if_pos habend]
        exact hsense

theorem processFmh7_tp (c : Conversation) (data : List UInt8) : (processFmh7 c data).2.tp = c.tp := by
  rw [processFmh7]
  split
  · exact (received_moves _ _).tp
  · split
    · rfl
    · split
      · rfl
      · exact (deallocateAbendRc_moves c _).tp

theorem turn_err {t : Take} {llEnd : Bool} {d : Data} (h : turn t llEnd = .inr d) :
    d.err = acRcOk := by
  rw [turn] at h
  split at h
  · rw [← Sum.inr.inj h]
    rfl
  · split at h
    · cases h
    · rw [← Sum.inr.inj h]
      rfl

theorem processData_err {m : Mu} {d : Data} (h : processData c m = some d)
    (herr : d.err ≠ acRcOk) : d.err = acRcUnsuccessful := by
  obtain ⟨k, t, -, ht⟩ := Framework.loop_last h
  rw [pass] at ht
  split at ht
  · rw [← Sum.inr.inj ht]
    rfl
  · exact absurd (turn_err ht) herr

/-- The end of a chain is a status, or that the partner has deallocated the conversation, or breaks
the protocol. -/
theorem ecProcessing_tells {t : CtrlType} (ht : t ∈ CtrlType.received) (hne : t ≠ .notEndOfData)
    (c : Conversation) : Reported (ecProcessing c t).1 ∨ Given (ecProcessing c t) := by
  have hstatus {sr : Nat} (a : ConvInput) (hsr : sr ≠ acSrNoStatusReceived) :
      Given (acRcOk, received a { c with tp.statusReceived := sr }) := by
    refine .inl ⟨rfl, .inr ?_⟩
    dsimp only
    rw [(received_moves _ _).tp]
    exact hsr
  unfold ecProcessing
  by_cases hincomplete : c.rcb.llRx.state = .incomplete
  · rw [if_pos hincomplete]
    exact .inl (.inr rfl)
  · rw [if_neg hincomplete]
    by_cases hconfirm : c.rcb.syncLevel = .none ∧ t ∈ confirmTypes
    · rw [if_pos hconfirm]
      exact .inl (.inr rfl)
    · rw [if_neg hconfirm]
      cases t with
      | confirm => exact .inr (hstatus _ (by decide))
      | prepareToRcvConfirm => exact .inr (hstatus _ (by decide))
      | prepareToRcvFlush => exact .inr (hstatus _ (by decide))
      | deallocateFlush => exact .inr (.inr rfl)
      | deallocateConfirm =>
        refine .inr (.inl ⟨rfl, .inl ?_⟩)
        dsimp only
        rw [(received_moves _ _).tp]
        show acSrConfirmDeallocateReceived ≠ acWrNoDataReceived
        decide
      | notEndOfData => exact absurd rfl hne
      | _ => exact absurd ht (by decide)

/-! ## What satisfies the posting -/

/-- The MUs on the queue satisfy the posting, and the failure need not be told of yet: they bring the
program what it asks for, or all are read and the last ends a chain; or there is an FMH-7 or an MU
that is not valid, with more behind it. -/
def Answers (c : Conversation) : List Mu → Prop
  | [] => False
  | m :: q =>
    if m.isFmh7 = true then q ≠ [] ∨ TellsSense m
    else ∃ d, processData { c with rcb.hsToPsBufferQueue := q } m = some d ∧
      if d.err ≠ acRcOk then q ≠ []
      else d.reason ≠ .none ∨ if q = [] then m.hsPsType ≠ .notEndOfData else Answers d.c q

theorem answers_later (c : Conversation) (q : List Mu) (as : List Arrival) :
    Answers (c.later as) q ↔ Answers c q := by
  induction q generalizing c with
  | nil => exact Iff.rfl
  | cons m q ih =>
    have hdata := processData_later { c with rcb.hsToPsBufferQueue := q } m as
    have hqueue : { c.later as with rcb.hsToPsBufferQueue := q } =
        { c with rcb.hsToPsBufferQueue := q }.later as := rfl
    rw [Answers, Answers, hqueue, hdata]
    split
    · exact Iff.rfl
    · cases processData { c with rcb.hsToPsBufferQueue := q } m with
      | none => simp
      | some d =>
        simp only [Option.map_some, Option.some.injEq, exists_eq_left']
        show (if d.err ≠ acRcOk then _
          else d.reason ≠ .none ∨ if q = [] then _ else Answers (d.c.later as) q) ↔ _
        rw [ih]

/-- A pass over the queue ends the loop as it should. -/
def EndsLoop (g : Got) : Prop :=
  g.finish.2.rcb.postState ≠ .pendPosted ∧
    (g.finish.2.rcb.hsToPsBufferQueue = [] → Reported g.finish.1 ∨ Given g.finish)

/-- With a rest on the queue nothing need be told of. -/
theorem ends_of_ne {g : Got} (hpost : g.c.rcb.postState ≠ .pendPosted)
    (hq : g.c.rcb.hsToPsBufferQueue ≠ []) : EndsLoop g := by
  refine ⟨fun hpend => hpost (finish_pendPosted hpend ▸ hpend), fun hnil => absurd hnil ?_⟩
  rw [finish_queue]
  exact hq

/-- At the end of a chain -/
theorem ends_chain {g : Got} (hend : g.endOfChain = true)
    (ht : g.endOfChainType ∈ CtrlType.received) : EndsLoop g := by
  have hne : g.endOfChainType ≠ .notEndOfData := by
    simp only [Got.endOfChain, Bool.and_eq_true, decide_eq_true_eq] at hend
    exact hend.2
  have hfinish : g.finish = ecProcessing (fsmPost g.c .post) g.endOfChainType := if_pos hend
  rw [EndsLoop, hfinish, (ecProcessing_keeps _ _).1]
  exact ⟨fsmPost_post g.c, fun _ => ecProcessing_tells ht hne _⟩

/-- Elsewhere the pass gives what the loop over the queue has left. -/
theorem ends_iff {g : Got} (hend : g.endOfChain = false) :
    EndsLoop g ↔ g.c.rcb.postState ≠ .pendPosted ∧
      (g.c.rcb.hsToPsBufferQueue = [] → Reported g.err ∨ Given (g.err, g.c)) := by
  have hfinish : g.finish = (g.err, g.c) := if_neg (by simp [hend])
  rw [EndsLoop, hfinish]

/-- An FMH-7 posts. With nothing behind it the loop ends as it should if its sense data tell of a failure. -/
theorem ends_fmh7 {err : Rc} {ec : CtrlType} {m : Mu} {q : List Mu} (hpost : c.rcb.postState = .pendPosted)
    (hnew : New c.tp) (hm : m.isFmh7 = true) :
    (∃ g, takeMus err false ec c (m :: q) = some g ∧ EndsLoop g) ↔ q ≠ [] ∨ TellsSense m := by
  rw [takeMus_of_fmh7 hpost hm]
  have hposted : (processFmh7 (fsmPost { c with rcb.hsToPsBufferQueue := q } .post)
      m.data).2.rcb.postState ≠ .pendPosted := by
    rw [processFmh7_postState]
    exact fsmPost_post _
  cases q with
  | nil =>
    have htp := processFmh7_tp (fsmPost { c with rcb.hsToPsBufferQueue := [] } .post) m.data
    have hrc := @processFmh7_rc (fsmPost { c with rcb.hsToPsBufferQueue := [] } .post) m
    generalize processFmh7 (fsmPost { c with rcb.hsToPsBufferQueue := [] } .post) m.data = r at *
    rw [takeMus]
    simp only [Option.some.injEq, exists_eq_left', ne_eq, not_true_eq_false, false_or]
    rw [ends_iff (endOfChain_of_fmh7 rfl), and_iff_right hposted, ← hrc, imp_iff_right rfl]
    have hnew' : New ({ r.2 with rcb.hsToPsBufferQueue := [] } : Conversation).tp := by
      show New r.2.tp
      rw [htp]
      exact hnew
    rw [List.mem_cons, List.mem_cons, List.mem_singleton, ← or_assoc]
    refine or_congr_right ⟨?_, .inr⟩
    rintro (⟨-, hdata | hstatus⟩ | hdealloc)
    · exact absurd hnew'.data hdata
    · exact absurd hnew'.status hstatus
    · exact hdealloc
  | cons m' q =>
    rw [takeMus_of_ne hposted]
    exact iff_of_true ⟨_, rfl, ends_of_ne hposted (List.cons_ne_nil m' q)⟩
      (.inl (List.cons_ne_nil m' q))

/-- Data that satisfy the posting end the loop, with a status behind them or without one. -/
theorem ends_stopped {m : Mu} {x : Data} (hx : processData c m = some x) (herr : x.err = acRcOk)
    (hreason : x.reason ≠ .none) :
    EndsLoop ⟨false, x.err, false, x.endOfChainType, fsmPost x.c .post, x.rest⟩ := by
  have htype : x.endOfChainType ∈ CtrlType.received := (processData_done hx).type ▸ m.received
  by_cases hend : x.endOfChainType = .notEndOfData
  · rw [ends_iff (by simp [Got.endOfChain, hend])]
    refine ⟨fsmPost_post x.c, fun _ => .inr (.inl ⟨herr, .inl ?_⟩)⟩
    have hdata := (processData_receives hx).2 hreason
    intro hnone
    rw [show (fsmPost x.c .post).tp.dataReceived = x.c.tp.dataReceived from rfl] at hnone
    rw [hnone] at hdata
    exact absurd hdata (by decide)
  · exact ends_chain (by simp [Got.endOfChain, hend]) htype

/-- An MU that is not valid posts, and what is behind it is left. -/
theorem ends_failed {m : Mu} {x : Data} (hnew : New c.tp) (hx : processData c m = some x)
    (herr : x.err ≠ acRcOk) :
    EndsLoop ⟨true, x.err, false, x.endOfChainType, fsmPost x.c .post, x.rest⟩ ↔
      c.rcb.hsToPsBufferQueue ≠ [] := by
  have hdone := processData_done hx
  have hqueue : x.c.rcb.hsToPsBufferQueue = c.rcb.hsToPsBufferQueue := hdone.read (hdone.failed herr)
  have hreason : x.reason = .none := by
    by_contra hr
    exact herr (hdone.stopped hr)
  have hnew' : New x.c.tp :=
    ⟨((processData_receives hx).1 hreason).trans hnew.data, hdone.kept.status.trans hnew.status⟩
  rw [ends_iff (by simp [Got.endOfChain]), processData_err hx herr]
  constructor
  · rintro ⟨-, htells⟩ hnil
    exact unsuccessful_untold (c := fsmPost x.c .post) hnew' (htells (hqueue.trans hnil))
  · intro hne
    exact ⟨fsmPost_post x.c, fun hnil => absurd (hqueue.symm.trans hnil) hne⟩

/-- A queue that is used up without posting ends the loop if the last MU ends a chain. -/
theorem ends_last {err : Rc} {ec : CtrlType} (hpost : c.rcb.postState = .pendPosted)
    (ht : ec ∈ CtrlType.received) :
    (∃ g, takeMus err false ec c [] = some g ∧ EndsLoop g) ↔ ec ≠ .notEndOfData := by
  rw [takeMus]
  simp only [Option.some.injEq, exists_eq_left']
  by_cases hend : ec = .notEndOfData
  · rw [ends_iff (by simp [Got.endOfChain, hend])]
    exact iff_of_false (fun h => h.1 hpost) (not_not.mpr hend)
  · exact iff_of_true (ends_chain (by simp [Got.endOfChain, hend]) ht) hend

/-- The loop over the queue ends as it should if the queue satisfies the posting, and only then. -/
theorem takeMus_ends {err : Rc} {ec : CtrlType} {q : List Mu} (hpost : c.rcb.postState = .pendPosted)
    (hnew : New c.tp) (hq : q ≠ []) :
    (∃ g, takeMus err false ec c q = some g ∧ EndsLoop g) ↔ Answers c q := by
  induction q generalizing c err ec with
  | nil => exact absurd rfl hq
  | cons m q ih =>
    rw [Answers]
    cases hm : m.isFmh7 with
    | true =>
      rw [if_pos rfl]
      exact ends_fmh7 hpost hnew hm
    | false =>
      rw [if_neg (by decide)]
      cases hd : processData { c with rcb.hsToPsBufferQueue := q } m with
      | none =>
        rw [takeMus_of_none hpost hm hd]
        simp
      | some d =>
        have hdone := processData_done hd
        have hpost' : d.c.rcb.postState = .pendPosted := hdone.kept.postState.trans hpost
        rw [takeMus_of_some hpost hm hd]
        simp only [Option.some.injEq, exists_eq_left']
        by_cases herr : d.err = acRcOk
        · rw [if_neg (not_not.mpr herr), if_neg (not_not.mpr herr)]
          by_cases hreason : d.reason = .none
          · rw [if_neg (not_not.mpr hreason), or_iff_right (not_not.mpr hreason)]
            by_cases hnil : q = []
            · rw [if_pos hnil, hnil, ← hdone.type]
              exact ends_last hpost' (hdone.type ▸ m.received)
            · have hnew' : New d.c.tp :=
                ⟨((processData_receives hd).1 hreason).trans hnew.data, hdone.kept.status.trans hnew.status⟩
              rw [if_neg hnil]
              exact ih hpost' hnew' hnil
          · rw [if_pos hreason]
            exact iff_of_true ⟨_, rfl, ends_stopped hd herr hreason⟩ (.inl hreason)
        · rw [if_pos herr, if_pos herr]
          simp only [Option.some.injEq, exists_eq_left']
          exact ends_failed (c := { c with rcb.hsToPsBufferQueue := q }) hnew hd herr

/-- The queue satisfies the posting; a signal ends the loop as well, with what is on the queue left
there. -/
def Satisfied (c : Conversation) : Prop :=
  if c.signal = true then c.rcb.hsToPsBufferQueue ≠ [] else Answers c c.rcb.hsToPsBufferQueue

theorem satisfied_iff (hpost : c.rcb.postState = .pendPosted) (hnew : New c.tp) :
    Satisfied c ↔
      ∃ r, performReceive c = some r ∧ r.2.rcb.postState ≠ .pendPosted ∧ Tells c r := by
  rw [Satisfied]
  cases hs : c.signal with
  | true =>
    rw [if_pos rfl, performReceive_signal hs]
    simp only [Option.some.injEq, exists_eq_left']
    constructor
    · intro hq
      exact ⟨fsmPost_post c, fun hnil => absurd hnil hq⟩
    · rintro ⟨-, htells⟩ hnil
      exact unsuccessful_untold (c := fsmPost c .post) hnew ((htells hnil).imp_right And.right)
  | false =>
    rw [if_neg (by decide)]
    by_cases hq : c.rcb.hsToPsBufferQueue = []
    · rw [hq, performReceive, if_neg (by simp [hs]), if_pos hq]
      refine iff_of_false not_false ?_
      rintro ⟨r, hr, hr', -⟩
      obtain rfl := Option.some.inj hr
      exact hr' ((nothingQueued_moves c).postState.trans hpost)
    · have htells (r : Rc × Conversation) :
          Tells c r ↔ (r.2.rcb.hsToPsBufferQueue = [] → Reported r.1 ∨ Given r) := by
        rw [Tells, and_iff_right hq]
      simp only [htells]
      rw [performReceive_gather hs hq, gather]
      rw [← @takeMus_ends c acRcUnsuccessful .notEndOfData c.rcb.hsToPsBufferQueue hpost hnew hq]
      constructor
      · rintro ⟨g, hg, hends⟩
        exact ⟨_, by rw [hg, Option.map_some], hends⟩
      · rintro ⟨r, hr, hends⟩
        obtain ⟨g, hg, rfl⟩ := Option.map_eq_some_iff.mp hr
        exact ⟨g, hg, hends⟩

/-- With no data left a round reports the failure. -/
theorem performReceive_reported (hc : c.rcb.errState.failed) (hq : c.rcb.hsToPsBufferQueue = [])
    (hs : c.signal = false) (hr : performReceive c = some r) : Reported r.1 := by
  rw [performReceive, if_neg (by simp [hs]), if_pos hq, nothingQueued] at hr
  obtain rfl := Option.some.inj hr
  by_cases hprotocol : c.rcb.errState = .convFailureProtocolError
  · rw [if_pos hprotocol]
    exact .inr rfl
  · rw [if_neg hprotocol, if_pos (hc.resolve_left hprotocol)]
    exact .inl rfl

/-- Where it was posted before, a round ends the loop as it should. -/
theorem performReceive_posted (hpost : c.rcb.postState ≠ .pendPosted)
    (hc : c.rcb.errState.failed) (hs : c.signal = false) :
    ∃ r, performReceive c = some r ∧ r.2.rcb.postState ≠ .pendPosted ∧ Tells c r := by
  by_cases hq : c.rcb.hsToPsBufferQueue = []
  · have hr : performReceive c = some (nothingQueued c) := by
      rw [performReceive, if_neg (by simp [hs]), if_pos hq]
    refine ⟨nothingQueued c, hr, ?_, fun _ => .inl (performReceive_reported hc hq hs hr)⟩
    rw [(nothingQueued_moves c).postState]
    exact hpost
  · exact ⟨_, performReceive_of_ne hs hq hpost, hpost, fun hnil => absurd hnil hq⟩

/-! ## The verb -/

/-- The verb waits for what follows the partner's error. -/
def errorStart (c : Conversation) : Option Conversation :=
  if !c.found || (fsmConversation .s .receiveAndWait c true).1 then none
  else if (receiveRecords c).rcb.errState = .rcvdError then (turnAround (receiveRecords c)).1
  else none

/-- Wherever the verb meets a failed conversation, in a round of its loop or in the wait for what
follows the partner's error, it returns: within as many rounds as there are MUs, and one more. Once
the data are used up it reports the failure. -/
structure ReturnsFailed (c : Conversation) : Prop where
  loop (s d : Conversation) : loopStart c = some s → Rounds s d → d.rcb.errState.failed →
    ∃ r w, within (d.rcb.hsToPsBufferQueue.length + 1) d = some r ∧ rcvAndWait c = some w ∧
      w.1 = r.1 ∧ Tells d w
  error (s d : Conversation) : errorStart c = some s →
    (if s.rcb.hsToPsBufferQueue = [] then receiveRecordsSuspended s else some s) = some d →
    d.rcb.errState.failed → ∃ w, rcvAndWait c = some w ∧ Reported w.1

theorem loopStart_spec (h : loopStart c = some s) :
    NoRecords s ∧ s.rcb.postState = .pendPosted ∧ New s.tp ∧
      ∀ r, within (s.arrivals.length + 2) s = some r →
        rcvAndWait c = some (passRqToSend (r.1, fsmPost r.2 .receiveImmediate)) := by
  rw [loopStart] at h
  split at h
  · cases h
  · rename_i hstart
    rw [Bool.or_eq_true, not_or] at hstart
    split at h
    · cases h
    · rename_i herr
      obtain rfl := Option.some.inj h
      have hmoves := fsmConversation_moves .s .receiveAndWait (receiveRecords c) false
      refine ⟨?_, postOnReceipt_postState _, ⟨rfl, rfl⟩, fun r hr => ?_⟩
      · obtain ⟨_, _, _, _, heq⟩ := hmoves
        have hrec := receiveRecords_noRecords c
        rw [heq]
        exact ⟨hrec.rm, hrec.hs⟩
      · have hloop : receiveAndTestPosting
            (fsmConversation .s .receiveAndWait (receiveRecords c) false).2 =
              some (r.1, fsmPost r.2 .receiveImmediate) := by
          rw [receiveAndTestPosting]
          exact congrArg (Option.map _) hr
        rw [rcvAndWait, if_neg hstart.1, if_neg hstart.2]
        dsimp only
        rw [if_neg herr, hloop]
        rfl

/-- The failure is reported by the branch for the partner's error. -/
theorem errorStart_spec (h : errorStart c = some s)
    (hd : (if s.rcb.hsToPsBufferQueue = [] then receiveRecordsSuspended s else some s) = some d)
    (hfailed : d.rcb.errState.failed) : ∃ w, rcvAndWait c = some w ∧ Reported w.1 := by
  rw [errorStart] at h
  split at h
  · cases h
  · rename_i hstart
    rw [Bool.or_eq_true, not_or] at hstart
    split at h
    · rename_i herr
      have hrcvd : rcvdError s = some (passRqToSend (failureReported d)) := by
        rw [rcvdError, hd, Option.map_some, if_neg]
        rintro ⟨hson, hprotocol⟩
        exact hfailed.elim hprotocol hson
      refine ⟨passRqToSend (failureReported d), ?_, ?_⟩
      · rw [rcvAndWait, if_neg hstart.1, if_neg hstart.2]
        dsimp only
        rw [if_pos herr]
        obtain ⟨t, c', hturn⟩ : ∃ t c', turnAround (receiveRecords c) = (t, c') := ⟨_, _, rfl⟩
        rw [hturn] at h ⊢
        obtain rfl : t = some s := h
        exact hrcvd
      · show Reported (failureReported d).1
        rw [failureReported]
        dsimp only
        split
        · exact .inl rfl
        · exact .inr rfl
    · cases h

theorem loopStart_later (c : Conversation) (as : List Arrival) :
    loopStart (c.later as) = (loopStart c).map (Conversation.later · as) := by
  rw [loopStart, loopStart, receiveRecords_later, fsmConversation_later, fsmConversation_later]
  have hfound : (c.later as).found = c.found := rfl
  have herr : ((receiveRecords c).later as).rcb.errState = (receiveRecords c).rcb.errState := rfl
  rw [hfound, herr]
  dsimp only
  split
  · rfl
  · split <;> rfl

theorem satisfied_later (c : Conversation) (as : List Arrival) :
    Satisfied (c.later as) ↔ Satisfied c := by
  have hanswers := answers_later c c.rcb.hsToPsBufferQueue as
  rw [Satisfied, Satisfied]
  show (if c.signal = true then _ else Answers (c.later as) c.rcb.hsToPsBufferQueue) ↔ _
  rw [hanswers]
  rfl

/-- Where a failure that is on record finds what satisfies the posting, rounds lead to a failure only
with what has posted. -/
theorem rounds_failed (hrec : NoRecords s) (hpost : s.rcb.postState = .pendPosted)
    (hnew : New s.tp) (hs : s.rcb.errState.failed → Satisfied s) (h : Rounds s d)
    (hd : d.rcb.errState.failed) : d = s ∨ d.rcb.postState ≠ .pendPosted ∧ d.signal = false := by
  induction h with
  | refl => exact .inl rfl
  | @tail c d hc hnext ih =>
    right
    by_cases hcf : c.rcb.errState.failed
    · exfalso
      have hends : ∃ r, performReceive c = some r ∧ r.2.rcb.postState ≠ .pendPosted ∧ Tells c r := by
        obtain rfl | ⟨hne, hsignal⟩ := ih hcf
        · exact (satisfied_iff hpost hnew).mp (hs hcf)
        · exact performReceive_posted hne hcf hsignal
      obtain ⟨r, hr, hr', -⟩ := hends
      rw [nextRound_posted hr hr'] at hnext
      cases hnext
    · exact round_failed (Rounds.noRecords hrec hc) hcf hnext hd

/-- Whatever arrives later, the verb returns on a failed conversation, and tells of the failure once
the data are used up, if and only if a failure that is on record when its loop starts finds MUs that
satisfy the posting, or a signal with MUs on the queue. -/
theorem receive_returns_iff (c : Conversation) :
    (∀ as, ReturnsFailed (c.later as)) ↔
      ∀ s, loopStart c = some s → s.rcb.errState.failed → Satisfied s := by
  constructor
  · intro h s hs hfailed
    -- nothing arrives
    have hstart : loopStart (c.later []) = some (s.later []) := by rw [loopStart_later, hs]; rfl
    obtain ⟨hrec, hpost, hnew, hverb⟩ := loopStart_spec hstart
    obtain ⟨r, w, hr, hw, -, htells⟩ := (h []).loop _ _ hstart .refl hfailed
    obtain rfl := Option.some.inj ((hverb r (within_enough hrec hr)).symm.trans hw)
    obtain ⟨hr, hr'⟩ | ⟨d, hd, -⟩ := within_cases hr
    · exact (satisfied_later s []).mp ((satisfied_iff hpost hnew).mpr ⟨r, hr, hr', htells⟩)
    · obtain ⟨x, e, -, -, hpend, he, -⟩ := nextRound_spec hd
      have hready : ready x.2 = false := by
        rw [ready, hpend.rm, hrec.rm, hpend.hs, hrec.hs, hpend.signal]
        rfl
      have hlt := waitForRecords_lt hready he
      rw [hpend.arrivals] at hlt
      exact absurd hlt (Nat.not_lt_zero _)
  · intro h as
    refine ⟨fun s d hs hd hfailed => ?_, fun s d hs hd hfailed => errorStart_spec hs hd hfailed⟩
    obtain ⟨hrec, hpost, hnew, hverb⟩ := loopStart_spec hs
    have hsat : s.rcb.errState.failed → Satisfied s := by
      intro hsf
      rw [loopStart_later] at hs
      obtain ⟨s', hs', rfl⟩ := Option.map_eq_some_iff.mp hs
      exact (satisfied_later s' as).mpr (h s' hs' hsf)
    obtain ⟨r, hr, hr', htells⟩ :
        ∃ r, performReceive d = some r ∧ r.2.rcb.postState ≠ .pendPosted ∧ Tells d r := by
      obtain rfl | ⟨hne, hsignal⟩ := rounds_failed hrec hpost hnew hsat hd hfailed
      · exact (satisfied_iff hpost hnew).mp (hsat hfailed)
      · exact performReceive_posted hne hfailed hsignal
    have hwithin := within_posted hr hr' d.rcb.hsToPsBufferQueue.length
    obtain ⟨n, hn⟩ := hd.within hwithin
    exact ⟨r, _, hwithin, hverb r (within_enough hrec hn), rfl, htells⟩

/-- A conversation that is received, with a failure on record -/
def failedConversation : Conversation :=
  { rcb := { convState := .rcvState, errState := .convFailureSon } }

/-- Nothing is queued, and nothing arrives: the verb never returns. -/
theorem failed_receive_waits :
    rcvAndWait failedConversation = none ∧ ¬ ReturnsFailed failedConversation := by
  have hnever : rcvAndWait failedConversation = none := by decide
  refine ⟨hnever, fun h => ?_⟩
  have hstart : loopStart failedConversation = some (postOnReceipt failedConversation) := rfl
  obtain ⟨_, w, -, hw, -⟩ := h.loop _ _ hstart .refl (.inr rfl)
  rw [hnever] at hw
  cases hw

end LinuxSna.Ps
