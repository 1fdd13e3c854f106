import LinuxSna.Impl.Sna.Ps.Receive

/-!
# What the state machines leave alone

The state machine of the conversation changes its state and, through its outputs,
the error state and what the half-session is given; nothing else.

* `received_moves`, `setFmh7Rc_moves`: what an indication changes;
* `conversationFailure_eq`, `hsRecord_eq`: all that a record does;
* `receiveRecords_drained`: what the records leave alone;
* `receiveRecords_noRequests`, `receiveRecords_rcvdError`, `receiveRecords_pendPosted`:
  the states after the records, from those before.
-/

namespace LinuxSna.Ps

/-- What no record and no state machine changes: the flags for a request to send, of the conversation
and of the program, and the level of synchronization -/
def Conversation.marks (c : Conversation) : Bool × Bool × SyncLevel :=
  (c.rcb.rqToSendRcvd, c.tp.rqToSendRcvd, c.rcb.syncLevel)

/-- What the state machine of the conversation may change. -/
def Moves (c c' : Conversation) : Prop :=
  ∃ s e allocs toHs,
    c' = { c with rcb.convState := s, rcb.errState := e, allocs := allocs, toHs := toHs }

namespace Moves

variable {c c' c'' : Conversation}

theorem refl (c : Conversation) : Moves c c := ⟨_, _, _, _, rfl⟩

theorem trans (h : Moves c c') (h' : Moves c' c'') : Moves c c'' := by
  obtain ⟨s, e, allocs, toHs, rfl⟩ := h
  obtain ⟨s', e', allocs', toHs', rfl⟩ := h'
  exact ⟨s', e', allocs', toHs', rfl⟩

theorem postState (h : Moves c c') : c'.rcb.postState = c.rcb.postState := by
  obtain ⟨s, e, allocs, toHs, rfl⟩ := h
  rfl

theorem queue (h : Moves c c') : c'.rcb.hsToPsBufferQueue = c.rcb.hsToPsBufferQueue := by
  obtain ⟨s, e, allocs, toHs, rfl⟩ := h
  rfl

theorem tp (h : Moves c c') : c'.tp = c.tp := by
  obtain ⟨s, e, allocs, toHs, rfl⟩ := h
  rfl

theorem marks (h : Moves c c') : c'.marks = c.marks := by
  obtain ⟨s, e, allocs, toHs, rfl⟩ := h
  rfl

theorem handed (h : Moves c c') : c'.handed = c.handed := by
  obtain ⟨s, e, allocs, toHs, rfl⟩ := h
  rfl

end Moves

theorem createAndInitLimitedMu_snd (c : Conversation) :
    (createAndInitLimitedMu c).2 = { c with allocs := c.allocs.tail } := by
  rw [createAndInitLimitedMu]
  split <;> rfl

theorem fsmConvOutputA_moves (c : Conversation) : Moves c (fsmConvOutputA c) := by
  have halloc := createAndInitLimitedMu_snd c
  rw [fsmConvOutputA]
  split
  · split
    · rename_i h
      rw [h] at halloc
      subst halloc
      exact ⟨_, _, _, _, rfl⟩
    · rename_i h
      rw [h] at halloc
      subst halloc
      exact ⟨_, _, _, _, rfl⟩
  · exact Moves.refl c

theorem fsmConversation_moves (who : Who) (a : ConvInput) (c : Conversation) (readonly : Bool) :
    Moves c (fsmConversation who a c readonly).2 := by
  rw [fsmConversation]
  split
  · exact Moves.refl c
  · exact Moves.refl c
  · cases readonly <;> exact ⟨_, _, _, _, rfl⟩
  · cases readonly with
    | true => exact Moves.refl c
    | false => exact Moves.trans ⟨_, _, _, _, rfl⟩ (fsmConvOutputA_moves _)
  · cases readonly <;> exact ⟨_, _, _, _, rfl⟩

theorem received_moves (a : ConvInput) (c : Conversation) : Moves c (received a c) :=
  fsmConversation_moves .r a c false

theorem setFmh7Rc_moves (c : Conversation) (sense : Nat) : Moves c (setFmh7Rc c sense).2 := by
  rw [setFmh7Rc]
  split
  · dsimp only
    split
    · exact received_moves _ _
    · exact Moves.refl _
  · split_ifs <;> exact received_moves _ _

theorem fsmErrorOrFailure_moves (c : Conversation) (input : ErrInput) :
    Moves c (fsmErrorOrFailure c input) :=
  ⟨_, _, _, _, rfl⟩

theorem deallocateAbendRc_moves (c : Conversation) (sense : Nat) :
    Moves c (deallocateAbendRc c sense).2 := by
  rw [deallocateAbendRc]
  split
  · exact setFmh7Rc_moves c sense
  · exact (setFmh7Rc_moves c sense).trans (fsmErrorOrFailure_moves _ _)
  · exact (setFmh7Rc_moves c sense).trans (fsmErrorOrFailure_moves _ _)
  · exact setFmh7Rc_moves c sense

/-- The processing of an FMH-7 leaves the state of posting. -/
theorem processFmh7_postState (c : Conversation) (data : List UInt8) :
    (processFmh7 c data).2.rcb.postState = c.rcb.postState := by
  rw [processFmh7]
  by_cases hlen : data.length < fmh7Size ∨ byte data 0 ≠ data.length
  · rw [if_pos hlen]
    exact (received_moves _ _).postState
  · rw [if_neg hlen]
    by_cases hlogi : fmh7Logi data
    · rw [if_pos hlogi]
      rfl
    · rw [if_neg hlogi]
      by_cases hsense : fmh7Sense data ∈ deallocateAbendSenses
      · rw [if_neg (not_not.mpr hsense)]
        exact (deallocateAbendRc_moves c _).postState
      · rw [if_pos hsense]

/-! ## Records -/

theorem fsmPost_post (c : Conversation) : (fsmPost c .post).rcb.postState ≠ .pendPosted := by
  cases h : c.rcb.postState <;> simp [fsmPost, h, PostState.next]

/-- All that a record of the resource manager does. -/
theorem conversationFailure_eq (c : Conversation) (r : RmRecord) :
    ∃ p, p ≠ .pendPosted ∧ conversationFailure c r =
      { c with
        rcb.postState := p
        rcb.errState := c.rcb.errState.next
          (if r.protocolViolation then .convFailProtocol else .convFailSon) } := by
  by_cases hpost : c.rcb.postState = .pendPosted
  · exact ⟨.posted, by decide, by simp [conversationFailure, fsmErrorOrFailure, fsmPost, hpost,
      PostState.next]⟩
  · exact ⟨c.rcb.postState, hpost, by simp [conversationFailure, fsmErrorOrFailure, hpost]⟩

/-- All that a record of the half-session does. -/
theorem hsRecord_eq (c : Conversation) (r : HsRecord) :
    ∃ rq mus, hsRecord c r =
      { c with
        rcb.rqToSendRcvd := rq
        rcb.hsToPsBufferQueue := c.rcb.hsToPsBufferQueue ++ mus
        rcb.errState :=
          if r = .receiveError then c.rcb.errState.next .receiveError else c.rcb.errState } := by
  have hkeep (rq : Bool) : ∃ mus, { c with rcb.rqToSendRcvd := rq } =
      { c with
        rcb.rqToSendRcvd := rq
        rcb.hsToPsBufferQueue := c.rcb.hsToPsBufferQueue ++ mus } :=
    ⟨[], by rw [List.append_nil]⟩
  cases r with
  | reqToSend =>
    rw [hsRecord]
    split
    · exact ⟨true, hkeep true⟩
    · exact ⟨c.rcb.rqToSendRcvd, hkeep c.rcb.rqToSendRcvd⟩
  | receiveError => exact ⟨c.rcb.rqToSendRcvd, [], by simp [hsRecord, fsmErrorOrFailure]⟩
  | confirmed => exact ⟨c.rcb.rqToSendRcvd, hkeep c.rcb.rqToSendRcvd⟩
  | mu m =>
    rw [hsRecord]
    split
    · exact ⟨c.rcb.rqToSendRcvd, [m], rfl⟩
    · split <;> exact ⟨c.rcb.rqToSendRcvd, hkeep c.rcb.rqToSendRcvd⟩
  | unknown => exact ⟨c.rcb.rqToSendRcvd, hkeep c.rcb.rqToSendRcvd⟩

/-- What a record leaves alone; of what was received before nothing is lost. -/
structure Drained (c c' : Conversation) : Prop where
  tp : c'.tp = c.tp
  convState : c'.rcb.convState = c.rcb.convState
  llTx : c'.rcb.llTx = c.rcb.llTx
  handed : c'.handed = c.handed
  signal : c'.signal = c.signal
  arrivals : c'.arrivals = c.arrivals
  allocs : c'.allocs = c.allocs
  txMaxBtu : c'.rcb.txMaxBtu = c.rcb.txMaxBtu
  rm : c'.rcb.rmToPsQueue = c.rcb.rmToPsQueue
  hs : c'.rcb.hsToPsQueue = c.rcb.hsToPsQueue
  queue : c.rcb.hsToPsBufferQueue <+: c'.rcb.hsToPsBufferQueue

theorem Drained.refl (c : Conversation) : Drained c c :=
  ⟨rfl, rfl, rfl, rfl, rfl, rfl, rfl, rfl, rfl, rfl, List.prefix_rfl⟩

theorem Drained.trans {c c' c'' : Conversation} (h : Drained c c') (h' : Drained c' c'') :
    Drained c c'' where
  tp := h'.tp.trans h.tp
  convState := h'.convState.trans h.convState
  llTx := h'.llTx.trans h.llTx
  handed := h'.handed.trans h.handed
  signal := h'.signal.trans h.signal
  arrivals := h'.arrivals.trans h.arrivals
  allocs := h'.allocs.trans h.allocs
  txMaxBtu := h'.txMaxBtu.trans h.txMaxBtu
  rm := h'.rm.trans h.rm
  hs := h'.hs.trans h.hs
  queue := h.queue.trans h'.queue

theorem conversationFailure_drained (c : Conversation) (r : RmRecord) :
    Drained c (conversationFailure c r) := by
  obtain ⟨p, -, heq⟩ := conversationFailure_eq c r
  rw [heq]
  exact ⟨rfl, rfl, rfl, rfl, rfl, rfl, rfl, rfl, rfl, rfl, List.prefix_rfl⟩

theorem hsRecord_drained (c : Conversation) (r : HsRecord) : Drained c (hsRecord c r) := by
  obtain ⟨rq, mus, heq⟩ := hsRecord_eq c r
  rw [heq]
  exact ⟨rfl, rfl, rfl, rfl, rfl, rfl, rfl, rfl, rfl, rfl, List.prefix_append _ mus⟩

theorem foldl_drained {ρ : Type} {f : Conversation → ρ → Conversation}
    (hf : ∀ c r, Drained c (f c r)) (rs : List ρ) (c : Conversation) :
    Drained c (rs.foldl f c) := by
  induction rs generalizing c with
  | nil => exact Drained.refl c
  | cons r rs ih => exact (hf c r).trans (ih (f c r))

/-- The queues of records are empty once they have been drained. -/
theorem receiveRecords_drained (c : Conversation) :
    Drained { c with rcb.rmToPsQueue := [], rcb.hsToPsQueue := [] } (receiveRecords c) :=
  (foldl_drained conversationFailure_drained _ _).trans (foldl_drained hsRecord_drained _ _)

/-! ## The error state after the records -/

/-- A failure of the conversation is not left. -/
def ErrState.failed (e : ErrState) : Prop := e = .convFailureProtocolError ∨ e = .convFailureSon

theorem conversationFailure_errState (c : Conversation) (r : RmRecord) :
    (conversationFailure c r).rcb.errState =
      c.rcb.errState.next (if r.protocolViolation then .convFailProtocol else .convFailSon) := by
  obtain ⟨p, -, heq⟩ := conversationFailure_eq c r
  rw [heq]

theorem conversationFailure_failed (c : Conversation) (r : RmRecord) :
    (conversationFailure c r).rcb.errState.failed := by
  rw [conversationFailure_errState]
  cases r.protocolViolation <;> cases c.rcb.errState <;> simp [ErrState.next, ErrState.failed]

theorem foldl_failed {rs : List RmRecord} (h : rs ≠ []) (c : Conversation) :
    (rs.foldl conversationFailure c).rcb.errState.failed := by
  obtain ⟨rs, r, rfl⟩ := List.eq_nil_or_concat rs |>.resolve_left h
  rw [List.concat_eq_append, List.foldl_append]
  exact conversationFailure_failed _ _

theorem hsRecord_errState (c : Conversation) (r : HsRecord) :
    (hsRecord c r).rcb.errState =
      if r = .receiveError then c.rcb.errState.next .receiveError else c.rcb.errState := by
  obtain ⟨rq, mus, heq⟩ := hsRecord_eq c r
  rw [heq]

theorem foldl_hsRecord_errState (rs : List HsRecord) (c : Conversation) :
    (rs.foldl hsRecord c).rcb.errState =
      if .receiveError ∈ rs then c.rcb.errState.next .receiveError else c.rcb.errState := by
  induction rs generalizing c with
  | nil => rfl
  | cons r rs ih =>
    rw [List.foldl_cons, ih, hsRecord_errState]
    by_cases hr : r = .receiveError
    · subst hr
      cases c.rcb.errState <;> simp [ErrState.next]
    · simp [hr, Ne.symm hr]

/-- A failure among the records is what is recorded in the end. -/
theorem receiveRecords_failed {c : Conversation} (hrm : c.rcb.rmToPsQueue ≠ []) :
    (receiveRecords c).rcb.errState.failed := by
  have hfailed := foldl_failed hrm { c with rcb.rmToPsQueue := [], rcb.hsToPsQueue := [] }
  rw [receiveRecords, foldl_hsRecord_errState]
  obtain he | he := hfailed
  · exact Or.inl (by rw [he]; split <;> rfl)
  · exact Or.inr (by rw [he]; split <;> rfl)

/-- Without one, a RECEIVE_ERROR may be. -/
theorem receiveRecords_errState {c : Conversation} (hrm : c.rcb.rmToPsQueue = []) :
    (receiveRecords c).rcb.errState =
      if .receiveError ∈ c.rcb.hsToPsQueue then c.rcb.errState.next .receiveError
      else c.rcb.errState := by
  rw [receiveRecords, foldl_hsRecord_errState, hrm]
  rfl

/-- The conversation is without an error after the records exactly if it was before
and no record tells of one. -/
theorem receiveRecords_noRequests {c : Conversation} :
    (receiveRecords c).rcb.errState = .noRequests ↔
      c.rcb.rmToPsQueue = [] ∧ c.rcb.errState = .noRequests ∧ .receiveError ∉ c.rcb.hsToPsQueue := by
  by_cases hrm : c.rcb.rmToPsQueue = []
  · rw [receiveRecords_errState hrm]
    split <;> rename_i hmem <;> cases c.rcb.errState <;> simp [hmem, hrm, ErrState.next]
  · obtain he | he := receiveRecords_failed hrm <;> simp [he, hrm]

/-- The partner's error is what is recorded exactly if there was no failure. -/
theorem receiveRecords_rcvdError {c : Conversation} :
    (receiveRecords c).rcb.errState = .rcvdError ↔
      c.rcb.rmToPsQueue = [] ∧ (c.rcb.errState = .rcvdError ∨
        c.rcb.errState = .noRequests ∧ .receiveError ∈ c.rcb.hsToPsQueue) := by
  by_cases hrm : c.rcb.rmToPsQueue = []
  · rw [receiveRecords_errState hrm]
    split <;> rename_i hmem <;> cases c.rcb.errState <;> simp [hmem, hrm, ErrState.next]
  · obtain he | he := receiveRecords_failed hrm <;> simp [he, hrm]

/-! ## The state of posting after the records -/

theorem hsRecord_postState (c : Conversation) (r : HsRecord) :
    (hsRecord c r).rcb.postState = c.rcb.postState := by
  obtain ⟨rq, mus, heq⟩ := hsRecord_eq c r
  rw [heq]

theorem foldl_hsRecord_postState (rs : List HsRecord) (c : Conversation) :
    (rs.foldl hsRecord c).rcb.postState = c.rcb.postState := by
  induction rs generalizing c with
  | nil => rfl
  | cons r rs ih => rw [List.foldl_cons, ih, hsRecord_postState]

theorem conversationFailure_postState (c : Conversation) (r : RmRecord) :
    (conversationFailure c r).rcb.postState ≠ .pendPosted := by
  obtain ⟨p, hp, heq⟩ := conversationFailure_eq c r
  rw [heq]
  exact hp

/-- The posting is still pending exactly if it was and no failure was among the
records. -/
theorem receiveRecords_pendPosted {c : Conversation} :
    (receiveRecords c).rcb.postState = .pendPosted ↔
      c.rcb.rmToPsQueue = [] ∧ c.rcb.postState = .pendPosted := by
  rw [receiveRecords, foldl_hsRecord_postState]
  by_cases hrm : c.rcb.rmToPsQueue = []
  · rw [hrm, List.foldl_nil]
    simp
  · obtain ⟨rs, r, hrs⟩ := List.eq_nil_or_concat c.rcb.rmToPsQueue |>.resolve_left hrm
    rw [hrs, List.concat_eq_append, List.foldl_append]
    exact iff_of_false (conversationFailure_postState _ _) (by simp)

end LinuxSna.Ps
