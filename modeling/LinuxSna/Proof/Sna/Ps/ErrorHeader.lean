import LinuxSna.Proof.Sna.Ps.Queue

/-!
# The outcome of an FMH-7

`sna_ps_conv_process_fmh7_proc` looks up the return code of three senses alone, those of a
deallocation. Any other sense it returns as it is, and leaves the state of the conversation.

* `received_fmh7Input`: where the indication of an FMH-7 leads;
* `deallocateAbendRc_eq`: what a deallocation gives, whatever the error state is;
* `meets_eq`: the verb gives what the processing of the FMH-7 gives;
* `fmh7_outcome_iff`.
-/

namespace LinuxSna.Ps

variable {c d : Conversation} {m : Mu} {v : Rc × Conversation} {sense : Nat}

/-! ## What an FMH-7 should give -/

def programErrors : List Nat := [0x08890000, 0x08890001, 0x08890100, 0x08890101]

/-- The return code for a sense. `PROG_ERROR_TRUNC` is named in a comment alone and has no number. -/
def fmh7Rc (progErrorTrunc : Rc) (c : Conversation) (sense : Nat) : Rc :=
  if sense = 0x08890001 then progErrorTrunc else (setFmh7Rc c sense).1

/-- The indication for the state machine of the conversation -/
def fmh7Input (sense : Nat) : ConvInput :=
  if (allocationErrors.lookup sense).isSome then .allocationErrorRc
  else if sense ∈ programErrors then .programErrorRc
  else if sense ∈ deallocateAbendSenses then .deallocAbendRc
  else .resourceFailureRc

/-- The states in which these indications are taken -/
def errorStates : List ConvState := [.sendState, .rcvState, .prepToRcvDefer, .deallDefer, .pendDeall]

def fmh7State (sense : Nat) : ConvState := if sense ∈ programErrors then .rcvState else .endConv

structure Outcome (progErrorTrunc : Rc) (c : Conversation) (sense : Nat) (v : Rc × Conversation) :
    Prop where
  rc : v.1 = fmh7Rc progErrorTrunc c sense
  notRaw : v.1 ≠ sense
  once : v.2 = received (fmh7Input sense) c
  state : c.rcb.convState ∈ errorStates → v.2.rcb.convState = fmh7State sense

/-- An indication in a state that takes it, and in one that does not -/
theorem received_error {a : ConvInput} {s : ConvState}
    (ha : a = .programErrorRc ∧ s = .rcvState ∨
      a ∈ [.allocationErrorRc, .deallocAbendRc, .resourceFailureRc] ∧ s = .endConv)
    (hc : c.rcb.convState ∈ errorStates) : (received a c).rcb.convState = s := by
  have hmove : move .r a c.rcb.convState = .goB s := by
    simp only [List.mem_cons, List.not_mem_nil, or_false] at ha
    obtain ⟨rfl, rfl⟩ | ⟨rfl | rfl | rfl, rfl⟩ := ha <;>
      simp only [errorStates, List.mem_cons, List.not_mem_nil, or_false] at hc <;>
      obtain h | h | h | h | h := hc <;> rw [h] <;> rfl
  rw [received, fsmConversation, hmove]
  rfl

theorem received_fmh7Input (sense : Nat) (hc : c.rcb.convState ∈ errorStates) :
    (received (fmh7Input sense) c).rcb.convState = fmh7State sense := by
  apply received_error _ hc
  rw [fmh7Input, fmh7State]
  by_cases herr : sense ∈ programErrors
  · have hlookup : allocationErrors.lookup sense = none := by
      simp only [programErrors, List.mem_cons, List.not_mem_nil, or_false] at herr
      obtain rfl | rfl | rfl | rfl := herr <;> decide
    rw [hlookup, if_neg (by decide), if_pos herr, if_pos herr]
    exact .inl ⟨rfl, rfl⟩
  · rw [if_neg herr, if_neg herr]
    refine .inr ⟨?_, rfl⟩
    split
    · decide
    · split <;> decide

/-! ## A deallocation -/

theorem fsmErrorOrFailure_self {i : ErrInput} (h : c.rcb.errState.next i = c.rcb.errState) :
    fsmErrorOrFailure c i = c := by
  rw [fsmErrorOrFailure, h]

/-- A failure of the conversation stays on record. -/
theorem received_failed {a : ConvInput} (hc : c.rcb.errState.failed) :
    (received a c).rcb.errState = c.rcb.errState := by
  have hreset : c.rcb.errState.next .reset = c.rcb.errState := by
    obtain h | h := hc <;> rw [h] <;> rfl
  rw [received, fsmConversation]
  split
  · rfl
  · rfl
  · rfl
  · obtain h | h := hc <;>
      simp only [Bool.false_eq_true, if_false, fsmConvOutputA, h, reduceCtorEq, or_self]
  · exact hreset

theorem setFmh7Rc_deallocate (h : sense ∈ deallocateAbendSenses) :
    (setFmh7Rc c sense).2 = received .deallocAbendRc c ∧ (setFmh7Rc c sense).1 ≠ sense ∧
      sense ≠ 0x08890001 ∧ fmh7Input sense = .deallocAbendRc := by
  simp only [deallocateAbendSenses, List.mem_cons, List.not_mem_nil, or_false] at h
  obtain rfl | rfl | rfl := h
  · exact ⟨rfl, by show acRcDeallocateAbendProg ≠ _; decide, by decide, by decide⟩
  · exact ⟨rfl, by show acRcDeallocateAbendSvc ≠ _; decide, by decide, by decide⟩
  · exact ⟨rfl, by show acRcDeallocateAbendTimer ≠ _; decide, by decide, by decide⟩

theorem setFmh7Rc_abend {sense : Nat} (h : sense ∈ deallocateAbendSenses) :
    (setFmh7Rc c sense).1 ∈
      [acRcDeallocateAbendProg, acRcDeallocateAbendSvc, acRcDeallocateAbendTimer] := by
  simp only [deallocateAbendSenses, List.mem_cons, List.not_mem_nil, or_false] at h
  obtain rfl | rfl | rfl := h
  · show acRcDeallocateAbendProg ∈ _
    decide
  · show acRcDeallocateAbendSvc ∈ _
    decide
  · show acRcDeallocateAbendTimer ∈ _
    decide

/-- A deallocation gives the code of its sense, whatever the error state is. -/
theorem deallocateAbendRc_eq (h : sense ∈ deallocateAbendSenses) :
    deallocateAbendRc c sense = setFmh7Rc c sense := by
  have hset := (@setFmh7Rc_deallocate c sense h).1
  have hself {i : ErrInput} (hfailed : c.rcb.errState.failed)
      (hi : c.rcb.errState.next i = c.rcb.errState) :
      fsmErrorOrFailure (setFmh7Rc c sense).2 i = (setFmh7Rc c sense).2 := by
    rw [hset]
    exact fsmErrorOrFailure_self (by rw [received_failed hfailed]; exact hi)
  rw [deallocateAbendRc]
  cases herr : c.rcb.errState with
  | noRequests => rfl
  | rcvdError => rfl
  | convFailureProtocolError =>
    exact congrArg (Prod.mk _) (hself (.inl herr) (by rw [herr]; rfl))
  | convFailureSon => exact congrArg (Prod.mk _) (hself (.inr herr) (by rw [herr]; rfl))

/-! ## The verbs -/

/-- An FMH-7 without log data, in an MU of the right length -/
structure WholeFmh7 (m : Mu) : Prop where
  len : fmh7Size ≤ m.data.length
  eq : byte m.data 0 = m.data.length
  logi : fmh7Logi m.data = false

/-- A verb meets the MU in a state, and has a result: once the partner's error was received, or in
the loop over the queue. -/
inductive Meets (m : Mu) : Conversation → Rc × Conversation → Prop where
  | dequeue (c : Conversation) (q : List Mu) (hq : c.rcb.hsToPsBufferQueue = m :: q)
    (hm : fmhType m.data = snaFmhType7) :
    Meets m { fsmPost c .receiveImmediate with rcb.hsToPsBufferQueue := q } (dequeueFmh7 c)
  | queue (err : Rc) (ec : CtrlType) (c : Conversation) (q : List Mu) (g : Got)
    (hg : takeMus err false ec c (m :: q) = some g) (hpost : c.rcb.postState = .pendPosted)
    (hm : m.isFmh7 = true) :
    Meets m (fsmPost { c with rcb.hsToPsBufferQueue := q } .post) g.finish

theorem processFmh7_whole (h : WholeFmh7 m) :
    processFmh7 c m.data =
      if fmh7Sense m.data ∈ deallocateAbendSenses then setFmh7Rc c (fmh7Sense m.data)
      else (fmh7Sense m.data, c) := by
  have hlen : ¬ (m.data.length < fmh7Size ∨ byte m.data 0 ≠ m.data.length) :=
    not_or.mpr ⟨Nat.not_lt.mpr h.len, not_not.mpr h.eq⟩
  rw [processFmh7, if_neg hlen, if_neg (by simp [h.logi])]
  by_cases hsense : fmh7Sense m.data ∈ deallocateAbendSenses
  · rw [if_neg (not_not.mpr hsense), if_pos hsense, deallocateAbendRc_eq hsense]
  · rw [if_pos hsense, if_neg hsense]

theorem processFmh7_queue (h : WholeFmh7 m) :
    (processFmh7 c m.data).2.rcb.hsToPsBufferQueue = c.rcb.hsToPsBufferQueue := by
  rw [processFmh7_whole h]
  split
  · exact (setFmh7Rc_moves c _).queue
  · rfl

/-- The verb gives what the processing of the FMH-7 gives. -/
theorem meets_eq (h : Meets m c v) (hm : WholeFmh7 m) : v = processFmh7 c m.data := by
  cases h with
  | dequeue c q hq htype =>
    have hlen := hm.len
    have hhead : ¬ (m.data.length < fmhSize ∨ fmhType m.data ≠ snaFmhType7) := by
      rw [not_or, not_not]
      exact ⟨by rw [fmh7Size] at hlen; rw [fmhSize]; omega, htype⟩
    have hqueue : (fsmPost c .receiveImmediate).rcb.hsToPsBufferQueue = m :: q := hq
    rw [dequeueFmh7]
    dsimp only
    rw [hqueue]
    exact if_neg hhead
  | queue err ec c q g hg hpost hfmh7 =>
    have hqueue := @processFmh7_queue (fsmPost { c with rcb.hsToPsBufferQueue := q } .post) m hm
    have hposted : (processFmh7 (fsmPost { c with rcb.hsToPsBufferQueue := q } .post)
        m.data).2.rcb.postState ≠ .pendPosted := by
      rw [processFmh7_postState]
      exact fsmPost_post _
    rw [takeMus_of_fmh7 hpost hfmh7] at hg
    generalize processFmh7 (fsmPost { c with rcb.hsToPsBufferQueue := q } .post) m.data = w
      at hqueue hposted hg ⊢
    have hsame : { w.2 with rcb.hsToPsBufferQueue := q } = w.2 := by
      have hq : q = w.2.rcb.hsToPsBufferQueue := hqueue.symm
      rw [hq]
    have hg' : takeMus w.1 true ec w.2 q =
        some ⟨false, w.1, true, ec, { w.2 with rcb.hsToPsBufferQueue := q }, []⟩ := by
      cases q with
      | nil => rfl
      | cons m' q => exact takeMus_of_ne hposted
    rw [hg'] at hg
    obtain rfl := Option.some.inj hg
    rw [Got.finish, endOfChain_of_fmh7 rfl, hsame]
    rfl

/-- The outcome of an FMH-7 is that of its sense if and only if this is one of a deallocation. -/
theorem fmh7_outcome_iff (progErrorTrunc : Rc) (h : Meets m c v) (hm : WholeFmh7 m) :
    Outcome progErrorTrunc c (fmh7Sense m.data) v ↔ fmh7Sense m.data ∈ deallocateAbendSenses := by
  have hv := meets_eq h hm
  rw [processFmh7_whole hm] at hv
  by_cases hsense : fmh7Sense m.data ∈ deallocateAbendSenses
  · rw [if_pos hsense] at hv
    obtain ⟨hset, hraw, hne, hinput⟩ := @setFmh7Rc_deallocate c _ hsense
    have honce : v.2 = received (fmh7Input (fmh7Sense m.data)) c := by rw [hv, hset, hinput]
    refine iff_of_true ⟨?_, ?_, honce, fun hc => ?_⟩ hsense
    · rw [fmh7Rc, if_neg hne, hv]
    · rw [hv]
      exact hraw
    · rw [honce]
      exact received_fmh7Input _ hc
  · rw [if_neg hsense] at hv
    exact iff_of_false (fun ho => ho.notRaw (by rw [hv])) hsense

/-- An FMH-7 with a sense -/
def fmh7 (a b c d : UInt8) : Mu := { data := [7, 7, a, b, c, d, 0], fi := true }

/-- A conversation that is received, after the partner's error -/
def rcvdErrorWith (m : Mu) : Conversation :=
  { rcb := { convState := .rcvState, errState := .rcvdError, hsToPsBufferQueue := [m] } }

theorem fmh7_meets (m : Mu) (hm : fmhType m.data = snaFmhType7) :
    Meets m { fsmPost (rcvdErrorWith m) .receiveImmediate with rcb.hsToPsBufferQueue := [] }
      (dequeueFmh7 (rcvdErrorWith m)) :=
  .dequeue (rcvdErrorWith m) [] rfl hm

theorem fmh7_outcome_iff_timer :
    Outcome 8 { fsmPost (rcvdErrorWith (fmh7 8 0x64 0 2)) .receiveImmediate with
      rcb.hsToPsBufferQueue := [] } (fmh7Sense (fmh7 8 0x64 0 2).data)
      (dequeueFmh7 (rcvdErrorWith (fmh7 8 0x64 0 2))) :=
  (fmh7_outcome_iff 8 (fmh7_meets (fmh7 8 0x64 0 2) (by decide))
    ⟨by decide, by decide, by decide⟩).mpr (by decide)

/-- The partner's program error: its sense is what the verb returns, and nothing is told to the state
machine. -/
theorem program_error_raw :
    fmh7Sense (fmh7 8 0x89 0 0).data = 0x08890000 ∧
      dequeueFmh7 (rcvdErrorWith (fmh7 8 0x89 0 0)) =
        (fmh7Sense (fmh7 8 0x89 0 0).data,
          { fsmPost (rcvdErrorWith (fmh7 8 0x89 0 0)) .receiveImmediate with
            rcb.hsToPsBufferQueue := [] }) ∧
      ∀ progErrorTrunc, ¬ Outcome progErrorTrunc
        { fsmPost (rcvdErrorWith (fmh7 8 0x89 0 0)) .receiveImmediate with
          rcb.hsToPsBufferQueue := [] } (fmh7Sense (fmh7 8 0x89 0 0).data)
        (dequeueFmh7 (rcvdErrorWith (fmh7 8 0x89 0 0))) := by
  have hwhole : WholeFmh7 (fmh7 8 0x89 0 0) := ⟨by decide, by decide, by decide⟩
  have hgives := meets_eq (fmh7_meets (fmh7 8 0x89 0 0) (by decide)) hwhole
  rw [processFmh7_whole hwhole, if_neg (by decide)] at hgives
  exact ⟨by decide, hgives, fun _ h => h.notRaw (by rw [hgives])⟩

end LinuxSna.Ps
