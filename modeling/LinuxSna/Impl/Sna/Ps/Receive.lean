import LinuxSna.Framework.Loop
import LinuxSna.Impl.Sna.Cpic.Calls
import LinuxSna.Impl.Sna.Ps.Conversation

/-!
# Receive

What the program receives of a conversation: the logical records of the MUs on
`hs_to_ps_buffer_queue`, copied to its buffer as far as they fit, and what the
end of a chain says.
-/

namespace LinuxSna.Ps

open Framework (loop)

/-! ## `sna_ps_conv_process_data_proc` -/

/-- What the loop works on: the conversation, and the MU taken off its queue. -/
structure Take where
  c : Conversation
  mu : Mu

/-- What the procedure leaves: its return code, its two results, and the bytes
of the MU that it has not read. -/
structure Data where
  err : Rc
  reason : Reason
  endOfChainType : CtrlType
  c : Conversation
  rest : List UInt8

/-- The position at the start of a record, its size kept in 8 bits. -/
def LlRx.start (size : Nat) : LlRx :=
  { state := .incomplete
    recSize := size % 2 ^ 8
    recBytes := 0
    le := Nat.zero_le _
    lt := Nat.mod_lt _ (by decide) }

/-- What is left of the record. -/
def LlRx.left (l : LlRx) : Nat := l.recSize - l.recBytes

/-- The position after some bytes were read. -/
def LlRx.read (l : LlRx) (n : Nat) (llEnd : Bool) (h : n ≤ l.left) : LlRx :=
  { l with
    state := if llEnd then .complete else l.state
    recBytes := l.recBytes + n
    le := by have := l.le; rw [LlRx.left] at h; omega }

/-- The LL field at the head of the MU -/
def llSize (data : List UInt8) : Nat := byte data 0 * 2 ^ 8 + byte data 1

/-- The start of a record; `none` if its LL field is not valid, or not all there.
On a mapped conversation the LL field and the GDS identifier are stripped. -/
def startRecord (t : Take) : Option Take :=
  if t.mu.data.length < 2 then none
  else if llSize t.mu.data < 2 ∨ llSize t.mu.data > 32767 then none
  else match t.c.tp.conversationType with
    | .mapped =>
      some { t with
        c.tp.rxMcLlPullLeft := 4
        c.rcb.llRx := .start (llSize t.mu.data + 2 ^ 8 - 4) }
    | .basic => some { t with c.rcb.llRx := .start (llSize t.mu.data) }

/-- Strips what is there of the fields before the data. -/
def pullLl (t : Take) : Take :=
  if t.c.tp.conversationType = .mapped ∧ t.c.tp.rxMcLlPullLeft ≠ 0 then
    { t with
      mu.data := t.mu.data.drop t.c.tp.rxMcLlPullLeft
      c.tp.rxMcLlPullLeft := t.c.tp.rxMcLlPullLeft - t.mu.data.length }
  else t

/-- The room in the program's buffer -/
def Tp.room (tp : Tp) : Nat := tp.rxReqLen - tp.rxRcvLen

/-- How many bytes are copied, and whether the record ends with them. -/
def copySize (len left room : Nat) : Nat × Bool :=
  if len ≥ left then
    if room ≥ left then (left, true) else (room, false)
  else
    if room ≥ len then (len, false) else (room, false)

theorem copySize_le (len left room : Nat) :
    (copySize len left room).1 ≤ len ∧ (copySize len left room).1 ≤ left ∧
      (copySize len left room).1 ≤ room := by
  grind [copySize]

/-- `sna_ktou`: what is copied to the program. That too much cannot be copied
is not looked at. -/
def ktou (bytes : List UInt8) : List UInt8 :=
  if bytes.length > Cpic.maxSnaAddr then [] else bytes

/-- The program's side of a copy. -/
def Tp.copy (tp : Tp) (bytes : List UInt8) (h : bytes.length ≤ tp.room) : Tp :=
  { tp with
    rxBuffer := tp.rxBuffer ++ ktou bytes
    rxRcvLen := tp.rxRcvLen + bytes.length
    le := by have := tp.le; rw [Tp.room] at h; omega }

/-- The size of the copy from the MU -/
def Take.size (t : Take) : Nat × Bool :=
  copySize t.mu.data.length t.c.rcb.llRx.left t.c.tp.room

/-- Copies what there is, what the record still has, and what there is room
for. -/
def copyData (t : Take) : Take :=
  { t with
    mu.data := t.mu.data.drop t.size.1
    c.tp := t.c.tp.copy (t.mu.data.take t.size.1)
      (Nat.le_trans (List.length_take_le _ _) (copySize_le _ _ _).2.2)
    c.rcb.llRx := t.c.rcb.llRx.read t.size.1 t.size.2 (copySize_le _ _ _).2.1 }

/-- Reads on in a record, and whether it ends. -/
def readRecord (t : Take) : Take × Bool :=
  if t.c.rcb.llRx.state = .incomplete then (copyData (pullLl t), (pullLl t).size.2)
  else (t, false)

/-- A record that is complete makes way for the next. -/
def endRecord (t : Take) : Take :=
  if t.c.rcb.llRx.state = .complete then { t with c.rcb.llRx := {} } else t

/-- Control goes back to the program, and the rest of the MU to the head of the
queue. -/
def toProgram (t : Take) (llEnd : Bool) : Data :=
  let reason : Reason := if t.c.tp.fill = .ll ∧ llEnd then .fullLl else .fullBuffer
  { err := acRcOk
    reason := reason
    endOfChainType := t.mu.hsPsType
    c := { t.c with
      rcb.hsToPsBufferQueue :=
        if t.mu.data ≠ [] then t.mu :: t.c.rcb.hsToPsBufferQueue else t.c.rcb.hsToPsBufferQueue
      tp.dataReceived :=
        if t.c.tp.fill = .ll then
          if reason = .fullLl then acWrDataComplete else acWrDataIncomplete
        else acWrData }
    rest := t.mu.data }

/-- The procedure gives the MU up, all of it read or not. -/
def freed (t : Take) (err : Rc) : Data := ⟨err, .none, t.mu.hsPsType, t.c, []⟩

/-- The start of the body: a record that is yet to be read is begun. -/
def begin (t : Take) : Option Take :=
  if t.c.rcb.llRx.state = .none then startRecord t else some t

/-- The end of the body: the program has what it asked for, or there is more in
the MU, or not. -/
def turn (t : Take) (llEnd : Bool) : Take ⊕ Data :=
  if (t.c.tp.fill = .ll ∧ llEnd) ∨ t.c.tp.rxReqLen = t.c.tp.rxRcvLen then .inr (toProgram t llEnd)
  else if t.mu.data ≠ [] then .inl t
  else .inr (freed t acRcOk)

/-- The body of the loop. -/
def pass (t : Take) : Take ⊕ Data :=
  match begin t with
  | none => .inr (freed t acRcUnsuccessful)
  | some u => turn (endRecord (readRecord u).1) (readRecord u).2

/-- How much the loop has before it. -/
def Take.measure (t : Take) : Nat :=
  2 * t.mu.data.length + if t.c.rcb.llRx.state = .none then 0 else 1

/-- `sna_ps_conv_process_data_proc`. A loop that has not ended after so many
passes does not end. -/
def processData (c : Conversation) (m : Mu) : Option Data :=
  loop pass ((⟨c, m⟩ : Take).measure + 1) ⟨c, m⟩

/-! ## `sna_ps_conv_perform_receive_ec_processing` -/

/-- The types that ask for a confirmation. -/
def confirmTypes : List CtrlType := [.confirm, .prepareToRcvConfirm, .deallocateConfirm]

/-- A protocol error at the end of the chain. -/
def ecProtocolError (c : Conversation) : Rc × Conversation :=
  (acRcResourceFailureNoRetry, received .resourceFailureRc (protocolError c 0x10010000))

/-- `sna_ps_conv_perform_receive_ec_processing`. Where the partner asks to confirm
a deallocation, what is set is what was received. -/
def ecProcessing (c : Conversation) (endOfChainType : CtrlType) : Rc × Conversation :=
  if c.rcb.llRx.state = .incomplete then ecProtocolError c
  else if c.rcb.syncLevel = .none ∧ endOfChainType ∈ confirmTypes then ecProtocolError c
  else match endOfChainType with
    | .confirm =>
      (acRcOk, received .confirmIndicator { c with tp.statusReceived := acSrConfirmReceived })
    | .prepareToRcvConfirm =>
      (acRcOk, received .confirmSendInd { c with tp.statusReceived := acSrConfirmSendReceived })
    | .prepareToRcvFlush =>
      (acRcOk, received .sendIndicator { c with tp.statusReceived := acSrSendReceived })
    | .deallocateConfirm =>
      (acRcOk, received .confirmDeallocInd
        { c with tp.dataReceived := acSrConfirmDeallocateReceived })
    | .deallocateFlush => (acRcDeallocateNormal, received .deallocNormalRc c)
    | _ => (acRcUnsuccessful, c)

/-! ## `sna_ps_conv_perform_receive_processing` -/

/-- What the loop over the queue leaves: whether the procedure fails at once,
its local variables, and what is left of the MU that was read last. -/
structure Got where
  failed : Bool
  err : Rc
  fmh7 : Bool
  endOfChainType : CtrlType
  c : Conversation
  rest : List UInt8

/-- The loop over the queue. -/
def takeMus (err : Rc) (fmh7 : Bool) (ec : CtrlType) (c : Conversation) :
    List Mu → Option Got
  | [] => some ⟨false, err, fmh7, ec, { c with rcb.hsToPsBufferQueue := [] }, []⟩
  | m :: q =>
    if c.rcb.postState ≠ .pendPosted then
      some ⟨false, err, fmh7, ec, { c with rcb.hsToPsBufferQueue := m :: q }, []⟩
    else if m.isFmh7 then
      let r := processFmh7 (fsmPost { c with rcb.hsToPsBufferQueue := q } .post) m.data
      takeMus r.1 true ec r.2 q
    else
      match processData { c with rcb.hsToPsBufferQueue := q } m with
      | none => none
      | some d =>
        if d.err ≠ acRcOk then
          some ⟨true, d.err, fmh7, d.endOfChainType, fsmPost d.c .post, d.rest⟩
        else if d.reason ≠ .none then
          some ⟨false, d.err, fmh7, d.endOfChainType, fsmPost d.c .post, d.rest⟩
        else takeMus d.err fmh7 d.endOfChainType d.c q

/-- The loop, from the start of the procedure. -/
def gather (c : Conversation) : Option Got :=
  takeMus acRcUnsuccessful false .notEndOfData c c.rcb.hsToPsBufferQueue

/-- The end of the chain is to be processed. -/
def Got.endOfChain (g : Got) : Bool :=
  !g.failed && !g.fmh7 && g.endOfChainType ≠ .notEndOfData

/-- The procedure after its loop. -/
def Got.finish (g : Got) : Rc × Conversation :=
  if g.endOfChain then ecProcessing (fsmPost g.c .post) g.endOfChainType else (g.err, g.c)

/-- The procedure on an empty queue. -/
def nothingQueued (c : Conversation) : Rc × Conversation :=
  if c.rcb.errState = .convFailureProtocolError then
    (acRcResourceFailureNoRetry, received .resourceFailureRc c)
  else if c.rcb.errState = .convFailureSon then
    (acRcResourceFailureRetry, received .resourceFailureRc c)
  else (acRcUnsuccessful, c)

/-- `sna_ps_conv_perform_receive_processing`; `none` if a loop does not end. -/
def performReceive (c : Conversation) : Option (Rc × Conversation) :=
  if c.signal then some (acRcUnsuccessful, fsmPost c .post)
  else if c.rcb.hsToPsBufferQueue = [] then some (nothingQueued c)
  else (gather c).map Got.finish

/-! ## The Receive verbs -/

/-- The loop of `sna_ps_conv_receive_and_test_posting` after its first round, for
so many rounds at most. -/
def testPosting : Nat → Rc × Conversation → Option (Rc × Conversation)
  | 0, _ => none
  | n + 1, (err, c) =>
    if c.rcb.postState ≠ .pendPosted then some (err, c)
    else
      (if c.rcb.hsToPsBufferQueue = [] then receiveRecordsSuspended c else some c).bind
        fun c => (performReceive c).bind (testPosting n)

/-- The conditions of the posting, from what the program asks for. -/
def setPostInfo (c : Conversation) : Conversation :=
  { c with rcb.rxPost := ⟨c.tp.fill, c.tp.rxReqLen % 2 ^ 16⟩ }

/-- The start of `sna_ps_conv_receive_and_test_posting` -/
def postOnReceipt (c : Conversation) : Conversation :=
  { setPostInfo (fsmPost c .postOnReceipt) with
    tp.dataReceived := acWrNoDataReceived
    tp.statusReceived := acSrNoStatusReceived }

/-- `sna_ps_conv_receive_and_test_posting`. Each round but the first waits for
something to happen. -/
def receiveAndTestPosting (c : Conversation) : Option (Rc × Conversation) :=
  ((performReceive (postOnReceipt c)).bind (testPosting (c.arrivals.length + 2))).map
    fun r => (r.1, fsmPost r.2 .receiveImmediate)

/-- The end of the verbs: a request to send is passed up. -/
def passRqToSend (r : Rc × Conversation) : Rc × Conversation :=
  (r.1, { r.2 with tp.rqToSendRcvd := r.2.rcb.rqToSendRcvd, rcb.rqToSendRcvd := false })

/-- A conversation failure, reported by a verb. -/
def failureReported (c : Conversation) : Rc × Conversation :=
  (if c.rcb.errState = .convFailureSon then acRcResourceFailureRetry
    else acRcResourceFailureNoRetry, received .resourceFailureRc c)

/-- What the verbs do once the partner's error has been received: they wait for
its FMH-7. -/
def rcvdError (c : Conversation) : Option (Rc × Conversation) :=
  (if c.rcb.hsToPsBufferQueue = [] then receiveRecordsSuspended c else some c).map fun c =>
    if c.rcb.errState ≠ .convFailureSon ∧ c.rcb.errState ≠ .convFailureProtocolError then
      dequeueFmh7 c
    else passRqToSend (failureReported c)

/-- The partner's error has been received and the program sends: it gives the
partner the right to send first. `none` if there is no MU for that. -/
def turnAround (c : Conversation) : Option Conversation × Conversation :=
  if c.rcb.convState = .sendState then
    match createAndInitLimitedMu c with
    | (none, c) => (none, c)
    | (some mu, c) =>
      (some { c with toHs := c.toHs ++ [.req { mu with type := .prepareToRcvFlush }] }, c)
  else (some c, c)

/-- `sna_ps_conv_rcv_and_wait_proc`; `none` if it never returns. -/
def rcvAndWait (c : Conversation) : Option (Rc × Conversation) :=
  if !c.found then some (acRcProductSpecific, c)
  else if (fsmConversation .s .receiveAndWait c true).1 then some (acRcProgramStateCheck, c)
  else
    let c := receiveRecords c
    if c.rcb.errState = .rcvdError then
      match turnAround c with
      | (none, c) => some (acRcOk, c)
      | (some c, _) => rcvdError c
    else
      (receiveAndTestPosting (fsmConversation .s .receiveAndWait c false).2).map passRqToSend

/-- `sna_ps_conv_rcv_immediate_proc`; `none` if it never returns. -/
def rcvImmediate (c : Conversation) : Option (Rc × Conversation) :=
  if !c.found then some (acRcProductSpecific, c)
  else if (fsmConversation .s .receiveImmediate c true).1 then some (acRcProgramStateCheck, c)
  else
    let c := receiveRecords c
    if c.rcb.errState = .rcvdError then rcvdError c
    else
      (performReceive (setPostInfo (fsmConversation .s .receiveImmediate c false).2)).map
        fun r => passRqToSend (r.1, fsmPost r.2 .receiveImmediate)

end LinuxSna.Ps
