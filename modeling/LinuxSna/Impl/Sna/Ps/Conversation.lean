import Mathlib

/-!
# Conversations, in presentation services

The resource control block of a conversation, the transaction program that
uses it, the three state machines of `sna_ps_conv.c`, and what presentation
services do with the records that come from the half-session and from the
resource manager.
-/

namespace LinuxSna.Ps

/-! ## Return codes -/

/-- What a verb returns, as 32 bits. -/
abbrev Rc := Nat

def acRcOk : Rc := 0
def acRcUnsuccessful : Rc := 1
def acRcProgramParameterCheck : Rc := 3
def acRcProgramStateCheck : Rc := 4
def acRcResourceFailureRetry : Rc := 5
def acRcResourceFailureNoRetry : Rc := 6
def acRcProgErrorNoTrunc : Rc := 9
def acRcProgErrorPurging : Rc := 10
def acRcSvcErrorNoTrunc : Rc := 11
def acRcSvcErrorTrunc : Rc := 12
def acRcSvcErrorPurging : Rc := 13
def acRcDeallocateNormal : Rc := 14
def acRcDeallocateAbendProg : Rc := 16
def acRcDeallocateAbendSvc : Rc := 17
def acRcDeallocateAbendTimer : Rc := 18
def acRcPipNotAllowed : Rc := 19
def acRcPipNotSpecifiedCorrectly : Rc := 20
def acRcConversationTypeMismatch : Rc := 21
def acRcSyncLevelNotSupported : Rc := 22
def acRcSecurityNotValid : Rc := 23
def acRcTpNameNotRecognized : Rc := 24
def acRcTpNotAvailRetry : Rc := 25
def acRcTpNotAvailNoRetry : Rc := 26
def acRcProductSpecific : Rc := 27

/-- `sna_ps_errors`, which counts from zero -/
def programStateCheck : Rc := 0

/-! ## What a Receive brings -/

def acWrNoDataReceived : Nat := 0
def acWrData : Nat := 1
def acWrDataComplete : Nat := 2
def acWrDataIncomplete : Nat := 3

def acSrNoStatusReceived : Nat := 0
def acSrSendReceived : Nat := 1
def acSrConfirmReceived : Nat := 2
def acSrConfirmSendReceived : Nat := 3
def acSrConfirmDeallocateReceived : Nat := 4

/-- `appc_reasons` -/
inductive Reason where
  | none
  | fullLl
  | fullBuffer
  deriving DecidableEq

/-- `appc_fill_types` -/
inductive Fill where
  | ll
  | buffer
  deriving DecidableEq

/-- `appc_conversation_types` -/
inductive ConversationType where
  | basic
  | mapped
  deriving DecidableEq

/-- `appc_sync_levels` -/
inductive SyncLevel where
  | none
  | confirm
  | noConfirm
  | syncpt
  deriving DecidableEq

/-! ## States -/

/-- `sna_ps_fsm_conv_state` -/
inductive ConvState where
  | reset
  | sendState
  | rcvState
  | rcvdConfirm
  | rcvdConfirmSend
  | rcvdConfirmDeall
  | prepToRcvDefer
  | deallDefer
  | pendDeall
  | endConv
  deriving DecidableEq

/-- The inputs `SNA_PS_FSM_CONV_INPUT_NONE`, `_S` and `_R` -/
inductive Who where
  | none
  | s
  | r

/-- `sna_ps_fsm_conv_input`, the actions -/
inductive ConvInput where
  | allocate
  | attach
  | sendData
  | prepToRcvFlush
  | prepToRcvConfirm
  | prepToRcvDefer
  | flush
  | confirm
  | sendError
  | receiveAndWait
  | postOnReceipt
  | wait
  | testPosted
  | testRqToSendRcvd
  | receiveImmediate
  | requestToSend
  | sendIndicator
  | confirmIndicator
  | confirmSendInd
  | confirmDeallocInd
  | confirmed
  | programErrorRc
  | serviceErrorRc
  | deallocNormalRc
  | deallocAbendRc
  | resourceFailureRc
  | allocationErrorRc
  | deallocateFlush
  | deallocateConfirm
  | deallocateDefer
  | deallocateAbend
  | deallocateLocal
  | deallocatedInd
  | getAttributes
  deriving DecidableEq

/-- `sna_ps_fsm_err_or_fail_state` -/
inductive ErrState where
  | noRequests
  | rcvdError
  | convFailureProtocolError
  | convFailureSon
  deriving DecidableEq

/-- The states are numbered from 1. -/
def ErrState.number : ErrState → Nat
  | noRequests => 1
  | rcvdError => 2
  | convFailureProtocolError => 3
  | convFailureSon => 4

/-- `sna_ps_fsm_err_or_fail_input` -/
inductive ErrInput where
  | reset
  | convFailProtocol
  | convFailSon
  | receiveError
  deriving DecidableEq

/-- The inputs are numbered from 0. -/
def ErrInput.number : ErrInput → Nat
  | reset => 0
  | convFailProtocol => 1
  | convFailSon => 2
  | receiveError => 3

/-- `sna_ps_fsm_post_state` -/
inductive PostState where
  | reset
  | pendPosted
  | posted
  deriving DecidableEq

/-- `sna_ps_fsm_post_input` -/
inductive PostInput where
  | postOnReceipt
  | test
  | wait
  | receiveImmediate
  | post
  deriving DecidableEq

/-! ## Message units and records -/

/-- `SNA_CTRL_T_` -/
inductive CtrlType where
  | notEndOfData
  | confirm
  | prepareToRcvConfirmShort
  | prepareToRcvConfirmLong
  | prepareToRcvConfirm
  | prepareToRcvFlush
  | deallocateConfirm
  | deallocateFlush
  | recMu
  | recConfirmed
  | recReqToSend
  | recReceiveError
  | recAllocate
  | recDeallocateAbend
  | recFlush
  | recSendData
  deriving DecidableEq

/-- The types that `sna_dfc_build_hs_to_ps_header` gives a received MU. -/
def CtrlType.received : List CtrlType :=
  [notEndOfData, confirm, prepareToRcvConfirm, prepareToRcvFlush, deallocateConfirm,
   deallocateFlush]

theorem CtrlType.notEndOfData_received : notEndOfData ∈ received := by decide

theorem CtrlType.prepareToRcvFlush_received : prepareToRcvFlush ∈ received := by decide

theorem CtrlType.confirm_received : confirm ∈ received := by decide

theorem CtrlType.deallocateFlush_received : deallocateFlush ∈ received := by decide

/-- A received MU: the bytes that have not been read yet, its `hs_ps_type`, and
whether its RH says that a function management header comes first. -/
structure Mu where
  data : List UInt8
  hsPsType : CtrlType := .notEndOfData
  fi : Bool := false
  received : hsPsType ∈ CtrlType.received := by first | exact CtrlType.notEndOfData_received | decide
  deriving DecidableEq

def snaFmhType7 : Nat := 7

/-- The byte `i` of some data, what is beyond its end read as zero. -/
def byte (data : List UInt8) (i : Nat) : Nat := (data.getD i 0).toNat

/-- The type in a function management header, 7 bits of its second byte. -/
def fmhType (data : List UInt8) : Nat := byte data 1 % 2 ^ 7

/-- An FMH-7 at the head of the MU -/
def Mu.isFmh7 (m : Mu) : Bool := m.fi && fmhType m.data = snaFmhType7

/-- A record of the half-session for presentation services, by
`sna_ctrl->type`. -/
inductive HsRecord where
  | reqToSend
  | receiveError
  | confirmed
  | mu (m : Mu)
  | unknown
  deriving DecidableEq

/-- A record of the resource manager: a conversation failure, and whether its
reason is a protocol violation. -/
structure RmRecord where
  protocolViolation : Bool

/-- An MU for the half-session -/
structure PsMu where
  type : CtrlType
  data : List UInt8

/-- `sna_hs_tx_ps_mu_data` and `sna_hs_tx_ps_mu_req`, and what they are given -/
inductive ToHs where
  | data (mu : Option PsMu)
  | req (mu : PsMu)

/-- What happens while a program waits for records. -/
inductive Arrival where
  | records (rm : List RmRecord) (hs : List HsRecord)
  | signal

/-! ## The control blocks -/

/-- `SNA_RCB_LL_STATE_` -/
inductive LlState where
  | none
  | complete
  | incomplete
  deriving DecidableEq

theorem none_read : 0 ≤ 0 := Nat.le_refl 0

theorem none_in_eight : 0 < 2 ^ 8 := by decide

theorem none_in_sixteen : 0 < 2 ^ 16 := by decide

/-- `ll_rx_state`, `ll_rx_rec_size` and `ll_rx_rec_bytes`, the sizes in 8 bits:
never more bytes of a record are read than it has. -/
structure LlRx where
  state : LlState := .none
  recSize : Nat := 0
  recBytes : Nat := 0
  le : recBytes ≤ recSize := by first | exact none_read | decide
  lt : recSize < 2 ^ 8 := by first | exact none_in_eight | decide

/-- `ll_tx_state`, `ll_tx_rec_size` and `ll_tx_rec_bytes`, the sizes in 16 bits:
never more bytes of a record are counted than it has. -/
structure LlTx where
  state : LlState := .none
  recSize : Nat := 0
  recBytes : Nat := 0
  le : recBytes ≤ recSize := by first | exact none_read | decide
  lt : recSize < 2 ^ 16 := by first | exact none_in_sixteen | decide
  deriving DecidableEq

/-- `struct sna_post_info` -/
structure PostInfo where
  fill : Fill := .ll
  maxLen : Nat := 0

/-- `struct sna_rcb`, what presentation services use of it -/
structure Rcb where
  convState : ConvState := .reset
  errState : ErrState := .noRequests
  postState : PostState := .reset
  rmToPsQueue : List RmRecord := []
  hsToPsQueue : List HsRecord := []
  hsToPsBufferQueue : List Mu := []
  llTx : LlTx := {}
  llRx : LlRx := {}
  txMaxBtu : Nat := 0
  sendMu : Option PsMu := none
  rqToSendRcvd : Bool := false
  syncLevel : SyncLevel := .none
  rxPost : PostInfo := {}

/-- `struct sna_tp_cb`, what presentation services use of it. `rxBuffer` is what
has been copied to the program's buffer. -/
structure Tp where
  conversationType : ConversationType := .mapped
  fill : Fill := .ll
  writeQueue : List (List UInt8) := []
  rqToSendRcvd : Bool := false
  rxMcLlPullLeft : Nat := 0
  rxReqLen : Nat := 0
  rxRcvLen : Nat := 0
  rxBuffer : List UInt8 := []
  dataReceived : Nat := acWrNoDataReceived
  statusReceived : Nat := acSrNoStatusReceived
  le : rxRcvLen ≤ rxReqLen := by first | exact none_read | decide

/-- A transaction program with its conversation, each known to the other by its
index, and what the verbs meet around them. -/
structure Conversation where
  rcb : Rcb := {}
  tp : Tp := {}
  /-- The control block is on the list of the resource manager. -/
  found : Bool := true
  /-- `signal_pending(current)` -/
  signal : Bool := false
  /-- Whether the allocations to come succeed; those beyond the list do. -/
  allocs : List Bool := []
  /-- What will happen while the program waits. -/
  arrivals : List Arrival := []
  /-- What the half-session was given. -/
  toHs : List ToHs := []
  /-- What `sna_ps_conv_send_data_buffer_management` was given. -/
  handed : List (List UInt8) := []

/-! ## Allocation -/

/-- `sna_alloc_skb` -/
def allocSkb (c : Conversation) : Bool × Conversation :=
  (c.allocs.headD true, { c with allocs := c.allocs.tail })

/-- `sna_ps_conv_create_and_init_limited_mu` -/
def createAndInitLimitedMu (c : Conversation) : Option PsMu × Conversation :=
  if (allocSkb c).1 then (some ⟨.recSendData, []⟩, (allocSkb c).2) else (none, (allocSkb c).2)

/-! ## `sna_ps_conv_fsm_post` -/

/-- `sna_ps_conv_fsm_post`, the state after an input. -/
def PostState.next : PostInput → PostState → PostState
  | .postOnReceipt, .reset => .pendPosted
  | .postOnReceipt, .posted => .pendPosted
  | .test, .posted => .reset
  | .wait, .posted => .reset
  | .receiveImmediate, .pendPosted => .reset
  | .receiveImmediate, .posted => .reset
  | .post, .pendPosted => .posted
  | _, s => s

def fsmPost (c : Conversation) (input : PostInput) : Conversation :=
  { c with rcb.postState := c.rcb.postState.next input }

/-! ## `sna_ps_conv_fsm_error_or_failure` -/

/-- `sna_ps_conv_fsm_error_or_failure`, the state after an input. -/
def ErrState.next : ErrInput → ErrState → ErrState
  | .convFailProtocol, .noRequests => .convFailureProtocolError
  | .convFailProtocol, .rcvdError => .convFailureProtocolError
  | .convFailSon, .noRequests => .convFailureSon
  | .convFailSon, .rcvdError => .convFailureSon
  | .receiveError, .noRequests => .rcvdError
  | .reset, .rcvdError => .noRequests
  | _, s => s

def fsmErrorOrFailure (c : Conversation) (input : ErrInput) : Conversation :=
  { c with rcb.errState := c.rcb.errState.next input }

/-! ## `sna_ps_conv_fsm_conversation` -/

/-- `sna_ps_conv_fsm_conv_output_a` -/
def fsmConvOutputA (c : Conversation) : Conversation :=
  if c.rcb.errState = .noRequests ∨ c.rcb.errState = .rcvdError then
    match createAndInitLimitedMu c with
    | (none, c) => c
    | (some mu, c) =>
      { c with toHs := c.toHs ++ [.data (some { mu with type := .prepareToRcvFlush })] }
  else c

/-- `sna_ps_conv_fsm_conv_output_b` -/
def fsmConvOutputB (c : Conversation) : Conversation := fsmErrorOrFailure c .reset

/-- What the state machine makes of an action: it leaves the state, refuses the
action, or goes to a state, with an output. -/
inductive Move where
  | stay
  | refuse
  | go (s : ConvState)
  | goA (s : ConvState)
  | goB (s : ConvState)

open ConvState in
/-- The states in which a confirmation has been asked for. -/
def rcvdConfirmStates : List ConvState := [rcvdConfirm, rcvdConfirmSend, rcvdConfirmDeall]

open ConvState in
/-- The states in which the program may not send. -/
def notSendStates : List ConvState :=
  rcvState :: rcvdConfirmStates ++ [prepToRcvDefer, deallDefer, endConv]

open ConvState in
/-- The states in which the program may not wait for what it receives. -/
def notReceiveStates : List ConvState := rcvdConfirmStates ++ [prepToRcvDefer, deallDefer, endConv]

/-- An action that is refused in some states. -/
def refuseIn (states : List ConvState) (s : ConvState) : Move :=
  if s ∈ states then .refuse else .stay

/-- An action that leads from Send to a state. -/
def fromSend (t s : ConvState) : Move :=
  if s = .sendState then .go t else refuseIn notSendStates s

/-- The actions of the local program. -/
def moveS : ConvInput → ConvState → Move
  | .sendData, s => refuseIn notSendStates s
  | .prepToRcvFlush, s => fromSend .rcvState s
  | .prepToRcvConfirm, s => fromSend .rcvState s
  | .prepToRcvDefer, s => fromSend .prepToRcvDefer s
  | .flush, .prepToRcvDefer => .go .rcvState
  | .flush, .deallDefer => .go .reset
  | .flush, s => refuseIn notSendStates s
  | .confirm, .prepToRcvDefer => .go .rcvState
  | .confirm, .deallDefer => .go .pendDeall
  | .confirm, s => refuseIn notSendStates s
  | .sendError, s =>
    if s ∈ .rcvState :: rcvdConfirmStates then .go .sendState else refuseIn notSendStates s
  | .receiveAndWait, .sendState => .goA .rcvState
  | .receiveAndWait, s => refuseIn notReceiveStates s
  | .postOnReceipt, s => refuseIn (.sendState :: notReceiveStates) s
  | .wait, s => refuseIn (.sendState :: notReceiveStates) s
  | .testPosted, s => refuseIn (.sendState :: notReceiveStates) s
  | .testRqToSendRcvd, s => refuseIn (rcvdConfirmStates ++ [.endConv]) s
  | .receiveImmediate, s => refuseIn (.sendState :: notReceiveStates) s
  | .requestToSend, s => refuseIn [.prepToRcvDefer, .deallDefer] s
  | .confirmed, .rcvdConfirm => .go .rcvState
  | .confirmed, .rcvdConfirmSend => .go .sendState
  | .confirmed, .rcvdConfirmDeall => .go .endConv
  | .confirmed, s => refuseIn [.sendState, .rcvState, .prepToRcvDefer, .deallDefer, .endConv] s
  | .deallocateFlush, s => fromSend .reset s
  | .deallocateConfirm, s => fromSend .pendDeall s
  | .deallocateDefer, s => fromSend .deallDefer s
  | .deallocateAbend, .endConv => .refuse
  | .deallocateAbend, s =>
    if s ∈ .sendState :: .rcvState :: rcvdConfirmStates ++ [.prepToRcvDefer, .deallDefer] then
      .go .reset
    else .stay
  | .deallocateLocal, .endConv => .go .reset
  | .deallocateLocal, s =>
    refuseIn (.sendState :: .rcvState :: rcvdConfirmStates ++ [.prepToRcvDefer, .deallDefer]) s
  | _, _ => .stay

/-- An indication that is taken in Receive. -/
def fromRcv (t s : ConvState) : Move := if s = .rcvState then .go t else .stay

/-- A return code that tells of an error of the partner. -/
def errorRc : ConvState → Move
  | .rcvState => .goB .rcvState
  | .sendState | .prepToRcvDefer | .deallDefer | .pendDeall => .goB .rcvState
  | _ => .stay

/-- A return code that ends the conversation. -/
def failureRc (s : ConvState) : Move :=
  if s ∈ [.sendState, .rcvState, .prepToRcvDefer, .deallDefer, .pendDeall] then .goB .endConv
  else .stay

/-- What is received. -/
def moveR : ConvInput → ConvState → Move
  | .attach, .reset => .go .rcvState
  | .sendIndicator, s => fromRcv .sendState s
  | .confirmIndicator, s => fromRcv .rcvdConfirm s
  | .confirmSendInd, s => fromRcv .rcvdConfirmSend s
  | .confirmDeallocInd, s => fromRcv .rcvdConfirmDeall s
  | .programErrorRc, s => errorRc s
  | .serviceErrorRc, s => errorRc s
  | .deallocNormalRc, s => if s ∈ [.sendState, .rcvState] then .go .endConv else .stay
  | .deallocAbendRc, s => failureRc s
  | .resourceFailureRc, s => failureRc s
  | .allocationErrorRc, s => failureRc s
  | .deallocatedInd, .pendDeall => .go .reset
  | _, _ => .stay

/-- The row of the state machine. -/
def move : Who → ConvInput → ConvState → Move
  | .none, .allocate, .reset => .go .sendState
  | .none, _, _ => .stay
  | .s, action, s => moveS action s
  | .r, action, s => moveR action s

/-- `sna_ps_conv_fsm_conversation`: whether the action is refused, and the
conversation after it. -/
def fsmConversation (who : Who) (action : ConvInput) (c : Conversation) (readonly : Bool) :
    Bool × Conversation :=
  match move who action c.rcb.convState with
  | .stay => (false, c)
  | .refuse => (true, c)
  | .go s => (false, if readonly then c else { c with rcb.convState := s })
  | .goA s => (false, if readonly then c else fsmConvOutputA { c with rcb.convState := s })
  | .goB s => (false, if readonly then c else fsmConvOutputB { c with rcb.convState := s })

/-- The state machine told of what was received. -/
def received (action : ConvInput) (c : Conversation) : Conversation :=
  (fsmConversation .r action c false).2

/-! ## FMH-7 -/

/-- `sna_ps_conv_protocol_error`, which is not written yet -/
def protocolError (c : Conversation) (_ : Nat) : Conversation := c

/-- `sna_ps_conv_get_deallocate_from_hs`, which is not written yet -/
def getDeallocateFromHs (c : Conversation) : Conversation := c

/-- The senses of an allocation error, with the return code for each. -/
def allocationErrors : List (Nat × Rc) :=
  [(0x10086021, acRcTpNameNotRecognized), (0x10086031, acRcPipNotAllowed),
   (0x10086032, acRcPipNotSpecifiedCorrectly), (0x10086034, acRcConversationTypeMismatch),
   (0x10086041, acRcSyncLevelNotSupported), (0x080F0983, acRcSecurityNotValid),
   (0x080F6051, acRcSecurityNotValid), (0x080F8000, acRcSecurityNotValid),
   (0x080F8001, acRcSecurityNotValid), (0x080F8002, acRcSecurityNotValid),
   (0x080F8003, acRcSecurityNotValid), (0x080F8004, acRcSecurityNotValid),
   (0x080F8005, acRcSecurityNotValid), (0x080F8006, acRcSecurityNotValid),
   (0x080F8007, acRcSecurityNotValid), (0x080F8008, acRcSecurityNotValid),
   (0x080F8009, acRcSecurityNotValid), (0x080F800A, acRcSecurityNotValid),
   (0x080F800B, acRcSecurityNotValid), (0x080F8101, acRcSecurityNotValid),
   (0x080F8102, acRcSecurityNotValid), (0x080F8103, acRcSecurityNotValid),
   (0x080F8104, acRcSecurityNotValid), (0x084B6031, acRcTpNotAvailRetry),
   (0x084C0000, acRcTpNotAvailNoRetry)]

/-- The return code of a program or service error, if the partner's error was
received before and if not. -/
def purging (c : Conversation) (purged notPurged : Rc) : Rc :=
  if c.rcb.errState = .rcvdError then purged else notPurged

/-- `sna_ps_conv_set_fmh7_rc`. The cases of an allocation error fall through to
the last of them. -/
def setFmh7Rc (c : Conversation) (sense : Nat) : Rc × Conversation :=
  match allocationErrors.lookup sense with
  | some rc =>
    let c := getDeallocateFromHs c
    (rc, if c.rcb.convState ≠ .endConv then received .allocationErrorRc c else c)
  | none =>
    if sense = 0x1008600B then (acRcResourceFailureNoRetry, received .resourceFailureRc c)
    else if sense = 0x08890000 then
      (purging c acRcProgErrorPurging acRcProgErrorNoTrunc, received .programErrorRc c)
    else if sense = 0x08890001 then (acRcProgErrorPurging, received .programErrorRc c)
    else if sense = 0x08890100 then
      (purging c acRcSvcErrorPurging acRcSvcErrorNoTrunc, received .programErrorRc c)
    else if sense = 0x08890101 then (acRcSvcErrorTrunc, received .programErrorRc c)
    else if sense = 0x08640000 then (acRcDeallocateAbendProg, received .deallocAbendRc c)
    else if sense = 0x08640001 then (acRcDeallocateAbendSvc, received .deallocAbendRc c)
    else if sense = 0x08640002 then (acRcDeallocateAbendTimer, received .deallocAbendRc c)
    else (acRcResourceFailureNoRetry, received .resourceFailureRc (protocolError c sense))

/-- `sizeof(sna_fmh)` -/
def fmhSize : Nat := 2

/-- `sizeof(sna_fmh7)` -/
def fmh7Size : Nat := 7

/-- The sense data of an FMH-7 -/
def fmh7Sense (data : List UInt8) : Nat :=
  byte data 2 * 2 ^ 24 + byte data 3 * 2 ^ 16 + byte data 4 * 2 ^ 8 + byte data 5

/-- Log data follow the FMH-7. -/
def fmh7Logi (data : List UInt8) : Bool := 2 ^ 7 ≤ byte data 6

/-- `sna_ps_conv_process_fmh7_log_data_proc`, which is not written yet -/
def processFmh7LogData (c : Conversation) (_ : Nat) : Conversation := c

/-- The senses of a deallocation, by the program, by a service and by a timer. -/
def deallocateAbendSenses : List Nat := [0x08640000, 0x08640001, 0x08640002]

/-- The conversation was deallocated, as the sense says. -/
def deallocateAbendRc (c : Conversation) (sense : Nat) : Rc × Conversation :=
  match c.rcb.errState with
  | .noRequests => setFmh7Rc (getDeallocateFromHs c) sense
  | .convFailureProtocolError =>
    ((setFmh7Rc c sense).1, fsmErrorOrFailure (setFmh7Rc c sense).2 .convFailProtocol)
  | .convFailureSon =>
    ((setFmh7Rc c sense).1, fsmErrorOrFailure (setFmh7Rc c sense).2 .convFailSon)
  | .rcvdError => setFmh7Rc c sense

/-- `sna_ps_conv_process_fmh7_proc`. A sense that does not say that the
conversation was deallocated is itself returned. -/
def processFmh7 (c : Conversation) (data : List UInt8) : Rc × Conversation :=
  if data.length < fmh7Size ∨ byte data 0 ≠ data.length then
    (0x10086000,
      { received .resourceFailureRc (protocolError c 0x10086000) with
        rcb.rxPost.maxLen := 0 })
  else if fmh7Logi data then (fmh7Sense data, processFmh7LogData c (fmh7Sense data))
  else if fmh7Sense data ∉ deallocateAbendSenses then (fmh7Sense data, c)
  else deallocateAbendRc c (fmh7Sense data)

/-- `sna_ps_conv_dequeue_fmh7_proc` -/
def dequeueFmh7 (c : Conversation) : Rc × Conversation :=
  let c := fsmPost c .receiveImmediate
  match c.rcb.hsToPsBufferQueue with
  | [] => (acRcResourceFailureNoRetry, received .resourceFailureRc (protocolError c 0x1008201D))
  | m :: q =>
    if m.data.length < fmhSize ∨ fmhType m.data ≠ snaFmhType7 then
      (acRcResourceFailureNoRetry, received .resourceFailureRc (protocolError c 0x1008201D))
    else processFmh7 { c with rcb.hsToPsBufferQueue := q } m.data

/-! ## Records from the resource manager and the half-session -/

/-- `sna_ps_conv_conversation_failure_proc` -/
def conversationFailure (c : Conversation) (r : RmRecord) : Conversation :=
  let c := fsmErrorOrFailure c (if r.protocolViolation then .convFailProtocol else .convFailSon)
  if c.rcb.postState = .pendPosted then fsmPost c .post else c

/-- What is done with a record of the half-session. The error state is twice
compared with the number of an input. -/
def hsRecord (c : Conversation) : HsRecord → Conversation
  | .reqToSend =>
    if c.rcb.errState.number = ErrInput.reset.number then { c with rcb.rqToSendRcvd := true } else c
  | .receiveError => fsmErrorOrFailure c .receiveError
  | .confirmed => c
  | .mu m =>
    if c.rcb.convState = .rcvState ∨ c.rcb.errState = .rcvdError then
      { c with rcb.hsToPsBufferQueue := c.rcb.hsToPsBufferQueue ++ [m] }
    else if c.rcb.convState = .endConv then protocolError c 0x20040000
    else c
  | .unknown => c

/-- `sna_ps_conv_receive_rm_or_hs_to_ps_records`, not suspended: it runs until
no record is left, those of the resource manager first. -/
def receiveRecords (c : Conversation) : Conversation :=
  c.rcb.hsToPsQueue.foldl hsRecord
    (c.rcb.rmToPsQueue.foldl conversationFailure
      { c with rcb.rmToPsQueue := [], rcb.hsToPsQueue := [] })

/-- The conversation after something happened while the program waited. -/
def arrive (c : Conversation) : Arrival → Conversation
  | .records rm hs =>
    { c with
      rcb.rmToPsQueue := c.rcb.rmToPsQueue ++ rm
      rcb.hsToPsQueue := c.rcb.hsToPsQueue ++ hs }
  | .signal => { c with signal := true }

/-- The program need not wait, or wait on: there is a record, or a signal. -/
def ready (c : Conversation) : Bool :=
  c.rcb.rmToPsQueue ≠ [] || c.rcb.hsToPsQueue ≠ [] || c.signal

/-- The wait of a suspended program; `none` if it never ends. -/
def waitForRecords : List Arrival → Conversation → Option Conversation
  | [], c => if ready c then some { c with arrivals := [] } else none
  | a :: as, c =>
    if ready c then some { c with arrivals := a :: as } else waitForRecords as (arrive c a)

/-- `sna_ps_conv_receive_rm_or_hs_to_ps_records`, suspended -/
def receiveRecordsSuspended (c : Conversation) : Option Conversation :=
  (waitForRecords c.arrivals c).map receiveRecords

end LinuxSna.Ps
