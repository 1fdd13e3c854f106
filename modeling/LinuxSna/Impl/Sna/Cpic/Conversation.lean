import Mathlib

/-!
# CPI-C conversations

The constants of `cpic.h` and `appc.h` that the calls use, the state of a
conversation and its characteristics.
-/

namespace LinuxSna.Cpic

/-- `CM_CONVERSATION_STATE` -/
inductive State where
  | reset
  | initialized
  | send
  | receive
  | sendPending
  | confirm
  | confirmSend
  | confirmDeallocate
  | deferReceive
  | deferDeallocate
  | syncPoint
  | syncPointSend
  | syncPointDeallocate
  | initializeIncoming
  | sendOnly
  | receiveOnly
  | sendReceive
  | prepared
  deriving DecidableEq

/-- `CM_CALL_ID` -/
inductive Call where
  | cmacci | cmaccp | cmallc | cmcanc | cmcfm | cmcfmd | cmcnvi | cmcnvo | cmdeal | cmdfde
  | cmeacn | cmeaeq | cmeapt | cmecs | cmect | cmectx | cmeid | cmembs | cmemn | cmepid
  | cmepln | cmesi | cmesl | cmesrm | cmesui | cmetc | cmetpn | cmflus | cmincl | cminic
  | cminit | cmprep | cmptr | cmrcv | cmrcvx | cmrltp | cmrts | cmsac | cmsacn | cmsaeq
  | cmsapt | cmsbt | cmscsp | cmscst | cmscsu | cmsct | cmscu | cmsdt | cmsed | cmsend
  | cmserr | cmsf | cmsid | cmsld | cmsltp | cmsmn | cmsndx | cmspdp | cmspid | cmspln
  | cmspm | cmsptr | cmsqcf | cmsqpm | cmsrc | cmsrt | cmssl | cmssrm | cmsst | cmstc
  | cmstpn | cmtrts | cmwait | cmwcmp

/-! ## `CM_RETURN_CODE` -/

def cmOk : Int := 0
def cmAllocateFailureNoRetry : Int := 1
def cmAllocateFailureRetry : Int := 2
def cmConversationTypeMismatch : Int := 3
def cmPipNotSpecifiedCorrectly : Int := 5
def cmSecurityNotValid : Int := 6
def cmSyncLvlNotSupportedLu : Int := 7
def cmSyncLvlNotSupportedSys : Int := 7
def cmSyncLvlNotSupportedPgm : Int := 8
def cmTpnNotRecognized : Int := 9
def cmTpNotAvailableNoRetry : Int := 10
def cmTpNotAvailableRetry : Int := 11
def cmDeallocatedAbend : Int := 17
def cmDeallocatedNormal : Int := 18
def cmProductSpecificError : Int := 20
def cmProgramErrorNoTrunc : Int := 21
def cmProgramErrorPurging : Int := 22
def cmProgramErrorTrunc : Int := 23
def cmProgramParameterCheck : Int := 24
def cmProgramStateCheck : Int := 25
def cmResourceFailureNoRetry : Int := 26
def cmResourceFailureRetry : Int := 27
def cmUnsuccessful : Int := 28
def cmDeallocatedAbendSvc : Int := 30
def cmDeallocatedAbendTimer : Int := 31
def cmSvcErrorNoTrunc : Int := 32
def cmSvcErrorPurging : Int := 33
def cmSvcErrorTrunc : Int := 34
def cmOperationIncomplete : Int := 35
def cmSendRcvModeNotSupported : Int := 39
def cmRetryLimitExceeded : Int := 44
def cmSecurityNotSupported : Int := 46
def cmSecurityMutualFailed : Int := 47
def cmCallNotSupported : Int := 48
def cmTakeBackout : Int := 100
def cmDeallocatedAbendBo : Int := 130
def cmDeallocatedAbendSvcBo : Int := 131
def cmDeallocatedAbendTimerBo : Int := 132
def cmResourceFailNoRetryBo : Int := 133
def cmResourceFailureRetryBo : Int := 134
def cmIncludePartnerRejectBo : Int := 137

/-! ## What a Receive call brings -/

def cmNoDataReceived : Nat := 0
def cmDataReceived : Nat := 1
def cmCompleteDataReceived : Nat := 2
def cmIncompleteDataReceived : Nat := 3

def cmNoStatusReceived : Nat := 0
def cmSendReceived : Nat := 1
def cmConfirmReceived : Nat := 2
def cmConfirmSendReceived : Nat := 3
def cmConfirmDeallocReceived : Nat := 4
def cmTakeCommit : Nat := 5
def cmTakeCommitSend : Nat := 6
def cmTakeCommitDeallocate : Nat := 7
def cmTakeCommitDataOk : Nat := 8
def cmTakeCommitSendDataOk : Nat := 9
def cmTakeCommitDeallocDataOk : Nat := 10
def cmPrepareOk : Nat := 11
def cmJoinTransaction : Nat := 12

/-! ## Characteristics, as APPC counts them -/

def acSyncLevelNone : Nat := 0
def acSyncLevelConfirm : Nat := 1
def acSyncLevelNoConfirm : Nat := 2
def acSyncLevelSyncpt : Nat := 3

def acDeallocateFlush : Nat := 1
def acDeallocateConfirm : Nat := 2
def acDeallocateSyncLevel : Nat := 3
def acDeallocateAbend : Nat := 4

def acPrepToReceiveSyncLevel : Nat := 0
def acPrepToReceiveFlush : Nat := 1
def acPrepToReceiveConfirm : Nat := 2

def acBufferData : Nat := 0
def acSendAndFlush : Nat := 1
def acSendAndConfirm : Nat := 2
def acSendAndPrepToReceive : Nat := 3
def acSendAndDeallocate : Nat := 4

def acReceiveAndWait : Nat := 0
def acReceiveImmediate : Nat := 1

def acInitializationQueue : Nat := 0
def acSendReceiveQueue : Nat := 1
def acExpeditedSendQueue : Nat := 2
def acExpeditedReceiveQueue : Nat := 3

def acConversationTypeMapped : Nat := 1
def acConfirmationUrgent : Nat := 1
def acSecuritySame : Nat := 1
def acSecurityProgram : Nat := 2

/-- `AC_MAX_BUFFER` -/
def acMaxBuffer : Nat := 32767

/-! ## `CM_`, the values that the Set calls take -/

def cmDeallocateSyncLevel : Nat := 0
def cmDeallocateFlush : Nat := 1
def cmDeallocateConfirm : Nat := 2
def cmDeallocateAbend : Nat := 3

def cmBufferData : Nat := 0
def cmSendAndFlush : Nat := 1
def cmSendAndConfirm : Nat := 2
def cmSendAndPrepToReceive : Nat := 3
def cmSendAndDeallocate : Nat := 4

def cmDn : Nat := 0
def cmOid : Nat := 1
def cmIntDigits : Nat := 2

/-- A block of memory that was allocated: its address, and what it holds; `none` once it is freed -/
structure Block where
  addr : Nat
  bytes : Option (List UInt8)
  deriving DecidableEq

/-- `struct sna_tp_cb`, what the calls use of it: the characteristics and what
was received last. The defaults are those that Initialize_Conversation gives. -/
structure Tp where
  dataReceived : Nat := 0
  statusReceived : Nat := 0
  rxReqLen : Nat := 0
  rxRcvLen : Nat := 0
  aeQualifier : List UInt8 := List.replicate 1024 0
  aeQualifierLength : Nat := 0
  aeQualifierFormat : Nat := 0
  allocateConfirm : Nat := 0
  apTitle : List UInt8 := List.replicate 1024 0
  apTitleLength : Nat := 0
  apTitleFormat : Nat := 0
  applicationContextName : List UInt8 := List.replicate 256 0
  applicationContextLength : Nat := 0
  beginTransaction : Nat := 0
  confirmUrgency : Nat := acConfirmationUrgent
  conversationSecurityType : Nat := acSecuritySame
  conversationType : Nat := acConversationTypeMapped
  deallocateType : Nat := acDeallocateSyncLevel
  directoryEncoding : Nat := 0
  directorySyntax : Nat := 0
  errorDirection : Nat := 0
  fill : Nat := 0
  initData : List UInt8 := List.replicate 10000 0
  initDataLength : Nat := 0
  logData : List UInt8 := List.replicate 512 0
  logDataLength : Nat := 0
  modeName : List UInt8 := List.replicate 9 0
  modeNameLength : Nat := 0
  partnerId : Option Block := none
  partnerIdLength : Nat := 0
  partnerIdType : Nat := 0
  partnerIdScope : Nat := 0
  partnerLuName : List UInt8 := List.replicate 18 0
  partnerLuNameLength : Nat := 0
  prepareDataPermitted : Nat := 0
  prepareToReceiveType : Nat := acPrepToReceiveSyncLevel
  processingMode : Nat := 0
  receiveType : Nat := acReceiveAndWait
  returnControl : Nat := 0
  securityPassword : List UInt8 := List.replicate 11 0
  securityPasswordLength : Nat := 0
  securityUserId : List UInt8 := List.replicate 11 0
  securityUserIdLength : Nat := 0
  sendReceiveMode : Nat := 0
  sendType : Nat := acBufferData
  syncLevel : Nat := acSyncLevelNone
  tpName : List UInt8 := List.replicate 65 0
  tpNameLength : Nat := 0
  transactionControl : Nat := 0
  conversationQueue : Nat := acInitializationQueue

/-- `struct cpic`, with the transaction program it points to -/
structure Conversation where
  state : State
  tp : Tp

end LinuxSna.Cpic
