import LinuxSna.Framework.Commit
import LinuxSna.Impl.Sna.Cpic.Conversation

/-!
# The state machine of a conversation

`sna_cpic_fsm_hd` and what it calls: for each call a choice on the state, for
each state a verdict or a table of rows, each under a condition on the return
code, on what was received or on the characteristics. A verdict that is not
zero refuses the call.
-/

namespace LinuxSna.Cpic

open Framework (Row next)

/-! ## Conditions on the characteristics -/

/-- `sna_cpic_fsm_cc_a` -/
def ccA (c : Conversation) (_ : Call) : Bool := c.tp.deallocateType = acDeallocateAbend

/-- `sna_cpic_fsm_cc_b` -/
def ccB (c : Conversation) (_ : Call) : Bool := c.tp.sendType = acBufferData

/-- `sna_cpic_fsm_cc_c` -/
def ccC (c : Conversation) : Call → Bool
  | .cmdeal =>
    c.tp.deallocateType = acDeallocateConfirm ||
    (c.tp.deallocateType = acDeallocateSyncLevel && c.tp.syncLevel = acSyncLevelConfirm) ||
    (c.tp.deallocateType = acDeallocateSyncLevel && c.tp.syncLevel = acSyncLevelSyncpt)
  | .cmptr =>
    c.tp.prepareToReceiveType = acPrepToReceiveConfirm ||
    (c.tp.prepareToReceiveType = acPrepToReceiveSyncLevel &&
      c.tp.syncLevel = acSyncLevelConfirm) ||
    (c.tp.prepareToReceiveType = acPrepToReceiveSyncLevel && c.tp.syncLevel = acSyncLevelSyncpt)
  | .cmsend => c.tp.sendType = acSendAndConfirm
  | _ => false

/-- `sna_cpic_fsm_cc_d` -/
def ccD (c : Conversation) (_ : Call) : Bool := c.tp.sendType = acSendAndDeallocate

/-- `sna_cpic_fsm_cc_f` -/
def ccF (c : Conversation) : Call → Bool
  | .cmdeal =>
    c.tp.deallocateType = acDeallocateFlush ||
    (c.tp.deallocateType = acDeallocateSyncLevel &&
      (c.tp.syncLevel = acSyncLevelNone || c.state = .initializeIncoming)) ||
    (c.tp.deallocateType = acDeallocateSyncLevel && c.tp.syncLevel = acSyncLevelNoConfirm)
  | .cmptr =>
    c.tp.prepareToReceiveType = acPrepToReceiveFlush ||
    (c.tp.prepareToReceiveType = acPrepToReceiveSyncLevel && c.tp.syncLevel = acSyncLevelNone) ||
    (c.tp.prepareToReceiveType = acPrepToReceiveSyncLevel &&
      c.tp.syncLevel = acSyncLevelNoConfirm)
  | .cmsend => c.tp.sendType = acSendAndFlush
  | _ => false

/-- `sna_cpic_fsm_cc_p` -/
def ccP (c : Conversation) (_ : Call) : Bool := c.tp.sendType = acSendAndPrepToReceive

/-- `sna_cpic_fsm_cc_s`. It has no case for Send_Data. -/
def ccS (c : Conversation) : Call → Bool
  | .cmdeal =>
    c.tp.deallocateType = acDeallocateSyncLevel &&
      (c.tp.syncLevel = acSyncLevelSyncpt || c.tp.syncLevel = acSyncLevelNoConfirm)
  | .cmptr =>
    c.tp.prepareToReceiveType = acPrepToReceiveSyncLevel &&
      (c.tp.syncLevel = acSyncLevelSyncpt || c.tp.syncLevel = acSyncLevelNoConfirm)
  | _ => false

/-! ## Conditions on the return code -/

/-- `sna_cpic_fsm_rc_ae` -/
def rcAe (rc : Int) (allocate : Bool) : Bool :=
  if rc ∈ [cmAllocateFailureNoRetry, cmAllocateFailureRetry, cmResourceFailureNoRetry,
      cmResourceFailureRetry, cmRetryLimitExceeded, cmSecurityMutualFailed,
      cmSecurityNotSupported] then allocate
  else rc ∈ [cmConversationTypeMismatch, cmPipNotSpecifiedCorrectly, cmSecurityNotValid,
    cmSendRcvModeNotSupported, cmSyncLvlNotSupportedPgm, cmSyncLvlNotSupportedSys,
    cmTpNotAvailableNoRetry, cmTpNotAvailableRetry, cmTpnNotRecognized]

/-- `sna_cpic_fsm_rc_bo` -/
def rcBo (rc : Int) : Bool := rc = cmTakeBackout

/-- `sna_cpic_fsm_rc_da` -/
def rcDa (rc : Int) : Bool :=
  rc ∈ [cmDeallocatedAbend, cmDeallocatedAbendSvc, cmDeallocatedAbendTimer]

/-- `sna_cpic_fsm_rc_db` -/
def rcDb (rc : Int) : Bool :=
  rc ∈ [cmDeallocatedAbendBo, cmDeallocatedAbendSvcBo, cmDeallocatedAbendTimerBo]

/-- `sna_cpic_fsm_rc_dn` -/
def rcDn (rc : Int) : Bool := rc = cmDeallocatedNormal

/-- `sna_cpic_fsm_rc_en` -/
def rcEn (rc : Int) : Bool := rc ∈ [cmProgramErrorNoTrunc, cmSvcErrorNoTrunc]

/-- `sna_cpic_fsm_rc_ep` -/
def rcEp (rc : Int) : Bool := rc ∈ [cmProgramErrorPurging, cmSvcErrorPurging]

/-- `sna_cpic_fsm_rc_et` -/
def rcEt (rc : Int) : Bool := rc ∈ [cmProgramErrorTrunc, cmSvcErrorTrunc]

/-- `sna_cpic_fsm_rc_oi` -/
def rcOi (rc : Int) : Bool := rc = cmOperationIncomplete

/-- `sna_cpic_fsm_rc_ok` -/
def rcOk (rc : Int) : Bool := rc = cmOk

/-- `sna_cpic_fsm_rc_pb` -/
def rcPb (rc : Int) : Bool := rc = cmIncludePartnerRejectBo

/-- `sna_cpic_fsm_rc_pc` -/
def rcPc (rc : Int) : Bool := rc = cmProgramParameterCheck

/-- `sna_cpic_fsm_rc_rb` -/
def rcRb (rc : Int) : Bool := rc ∈ [cmResourceFailNoRetryBo, cmResourceFailureRetryBo]

/-- `sna_cpic_fsm_rc_rf` -/
def rcRf (rc : Int) : Bool := rc ∈ [cmResourceFailureNoRetry, cmResourceFailureRetry]

/-- `sna_cpic_fsm_rc_sc` -/
def rcSc (rc : Int) : Bool := rc = cmProgramStateCheck

/-- `sna_cpic_fsm_rc_un` -/
def rcUn (rc : Int) : Bool := rc = cmUnsuccessful

/-! ## Conditions on what was received -/

/-- `sna_cpic_fsm_dr_dr` -/
def drDr (dr : Nat) : Bool :=
  dr ∈ [cmDataReceived, cmCompleteDataReceived, cmIncompleteDataReceived]

/-- `sna_cpic_fsm_dr_nd` -/
def drNd (dr : Nat) : Bool := dr = cmNoDataReceived

/-- `sna_cpic_fsm_dr_any` -/
def drAny (dr : Nat) : Bool := dr ∈ [cmDataReceived, cmCompleteDataReceived, cmNoDataReceived]

/-- `sna_cpic_fsm_sr_cd` -/
def srCd (sr : Nat) : Bool := sr = cmConfirmDeallocReceived

/-- `sna_cpic_fsm_sr_co` -/
def srCo (sr : Nat) : Bool := sr = cmConfirmReceived

/-- `sna_cpic_fsm_sr_cs` -/
def srCs (sr : Nat) : Bool := sr = cmConfirmSendReceived

/-- `sna_cpic_fsm_sr_jt` -/
def srJt (sr : Nat) : Bool := sr = cmJoinTransaction

/-- `sna_cpic_fsm_sr_no` -/
def srNo (sr : Nat) : Bool := sr = cmNoStatusReceived

/-- `sna_cpic_fsm_sr_po` -/
def srPo (sr : Nat) : Bool := sr = cmPrepareOk

/-- `sna_cpic_fsm_sr_se` -/
def srSe (sr : Nat) : Bool := sr = cmSendReceived

/-- `sna_cpic_fsm_sr_tc` -/
def srTc (sr : Nat) : Bool := sr ∈ [cmTakeCommit, cmTakeCommitDataOk]

/-- `sna_cpic_fsm_sr_td` -/
def srTd (sr : Nat) : Bool := sr ∈ [cmTakeCommitDeallocate, cmTakeCommitDeallocDataOk]

/-- `sna_cpic_fsm_sr_ts` -/
def srTs (sr : Nat) : Bool := sr ∈ [cmTakeCommitSend, cmTakeCommitSendDataOk]

/-! ## Verdicts and tables -/

/-- What a state machine is given beside the conversation. -/
structure Input where
  input : Call
  rc : Int
  dr : Nat
  sr : Nat
  fd : Nat

/-- A state machine for one call: the verdict, and the conversation after it. -/
abbrev Fsm := Input → Conversation → Bool → Int × Conversation

/-- `sna_cpic_fsm_generic_pc` -/
def genericPc : Fsm := fun _ c _ => (cmProgramParameterCheck, c)

/-- `sna_cpic_fsm_generic_sc` -/
def genericSc : Fsm := fun _ c _ => (cmProgramStateCheck, c)

/-- A state machine that accepts the call and changes nothing. -/
def accept : Fsm := fun _ c _ => (0, c)

/-- A table: the first row that applies decides, and its state is set unless
the pass is read-only. -/
def table (rows : Input → Conversation → List (Row State)) : Fsm := fun i c readonly =>
  (0, if readonly then c
    else ((next (rows i c)).map fun s => { c with state := s }).getD c)

/-- The states to which the rows of a Receive table lead. -/
structure ReceiveTable where
  drNo : Option State := none
  drSe : Option State := none
  ndSe : Option State := none
  cd : Option State := none
  co : Option State := none
  cs : Option State := none
  tc : Option State := none
  td : Option State := none
  ts : Option State := none
  ae : Option State := none
  bo : Option State := none
  da : Option State := none
  db : Option State := none
  en : Option State := none
  /-- The rows at the end, which change nothing. -/
  ends : List (Int → Bool)

/-- The rows of a Receive table, in their order. -/
def ReceiveTable.rows (t : ReceiveTable) (i : Input) (_ : Conversation) : List (Row State) :=
  [⟨rcOk i.rc && drDr i.dr && srNo i.sr, t.drNo⟩,
   ⟨rcOk i.rc && drDr i.dr && srSe i.sr, t.drSe⟩,
   ⟨rcOk i.rc && drNd i.dr && srSe i.sr, t.ndSe⟩,
   ⟨rcOk i.rc && drAny i.dr && srCd i.sr, t.cd⟩,
   ⟨rcOk i.rc && drAny i.dr && srCo i.sr, t.co⟩,
   ⟨rcOk i.rc && drAny i.dr && srCs i.sr, t.cs⟩,
   ⟨rcOk i.rc && drAny i.dr && srJt i.sr, none⟩,
   ⟨rcOk i.rc && drAny i.dr && srPo i.sr, none⟩,
   ⟨rcOk i.rc && drAny i.dr && srTc i.sr, t.tc⟩,
   ⟨rcOk i.rc && drAny i.dr && srTd i.sr, t.td⟩,
   ⟨rcOk i.rc && drAny i.dr && srTs i.sr, t.ts⟩,
   ⟨rcOk i.rc, none⟩,
   ⟨rcAe i.rc false, t.ae⟩,
   ⟨rcBo i.rc, t.bo⟩,
   ⟨rcDa i.rc || rcDn i.rc || rcRf i.rc, t.da⟩,
   ⟨rcDb i.rc || rcPb i.rc || rcRb i.rc, t.db⟩,
   ⟨rcEn i.rc || rcEp i.rc, t.en⟩,
   ⟨rcEt i.rc, none⟩] ++ t.ends.map fun p => ⟨p i.rc, none⟩

/-- The ends of the tables of a Receive that does not wait. -/
def endsI : List (Int → Bool) := [fun rc => rcPc rc || rcUn rc]

/-- The ends of the tables of a Receive that waits. -/
def endsW : List (Int → Bool) := [fun rc => rcOi rc || rcPc rc, rcSc]

/-- `sna_cpic_fsm_receive_i_receive` -/
def receiveIReceive : Fsm := table <| ReceiveTable.rows
  { drSe := some .sendPending, ndSe := some .send, cd := some .confirmDeallocate
    co := some .confirm, cs := some .confirmSend, tc := some .syncPoint
    td := some .syncPointDeallocate, ts := some .syncPointSend
    ae := some .reset, da := some .reset, db := some .reset, ends := endsI }

/-- `sna_cpic_fsm_receive_i_prepared` -/
def receiveIPrepared : Fsm := table <| ReceiveTable.rows
  { ae := some .reset, db := some .reset, en := some .receive, ends := endsI }

/-- `sna_cpic_fsm_receive_w_send` -/
def receiveWSend : Fsm := table <| ReceiveTable.rows
  { drNo := some .receive, drSe := some .sendPending, cd := some .confirmDeallocate
    co := some .confirm, cs := some .confirmSend, tc := some .syncPoint
    td := some .syncPointDeallocate, ts := some .syncPointSend
    ae := some .reset, bo := some .receive, da := some .reset, db := some .reset
    en := some .receive, ends := endsW }

/-- `sna_cpic_fsm_receive_w_receive` -/
def receiveWReceive : Fsm := table <| ReceiveTable.rows
  { drSe := some .sendPending, ndSe := some .send, cd := some .confirmDeallocate
    co := some .confirm, cs := some .confirmSend, tc := some .syncPoint
    td := some .syncPointDeallocate, ts := some .syncPointSend
    ae := some .reset, da := some .reset, db := some .reset, ends := endsW }

/-- `sna_cpic_fsm_receive_w_confirm` -/
def receiveWConfirm : Fsm := table <| ReceiveTable.rows
  { drNo := some .receive, ndSe := some .send, cd := some .confirmDeallocate
    co := some .confirm, cs := some .confirmSend, tc := some .syncPoint
    td := some .syncPointDeallocate, ts := some .syncPointSend
    bo := some .receive, da := some .reset, db := some .reset
    en := some .receive, ends := endsW }

/-- `sna_cpic_fsm_receive_w_prepared` -/
def receiveWPrepared : Fsm := table <| ReceiveTable.rows
  { ae := some .reset, db := some .reset, en := some .receive, ends := endsW }

/-- The states to which the rows of a Send_Data table lead. -/
structure SendTable where
  b : Option State := none
  c : Option State := none
  da : Option State := none
  dc : Option State := none
  df : Option State := none
  ds : Option State := none
  f : Option State := none
  pc : Option State := none
  pf : Option State := none
  ps : Option State := none
  ae : Option State := none
  bo : Option State := none
  rf : Option State := none
  db : Option State := none
  ep : Option State := none
  pb : Option State := none

/-- The rows of a Send_Data table, in their order. The conditions on the
characteristics are all asked for Send_Data. -/
def SendTable.rows (t : SendTable) (i : Input) (c : Conversation) : List (Row State) :=
  [⟨rcOk i.rc && ccB c .cmsend, t.b⟩,
   ⟨rcOk i.rc && ccC c .cmsend, t.c⟩,
   ⟨rcOk i.rc && (ccD c .cmsend && ccA c .cmsend), t.da⟩,
   ⟨rcOk i.rc && (ccD c .cmsend && ccC c .cmsend), t.dc⟩,
   ⟨rcOk i.rc && (ccD c .cmsend && ccF c .cmsend), t.df⟩,
   ⟨rcOk i.rc && (ccD c .cmsend && ccS c .cmsend), t.ds⟩,
   ⟨rcOk i.rc && ccF c .cmsend, t.f⟩,
   ⟨rcOk i.rc && (ccP c .cmsend && ccC c .cmsend), t.pc⟩,
   ⟨rcOk i.rc && (ccP c .cmsend && ccF c .cmsend), t.pf⟩,
   ⟨rcOk i.rc && (ccP c .cmsend && ccS c .cmsend), t.ps⟩,
   ⟨rcAe i.rc false, t.ae⟩,
   ⟨rcBo i.rc, t.bo⟩,
   ⟨rcDa i.rc || rcRf i.rc, t.rf⟩,
   ⟨rcDb i.rc || rcRb i.rc, t.db⟩,
   ⟨rcEp i.rc, t.ep⟩,
   ⟨rcOi i.rc || rcPc i.rc, none⟩,
   ⟨rcPb i.rc, t.pb⟩,
   ⟨rcSc i.rc, none⟩]

/-- `sna_cpic_fsm_cmsend_send` -/
def cmsendSend : Fsm := table <| SendTable.rows
  { da := some .reset, dc := some .reset, df := some .reset, ds := some .deferDeallocate
    pc := some .receive, pf := some .receive, ps := some .deferReceive
    ae := some .reset, rf := some .reset, db := some .reset, ep := some .receive
    pb := some .reset }

/-- `sna_cpic_fsm_cmsend_send_pending` -/
def cmsendSendPending : Fsm := table <| SendTable.rows
  { b := some .send, c := some .send, da := some .reset, dc := some .reset, df := some .reset
    ds := some .deferDeallocate, f := some .send, pc := some .receive, pf := some .receive
    ps := some .deferReceive, bo := some .send, rf := some .reset, db := some .reset
    ep := some .receive }

/-- `sna_cpic_fsm_cmsend_sync_point` -/
def cmsendSyncPoint : Fsm := table <| SendTable.rows { da := some .reset, db := some .reset }

/-- `sna_cpic_fsm_cmsend_sync_point_send` -/
def cmsendSyncPointSend : Fsm := table <| SendTable.rows { da := some .reset, db := some .reset }

/-- `sna_cpic_fsm_cmsend_sync_point_deallocate` -/
def cmsendSyncPointDeallocate : Fsm :=
  table <| SendTable.rows { da := some .reset, db := some .reset }

/-! ## The choice on the state, for each call -/

/-- A state machine chosen by the conversation. -/
def choose (f : Conversation → Fsm) : Fsm := fun i c readonly => f c i c readonly

/-- A state machine chosen by the state of the conversation. -/
def byState (f : State → Fsm) : Fsm := choose fun c => f c.state

/-- `sna_cpic_fsm_cmsend` -/
def fsmCmsend : Fsm := byState fun
  | .reset => genericPc
  | .send => cmsendSend
  | .sendPending => cmsendSendPending
  | .syncPoint => cmsendSyncPoint
  | .syncPointSend => cmsendSyncPointSend
  | .syncPointDeallocate => cmsendSyncPointDeallocate
  | _ => genericSc

/-- `sna_cpic_fsm_cmrcv_w`. Send-Pending has no case. -/
def fsmCmrcvW : Fsm := byState fun
  | .reset => genericPc
  | .send => receiveWSend
  | .receive => receiveWReceive
  | .confirm => receiveWConfirm
  | .prepared => receiveWPrepared
  | .sendPending => accept
  | _ => genericSc

/-- `sna_cpic_fsm_cmrcv_i` -/
def fsmCmrcvI : Fsm := byState fun
  | .reset => genericPc
  | .receive => receiveIReceive
  | .prepared => receiveIPrepared
  | _ => genericSc

/-- `sna_cpic_fsm_cmallc_initialize`. The second `if` may overrule the first. -/
def cmallcInitialize : Fsm := fun i c readonly =>
  (cmOk,
    if readonly then c
    else if rcAe i.rc true then { c with state := .reset }
    else if rcOk i.rc then { c with state := .send }
    else c)

/-- `sna_cpic_fsm_cmallc` -/
def fsmCmallc : Fsm := byState fun
  | .reset => genericPc
  | .initialized => cmallcInitialize
  | _ => genericSc

/-- `sna_cpic_fsm_cminit_reset` -/
def cminitReset : Fsm := fun i c readonly =>
  (0, if !readonly && rcOk i.rc then { c with state := .initialized } else c)

/-- `sna_cpic_fsm_cminit` -/
def fsmCminit : Fsm := byState fun
  | .reset => cminitReset
  | _ => accept

/-- The state machine of a call that only sets a characteristic: in Reset it
is refused, in some states accepted, in the others refused. The conversation
keeps its state. -/
def setter (accepts : State → Bool) : Fsm := byState fun s =>
  if s = .reset then genericPc else if accepts s then accept else genericSc

/-- Accepted before the conversation is allocated. -/
def beforeAllocate (s : State) : Bool := s = .initialized

/-- Accepted while the conversation is or is being initialized. -/
def whileInitialize (s : State) : Bool := s = .initialized || s = .initializeIncoming

/-- Accepted unless the conversation is being initialized by its partner. -/
def notIncoming (s : State) : Bool := s ≠ .initializeIncoming

/-- Accepted before the conversation is allocated, and in Receive. -/
def initializedOrReceive (s : State) : Bool := s = .initialized || s = .receive

/-- Accepted in any state but Reset. -/
def inAnyState (_ : State) : Bool := true

def fsmCmsac : Fsm := setter beforeAllocate
def fsmCmsacn : Fsm := setter beforeAllocate
def fsmCmsaeq : Fsm := setter beforeAllocate
def fsmCmsapt : Fsm := setter beforeAllocate
def fsmCmscsp : Fsm := setter beforeAllocate
def fsmCmscst : Fsm := setter beforeAllocate
def fsmCmscsu : Fsm := setter beforeAllocate
def fsmCmsct : Fsm := setter beforeAllocate
def fsmCmsmn : Fsm := setter beforeAllocate
def fsmCmspid : Fsm := setter beforeAllocate
def fsmCmspln : Fsm := setter beforeAllocate
def fsmCmsrc : Fsm := setter beforeAllocate
def fsmCmssl : Fsm := setter beforeAllocate
def fsmCmssrm : Fsm := setter beforeAllocate
def fsmCmstc : Fsm := setter beforeAllocate
def fsmCmstpn : Fsm := setter whileInitialize
def cmsqcfN : Fsm := setter whileInitialize
def cmsqpmN : Fsm := setter whileInitialize
def fsmCmsbt : Fsm := setter notIncoming
def fsmCmsdt : Fsm := setter notIncoming
def fsmCmspdp : Fsm := setter notIncoming
def fsmCmsptr : Fsm := setter notIncoming
def cmsqcfQ : Fsm := setter notIncoming
def cmsqpmQ : Fsm := setter notIncoming
def fsmCmsst : Fsm := setter notIncoming
def fsmCmscu : Fsm := setter inAnyState
def fsmCmsed : Fsm := setter inAnyState
def fsmCmsf : Fsm := setter inAnyState
def fsmCmsld : Fsm := setter inAnyState
def fsmCmspm : Fsm := setter inAnyState
def fsmCmsrt : Fsm := setter inAnyState

/-- `sna_cpic_fsm_cmsid` -/
def fsmCmsid : Fsm := setter initializedOrReceive

/-- A state machine chosen by the conversation queue. -/
def byQueue (n q : Fsm) : Fsm := choose fun c =>
  if c.tp.conversationQueue = acInitializationQueue then n
  else if c.tp.conversationQueue ∈
    [acSendReceiveQueue, acExpeditedSendQueue, acExpeditedReceiveQueue] then q
  else accept

/-- `sna_cpic_fsm_cmsqcf` -/
def fsmCmsqcf : Fsm := byQueue cmsqcfN cmsqcfQ

/-- `sna_cpic_fsm_cmsqpm` -/
def fsmCmsqpm : Fsm := byQueue cmsqpmN cmsqpmQ

/-- The case of `sna_cpic_fsm_hd` for Receive. -/
def fsmCmrcv : Fsm := choose fun c =>
  if c.tp.receiveType = acReceiveAndWait then fsmCmrcvW
  else if c.tp.receiveType = acReceiveImmediate then fsmCmrcvI
  else accept

/-- The state machine for a call. -/
def fsmOf : Call → Fsm
  | .cmacci | .cmaccp => genericSc
  | .cmallc => fsmCmallc
  | .cminit => fsmCminit
  | .cmrcv => fsmCmrcv
  | .cmsac => fsmCmsac
  | .cmsacn => fsmCmsacn
  | .cmsaeq => fsmCmsaeq
  | .cmsapt => fsmCmsapt
  | .cmsbt => fsmCmsbt
  | .cmscsp => fsmCmscsp
  | .cmscst => fsmCmscst
  | .cmscsu => fsmCmscsu
  | .cmsct => fsmCmsct
  | .cmscu => fsmCmscu
  | .cmsdt => fsmCmsdt
  | .cmsed => fsmCmsed
  | .cmsend => fsmCmsend
  | .cmsf => fsmCmsf
  | .cmsid => fsmCmsid
  | .cmsld => fsmCmsld
  | .cmsmn => fsmCmsmn
  | .cmspdp => fsmCmspdp
  | .cmspid => fsmCmspid
  | .cmspln => fsmCmspln
  | .cmspm => fsmCmspm
  | .cmsptr => fsmCmsptr
  | .cmsqcf => fsmCmsqcf
  | .cmsqpm => fsmCmsqpm
  | .cmsrc => fsmCmsrc
  | .cmsrt => fsmCmsrt
  | .cmssl => fsmCmssl
  | .cmssrm => fsmCmssrm
  | .cmsst => fsmCmsst
  | .cmstc => fsmCmstc
  | .cmstpn => fsmCmstpn
  | .cmcanc | .cmcfm | .cmcfmd | .cmcnvi | .cmcnvo | .cmdeal | .cmdfde | .cmeacn | .cmeaeq
  | .cmeapt | .cmecs | .cmect | .cmectx | .cmeid | .cmembs | .cmemn | .cmepid | .cmepln
  | .cmesi | .cmesl | .cmesrm | .cmesui | .cmetc | .cmetpn | .cmflus | .cmincl | .cminic
  | .cmprep | .cmptr | .cmrcvx | .cmrltp | .cmrts | .cmserr | .cmsltp | .cmsndx | .cmtrts
  | .cmwait | .cmwcmp => genericPc

/-- `sna_cpic_fsm_hd` -/
def fsmHd (c : Conversation) (input : Call) (rc : Int) (dr sr fd : Nat) (readonly : Bool) :
    Int × Conversation :=
  fsmOf input ⟨input, rc, dr, sr, fd⟩ c readonly

end LinuxSna.Cpic
