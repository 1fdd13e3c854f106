import LinuxSna.Impl.Sna.Tc

/-!
# The state of data flow control

The request header, and the fields of a half-session that data flow control
defines and uses. A control block that `new` has just cleared has the value 0
in each, which is a state of none of the machines.
-/

namespace LinuxSna.Dfc

open Hs (Rri RuCategory HsType Efi)

/-- `sna_rh` -/
structure Rh where
  rri : Rri
  ru : RuCategory
  fi : Bool
  sdi : Bool
  bci : Bool
  eci : Bool
  dr1i : Bool
  llci : Bool
  dr2i : Bool
  rti : Bool
  rlwi : Bool
  qri : Bool
  pi : Bool
  bbi : Bool
  ebi : Bool
  cdi : Bool
  csi : Bool
  edi : Bool
  pdi : Bool
  cebi : Bool

/-- A header of three bytes 0. -/
def Rh.zero : Rh :=
  { rri := .req, ru := .fmd, fi := false, sdi := false, bci := false, eci := false, dr1i := false,
    llci := false, dr2i := false, rti := false, rlwi := false, qri := false, pi := false,
    bbi := false, ebi := false, cdi := false, csi := false, edi := false, pdi := false,
    cebi := false }

/-- `skb->h.rh` -/
def rhOf (m : Hs.Mu) : Rh :=
  { rri := m.rri, ru := m.ru, fi := m.fi, sdi := m.sdi, bci := m.bci, eci := m.eci, dr1i := m.dr1i,
    llci := m.llci, dr2i := m.dr2i, rti := m.rti, rlwi := m.rlwi, qri := m.qri, pi := m.pi,
    bbi := m.bbi, ebi := m.ebi, cdi := m.cdi, csi := m.csi, edi := m.edi, pdi := m.pdi,
    cebi := m.cebi }

namespace Rh

/-- `SNA_DFC_RQD1` -/
def rqd1 (rh : Rh) : Bool := rh.dr1i && !rh.dr2i && !rh.rti

/-- `SNA_DFC_RQE1` -/
def rqe1 (rh : Rh) : Bool := rh.dr1i && !rh.dr2i && rh.rti

/-- `SNA_DFC_RQD2` -/
def rqd2 (rh : Rh) : Bool := !rh.dr1i && rh.dr2i && !rh.rti

/-- `SNA_DFC_RQE2` -/
def rqe2 (rh : Rh) : Bool := !rh.dr1i && rh.dr2i && rh.rti

/-- `SNA_DFC_RQD3` -/
def rqd3 (rh : Rh) : Bool := rh.dr1i && rh.dr2i && !rh.rti

/-- `SNA_DFC_RQE3` -/
def rqe3 (rh : Rh) : Bool := rh.dr1i && rh.dr2i && rh.rti

/-- `SNA_DFC_FSM_RQD` -/
def rqd (rh : Rh) : Bool := rh.rqd1 || rh.rqd2 || rh.rqd3

/-- `SNA_DFC_FSM_RQE` -/
def rqe (rh : Rh) : Bool := rh.rqe1 || rh.rqe2 || rh.rqe3

end Rh

/-- `SNA_DFC_FSM_BSM_FMP19_STATE_` -/
inductive BsmState where
  | cleared
  | betb
  | inb
  deriving DecidableEq

/-- `SNA_DFC_FSM_CHAIN_RCV_FMP19_STATE_` -/
inductive ChainRcvState where
  | cleared
  | betc
  | inc
  | negRspSent
  | pendRsp
  | pendSendReply
  deriving DecidableEq

/-- `SNA_DFC_FSM_CHAIN_SEND_FMP19_STATE_` -/
inductive ChainSendState where
  | cleared
  | betc
  | inc
  | netRspRcvd
  | pendRsp
  | pendRcvReply
  deriving DecidableEq

/-- `SNA_DFC_FSM_QRI_CHAIN_RCV_FMP19_STATE_` -/
inductive QriState where
  | cleared
  | reset
  | incQr
  | incNotQr
  deriving DecidableEq

/-- `SNA_DFC_FSM_RCV_PURGE_FMP19_STATE_` -/
inductive PurgeState where
  | cleared
  | reset
  | purge
  deriving DecidableEq

/-- `SNA_DFC_RSP_STATE_` -/
inductive RspState where
  | reset
  | posOwed
  | negOwed
  deriving DecidableEq

/-- `SNA_DFC_DIR_` -/
inductive Direction where
  | outbound
  | inbound
  deriving DecidableEq

/-- `struct sna_bracket` -/
structure Bracket where
  who : HsType
  num : UInt16

/-- `struct sna_c_table` -/
structure CTable where
  entryPresent : Bool
  snf : UInt16
  snfWho : HsType
  negRspSense : UInt32
  rqCode : UInt8
  rh : Rh

def CTable.zero : CTable := ⟨false, 0, .fsp, 0, 0, .zero⟩

/-- `struct sna_hs_cb`, the fields of data flow control. The buffers
`send_mu` and `last_mu` are there or not; the counter of the MUs sent is with the
fields of transmission control. -/
structure DfcState where
  currentBracket : Bracket
  phsBbRegister : Bracket
  shsBbRegister : Bracket
  rqdRequiredOnCeb : Bool
  normalFlowRqCnt : UInt8
  sigReceived : Bool
  sigSnfSqn : UInt8
  betc : Bool
  sendErrorRspState : RspState
  bbRspState : RspState
  rtrRspState : RspState
  sigRqOutstanding : Bool
  bsmState : BsmState
  chainRcvState : ChainRcvState
  chainSendState : ChainSendState
  qriChainRcvState : QriState
  rcvPurgeState : PurgeState
  sense : UInt32
  direction : Direction
  ctRcv : CTable
  ctSend : CTable
  sendMu : Bool
  lastMu : Bool

/-- What `new` leaves. -/
def DfcState.zero : DfcState where
  currentBracket := ⟨.fsp, 0⟩
  phsBbRegister := ⟨.fsp, 0⟩
  shsBbRegister := ⟨.fsp, 0⟩
  rqdRequiredOnCeb := false
  normalFlowRqCnt := 0
  sigReceived := false
  sigSnfSqn := 0
  betc := false
  sendErrorRspState := .reset
  bbRspState := .reset
  rtrRspState := .reset
  sigRqOutstanding := false
  bsmState := .cleared
  chainRcvState := .cleared
  chainSendState := .cleared
  qriChainRcvState := .cleared
  rcvPurgeState := .cleared
  sense := 0
  direction := .outbound
  ctRcv := .zero
  ctSend := .zero
  sendMu := false
  lastMu := false

/-- `sna_dfc_init`. The sense code, the direction and the correlation tables
stay. -/
def DfcState.init (d : DfcState) : DfcState :=
  { d with
    currentBracket := ⟨.fsp, 0⟩
    phsBbRegister := ⟨.fsp, 0⟩
    shsBbRegister := ⟨.bidder, 0⟩
    rqdRequiredOnCeb := false
    normalFlowRqCnt := 0
    sigReceived := false
    sigSnfSqn := 0
    betc := true
    sigRqOutstanding := false
    sendErrorRspState := .reset
    bbRspState := .reset
    rtrRspState := .reset
    lastMu := false
    sendMu := false
    bsmState := .betb
    chainRcvState := .betc
    chainSendState := .betc
    qriChainRcvState := .reset
    rcvPurgeState := .reset }

end LinuxSna.Dfc
