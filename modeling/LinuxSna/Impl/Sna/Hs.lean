import Mathlib

/-!
# Half-sessions and message units

What transmission control reads and writes of a message unit, and of the
control block of a half-session. A socket buffer is the headers its pointers
lead to and the bytes between its data and its tail: the RU, once path control
has pulled the headers off.
-/

namespace LinuxSna.Hs

/-- `SNA_TH_MPF_` -/
inductive Mpf where
  | noBiu
  | ebiu
  | bbiu
  | wholeBiu
  deriving DecidableEq

/-- `SNA_TH_EFI_` -/
inductive Efi where
  | norm
  | exp
  deriving DecidableEq

/-- `SNA_RH_RRI_` -/
inductive Rri where
  | req
  | rsp
  deriving DecidableEq

/-- `SNA_RH_RU_` -/
inductive RuCategory where
  | fmd
  | nc
  | dfc
  | sc
  deriving DecidableEq

/-- `SNA_IPM_TYPE_`, and the value that stands for none of them -/
inductive IpmType where
  | solicit
  | unsolicit
  | reset
  | rsv
  deriving DecidableEq

/-- `sna_ipm` -/
structure Ipm where
  type : IpmType
  rwi : Bool
  nws : UInt16

/-- A message unit: its TH, its RH and its RU. The fields with a default are
those that transmission control does not use. -/
structure Mu where
  mpf : Mpf
  efi : Efi
  snf : UInt16
  rri : Rri
  ru : RuCategory
  sdi : Bool
  dr1i : Bool
  dr2i : Bool
  rlwi : Bool
  qri : Bool
  pi : Bool
  edi : Bool
  data : List UInt8
  odai : Bool := false
  daf : UInt8 := 0
  oaf : UInt8 := 0
  fi : Bool := false
  bci : Bool := false
  eci : Bool := false
  llci : Bool := false
  rti : Bool := false
  bbi : Bool := false
  ebi : Bool := false
  cdi : Bool := false
  csi : Bool := false
  pdi : Bool := false
  cebi : Bool := false
  deriving DecidableEq

namespace Mu

/-- The two bits of a type. -/
def ipmType (b : UInt8) : IpmType :=
  if b / 64 = 0 then .solicit else if b / 64 = 1 then .unsolicit else if b / 64 = 2 then .reset
  else .rsv

/-- The RU as an isolated pacing message. -/
def ipm (m : Mu) : Ipm :=
  { type := ipmType (m.data.getD 0 0)
    rwi := m.data.getD 0 0 / 32 % 2 = 1
    nws := (m.data.getD 1 0).toUInt16 * 256 + (m.data.getD 2 0).toUInt16 }

/-- A request that begins a BIU: its first segment, or all of it. -/
def beginsBiu (m : Mu) : Bool := m.rri = .req && (m.mpf = .bbiu || m.mpf = .wholeBiu)

/-- A request on the normal flow that begins a BIU. -/
def beginsNormal (m : Mu) : Bool := m.efi = .norm && m.beginsBiu

/-- A response with the pacing bit. -/
def isPacingRsp (m : Mu) : Bool := m.rri = .rsp && m.pi

end Mu

/-- `SNA_HS_PACING_TYPE_` -/
inductive PacingType where
  | none
  | fixed
  | adaptive
  deriving DecidableEq

/-- `SNA_HS_RESERVE_` -/
inductive Reserve where
  | no
  | more
  | all

/-- `struct sna_pacing` -/
structure Pacing where
  type : PacingType
  rpc : UInt8
  nws : UInt8

/-- What may be sent: `rpc + nws`, which C adds as integers. -/
def Pacing.credit (p : Pacing) : Nat := p.rpc.toNat + p.nws.toNat

/-- The bits of `segment_in`. -/
structure SegmentIn where
  firstIn : Bool
  lastIn : Bool
  complete : Bool
  deriving DecidableEq

/-- `SNA_HS_SEGMENT_NONE` -/
def SegmentIn.none : SegmentIn := ⟨false, false, false⟩

/-- The queue of the MUs that wait for pacing. Only MUs of the normal flow are
put on it. -/
structure PacingQueue where
  mus : List Mu
  norm : ∀ m ∈ mus, m.efi = .norm

namespace PacingQueue

def empty : PacingQueue := ⟨[], fun _ hm => absurd hm List.not_mem_nil⟩

/-- `skb_queue_tail` -/
def enqueue (q : PacingQueue) (m : Mu) (h : m.efi = .norm) : PacingQueue :=
  ⟨q.mus ++ [m], by
    intro m' hm
    rcases List.mem_append.mp hm with hm | hm
    · exact q.norm m' hm
    · rwa [List.mem_singleton.mp hm]⟩

/-- The queue after `skb_dequeue`. -/
def dequeue (q : PacingQueue) : PacingQueue :=
  ⟨q.mus.tail, fun m hm => q.norm m (List.mem_of_mem_tail hm)⟩

@[simp] theorem mus_empty : empty.mus = [] := rfl

@[simp] theorem mus_enqueue (q : PacingQueue) (m : Mu) (h : m.efi = .norm) :
    (q.enqueue m h).mus = q.mus ++ [m] := rfl

@[simp] theorem mus_dequeue (q : PacingQueue) : q.dequeue.mus = q.mus.tail := rfl

end PacingQueue

end LinuxSna.Hs

namespace LinuxSna

open Hs

/-- `struct sna_hs_cb`, the fields of transmission control and the counter of
the MUs sent. -/
structure Hs where
  maxRxRuSize : UInt16
  sqnRcvCnt : UInt16
  rlwi : Bool
  firstWs : UInt8
  unsolicitedIpmOutstanding : Bool
  adjustIpmAckOutstanding : Bool
  unsolicitedNws : UInt8
  reserveFlag : Reserve
  segmenting : Bool
  crypto : Bool
  rxPacing : Pacing
  txPacing : Pacing
  writeQueue : PacingQueue
  segments : List Mu
  segmentNum : UInt16
  segmentLen : UInt16
  segmentIn : SegmentIn
  sqnTxCnt : UInt16

end LinuxSna
