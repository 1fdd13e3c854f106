import LinuxSna.Impl.Sna.Hs

/-!
# Transmission control

`sna_tc.c`, and the stamping of sequence numbers in `sna_dfc_send_fsms`. The
functions return what they hand to path control beside their result. What the
kernel and the other components do is an argument: whether a buffer can be
had, what `sna_pc_tx_mu` returns (`none` if there is no path control to send
to), and what `sna_dfc_rx` returns.
-/

namespace LinuxSna

open Hs

namespace Hs

def einval : Int := 22

/-- What `sna_tc_init` reads of the BIND. -/
structure Bind where
  secMaxRuSize : UInt8
  priMaxRuSize : UInt8
  secTxWinSize : UInt8
  secRxWinSize : UInt8
  priTxWinSize : UInt8
  priRxWinSize : UInt8
  adaptivePacing : Bool
  wholeBiu : Bool
  cryptoSupp : Bool

/-- `SNA_HS_TYPE_` -/
inductive HsType where
  | fsp
  | bidder
  deriving DecidableEq

/-- The next window that the BIND gives the half-session for sending. -/
def Bind.txWinSize (bind : Bind) : HsType → UInt8
  | .fsp => bind.secTxWinSize
  | .bidder => bind.priTxWinSize

def Bind.rxWinSize (bind : Bind) : HsType → UInt8
  | .fsp => bind.secRxWinSize
  | .bidder => bind.priRxWinSize

def Bind.maxRuSize (bind : Bind) : HsType → UInt8
  | .fsp => bind.secMaxRuSize
  | .bidder => bind.priMaxRuSize

/-- The pacing of what is sent. -/
def Bind.txPacingType (bind : Bind) (type : HsType) : PacingType :=
  if bind.adaptivePacing then .adaptive else if bind.txWinSize type ≠ 0 then .fixed else .none

/-- A half-session after `sna_tc_init` and `sna_dfc_init`. -/
def init (type : HsType) (bind : Bind) : Hs :=
  { maxRxRuSize := (bind.maxRuSize type).toUInt16
    sqnRcvCnt := 0
    rlwi := false
    firstWs := bind.txWinSize type
    unsolicitedIpmOutstanding := false
    adjustIpmAckOutstanding := false
    unsolicitedNws := 0
    reserveFlag := .no
    segmenting := !bind.wholeBiu
    crypto := bind.cryptoSupp
    rxPacing := ⟨if bind.adaptivePacing then .adaptive else .fixed, 0, bind.rxWinSize type⟩
    txPacing := ⟨bind.txPacingType type, 0, bind.txWinSize type⟩
    writeQueue := .empty
    segments := []
    segmentNum := 0
    segmentLen := 0
    segmentIn := .none
    sqnTxCnt := 0 }

/-! ## Sending -/

/-- What a function returns, the half-session after it and the MUs that it
hands to path control. -/
structure Sent where
  err : Int
  hs : Hs
  mus : List Mu

/-- `sna_tc_send_pacing` -/
def sendPacing (hs : Hs) (m : Mu) : Hs × Mu :=
  if hs.txPacing.rpc > 0 then
    ({ hs with txPacing := { hs.txPacing with rpc := hs.txPacing.rpc - 1 } }, m)
  else
    ({ hs with txPacing := { hs.txPacing with rpc := hs.txPacing.nws - 1, nws := 0 }, rlwi := false },
      { m with pi := true, rlwi := hs.rlwi })

/-- The test of `sna_tc_send_to_pc` for an isolated pacing message. -/
def isIpm (hs : Hs) (m : Mu) : Bool :=
  hs.txPacing.type = .adaptive && m.rri = .rsp && m.pi && !m.dr1i && !m.dr2i

/-- `sna_tc_send_to_pc` -/
def sendToPc (hs : Hs) (m : Mu) (pc : Option Int) : Sent :=
  match pc with
  | none => ⟨-einval, hs, []⟩
  | some err =>
    if m.mpf = .bbiu ∧ hs.isIpm m = false ∧ hs.txPacing.type ≠ .none ∧ m.efi ≠ .norm then
      ⟨err, (hs.sendPacing m).1, [(hs.sendPacing m).2]⟩
    else ⟨err, hs, [m]⟩

/-- `sna_tc_send_mu` -/
def sendMu (hs : Hs) (m : Mu) (pc : Option Int) : Sent :=
  if h : m.efi = .norm then
    match m.rri with
    | .req =>
      if hs.crypto ∧ m.ru = .fmd then ⟨-einval, hs, []⟩
      else if hs.txPacing.type ≠ .none ∧
          (hs.writeQueue.mus ≠ [] ∨ m.mpf = .bbiu ∧ hs.txPacing.credit = 0) then
        ⟨0, { hs with writeQueue := hs.writeQueue.enqueue m h }, []⟩
      else hs.sendToPc m pc
    | .rsp =>
      if hs.txPacing.type = .none ∨ hs.writeQueue.mus ≠ [] ∨ m.qri = false then hs.sendToPc m pc
      else ⟨0, { hs with writeQueue := hs.writeQueue.enqueue m h }, []⟩
  else hs.sendToPc m pc

/-- What `sna_tc_rx_pacing_rsp` does last: the next MU is removed from the
pacing queue. -/
def sendNext (hs : Hs) (err : Int) (pc : Option Int) : Sent :=
  match hs.writeQueue.mus with
  | [] => ⟨err, hs, []⟩
  | r :: _ =>
    if r.mpf ≠ .bbiu ∨ r.rri = .rsp ∨ hs.txPacing.credit > 0 then
      { hs with writeQueue := hs.writeQueue.dequeue }.sendToPc r pc
    else ⟨err, hs, []⟩

/-- `tx_pacing.rpc` and `tx_pacing.nws` set; `nws` has 8 bits. -/
def setWindow (hs : Hs) (nws : UInt16) : Hs :=
  { hs with txPacing := { hs.txPacing with rpc := 0, nws := nws.toUInt8 } }

/-- `sna_tc_rx_pacing_rsp`. An unsolicited message is answered by its copy; the
type RESET is written into the message itself, which is freed. -/
def rxPacingRsp (hs : Hs) (m : Mu) (copied : Bool) (ack pc : Option Int) : Sent :=
  match hs.txPacing.type with
  | .none => ⟨-einval, hs, []⟩
  | .fixed => { hs with txPacing := { hs.txPacing with nws := hs.firstWs } }.sendNext 0 pc
  | .adaptive =>
    match m.ipm.type with
    | .reset =>
      { hs with
        rxPacing := { hs.rxPacing with rpc := 0, nws := hs.unsolicitedNws }
        unsolicitedIpmOutstanding := false }.sendNext 0 pc
    | .solicit =>
      if hs.writeQueue.mus = [] then hs.sendNext 0 pc else (hs.setWindow m.ipm.nws).sendNext 0 pc
    | .unsolicit =>
      if copied then
        let answer := (hs.setWindow m.ipm.nws).sendToPc m ack
        let next := answer.hs.sendNext answer.err pc
        { next with mus := answer.mus ++ next.mus }
      else ⟨0, hs, []⟩
    | .rsv => hs.sendNext 0 pc

/-! ## Receiving -/

/-- `sna_tc_rx_segment_chk` -/
def rxSegmentChk (hs : Hs) (m : Mu) : Int :=
  if hs.segmenting = false ∧ m.mpf ≠ .wholeBiu then -einval
  else if m.mpf = .bbiu ∧ (m.rri ≠ .req ∨ m.efi = .exp) then -einval
  else if m.mpf = .bbiu ∧ m.data.length < 10 then -einval
  else 0

/-- `sna_tc_rx_pacing` -/
def rxPacingUpdate (hs : Hs) (m : Mu) : Hs :=
  if m.pi = false then
    { hs with rxPacing := { hs.rxPacing with rpc := hs.rxPacing.rpc - 1 }, reserveFlag := .no }
  else
    { hs with
      rxPacing := { hs.rxPacing with rpc := hs.rxPacing.nws - 1, nws := 0 }
      reserveFlag := if m.rlwi then .more else .all }

/-- The copies that `sna_tc_segment_reasm` makes for the segments after the
first. Each is of the new buffer itself; `skb_put` stops the kernel when the
room behind the data is too small. -/
def copySegments (data : List UInt8) (room : Nat) : List Mu → Option (List UInt8)
  | [] => some data
  | _ :: segments =>
    if data.length ≤ room then copySegments (data ++ data) (room - data.length) segments else none

/-- `sna_tc_segment_reasm`. There is no memory (`none`), or the new buffer has
some room beyond what was asked for. -/
def segmentReasm (hs : Hs) (alloc : Option Nat) : Option (Hs × Option Mu) :=
  let hs := { hs with segmentIn := { hs.segmentIn with complete := true } }
  match hs.segments with
  | [] => some (hs, none)
  | s :: segments =>
    match alloc with
    | none => some ({ hs with segments := segments }, none)
    | some slack =>
      match copySegments s.data (hs.segmentLen.toNat + slack) segments with
      | none => none
      | some data =>
        some ({ hs with segments := [], segmentNum := 0, segmentLen := 0, segmentIn := .none },
          some { s with mpf := .wholeBiu, data := data })

/-- `sna_tc_segment_queue`, with the size of the buffer that holds the MU -/
def segmentQueue (hs : Hs) (m : Mu) (truesize : Nat) : Hs :=
  if hs.segmentIn.complete then hs
  else
    let len := UInt16.ofNat m.data.length
    { hs with
      segmentIn :=
        { hs.segmentIn with
          firstIn := hs.segmentIn.firstIn || m.mpf = .bbiu
          lastIn := hs.segmentIn.lastIn || m.mpf = .ebiu }
      segmentLen :=
        hs.segmentLen + (if m.mpf = .bbiu then UInt16.ofNat truesize - len else 0) + len
      segments := hs.segments ++ [m]
      segmentNum := hs.segmentNum + 1 }

/-- `sna_tc_segment`; `none` if the kernel stops. -/
def segment (hs : Hs) (m : Mu) (truesize : Nat) (alloc : Option Nat) : Option (Hs × Option Mu) :=
  if m.data.length > hs.maxRxRuSize.toNat then some (hs, none)
  else if m.mpf = .wholeBiu then some (hs, some m)
  else
    let hs := hs.segmentQueue m truesize
    if hs.segmentIn = ⟨true, true, false⟩ then
      (hs.segmentReasm alloc).map fun r => ({ r.1 with adjustIpmAckOutstanding := false }, r.2)
    else some (hs, none)

/-- The checks of `sna_tc_rx_biu_chk` before the one of the sequence number. -/
def biuFormatChk (m : Mu) : Int :=
  if m.ru ≠ .fmd ∧ m.ru ≠ .dfc then -einval
  else if m.data.length < (if m.sdi then 4 else 0) + (if m.ru ≠ .dfc then 1 else 0) + 3 then -einval
  else if m.sdi then -einval
  else 0

/-- The test of `sna_tc_rx_biu_chk` that refuses a sequence number. Both sides
are integers. -/
def sqnRefused (hs : Hs) (m : Mu) : Bool :=
  m.rri = .req && m.efi = .norm && m.snf.toNat ≠ hs.sqnRcvCnt.toNat + 1

/-- `sna_tc_rx_biu_chk` -/
def rxBiuChk (hs : Hs) (m : Mu) : Int :=
  if biuFormatChk m < 0 then biuFormatChk m
  else if m.rri = .req ∧ m.efi = .norm then
    if hs.sqnRefused m then -einval
    else if hs.crypto ∧ m.ru = .fmd then
      if m.edi = false then -einval else if m.data.length % 8 ≠ 0 then -einval else 0
    else 0
  else 0

/-- The test of `sna_tc_rx` for data that it would have to decipher. -/
def isEncrypted (m : Mu) : Bool := m.edi && m.ru = .fmd && !m.sdi && m.data ≠ []

/-- What the kernel and the other components do while an MU is received. -/
structure RxEnv where
  truesize : Nat
  alloc : Option Nat
  copied : Bool
  ack : Option Int
  pc : Option Int
  dfc : Int

/-- What `sna_tc_rx` returns, the half-session after it, and the MUs that it
hands to path control and to data flow control. -/
structure Received where
  err : Int
  hs : Hs
  mus : List Mu
  dfc : Option Mu

/-- `sna_tc_rx` from the reassembled BIU on -/
def rxBiu (hs : Hs) (m : Mu) (e : RxEnv) : Received :=
  if hs.rxBiuChk m < 0 then ⟨hs.rxBiuChk m, hs, [], none⟩
  else if m.isPacingRsp then
    let r := hs.rxPacingRsp m e.copied e.ack e.pc
    ⟨r.err, r.hs, r.mus, none⟩
  else if isEncrypted m then ⟨-einval, hs, [], none⟩
  else ⟨e.dfc, { hs with sqnRcvCnt := hs.sqnRcvCnt + 1 }, [], some m⟩

/-- `sna_tc_rx`, for the half-session found; `none` if the kernel stops. -/
def rx (hs : Hs) (m : Mu) (e : RxEnv) : Option Received :=
  if hs.rxSegmentChk m < 0 then some ⟨hs.rxSegmentChk m, hs, [], none⟩
  else if m.efi ≠ .norm then some ⟨e.dfc, hs, [], some m⟩
  else
    let hs := if m.mpf = .bbiu then hs.rxPacingUpdate m else hs
    (hs.segment m e.truesize e.alloc).map fun r =>
      match r.2 with
      | none => ⟨0, r.1, [], none⟩
      | some m => r.1.rxBiu m e

/-- `sna_dfc_send_fsms`, the number that it stamps -/
def stamp (hs : Hs) (m : Mu) : Hs × Mu :=
  ({ hs with sqnTxCnt := hs.sqnTxCnt + 1 }, { m with snf := hs.sqnTxCnt + 1 })

end Hs

end LinuxSna

/-!
## Message units in buffers

The TH and the RH as the bytes that they are on a link, and socket buffers as
data flow control reads them.
-/

namespace LinuxSna.Hs

def Mpf.code : Mpf → UInt8
  | .noBiu => 0
  | .ebiu => 1
  | .bbiu => 2
  | .wholeBiu => 3

def Mpf.ofBits : Bool → Bool → Mpf
  | false, false => .noBiu
  | false, true => .ebiu
  | true, false => .bbiu
  | true, true => .wholeBiu

def RuCategory.code : RuCategory → UInt8
  | .fmd => 0
  | .nc => 1
  | .dfc => 2
  | .sc => 3

def RuCategory.ofBits : Bool → Bool → RuCategory
  | false, false => .fmd
  | false, true => .nc
  | true, false => .dfc
  | true, true => .sc

/-- A bit with its weight. -/
def flag (b : Bool) (weight : UInt8) : UInt8 := if b then weight else 0

/-- The bit `i` of a byte. -/
def bit (b : UInt8) (i : Nat) : Bool := b.toNat.testBit i

namespace Mu

/-- `sna_fid2` -/
def th (m : Mu) : List UInt8 :=
  [0x20 + m.mpf.code * 4 + flag m.odai 2 + flag (m.efi = .exp) 1, 0, m.daf, m.oaf,
    (m.snf / 256).toUInt8, m.snf.toUInt8]

/-- `sna_rh` -/
def rhBytes (m : Mu) : List UInt8 :=
  [flag (m.rri = .rsp) 0x80 + m.ru.code * 0x20 + flag m.fi 0x08 + flag m.sdi 0x04 +
      flag m.bci 0x02 + flag m.eci 0x01,
    flag m.dr1i 0x80 + flag m.llci 0x40 + flag m.dr2i 0x20 + flag m.rti 0x10 + flag m.rlwi 0x04 +
      flag m.qri 0x02 + flag m.pi 0x01,
    flag m.bbi 0x80 + flag m.ebi 0x40 + flag m.cdi 0x20 + flag m.csi 0x08 + flag m.edi 0x04 +
      flag m.pdi 0x02 + flag m.cebi 0x01]

/-- The MU with a TH of which the bytes 0 and 2 to 5 are given, and a RH. -/
def ofHeaders (t0 daf oaf s0 s1 r0 r1 r2 : UInt8) (data : List UInt8) : Mu where
  mpf := .ofBits (bit t0 3) (bit t0 2)
  odai := bit t0 1
  efi := if bit t0 0 then .exp else .norm
  daf := daf
  oaf := oaf
  snf := s0.toUInt16 * 256 + s1.toUInt16
  rri := if bit r0 7 then .rsp else .req
  ru := .ofBits (bit r0 6) (bit r0 5)
  fi := bit r0 3
  sdi := bit r0 2
  bci := bit r0 1
  eci := bit r0 0
  dr1i := bit r1 7
  llci := bit r1 6
  dr2i := bit r1 5
  rti := bit r1 4
  rlwi := bit r1 2
  qri := bit r1 1
  pi := bit r1 0
  bbi := bit r2 7
  ebi := bit r2 6
  cdi := bit r2 5
  csi := bit r2 3
  edi := bit r2 2
  pdi := bit r2 1
  cebi := bit r2 0
  data := data

end Mu

/-- `struct sk_buff`: the MU in it, the bytes that memory has behind its data, and
the lower 32 bits of the address of the data. Its data begin with the RU, or with the
headers once they have been pushed. -/
structure Skb extends Mu where
  beyond : List UInt8
  addr : UInt32
  pushed : Bool := false

/-- `skb->data[i]`; what is read behind the data is whatever is there. -/
def Skb.byte (s : Skb) (i : Nat) : UInt8 :=
  ((if s.pushed then s.toMu.th ++ s.toMu.rhBytes else []) ++ s.data ++ s.beyond).getD i 0

/-- `((sna_fmh *)skb->data)->type` -/
def Skb.fmhType (s : Skb) : UInt8 := s.byte 1 % 0x80

end LinuxSna.Hs
