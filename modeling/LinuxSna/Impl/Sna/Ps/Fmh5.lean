import LinuxSna.Impl.Sna.Cs.LinkStation
import LinuxSna.Impl.Sna.Cs.Parameters
import LinuxSna.Impl.Sna.Ebcdic
import LinuxSna.Impl.Sna.Ps.Conversation

/-!
# The Attach header

The FMH-5 that `sna_ps_conv_build_and_send_fmh5` puts into a buffer, which has as much memory as it
asks for. What the stack holds before an array is written is given with the call.
-/

namespace LinuxSna.Ps

open Cs (Netid nameLen netidToChar)
open Ebcdic (atoe atoeStrncpy fatoeStrncpy)
open Link (DlcCb)

/-! ## The buffer -/

/-- `struct sk_buff`: the size of its memory, where in it the data begin, and the data -/
structure SkBuff where
  size : Int
  head : Int := 0
  data : List UInt8 := []

def SkBuff.reserve (skb : SkBuff) (len : Int) : SkBuff := { skb with head := skb.head + len }

/-- `skb_put`, with what is written there. The kernel stops (`none`) if the data get beyond the
memory. -/
def SkBuff.put (skb : SkBuff) (bytes : List UInt8) : Option SkBuff :=
  if skb.head + skb.data.length + bytes.length ≤ skb.size then
    some { skb with data := skb.data ++ bytes }
  else none

/-- A byte that has been put is written. -/
def SkBuff.write (skb : SkBuff) (i : Nat) (b : UInt8) : SkBuff := { skb with data := skb.data.set i b }

/-- `SNA_PORT_TYPE_` -/
inductive PortType where
  | invalid
  | loopback
  | llc
  deriving DecidableEq

/-- `sna_dlc_llc_header_len` for data: `LLC_PDU_LEN_I` -/
def llcHeaderLen : Int := 4

/-- `sna_dlc_data_min_len`, with the DLC and the port of the link station if they are there -/
def dlcDataMinLen (dlc : Option DlcCb) (port : Option PortType) : Int :=
  match dlc, port with
  | some dlc, some type =>
    (dlc.hardHeaderLen.toNat : Int) + if type = .llc then llcHeaderLen else 0
  | _, _ => -2

/-! ## The parts of the FMH-5 -/

/-- `struct sna_tp_cb`, what the FMH-5 is made of -/
structure AttachTp where
  tpName : Vector UInt8 65
  tpNameLength : UInt8
  conversationType : ConversationType
  luwSec : UInt32
  luwUsec : UInt32
  luwSeq : UInt16

/-- A number of 16 or 32 bits as `htons` and `htonl` have it in memory -/
def be16 (x : UInt16) : List UInt8 := [(x >>> 8).toUInt8, x.toUInt8]

def be32 (x : UInt32) : List UInt8 :=
  [(x >>> 24).toUInt8, (x >>> 16).toUInt8, (x >>> 8).toUInt8, x.toUInt8]

/-- The first 6 bytes of a `struct timeval`, on a little-endian host -/
def luwBytes (sec usec : UInt32) : List UInt8 := (be32 sec).reverse ++ ((be32 usec).reverse).take 2

/-- `sizeof(sna_fmh5)` -/
def fmh5Len : Nat := 9

/-- `sna_fmh5` before its length is set -/
def fmh5Fixed (conversationType : ConversationType) : List UInt8 :=
  [0, 5, 0x02, 0xFF, 0, 3, if conversationType = .basic then 0xD0 else 0xD1, 0, 0]

/-- `sna_ps_conv_fmh5_append_tp_name`; `stack` is `e_tp_name` before. -/
def fmh5AppendTpName (tp : AttachTp) (stack : Vector UInt8 64) (skb : SkBuff) :
    Option (Nat × SkBuff) := do
  let i := skb.data.length
  let skb ← skb.put [0]
  let e := atoeStrncpy tp.tpNameLength.toNat stack.toList tp.tpName.toList
  let skb ← skb.put (e.take tp.tpNameLength.toNat)
  return (tp.tpNameLength.toNat + 1, skb.write i tp.tpNameLength)

/-- `sna_ps_conv_fmh5_append_security` -/
def fmh5AppendSecurity (skb : SkBuff) : Option (Nat × SkBuff) := do
  let skb ← skb.put [0]
  return (1, skb)

/-- `sna_ps_conv_fmh5_append_luw`; `stack` is `name_flat` before. A name of 17 characters is ended
behind the array. -/
def fmh5AppendLuw (tp : AttachTp) (netidPlu : Netid) (stack : Vector UInt8 17) (skb : SkBuff) :
    Option (Nat × SkBuff) := do
  let i := skb.data.length
  let skb ← skb.put [0]
  let nameLen : UInt8 := .ofNat (nameLen netidPlu.net + 1 + nameLen netidPlu.name)
  let nameFlat := fatoeStrncpy nameLen.toNat (netidToChar netidPlu stack.toList)
  let skb ← skb.put [nameLen]
  let skb ← skb.put (nameFlat.take nameLen.toNat)
  let skb ← skb.put (luwBytes tp.luwSec tp.luwUsec)
  let skb ← skb.put (be16 tp.luwSeq)
  let len := 1 + 1 + nameLen.toNat + 6 + 2
  return (len, skb.write i (.ofNat (len - 1)))

/-- `sna_ps_conv_fmh5_append_cnv_correlator` -/
def fmh5AppendCnvCorrelator (skb : SkBuff) : Option (Nat × SkBuff) := do
  let skb ← skb.put [0]
  return (1, skb)

/-- `sna_ps_conv_fmh5_append_attach_snf`, with `sna_ps_conv_attach_sqn` -/
def fmh5AppendAttachSnf (attachSqn : UInt32) (skb : SkBuff) : Option (Nat × SkBuff) := do
  let i := skb.data.length
  let skb ← skb.put [0]
  let skb ← skb.put ([0, 0, 0, 0] ++ be32 attachSqn)
  return (9, skb.write i 8)

/-! ## The FMH-5 -/

/-- What the stack holds in the arrays of the two procedures that have some -/
structure Stack where
  eTpName : Vector UInt8 64
  nameFlat : Vector UInt8 17

/-- `sizeof(sna_fid2)` and `sizeof(sna_rh)` -/
def fid2Len : Int := 6

def rhLen : Int := 3

/-- `sna_ps_conv_build_and_send_fmh5`, the buffer from its allocation to where it is sent, with
`sna_ps_conv_attach_sqn` before; `minLen` is what `sna_dlc_data_min_len` returns. -/
def buildFmh5 (minLen : Int) (tp : AttachTp) (netidPlu : Netid) (attachSqn : UInt32) (stack : Stack) :
    Option SkBuff := do
  let skb : SkBuff := { size := minLen + rhLen + fmh5Len + 60 }
  let skb := ((skb.reserve minLen).reserve fid2Len).reserve rhLen
  let skb ← skb.put (fmh5Fixed tp.conversationType)
  let (tpName, skb) ← fmh5AppendTpName tp stack.eTpName skb
  let (security, skb) ← fmh5AppendSecurity skb
  let (luw, skb) ← fmh5AppendLuw tp netidPlu stack.nameFlat skb
  let (correlator, skb) ← fmh5AppendCnvCorrelator skb
  let (snf, skb) ← fmh5AppendAttachSnf attachSqn skb
  return skb.write 0 (.ofNat (fmh5Len + tpName + security + luw + correlator + snf))

end LinuxSna.Ps
