import LinuxSna.Impl.Sna.Asm
import LinuxSna.Impl.Sna.Cs.LinkStation
import LinuxSna.Impl.Snaconfig.Xwords

/-!
# Listings in `/proc`

`sna_cs_get_info_ls`, `sna_asm_get_active_lfsids` and `sna_pc_get_info`: each writes its listing into a
buffer until it is past what is asked for, forgets what stands before that, and returns what is left.
What `sna_pr_netid` gives for a name is an argument.
-/

namespace LinuxSna.Proc

open Asm (Lfsid)
open Cs (Netid)
open Snaconfig (hexDigits prNodeid)

abbrev Text := List Char

/-! ## Formats -/

/-- `%-*s` -/
def left (width : Nat) (s : Text) : Text := s.rightpad width ' '

/-- `%d` -/
def decimal : Int → Text
  | .ofNat n => Nat.toDigits 10 n
  | .negSucc n => '-' :: Nat.toDigits 10 (n + 1)

/-- `%-*d` of an `int`, to which a `u_int32_t` is taken -/
def leftInt (width : Nat) (n : UInt32) : Text := left width (decimal n.toInt32.toInt)

/-- `%02X` of a `u_int32_t` -/
def hex02 (n : UInt32) : Text :=
  hexDigits (([2, 3, 4, 5, 6, 7].find? (n.toNat < 16 ^ ·)).getD 8) n.toNat

/-- `sna_pr_ether` of the kernel -/
def prEther (mac : Vector UInt8 6) : Text := mac.toList.flatMap fun b => hexDigits 2 b.toNat

/-! ## Entries -/

/-- `struct sna_pc_cb`, what is listed of it -/
structure PcCb where
  index : UInt32
  cpName : Netid
  tgNumber : UInt8
  intranode : UInt8

/-- `struct sna_asm_cb`, what is listed of it. The slots of its blocks stand one behind the other. -/
structure AsmCb where
  index : UInt32
  intranode : UInt8
  blkList : List Lfsid

/-- `struct sna_ls_cb`, what is listed of it -/
structure LsCb where
  useName : Text
  index : UInt32
  flags : UInt32
  state : UInt32
  effectiveRole : UInt8
  effectiveTg : UInt8
  txMaxBtu : UInt16
  rxMaxBtu : UInt16
  pluName : Netid
  pluNodeId : UInt32
  pluMacAddr : Vector UInt8 6
  pluPort : UInt8

/-- `struct sna_port_cb`, what is listed of it -/
structure PortCb where
  lsList : List LsCb

variable (prNetid : Netid → Text)

def pcHeader : Text :=
  left 18 "name".toList ++ left 6 "index".toList ++ left 10 "intranode".toList ++ left 4 "tg".toList ++
    left 17 "fqpc_id".toList ++ ['\n']

def pcLine (pc : PcCb) : Text :=
  left 18 (prNetid pc.cpName) ++ leftInt 6 pc.index ++ leftInt 10 pc.intranode.toUInt32 ++
    leftInt 4 pc.tgNumber.toUInt32 ++ ['\n']

def lfsidHeader : Text :=
  left 9 "pc_id".toList ++ left 6 "intra".toList ++ left 6 "sm_id".toList ++ left 5 "odai".toList ++
    left 6 "sidh".toList ++ left 5 "sidl".toList ++ ['\n']

def lfsidLine (a : AsmCb) (l : Lfsid) : Text :=
  leftInt 9 a.index ++ leftInt 6 a.intranode.toUInt32 ++ leftInt 6 l.smIndex.toUInt32 ++
    leftInt 5 l.odai.toUInt32 ++ leftInt 6 l.sidh.toUInt32 ++ leftInt 5 l.sidl.toUInt32 ++ ['\n']

/-- The lines of an address space -/
def lfsidLines (a : AsmCb) : List Text := (a.blkList.filter (·.active)).map (lfsidLine a)

def lsHeader : Text :=
  left 20 "name".toList ++ left 6 "index".toList ++ left 6 "flags".toList ++ left 6 "state".toList ++
    left 5 "role".toList ++ left 4 "tg".toList ++ left 11 "tx_max_btu".toList ++
    left 11 "rx_max_btu".toList ++ ['\n'] ++ "  ".toList ++ left 18 "plu_name".toList ++
    left 12 "plu_node_id".toList ++ left 13 "plu_mac_addr".toList ++ left 9 "plu_lsap".toList ++ ['\n']

/-- The two lines of a link station -/
def lsLine (ls : LsCb) : Text :=
  left 20 ls.useName ++ leftInt 6 ls.index ++ hex02 ls.flags ++ "    ".toList ++ hex02 ls.state ++
    "    ".toList ++ leftInt 5 ls.effectiveRole.toUInt32 ++ leftInt 4 ls.effectiveTg.toUInt32 ++
    leftInt 11 ls.txMaxBtu.toUInt32 ++ leftInt 11 ls.rxMaxBtu.toUInt32 ++ ['\n'] ++
    "  ".toList ++ left 18 (prNetid ls.pluName) ++ left 12 (prNodeid ls.pluNodeId) ++
    left 13 (prEther ls.pluMacAddr) ++ hexDigits 2 ls.pluPort.toNat ++ ['\n']

/-! ## Writing -/

/-- The variables of such a function. `buffer` is what stands in the buffer up to `len`; `marks` is how far,
as the function counts it from `begin`, the buffer was written when the header stood there and before
each of the entries. -/
structure Out where
  buffer : Text
  begin : Nat
  pos : Nat
  marks : List Nat

namespace Out

/-- `sprintf(buffer, ...)` of the header -/
def header (text : Text) : Out := ⟨text, 0, 0, [text.length]⟩

/-- `len += sprintf(buffer + len, ...)` of an entry -/
def entry (o : Out) (text : Text) : Out :=
  { o with buffer := o.buffer ++ text, marks := (o.begin + o.buffer.length) :: o.marks }

/-- `pos = begin + len` -/
def update (o : Out) : Out := { o with pos := o.begin + o.buffer.length }

/-- Are we still dumping unwanted data then discard the record -/
def discard (offset : Nat) (o : Out) : Out :=
  if o.pos < offset then { o with buffer := [], begin := o.pos } else o

/-- We have dumped enough -/
def enough (offset length : Nat) (o : Out) : Bool := o.pos > offset + length

/-- What is returned: from the start of the wanted data on, without the unwanted data before and
behind -/
def finish (offset length : Nat) (o : Out) : Text :=
  let len : Int := o.buffer.length - (offset - o.begin)
  let len := if len > length then (length : Int) else len
  let len := if len < 0 then 0 else len
  (o.buffer.drop (offset - o.begin : Int).toNat).take len.toNat

end Out

/-- The loop of `sna_asm_get_active_lfsids`, which looks where it is behind the lines of an address space;
and that of `sna_pc_get_info`, where each line stands alone. -/
def dump (offset length : Nat) : List (List Text) → Out → Out
  | [], o => o
  | lines :: l, o =>
    let o := ((lines.foldl Out.entry o).update).discard offset
    if o.enough offset length then o else dump offset length l o

/-- The inner loop of `sna_cs_get_info_ls`. It does not set `pos`. -/
def dumpLs (offset length : Nat) : List LsCb → Out → Out
  | [], o => o
  | ls :: l, o =>
    let o := (o.entry (lsLine prNetid ls)).discard offset
    if o.enough offset length then o else dumpLs offset length l o

/-- What stands in the buffer of `sna_pc_get_info` in the end -/
def pcOut (pcList : List PcCb) (offset length : Nat) : Out :=
  dump offset length (pcList.map fun pc => [pcLine prNetid pc]) (.header pcHeader)

/-- What stands in the buffer of `sna_asm_get_active_lfsids` in the end -/
def lfsidOut (asmList : List AsmCb) (offset length : Nat) : Out :=
  dump offset length (asmList.map lfsidLines) (.header lfsidHeader)

/-- What stands in the buffer of `sna_cs_get_info_ls` in the end -/
def lsOut (portList : List PortCb) (offset length : Nat) : Out :=
  portList.foldl (fun o port => dumpLs prNetid offset length port.lsList o) (.header lsHeader)

/-- `sna_pc_get_info` -/
def pcGetInfo (pcList : List PcCb) (offset length : Nat) : Text :=
  (pcOut prNetid pcList offset length).finish offset length

/-- `sna_asm_get_active_lfsids` -/
def asmGetActiveLfsids (asmList : List AsmCb) (offset length : Nat) : Text :=
  (lfsidOut asmList offset length).finish offset length

/-- `sna_cs_get_info_ls` -/
def csGetInfoLs (portList : List PortCb) (offset length : Nat) : Text :=
  (lsOut prNetid portList offset length).finish offset length

end LinuxSna.Proc
