import LinuxSna.Framework.CString
import LinuxSna.Framework.Loop

/-!
# Records of the APPC suite

`asuitecommon.c`: a record is a major code and parameters, each with its length and its key
before its data, and `libaftp.c`: the records that ask for a file to be sent or received. What
stands in memory from the buffer on is a function, so that what is read behind the record, or
behind the buffer, is whatever stands there. The integers that are put together from single bytes
go through `htons` and `htonl`, which the byte order of the host decides.
-/

namespace LinuxSna.Asuite

/-- `MAX_BUFFER_SIZE` -/
def maxBufferSize : Nat := 32763

/-! ## Byte order -/

/-- The host, by the order of the bytes of its integers. -/
inductive Host where
  | little
  | big

namespace Host

/-- `htons`, which is `ntohs` as well. -/
def htons : Host → Nat → Nat
  | little, n => n % 2 ^ 8 * 2 ^ 8 + n / 2 ^ 8 % 2 ^ 8
  | big, n => n % 2 ^ 16

/-- `htonl` -/
def htonl : Host → Nat → Nat
  | little, n =>
    n % 2 ^ 8 * 2 ^ 24 + n / 2 ^ 8 % 2 ^ 8 * 2 ^ 16 + n / 2 ^ 16 % 2 ^ 8 * 2 ^ 8 + n / 2 ^ 24 % 2 ^ 8
  | big, n => n % 2 ^ 32

/-- A number of two bytes as it is stored: its low byte first, after `htons`. -/
def short (host : Host) (n : Nat) : List UInt8 :=
  let temp := host.htons (n % 2 ^ 16)
  [UInt8.ofNat temp, UInt8.ofNat (temp / 2 ^ 8)]

/-- A number of four bytes as it is stored: its lowest byte first, after `htonl`. -/
def long (host : Host) (n : Nat) : List UInt8 :=
  let temp := host.htonl (n % 2 ^ 32)
  [UInt8.ofNat temp, UInt8.ofNat (temp / 2 ^ 8), UInt8.ofNat (temp / 2 ^ 16),
    UInt8.ofNat (temp / 2 ^ 24)]

end Host

/-! ## The record -/

/-- `asuiterecord`: its `position`, and what stands in memory from its `buffer` on. -/
structure Record where
  position : Nat
  buffer : Nat → UInt8

namespace Record

/-- A byte is stored at `position`, which moves on. -/
def put (r : Record) (b : UInt8) : Record :=
  { position := r.position + 1, buffer := Function.update r.buffer r.position b }

/-- Bytes are stored, one after another. -/
def puts (r : Record) (bytes : List UInt8) : Record := bytes.foldl put r

/-- A byte is stored elsewhere. -/
def store (r : Record) (i : Nat) (b : UInt8) : Record :=
  { r with buffer := Function.update r.buffer i b }

/-- The bytes that stand somewhere. -/
def slice (r : Record) (start n : Nat) : List UInt8 :=
  (List.range n).map fun i => r.buffer (start + i)

end Record

/-- `get_param_len` -/
def getParamLen (host : Host) (record : Record) (curpos : Nat) : Nat :=
  host.htons ((record.buffer (curpos + 1)).toNat * 2 ^ 8 + (record.buffer curpos).toNat)

/-- `get_major_code` -/
def getMajorCode (record : Record) : Nat := (record.buffer 1).toNat

/-- `get_received_len` -/
def getReceivedLen (record : Record) : Nat := record.position

/-- `get_key` -/
def getKey (record : Record) (curpos : Nat) : UInt8 := record.buffer (curpos + 2)

/-- `asuiterecord_clear` -/
def asuiterecordClear (record : Record) : Record := { record with position := 2 }

/-- `asuiterecord_settype` -/
def asuiterecordSettype (host : Host) (record : Record) (rectype : Nat) : Record :=
  let temp := host.htons (rectype % 2 ^ 16)
  (record.store 0 (UInt8.ofNat temp)).store 1 (UInt8.ofNat (temp / 2 ^ 8))

/-- `asuiterecord_append`. The data are copied by `strncpy`. -/
def asuiterecordAppend (host : Host) (record : Record) (key : UInt8) (data : List UInt8)
    (length : Nat) : Record :=
  ((record.puts (host.short (length + 3))).put key).puts (Framework.padded length data)

/-- `asuiterecord_append_char` -/
def asuiterecordAppendChar (host : Host) (record : Record) (key data : UInt8) : Record :=
  ((record.puts (host.short 4)).put key).put data

/-- `asuiterecord_append_fourbyte`. The length that is stored is that of a parameter with one
byte. -/
def asuiterecordAppendFourbyte (host : Host) (record : Record) (key : UInt8) (data : Nat) :
    Record :=
  ((record.puts (host.short 4)).put key).puts (host.long data)

/-- `asuiterecord_append_twobyte`. The `i`-th of the arguments is `va i`, what `va_arg` finds,
whether the caller has passed it or not. The length is stored last. -/
def asuiterecordAppendTwobyte (host : Host) (record : Record) (key : UInt8) (count : Int)
    (va : Nat → Nat) : Record :=
  let lenIndex := record.position
  let r := ({ record with position := record.position + 2 } : Record).put key
  let r := r.puts ((List.range count.toNat).flatMap fun i => host.short (va i))
  let temp := host.htons ((3 + 2 * count) % 2 ^ 16).toNat
  (r.store lenIndex (UInt8.ofNat temp)).store (lenIndex + 1) (UInt8.ofNat (temp / 2 ^ 8))

/-! ## The parameters that a receiver visits -/

/-- A parameter, as the loop over a record sees it: its key, and the bytes up to the next. -/
structure Param where
  key : UInt8
  data : List UInt8

/-- `curpos`, and the parameters seen so far. -/
structure Visit where
  curpos : Nat
  seen : List Param

/-- The body of the loop over the parameters: `curpos` is an `unsigned int`. -/
def visitPass (host : Host) (record : Record) (v : Visit) : Visit ⊕ Visit :=
  let paramLen := getParamLen host record v.curpos
  let key := getKey record v.curpos
  let data := record.slice (v.curpos + 3) (paramLen - 3)
  let next : Visit := ⟨(v.curpos + paramLen) % 2 ^ 32, v.seen ++ [⟨key, data⟩]⟩
  if next.curpos < getReceivedLen record then .inl next else .inr next

/-- The loop comes to its end, with these parameters and at this position. -/
def Visits (host : Host) (record : Record) (seen : List Param) (stop : Nat) : Prop :=
  ∃ n, Framework.loop (visitPass host record) n ⟨2, []⟩ = some ⟨stop, seen⟩

/-! ## Requests for files -/

/-- `AFTP_FILESPEC` -/
def aftpFilespec : UInt8 := 17

/-- `AFTP_NEW_FILESPEC` -/
def aftpNewFilespec : UInt8 := 18

/-- `AFTP_DATA_TYPE` -/
def aftpDataType : UInt8 := 24

/-- `AFTP_DATE_MODE` -/
def aftpDateMode : UInt8 := 25

/-- `AFTP_RECORD_LENGTH` -/
def aftpRecordLength : UInt8 := 28

/-- `AFTP_ALLOCATION_SIZE` -/
def aftpAllocationSize : UInt8 := 29

/-- `AFTP_BLOCK_SIZE` -/
def aftpBlockSize : UInt8 := 30

/-- `AFTP_SEND_FILE` -/
def aftpSendFile : Nat := 12

/-- `AFTP_REQUEST_FILE` -/
def aftpRequestFile : Nat := 13

/-- `ftpsession`, what the requests for files take from it. -/
structure Session where
  allocSize : Nat
  blockSize : Nat
  dataType : Nat
  dateMode : Nat
  recordLength : Nat

/-- A number as an `int` -/
def toInt (n : Nat) : Int := Int.bmod n (2 ^ 32)

/-- A parameter of two bytes, if the session has a value for it. The value is passed where the
number of values should be, and no value after it: `va` is what `va_arg` finds then, in the call
for each key. -/
def appendSize (host : Host) (va : UInt8 → Nat → Nat) (key : UInt8) (size : Nat)
    (record : Record) : Record :=
  if size > 0 then asuiterecordAppendTwobyte host record key (toInt size) (va key) else record

/-- The record with which `aftp_send_file` begins. -/
def sendFileRecord (host : Host) (va : UInt8 → Nat → Nat) (s : Session)
    (localFile : List UInt8) (localFileLength : Nat) (remoteFile : List UInt8)
    (remoteFileLength : Nat) (record : Record) : Record :=
  let r := asuiterecordSettype host (asuiterecordClear record) aftpSendFile
  let r := asuiterecordAppend host r aftpFilespec localFile (localFileLength + 1)
  let r := asuiterecordAppend host r aftpNewFilespec remoteFile (remoteFileLength + 1)
  let r := asuiterecordAppendChar host r aftpDataType (UInt8.ofNat s.dataType)
  let r :=
    if s.allocSize > 0 then asuiterecordAppendFourbyte host r aftpAllocationSize s.allocSize else r
  let r := appendSize host va aftpBlockSize s.blockSize r
  let r := appendSize host va aftpRecordLength s.recordLength r
  asuiterecordAppendChar host r aftpDateMode (UInt8.ofNat s.dateMode)

/-- The record with which `aftp_receive_file` begins. -/
def requestFileRecord (host : Host) (va : UInt8 → Nat → Nat) (s : Session)
    (localFile : List UInt8) (localFileLength : Nat) (remoteFile : List UInt8)
    (remoteFileLength : Nat) (record : Record) : Record :=
  let r := asuiterecordSettype host (asuiterecordClear record) aftpRequestFile
  let r := asuiterecordAppend host r aftpFilespec remoteFile (remoteFileLength + 1)
  let r := asuiterecordAppend host r aftpNewFilespec localFile (localFileLength + 1)
  let r := asuiterecordAppendChar host r aftpDataType (UInt8.ofNat s.dataType)
  appendSize host va aftpBlockSize s.blockSize r

end LinuxSna.Asuite
