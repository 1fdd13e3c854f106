import LinuxSna.Impl.Asuite.Receivers

/-!
# Records on a conversation

What the two ends of a conversation share, from `asuitecommon.c`: a record as it is sent and as it
is received, the loop over its parameters with what is done in it, the strings in it, and the
record that answers a request.
-/

namespace LinuxSna.Asuite.Ftp

/-- What `send_asuiterecord` sends. -/
def sendAsuiterecord (record : Record) : List UInt8 := record.slice 0 record.position

/-- `get_asuiterecord`: what was in the buffer before stays behind what is received. -/
def getAsuiterecord (data : List UInt8) (record : Record) : Record :=
  ({ record with position := 0 } : Record).puts data

/-- `asuiterecord_new`. Nothing is read of the memory before it is stored. -/
def asuiterecordNew : Record := ⟨2, fun _ => 0⟩

/-- `get_cat_index` -/
def getCatIndex (host : Host) (record : Record) (curpos : Nat) : Nat :=
  host.htons ((record.buffer (curpos + 1)).toNat * 2 ^ 8 + (record.buffer curpos).toNat)

/-- The string that stands somewhere in the buffer, up to its NUL. -/
def stringAt (record : Record) (start : Nat) : List UInt8 :=
  (record.slice start (maxBufferSize - start)).takeWhile (· ≠ 0)

/-! ## The loop over the parameters -/

section Scan

variable {σ ρ : Type} (host : Host) (record : Record) (stop : Nat) (body : Nat → σ → σ ⊕ ρ)

/-- The loop from `curpos` on, `n` passes of it at most: what is done for the parameter either goes
on or returns from within. -/
def scanFrom : Nat → Nat → σ → Option (σ ⊕ ρ)
  | 0, _, _ => none
  | n + 1, curpos, a =>
    match body curpos a with
    | .inr r => some (.inr r)
    | .inl a =>
      let next := (curpos + getParamLen host record curpos) % 2 ^ 32
      if next < stop then scanFrom n next a else some (.inl a)

/-- The loop. If it has not ended after as many passes as there are bytes, it stands still. -/
def scan (a : σ) : Option (σ ⊕ ρ) := scanFrom host record stop body (maxBufferSize + 1) 2 a

end Scan

/-! ## Answers -/

/-- `AFTP_RC_OK` -/
def rcOk : Nat := 0

/-- `AFTP_RC_FAIL_INPUT_ERROR` -/
def rcFailInputError : Nat := 6

/-- `AFTP_RC_FAIL_FATAL` -/
def rcFailFatal : Nat := 9

/-- `ASUITE_RC_PROGRAM_INTERNAL_ERROR` -/
def rcProgramInternalError : Nat := 10

/-- `A_ERR_UNKNOWN_PARAMETER` -/
def aErrUnknownParameter : Nat := 128

/-- `A_ERR_OUT_OF_MEMORY` -/
def aErrOutOfMemory : Nat := 136

/-- `A_ERR_ACTION_NOT_PERFORMED` -/
def aErrActionNotPerformed : Nat := 601

/-- `A_ERR_FILE_NOT_FOUND` -/
def aErrFileNotFound : Nat := 602

/-- `A_ERR_ACCESS_DENIED` -/
def aErrAccessDenied : Nat := 603

/-- `A_ERR_FILE_EXISTS` -/
def aErrFileExists : Nat := 606

/-- `A_ERR_CROSS_DEVICES` -/
def aErrCrossDevices : Nat := 612

/-- The text of every error, with its NUL: `"ERROR"`. -/
def errorText : List UInt8 := [69, 82, 82, 79, 82, 0]

/-- The record that `send_simple_response` sends. -/
def simpleResponse (host : Host) (errcode category index : Nat) : List UInt8 :=
  let r := asuiterecordSettype host (asuiterecordClear asuiterecordNew) Libaftp.aftpSimpleResponse
  let r := asuiterecordAppendChar host r Libaftp.aftpStatusReturnCode (UInt8.ofNat errcode)
  let r :=
    if errcode ≠ 0 then
      let r := asuiterecordAppendTwobyte host r Libaftp.aftpStatusCategoryIndex 2
        fun i => [category, index].getD i 0
      asuiterecordAppend host r Libaftp.aftpStatusPrimaryMsg errorText 6
    else r
  sendAsuiterecord r

end LinuxSna.Asuite.Ftp
