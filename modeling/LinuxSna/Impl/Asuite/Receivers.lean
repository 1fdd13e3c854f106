import LinuxSna.Impl.Asuite.Record

/-!
# The receivers of records

The loops over the parameters of a record in `aftpd.c`, `anamed.c` and `libaftp.c`. They share
their shape, a `do` loop that goes on by the length of each parameter, and differ in what they do
for each key and in what `curpos` is compared with. Of what they do, the copies from the record are
modelled, and whether they return from within the loop; what `malloc` and `chdir` answer is up to
the system.
-/

namespace LinuxSna.Asuite

/-! ## Copies -/

/-- A copy of bytes that stand in the record. -/
inductive Copy where
  /-- Bytes, to variables of their size -/
  | bytes (start n : Nat)
  /-- A string with its NUL, to memory that was allocated for it -/
  | string (start : Nat)
  /-- The same, where no memory was allocated -/
  | nowhere (start : Nat)
  /-- `strncpy` of `n` bytes, to a buffer of `room` bytes -/
  | strncpy (start n room : Nat)
  /-- `memcpy` of `n` bytes, and a NUL after them, to a field of `room` bytes -/
  | memcpy (start n room : Nat)

/-- What a receiver does for a key. -/
inductive Deed where
  | skip
  /-- It sends an error, and returns. -/
  | leave
  /-- It copies, from the length of the parameter and `curpos`. -/
  | copy (copies : Nat → Nat → List Copy)
  /-- It allocates memory for a string and copies it; if `malloc` is `checked`, it returns where
  there is no memory. -/
  | duplicate (checked : Bool)
  /-- The same, without a check, and then `chdir`; if that fails, it returns. -/
  | changeDir

/-- What the system answers in each pass of a loop. -/
structure System where
  malloc : Nat → Bool
  chdir : Nat → Bool

/-- The copies that are made in a pass. -/
def Deed.copies (system : System) (pass paramLen curpos : Nat) : Deed → List Copy
  | skip | leave => []
  | copy copies => copies paramLen curpos
  | duplicate checked =>
    if system.malloc pass then [.string (curpos + 3)]
    else if checked then [] else [.nowhere (curpos + 3)]
  | changeDir =>
    if system.malloc pass then [.string (curpos + 3)] else [.nowhere (curpos + 3)]

/-- Whether the receiver returns from within the loop. -/
def Deed.leaves (system : System) (pass : Nat) : Deed → Bool
  | skip | copy _ => false
  | leave => true
  | duplicate checked => checked && !system.malloc pass
  | changeDir => !system.chdir pass

/-- The byte after the key is taken. -/
def takeChar : Deed := .copy fun _ curpos => [.bytes (curpos + 3) 1]

/-! ## The loop -/

/-- A loop over the parameters of a record. -/
structure Receiver where
  switch : UInt8 → Deed
  /-- What `curpos` is compared with, if it is not the received length. -/
  limit : Option Nat := none
  /-- The string that must stand at byte 5, if there is one. -/
  origin : Option (List UInt8) := none

/-- A C string with its NUL -/
def cString (s : List UInt8) : List UInt8 := s.takeWhile (· ≠ 0) ++ [0]

namespace Receiver

/-- Whether the loop is entered. -/
def enters (rcv : Receiver) (record : Record) : Bool :=
  match rcv.origin with
  | none => true
  | some s => record.slice 5 (cString s).length = cString s

/-- The end of the loop -/
def stop (rcv : Receiver) (record : Record) : Nat := rcv.limit.getD (getReceivedLen record)

end Receiver

/-- `curpos`, and the number of passes so far. -/
structure Turn where
  passes : Nat
  curpos : Nat

/-- The deed for the parameter at a position -/
def Receiver.deed (rcv : Receiver) (record : Record) (curpos : Nat) : Deed :=
  rcv.switch (getKey record curpos)

/-- The body of the loop. -/
def Receiver.pass (host : Host) (rcv : Receiver) (system : System) (record : Record) (t : Turn) :
    Turn ⊕ Unit :=
  if (rcv.deed record t.curpos).leaves system t.passes then .inr ()
  else
    let curpos := (t.curpos + getParamLen host record t.curpos) % 2 ^ 32
    if curpos < rcv.stop record then .inl ⟨t.passes + 1, curpos⟩ else .inr ()

/-- The copies that a pass makes. -/
def Receiver.copies (host : Host) (rcv : Receiver) (system : System) (record : Record) (t : Turn) :
    List Copy :=
  (rcv.deed record t.curpos).copies system t.passes (getParamLen host record t.curpos) t.curpos

/-! ## `aftpd.c` -/

namespace Aftpd

/-- `AFTP_FILE_TYPE` -/
def aftpFileType : UInt8 := 19

/-- `AFTP_INFO_LEVEL` -/
def aftpInfoLevel : UInt8 := 20

/-- `AFTP_MOD_TIME` -/
def aftpModTime : UInt8 := 21

/-- `AFTP_WRITE_MODE` -/
def aftpWriteMode : UInt8 := 26

/-- `AFTP_RECORD_FORMAT` -/
def aftpRecordFormat : UInt8 := 27

/-- `a_list_request` -/
def aListRequest : Receiver where
  switch key :=
    if key = aftpFilespec then .duplicate false
    else if key = aftpFileType ∨ key = aftpInfoLevel then takeChar
    else .skip

/-- `a_change_dir` -/
def aChangeDir : Receiver where
  switch key := if key = aftpFilespec then .changeDir else .skip

/-- The keys that are allowed in the requests for files, and passed over. -/
def fileKeys : List UInt8 :=
  [aftpWriteMode, aftpDateMode, aftpModTime, aftpRecordLength, aftpRecordFormat, aftpBlockSize,
    aftpAllocationSize]

/-- The requests for files, with what is done for the data type. -/
def fileSwitch (dataType : Deed) (key : UInt8) : Deed :=
  if key = aftpFilespec ∨ key = aftpNewFilespec then .duplicate true
  else if key = aftpDataType then dataType
  else if key ∈ fileKeys then .skip
  else .leave

/-- `a_request_file` -/
def aRequestFile : Receiver where
  switch := fileSwitch takeChar

/-- `a_send_file` -/
def aSendFile : Receiver where
  switch := fileSwitch .skip

/-- The requests that have file names and nothing else. -/
def nameSwitch (names : List UInt8) (key : UInt8) : Deed :=
  if key ∈ names then .duplicate true else .leave

/-- `a_delete` -/
def aDelete : Receiver where
  switch := nameSwitch [aftpFilespec]

/-- `a_create_dir` -/
def aCreateDir : Receiver where
  switch := nameSwitch [aftpFilespec]

/-- `a_remove_dir` -/
def aRemoveDir : Receiver where
  switch := nameSwitch [aftpFilespec]

/-- `a_rename` -/
def aRename : Receiver where
  switch := nameSwitch [aftpFilespec, aftpNewFilespec]

/-- The `switch` of `main`, as far as there is a loop over parameters. -/
def receiver (majorCode : Nat) : Option Receiver :=
  match majorCode with
  | 3 => some aListRequest
  | 6 => some aChangeDir
  | 8 => some aCreateDir
  | 9 => some aRemoveDir
  | 10 => some aDelete
  | 11 => some aRename
  | 12 => some aSendFile
  | 13 => some aRequestFile
  | _ => none

end Aftpd

/-! ## `anamed.c` -/

namespace Anamed

/-- `ANAME_USER_NAME` -/
def anameUserName : UInt8 := 100

/-- `ANAME_FQLU_NAME` -/
def anameFqluName : UInt8 := 101

/-- `ANAME_GROUP_NAME` -/
def anameGroupName : UInt8 := 102

/-- `ANAME_TP_NAME` -/
def anameTpName : UInt8 := 103

/-- `ANAME_UN_SIZE`, and that of the other names but one. -/
def anameUnSize : Nat := 64

/-- `ANAME_FQ_SIZE` -/
def anameFqSize : Nat := 17

/-- A name is copied to a field of a `namerec`: `param_len - 4` is an `unsigned int`. -/
def nameField (size : Nat) : Deed :=
  .copy fun paramLen curpos => [.memcpy (curpos + 3) ((paramLen + 2 ^ 32 - 4) % 2 ^ 32) (size + 1)]

/-- The `switch` of the three requests. -/
def namerecSwitch (key : UInt8) : Deed :=
  if key = anameUserName then nameField anameUnSize
  else if key = anameFqluName then nameField anameFqSize
  else if key = anameGroupName ∨ key = anameTpName then nameField anameUnSize
  else .skip

/-- `a_register`, which looks first whether the string at byte 5 is the name of the partner. -/
def aRegister (origin : List UInt8) : Receiver where
  switch := namerecSwitch
  origin := some origin

/-- `a_delete` -/
def aDelete : Receiver where
  switch := namerecSwitch

/-- `a_query` -/
def aQuery : Receiver where
  switch := namerecSwitch

/-- The `switch` of `main` -/
def receiver (origin : List UInt8) (majorCode : Nat) : Option Receiver :=
  match majorCode with
  | 2 => some (aRegister origin)
  | 3 => some aDelete
  | 4 => some aQuery
  | _ => none

end Anamed

/-! ## `libaftp.c` -/

namespace Libaftp

/-- `AFTP_STATUS_RETURN_CODE` -/
def aftpStatusReturnCode : UInt8 := 2

/-- `AFTP_STATUS_CATEGORY_INDEX` -/
def aftpStatusCategoryIndex : UInt8 := 4

/-- `AFTP_STATUS_PRIMARY_MSG` -/
def aftpStatusPrimaryMsg : UInt8 := 5

/-- `AFTP_SYSTEM_INFO` -/
def aftpSystemInfo : UInt8 := 23

/-- `MSG_BUFFER_LENGTH` -/
def msgBufferLength : Nat := 512

/-- The message category and index: `get_cat_index`, twice. -/
def categoryIndex (curpos : Nat) : List Copy := [.bytes (curpos + 3) 2, .bytes (curpos + 5) 2]

/-- `set_primary_msg` -/
def setPrimaryMsg (curpos : Nat) : List Copy :=
  [.strncpy (curpos + 3) msgBufferLength (msgBufferLength + 1)]

/-- A string is copied to a buffer of the caller, of the size that it says. -/
def toCaller (size : Nat) : Deed := .copy fun _ curpos => [.strncpy (curpos + 3) size size]

/-- An answer with a return code or an error, with what is done for the return code. -/
def answerSwitch (returnCode : Deed) (key : UInt8) : Deed :=
  if key = aftpStatusReturnCode then returnCode
  else if key = aftpStatusCategoryIndex then .copy fun _ curpos => categoryIndex curpos
  else if key = aftpStatusPrimaryMsg then .copy fun _ curpos => setPrimaryMsg curpos
  else .skip

/-- `aftp_change_dir`. The category falls through to the message, and the end of the loop is the
length of the name that was sent. -/
def aftpChangeDir (length : Nat) : Receiver where
  switch key :=
    if key = aftpStatusCategoryIndex then
      .copy fun _ curpos => categoryIndex curpos ++ setPrimaryMsg curpos
    else if key = aftpStatusPrimaryMsg then .copy fun _ curpos => setPrimaryMsg curpos
    else .skip
  limit := some length

/-- `aftp_create_dir`. The end of the loop is the length of the name that was sent. -/
def aftpCreateDir (length : Nat) : Receiver where
  switch := answerSwitch .skip
  limit := some length

/-- `aftp_delete` -/
def aftpDelete : Receiver where
  switch _ := .skip

/-- `aftp_dir_open` -/
def aftpDirOpen (pathBufferLength : Nat) : Receiver where
  switch key :=
    if key = aftpFilespec then toCaller pathBufferLength else answerSwitch takeChar key

/-- `aftp_dir_read` -/
def aftpDirRead (dirEntrySize : Nat) : Receiver where
  switch key := if key = aftpFilespec then toCaller dirEntrySize else answerSwitch .skip key

/-- `aftp_query_current_dir` -/
def aftpQueryCurrentDir (directorySize : Nat) : Receiver where
  switch key := if key = aftpFilespec then toCaller directorySize else .skip

/-- `aftp_query_system_info` -/
def aftpQuerySystemInfo (systemInfoSize : Nat) : Receiver where
  switch key := if key = aftpSystemInfo then toCaller systemInfoSize else .skip

/-- `aftp_receive_file`, on an answer -/
def aftpReceiveFile : Receiver where
  switch key := if key = aftpStatusReturnCode then .skip else .leave

/-- `aftp_receive_file`, where the file comes -/
def aftpReceiveFileComes : Receiver where
  switch _ := .skip

/-- `aftp_remove_dir` -/
def aftpRemoveDir : Receiver where
  switch := answerSwitch takeChar

/-- `aftp_rename` -/
def aftpRename : Receiver where
  switch := answerSwitch takeChar

/-- `aftp_send_file`, on the answer -/
def aftpSendFile : Receiver where
  switch _ := .skip

/-- `AFTP_SIMPLE_RESPONSE` -/
def aftpSimpleResponse : Nat := 1

/-- `AFTP_LIST_ENTRY` -/
def aftpListEntry : Nat := 4

end Libaftp

/-! ## The programs -/

/-- Who receives a record: one of the two daemons, `anamed` from the LU that `origin` names, or a
function of `libaftp`. -/
inductive Program where
  | aftpd
  | anamed (origin : List UInt8)
  | changeDir (length : Nat)
  | createDir (length : Nat)
  | delete
  | dirOpen (pathBufferLength : Nat)
  | dirRead (dirEntrySize : Nat)
  | queryCurrentDir (directorySize : Nat)
  | querySystemInfo (systemInfoSize : Nat)
  | receiveFile
  | removeDir
  | rename
  | sendFile

/-- The loop of a function of `libaftp` that expects records of one type. -/
def onType (rectype : Nat) (rcv : Receiver) (majorCode : Nat) : Option Receiver :=
  if majorCode = rectype then some rcv else none

open Libaftp in
/-- The loop over the parameters of a record with this major code. -/
def Program.receiver : Program → Nat → Option Receiver
  | aftpd => Aftpd.receiver
  | anamed origin => Anamed.receiver origin
  | changeDir length => onType aftpSimpleResponse (aftpChangeDir length)
  | createDir length => onType aftpSimpleResponse (aftpCreateDir length)
  | delete => onType aftpSimpleResponse aftpDelete
  | dirOpen pathBufferLength => onType aftpSimpleResponse (aftpDirOpen pathBufferLength)
  | dirRead dirEntrySize => onType aftpListEntry (aftpDirRead dirEntrySize)
  | queryCurrentDir directorySize =>
    onType aftpSimpleResponse (aftpQueryCurrentDir directorySize)
  | querySystemInfo systemInfoSize =>
    onType aftpSimpleResponse (aftpQuerySystemInfo systemInfoSize)
  | receiveFile => fun majorCode =>
    if majorCode = Asuite.aftpSendFile then some aftpReceiveFileComes
    else onType aftpSimpleResponse aftpReceiveFile majorCode
  | removeDir => onType aftpSimpleResponse aftpRemoveDir
  | rename => onType aftpSimpleResponse aftpRename
  | sendFile => onType aftpSimpleResponse Libaftp.aftpSendFile

end LinuxSna.Asuite
