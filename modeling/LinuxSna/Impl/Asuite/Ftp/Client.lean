import LinuxSna.Impl.Asuite.Ftp.Server

/-!
# The AFTP client

`libaftp.c`: the calls that make a request of the server on one connection, and what they make of
its answers. What a client sends is served in the order in which it is sent; a client that has sent
a request waits for the answer, so that the two sides never wait for each other otherwise, and the
records of one call may as well be served one after another as they are sent. `none` is where a
call does not return: the answer does not come, or a record is written past the end of its buffer.
-/

namespace LinuxSna.Asuite.Ftp

variable {V W : Type}

/-- `AFTP_CHANGE_DIR` -/
def aftpChangeDir : Nat := 6

/-- `AFTP_CREATE_DIR` -/
def aftpCreateDir : Nat := 8

/-- `AFTP_REMOVE_DIR` -/
def aftpRemoveDir : Nat := 9

/-- `AFTP_DELETE` -/
def aftpDelete : Nat := 10

/-- `AFTP_RENAME` -/
def aftpRename : Nat := 11

/-- `ftpsession`, with what the answers are kept in. -/
structure Ftpsession extends Session where
  record : Record
  status : Nat
  msgCategory : Nat
  msgIndex : Nat
  primaryMsg : List UInt8

/-- What `aftp_create` sets of a session, as far as the requests take it. The rest is whatever
stands in memory. -/
def Ftpsession.Created (s : Ftpsession) : Prop :=
  s.toSession = { allocSize := 0, blockSize := 0, dataType := 0, dateMode := 0, recordLength := 0 }

/-- The systems under the two ends, what the C leaves open, and whether the conversation refuses
what the server sends while the client still has records to send. -/
structure Env (V W : Type) where
  client : System V
  server : System W
  /-- What `va_arg` finds where no value is passed. -/
  va : UInt8 → Nat → Nat
  /-- What stands in `errorcode` where it is not set. -/
  garbage : Nat
  halfDuplex : Bool

/-- The two ends, and the records on their way to the client. -/
structure Conn (V W : Type) where
  session : Ftpsession
  localWorld : V
  server : Server W
  responses : List (List UInt8)

namespace Conn

/-- The records of a call are sent and served. The server may answer each, or only the last. -/
def transmit (host : Host) (env : Env V W) : List (List UInt8) → Conn V W → Option (Conn V W)
  | [], c => some c
  | data :: rest, c =>
    if maxBufferSize < data.length then none
    else do
      let (server, sent) ← serve host env.server env.garbage data c.server
      let heard := if rest = [] ∨ env.halfDuplex = false then sent else []
      transmit host env rest { c with server, responses := c.responses ++ heard }

/-- `get_asuiterecord`: the client waits for a record. -/
def receive (c : Conn V W) : Option (Conn V W) :=
  match c.responses with
  | [] => none
  | data :: rest =>
    some { c with
      session := { c.session with record := getAsuiterecord data c.session.record }
      responses := rest }

end Conn

namespace Client

/-! ## Requests and answers -/

/-- A request with names, each with its key and the length that is passed. -/
def nameRequest (host : Host) (rectype : Nat) (names : List (UInt8 × List UInt8 × Nat))
    (record : Record) : Record :=
  names.foldl (fun r (key, name, length) => asuiterecordAppend host r key name (length + 1))
    (asuiterecordSettype host (asuiterecordClear record) rectype)

/-- A request is sent, and a record is received. -/
def exchange (host : Host) (env : Env V W) (rectype : Nat)
    (names : List (UInt8 × List UInt8 × Nat)) (c : Conn V W) : Option (Conn V W) := do
  let record := nameRequest host rectype names c.session.record
  let c := { c with session := { c.session with record } }
  let c ← c.transmit host env [sendAsuiterecord record]
  c.receive

/-- What is done for a key, with the position of the parameter: the return code and the session. -/
abbrev Switch := UInt8 → Nat → Nat × Ftpsession → Nat × Ftpsession

/-- The loop over the parameters of a simple response; any other record is passed over. `limit` is
what `curpos` is compared with. -/
def readAnswer (host : Host) (switch : Switch) (limit : Nat) (c : Conn V W) :
    Option (Nat × Conn V W) := do
  let record := c.session.record
  if getMajorCode record = Libaftp.aftpSimpleResponse then
    let body (curpos : Nat) (a : Nat × Ftpsession) : (Nat × Ftpsession) ⊕ Empty :=
      .inl (switch (getKey record curpos) curpos a)
    match ← scan host record limit body (rcOk, c.session) with
    | .inl (rc, session) => return (rc, { c with session })
  else return (rcOk, c)

/-- `set_primary_msg` -/
def setPrimaryMsg (curpos : Nat) (s : Ftpsession) : Ftpsession :=
  let src := s.record.slice (curpos + 3) Libaftp.msgBufferLength
  { s with primaryMsg := Framework.padded Libaftp.msgBufferLength src }

/-- `case AFTP_STATUS_CATEGORY_INDEX` -/
def takeCategory (host : Host) (curpos : Nat) (s : Ftpsession) : Nat × Ftpsession :=
  (rcFailFatal, { s with
    msgCategory := getCatIndex host s.record (curpos + 3)
    msgIndex := getCatIndex host s.record (curpos + 5) })

/-- The `switch` of the calls, with what is done for the return code. -/
def answerSwitch (host : Host) (returnCode : Nat → Ftpsession → Ftpsession) : Switch :=
  fun key curpos (rc, s) =>
    if key = Libaftp.aftpStatusReturnCode then (rc, returnCode curpos s)
    else if key = Libaftp.aftpStatusCategoryIndex then takeCategory host curpos s
    else if key = Libaftp.aftpStatusPrimaryMsg then (rc, setPrimaryMsg curpos s)
    else (rc, s)

/-- The return code is kept. -/
def takeStatus (curpos : Nat) (s : Ftpsession) : Ftpsession :=
  { s with status := (s.record.buffer (curpos + 3)).toNat }

/-- The `switch` of `aftp_change_dir`, where the category falls through to the message. -/
def changeDirSwitch (host : Host) : Switch :=
  fun key curpos (rc, s) =>
    if key = Libaftp.aftpStatusCategoryIndex then
      let (rc, s) := takeCategory host curpos s
      (rc, setPrimaryMsg curpos s)
    else if key = Libaftp.aftpStatusPrimaryMsg then (rc, setPrimaryMsg curpos s)
    else (rc, s)

/-! ## The calls -/

/-- `aftp_change_dir`. The loop goes on as long as `curpos` is less than the length of the name. -/
def aftpChangeDir (host : Host) (env : Env V W) (directory : List UInt8) (length : Nat)
    (c : Conn V W) : Option (Nat × Conn V W) := do
  let c ← exchange host env Ftp.aftpChangeDir [(aftpFilespec, directory, length)] c
  readAnswer host (changeDirSwitch host) length c

/-- `aftp_create_dir`. The loop goes on as long as `curpos` is less than the length of the name. -/
def aftpCreateDir (host : Host) (env : Env V W) (directory : List UInt8) (length : Nat)
    (c : Conn V W) : Option (Nat × Conn V W) := do
  let c ← exchange host env Ftp.aftpCreateDir [(aftpFilespec, directory, length)] c
  readAnswer host (answerSwitch host fun _ s => s) length c

/-- `aftp_remove_dir` -/
def aftpRemoveDir (host : Host) (env : Env V W) (directory : List UInt8) (length : Nat)
    (c : Conn V W) : Option (Nat × Conn V W) := do
  let c ← exchange host env Ftp.aftpRemoveDir [(aftpFilespec, directory, length)] c
  readAnswer host (answerSwitch host takeStatus) (getReceivedLen c.session.record) c

/-- `aftp_rename` -/
def aftpRename (host : Host) (env : Env V W) (oldfile : List UInt8) (oldlength : Nat)
    (newfile : List UInt8) (newlength : Nat) (c : Conn V W) : Option (Nat × Conn V W) := do
  let c ← exchange host env Ftp.aftpRename
    [(aftpFilespec, oldfile, oldlength), (aftpNewFilespec, newfile, newlength)] c
  readAnswer host (answerSwitch host takeStatus) (getReceivedLen c.session.record) c

/-- `aftp_delete`. The return code is that of the conversation. -/
def aftpDelete (host : Host) (env : Env V W) (filename : List UInt8) (length : Nat)
    (c : Conn V W) : Option (Nat × Conn V W) := do
  let c ← exchange host env Ftp.aftpDelete [(aftpFilespec, filename, length)] c
  let (_, c) ← readAnswer host (fun _ _ a => a) (getReceivedLen c.session.record) c
  return (rcOk, c)

/-- `aftp_send_file`. One record is received at the end, and the return code is that of the
conversation. -/
def aftpSendFile (host : Host) (env : Env V W) (localFile : List UInt8) (localFileLength : Nat)
    (remoteFile : List UInt8) (remoteFileLength : Nat) (c : Conn V W) :
    Option (Nat × Conn V W) := do
  match env.client.openRead localFile c.localWorld with
  | (.error _, v) => return (rcFailFatal, { c with localWorld := v })
  | (.ok fd, v) =>
    let record := sendFileRecord host env.va c.session.toSession localFile localFileLength
      remoteFile remoteFileLength c.session.record
    let (record', v, sent) := sendOpenFile host env.client fd record v
    let c := { c with session := { c.session with record := record' }, localWorld := v }
    let c ← c.transmit host env (sendAsuiterecord record :: sent)
    let c ← c.receive
    let (_, c) ← readAnswer host (fun _ _ a => a) (getReceivedLen c.session.record) c
    return (rcOk, c)

/-- The loop of `aftp_receive_file`, over the records on their way: the return code, the session,
the system, and the records that are left. The outcome of `write` is not looked at. -/
def receiveLoop (host : Host) (sys : System V) (fd : Nat) :
    List (List UInt8) → Ftpsession → V → Option (Nat × Ftpsession × V × List (List UInt8))
  | [], _, _ => none
  | data :: rest, s, v => do
    let record := getAsuiterecord data (asuiterecordClear s.record)
    let s := { s with record }
    match getMajorCode record with
    | 1 =>
      let body (curpos : Nat) (_ : Unit) : Unit ⊕ Unit :=
        if getKey record curpos = Libaftp.aftpStatusReturnCode then .inl () else .inr ()
      match ← scan host record (getReceivedLen record) body () with
      | .inr () => return (rcFailInputError, s, v, rest)
      | .inl () => receiveLoop host sys fd rest s v
    | 12 =>
      let body (_ : Nat) (_ : Unit) : Unit ⊕ Empty := .inl ()
      let _ ← scan host record (getReceivedLen record) body ()
      receiveLoop host sys fd rest s v
    | 14 =>
      let v := (sys.write fd (record.slice 2 (record.position - 2)) v).2
      receiveLoop host sys fd rest s v
    | 15 => return (rcOk, s, (sys.close fd v).2, rest)
    | _ => receiveLoop host sys fd rest s v

/-- `aftp_receive_file` -/
def aftpReceiveFile (host : Host) (env : Env V W) (localFile : List UInt8) (localFileLength : Nat)
    (remoteFile : List UInt8) (remoteFileLength : Nat) (c : Conn V W) :
    Option (Nat × Conn V W) := do
  match env.client.openWrite localFile c.localWorld with
  | (.error _, v) => return (rcFailFatal, { c with localWorld := v })
  | (.ok fd, v) =>
    let record := requestFileRecord host env.va c.session.toSession localFile localFileLength
      remoteFile remoteFileLength c.session.record
    let c := { c with session := { c.session with record } }
    let c ← c.transmit host env [sendAsuiterecord record]
    let (rc, session, v, responses) ← receiveLoop host env.client fd c.responses c.session v
    return (rc, { c with session, localWorld := v, responses })

end Client

/-! ## Sessions -/

/-- A name: a C string with a character at least. -/
structure FileName where
  bytes : List UInt8
  nonempty : bytes ≠ []
  nonzero : 0 ∉ bytes
  deriving DecidableEq

/-- The length that goes with a name. -/
def FileName.length (name : FileName) : Nat := name.bytes.length

/-- The operations of a session. -/
inductive Operation where
  | changeDir (directory : FileName)
  | createDir (directory : FileName)
  | removeDir (directory : FileName)
  | delete (filename : FileName)
  | rename (oldfile newfile : FileName)
  | sendFile (localFile remoteFile : FileName)

/-- The call of an operation: its return code, and where it leads. -/
def Operation.call (host : Host) (env : Env V W) (c : Conn V W) :
    Operation → Option (Nat × Conn V W)
  | changeDir d => Client.aftpChangeDir host env d.bytes d.length c
  | createDir d => Client.aftpCreateDir host env d.bytes d.length c
  | removeDir d => Client.aftpRemoveDir host env d.bytes d.length c
  | delete f => Client.aftpDelete host env f.bytes f.length c
  | rename f g => Client.aftpRename host env f.bytes f.length g.bytes g.length c
  | sendFile f g => Client.aftpSendFile host env f.bytes f.length g.bytes g.length c

end LinuxSna.Asuite.Ftp
