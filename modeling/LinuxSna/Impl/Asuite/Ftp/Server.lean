import LinuxSna.Impl.Asuite.Ftp.Records

/-!
# The AFTP server

`aftpd.c`, but for the listing of directories: each request is a record, the server goes over its
parameters, makes the system calls that the request asks for and answers with records of its own.
`none` is where the C has no meaning: a file name is used that no parameter has set, or the loop
over the parameters stands still.
-/

namespace LinuxSna.Asuite.Ftp

/-!
## The system calls of AFTP

What `aftpd` and `libaftp` ask of the system under them. What it answers is up to the system, and
so is what it keeps from one call to the next: its state is of any type.
-/

/-- `errno`, as far as the programs look at it. -/
inductive Errno where
  | enoent
  | eacces
  | eperm
  | eexist
  | exdev
  | other
  deriving DecidableEq

/-- The system under a program. Where a call fails, it says why. -/
structure System (W : Type) where
  malloc : W → Bool × W
  chdir : List UInt8 → W → Option Errno × W
  mkdir : List UInt8 → W → Option Errno × W
  rmdir : List UInt8 → W → Option Errno × W
  unlink : List UInt8 → W → Option Errno × W
  rename : List UInt8 → List UInt8 → W → Option Errno × W
  /-- `open` with `O_CREAT | O_WRONLY` -/
  openWrite : List UInt8 → W → Except Errno Nat × W
  /-- `open` with `O_RDONLY` -/
  openRead : List UInt8 → W → Except Errno Nat × W
  read : Nat → Nat → W → Except Errno (List UInt8) × W
  write : Nat → List UInt8 → W → Except Errno Nat × W
  close : Nat → W → Option Errno × W
  /-- How much is left of an open file at most. -/
  left : Nat → W → Nat
  /-- A file comes to its end. -/
  read_left (fd n : Nat) (w : W) (data : List UInt8) :
    (read fd n w).1 = .ok data → data ≠ [] → left fd (read fd n w).2 < left fd w
  /-- No more is read than is asked for. -/
  read_le (fd n : Nat) (w : W) (data : List UInt8) :
    (read fd n w).1 = .ok data → data.length ≤ n
  /-- A byte at least is written, of those that there are. -/
  write_pos (fd : Nat) (data : List UInt8) (w : W) (k : Nat) :
    (write fd data w).1 = .ok k → data ≠ [] → 0 < k
  /-- No more is written than is there. -/
  write_le (fd : Nat) (data : List UInt8) (w : W) (k : Nat) :
    (write fd data w).1 = .ok k → k ≤ data.length

namespace System

variable {W : Type} (sys : System W)

/-- `write`, again and again until all is written or one fails; `n` bounds the calls. Whether none
has failed. -/
def writeLoop (fd : Nat) : Nat → List UInt8 → W → Bool × W
  | 0, _, w => (false, w)
  | n + 1, data, w =>
    match sys.write fd data w with
    | (.error _, w) => (false, w)
    | (.ok k, w) => if data.drop k = [] then (true, w) else writeLoop fd n (data.drop k) w

/-- `write` until all is written. Each call takes a byte at least. -/
def writeAll (fd : Nat) (data : List UInt8) (w : W) : Bool × W :=
  sys.writeLoop fd (data.length + 1) data w

end System

/-! ## The server -/

variable {W : Type}

/-- `aftpd`: `dest_file`, if it is not negative, and the record that it receives into. -/
structure Server (W : Type) where
  world : W
  destFile : Option Nat
  record : Record

/-- What a request leads to: the server, and the records that it has sent. -/
abbrev Served (W : Type) := Server W × List (List UInt8)

/-- The names that a request has, in memory of their own, and the data type. -/
structure Filespecs where
  filespec : Option (List UInt8) := none
  newFilespec : Option (List UInt8) := none
  dataType : Nat := 0

/-! ## Parameters -/

/-- The keys that a request may have. -/
structure Keys where
  /-- Names -/
  names : List UInt8
  /-- Keys that are passed over -/
  passed : List UInt8 := []

/-- The body of the loops whose requests have names, each of which is copied: for a key that they
do not know, or if there is no memory, they answer with an error and return. -/
def namesBody (host : Host) (sys : System W) (record : Record) (keys : Keys) (curpos : Nat)
    (a : W × Filespecs) : (W × Filespecs) ⊕ (W × List UInt8) :=
  let key := getKey record curpos
  if key ∈ keys.names then
    match sys.malloc a.1 with
    | (true, w) =>
      if key = aftpFilespec then
        .inl (w, { a.2 with filespec := some (stringAt record (curpos + 3)) })
      else .inl (w, { a.2 with newFilespec := some (stringAt record (curpos + 3)) })
    | (false, w) => .inr (w, simpleResponse host rcProgramInternalError 0 aErrOutOfMemory)
  else if key ∈ keys.passed then
    if key = aftpDataType then
      .inl (a.1, { a.2 with dataType := (record.buffer (curpos + 3)).toNat })
    else .inl a
  else .inr (a.1, simpleResponse host rcProgramInternalError 0 aErrUnknownParameter)

/-- The loop over the parameters of a request with names, and what is done after it. -/
def withNames (host : Host) (sys : System W) (keys : Keys) (s : Server W)
    (operation : Filespecs → Server W → Option (Served W)) : Option (Served W) := do
  match ← scan host s.record (getReceivedLen s.record) (namesBody host sys s.record keys)
      (s.world, {}) with
  | .inr (w, response) => some ({ s with world := w }, [response])
  | .inl (w, specs) => operation specs { s with world := w }

/-! ## Answers -/

/-- The `switch` on `errno`: what is not in the table is an action that is not performed. -/
def errorcode (table : List (Errno × Nat)) (errno : Errno) : Nat :=
  (table.lookup errno).getD aErrActionNotPerformed

/-- The answer to a request, with the outcome of the system call that it asks for. -/
def answer (host : Host) (table : List (Errno × Nat)) : Option Errno → List UInt8
  | none => simpleResponse host rcOk 0 0
  | some errno => simpleResponse host rcFailInputError 0 (errorcode table errno)

/-- The system call for one name, and the answer. -/
def oneName (host : Host) (call : List UInt8 → W → Option Errno × W) (table : List (Errno × Nat))
    (specs : Filespecs) (s : Server W) : Option (Served W) := do
  let filespec ← specs.filespec
  let (outcome, w) := call filespec s.world
  return ({ s with world := w }, [answer host table outcome])

/-! ## The requests -/

/-- The body of the loop of `a_change_dir`. The memory for the name is not checked; `none` is a
copy to no memory. -/
def changeDirBody (host : Host) (sys : System W) (record : Record) (curpos : Nat) (w : W) :
    W ⊕ Option (W × List UInt8) :=
  if getKey record curpos = aftpFilespec then
    match sys.malloc w with
    | (false, _) => .inr none
    | (true, w) =>
      match sys.chdir (stringAt record (curpos + 3)) w with
      | (none, w) => .inl w
      | (some errno, w) =>
        .inr (some (w, answer host [(.enoent, aErrFileNotFound)] (some errno)))
  else .inl w

/-- `a_change_dir`. The good answer is made in the record that has been received. -/
def aChangeDir (host : Host) (sys : System W) (s : Server W) : Option (Served W) := do
  match ← scan host s.record (getReceivedLen s.record) (changeDirBody host sys s.record)
      s.world with
  | .inr exit =>
    let (w, response) ← exit
    return ({ s with world := w }, [response])
  | .inl w =>
    let r :=
      asuiterecordSettype host (asuiterecordClear s.record) Libaftp.aftpSimpleResponse
    let r := asuiterecordAppendChar host r Libaftp.aftpStatusReturnCode 0
    return ({ s with world := w, record := r }, [sendAsuiterecord r])

/-- `a_delete` -/
def aDelete (host : Host) (sys : System W) (s : Server W) : Option (Served W) :=
  withNames host sys { names := [aftpFilespec] } s <|
    oneName host sys.unlink
      [(.enoent, aErrFileNotFound), (.eperm, aErrAccessDenied), (.eacces, aErrAccessDenied)]

/-- `a_create_dir` -/
def aCreateDir (host : Host) (sys : System W) (s : Server W) : Option (Served W) :=
  withNames host sys { names := [aftpFilespec] } s <|
    oneName host sys.mkdir [(.eexist, aErrFileExists), (.eacces, aErrAccessDenied)]

/-- `a_remove_dir` -/
def aRemoveDir (host : Host) (sys : System W) (s : Server W) : Option (Served W) :=
  withNames host sys { names := [aftpFilespec] } s <|
    oneName host sys.rmdir
      [(.eexist, aErrFileExists), (.enoent, aErrFileNotFound), (.eperm, aErrAccessDenied),
        (.eacces, aErrAccessDenied)]

/-- `a_rename` -/
def aRename (host : Host) (sys : System W) (s : Server W) : Option (Served W) :=
  withNames host sys { names := [aftpFilespec, aftpNewFilespec] } s fun specs s => do
    let filespec ← specs.filespec
    let newFilespec ← specs.newFilespec
    let (outcome, w) := sys.rename filespec newFilespec s.world
    return ({ s with world := w }, [answer host
      [(.eexist, aErrFileExists), (.exdev, aErrCrossDevices), (.enoent, aErrFileNotFound),
        (.eperm, aErrAccessDenied), (.eacces, aErrAccessDenied)] outcome])

/-- The keys of the requests for files. -/
def fileRequestKeys : Keys where
  names := [aftpFilespec, aftpNewFilespec]
  passed := aftpDataType :: Aftpd.fileKeys

/-- `a_send_file`. The file that is opened is `filespec`; there is an answer only if that fails. -/
def aSendFile (host : Host) (sys : System W) (s : Server W) : Option (Served W) :=
  withNames host sys fileRequestKeys s fun specs s => do
    let filespec ← specs.filespec
    let _ ← specs.newFilespec
    match sys.openWrite filespec s.world with
    | (.ok fd, w) => return ({ s with world := w, destFile := some fd }, [])
    | (.error errno, w) =>
      return ({ s with world := w, destFile := none },
        [answer host [(.eperm, aErrAccessDenied), (.eacces, aErrAccessDenied)] (some errno)])

/-- `a_file_data`: there is an answer only if a `write` fails. -/
def aFileData (host : Host) (sys : System W) (s : Server W) : Served W :=
  match s.destFile with
  | none => (s, [answer host [] (some .other)])
  | some fd =>
    match sys.writeAll fd (s.record.slice 2 (s.record.position - 2)) s.world with
    | (true, w) => ({ s with world := w }, [])
    | (false, w) => ({ s with world := w }, [answer host [] (some .other)])

/-- `a_file_complete`. The number of the file stays as it was. -/
def aFileComplete (host : Host) (sys : System W) (s : Server W) : Served W :=
  match s.destFile with
  | none => (s, [answer host [] (some .other)])
  | some fd =>
    match sys.close fd s.world with
    | (outcome, w) => ({ s with world := w }, [answer host [] outcome])

/-! ## Sending a file -/

/-- `AFTP_FILE_DATA` -/
def aftpFileData : Nat := 14

/-- `AFTP_FILE_COMPLETE` -/
def aftpFileComplete : Nat := 15

/-- The loop that reads a file into records of `AFTP_FILE_DATA` and sends them, until there is
nothing more or a `read` fails; `n` bounds its passes. The position is set back before it is used
again. -/
def readLoop (sys : System W) (fd : Nat) : Nat → Record → W → Record × W × List (List UInt8)
  | 0, record, w => (record, w, [])
  | n + 1, record, w =>
    match sys.read fd (maxBufferSize - record.position) w with
    | (.error _, w) => (record, w, [])
    | (.ok data, w) =>
      if data = [] then (record, w, [])
      else
        let record := record.puts data
        let (record', w, sent) := readLoop sys fd n (asuiterecordClear record) w
        (record', w, sendAsuiterecord record :: sent)

/-- A file that has been opened is sent and closed: its data, and the record that says that it is
complete. -/
def sendOpenFile (host : Host) (sys : System W) (fd : Nat) (record : Record) (w : W) :
    Record × W × List (List UInt8) :=
  let r := asuiterecordSettype host (asuiterecordClear record) aftpFileData
  let (r, w, sent) := readLoop sys fd (sys.left fd w + 1) r w
  let w := (sys.close fd w).2
  let r := asuiterecordSettype host (asuiterecordClear r) aftpFileComplete
  (r, w, sent ++ [sendAsuiterecord r])

/-- The last part of a path: `g_basename`. -/
def gBasename (path : List UInt8) : List UInt8 := (path.reverse.takeWhile (· ≠ 47)).reverse

/-- `a_request_file`. The error code of an `errno` that is not in the table is what stands on the
stack, `garbage`; the length that goes with the last part of the name is that of the whole name. -/
def aRequestFile (host : Host) (sys : System W) (garbage : Nat) (s : Server W) :
    Option (Served W) :=
  withNames host sys fileRequestKeys s fun specs s => do
    let filespec ← specs.filespec
    let _ ← specs.newFilespec
    match sys.openRead filespec s.world with
    | (.error errno, w) =>
      let index := ([(Errno.enoent, aErrFileNotFound), (.eacces, aErrAccessDenied)].lookup
        errno).getD garbage
      return ({ s with world := w }, [simpleResponse host rcFailInputError 0 index])
    | (.ok fd, w) =>
      let r := asuiterecordSettype host (asuiterecordClear s.record) aftpSendFile
      let r := asuiterecordAppend host r aftpFilespec (gBasename filespec) (filespec.length + 1)
      let r := asuiterecordAppendChar host r aftpDataType (UInt8.ofNat specs.dataType)
      let (r', w, sent) := sendOpenFile host sys fd r w
      return ({ s with world := w, record := r' }, sendAsuiterecord r :: sent)

/-! ## The `switch` of `main` -/

/-- What is done for a major code. The requests that are not modelled here, and the codes that the
server does not know, are left out. -/
def mainSwitch (host : Host) (sys : System W) (garbage : Nat) (majorCode : Nat) (s : Server W) :
    Option (Served W) :=
  match majorCode with
  | 6 => aChangeDir host sys s
  | 8 => aCreateDir host sys s
  | 9 => aRemoveDir host sys s
  | 10 => aDelete host sys s
  | 11 => aRename host sys s
  | 12 => aSendFile host sys s
  | 13 => aRequestFile host sys garbage s
  | 14 => some (aFileData host sys s)
  | 15 => some (aFileComplete host sys s)
  | _ => none

/-- The server once it has received a record. -/
def Server.received (data : List UInt8) (s : Server W) : Server W :=
  { s with record := getAsuiterecord data s.record }

/-- A record is received and served. -/
def serve (host : Host) (sys : System W) (garbage : Nat) (data : List UInt8) (s : Server W) :
    Option (Served W) :=
  mainSwitch host sys garbage (getMajorCode (s.received data).record) (s.received data)

end LinuxSna.Asuite.Ftp
