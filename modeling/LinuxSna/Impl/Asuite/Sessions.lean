import LinuxSna.Framework.Chain
import LinuxSna.Impl.Asuite.Ftp.Records

/-!
# The sessions of a process

The table of `libaftp.c`, and what its functions make of a handle: `aftp_create`, `aftp_destroy`, and
those that take a handle and have an effect on its session alone. `none` is where the C has no
meaning: a slot behind the table is written or read, or a session is used that is not allocated.
-/

namespace LinuxSna.Asuite.Sessions

open Framework Ftp

/-- `MAX_FTP_SESSIONS` -/
def maxFtpSessions : Nat := 20

/-- `AFTP_RC_PARAMETER_CHECK` -/
def rcParameterCheck : Nat := 11

/-- `AFTP_RC_HANDLE_NOT_VALID` -/
def rcHandleNotValid : Nat := 12

/-- `AFTP_RC_STATE_CHECK` -/
def rcStateCheck : Nat := 13

/-! ## Sessions -/

/-- What the user of a session sets, and can ask for. -/
structure Settings where
  symbolic : Bool
  destination : List UInt8
  modeName : List UInt8
  tpName : List UInt8
  password : List UInt8
  userid : List UInt8
  sysInfo : List UInt8
  allocSize : Nat
  blockSize : Nat
  dataType : Nat
  dateMode : Nat
  recordFormat : Nat
  recordLength : Nat
  securityType : Nat
  writeMode : Nat
  currentDirectory : List UInt8
  deriving DecidableEq

/-- `ftpsession`: the settings, and the rest: the conversation, its record, and what the last answer
said. -/
structure Ftpsession (R : Type) where
  settings : Settings
  rest : R

/-- The session that `aftp_create` makes of what stands in memory: `DEFAULT_MODE_NAME` is `"#BATCH"`,
`DEFAULT_TP_NAME` is `"AFTPD"` and `OS_NAME` is `"Linux"`. -/
def Ftpsession.create {R : Type} (memory : Ftpsession R) (currentDirectory : List UInt8) :
    Ftpsession R :=
  { memory with
    settings :=
      { memory.settings with
        symbolic := true
        destination := []
        modeName := [35, 66, 65, 84, 67, 72]
        tpName := [65, 70, 84, 80, 68]
        sysInfo := [76, 105, 110, 117, 120]
        allocSize := 0
        blockSize := 0
        dataType := 0
        dateMode := 0
        recordFormat := 0
        recordLength := 0
        securityType := 0
        writeMode := 0
        currentDirectory := currentDirectory } }

/-! ## The functions -/

/-- `aftp_set_*`, with the value. -/
inductive Setter where
  | allocationSize (n : Nat)
  | blockSize (n : Nat)
  | dataType (n : Nat)
  | dateMode (n : Nat)
  | destination (name : List UInt8)
  | modeName (name : List UInt8)
  | password (name : List UInt8)
  | recordFormat (n : Nat)
  | recordLength (n : Nat)
  | securityType (n : Nat)
  | tpName (name : List UInt8)
  | userid (name : List UInt8)
  | writeMode (n : Nat)

/-- `aftp_extract_*`: a number, or a name with the size of the buffer for it. -/
inductive Extract where
  | number
  | destination (size : Nat)
  | modeName (size : Nat)
  | partnerLuName (size : Nat)
  | password (size : Nat)
  | tpName (size : Nat)
  | userid (size : Nat)

/-- The functions that talk to the server. -/
inductive Remote where
  | changeDir
  | close
  | connect
  | createDir
  | delete
  | dirOpen
  | dirRead
  | queryCurrentDir
  | querySystemInfo
  | receiveFile
  | removeDir
  | rename
  | sendFile

/-- The functions that do not look at their handle. -/
inductive Heedless where
  | dirClose
  | extractConnectionInfo
  | localDirClose
  | localDirOpen
  | localDirRead
  | queryBytesTransferred
  | setConnectionInfo

/-- A function with a handle. -/
inductive Operation (R : Type) where
  | set (setter : Setter)
  | extract (extract : Extract)
  /-- `aftp_change_dir` and so on, with what the conversation makes of the return code, if it is set,
  and of the session. -/
  | remote (remote : Remote) (talk : Ftpsession R → Option Nat × R)
  | heedless (heedless : Heedless)
  /-- `aftp_format_error` -/
  | formatError
  /-- `aftp_local_change_dir`, with what `chdir`, and then `getcwd`, answers. -/
  | localChangeDir (chdir : Bool) (getcwd : Option (List UInt8))
  /-- `aftp_local_query_current_dir` -/
  | localQueryCurrentDir
  /-- `aftp_query_local_system_info` -/
  | queryLocalSystemInfo

/-- A name that is not longer than its field is set. -/
def setName (size : Nat) (name : List UInt8) (f : Settings → Settings) (s : Settings) :
    Option Nat × Settings :=
  if name.length ≤ size then (some rcOk, f s) else (some rcParameterCheck, s)

/-- What a function makes of the settings, and the return code, if it sets it. -/
def Setter.run : Setter → Settings → Option Nat × Settings
  | allocationSize n, s => (some rcOk, { s with allocSize := n })
  | blockSize n, s => (some rcOk, { s with blockSize := n })
  | dataType n, s => (some rcOk, { s with dataType := n })
  | dateMode n, s => (some rcOk, { s with dateMode := n })
  | destination name, s =>
    if 46 ∈ name then
      setName 17 name (fun s => { s with destination := name, symbolic := false }) s
    else
      setName 8 name (fun s => { s with
        destination := name ++ List.replicate (8 - name.length) 32
        symbolic := true }) s
  | modeName name, s => setName 8 name (fun s => { s with modeName := name }) s
  | password name, s => setName 10 name (fun s => { s with password := name }) s
  | recordFormat n, s => (some rcOk, { s with recordFormat := n })
  | recordLength n, s => (some rcOk, { s with recordLength := n })
  | securityType n, s => (none, { s with securityType := n })
  | tpName name, s => setName 64 name (fun s => { s with tpName := name }) s
  | userid name, s => setName 10 name (fun s => { s with userid := name }) s
  | writeMode n, s => (none, { s with writeMode := n })

/-- The return code for a name that is asked for. -/
def extractName (size : Nat) (name : List UInt8) : Nat :=
  if name.length > 0 then if name.length ≤ size then rcOk else rcParameterCheck else rcStateCheck

/-- The return code of a function that extracts a setting. -/
def Extract.run : Extract → Settings → Nat
  | number, _ => rcOk
  | destination size, s => extractName size s.destination
  | modeName size, s => extractName size s.modeName
  | partnerLuName size, s => extractName size s.destination
  | password size, s => extractName size s.password
  | tpName size, s => extractName size s.tpName
  | userid size, s => extractName size s.userid

/-- What a function makes of its session. -/
def Operation.run {R : Type} : Operation R → Ftpsession R → Option Nat × Ftpsession R
  | .set f, s =>
    let (rc, settings) := f.run s.settings
    (rc, { s with settings })
  | .extract f, s => (some (f.run s.settings), s)
  | .remote _ talk, s =>
    let (rc, rest) := talk s
    (rc, { s with rest })
  | .heedless _, s => (none, s)
  | .formatError, s => (none, s)
  | .localChangeDir false _, s => (none, s)
  | .localChangeDir true none, s => (some rcFailFatal, s)
  | .localChangeDir true (some directory), s =>
    (some rcOk, { s with settings := { s.settings with currentDirectory := directory } })
  | .localQueryCurrentDir, s => (some rcOk, s)
  | .queryLocalSystemInfo, s => (none, s)

/-- What a function does with its handle before it uses the session. -/
inductive Check where
  /-- It looks whether there is a session, and refuses with a return code if there is none. -/
  | refuses (rc : Nat)
  /-- It goes to the session. -/
  | follows
  /-- It only sets the return code. -/
  | ignores (rc : Nat)

/-- The return code where there is no session. -/
def Setter.refusal : Setter → Nat
  | dataType _ | dateMode _ => rcFailFatal
  | _ => rcHandleNotValid

/-- The return code where there is no session. -/
def Remote.refusal : Remote → Nat
  | dirOpen | receiveFile | removeDir | rename | sendFile => rcFailFatal
  | _ => rcHandleNotValid

/-- The return code of a function that does nothing. -/
def Heedless.rc : Heedless → Nat
  | dirClose => rcOk
  | extractConnectionInfo => rcFailFatal
  | _ => rcProgramInternalError

/-- The check of a function -/
def Operation.check {R : Type} : Operation R → Check
  | .set f => .refuses f.refusal
  | .extract _ => .follows
  | .remote f _ => .refuses f.refusal
  | .heedless f => .ignores f.rc
  | .formatError | .localChangeDir _ _ | .localQueryCurrentDir | .queryLocalSystemInfo =>
    .refuses rcHandleNotValid

/-! ## The process -/

/-- `ftp_handle_counter`, `sessions`, and the memory that sessions are allocated in. -/
structure Process (R : Type) where
  counter : UInt8
  sessions : Nat → Option Nat
  heap : Heap (Ftpsession R)

/-- The memory for a session that `aftp_create` gets: the address that the system has in mind for it,
and what stands there. -/
structure Block (R : Type) where
  hint : Nat
  memory : Ftpsession R

/-- A call of a function of the library. `rc` is what stands in the variable for the return code. -/
inductive Event (R : Type) where
  /-- `aftp_create`, with the memory for the session, if there is any, whether there is some for the
  record, and what `getcwd` answers. -/
  | create (block : Option (Block R)) (record : Bool) (getcwd : Option (List UInt8))
  | destroy (handle : UInt8)
  | call (operation : Operation R) (handle : UInt8) (rc : Nat)

/-- What a call leaves: the return code, the handle, if one is given out, and the process. -/
structure Outcome (R : Type) where
  rc : Nat
  handle : Option UInt8
  process : Process R

namespace Process

variable {R : Type} (s : Process R)

/-- `(index < MAX_FTP_SESSIONS) && (sessions[index] != NULL)` -/
def Has (index : Nat) : Prop := index < maxFtpSessions ∧ s.sessions index ≠ none

instance (index : Nat) : Decidable (s.Has index) := inferInstanceAs (Decidable (_ ∧ _))

/-- `sessions[index]`, and what stands there. -/
def follow (index : Nat) : Option (Nat × Ftpsession R) := do
  if index < maxFtpSessions then
    let p ← s.sessions index
    let session ← s.heap.get p
    return (p, session)
  else none

/-- `aftp_create`. What is done for a session whose record cannot be allocated, is done to freed
memory; one whose directory is not known is freed, and keeps its handle. -/
def aftpCreate (block : Option (Block R)) (record : Bool) (getcwd : Option (List UInt8)) :
    Option (Outcome R) :=
  match block with
  | none => some ⟨rcFailFatal, none, s⟩
  | some block =>
    if s.counter.toNat < maxFtpSessions then
      let p := s.heap.fresh block.hint
      let sessions := Function.update s.sessions s.counter.toNat (some p)
      if record then
        match getcwd with
        | some directory =>
          let heap := s.heap.put p (some (block.memory.create directory))
          some ⟨rcOk, some s.counter, ⟨s.counter + 1, sessions, heap⟩⟩
        | none => some ⟨rcOk, some s.counter, ⟨s.counter + 1, sessions, s.heap.put p none⟩⟩
      else none
    else none

/-- `aftp_destroy`. The slot stays as it is. -/
def aftpDestroy (handle : UInt8) : Option (Outcome R) :=
  if s.Has handle.toNat then do
    let (p, _) ← s.follow handle.toNat
    return ⟨rcOk, none, { s with heap := s.heap.put p none }⟩
  else some ⟨rcHandleNotValid, none, s⟩

/-- A function goes to its session. -/
def use (operation : Operation R) (handle : UInt8) (rc : Nat) : Option (Outcome R) := do
  let (p, session) ← s.follow handle.toNat
  let (rc', session) := operation.run session
  return ⟨rc'.getD rc, none, { s with heap := s.heap.put p (some session) }⟩

/-- A function with a handle -/
def call (operation : Operation R) (handle : UInt8) (rc : Nat) : Option (Outcome R) :=
  match operation.check with
  | .refuses refusal =>
    if s.Has handle.toNat then s.use operation handle rc else some ⟨refusal, none, s⟩
  | .follows => s.use operation handle rc
  | .ignores rc => some ⟨rc, none, s⟩

/-- A call -/
def step : Event R → Option (Outcome R)
  | .create block record getcwd => s.aftpCreate block record getcwd
  | .destroy handle => s.aftpDestroy handle
  | .call operation handle rc => s.call operation handle rc

end Process

end LinuxSna.Asuite.Sessions
