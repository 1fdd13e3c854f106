import Mathlib

/-!
# The telnet stream of libtnX

`tnX_stream.c`: the host side of a TN3270 stream. `telnet_stream_accept` is the
only place where a stream comes to be and it sets `status` to `HOST`, so the
branches for a stream that is not `HOST` (`telnet_stream_do_verb`,
`telnet_stream_sb`) are not here.

What the kernel does is a parameter: `Send` is the result of `send` on the
socket given what was sent before, and an `Arrival` is what
`telnet_stream_get_next` will report during one call of the receiver. The
local variable `verb` of `telnet_stream_get_byte` is not initialised, and
`Arrival.stack` says what it holds on entry.
-/

namespace LinuxSna.TnX

/-!
## Buffers and records of libtnX

`tnX_buffer.c` and `tnX_record.c`. A buffer carries the bound that keeps
`tnX_buffer_append_byte` inside the memory it allocated; the circular list of
records is the list of its elements from the head. Counters that are `int` in
the source are natural numbers, and an allocation never fails (`g_malloc`
aborts, and nothing checks `malloc` here).
-/

/-- `BUFFER_DELTA` -/
def bufferDelta : Nat := 128

/-- `tnXbuff`: the bytes in use and the size of the memory they are in. -/
structure Buffer where
  data : List UInt8
  allocated : Nat
  /-- Bytes in use lie inside the allocated memory. -/
  fits : data.length ≤ allocated

namespace Buffer

theorem empty_fits : 0 ≤ 0 := Nat.le_refl 0

/-- `tnX_buffer_init`, and the buffer that `tnX_buffer_free` leaves. -/
def empty : Buffer := ⟨[], 0, empty_fits⟩

/-- The size after `tnX_buffer_append_byte` has made room for one more byte. -/
def grown (b : Buffer) : Nat :=
  if b.data.length + 1 ≥ b.allocated then
    if b.allocated = 0 then bufferDelta else b.allocated + bufferDelta
  else b.allocated

theorem lt_grown (b : Buffer) : b.data.length < b.grown := by
  have := b.fits
  simp only [grown, bufferDelta]
  split
  · split <;> omega
  · omega

/-- `tnX_buffer_append_byte` -/
def appendByte (b : Buffer) (c : UInt8) : Buffer where
  data := b.data ++ [c]
  allocated := b.grown
  fits := by
    have := b.lt_grown
    simp only [List.length_append, List.length_singleton]
    omega

@[simp] theorem data_empty : empty.data = [] := rfl

@[simp] theorem data_appendByte (b : Buffer) (c : UInt8) : (b.appendByte c).data = b.data ++ [c] :=
  rfl

/-- `tnX_buffer_append_data` -/
def appendData (b : Buffer) (cs : List UInt8) : Buffer := cs.foldl appendByte b

@[simp] theorem data_appendData (b : Buffer) (cs : List UInt8) :
    (b.appendData cs).data = b.data ++ cs := by
  induction cs generalizing b with
  | nil => simp [appendData]
  | cons c cs ih => simpa [appendData] using ih (b.appendByte c)

end Buffer

/-- `tnXrec` -/
structure Record where
  data : Buffer
  curPos : Nat

namespace Record

/-- `tnX_record_new` -/
def new : Record := ⟨Buffer.empty, 0⟩

/-- `tnX_record_append_byte` -/
def appendByte (r : Record) (c : UInt8) : Record := { r with data := r.data.appendByte c }

/-- The bytes of a record. -/
def bytes (r : Record) : List UInt8 := r.data.data

@[simp] theorem bytes_new : new.bytes = [] := rfl

@[simp] theorem bytes_appendByte (r : Record) (c : UInt8) :
    (r.appendByte c).bytes = r.bytes ++ [c] := rfl

@[simp] theorem curPos_appendByte (r : Record) (c : UInt8) : (r.appendByte c).curPos = r.curPos :=
  rfl

end Record

/-- `tnX_record_list_add`: the record goes before the head of the circular
list, which is its end. -/
def recordListAdd (list : List Record) (record : Record) : List Record := list ++ [record]

/-! ## Telnet codes -/

def eor : UInt8 := 239
def se : UInt8 := 240
def sb : UInt8 := 250
def verbWill : UInt8 := 251
def verbWont : UInt8 := 252
def verbDo : UInt8 := 253
def verbDont : UInt8 := 254
def iac : UInt8 := 255

def transmitBinary : UInt8 := 0
def terminalType : UInt8 := 24
def endOfRecord : UInt8 := 25
def newEnviron : UInt8 := 39

def recvBinary : Int := 1
def sendBinary : Int := 2
def recvEor : Int := 4
def sendEor : Int := 8

/-- `SB_Str_NewEnv`: `IAC SB NEW_ENVIRON SEND USERVAR "IBMRSEED" 0 .. 7 VAR USERVAR IAC SE` -/
def sbStrNewEnv : List UInt8 :=
  [iac, sb, newEnviron, 1, 3, 73, 66, 77, 82, 83, 69, 69, 68, 0, 1, 2, 3, 4, 5, 6, 7, 0, 3, iac, se]

/-- `SB_Str_TermType`: `IAC SB TERMINAL_TYPE SEND IAC SE` -/
def sbStrTermType : List UInt8 := [iac, sb, terminalType, 1, iac, se]

/-! ## The stream -/

/-- `TN5250_STREAM_STATE_*` -/
inductive StreamState where
  | noData
  | data
  | haveIac
  | haveVerb
  | haveSb
  | haveSbIac
  deriving DecidableEq

/-- `TN3270_STREAM`, `TN3270E_STREAM` and `TN5250_STREAM` -/
inductive StreamType where
  | tn3270
  | tn3270e
  | tn5250
  deriving DecidableEq

/-- A call of `telnet_stream_host_verb` or of `telnet_stream_host_sb`. -/
inductive HostCall where
  | hostVerb (verb what : UInt8)
  | hostSb (buf : List UInt8)
  deriving DecidableEq

/-- `tnXstream`, with what was written to its socket by the receiver (`sent`)
and the option calls the receiver made (`calls`), both oldest first. `term` is
the variable `env.TERM` of `config`. -/
structure Stream where
  records : List Record
  currentRecord : Option Record
  recordCount : Nat
  sbBuf : Buffer
  state : StreamState
  streamtype : StreamType
  term : Option (List UInt8)
  sent : List (List UInt8)
  calls : List HostCall

/-- The stream as `streamInit` and `telnet_stream_accept` leave it, before
anything was received. -/
def Stream.accepted : Stream where
  records := []
  currentRecord := none
  recordCount := 0
  sbBuf := Buffer.empty
  state := .data
  streamtype := .tn3270
  term := none
  sent := []
  calls := []

/-- The result of `send` for some data, given what was sent on the socket before. -/
abbrev Send := List (List UInt8) → List UInt8 → Int

/-! ## Options and subnegotiations -/

/-- `send` on the socket of the stream. -/
def Stream.send (send : Send) (s : Stream) (data : List UInt8) : Int × Stream :=
  (send s.sent data, { s with sent := s.sent ++ [data] })

/-- `sendWill` -/
def sendWill (send : Send) (s : Stream) (what : UInt8) : Int × Stream :=
  s.send send [iac, verbWill, what]

/-- The `option` and the result of the writes of `telnet_stream_host_verb`. -/
def hostVerbReply (send : Send) (s : Stream) (verb what : UInt8) : Int × Int × Stream :=
  if verb = verbDo then
    if what = endOfRecord then (sendEor, 0, s)
    else if what = transmitBinary then (sendBinary, 0, s)
    else (0, 0, s)
  else if verb = verbWill then
    if what = newEnviron then (0, s.send send sbStrNewEnv)
    else if what = terminalType then (0, s.send send sbStrTermType)
    else if what = endOfRecord then (recvEor, sendWill send s what)
    else if what = transmitBinary then (recvBinary, sendWill send s what)
    else (0, 0, s)
  else (0, 0, s)

/-- `telnet_stream_host_verb` -/
def hostVerb (send : Send) (s : Stream) (verb what : UInt8) : Int × Stream :=
  let (option, retval, s) :=
    hostVerbReply send { s with calls := s.calls ++ [.hostVerb verb what] } verb what
  (if retval < 0 then retval else option, s)

/-- The value that `telnet_stream_host_sb` gives to the variable `TERM`: the
bytes after the option and the `IS` that is assumed to follow it, up to an IAC,
as a C string. -/
def termValue (buf : List UInt8) : List UInt8 :=
  ((buf.drop 2).takeWhile (· ≠ iac)).takeWhile (· ≠ 0)

/-- `telnet_stream_host_sb` -/
def hostSb (s : Stream) (buf : List UInt8) : Stream :=
  let s := { s with calls := s.calls ++ [.hostSb buf] }
  match buf with
  | [] => s
  | sbType :: _ => if sbType = terminalType then { s with term := some (termValue buf) } else s

/-! ## Receiving -/

/-- How one pass through the body of the loop of `telnet_stream_get_byte`
ends: by a `return`, or at the loop's condition. -/
inductive Pass where
  | ret (c : Int) (s : Stream)
  | fall (temp : Int) (verb : UInt8) (s : Stream)

/-- The loop of `telnet_stream_get_byte` turns the state `NO_DATA` into `DATA`
before it reads. -/
def Stream.enterData (s : Stream) : Stream :=
  if s.state = .noData then { s with state := .data } else s

/-- The `switch` of `telnet_stream_get_byte`, on a byte that was read. -/
def getBytePass (send : Send) (s : Stream) (verb temp : UInt8) : Pass :=
  match s.state with
  | .noData | .data =>
    if temp = iac then .fall temp.toNat verb { s with state := .haveIac }
    else .fall temp.toNat verb s
  | .haveIac =>
    if temp = iac then .fall temp.toNat verb { s with state := .data }
    else if temp = verbDo ∨ temp = verbDont ∨ temp = verbWill ∨ temp = verbWont then
      .fall temp.toNat temp { s with state := .haveVerb }
    else if temp = sb then .fall temp.toNat verb { s with state := .haveSb, sbBuf := Buffer.empty }
    else if temp = eor then .ret (-(endOfRecord.toNat : Int)) { s with state := .data }
    else .fall temp.toNat verb { s with state := .noData }
  | .haveVerb =>
    let (temp, s) := hostVerb send s verb temp
    if temp < 0 then .ret (-2) s else .fall temp verb { s with state := .noData }
  | .haveSb =>
    if temp = iac then .fall temp.toNat verb { s with state := .haveSbIac }
    else .fall temp.toNat verb { s with sbBuf := s.sbBuf.appendByte temp }
  | .haveSbIac =>
    if temp = iac then .fall temp.toNat verb { s with sbBuf := s.sbBuf.appendByte iac }
    else if temp = se then
      .fall temp.toNat verb { hostSb s s.sbBuf.data with sbBuf := Buffer.empty, state := .noData }
    else .fall temp.toNat verb { s with state := .haveSb }

/-- `telnet_stream_get_byte`, on the bytes that wait on the socket: what it
returns, the stream, and the bytes it did not read. Once the bytes are used up
`telnet_stream_get_next` returns `-1`, or `-2` if the peer hung up. -/
def getByte (send : Send) (hangup : Bool) :
    List UInt8 → UInt8 → Stream → Int × Stream × List UInt8
  | [], _, s => (if hangup then -2 else -1, s.enterData, [])
  | b :: bytes, verb, s =>
    match getBytePass send s.enterData verb b with
    | .ret c s => (c, s, bytes)
    | .fall temp verb s =>
      if s.state = .data then (temp, s, bytes) else getByte send hangup bytes verb s

/-- A call of `telnet_stream_get_byte` that does not end the receiver's loop
has read something. -/
theorem getByte_rest_lt (send : Send) (hangup : Bool) :
    ∀ (bytes : List UInt8) (verb : UInt8) (s : Stream),
      (getByte send hangup bytes verb s).1 = -1 ∨ (getByte send hangup bytes verb s).1 = -2 ∨
      (getByte send hangup bytes verb s).2.2.length < bytes.length
  | [], _, _ => by cases hangup <;> simp [getByte]
  | b :: bytes, verb, s => by
    simp only [getByte]
    split
    · simp
    · split
      · simp
      · rename_i temp verb' s' _ _
        have := getByte_rest_lt send hangup bytes verb' s'
        simp only [List.length_cons]
        omega

/-- The body of the loop of `telnet_stream_handle_receive`: what is done with
a value of `telnet_stream_get_byte`. -/
def Stream.onByte (s : Stream) (c : Int) : Stream :=
  match s.currentRecord with
  | some r =>
    if c = -(endOfRecord.toNat : Int) then
      { s with
        records := recordListAdd s.records r
        currentRecord := none
        recordCount := s.recordCount + 1 }
    else { s with currentRecord := some (r.appendByte (UInt8.ofInt c)) }
  | none => { s with currentRecord := some (Record.new.appendByte (UInt8.ofInt c)) }

/-- What waits on the socket during one call of the receiver: the bytes,
whether the peer has hung up after them, and what the local variable `verb` of
the `n`-th call of `telnet_stream_get_byte` happens to hold. -/
structure Arrival where
  bytes : List UInt8
  hangup : Bool
  stack : Nat → UInt8

/-- The loop of `telnet_stream_handle_receive`, from the `n`-th call of
`telnet_stream_get_byte` on. -/
def handleReceiveLoop (send : Send) (a : Arrival) (n : Nat) (s : Stream) (bytes : List UInt8) :
    Bool × Stream :=
  let c := (getByte send a.hangup bytes (a.stack n) s).1
  let s' := (getByte send a.hangup bytes (a.stack n) s).2.1
  if h : c = -1 ∨ c = -2 then (c ≠ -2, s')
  else handleReceiveLoop send a (n + 1) (s'.onByte c) (getByte send a.hangup bytes (a.stack n) s).2.2
termination_by bytes.length
decreasing_by
  have := getByte_rest_lt send a.hangup bytes (a.stack n) s
  omega

/-- `telnet_stream_handle_receive` -/
def handleReceive (send : Send) (s : Stream) (a : Arrival) : Bool × Stream :=
  handleReceiveLoop send a 0 s a.bytes

/-- The receiver called for one arrival after another, until it returns 0 and
the session is closed. -/
def receiveAll (send : Send) : Stream → List Arrival → Bool × Stream
  | s, [] => (true, s)
  | s, a :: as =>
    match handleReceive send s a with
    | (true, s) => receiveAll send s as
    | (false, s) => (false, s)

/-! ## Records -/

/-- `tnX_stream_get_record`; `none` where an assertion aborts the process. -/
def getRecord (s : Stream) : Option (Record × Stream) :=
  match s.records with
  | [] => none
  | record :: records =>
    if s.recordCount < 1 then none
    else
      let s := { s with records := records, recordCount := s.recordCount - 1 }
      if s.streamtype = .tn5250 then
        if record.bytes.length < 10 then none
        else some ({ record with curPos := 6 + (record.bytes.getD 6 0).toNat }, s)
      else some ({ record with curPos := 0 }, s)

/-- The records that `n` calls of `tnX_stream_get_record` return. -/
def getRecords : Nat → Stream → Option (List Record)
  | 0, _ => some []
  | n + 1, s => (getRecord s).bind fun (r, s) => (getRecords n s).map (r :: ·)

/-! ## Sending -/

/-- `telnet_stream_escape` -/
def escape (inb : Buffer) : Buffer :=
  inb.data.foldl (fun out c =>
    let out := out.appendByte c
    if c = iac then out.appendByte iac else out) Buffer.empty

/-- One round of the loop of `telnet_stream_write`: `select` or `send` is to be
tried again, `send` took `n` bytes, or an error ends the process. -/
inductive WriteRound where
  | again
  | sent (n : Nat)
  | failed

/-- `telnet_stream_write`: the bytes that were put on the connection when it
returns, if it does after these rounds. -/
def telnetStreamWrite : List WriteRound → List UInt8 → Option (List UInt8)
  | [], _ => none
  | .failed :: _, _ => none
  | .again :: rounds, data => if data = [] then some [] else telnetStreamWrite rounds data
  | .sent n :: rounds, data =>
    if data.drop n = [] then some (data.take n)
    else (telnetStreamWrite rounds (data.drop n)).map (data.take n ++ ·)

/-- `tn3270_stream_send_packet`: what it puts on the connection. -/
def sendPacket (rounds : List WriteRound) (data : List UInt8) : Option (List UInt8) :=
  let outBuf := Buffer.empty.appendData data
  let outBuf := escape outBuf
  let outBuf := (outBuf.appendByte iac).appendByte eor
  telnetStreamWrite rounds outBuf.data

/-- The bytes on the connection after one packet after another. -/
def sendPackets : List (List WriteRound × List UInt8) → Option (List UInt8)
  | [] => some []
  | (rounds, data) :: ps =>
    (sendPacket rounds data).bind fun wire => (sendPackets ps).map (wire ++ ·)

end LinuxSna.TnX
