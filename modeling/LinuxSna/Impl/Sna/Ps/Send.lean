import LinuxSna.Impl.Sna.Ps.Receive

/-!
# Send_Data

What the program sends is queued on `write_queue`. Send_Data takes one buffer off
the queue, checks its logical records, and hands it on to be cut into MUs for the
half-session.
-/

namespace LinuxSna.Ps

open Framework (loop)

/-! ## `sna_ps_conv_validate_logical_records` -/

/-- The start of a record of so many bytes. -/
def LlTx.start (size : Nat) (h : size < 2 ^ 16) : LlTx :=
  { state := .incomplete
    recSize := size
    recBytes := 0
    le := Nat.zero_le _
    lt := h }

/-- More bytes of a record are counted, and it does not end with them. -/
def LlTx.count (l : LlTx) (n : Nat) (h : n + l.recBytes < l.recSize) : LlTx :=
  { l with recBytes := l.recBytes + n, le := by omega }

/-- The LL field at an offset. Its second byte may be beyond the end of the
buffer, where anything may stand. -/
def llSizeAt (slack : UInt8) (data : List UInt8) (offset : Nat) : Nat :=
  (data.getD offset slack).toNat * 2 ^ 8 + (data.getD (offset + 1) slack).toNat

theorem llSizeAt_lt (slack : UInt8) (data : List UInt8) (offset : Nat) :
    llSizeAt slack data offset < 2 ^ 16 := by
  have hfirst := (data.getD offset slack).toNat_lt
  have hsecond := (data.getD (offset + 1) slack).toNat_lt
  rw [llSizeAt]
  omega

/-- The start of a record in the buffer; `none` if its LL field is not valid. -/
def startTx (slack : UInt8) (data : List UInt8) (l : LlTx) (offset : Nat) : Option LlTx :=
  if l.state = .none then
    if data.length < 2 then none
    else if llSizeAt slack data offset < 2 ∨ llSizeAt slack data offset > 32767 then none
    else some (.start (llSizeAt slack data offset) (llSizeAt_lt slack data offset))
  else some l

/-- The record is gone through, to its end or to that of the buffer. That the
buffer does not reach to the end of the record is told by the size of all of it. -/
def countTx (data : List UInt8) (l : LlTx) (offset : Nat) : LlTx × Nat :=
  if l.state = .incomplete then
    if h : data.length + l.recBytes < l.recSize then (l.count data.length h, data.length)
    else ({ l with state := .complete }, offset + (l.recSize - l.recBytes))
  else (l, offset)

/-- A record that is complete makes way for the next. -/
def endTx (l : LlTx) : LlTx := if l.state = .complete then {} else l

/-- The body of the loop, with `offset`. -/
def validatePass (slack : UInt8) (data : List UInt8) (t : LlTx × Nat) : LlTx × Nat ⊕ Rc × LlTx :=
  match startTx slack data t.1 t.2 with
  | none => .inr (acRcProgramParameterCheck, t.1)
  | some l =>
    let u := countTx data l t.2
    if data.length > u.2 then .inl (endTx u.1, u.2) else .inr (acRcOk, endTx u.1)

/-- How much the loop has before it. -/
def validateMeasure (data : List UInt8) (t : LlTx × Nat) : Nat :=
  2 * (data.length - t.2) + if t.1.state = .none then 0 else 1

/-- `sna_ps_conv_validate_logical_records`, and the position in the record after
it. -/
def validateLogicalRecords (slack : UInt8) (l : LlTx) (data : List UInt8) : Option (Rc × LlTx) :=
  loop (validatePass slack data) (validateMeasure data (l, 0) + 1) (l, 0)

/-! ## `sna_ps_conv_send_data_buffer_management` -/

/-- What the loop works on: `skb` and `r_skb`, and whether `r_skb` is what
`send_mu` points to. -/
structure Filling where
  c : Conversation
  data : List UInt8
  mu : Option PsMu
  held : Bool

/-- `skb_put`, into what `send_mu` points to if that is where the data go. -/
def Filling.put (t : Filling) (mu : PsMu) (bytes : List UInt8) : Filling :=
  let mu := { mu with data := mu.data ++ bytes }
  { t with
    c.rcb.sendMu := if t.held then some mu else t.c.rcb.sendMu
    mu := some mu }

/-- The MU that is filled; `none` if there is no memory for a new one. -/
def takeMu (t : Filling) : Option (PsMu × Filling) × Conversation :=
  match t.mu with
  | some mu => (some (mu, t), t.c)
  | none =>
    match createAndInitLimitedMu t.c with
    | (none, c) => (none, c)
    | (some mu, c) => (some (mu, { t with c := c, mu := some mu, held := false }), c)

/-- An MU that is full goes to the half-session, else data are moved to it. -/
def fillMu (mu : PsMu) (t : Filling) : Filling :=
  if mu.data.length ≥ t.c.rcb.txMaxBtu then
    { t with
      c.toHs := t.c.toHs ++ [.data (some mu)]
      mu := none
      held := false }
  else
    { t.put mu (t.data.take (t.c.rcb.txMaxBtu - mu.data.length)) with
      data := t.data.drop (t.c.rcb.txMaxBtu - mu.data.length) }

/-- The end of the procedure. -/
def endFilling (force : Bool) (t : Filling) : Conversation :=
  if force then { t.c with toHs := t.c.toHs ++ [.data t.mu], rcb.sendMu := none }
  else { t.c with rcb.sendMu := t.mu }

/-- The body of the loop. Without memory the procedure ends, and `send_mu` still
points to an MU that was given to the half-session. -/
def fillPass (force : Bool) (t : Filling) : Filling ⊕ Bool × Conversation :=
  match takeMu t with
  | (none, c) => .inr (false, c)
  | (some (mu, t), _) =>
    let t := fillMu mu t
    if t.data ≠ [] then .inl t else .inr (true, endFilling force t)

/-- The start of the procedure. -/
def beginFilling (c : Conversation) (data : List UInt8) : Filling :=
  { c := { c with handed := c.handed ++ [data] }
    data := data
    mu := c.rcb.sendMu
    held := c.rcb.sendMu.isSome }

/-- `sna_ps_conv_send_data_buffer_management`, and whether there was memory. A loop
that has not ended after so many passes does not end. -/
def sendDataBufferManagement (c : Conversation) (data : List UInt8) (force : Bool) :
    Option (Bool × Conversation) :=
  loop (fillPass force) (2 * data.length + c.allocs.length + 2) (beginFilling c data)

/-! ## `sna_ps_conv_send_data_proc` -/

/-- `skb_queue_tail` of a buffer, as `sna_cpic_cmsend` does before Send_Data -/
def queueTail (c : Conversation) (buffer : List UInt8) : Conversation :=
  { c with tp.writeQueue := c.tp.writeQueue ++ [buffer] }

/-- Send_Data once the partner's error has been received. Data that are queued
are dropped; without any it waits for the FMH-7. -/
def sendRcvdError (c : Conversation) : Option (Rc × Conversation) :=
  match c.tp.writeQueue with
  | _ :: q => some (acRcOk, { c with tp.writeQueue := q })
  | [] =>
    match createAndInitLimitedMu c with
    | (none, c) => some (acRcProductSpecific, c)
    | (some mu, c) =>
      (receiveRecordsSuspended
        { c with toHs := c.toHs ++ [.req { mu with type := .prepareToRcvFlush }] }).map fun c =>
          if c.rcb.errState ≠ .convFailureSon ∧ c.rcb.errState ≠ .convFailureProtocolError then
            dequeueFmh7 c
          else failureReported c

/-- Send_Data without an error: the head of the queue is checked and handed on.
What becomes of it there is not looked at. -/
def sendQueued (slack : UInt8) (c : Conversation) : Option (Rc × Conversation) :=
  match c.tp.writeQueue with
  | [] => some (acRcOk, c)
  | data :: q =>
    (validateLogicalRecords slack c.rcb.llTx data).bind fun r =>
      let c := { c with tp.writeQueue := q, rcb.llTx := r.2 }
      if r.1 ≠ acRcOk then some (r.1, c)
      else (sendDataBufferManagement c data false).map fun b => (acRcOk, b.2)

/-- `sna_ps_conv_send_data_proc`; `none` if it never returns. -/
def sendData (slack : UInt8) (c : Conversation) : Option (Rc × Conversation) :=
  if !c.found then some (acRcProductSpecific, c)
  else if (fsmConversation .s .sendData c true).1 then some (programStateCheck, c)
  else
    let c := receiveRecords c
    match c.rcb.errState with
    | .convFailureProtocolError | .convFailureSon => some (passRqToSend (failureReported c))
    | .rcvdError => (sendRcvdError c).map passRqToSend
    | .noRequests => (sendQueued slack c).map passRqToSend

/-!
## The MUs of Send_Data, as buffers

`sna_ps_conv_send_data_buffer_management` with its MUs as the source has them, by pointers. `r_skb`
and `send_mu` may point to one buffer, and `send_mu` to a buffer that was passed down.
-/

/-- The control block and the buffers. A pointer is the number of the allocation, and what a buffer
holds stands under that number. `down` is what `sna_hs_tx_ps_mu_data` was given, each buffer with
what it held then. -/
structure Buffers where
  txMaxBtu : Nat
  sendMu : Option Nat := none
  bufs : List (List UInt8) := []
  down : List (Option (Nat × List UInt8)) := []
  allocs : List Bool := []
  deriving DecidableEq

def Buffers.bytes (s : Buffers) (i : Nat) : List UInt8 := s.bufs.getD i []

/-- `sna_ps_conv_create_and_init_limited_mu` -/
def Buffers.createAndInitLimitedMu (s : Buffers) : Option Nat × Buffers :=
  if s.allocs.headD true then
    (some s.bufs.length, { s with bufs := s.bufs ++ [[]], allocs := s.allocs.tail })
  else (none, { s with allocs := s.allocs.tail })

/-- `skb_put`, and the copy -/
def Buffers.skbPut (s : Buffers) (i : Nat) (data : List UInt8) : Buffers :=
  { s with bufs := s.bufs.set i (s.bytes i ++ data) }

/-- `sna_hs_tx_ps_mu_data` -/
def Buffers.hsTxPsMuData (s : Buffers) (mu : Option Nat) : Buffers :=
  { s with down := s.down ++ [mu.map fun i => (i, s.bytes i)] }

/-- What the loop works on: `rcb`, `skb` and `r_skb`. -/
structure Cutting where
  s : Buffers
  data : List UInt8
  mu : Option Nat

/-- The MU that is filled; `none` if there is no memory for a new one. -/
def Cutting.takeMu (t : Cutting) : Option Nat × Buffers :=
  match t.mu with
  | some i => (some i, t.s)
  | none => t.s.createAndInitLimitedMu

/-- `tx_max_btu - r_skb->len` -/
def Buffers.room (s : Buffers) (i : Nat) : Nat := s.txMaxBtu - (s.bytes i).length

/-- An MU that is full goes to the half-session, else data are moved to it. -/
def Buffers.fillMu (s : Buffers) (data : List UInt8) (i : Nat) : Cutting :=
  if (s.bytes i).length ≥ s.txMaxBtu then ⟨s.hsTxPsMuData (some i), data, none⟩
  else ⟨s.skbPut i (data.take (s.room i)), data.drop (s.room i), some i⟩

/-- The end of the procedure. -/
def Cutting.finish (force : Bool) (t : Cutting) : Cutting :=
  if force then { t with s := { t.s.hsTxPsMuData t.mu with sendMu := none }, mu := none }
  else { t with s := { t.s with sendMu := t.mu } }

/-- The body of the loop. Without memory the procedure ends as it is. -/
def Cutting.pass (force : Bool) (t : Cutting) : Cutting ⊕ Bool × Cutting :=
  match t.takeMu with
  | (none, s) => .inr (false, { t with s := s })
  | (some i, s) =>
    let t := s.fillMu t.data i
    if t.data ≠ [] then .inl t else .inr (true, t.finish force)

/-- `sna_ps_conv_send_data_buffer_management`: whether there was memory, the control block, and what
is left of the buffer -/
def Buffers.sendDataBufferManagement (s : Buffers) (data : List UInt8) (force : Bool) :
    Option (Bool × Cutting) :=
  loop (Cutting.pass force) (2 * data.length + s.allocs.length + 2) ⟨s, data, s.sendMu⟩

end LinuxSna.Ps
