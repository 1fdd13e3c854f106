import LinuxSna.Impl.Sna.Ps.Allocate
import LinuxSna.Impl.Sna.Ps.Send

/-!
# The calls with presentation services behind them

`sna_ps_verb_router` with the verbs of `sna_ps_conv.c`. The control block of the transaction program
is one for both sides; what each keeps of it is handed over before a verb and handed back after it.
Of the resource manager and the half-session there is what an Allocate gets of them, and the MUs that
are received.
-/

namespace LinuxSna.Cpic

/-! ## The control block -/

def acFillLl : Nat := 0

def conversationTypeOf (tp : Tp) : Ps.ConversationType :=
  if tp.conversationType = acConversationTypeMapped then .mapped else .basic

def fillOf (tp : Tp) : Ps.Fill := if tp.fill = acFillLl then .ll else .buffer

/-- What Allocate, Send_Data and Receive meet: what stands behind the end of the buffer that is sent,
whether the allocations of memory succeed, the MUs that will be received while the verb waits, and
what `sna_rm_alloc_rcb`, `sna_ps_conv_obtain_session` and `sna_ps_conv_build_and_send_fmh5` come to:
whether there is a control block of the conversation, how much may be sent at once if there is a
session, and whether the Attach can be sent. -/
structure Env where
  slack : UInt8 := 0
  allocs : List Bool := []
  received : List (List Ps.Mu) := []
  rcb : Bool := true
  session : Option Nat := some 256
  attach : Bool := true

/-- What a verb reads of the control block, and what it meets -/
def handOver (tp : Tp) (e : Env) (p : Ps.Conversation) : Ps.Conversation :=
  { p with
    arrivals := e.received.map fun ms => .records [] (ms.map .mu)
    allocs := e.allocs
    tp.conversationType := conversationTypeOf tp
    tp.fill := fillOf tp
    tp.dataReceived := tp.dataReceived
    tp.statusReceived := tp.statusReceived }

/-- A Receive asks for so many bytes. -/
def asking (n : Nat) (p : Ps.Conversation) : Ps.Conversation :=
  { p with
    tp := { p.tp with
      rxReqLen := n
      rxRcvLen := 0
      rxBuffer := []
      le := Nat.zero_le n } }

/-! ## The verbs -/

/-- `sna_ps_conv_alloc_proc` -/
def psConvAllocProc (e : Env) (p : Ps.Conversation) : Ps.Rc × Ps.Conversation :=
  if !e.rcb then (Ps.acRcUnsuccessful, p)
  else
    let p := { p with found := true, rcb := {} }
    match e.session with
    | none => (Ps.acRcAllocationFailureNoRetry, Ps.received .allocationErrorRc p)
    | some txMaxBtu =>
      (if e.attach then Ps.acRcOk else Ps.acRcUnsuccessful,
        (Ps.fsmConversation .none .allocate { p with rcb.txMaxBtu := txMaxBtu } false).2)

/-- `sna_ps_verb_router`; `none` if the verb does not return. Deallocate is left out. -/
def psVerbRouter (e : Env) (p : Ps.Conversation) (v : Verb) (tp : Tp) :
    Option (Ps.Rc × Ps.Conversation) :=
  let p := handOver tp e p
  match v with
  | .allocate => some (psConvAllocProc e p)
  | .deallocate => none
  | .sendData record => Ps.sendData e.slack (Ps.queueTail p record)
  | .receiveAndWait => Ps.rcvAndWait (asking tp.rxReqLen p)
  | .receiveImmediate => Ps.rcvImmediate (asking tp.rxReqLen p)

/-- A return code of 32 bits, as an `int` -/
def asInt (rc : Ps.Rc) : Int := (rc : Int).bmod (2 ^ 32)

def reply (r : Ps.Rc × Ps.Conversation) : Reply :=
  ⟨asInt r.1, r.2.tp.dataReceived, r.2.tp.statusReceived, r.2.tp.rxRcvLen⟩

/-! ## The calls -/

/-- The read-only pass allows the call. -/
def passes (call : Call) (c : Conversation) : Bool :=
  (fsmHd c call cmOk c.tp.dataReceived c.tp.statusReceived c.tp.sendReceiveMode true).1 = 0

/-- The program has set what an Allocate needs. -/
def allocatable (tp : Tp) : Bool :=
  tp.modeNameLength ≠ 0 && tp.tpNameLength ≠ 0 && tp.partnerLuNameLength ≠ 0 &&
    !(tp.conversationSecurityType = acSecurityProgram &&
      (tp.securityPasswordLength = 0 || tp.securityUserIdLength = 0))

/-- What Send_Data gives the verb to send, if it comes so far -/
def sent (bytes : UserBytes) (length : UserValue) (alloc : Bool) : Option (List UInt8) :=
  length.bind fun n => if n > acMaxBuffer || !alloc then none else utok bytes n

/-- What a Receive for so many bytes asks for -/
def Tp.asks (tp : Tp) (n : Nat) : Tp := { tp with rxRcvLen := 0, rxReqLen := n }

/-- The verb of a Receive -/
def receiveVerb (tp : Tp) : Verb :=
  if tp.receiveType = acReceiveAndWait then .receiveAndWait else .receiveImmediate

/-- The verb that a call issues, with the control block; `none` if it comes to none -/
def issued (req : Request) (c : Conversation) : Option (Verb × Tp) :=
  match req with
  | .cmallc => if passes .cmallc c && allocatable c.tp then some (.allocate, c.tp) else none
  | .cmdeal => some (.deallocate, c.tp)
  | .cmsend bytes length alloc =>
    if passes .cmsend c then
      (sent bytes length alloc).map fun bs => (.sendData (sendRecord c.tp bs), c.tp)
    else none
  | .cmrcv length _ _ =>
    if passes .cmrcv c then
      (length.filter (· ≤ acMaxBuffer)).map fun n =>
        (receiveVerb c.tp, c.tp.asks n)
    else none
  | _ => none

/-- A router that always leaves the same -/
def replying (r : Reply) : Router := fun _ _ => r

/-- A conversation, as the calls and as presentation services have it -/
structure Both where
  c : Conversation
  ps : Ps.Conversation

/-- After Initialize_Conversation there is no control block of a conversation yet. -/
def Both.start (side : Option SideInfo) : Both := ⟨cminit side, { found := false }⟩

/-- A call: its result, and the conversation as presentation services have it then; `none` if it does
not return -/
def Both.call (b : Both) (e : Env) (req : Request) : Option (Result × Ps.Conversation) :=
  match issued req b.c with
  | none => some (cpicall (replying ⟨0, 0, 0, 0⟩) req b.c, b.ps)
  | some (v, tp) =>
    (psVerbRouter e b.ps v tp).map fun r => (cpicall (replying (reply r)) req b.c, r.2)

/-- A call, or MUs that are received between the calls -/
inductive BothEvent where
  | call (e : Env) (req : Request)
  | received (ms : List Ps.Mu)

def Both.step (b : Both) : BothEvent → Option Both
  | .call e req => (b.call e req).map fun r => ⟨r.1.conversation, r.2⟩
  | .received ms => some { b with ps := Ps.arrive b.ps (.records [] (ms.map .mu)) }

end LinuxSna.Cpic
