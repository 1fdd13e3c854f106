import LinuxSna.Impl.Sna.Cpic.Fsm

/-!
# The CPI-C calls

Each call asks the state machine, read-only, whether the state of the
conversation allows it; does its work; and passes its return code to the state
machine, not read-only. The presentation services behind the verb router are
not modelled: what `sna_ps_verb_router` returns, and what it leaves in the
fields of the transaction program that a Receive reads, is an argument.
-/

namespace LinuxSna.Cpic

/-! ## User memory -/

/-- What a pointer of the caller's points to: the bytes that can be read. -/
abbrev UserBytes := List UInt8

/-- What a pointer to a number yields; `none` if it cannot be read. -/
abbrev UserValue := Option Nat

def maxSnaAddr : Nat := 1024

/-- `sna_utok` for a buffer -/
def utok (uaddr : UserBytes) (ulen : Nat) : Option (List UInt8) :=
  if ulen > maxSnaAddr then none
  else if ulen ≤ uaddr.length then some (uaddr.take ulen)
  else none

/-- The buffer after bytes were copied to its start. -/
def copied (buffer bytes : List UInt8) : List UInt8 := bytes ++ buffer.drop bytes.length

/-- A buffer of the caller's: the bytes that can be read, and what a copy that cannot read them all
leaves in its target. -/
structure UserBuffer where
  bytes : UserBytes
  partly : List UInt8

/-- The buffer after a copy of so many bytes has failed: no copy is begun of more than
`maxSnaAddr` bytes. -/
def spoiled (buffer : List UInt8) (source : UserBuffer) (ulen : Nat) : List UInt8 :=
  if ulen > maxSnaAddr then buffer else copied buffer (source.partly.take ulen)

/-! ## The verb router -/

inductive Verb where
  | allocate
  | deallocate
  | sendData (record : List UInt8)
  | receiveAndWait
  | receiveImmediate

/-- What the verb router leaves. -/
structure Reply where
  rc : Int
  dataReceived : Nat
  statusReceived : Nat
  rxRcvLen : Nat

/-- `sna_ps_verb_router`. It keeps the characteristics. -/
abbrev Router := Verb → Tp → Reply

/-- The transaction program after the verb router. -/
def Tp.replied (tp : Tp) (r : Reply) : Tp :=
  { tp with
    dataReceived := r.dataReceived
    statusReceived := r.statusReceived
    rxRcvLen := r.rxRcvLen }

/-- `appc_return_codes`, in order, and what `sna_cpic_appc2cpic_rc` makes of
each. -/
def appcReturnCodes : List Int :=
  [cmOk, cmUnsuccessful, cmCallNotSupported, cmProgramParameterCheck, cmProgramStateCheck,
   cmResourceFailureRetry, cmResourceFailureNoRetry, cmAllocateFailureRetry,
   cmAllocateFailureNoRetry, cmProgramErrorNoTrunc, cmProgramErrorPurging, cmSvcErrorNoTrunc,
   cmSvcErrorTrunc, cmSvcErrorPurging, cmDeallocatedNormal, cmDeallocatedAbend,
   cmDeallocatedAbend, cmDeallocatedAbendSvc, cmDeallocatedAbendTimer,
   cmPipNotSpecifiedCorrectly, cmPipNotSpecifiedCorrectly, cmConversationTypeMismatch,
   cmSyncLvlNotSupportedLu, cmSecurityNotValid, cmTpnNotRecognized, cmTpNotAvailableRetry,
   cmTpNotAvailableNoRetry, cmProductSpecificError, cmAllocateFailureNoRetry,
   cmAllocateFailureRetry]

/-- `sna_cpic_appc2cpic_rc`. What is not in the table is not translated. -/
def appc2cpicRc (err : Int) : Int :=
  if 0 ≤ err then appcReturnCodes.getD err.toNat err else err

/-! ## The frame of a call -/

/-- The body of a call: its return code and the transaction program after it. -/
abbrev Body := Tp → Int × Tp

/-- The body of a call, unless the read-only pass refuses the call. -/
def attempt (call : Call) (body : Body) (c : Conversation) : Int × Tp :=
  if (fsmHd c call cmOk c.tp.dataReceived c.tp.statusReceived c.tp.sendReceiveMode true).1 ≠ 0
  then (cmProgramStateCheck, c.tp)
  else body c.tp

/-- The frame that the calls share: the read-only pass and the body, then the
pass that sets the state. -/
def guarded (call : Call) (body : Body) (c : Conversation) : Int × Conversation :=
  let (err, tp) := attempt call body c
  (err, (fsmHd { c with tp := tp } call err tp.dataReceived tp.statusReceived
    tp.sendReceiveMode false).2)

/-- The body of a call that sets a characteristic to one of some values. -/
def setValue (values : List Nat) (put : Tp → Nat → Tp) (v : UserValue) : Body := fun tp =>
  match v with
  | none => (cmProductSpecificError, tp)
  | some v => if v ∈ values then (cmOk, put tp v) else (cmProgramParameterCheck, tp)

/-- A buffer in the transaction program -/
structure Target where
  get : Tp → List UInt8
  put : Tp → List UInt8 → Tp
  get_put : ∀ tp bs, get (put tp bs) = bs
  put_get : ∀ tp, put tp (get tp) = tp

/-- The body of a call that sets a buffer and its length, which must be
between two bounds. -/
def setBuffer (least most : Nat) (target : Target) (putLength : Tp → Nat → Tp)
    (source : UserBuffer) (length : UserValue) : Body := fun tp =>
  match length with
  | none => (cmProductSpecificError, tp)
  | some n =>
    if n < least || n > most then (cmProgramParameterCheck, tp)
    else match utok source.bytes n with
    | none => (cmProductSpecificError, target.put tp (spoiled (target.get tp) source n))
    | some bs => (cmOk, putLength (target.put tp (copied (target.get tp) bs)) n)

/-- The body of a call that sets a buffer, its length and its format. -/
def setFormatted (formats : List Nat) (target : Target) (putLength : Tp → Nat → Nat → Tp)
    (source : UserBuffer) (length format : UserValue) : Body := fun tp =>
  match format, length with
  | some f, some n =>
    if f ∉ formats then (cmProgramParameterCheck, tp)
    else if n < 1 || n > 1024 then (cmProgramParameterCheck, tp)
    else match utok source.bytes n with
    | none => (cmProductSpecificError, target.put tp (spoiled (target.get tp) source n))
    | some bs => (cmOk, putLength (target.put tp (copied (target.get tp) bs)) n f)
  | _, _ => (cmProductSpecificError, tp)

/-! ## The buffers -/

namespace Target

def aeQualifier : Target :=
  ⟨(·.aeQualifier), fun tp bs => { tp with aeQualifier := bs }, fun _ _ => rfl, fun _ => rfl⟩

def apTitle : Target :=
  ⟨(·.apTitle), fun tp bs => { tp with apTitle := bs }, fun _ _ => rfl, fun _ => rfl⟩

def applicationContextName : Target :=
  ⟨(·.applicationContextName), fun tp bs => { tp with applicationContextName := bs },
    fun _ _ => rfl, fun _ => rfl⟩

def securityPassword : Target :=
  ⟨(·.securityPassword), fun tp bs => { tp with securityPassword := bs },
    fun _ _ => rfl, fun _ => rfl⟩

def securityUserId : Target :=
  ⟨(·.securityUserId), fun tp bs => { tp with securityUserId := bs }, fun _ _ => rfl, fun _ => rfl⟩

def initData : Target :=
  ⟨(·.initData), fun tp bs => { tp with initData := bs }, fun _ _ => rfl, fun _ => rfl⟩

def logData : Target :=
  ⟨(·.logData), fun tp bs => { tp with logData := bs }, fun _ _ => rfl, fun _ => rfl⟩

def modeName : Target :=
  ⟨(·.modeName), fun tp bs => { tp with modeName := bs }, fun _ _ => rfl, fun _ => rfl⟩

def partnerLuName : Target :=
  ⟨(·.partnerLuName), fun tp bs => { tp with partnerLuName := bs }, fun _ _ => rfl, fun _ => rfl⟩

def tpName : Target :=
  ⟨(·.tpName), fun tp bs => { tp with tpName := bs }, fun _ _ => rfl, fun _ => rfl⟩

end Target

/-! ## The calls that set a characteristic -/

/-- `sna_cpic_cmsaeq` -/
def cmsaeq : UserBuffer → UserValue → UserValue → Body :=
  setFormatted [cmDn, cmIntDigits] .aeQualifier fun tp n f =>
    { tp with aeQualifierLength := n, aeQualifierFormat := f }

/-- `sna_cpic_cmsapt` -/
def cmsapt : UserBuffer → UserValue → UserValue → Body :=
  setFormatted [cmDn, cmOid] .apTitle fun tp n f =>
    { tp with apTitleLength := n, apTitleFormat := f }

/-- `sna_cpic_cmsacn`. The length is kept in 8 bits. -/
def cmsacn : UserBuffer → UserValue → Body :=
  setBuffer 1 256 .applicationContextName fun tp n =>
    { tp with applicationContextLength := n % 2 ^ 8 }

/-- `sna_cpic_cmscsp` -/
def cmscsp : UserBuffer → UserValue → Body :=
  setBuffer 0 10 .securityPassword fun tp n => { tp with securityPasswordLength := n }

/-- `sna_cpic_cmscsu` -/
def cmscsu : UserBuffer → UserValue → Body :=
  setBuffer 0 10 .securityUserId fun tp n => { tp with securityUserIdLength := n }

/-- `sna_cpic_cmsid` -/
def cmsid : UserBuffer → UserValue → Body :=
  setBuffer 0 10000 .initData fun tp n => { tp with initDataLength := n }

/-- `sna_cpic_cmsld` -/
def cmsld : UserBuffer → UserValue → Body :=
  setBuffer 0 512 .logData fun tp n => { tp with logDataLength := n }

/-- `sna_cpic_cmsmn` -/
def cmsmn : UserBuffer → UserValue → Body :=
  setBuffer 0 8 .modeName fun tp n => { tp with modeNameLength := n }

/-- `sna_cpic_cmspln` -/
def cmspln : UserBuffer → UserValue → Body :=
  setBuffer 1 17 .partnerLuName fun tp n => { tp with partnerLuNameLength := n }

/-- `sna_cpic_cmstpn` -/
def cmstpn : UserBuffer → UserValue → Body :=
  setBuffer 1 64 .tpName fun tp n => { tp with tpNameLength := n }

/-- `sna_cpic_cmsac` -/
def cmsac : UserValue → Body := setValue [0, 1] fun tp v => { tp with allocateConfirm := v }

/-- `sna_cpic_cmsbt` -/
def cmsbt : UserValue → Body := setValue [0, 1] fun tp v => { tp with beginTransaction := v }

/-- `sna_cpic_cmscst` -/
def cmscst : UserValue → Body :=
  setValue [0, 1, 2, 5, 3, 4] fun tp v => { tp with conversationSecurityType := v }

/-- `sna_cpic_cmsct` -/
def cmsct : UserValue → Body := setValue [0, 1] fun tp v => { tp with conversationType := v }

/-- `sna_cpic_cmscu` -/
def cmscu : UserValue → Body := setValue [0, 1] fun tp v => { tp with confirmUrgency := v }

/-- `sna_cpic_cmsdt`. The value is kept as it is; `appc.h` counts the
deallocate types otherwise. -/
def cmsdt : UserValue → Body :=
  setValue [cmDeallocateSyncLevel, cmDeallocateFlush, cmDeallocateConfirm, cmDeallocateAbend]
    fun tp v => { tp with deallocateType := v }

/-- `sna_cpic_cmsed` -/
def cmsed : UserValue → Body := setValue [0, 1] fun tp v => { tp with errorDirection := v }

/-- `sna_cpic_cmsf` -/
def cmsf : UserValue → Body := setValue [0, 1] fun tp v => { tp with fill := v }

/-- `sna_cpic_cmspdp` -/
def cmspdp : UserValue → Body :=
  setValue [0, 1] fun tp v => { tp with prepareDataPermitted := v }

/-- `sna_cpic_cmspm` -/
def cmspm : UserValue → Body := setValue [0, 1] fun tp v => { tp with processingMode := v }

/-- `sna_cpic_cmsptr` -/
def cmsptr : UserValue → Body :=
  setValue [0, 1, 2] fun tp v => { tp with prepareToReceiveType := v }

/-- `sna_cpic_cmsrc` -/
def cmsrc : UserValue → Body := setValue [0, 1, 2, 3] fun tp v => { tp with returnControl := v }

/-- `sna_cpic_cmsrt` -/
def cmsrt : UserValue → Body := setValue [0, 1] fun tp v => { tp with receiveType := v }

/-- `sna_cpic_cmssl` -/
def cmssl : UserValue → Body := setValue [0, 1, 2, 3] fun tp v => { tp with syncLevel := v }

/-- `sna_cpic_cmssrm` -/
def cmssrm : UserValue → Body := setValue [0, 1] fun tp v => { tp with sendReceiveMode := v }

/-- `sna_cpic_cmsst` -/
def cmsst : UserValue → Body :=
  setValue [cmBufferData, cmSendAndFlush, cmSendAndConfirm, cmSendAndPrepToReceive,
    cmSendAndDeallocate] fun tp v => { tp with sendType := v }

/-- `sna_cpic_cmstc` -/
def cmstc : UserValue → Body := setValue [0, 1] fun tp v => { tp with transactionControl := v }

/-- The arguments of Set_Partner_ID. -/
structure PartnerId where
  type : UserValue
  bytes : UserBytes
  length : UserValue
  scope : UserValue
  directorySyntax : UserValue
  directoryEncoding : UserValue
  /-- Where `kmalloc` finds a block, if it does -/
  alloc : Option Nat

/-- `sna_cpic_cmspid`. The length is kept in 8 bits. The pointer to the name that was set before is
lost; a name that cannot be read is freed, and the pointer to it kept. -/
def cmspid (a : PartnerId) : Body := fun tp =>
  match a.type, a.length, a.scope, a.directorySyntax, a.directoryEncoding with
  | some type, some n, some scope, some syn, some enc =>
    if type ∉ [0, 1, 2, 3, 4] then (cmProgramParameterCheck, tp)
    else if n > 32767 then (cmProgramParameterCheck, tp)
    else if scope ∉ [0, 1] then (cmProgramParameterCheck, tp)
    else if syn ∉ [0, 1, 2, 3] then (cmProgramParameterCheck, tp)
    else if enc ∉ [0, 1] then (cmProgramParameterCheck, tp)
    else match a.alloc with
    | none => (cmProductSpecificError, { tp with partnerId := none })
    | some addr =>
    match utok a.bytes n with
    | none => (cmProductSpecificError, { tp with partnerId := some ⟨addr, none⟩ })
    | some bs =>
      (cmOk, { tp with
        partnerId := some ⟨addr, some bs⟩
        partnerIdLength := n % 2 ^ 8
        partnerIdType := type
        partnerIdScope := scope
        directoryEncoding := enc
        directorySyntax := syn })
  | _, _, _, _, _ => (cmProductSpecificError, tp)

/-! ## Allocate, Send_Data and Receive -/

/-- `sna_cpic_cmallc` -/
def cmallc (router : Router) : Body := fun tp =>
  if tp.modeNameLength = 0 then (cmProgramParameterCheck, tp)
  else if tp.tpNameLength = 0 then (cmProgramParameterCheck, tp)
  else if tp.partnerLuNameLength = 0 then (cmProgramParameterCheck, tp)
  else if tp.conversationSecurityType = acSecurityProgram &&
      (tp.securityPasswordLength = 0 || tp.securityUserIdLength = 0) then
    (cmProgramParameterCheck, tp)
  else
    let r := router .allocate tp
    (appc2cpicRc r.rc, tp.replied r)

/-- A number of two bytes, in network byte order. -/
def be16 (n : Nat) : List UInt8 := [UInt8.ofNat (n / 2 ^ 8), UInt8.ofNat n]

def snaGdsNullData : Nat := 0x12F1
def snaGdsAppData : Nat := 0x12FF

/-- The record that Send_Data queues: on a mapped conversation with its length
and GDS identifier before the data. -/
def sendRecord (tp : Tp) (bytes : List UInt8) : List UInt8 :=
  if tp.conversationType = acConversationTypeMapped then
    be16 (bytes.length + 4) ++
      be16 (if bytes.length > 0 then snaGdsAppData else snaGdsNullData) ++ bytes
  else bytes

/-- `sna_cpic_cmsend`; `alloc` says whether `sna_alloc_skb` succeeds. -/
def cmsend (router : Router) (bytes : UserBytes) (length : UserValue) (alloc : Bool) : Body :=
  fun tp =>
  match length with
  | none => (cmProductSpecificError, tp)
  | some n =>
    if n > acMaxBuffer then (cmProgramParameterCheck, tp)
    else if !alloc then (cmProductSpecificError, tp)
    else match utok bytes n with
    | none => (cmProductSpecificError, tp)
    | some bs =>
      let r := router (.sendData (sendRecord tp bs)) tp
      (appc2cpicRc r.rc, tp.replied r)

/-- The verb of a Receive for so many bytes. -/
def receive (router : Router) (n : Nat) (tp : Tp) : Int × Tp :=
  let tp := { tp with rxRcvLen := 0, rxReqLen := n }
  let r :=
    if tp.receiveType = acReceiveAndWait then router .receiveAndWait tp
    else router .receiveImmediate tp
  (appc2cpicRc r.rc, tp.replied r)

/-- The end of a Receive: whether `data_received` and `received_length` can be
written to the caller's memory. -/
def toUser (toData toLength : Bool) (r : Int × Tp) : Int × Tp :=
  if r.1 ≠ 0 then r
  else if !toData then (cmProductSpecificError, r.2)
  else if !toLength then (cmProductSpecificError, r.2)
  else r

/-- `sna_cpic_cmrcv` -/
def cmrcv (router : Router) (length : UserValue) (toData toLength : Bool) : Body := fun tp =>
  match length with
  | none => (cmProductSpecificError, tp)
  | some n =>
    if n > acMaxBuffer then (cmProgramParameterCheck, tp)
    else toUser toData toLength (receive router n tp)

/-! ## Initialize_Conversation -/

/-- `struct sna_cpic_side_info`, what Initialize_Conversation takes from it.
The name of the partner is `netid_plu` as `sna_netid_to_char` writes it. -/
structure SideInfo where
  modeName : List UInt8
  modeNameLength : Nat
  partnerLuName : List UInt8
  tpName : List UInt8
  tpNameLength : Nat

/-- The characteristics of a new conversation. -/
def defaults : Option SideInfo → Tp
  | none => {}
  | some side =>
    { modeName := side.modeName
      modeNameLength := side.modeNameLength
      partnerLuName := side.partnerLuName
      partnerLuNameLength := side.partnerLuName.length
      tpName := side.tpName
      tpNameLength := side.tpNameLength }

/-- `sna_cpic_cminit`, once the structures are there: the new conversation is
in Reset, and the state machine is told of the call. -/
def cminit (side : Option SideInfo) : Conversation :=
  let c : Conversation := ⟨.reset, defaults side⟩
  (fsmHd c .cminit cmOk c.tp.dataReceived c.tp.statusReceived c.tp.sendReceiveMode false).2

/-! ## The calls on a conversation -/

/-- A call on a conversation, with its arguments. -/
inductive Request where
  | cmallc
  | cmdeal
  | cmrcv (length : UserValue) (toData toLength : Bool)
  | cmsend (bytes : UserBytes) (length : UserValue) (alloc : Bool)
  | cmsac (v : UserValue)
  | cmsacn (source : UserBuffer) (length : UserValue)
  | cmsaeq (source : UserBuffer) (length format : UserValue)
  | cmsapt (source : UserBuffer) (length format : UserValue)
  | cmsbt (v : UserValue)
  | cmscsp (source : UserBuffer) (length : UserValue)
  | cmscst (v : UserValue)
  | cmscsu (source : UserBuffer) (length : UserValue)
  | cmsct (v : UserValue)
  | cmscu (v : UserValue)
  | cmsdt (v : UserValue)
  | cmsed (v : UserValue)
  | cmsf (v : UserValue)
  | cmsid (source : UserBuffer) (length : UserValue)
  | cmsld (source : UserBuffer) (length : UserValue)
  | cmsmn (source : UserBuffer) (length : UserValue)
  | cmspdp (v : UserValue)
  | cmspid (a : PartnerId)
  | cmspln (source : UserBuffer) (length : UserValue)
  | cmspm (v : UserValue)
  | cmsptr (v : UserValue)
  | cmsrc (v : UserValue)
  | cmsrt (v : UserValue)
  | cmssl (v : UserValue)
  | cmssrm (v : UserValue)
  | cmsst (v : UserValue)
  | cmstc (v : UserValue)
  | cmstpn (source : UserBuffer) (length : UserValue)
  /-- One of the calls that only return that they are not supported. -/
  | unsupported

/-- The call and the body of a request that goes through the frame. -/
def Request.body (router : Router) : Request → Option (Call × Body)
  | cmallc => some (.cmallc, Cpic.cmallc router)
  | cmdeal => none
  | cmrcv length toData toLength => some (.cmrcv, Cpic.cmrcv router length toData toLength)
  | cmsend bytes length alloc => some (.cmsend, Cpic.cmsend router bytes length alloc)
  | cmsac v => some (.cmsac, Cpic.cmsac v)
  | cmsacn source length => some (.cmsacn, Cpic.cmsacn source length)
  | cmsaeq source length format => some (.cmsaeq, Cpic.cmsaeq source length format)
  | cmsapt source length format => some (.cmsapt, Cpic.cmsapt source length format)
  | cmsbt v => some (.cmsbt, Cpic.cmsbt v)
  | cmscsp source length => some (.cmscsp, Cpic.cmscsp source length)
  | cmscst v => some (.cmscst, Cpic.cmscst v)
  | cmscsu source length => some (.cmscsu, Cpic.cmscsu source length)
  | cmsct v => some (.cmsct, Cpic.cmsct v)
  | cmscu v => some (.cmscu, Cpic.cmscu v)
  | cmsdt v => some (.cmsdt, Cpic.cmsdt v)
  | cmsed v => some (.cmsed, Cpic.cmsed v)
  | cmsf v => some (.cmsf, Cpic.cmsf v)
  | cmsid source length => some (.cmsid, Cpic.cmsid source length)
  | cmsld source length => some (.cmsld, Cpic.cmsld source length)
  | cmsmn source length => some (.cmsmn, Cpic.cmsmn source length)
  | cmspdp v => some (.cmspdp, Cpic.cmspdp v)
  | cmspid a => some (.cmspid, Cpic.cmspid a)
  | cmspln source length => some (.cmspln, Cpic.cmspln source length)
  | cmspm v => some (.cmspm, Cpic.cmspm v)
  | cmsptr v => some (.cmsptr, Cpic.cmsptr v)
  | cmsrc v => some (.cmsrc, Cpic.cmsrc v)
  | cmsrt v => some (.cmsrt, Cpic.cmsrt v)
  | cmssl v => some (.cmssl, Cpic.cmssl v)
  | cmssrm v => some (.cmssrm, Cpic.cmssrm v)
  | cmsst v => some (.cmsst, Cpic.cmsst v)
  | cmstc v => some (.cmstc, Cpic.cmstc v)
  | cmstpn source length => some (.cmstpn, Cpic.cmstpn source length)
  | unsupported => none

/-- What a call leaves: the conversation, and whether its transaction program
has been released. -/
structure Result where
  rc : Int
  conversation : Conversation
  released : Bool

/-- `sna_cpic_cpicall`, on the conversation found. Deallocate does not ask the
state machine: it releases the transaction program whatever the verb router
returns, and leaves the state. -/
def cpicall (router : Router) (req : Request) (c : Conversation) : Result :=
  match req with
  | .cmdeal => ⟨appc2cpicRc (router .deallocate c.tp).rc, c, true⟩
  | .unsupported => ⟨cmCallNotSupported, c, false⟩
  | req =>
    match req.body router with
    | none => ⟨cmCallNotSupported, c, false⟩
    | some (call, body) => ⟨(guarded call body c).1, (guarded call body c).2, false⟩

/-- A call as an event; no call can follow the release. -/
def step (c : Conversation) (e : Router × Request) : Option Conversation :=
  if (cpicall e.1 e.2 c).released then none else some (cpicall e.1 e.2 c).conversation

end LinuxSna.Cpic
