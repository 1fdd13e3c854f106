import LinuxSna.Framework.Run
import LinuxSna.Impl.Sna.Cpic.Services
import LinuxSna.Proof.Sna.Cpic.SendData
import LinuxSna.Proof.Sna.Ps.Outcome

/-!
# The two states of a conversation

The state that the calls keep and the one that presentation services keep. They stay in step over
Allocate, Send_Data, the Set calls and a Receive from Send or Receive; a Receive from Send-Pending,
for which `sna_cpic_fsm_cmrcv_w` has no case, leaves the one where it is and moves the other.

* `InStep`: the pairs of states that belong together;
* `Steady`: what holds between the calls;
* `allocate_leaves`, `sendData_leaves`, `wait_leaves`, `immediate_leaves`: the calls with a verb;
* `states_agree`: in all runs of such calls no verb is refused, and after `CM_OK` the states agree.
-/

namespace LinuxSna.Cpic

open Framework (Along next along_of_invariant)

variable {b : Both} {c : Conversation} {e : Env} {req : Request} {y : Reply}

/-! ## Agreement -/

/-- `sna_ps_conv_fsm_conversation` refuses the verb. Allocate is not asked about. -/
def refused (v : Verb) (p : Ps.Conversation) : Bool :=
  match v with
  | .allocate | .deallocate => false
  | .sendData _ => (Ps.fsmConversation .s .sendData p true).1
  | .receiveAndWait => (Ps.fsmConversation .s .receiveAndWait p true).1
  | .receiveImmediate => (Ps.fsmConversation .s .receiveImmediate p true).1

/-- The state of the calls says the same as that of presentation services. -/
structure Agree (s : State) (t : Ps.ConvState) : Prop where
  send : s = .send ∨ s = .sendPending ↔ t = .sendState
  receive : s = .receive ↔ t = .rcvState
  confirm : s = .confirm ↔ t = .rcvdConfirm
  confirmSend : s = .confirmSend ↔ t = .rcvdConfirmSend
  confirmDeallocate : s = .confirmDeallocate ↔ t = .rcvdConfirmDeall

instance (s : State) (t : Ps.ConvState) : Decidable (Agree s t) :=
  decidable_of_iff ((s = .send ∨ s = .sendPending ↔ t = .sendState) ∧
      (s = .receive ↔ t = .rcvState) ∧ (s = .confirm ↔ t = .rcvdConfirm) ∧
      (s = .confirmSend ↔ t = .rcvdConfirmSend) ∧ (s = .confirmDeallocate ↔ t = .rcvdConfirmDeall))
    ⟨fun ⟨send, receive, confirm, confirmSend, confirmDeallocate⟩ =>
        ⟨send, receive, confirm, confirmSend, confirmDeallocate⟩,
      fun h => ⟨h.send, h.receive, h.confirm, h.confirmSend, h.confirmDeallocate⟩⟩

/-- The verb of a call is not refused, and after `CM_OK` the states agree. -/
def Agrees (b : Both) : BothEvent → Prop
  | .call e req =>
    (∀ i ∈ issued req b.c, refused i.1 b.ps = false) ∧
      ∀ r ∈ b.call e req, r.1.rc = cmOk → Agree r.1.conversation.state r.2.rcb.convState
  | .received _ => True

instance (b : Both) : DecidablePred (Agrees b)
  | .call e req => inferInstanceAs (Decidable ((∀ i ∈ issued req b.c, refused i.1 b.ps = false) ∧
      ∀ r ∈ b.call e req, r.1.rc = cmOk → Agree r.1.conversation.state r.2.rcb.convState))
  | .received _ => .isTrue trivial

/-- `data_received` and `received_length` can be written to the caller's memory. -/
def Request.writable : Request → Bool
  | .cmrcv _ toData toLength => toData && toLength
  | _ => true

/-- Where there is a session, the Attach can be sent. A Receive that waits is not issued in
Send-Pending, its results can be written, and the MUs it comes to are fair. -/
def Orderly (b : Both) : BothEvent → Prop
  | .call e req => ∀ i ∈ issued req b.c,
    match i.1 with
    | .allocate => e.rcb = true → e.session ≠ none → e.attach = true
    | .receiveAndWait =>
      b.c.state ≠ .sendPending ∧ req.writable = true ∧
        ∀ s d, Ps.loopStart (asking i.2.rxReqLen (handOver i.2 e b.ps)) = some s →
          Ps.Rounds s d → Ps.Fair (b.c.state = .send) d d.rcb.hsToPsBufferQueue
    | _ => True
  | .received _ => True

/-- The states that belong together while there is a conversation -/
inductive InStep : State → Ps.ConvState → Prop where
  | initialized : InStep .initialized .reset
  | send : InStep .send .sendState
  | sendPending : InStep .sendPending .sendState
  | receive : InStep .receive .rcvState

theorem InStep.agree {s : State} {t : Ps.ConvState} (h : InStep s t) : Agree s t := by
  cases h <;> constructor <;> decide

/-- What holds between the calls -/
structure Steady (b : Both) : Prop where
  characteristics : Characteristics b.c.tp
  idle : Ps.Idle b.ps
  inStep : b.c.state = .reset ∨ InStep b.c.state b.ps.rcb.convState

/-! ## Calls that issue no verb -/

/-- The calls that issue a verb, or are not supported -/
def Request.works : Request → Bool
  | .cmallc | .cmdeal | .cmrcv .. | .cmsend .. | .unsupported => true
  | _ => false

/-- The other calls set a characteristic. -/
theorem body_setter {router : Router} {call : Call} {body : Body} (hr : req.works = false)
    (hb : req.body router = some (call, body)) : ∃ accepts, fsmOf call = setter accepts := by
  cases req with
  | cmallc | cmdeal | cmrcv | cmsend | unsupported => cases hr
  | _ =>
    cases hb
    exact ⟨_, rfl⟩

theorem setter_keeps (accepts : State → Bool) (i : Input) (c : Conversation) (readonly : Bool) :
    (setter accepts i c readonly).2 = c := by
  show ((if c.state = .reset then genericPc else if accepts c.state then accept else genericSc)
    i c readonly).2 = c
  split_ifs <;> rfl

theorem fsmCmrcv_eq (hc : Characteristics c.tp) (i : Input) (readonly : Bool) :
    fsmCmrcv i c readonly =
      if c.tp.receiveType = acReceiveAndWait then fsmCmrcvW i c readonly
      else fsmCmrcvI i c readonly := by
  have htype := hc.receiveType
  show (if c.tp.receiveType = acReceiveAndWait then fsmCmrcvW
    else if c.tp.receiveType = acReceiveImmediate then fsmCmrcvI else accept) i c readonly = _
  by_cases hw : c.tp.receiveType = acReceiveAndWait
  · rw [if_pos hw, if_pos hw]
  · have hi : c.tp.receiveType = acReceiveImmediate := by
      simp only [acReceiveAndWait, acReceiveImmediate] at htype hw ⊢
      omega
    rw [if_neg hw, if_neg hw, if_pos hi]

/-- In Reset no call is allowed. -/
theorem passes_reset {router : Router} {call : Call} {body : Body} (hs : c.state = .reset)
    (hc : Characteristics c.tp) (hb : req.body router = some (call, body)) :
    passes call c = false := by
  obtain ⟨s, tp⟩ := c
  obtain rfl : s = .reset := hs
  rw [passes, decide_eq_false_iff_not, fsmHd]
  have hpc : cmProgramParameterCheck ≠ 0 := by decide
  cases hr : req.works with
  | false =>
    obtain ⟨accepts, hset⟩ := body_setter hr hb
    rw [hset]
    exact hpc
  | true =>
    cases req with
    | cmallc | cmsend =>
      cases hb
      exact hpc
    | cmrcv =>
      cases hb
      show (fsmCmrcv _ _ _).1 ≠ 0
      rw [fsmCmrcv_eq hc]
      split_ifs
      · exact hpc
      · exact hpc
    | cmdeal | unsupported => cases hb
    | _ => cases hr

theorem guarded_refused {call : Call} {body : Body} (h : passes call c = false) :
    (guarded call body c).1 = cmProgramStateCheck := by
  show (attempt call body c).1 = _
  rw [attempt, if_pos (of_decide_eq_false h)]

theorem guarded_passes {call : Call} {body : Body} (h : passes call c = true) :
    guarded call body c = ((body c.tp).1,
      (fsmHd { c with tp := (body c.tp).2 } call (body c.tp).1 (body c.tp).2.dataReceived
        (body c.tp).2.statusReceived (body c.tp).2.sendReceiveMode false).2) := by
  have hb : attempt call body c = body c.tp := if_neg (not_not.mpr (of_decide_eq_true h))
  rw [guarded, hb]

/-- In Reset no call ends with `CM_OK`. -/
theorem cpicall_reset {router : Router} (hs : c.state = .reset) (hc : Characteristics c.tp)
    (hr : req ≠ .cmdeal) : (cpicall router req c).rc ≠ cmOk := by
  have hg {call : Call} {body : Body} (hb : req.body router = some (call, body)) :
      (guarded call body c).1 ≠ cmOk := by
    rw [guarded_refused (passes_reset hs hc hb)]
    decide
  cases req with
  | cmdeal => exact absurd rfl hr
  | unsupported =>
    show cmCallNotSupported ≠ cmOk
    decide
  | _ => exact hg rfl

/-! ## The bodies -/

theorem cmallc_eq (router : Router) (tp : Tp) :
    cmallc router tp =
      if allocatable tp then
        (appc2cpicRc (router .allocate tp).rc, tp.replied (router .allocate tp))
      else (cmProgramParameterCheck, tp) := by
  unfold cmallc allocatable
  split_ifs <;> simp_all

theorem cmsend_sent {bytes : UserBytes} {length : UserValue} {alloc : Bool} {bs : List UInt8}
    (h : sent bytes length alloc = some bs) (router : Router) (tp : Tp) :
    cmsend router bytes length alloc tp =
      (appc2cpicRc (router (.sendData (sendRecord tp bs)) tp).rc,
        tp.replied (router (.sendData (sendRecord tp bs)) tp)) := by
  obtain ⟨n, rfl, hn⟩ := Option.bind_eq_some_iff.mp h
  split at hn
  · cases hn
  · rename_i hlen
    obtain ⟨hmax, rfl⟩ : n ≤ acMaxBuffer ∧ alloc = true := by simpa using hlen
    rw [cmsend]
    dsimp only
    rw [if_neg (Nat.not_lt.mpr hmax), if_neg (by decide), hn]

theorem cmsend_unsent {bytes : UserBytes} {length : UserValue} {alloc : Bool}
    (h : sent bytes length alloc = none) (router : Router) (tp : Tp) :
    (cmsend router bytes length alloc tp).1 ∈ inertCodes := by
  cases length with
  | none =>
    show cmProductSpecificError ∈ inertCodes
    decide
  | some n =>
    rw [cmsend]
    dsimp only
    split_ifs with hmax halloc
    · show cmProgramParameterCheck ∈ inertCodes
      decide
    · show cmProductSpecificError ∈ inertCodes
      decide
    · have hn : utok bytes n = none := by
        rw [sent, Option.bind_some, if_neg (by simp_all)] at h
        exact h
      rw [hn]
      show cmProductSpecificError ∈ inertCodes
      decide

theorem cmrcv_asked {length : UserValue} {n : Nat}
    (h : length.filter (· ≤ acMaxBuffer) = some n) (router : Router) (toData toLength : Bool)
    (tp : Tp) :
    cmrcv router length toData toLength tp = toUser toData toLength (receive router n tp) := by
  obtain ⟨rfl, hn⟩ := Option.filter_eq_some_iff.mp h
  rw [cmrcv, if_neg (Nat.not_lt.mpr (of_decide_eq_true hn))]

theorem cmrcv_unasked {length : UserValue} (h : length.filter (· ≤ acMaxBuffer) = none)
    (router : Router) (toData toLength : Bool) (tp : Tp) :
    (cmrcv router length toData toLength tp).1 ∈ inertCodes := by
  cases length with
  | none =>
    show cmProductSpecificError ∈ inertCodes
    decide
  | some n =>
    have hn : n > acMaxBuffer := by simpa using h
    rw [cmrcv, if_pos hn]
    show cmProgramParameterCheck ∈ inertCodes
    decide

/-! ## Calls without a verb -/

/-- Without a verb the state is kept. -/
theorem unissued_state (h : issued req c = none) (router : Router) :
    (cpicall router req c).conversation.state = c.state := by
  have hinert (call : Call) (body : Body)
      (hbody : passes call c = true → (body c.tp).1 ∈ inertCodes) :
      (guarded call body c).2.state = c.state := by
    apply guarded_inert
    cases hp : passes call c with
    | false =>
      rw [guarded_refused hp]
      exact .head _
    | true =>
      rw [guarded_passes hp]
      exact hbody hp
  have hset {call : Call} {body : Body} (hr : req.works = false)
      (hb : req.body router = some (call, body)) : (guarded call body c).2.state = c.state := by
    obtain ⟨accepts, hset⟩ := body_setter hr hb
    simp only [guarded, fsmHd, hset, setter_keeps]
  cases req with
  | cmdeal => cases h
  | unsupported => rfl
  | cmallc =>
    refine hinert .cmallc (cmallc router) fun hp => ?_
    have ha : allocatable c.tp = false := by
      rw [issued, hp] at h
      simpa using h
    rw [cmallc_eq, ha]
    show cmProgramParameterCheck ∈ inertCodes
    decide
  | cmsend bytes length alloc =>
    refine hinert .cmsend (cmsend router bytes length alloc) fun hp => ?_
    rw [issued, if_pos hp, Option.map_eq_none_iff] at h
    exact cmsend_unsent h router c.tp
  | cmrcv length toData toLength =>
    refine hinert .cmrcv (cmrcv router length toData toLength) fun hp => ?_
    rw [issued, if_pos hp, Option.map_eq_none_iff] at h
    exact cmrcv_unasked h router toData toLength c.tp
  | _ => exact hset rfl rfl

/-! ## The verb of a call -/

/-- The verb that a call issues, and why it does -/
inductive Issues (c : Conversation) : Request → Verb → Tp → Prop where
  | allocate (hp : passes .cmallc c = true) (ha : allocatable c.tp = true) :
    Issues c .cmallc .allocate c.tp
  | deallocate : Issues c .cmdeal .deallocate c.tp
  | sendData {bytes : UserBytes} {length : UserValue} {alloc : Bool} {bs : List UInt8}
    (hp : passes .cmsend c = true) (hs : sent bytes length alloc = some bs) :
    Issues c (.cmsend bytes length alloc) (.sendData (sendRecord c.tp bs)) c.tp
  | receiveAndWait {length : UserValue} {toData toLength : Bool} {n : Nat}
    (hp : passes .cmrcv c = true) (ht : c.tp.receiveType = acReceiveAndWait)
    (hn : length.filter (· ≤ acMaxBuffer) = some n) :
    Issues c (.cmrcv length toData toLength) .receiveAndWait (c.tp.asks n)
  | receiveImmediate {length : UserValue} {toData toLength : Bool} {n : Nat}
    (hp : passes .cmrcv c = true) (ht : c.tp.receiveType ≠ acReceiveAndWait)
    (hn : length.filter (· ≤ acMaxBuffer) = some n) :
    Issues c (.cmrcv length toData toLength) .receiveImmediate (c.tp.asks n)

theorem issues {v : Verb} {tp : Tp} (h : issued req c = some (v, tp)) : Issues c req v tp := by
  cases req with
  | cmallc =>
    rw [issued] at h
    split at h
    · rename_i hp
      obtain ⟨hp, ha⟩ := Bool.and_eq_true_iff.mp hp
      cases h
      exact .allocate hp ha
    · cases h
  | cmdeal =>
    cases h
    exact .deallocate
  | cmsend =>
    rw [issued] at h
    split at h
    · obtain ⟨bs, hs, h⟩ := Option.map_eq_some_iff.mp h
      cases h
      exact .sendData ‹_› hs
    · cases h
  | cmrcv =>
    rw [issued] at h
    split at h
    · obtain ⟨n, hn, h⟩ := Option.map_eq_some_iff.mp h
      rw [receiveVerb] at h
      split at h
      · cases h
        exact .receiveAndWait ‹_› ‹_› hn
      · cases h
        exact .receiveImmediate ‹_› ‹_› hn
    · cases h
  | _ => cases h

/-- Where a call with a verb is allowed, the states belong together. -/
theorem Steady.of_passes (h : Steady b) {call : Call} (hcall : call ∈ [.cmallc, .cmsend, .cmrcv])
    (hp : passes call b.c = true) : InStep b.c.state b.ps.rcb.convState := by
  refine h.inStep.resolve_left fun hs => ?_
  have hreset (req : Request) {body : Body} (hb : req.body routerOk = some (call, body)) :
      False := by
    rw [passes_reset hs h.characteristics hb] at hp
    cases hp
  simp only [List.mem_cons, List.not_mem_nil, or_false] at hcall
  obtain rfl | rfl | rfl := hcall
  · exact hreset .cmallc rfl
  · exact hreset (.cmsend [] none true) rfl
  · exact hreset (.cmrcv none true true) rfl

section States

variable {s : State} {t : Ps.ConvState} {tp : Tp}

theorem InStep.allocates (h : InStep s t) (hp : passes .cmallc ⟨s, tp⟩ = true) :
    s = .initialized ∧ t = .reset := by
  cases h with
  | initialized => exact ⟨rfl, rfl⟩
  | send | sendPending | receive => exact absurd hp Bool.false_ne_true

theorem InStep.sends (h : InStep s t) (hp : passes .cmsend ⟨s, tp⟩ = true) :
    (s = .send ∨ s = .sendPending) ∧ t = .sendState := by
  cases h with
  | send => exact ⟨.inl rfl, rfl⟩
  | sendPending => exact ⟨.inr rfl, rfl⟩
  | initialized | receive => exact absurd hp Bool.false_ne_true

theorem passes_cmrcv (hc : Characteristics tp) (h : passes .cmrcv ⟨s, tp⟩ = true) :
    (if tp.receiveType = acReceiveAndWait then
      fsmCmrcvW ⟨.cmrcv, cmOk, tp.dataReceived, tp.statusReceived, tp.sendReceiveMode⟩ ⟨s, tp⟩ true
    else fsmCmrcvI ⟨.cmrcv, cmOk, tp.dataReceived, tp.statusReceived, tp.sendReceiveMode⟩ ⟨s, tp⟩
      true).1 = 0 := by
  have h := of_decide_eq_true h
  have heq := fsmCmrcv_eq (c := ⟨s, tp⟩) hc
    ⟨.cmrcv, cmOk, tp.dataReceived, tp.statusReceived, tp.sendReceiveMode⟩ true
  rw [← heq]
  exact h

theorem InStep.waits (h : InStep s t) (hc : Characteristics tp)
    (hp : passes .cmrcv ⟨s, tp⟩ = true) (ht : tp.receiveType = acReceiveAndWait) :
    (s = .send ∨ s = .sendPending) ∧ t = .sendState ∨ s = .receive ∧ t = .rcvState := by
  have hp := passes_cmrcv hc hp
  rw [if_pos ht] at hp
  cases h with
  | initialized => exact absurd hp (show cmProgramStateCheck ≠ 0 by decide)
  | send => exact .inl ⟨.inl rfl, rfl⟩
  | sendPending => exact .inl ⟨.inr rfl, rfl⟩
  | receive => exact .inr ⟨rfl, rfl⟩

theorem InStep.receives (h : InStep s t) (hc : Characteristics tp)
    (hp : passes .cmrcv ⟨s, tp⟩ = true) (ht : tp.receiveType ≠ acReceiveAndWait) :
    s = .receive ∧ t = .rcvState := by
  have hp := passes_cmrcv hc hp
  rw [if_neg ht] at hp
  cases h with
  | receive => exact ⟨rfl, rfl⟩
  | initialized | send | sendPending => exact absurd hp (show cmProgramStateCheck ≠ 0 by decide)

end States

/-- No verb is refused. -/
theorem Steady.not_refused (h : Steady b) {v : Verb} {tp : Tp} (hi : Issues b.c req v tp) :
    refused v b.ps = false := by
  unfold refused Ps.fsmConversation Ps.move
  cases hi with
  | allocate | deallocate => rfl
  | sendData hp =>
    obtain ⟨-, ht⟩ := (h.of_passes (.tail _ (.head _)) hp).sends hp
    rw [ht]
    rfl
  | receiveAndWait hp hw =>
    have hin := h.of_passes (.tail _ (.tail _ (.head _))) hp
    obtain ⟨-, ht⟩ | ⟨-, ht⟩ := hin.waits h.characteristics hp hw
    · rw [ht]
      rfl
    · rw [ht]
      rfl
  | receiveImmediate hp hw =>
    have hin := h.of_passes (.tail _ (.tail _ (.head _))) hp
    obtain ⟨-, ht⟩ := hin.receives h.characteristics hp hw
    rw [ht]
    rfl

/-! ## What the verbs leave -/

section Idle

variable {p : Ps.Conversation}

theorem idle_handOver (h : Ps.Idle p) (tp : Tp) (e : Env) : Ps.Idle (handOver tp e p) where
  calm :=
    { signal := h.calm.signal
      errState := h.calm.errState
      syncLevel := h.calm.syncLevel
      rm := h.calm.rm
      hs := h.calm.hs
      arrivals := fun a ha => by
        obtain ⟨ms, -, rfl⟩ := List.mem_map.mp ha
        exact ⟨ms, rfl⟩ }
  post := h.post

theorem idle_asking (h : Ps.Idle p) (n : Nat) : Ps.Idle (asking n p) :=
  ⟨⟨h.calm.signal, h.calm.errState, h.calm.syncLevel, h.calm.rm, h.calm.hs,
    h.calm.arrivals⟩, h.post⟩

theorem idle_queueTail (h : Ps.Idle p) (record : List UInt8) : Ps.Idle (Ps.queueTail p record) :=
  ⟨⟨h.calm.signal, h.calm.errState, h.calm.syncLevel, h.calm.rm, h.calm.hs,
    h.calm.arrivals⟩, h.post⟩

theorem idle_arrive (h : Ps.Idle p) (ms : List Ps.Mu) :
    Ps.Idle (Ps.arrive p (.records [] (ms.map .mu))) :=
  ⟨h.calm.arrive ms, h.post⟩

/-- Allocate begins a new control block. -/
theorem idle_allocate (h : Ps.Idle p) (e : Env) : Ps.Idle (psConvAllocProc e p).2 := by
  have hnew (s : Ps.ConvState) (n : Nat) :
      Ps.Idle { p with found := true, rcb := { convState := s, txMaxBtu := n } } :=
    { calm :=
        { signal := h.calm.signal
          errState := rfl
          syncLevel := rfl
          rm := rfl
          hs := fun _ hr => absurd hr List.not_mem_nil
          arrivals := h.calm.arrivals }
      post := Ps.PostState.noConfusion }
  unfold psConvAllocProc
  split
  · exact h
  · dsimp only
    split
    · exact hnew .reset 0
    · exact hnew .sendState _

end Idle

/-- What a call leaves -/
structure Leaves (x : Result) (p : Ps.Conversation) : Prop where
  idle : Ps.Idle p
  state : x.rc ≠ cmOk ∧ x.conversation.state = .reset ∨ InStep x.conversation.state p.rcb.convState

/-- A call that is allowed: its code is that of its body, and the state machine is told of it. -/
theorem cpicall_passes {router : Router} {call : Call} {body : Body} {err : Int} {tp : Tp}
    (hb : req.body router = some (call, body)) (hp : passes call c = true)
    (hbody : body c.tp = (err, tp)) :
    (cpicall router req c).rc = err ∧
      (cpicall router req c).conversation.state =
        (fsmOf call ⟨call, err, tp.dataReceived, tp.statusReceived, tp.sendReceiveMode⟩
          ⟨c.state, tp⟩ false).2.state := by
  have hcall : cpicall router req c =
      ⟨(guarded call body c).1, (guarded call body c).2, false⟩ := by
    cases req with
    | cmdeal | unsupported => cases hb
    | _ =>
      cases hb
      rfl
  rw [hcall, guarded_passes hp, hbody]
  exact ⟨rfl, rfl⟩

/-! ## Return codes -/

/-- The code of a call, from that of its verb -/
def code (rc : Ps.Rc) : Int := appc2cpicRc (asInt rc)

theorem code_ok : code Ps.acRcOk = cmOk := by decide

theorem code_inert : ∀ rc ∈ [Ps.acRcUnsuccessful, Ps.acRcProgramParameterCheck,
    Ps.acRcProductSpecific], code rc ∈ inertCodes := by
  decide

theorem code_ended : ∀ rc ∈ [Ps.acRcResourceFailureNoRetry, Ps.acRcDeallocateNormal,
    Ps.acRcDeallocateAbendProg, Ps.acRcDeallocateAbendSvc, Ps.acRcDeallocateAbendTimer],
    code rc ∈ [cmResourceFailureNoRetry, cmDeallocatedNormal, cmDeallocatedAbend,
      cmDeallocatedAbendSvc, cmDeallocatedAbendTimer] := by
  decide

/-- A call that comes to nothing leaves the state as it was. -/
theorem leaves_inert {x : Result} {p : Ps.Conversation} (hp : Ps.Idle p)
    (hin : InStep c.state p.rcb.convState) (hx : x.conversation.state = c.state) : Leaves x p :=
  ⟨hp, .inr (hx ▸ hin)⟩

theorem reply_code (r : Ps.Rc × Ps.Conversation) : appc2cpicRc (reply r).rc = code r.1 := by
  rw [code, reply]

/-- The call whose verb came to this -/
theorem cpicall_verb (req : Request) {r : Ps.Rc × Ps.Conversation} {call : Call} {body : Body}
    {tp : Tp} (hb : req.body (replying (reply r)) = some (call, body)) (hp : passes call c = true)
    (hbody : body c.tp = (code r.1, tp.replied (reply r))) :
    (cpicall (replying (reply r)) req c).rc = code r.1 ∧
      (cpicall (replying (reply r)) req c).conversation.state =
        (fsmOf call ⟨call, code r.1, r.2.tp.dataReceived, r.2.tp.statusReceived, tp.sendReceiveMode⟩
          ⟨c.state, tp.replied (reply r)⟩ false).2.state :=
  cpicall_passes hb hp hbody

/-! ## Allocate -/

theorem cmallc_result {r : Ps.Rc × Ps.Conversation} (hs : c.state = .initialized)
    (hp : passes .cmallc c = true) (ha : allocatable c.tp = true) :
    (cpicall (replying (reply r)) .cmallc c).rc = code r.1 ∧
      (cpicall (replying (reply r)) .cmallc c).conversation.state =
        if rcAe (code r.1) true then .reset else if rcOk (code r.1) then .send else .initialized := by
  have hbody : cmallc (replying (reply r)) c.tp = (code r.1, c.tp.replied (reply r)) := by
    rw [cmallc_eq, if_pos ha, replying, reply_code]
  obtain ⟨hrc, hstate⟩ := cpicall_verb .cmallc rfl hp hbody
  refine ⟨hrc, hstate.trans ?_⟩
  rw [hs]
  show (cmallcInitialize _ _ false).2.state = _
  rw [cmallcInitialize, if_neg Bool.false_ne_true]
  split_ifs <;> rfl

/-- What Allocate comes to, if the Attach can be sent where there is a session -/
theorem psConvAllocProc_cases (p : Ps.Conversation)
    (hattach : e.rcb = true → e.session ≠ none → e.attach = true) :
    psConvAllocProc e p = (Ps.acRcUnsuccessful, p) ∨
      (psConvAllocProc e p).1 = Ps.acRcAllocationFailureNoRetry ∨
      (psConvAllocProc e p).1 = Ps.acRcOk ∧
        (psConvAllocProc e p).2.rcb.convState = .sendState := by
  unfold psConvAllocProc
  split
  · exact .inl rfl
  · rename_i hrcb
    dsimp only
    split
    · exact .inr (.inl rfl)
    · rename_i n hsession
      rw [hattach (by simpa using hrcb) (by rw [hsession]; exact Option.some_ne_none n)]
      exact .inr (.inr ⟨rfl, rfl⟩)

theorem allocate_leaves (h : Steady b) (hp : passes .cmallc b.c = true)
    (ha : allocatable b.c.tp = true) (hattach : e.rcb = true → e.session ≠ none → e.attach = true) :
    Leaves (cpicall (replying (reply (psConvAllocProc e (handOver b.c.tp e b.ps)))) .cmallc b.c)
      (psConvAllocProc e (handOver b.c.tp e b.ps)).2 := by
  have hidle := idle_allocate (idle_handOver h.idle b.c.tp e) e
  have hin := h.of_passes (.head _) hp
  obtain ⟨hrc, hstate⟩ := cmallc_result (r := psConvAllocProc e (handOver b.c.tp e b.ps))
    (hin.allocates hp).1 hp ha
  obtain hr | hr | ⟨hr, hsend⟩ := psConvAllocProc_cases (handOver b.c.tp e b.ps) hattach
  · rw [hr] at hidle hrc ⊢
    refine leaves_inert hidle hin (cpicall_inert _ _ _ ?_)
    rw [hrc]
    exact code_inert _ (.head _)
  · have hcode : code Ps.acRcAllocationFailureNoRetry = cmAllocateFailureNoRetry := by decide
    rw [hr, hcode] at hrc hstate
    refine ⟨hidle, .inl ⟨?_, hstate⟩⟩
    rw [hrc]
    decide
  · rw [hr, code_ok] at hstate
    refine ⟨hidle, .inr ?_⟩
    rw [hstate, hsend]
    exact .send

/-! ## Send_Data -/

theorem sendData_leaves (h : Steady b) (hp : passes .cmsend b.c = true) {bytes : UserBytes}
    {length : UserValue} {alloc : Bool} {bs : List UInt8} (hs : sent bytes length alloc = some bs)
    {r : Ps.Rc × Ps.Conversation}
    (hr : Ps.sendData e.slack
      (Ps.queueTail (handOver b.c.tp e b.ps) (sendRecord b.c.tp bs)) = some r) :
    Leaves (cpicall (replying (reply r)) (.cmsend bytes length alloc) b.c) r.2 := by
  have hin := h.of_passes (.tail _ (.head _)) hp
  obtain ⟨hsend, ht⟩ := hin.sends hp
  obtain ⟨hidle, hconv, hcodes⟩ :=
    Ps.sendData_idle (idle_queueTail (idle_handOver h.idle b.c.tp e) _) ht hr
  have hbody : cmsend (replying (reply r)) bytes length alloc b.c.tp =
      (code r.1, b.c.tp.replied (reply r)) := by
    rw [cmsend_sent hs, replying, reply_code]
  obtain ⟨hrc, hstate⟩ := cpicall_verb (.cmsend bytes length alloc) rfl hp hbody
  refine ⟨hidle, .inr ?_⟩
  rw [hconv]
  obtain hok | hcodes := List.mem_cons.mp hcodes
  · have htold := fsmCmsend_state (i := ⟨.cmsend, code r.1, r.2.tp.dataReceived,
      r.2.tp.statusReceived, b.c.tp.sendReceiveMode⟩) (c := ⟨b.c.state, b.c.tp.replied (reply r)⟩)
      (by rw [hok]; exact code_ok) ⟨h.characteristics.1, h.characteristics.2, h.characteristics.3⟩
      hsend
    rw [hstate]
    show InStep (fsmCmsend _ _ false).2.state _
    rw [htold]
    split
    · rw [← ht]
      exact hin
    · exact .send
  · have hinert : code r.1 ∈ inertCodes := code_inert _ (.tail _ hcodes)
    rw [cpicall_inert _ _ _ (hrc ▸ hinert), ← ht]
    exact hin

/-! ## What a wait brings -/

/-- Without a status, a Receive that waits in Receive stays there, or has ended the conversation. -/
theorem receiveWReceive_stays {i : Input} (hsr : i.sr = cmNoStatusReceived) (c : Conversation) :
    i.rc ≠ cmOk ∧ (receiveWReceive i c false).2.state = .reset ∨
      (receiveWReceive i c false).2.state = c.state := by
  have hstatus : srSe i.sr = false ∧ srCd i.sr = false ∧ srCo i.sr = false ∧ srCs i.sr = false ∧
      srTc i.sr = false ∧ srTd i.sr = false ∧ srTs i.sr = false := by
    rw [hsr]
    decide
  obtain ⟨se, cd, co, cs, tc, td, ts⟩ := hstatus
  rw [receiveWReceive, table_state]
  by_cases hok : rcOk i.rc = true
  · right
    simp only [ReceiveTable.rows, List.cons_append, next, hok, se, cd, co, cs, tc, td, ts,
      Bool.true_and, Bool.and_false, Bool.false_eq_true, if_false, if_true, ite_self,
      Option.getD_none]
  · have hne : i.rc ≠ cmOk := fun h => hok (decide_eq_true h)
    rw [Bool.not_eq_true] at hok
    simp only [ReceiveTable.rows, List.cons_append, List.nil_append, next, hok, Bool.false_and,
      Bool.false_eq_true, if_false, next_quiet endsW fun p => p i.rc, ite_self]
    -- What is left are the rows that end the conversation.
    split_ifs
    · exact .inl ⟨hne, rfl⟩
    · exact .inr rfl
    · exact .inl ⟨hne, rfl⟩
    · exact .inl ⟨hne, rfl⟩
    · exact .inr rfl

/-- What a wait from Send or from Receive brings, and the state that the table leads to -/
theorem brought_state {s : State} {tp : Tp} {rc : Ps.Rc} {t : Ps.ConvState} {dr sr fd : Nat}
    (hb : Ps.Brought (s = .send) rc (t, dr, sr)) (hs : s = .send ∨ s = .receive) :
    code rc ≠ cmOk ∧ (fsmCmrcvW ⟨.cmrcv, code rc, dr, sr, fd⟩ ⟨s, tp⟩ false).2.state = .reset ∨
      InStep (fsmCmrcvW ⟨.cmrcv, code rc, dr, sr, fd⟩ ⟨s, tp⟩ false).2.state t := by
  cases hb with
  | data h =>
    right
    rw [code_ok]
    simp only [List.mem_cons, List.not_mem_nil, or_false] at h
    obtain rfl | rfl := hs <;> obtain rfl | rfl | rfl := h <;> exact .receive
  | turned h =>
    right
    rw [code_ok]
    simp only [List.mem_cons, List.not_mem_nil, or_false] at h
    obtain rfl | rfl := hs
    · obtain rfl | rfl | rfl | rfl := h
      · exact .send
      · exact .sendPending
      · exact .sendPending
      · exact .sendPending
    · obtain rfl | rfl | rfl | rfl := h
      · exact .send
      · exact .sendPending
      · exact .sendPending
      · exact .sendPending
  | ended h =>
    left
    have hcode := code_ended rc h
    generalize code rc = k at hcode ⊢
    simp only [List.mem_cons, List.not_mem_nil, or_false] at hcode
    obtain rfl | rfl := hs <;> obtain rfl | rfl | rfl | rfl | rfl := hcode <;>
      exact ⟨by decide, rfl⟩
  | stays h =>
    obtain rfl : s = .receive := hs.resolve_left h
    generalize code rc = k
    have hstays := receiveWReceive_stays (i := ⟨.cmrcv, k, dr, Ps.acSrNoStatusReceived, fd⟩) rfl
      ⟨.receive, tp⟩
    refine hstays.imp id fun h => ?_
    show InStep (receiveWReceive _ _ false).2.state _
    rw [h]
    exact .receive

/-! ## Receive -/

theorem receive_reply {n : Nat} {tp : Tp} {r : Ps.Rc × Ps.Conversation} :
    receive (replying (reply r)) n tp =
      (code r.1, (tp.asks n).replied (reply r)) := by
  rw [receive]
  dsimp only
  rw [replying, replying, ite_self, reply_code, Tp.asks]

theorem toUser_ne {toData toLength : Bool} {err : Int} (h : err ≠ 0) (tp : Tp) :
    toUser toData toLength (err, tp) = (err, tp) := if_pos h

theorem toUser_writable (x : Int × Tp) : toUser true true x = x := by
  rw [toUser]
  split_ifs <;> simp_all

theorem immediate_leaves (h : Steady b) (hp : passes .cmrcv b.c = true)
    (ht : b.c.tp.receiveType ≠ acReceiveAndWait) {length : UserValue} {toData toLength : Bool}
    {n : Nat} (hn : length.filter (· ≤ acMaxBuffer) = some n) {tp : Tp}
    {r : Ps.Rc × Ps.Conversation}
    (hr : Ps.rcvImmediate (asking n (handOver tp e b.ps)) = some r) :
    Leaves (cpicall (replying (reply r)) (.cmrcv length toData toLength) b.c) r.2 := by
  have hin := h.of_passes (.tail _ (.tail _ (.head _))) hp
  obtain ⟨-, hrcv⟩ := hin.receives h.characteristics hp ht
  obtain ⟨hidle, hconv, hcodes⟩ :=
    Ps.rcvImmediate_idle (idle_asking (idle_handOver h.idle tp e) n) hrcv hr
  have hinert : code r.1 ∈ inertCodes := by
    apply code_inert
    simp only [List.mem_cons, List.not_mem_nil, or_false] at hcodes ⊢
    exact hcodes.imp id .inr
  have hne : code r.1 ≠ 0 := by
    intro h0
    rw [h0] at hinert
    revert hinert
    decide
  have hbody : cmrcv (replying (reply r)) length toData toLength b.c.tp =
      (code r.1, (b.c.tp.asks n).replied (reply r)) := by
    rw [cmrcv_asked hn, receive_reply, toUser_ne hne]
  obtain ⟨hrc, -⟩ := cpicall_verb (.cmrcv length toData toLength) rfl hp hbody
  refine ⟨hidle, .inr ?_⟩
  rw [cpicall_inert _ _ _ (hrc ▸ hinert), hconv, ← hrcv]
  exact hin

theorem wait_leaves (h : Steady b) (hp : passes .cmrcv b.c = true)
    (ht : b.c.tp.receiveType = acReceiveAndWait) (hs : b.c.state ≠ .sendPending)
    {length : UserValue} {n : Nat} (hn : length.filter (· ≤ acMaxBuffer) = some n) {tp : Tp}
    (hf : ∀ s d, Ps.loopStart (asking n (handOver tp e b.ps)) = some s → Ps.Rounds s d →
      Ps.Fair (b.c.state = .send) d d.rcb.hsToPsBufferQueue)
    {r : Ps.Rc × Ps.Conversation}
    (hr : Ps.rcvAndWait (asking n (handOver tp e b.ps)) = some r) :
    Leaves (cpicall (replying (reply r)) (.cmrcv length true true) b.c) r.2 := by
  have hin := h.of_passes (.tail _ (.tail _ (.head _))) hp
  have hstates := hin.waits h.characteristics hp ht
  obtain ⟨hidle, hbrought⟩ := Ps.rcvAndWait_brought (idle_asking (idle_handOver h.idle tp e) n)
    (hstates.imp And.right And.right) hf hr
  have hbody : cmrcv (replying (reply r)) length true true b.c.tp =
      (code r.1, (b.c.tp.asks n).replied (reply r)) := by
    rw [cmrcv_asked hn, receive_reply, toUser_writable]
  obtain ⟨hrc, hstate⟩ := cpicall_verb (.cmrcv length true true) rfl hp hbody
  refine ⟨hidle, ?_⟩
  obtain rfl | hbrought := hbrought
  · -- The verb has come to nothing: the conversation is not on the list.
    refine .inr ?_
    rw [cpicall_inert _ _ _ (hrc ▸ code_inert _ (.tail _ (.tail _ (.head _))))]
    exact hin
  · have hfrom : b.c.state = .send ∨ b.c.state = .receive := by
      obtain ⟨hsend, -⟩ | ⟨hreceive, -⟩ := hstates
      · exact .inl (hsend.resolve_right hs)
      · exact .inr hreceive
    rw [hrc, hstate]
    have hasks : Characteristics ((b.c.tp.asks n).replied (reply r)) :=
      ⟨h.characteristics.1, h.characteristics.2, h.characteristics.3⟩
    have htype : ((b.c.tp.asks n).replied (reply r)).receiveType = acReceiveAndWait := ht
    have heq := fsmCmrcv_eq (c := ⟨b.c.state, (b.c.tp.asks n).replied (reply r)⟩) hasks
      ⟨.cmrcv, code r.1, r.2.tp.dataReceived, r.2.tp.statusReceived,
        (b.c.tp.asks n).sendReceiveMode⟩ false
    rw [show fsmOf .cmrcv = fsmCmrcv from rfl, heq, if_pos htype]
    exact brought_state hbrought hfrom

/-! ## Runs -/

theorem unissued_leaves (h : Steady b) (hi : issued req b.c = none) (router : Router) :
    Leaves (cpicall router req b.c) b.ps := by
  have hstate := unissued_state hi router
  refine ⟨h.idle, ?_⟩
  rw [hstate]
  refine h.inStep.imp (fun hs => ⟨cpicall_reset hs h.characteristics ?_, hs⟩) id
  rintro rfl
  cases hi

/-- What a call leaves that returns -/
theorem call_leaves (h : Steady b) (hg : Orderly b (.call e req)) {r : Result × Ps.Conversation}
    (hr : b.call e req = some r) : Leaves r.1 r.2 := by
  rw [Both.call] at hr
  cases hi : issued req b.c with
  | none =>
    rw [hi] at hr
    cases hr
    exact unissued_leaves h hi _
  | some i =>
    obtain ⟨v, tp⟩ := i
    rw [hi] at hr
    obtain ⟨w, hw, rfl⟩ := Option.map_eq_some_iff.mp hr
    have hg := hg (v, tp) hi
    cases issues hi with
    | allocate hp ha =>
      cases hw
      exact allocate_leaves h hp ha hg
    | deallocate => cases hw
    | sendData hp hs => exact sendData_leaves h hp hs hw
    | receiveAndWait hp ht hn =>
      obtain ⟨hs, hwritable, hf⟩ := hg
      obtain ⟨rfl, rfl⟩ := Bool.and_eq_true_iff.mp hwritable
      exact wait_leaves h hp ht hs hn hf hw
    | receiveImmediate hp ht hn => exact immediate_leaves h hp ht hn hw

theorem Leaves.agree {x : Result} {p : Ps.Conversation} (h : Leaves x p) (hok : x.rc = cmOk) :
    Agree x.conversation.state p.rcb.convState :=
  (h.state.resolve_left fun hr => hr.1 hok).agree

theorem Steady.agrees (h : Steady b) {ev : BothEvent} (hg : Orderly b ev) : Agrees b ev := by
  cases ev with
  | call e req =>
    exact ⟨fun i hi => h.not_refused (issues hi), fun r hr hok => (call_leaves h hg hr).agree hok⟩
  | received => trivial

theorem Steady.step (h : Steady b) {ev : BothEvent} {b' : Both} (hg : Orderly b ev)
    (hs : b.step ev = some b') : Steady b' := by
  cases ev with
  | call e req =>
    obtain ⟨r, hr, rfl⟩ := Option.map_eq_some_iff.mp hs
    have hleaves := call_leaves h hg hr
    refine ⟨?_, hleaves.idle, hleaves.state.imp And.right id⟩
    rw [Both.call] at hr
    split at hr
    · cases hr
      exact cpicall_characteristics _ _ h.characteristics
    · obtain ⟨w, -, rfl⟩ := Option.map_eq_some_iff.mp hr
      exact cpicall_characteristics _ _ h.characteristics
  | received ms =>
    cases hs
    exact ⟨h.characteristics, idle_arrive h.idle ms, h.inStep⟩

theorem steady_start (side : Option SideInfo) : Steady (Both.start side) where
  characteristics := characteristics_cminit side
  idle :=
    { calm :=
        { signal := rfl
          errState := rfl
          syncLevel := rfl
          rm := rfl
          hs := fun _ hr => absurd hr List.not_mem_nil
          arrivals := fun _ ha => absurd ha List.not_mem_nil }
      post := Ps.PostState.noConfusion }
  inStep := .inr .initialized

/-- In every run of such calls, no verb is refused, and after each call that ends with `CM_OK` the
states agree. -/
theorem states_agree (side : Option SideInfo) {es : List BothEvent}
    (h : Along Both.step Orderly (Both.start side) es) :
    Along Both.step Agrees (Both.start side) es :=
  along_of_invariant (I := Steady) (fun _ _ _ hb hg hs => hb.step hg hs)
    (fun _ _ hb hg => hb.agrees hg) (steady_start side) h

/-- Where the wait brings these MUs -/
def bringing (ms : List Ps.Mu) : Env := { received := [ms] }

/-- Data, and the right to send -/
def lastData : Ps.Mu :=
  { data := [0, 6, 0x12, 0xFF, 65, 66], hsPsType := .prepareToRcvFlush
    received := Ps.CtrlType.prepareToRcvFlush_received }

/-- A conversation allocated, and a wait in which data come and the right to send -/
def turning : List BothEvent :=
  [.call {} .cmallc, .call (bringing [lastData]) (.cmrcv (some 8) true true)]

theorem states_agree_turning : Along Both.step Agrees (Both.start (some sideOne)) turning := by
  have hfair : ∀ b ∈ (Both.start (some sideOne)).step (.call {} .cmallc),
      ∀ s ∈ Ps.loopStart (asking 8 (handOver (b.c.tp.asks 8) (bringing [lastData]) b.ps)),
        Ps.Fair (b.c.state = .send) s s.rcb.hsToPsBufferQueue ∧ ∀ d ∈ Ps.nextRound s,
          Ps.Fair (b.c.state = .send) d d.rcb.hsToPsBufferQueue ∧ (Ps.nextRound d).isNone := by
    decide +kernel
  have hstate : ∀ b ∈ (Both.start (some sideOne)).step (.call {} .cmallc),
      b.c.state ≠ .sendPending := by
    decide +kernel
  refine states_agree (some sideOne)
    ⟨fun ⟨v, tp⟩ hi => ?_, fun b hb => ⟨fun ⟨v, tp⟩ hi => ?_, fun _ _ => trivial⟩⟩
  · cases issues hi with
    | allocate => exact fun _ _ => rfl
  · cases issues hi with
    | receiveAndWait hp ht hn =>
      cases hn
      refine ⟨hstate b hb, rfl, fun s d hs hd => ?_⟩
      obtain ⟨hfirst, hnext⟩ := hfair b hb s hs
      obtain rfl | ⟨t, ht, hd⟩ := hd.cases_head
      · exact hfirst
      · obtain ⟨hsecond, hlast⟩ := hnext t ht
        obtain rfl | ⟨u, hu, -⟩ := hd.cases_head
        · exact hsecond
        · rw [hu] at hlast
          cases hlast
    | receiveImmediate => trivial

/-- A Receive from Send-Pending ends with `CM_OK` and leaves the one state in Send-Pending, the other
in Receive. -/
theorem receive_in_send_pending :
    ¬ ∀ (side : Option SideInfo) (es : List BothEvent),
      Along Both.step Agrees (Both.start side) es := by
  intro h
  have hlast := h (some sideOne)
    (turning ++ [.call (bringing [{ data := [0, 6, 0x12, 0xFF, 67, 68] }])
      (.cmrcv (some 8) true true)])
  revert hlast
  decide +kernel

end LinuxSna.Cpic
