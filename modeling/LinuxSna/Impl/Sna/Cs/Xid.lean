import LinuxSna.Impl.Sna.Cs.LinkStation

/-!
# The XID exchange of a link station

`xid_doit`, its handlers and outputs, and the connection state machine that
drives it. The handlers call `xid_doit` again, always with an input they have
just set; here they call the handler of that input, which is defined before
them. Errors that no caller looks at are left out.
-/

namespace LinuxSna.Cs

/-- Whether `sna_alloc_skb` and `skb_copy` succeed. -/
structure Buffers where
  image : Bool := true
  copy : Bool := true

/-- What succeeds while an input is handled: the buffers of the handler itself
and those of a reset inside it; the allocation of a path control instance and
of an address space; the update of the topology database. -/
structure Env where
  own : Buffers := {}
  reset : Buffers := {}
  pc : Bool := true
  as : Bool := true
  tg : Bool := true

/-! ## XIDs -/

/-- `htonl`, on a little-endian host -/
def htonl (x : UInt32) : UInt32 :=
  x <<< (24 : UInt32) ||| ((x <<< (8 : UInt32)) &&& (0xFF0000 : UInt32)) |||
    ((x >>> (8 : UInt32)) &&& (0xFF00 : UInt32)) ||| x >>> (24 : UInt32)

/-- `sna_cs_xid_pkt_input`; `none` is -1. -/
def xidPktInput (r : Received) : Option XidIn :=
  if r.empty then some .null
  else match r.xid.state with
  | .pn => some .pn
  | .none | .neg =>
    match r.xid.lsRole with
    | .sec => some .sec
    | .pri => some .pri
    | .neg => some .neg
    | .rsv => none
  | .nonactive => none

/-- `xid_flip_direction` -/
def xidFlipDirection (ls : Ls) : Ls :=
  match ls.xidDirection with
  | .inbound => { ls with xidDirection := .outbound }
  | .outbound => { ls with xidDirection := .inbound }
  | .invalid => ls

/-- `xid_node_id_high` -/
def xidNodeIdHigh (ls : Ls) : Bool :=
  match ls.xidLastRx with
  | none => true
  | some r => ls.nodeid > r.xid.nodeid

/-- `xid_node_id_low` -/
def xidNodeIdLow (ls : Ls) : Bool :=
  match ls.xidLastRx with
  | none => true
  | some r => ls.nodeid < r.xid.nodeid

/-- `xid_node_id_eq` -/
def xidNodeIdEq (ls : Ls) : Bool :=
  match ls.xidLastRx with
  | none => true
  | some r => ls.nodeid = r.xid.nodeid

/-- `xid_pkt_init` -/
def xidPktInit (ls : Ls) : Xid3 where
  lsRole := ls.effectiveRole
  nodeid := htonl ls.nodeid
  wholeBind := ls.xidWholeBind
  wholeBindPiuReq := ls.xidWholeBindPiuReq
  networkNode := ls.xidNetworkNode
  txAdaptiveBindPacing := ls.xidTxAdaptiveBindPacing
  rxAdaptiveBindPacing := ls.xidRxAdaptiveBindPacing
  quiesceTg := ls.xidQuiesceTg
  parallelTgSup := ls.xidParallelTgSup
  tgNum := ls.effectiveTg

/-! ## Outputs -/

/-- `XID_OUT_`, without those that call `xid_doit` again. -/
inductive XidOut where
  | null
  | pn
  | neg
  | negId
  | pri
  | sec
  | priR
  | secR
  | random
  | z2

/-- The end of the outputs that send an XID. -/
def xidSend (b : Buffers) (image : Option Xid3) (ls : Ls) : Ls :=
  if !b.image then ls
  else { ls with
    xidLastTx := if b.copy then some image else none
    xidLastTxDirection := ls.xidDirection
    retry := ls.retry || ls.xidDirection = .outbound
    sent := ls.sent ++ [.xid ls.xidDirection image false] }

/-- `xid_output_null` -/
def xidOutputNull (b : Buffers) (ls : Ls) : Ls := xidSend b none ls

/-- `xid_output_pn` -/
def xidOutputPn (b : Buffers) (ls : Ls) : Ls :=
  xidSend b (some { xidPktInit ls with state := .pn }) ls

/-- `xid_output_neg`, and `xid_output_neg_id`, `xid_output_pri` and
`xid_output_sec`, which are the same. -/
def xidOutputNeg (b : Buffers) (ls : Ls) : Ls :=
  let ls := tgNegotiate { ls with tgInput := .adjLoc }
  xidSend b (some { xidPktInit ls with state := .neg }) ls

/-- `xid_output` -/
def xidOutput (b : Buffers) (action : XidOut) (ls : Ls) : Ls :=
  match action with
  | .null => xidOutputNull b ls
  | .pn => xidOutputPn b ls
  | .neg | .negId => xidOutputNeg b { ls with effectiveRole := .neg }
  | .pri => xidOutputNeg b { ls with effectiveRole := .pri }
  | .sec => xidOutputNeg b { ls with effectiveRole := .sec }
  | .priR => { ls with effectiveRole := .pri }
  | .secR => { ls with effectiveRole := .sec }
  | .random | .z2 => ls

/-- `xid_output`, and the state that follows. -/
def output (b : Buffers) (action : XidOut) (state : XidState) (ls : Ls) : Ls :=
  { xidOutput b action ls with xidState := state }

/-- An answer: `xid_flip_direction`, then `xid_output` and the state that
follows. -/
def answer (b : Buffers) (action : XidOut) (state : XidState) (ls : Ls) : Ls :=
  output b action state (xidFlipDirection ls)

/-! ## `XID_IN_BEGIN` and the test of the link -/

/-- `xid_input_begin` -/
def xidInputBegin (b : Buffers) (ls : Ls) : Ls :=
  if ls.xidDirection = .inbound ∧ ls.direction = .dirOut then ls
  else if ls.xidDirection = .outbound ∧ ls.direction = .dirIn then ls
  else if ls.xidState = .reset then
    match ls.xidInitMethod, ls.effectiveRole with
    | .null, _ => xidOutput b .null ls
    | .pn, _ => output b .pn .sPn ls
    | .np, .neg => output b .neg .sNeg ls
    | .np, .pri => output b .pri .sPri ls
    | .np, _ => ls
  else ls

/-- The retry limit is reached. -/
def exhausted (ls : Ls) : Bool :=
  !ls.retryOnFail || (ls.retryTimes ≠ 0 && ls.retries ≥ ls.retryTimes)

/-- `sna_cs_connect_out`, with what it calls as `xid_doit` -/
def connectOutWith (doit : Ls → Ls) (ls : Ls) : Ls :=
  let ls := { ls with retry := false }
  match ls.coStatus with
  | .reset | .sTestC =>
    if ls.state ≠ .activated then ls
    else if exhausted ls then { ls with coStatus := .fail }
    else { ls with
      retries := ls.retries + 1
      coStatus := .sTestC
      retry := true
      sent := ls.sent ++ [.test] }
  | .rTestR => doit { ls with coStatus := .testOk, retries := 0 }
  | .testOk => doit ls
  | .fail | .active => ls

/-! ## Path control instances and address spaces -/

/-- `sna_pc_get_by_index` -/
def pcGetByIndex (pcList : List PcCb) (index : UInt32) : Option PcCb :=
  pcList.find? (·.index = index)

/-- `sna_pc_new_index`, for so many passes. -/
def pcNewIndex : Nat → UInt32 → List PcCb → Option UInt32
  | 0, _, _ => none
  | n + 1, systemIndex, pcList =>
    let i := if systemIndex + 1 = 0 then 1 else systemIndex + 1
    if (pcGetByIndex pcList i).isNone then some i else pcNewIndex n i pcList

/-- `sna_cs_pc_activate`. One more pass than there are instances finds an
index. -/
def pcActivate (alloc : Bool) (ls : Ls) : Bool × Ls :=
  if !alloc then (false, ls)
  else match pcNewIndex (ls.pcList.length + 1) ls.pcSystemIndex ls.pcList with
  | none => (false, ls)
  | some i =>
    (true, { ls with
      pcIndex := i
      pcSystemIndex := i
      pcList := ls.pcList ++ [⟨i, ls.portIndex, ls.index⟩] })

/-- `sna_cs_pc_deactivate` -/
def pcDeactivate (ls : Ls) : Ls :=
  { ls with pcList := ls.pcList.eraseP (·.index = ls.pcIndex), pcIndex := 0 }

/-- `sna_cs_as_activate` -/
def asActivate (alloc : Bool) (ls : Ls) : Bool × Ls :=
  if !alloc then (false, ls)
  else
    let r := Asm.activateAs ls.asmList ⟨ls.pcIndex, ls.odai, 0, []⟩
    (r.1 = 0, { ls with asmList := r.2 })

/-- `sna_cs_as_deactivate` -/
def asDeactivate (ls : Ls) : Ls :=
  { ls with asmList := (Asm.deactivateAs ls.asmList ls.pcIndex).2 }

/-! ## `XID_IN_RESET` and the resending of an XID -/

/-- `xid_input_reset`. The state is Reset before the link is disconnected,
so no disconnect is sent. -/
def xidInputReset (b : Buffers) (ls : Ls) : Ls :=
  let ls := tgNegotiate { ls with retry := false, retries := 0, tgInput := .reset }
  let ls := { ls with
    coStatus := if ls.direction = .dirOut then .reset else .testOk
    xidState := .reset
    xidInput := some .reset
    xidDirection := .invalid
    xidLastTxDirection := .invalid
    effectiveRole := ls.role
    xidLastTx := none
    xidLastRx := none }
  let ls := pcDeactivate (asDeactivate ls)
  if ls.running then
    connectOutWith (xidInputBegin b)
      { ls with state := .activated, xidInput := some .start, xidDirection := .outbound }
  else { ls with state := .defined }

/-- `xid_output_resend` -/
def xidOutputResend (env : Env) (ls : Ls) : Ls :=
  match ls.xidLastTx with
  | none => ls
  | some image =>
    if !env.own.copy then ls
    else if ls.state ≠ .activated then ls
    else if exhausted ls then
      xidInputReset env.reset { ls with xidInput := some .reset, xidFailed := true }
    else { ls with
      retries := ls.retries + 1
      retry := true
      sent := ls.sent ++ [.xid ls.xidLastTxDirection image true] }

/-! ## `XID_IN_ACTIVE` and the surprise SNRM -/

/-- `sna_cs_xid_results` -/
def xidResults (ls : Ls) : Ls :=
  if ls.xidLastTx = none ∨ ls.xidLastRx = none then ls
  else { ls with odai := if ls.effectiveRole = .pri then 0 else 1 }

/-- The activations of `xid_input_active`; each is tried if the one before it
succeeded. -/
def activations (env : Env) (ls : Ls) : Bool × Ls :=
  match pcActivate env.pc ls with
  | (false, ls) => (false, ls)
  | (true, ls) =>
    match asActivate env.as ls with
    | (false, ls) => (false, ls)
    | (true, ls) => (env.tg, ls)

/-- `xid_input_active`, and whether it succeeds -/
def xidInputActive (env : Env) (ls : Ls) : Bool × Ls :=
  if ls.xidState = .active then (true, ls)
  else activations env (xidResults { ls with xidState := .active, state := .active })

/-- What `xid_suprise_srnm` asks of the last XID received. -/
def supriseAllowed (xid : Xid3) (effectiveRole : Role) : Bool :=
  !xid.networkNode && !xid.cpCpSupport && !xid.parallelTgSup && xid.tgNum = 0 && xid.wholeBind &&
    xid.wholeBindPiuReq && !xid.rxAdaptiveBindPacing && !xid.txAdaptiveBindPacing &&
    (xid.lsRole = .sec || effectiveRole = .sec) && !xid.secNonactiveXchg && !xid.cpNameChg &&
    !xid.quiesceTg

/-- `xid_suprise_srnm`, and whether it succeeds -/
def xidSupriseSrnm (env : Env) (ls : Ls) : Bool × Ls :=
  match ls.xidLastRx with
  | none => (false, ls)
  | some r =>
    if supriseAllowed r.xid ls.effectiveRole then
      xidInputActive env
        { tgNegotiate { ls with tgInput := .setmode } with xidInput := some .active }
    else (false, ls)

/-! ## The other inputs -/

/-- `xid_input_pn` -/
def xidInputPn (env : Env) (ls : Ls) : Ls :=
  match ls.xidState with
  | .reset =>
    match ls.xidInitMethod, ls.effectiveRole with
    | .null, _ | .pn, _ => answer env.own .pn .sPn ls
    | .np, .neg => answer env.own .neg .sNeg ls
    | .np, .pri => answer env.own .pri .sPri ls
    | .np, .sec => answer env.own .sec .sSec ls
    | .np, .rsv => ls
  | .sPn =>
    match ls.effectiveRole with
    | .neg => answer env.own .neg .sNeg ls
    | .pri => answer env.own .pri .sPri ls
    | .sec => answer env.own .sec .sSec ls
    | .rsv => ls
  | .sNeg | .sPri | .sSec | .rPriSSec | .sPriRSec => xidOutputResend env ls
  | .active => ls

/-- `xid_output_z1` -/
def xidOutputZ1 (env : Env) (ls : Ls) : Ls :=
  if ls.xidState = .reset then
    xidInputPn env { tgNegotiate { ls with tgInput := .reset } with
      xidInput := some .pn, xidDirection := .outbound }
  else ls

/-- `xid_output_err_opt` -/
def xidOutputErrOpt (env : Env) (ls : Ls) : Ls :=
  match xidSupriseSrnm env ls with
  | (true, ls) => ls
  | (false, ls) =>
    let ls := xidInputReset env.reset
      { tgNegotiate { ls with tgInput := .reset } with xidInput := some .reset }
    xidInputPn env { ls with xidInput := some .pn, xidDirection := .outbound }

/-- `xid_input_null` -/
def xidInputNull (env : Env) (ls : Ls) : Ls :=
  match ls.xidState with
  | .reset =>
    match ls.xidInitMethod, ls.effectiveRole with
    | .null, _ | .pn, _ => answer env.own .pn .sPn ls
    | .np, .neg => answer env.own .neg .sNeg ls
    | .np, .pri => answer env.own .pri .sPri ls
    | .np, .sec => answer env.own .sec .sSec ls
    | .np, .rsv => ls
  | .sPn | .sNeg | .sPri | .sSec | .rPriSSec | .sPriRSec => xidOutputResend env ls
  | .active => ls

/-- `xid_input_neg` -/
def xidInputNeg (env : Env) (ls : Ls) : Ls :=
  match ls.xidState with
  | .reset | .sPn =>
    if ls.effectiveRole = .neg ∧ xidNodeIdHigh ls then answer env.own .pri .sPri ls
    else if ls.effectiveRole = .neg ∧ xidNodeIdLow ls then answer env.own .sec .sSec ls
    else if ls.effectiveRole = .neg ∧ xidNodeIdEq ls then answer env.own .negId .sNeg ls
    else if ls.effectiveRole = .pri then answer env.own .pri .sPri ls
    else if ls.effectiveRole = .sec then answer env.own .sec .sSec ls
    else ls
  | .sNeg =>
    if xidNodeIdHigh ls then output env.own .priR .sPri ls
    else if xidNodeIdLow ls then output env.own .secR .sSec ls
    else if xidNodeIdEq ls then xidOutput env.own .random ls
    else ls
  | .sPri | .sSec | .rPriSSec | .sPriRSec => xidOutputResend env ls
  | .active => ls

/-- `xid_input_pri` -/
def xidInputPri (env : Env) (ls : Ls) : Ls :=
  match ls.xidState with
  | .reset =>
    match ls.effectiveRole with
    | .neg | .sec => answer env.own .sec .rPriSSec ls
    | .pri => xidOutputZ1 env ls
    | .rsv => ls
  | .sPn =>
    match ls.effectiveRole with
    | .neg | .sec => answer env.own .sec .rPriSSec ls
    | .pri => { xidOutputZ1 env (xidFlipDirection ls) with xidState := .reset }
    | .rsv => ls
  | .sNeg => output env.own .secR .rPriSSec ls
  | .sPri | .sPriRSec => { xidOutputZ1 env ls with xidState := .reset }
  | .sSec => { ls with xidState := .rPriSSec }
  | .rPriSSec | .active => ls

/-- `xid_input_sec`. In `S_PRI` the link is connected; that changes nothing
here until the connection is confirmed. -/
def xidInputSec (env : Env) (ls : Ls) : Ls :=
  match ls.xidState with
  | .reset | .sPn =>
    if ls.effectiveRole ≠ .sec then answer env.own .pri .sPri ls else xidOutputZ1 env ls
  | .sNeg => output env.own .priR .sPri ls
  | .sPri => { ls with xidState := .sPriRSec }
  | .sSec | .rPriSSec => { xidOutputZ1 env ls with xidState := .reset }
  | .sPriRSec | .active => ls

/-- `xid_input_setmode`. What follows `xid_output_err_opt` does not depend on
whether the link has become active there. -/
def xidInputSetmode (env : Env) (ls : Ls) : Ls :=
  match ls.xidState with
  | .reset | .sPn | .sNeg | .sSec => { xidOutputErrOpt env ls with xidState := .rPriSSec }
  | .sPri | .sPriRSec => output env.own .z2 .reset ls
  | .rPriSSec =>
    (xidInputActive env { ls with xidInput := some .active, xidDirection := .inbound }).2
  | .active => ls

/-- `xid_doit` -/
def xidDoit (env : Env) (ls : Ls) : Ls :=
  match ls.xidInput with
  | some .start => xidInputBegin env.own ls
  | some .null => xidInputNull env ls
  | some .pn => xidInputPn env ls
  | some .neg => xidInputNeg env ls
  | some .pri => xidInputPri env ls
  | some .sec => xidInputSec env ls
  | some .setmode => xidInputSetmode env ls
  | some .active => (xidInputActive env ls).2
  | some .reset => xidInputReset env.own ls
  | none => ls

/-! ## The connection state machine -/

/-- `sna_cs_connect_in` -/
def connectIn (env : Env) (ls : Ls) : Ls :=
  let ls := { ls with retry := false }
  if ls.state = .defined then ls else xidDoit env ls

/-- `sna_cs_connect_out` -/
def connectOut (env : Env) (ls : Ls) : Ls := connectOutWith (xidDoit env) ls

end LinuxSna.Cs
