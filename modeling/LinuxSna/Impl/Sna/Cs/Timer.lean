import LinuxSna.Impl.Sna.Cs.Dlc

/-!
# The retry timer of a link station

The calls of `add_timer` and `del_timer` while an event is handled, in the order of the code; and
the link stations in the lists of the ports, with those that were freed while their timer was
pending.
-/

namespace LinuxSna.Cs

/-- `add_timer` and `del_timer`, of `ls->retry` -/
inductive TimerOp where
  | add
  | del

/-- Whether the timer is pending after some calls; `none` if one adds it while it is pending. -/
def runTimer : Bool → List TimerOp → Option Bool
  | pending, [] => some pending
  | _, .del :: ops => runTimer false ops
  | true, .add :: _ => none
  | false, .add :: ops => runTimer true ops

/-! ## Outputs and BEGIN -/

/-- The end of the outputs that send an XID. -/
def sendOps (b : Buffers) (ls : Ls) : List TimerOp :=
  if b.image ∧ ls.xidDirection = .outbound then [.add] else []

/-- An answer: `xid_flip_direction`, then such an output. -/
def answerOps (b : Buffers) (ls : Ls) : List TimerOp := sendOps b (xidFlipDirection ls)

/-- `xid_input_begin` -/
def beginOps (b : Buffers) (ls : Ls) : List TimerOp :=
  if ls.xidDirection = .inbound ∧ ls.direction = .dirOut then []
  else if ls.xidDirection = .outbound ∧ ls.direction = .dirIn then []
  else if ls.xidState = .reset then
    match ls.xidInitMethod, ls.effectiveRole with
    | .null, _ | .pn, _ | .np, .neg | .np, .pri => sendOps b ls
    | .np, .sec | .np, .rsv => []
  else []

/-- `sna_cs_connect_out`, with what it calls as `xid_doit` -/
def connectOutOps (doit : Ls → List TimerOp) (ls : Ls) : List TimerOp :=
  .del ::
    match ls.coStatus with
    | .reset | .sTestC => if ls.state ≠ .activated ∨ exhausted ls then [] else [.add]
    | .rTestR => doit { ls with retry := false, coStatus := .testOk, retries := 0 }
    | .testOk => doit { ls with retry := false }
    | .fail | .active => []

/-- `xid_input_reset` -/
def resetOps (b : Buffers) (ls : Ls) : List TimerOp :=
  .del ::
    if ls.running then
      connectOutOps (beginOps b) { ls with
        retry := false
        retries := 0
        coStatus := if ls.direction = .dirOut then .reset else .testOk
        xidState := .reset
        xidInput := some .start
        xidDirection := .outbound
        effectiveRole := ls.role
        state := .activated }
    else []

/-- `xid_output_resend` -/
def resendOps (env : Env) (ls : Ls) : List TimerOp :=
  match ls.xidLastTx with
  | none => []
  | some _ =>
    if !env.own.copy then []
    else if ls.state ≠ .activated then []
    else if exhausted ls then resetOps env.reset ls
    else [.add]

/-! ## The inputs -/

/-- `xid_input_pn` -/
def inputPnOps (env : Env) (ls : Ls) : List TimerOp :=
  match ls.xidState with
  | .reset =>
    match ls.xidInitMethod, ls.effectiveRole with
    | .np, .rsv => []
    | .null, _ | .pn, _ | .np, _ => answerOps env.own ls
  | .sPn =>
    match ls.effectiveRole with
    | .neg | .pri | .sec => answerOps env.own ls
    | .rsv => []
  | .sNeg | .sPri | .sSec | .rPriSSec | .sPriRSec => resendOps env ls
  | .active => []

/-- `xid_output_z1` -/
def outputZ1Ops (env : Env) (ls : Ls) : List TimerOp :=
  if ls.xidState = .reset then inputPnOps env { ls with xidDirection := .outbound } else []

/-- `xid_output_err_opt` -/
def outputErrOptOps (env : Env) (ls : Ls) : List TimerOp :=
  if (xidSupriseSrnm env ls).1 then []
  else
    let ls := (xidSupriseSrnm env ls).2
    resetOps env.reset ls ++ inputPnOps env { xidInputReset env.reset
      { tgNegotiate { ls with tgInput := .reset } with xidInput := some .reset } with
      xidDirection := .outbound }

/-- `xid_input_null` -/
def inputNullOps (env : Env) (ls : Ls) : List TimerOp :=
  match ls.xidState with
  | .reset =>
    match ls.xidInitMethod, ls.effectiveRole with
    | .np, .rsv => []
    | .null, _ | .pn, _ | .np, _ => answerOps env.own ls
  | .sPn | .sNeg | .sPri | .sSec | .rPriSSec | .sPriRSec => resendOps env ls
  | .active => []

/-- `xid_input_neg` -/
def inputNegOps (env : Env) (ls : Ls) : List TimerOp :=
  match ls.xidState with
  | .reset | .sPn =>
    if ls.effectiveRole = .neg ∧ (xidNodeIdHigh ls ∨ xidNodeIdLow ls ∨ xidNodeIdEq ls) ∨
        ls.effectiveRole = .pri ∨ ls.effectiveRole = .sec then answerOps env.own ls
    else []
  | .sNeg => []
  | .sPri | .sSec | .rPriSSec | .sPriRSec => resendOps env ls
  | .active => []

/-- `xid_input_pri` -/
def inputPriOps (env : Env) (ls : Ls) : List TimerOp :=
  match ls.xidState with
  | .reset =>
    match ls.effectiveRole with
    | .neg | .sec => answerOps env.own ls
    | .pri => outputZ1Ops env ls
    | .rsv => []
  | .sPn =>
    match ls.effectiveRole with
    | .neg | .sec => answerOps env.own ls
    | .pri => outputZ1Ops env (xidFlipDirection ls)
    | .rsv => []
  | .sPri | .sPriRSec => outputZ1Ops env ls
  | .sNeg | .sSec | .rPriSSec | .active => []

/-- `xid_input_sec` -/
def inputSecOps (env : Env) (ls : Ls) : List TimerOp :=
  match ls.xidState with
  | .reset | .sPn => if ls.effectiveRole ≠ .sec then answerOps env.own ls else outputZ1Ops env ls
  | .sSec | .rPriSSec => outputZ1Ops env ls
  | .sNeg | .sPri | .sPriRSec | .active => []

/-- `xid_input_setmode` -/
def inputSetmodeOps (env : Env) (ls : Ls) : List TimerOp :=
  match ls.xidState with
  | .reset | .sPn | .sNeg | .sSec => outputErrOptOps env ls
  | .sPri | .sPriRSec | .rPriSSec | .active => []

/-- `xid_doit` -/
def doitOps (env : Env) (ls : Ls) : List TimerOp :=
  match ls.xidInput with
  | some .start => beginOps env.own ls
  | some .null => inputNullOps env ls
  | some .pn => inputPnOps env ls
  | some .neg => inputNegOps env ls
  | some .pri => inputPriOps env ls
  | some .sec => inputSecOps env ls
  | some .setmode => inputSetmodeOps env ls
  | some .reset => resetOps env.own ls
  | some .active | none => []

/-! ## All events -/

/-- `sna_cs_connect_in` -/
def connectInOps (env : Env) (ls : Ls) : List TimerOp :=
  .del :: if ls.state = .defined then [] else doitOps env { ls with retry := false }

/-- `sna_cs_stop_ls_gen` -/
def stopLsOps (env : Env) (ls : Ls) : List TimerOp :=
  if !ls.running then []
  else if ls.xidState = .active then [.add]
  else doitOps env { ls with running := false, xidInput := some .reset }

/-- What an event calls. -/
def eventOps (ls : Ls) : Env × Event → List TimerOp
  | (env, .startLs) =>
    if ls.state ≠ .defined ∨ ls.running then []
    else connectOutOps (doitOps env) { ls with
      state := .activated, xidInput := some .start, xidDirection := .outbound, running := true }
  | (env, .stopLs) => stopLsOps env ls
  | (env, .activateRoute) => if ls.state = .active then [] else connectOutOps (doitOps env) ls
  | (env, .retry) => connectOutOps (doitOps env) ls
  | (env, .indTestRsp) => connectOutOps (doitOps env) { ls with coStatus := .rTestR }
  | (env, .indXidCmd r) => connectInOps env { ls with
      xidInput := xidPktInput r, xidDirection := .inbound, xidLastRx := some r }
  | (env, .indXidRsp r) => connectOutOps (doitOps env) { ls with
      xidInput := xidPktInput r, xidDirection := .inbound, xidLastRx := some r }
  | (env, .indConn) => connectOutOps (doitOps env) { ls with
      llcSk := true, xidInput := some .setmode, xidDirection := .inbound }
  | (env, .indDisc) => connectInOps env { ls with
      xidInput := some .reset, xidDirection := .inbound }
  | (_, .confConn _) => []
  | (env, .connectFinish) =>
    if ls.xidInput = some .active ∧ ls.llcSk then doitOps env { ls with xidDirection := .outbound }
    else []
  | (env, .confDisc) => connectOutOps (doitOps env) { ls with xidInput := some .reset }

/-! ## The ports -/

/-- The link stations in the lists of the ports, and those that were freed with their timer
pending. -/
structure Ports where
  stations : List Ls := []
  freed : List Ls := []

/-- What can happen: a link station is defined or deleted, or something happens to one. -/
inductive PortsEvent where
  | define (cfg : LsCfg) (nodeid : UInt32) (networkNode : Bool) (portIndex index : UInt32)
  | delete (i : Nat) (env : Env)
  | station (i : Nat) (e : Env × Event)

/-- `sna_cs_define_ls`, `sna_cs_delete_ls_gen`, and an event of a link station -/
def Ports.step (k : Ports) : PortsEvent → Option Ports
  | .define cfg nodeid networkNode portIndex index =>
    some { k with stations := k.stations ++ [defineLs cfg nodeid networkNode portIndex index] }
  | .delete i env =>
    k.stations[i]?.map fun ls =>
      let ls := stopLs env ls
      { stations := k.stations.eraseIdx i
        freed := if ls.retry then k.freed ++ [ls] else k.freed }
  | .station i e => do
    let ls ← k.stations[i]?
    let ls ← handle ls e
    return { k with stations := k.stations.set i ls }

/-- What a step calls, and of which link station. -/
def Ports.ops (k : Ports) : PortsEvent → Option (Ls × List TimerOp)
  | .define .. => none
  | .delete i env => k.stations[i]?.map fun ls => (ls, stopLsOps env ls)
  | .station i e => k.stations[i]?.map fun ls => (ls, eventOps ls e)

end LinuxSna.Cs
