import LinuxSna.Framework.Duplex
import LinuxSna.Impl.Sna.Cs.Xid

/-!
# What drives a link station

The commands of the node operator, the retry timer, and the indications and
confirmations of the data link control.
-/

namespace LinuxSna.Cs

/-! ## The node operator -/

/-- `sna_cs_start_ls`, in a node and on a port that are not stopped -/
def startLs (env : Env) (ls : Ls) : Ls :=
  if ls.state ≠ .defined ∨ ls.running then ls
  else connectOut env { ls with
    state := .activated, xidInput := some .start, xidDirection := .outbound, running := true }

/-- `sna_cs_stop_ls_gen` -/
def stopLs (env : Env) (ls : Ls) : Ls :=
  if !ls.running then ls
  else if ls.xidState = .active then
    { ls with running := false, xidInput := some .reset, retry := true }
  else xidDoit env { ls with running := false, xidInput := some .reset }

/-- `sna_cs_activate_route`, up to where it waits -/
def activateRoute (env : Env) (ls : Ls) : Ls :=
  if ls.state = .active then ls else connectOut env ls

/-! ## The data link control -/

/-- `sna_dlc_llc_ind_test_rsp` -/
def indTestRsp (env : Env) (ls : Ls) : Ls := connectOut env { ls with coStatus := .rTestR }

/-- `sna_dlc_llc_ind_xid_cmd`, for an XID that could be copied -/
def indXidCmd (env : Env) (r : Received) (ls : Ls) : Ls :=
  connectIn env { ls with
    xidInput := xidPktInput r, xidDirection := .inbound, xidLastRx := some r }

/-- `sna_dlc_llc_ind_xid_rsp`, for an XID that could be copied -/
def indXidRsp (env : Env) (r : Received) (ls : Ls) : Ls :=
  connectOut env { ls with
    xidInput := xidPktInput r, xidDirection := .inbound, xidLastRx := some r }

/-- `sna_dlc_llc_ind_conn` -/
def indConn (env : Env) (ls : Ls) : Ls :=
  connectOut env { ls with llcSk := true, xidInput := some .setmode, xidDirection := .inbound }

/-- `sna_dlc_llc_ind_disc` -/
def indDisc (env : Env) (ls : Ls) : Ls :=
  connectIn env { ls with xidInput := some .reset, xidDirection := .inbound }

/-- `sna_dlc_llc_conf_conn` -/
def confConn (ok : Bool) (ls : Ls) : Ls :=
  { ls with llcSk := ok, xidInput := some (if ok then .active else .reset) }

/-- `xid_output_connect_finish`; without a connection the task is queued again
or dropped. -/
def xidOutputConnectFinish (env : Env) (ls : Ls) : Ls :=
  if ls.xidInput = some .active ∧ ls.llcSk then xidDoit env { ls with xidDirection := .outbound }
  else ls

/-- `sna_dlc_llc_conf_disc` -/
def confDisc (env : Env) (ls : Ls) : Ls := connectOut env { ls with xidInput := some .reset }

/-! ## Any input -/

/-- A call of `xid_doit`: the input and its direction, the XID if one was
received, and whether the operator lets the link run. -/
structure XidCall where
  env : Env
  input : XidIn
  direction : XidDir
  received : Option Received
  running : Bool

/-- The station in which `xid_doit` is called. -/
def XidCall.prepare (c : XidCall) (ls : Ls) : Ls :=
  { ls with
    xidInput := some c.input
    xidDirection := c.direction
    xidLastRx := c.received <|> ls.xidLastRx
    running := c.running }

/-- What follows a call of `xid_doit`. -/
def xidCall (ls : Ls) (c : XidCall) : Option Ls := some (xidDoit c.env (c.prepare ls))

/-! ## All events -/

/-- What can happen to a link station. -/
inductive Event where
  | startLs
  | stopLs
  | activateRoute
  | retry
  | indTestRsp
  | indXidCmd (r : Received)
  | indXidRsp (r : Received)
  | indConn
  | indDisc
  | confConn (ok : Bool)
  | connectFinish
  | confDisc
  deriving DecidableEq

/-- What follows an event; the timer goes off only when it runs. -/
def handle (ls : Ls) : Env × Event → Option Ls
  | (env, .startLs) => some (startLs env ls)
  | (env, .stopLs) => some (stopLs env ls)
  | (env, .activateRoute) => some (activateRoute env ls)
  | (env, .retry) => if ls.retry then some (connectOut env ls) else none
  | (env, .indTestRsp) => some (indTestRsp env ls)
  | (env, .indXidCmd r) => some (indXidCmd env r ls)
  | (env, .indXidRsp r) => some (indXidRsp env r ls)
  | (env, .indConn) => some (indConn env ls)
  | (env, .indDisc) => some (indDisc env ls)
  | (_, .confConn ok) => some (confConn ok ls)
  | (env, .connectFinish) => some (xidOutputConnectFinish env ls)
  | (env, .confDisc) => some (confDisc env ls)

/-!
## Where XID inputs are handled

The link station in which an event calls `xid_doit`.
-/

/-- The station in which `sna_cs_connect_out` calls `xid_doit`, if it does -/
def outCalled (ls : Ls) : Option Ls :=
  match ls.coStatus with
  | .rTestR => some { ls with retry := false, coStatus := .testOk, retries := 0 }
  | .testOk => some { ls with retry := false }
  | .reset | .sTestC | .fail | .active => none

/-- The station in which an event calls `xid_doit`, if it does -/
def called (ls : Ls) : Event → Option Ls
  | .startLs =>
    if ls.state ≠ .defined ∨ ls.running then none
    else outCalled { ls with
      state := .activated, xidInput := some .start, xidDirection := .outbound, running := true }
  | .stopLs =>
    if !ls.running ∨ ls.xidState = .active then none
    else some { ls with running := false, xidInput := some .reset }
  | .activateRoute => if ls.state = .active then none else outCalled ls
  | .retry => outCalled ls
  | .indTestRsp => outCalled { ls with coStatus := .rTestR }
  | .indXidCmd r =>
    if ls.state = .defined then none
    else some { ls with
      retry := false, xidInput := xidPktInput r, xidDirection := .inbound, xidLastRx := some r }
  | .indXidRsp r =>
    outCalled { ls with xidInput := xidPktInput r, xidDirection := .inbound, xidLastRx := some r }
  | .indConn => outCalled { ls with llcSk := true, xidInput := some .setmode, xidDirection := .inbound }
  | .indDisc =>
    if ls.state = .defined then none
    else some { ls with retry := false, xidInput := some .reset, xidDirection := .inbound }
  | .confConn _ => none
  | .connectFinish =>
    if ls.xidInput = some .active ∧ ls.llcSk then some { ls with xidDirection := .outbound } else none
  | .confDisc => outCalled { ls with xidInput := some .reset }

/-!
## Two link stations that negotiate their roles

A link station as one end of a link, from where it can send its id: on its own
it sends its negotiation XID, and what it sends the other end receives.
-/

/-- What a station has sent goes on the link. -/
def transmit (ls : Ls) : Ls × List Frame := ({ ls with sent := [] }, ls.sent)

/-- A station whose allocations succeed. It sends its XID when it begins the
exchange or, after the prenegotiation XIDs, when it receives the other's. -/
def negotiator : Framework.Party Ls Xid3 Frame where
  act ls xid :=
    match ls.xidState with
    | .reset =>
      some (transmit
        (connectOut {} { ls with xidInput := some .start, xidDirection := .outbound }))
    | .sPn => some (transmit (indXidCmd {} ⟨false, { xid with state := .pn }⟩ ls))
    | _ => none
  receive ls frame :=
    match frame with
    | .xid .outbound (some xid) _ => some (transmit (indXidCmd {} ⟨false, xid⟩ ls))
    | .xid _ (some xid) _ => some (transmit (indXidRsp {} ⟨false, xid⟩ ls))
    -- a null XID is not part of the negotiation, and the LLC echoes a test
    | .xid _ none _ | .test => none

end LinuxSna.Cs
