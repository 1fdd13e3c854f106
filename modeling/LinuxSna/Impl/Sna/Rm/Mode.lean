import LinuxSna.Impl.Sna.Tc

/-!
# Modes and session limits

The counters of a mode, and the two decisions that are taken from them: by the
resource manager before it counts a session as pending, and by the session
manager after. The counters have 16 bits; C adds and subtracts them as integers.
-/

namespace LinuxSna.Rm

open Hs (HsType)

/-- `struct sna_lu_count` -/
structure LuCount where
  sessions : UInt16
  conwinners : UInt16
  conlosers : UInt16
  deriving DecidableEq

namespace LuCount

def zero : LuCount := ⟨0, 0, 0⟩

/-- One more session of the type. -/
def count (c : LuCount) : HsType → LuCount
  | .fsp => { c with sessions := c.sessions + 1, conwinners := c.conwinners + 1 }
  | .bidder => { c with sessions := c.sessions + 1, conlosers := c.conlosers + 1 }

end LuCount

/-- `struct sna_mode_cb`. The name ends where the string in the buffer does. -/
structure ModeCb where
  index : UInt32
  modeName : List UInt8
  active : LuCount
  pending : LuCount
  userMax : LuCount
  txMaxRu : UInt16
  rxMaxRu : UInt16
  txPacing : UInt8
  rxPacing : UInt8
  deriving DecidableEq

/-- `struct sna_remote_lu_cb` -/
structure RemoteLuCb where
  useName : List UInt8
  index : UInt32
  sessions : UInt16
  parallel : Bool
  deriving DecidableEq

/-- The sessions of the mode, active and pending, that `sna_rm_session_activation_polarity`
adds up. -/
def ModeCb.total (mode : ModeCb) : Nat :=
  mode.pending.sessions.toNat + mode.active.sessions.toNat

/-- `sna_rm_session_activation_polarity`; `none` is `SNA_RM_RCB_TYPE_NONE`. -/
def sessionActivationPolarity (mode : ModeCb) (remoteLu : RemoteLuCb) : Option HsType :=
  if mode.total ≥ mode.userMax.sessions.toNat then none
  else if mode.total ≠ 0 ∧ remoteLu.parallel = false then none
  else if (mode.userMax.sessions.toNat : Int) - mode.userMax.conlosers.toNat >
      mode.active.conwinners.toNat + mode.pending.conwinners.toNat then
    some .fsp
  else some .bidder

/-- What `sna_rm_send_activate_session` counts. -/
def ModeCb.countPending (mode : ModeCb) (type : HsType) : ModeCb :=
  { mode with pending := mode.pending.count type }

/-- What `sna_rm_session_activated_proc` counts. -/
def ModeCb.countActive (mode : ModeCb) (type : HsType) : ModeCb :=
  { mode with active := mode.active.count type }

end LinuxSna.Rm

namespace LinuxSna.Sm

open Hs (HsType)
open Rm (LuCount ModeCb RemoteLuCb)

/-- `SNA_SM_S_STATE_` -/
inductive SessionState where
  | active
  | initSent
  | bindSent

/-- The counters that `sna_sm_lu_mode_session_limit` looks at. -/
def limitCount (mode : ModeCb) : SessionState → LuCount
  | .active => mode.active
  | .initSent | .bindSent => mode.pending

/-- `sna_sm_lu_mode_session_limit`: the limits are exceeded. -/
def luModeSessionLimit (remoteLu : RemoteLuCb) (mode : ModeCb) (type : HsType)
    (state : SessionState) : Bool :=
  let fspCnt : Int := (limitCount mode state).conwinners.toNat
  let bidderCnt : Int := (limitCount mode state).conlosers.toNat
  let totalLimit : Int := mode.userMax.sessions.toNat
  let fspLimit : Int := mode.userMax.conwinners.toNat
  let bidderLimit : Int := mode.userMax.conlosers.toNat
  if fspCnt + bidderCnt > totalLimit then true
  else if totalLimit - bidderLimit = fspCnt ∧ type = .fsp ∧ remoteLu.parallel then true
  else if totalLimit - fspLimit = bidderCnt ∧ type = .bidder then true
  else false

end LinuxSna.Sm
