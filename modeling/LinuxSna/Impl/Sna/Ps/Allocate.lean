import LinuxSna.Framework.Run
import LinuxSna.Impl.Sna.Sm.Session

/-!
# Allocate

The Allocate verb of a transaction program, from presentation services through the
resource manager and back. The verb sleeps twice: while the route of its session is
activated, and until a session of the program is active. What happens meanwhile are
events of the session manager.
-/

namespace LinuxSna.Ps

open Framework (find update run)
open Hs (HsCb)
open Rm (ModeCb RemoteLuCb TpCb)
open Sm (Lists Event StartEnv RouteEnv step allocRcb getSessionLookup requestSession enoent enomem)

def acRcAllocationFailureNoRetry : Rc := 28

def eagain : Int := 11

/-- What an Allocate finds when it sends the Attach: the port and its link station,
and memory for the FMH-5 and for the MU that takes it. -/
structure AttachEnv where
  port : Bool
  fmh5 : Bool
  mu : Bool

/-- What an Allocate finds, and what happens while it sleeps: until
`sna_cs_activate_route` comes back with `pcIndex`, and until it is woken up. -/
structure AllocEnv where
  rcbAlloc : Bool
  scbHs : UInt32
  start : StartEnv
  routing : List Event
  pcIndex : Option UInt32
  route : RouteEnv
  waiting : List Event
  attach : AttachEnv

/-! ## The session -/

/-- `sna_rm_wait_for_session_activated` -/
def waitForSessionActivated (l : Lists) (tpIndex : UInt32) (waiting : List Event) :
    Option (Int × Lists) :=
  match l.tp tpIndex with
  | none => none
  | some tp =>
    if tp.state = .active then some (0, l)
    else
      (run step l waiting).bind fun l =>
        (l.tp tpIndex).map fun tp => (if tp.state = .active then 0 else -eagain, l)

/-- What `sna_rm_get_session` returns, the lists after it, and the session that it
has started, if any. -/
structure GotSession where
  err : Int
  lists : Lists
  own : Option UInt32

/-- The end of `sna_rm_get_session`: what the activation has returned is written
over. -/
def awaitSession (l : Lists) (tpIndex : UInt32) (waiting : List Event) (own : Option UInt32) :
    Option GotSession :=
  (waitForSessionActivated l tpIndex waiting).map fun r => ⟨r.1, r.2, own⟩

/-- `sna_rm_get_session` -/
def getSession (l : Lists) (tpIndex : UInt32) (e : AllocEnv) : Option GotSession :=
  match l.tp tpIndex with
  | none => none
  | some tp =>
    match getSessionLookup l tp with
    | .error err => some ⟨err, l, none⟩
    | .ok (mode, remoteLu) =>
      (requestSession l tp mode remoteLu e.start).bind fun r =>
        match r.1 with
        | .returned _ => awaitSession r.2 tpIndex e.waiting none
        | .sleeps i =>
          (run step r.2 e.routing).bind fun l =>
            (step l (.routeDone i e.pcIndex e.route)).bind fun l =>
              awaitSession l tpIndex e.waiting (some i)

/-! ## The conversation -/

/-- What is written to the control block of a conversation. -/
def setRcb (l : Lists) (rcb : Rm.Rcb) : Lists :=
  { l with rcbList := update Rm.Rcb.index rcb.index (fun _ => rcb) l.rcbList }

/-- `sna_ps_conv_fsm_conversation` on the control block. -/
def fsmRcb (who : Who) (action : ConvInput) (rcb : Rm.Rcb) : Rm.Rcb :=
  { rcb with ps := (fsmConversation who action { rcb := rcb.ps } false).2.rcb }

/-- `sna_ps_conv_obtain_session` after `sna_rm_get_session` -/
def obtainSession (l : Lists) (rcb : Rm.Rcb) (err : Int) : Int × Rm.Rcb :=
  if err < 0 then (err, rcb)
  else
    match l.hs rcb.hsIndex with
    | none => (-enoent, rcb)
    | some hs =>
      match l.pc hs.pcIndex with
      | none => (-enoent, rcb)
      | some pc =>
        (err, { rcb with
          rxMaxBtu := pc.rxMaxBtu
          ps := { rcb.ps with txMaxBtu := pc.txMaxBtu.toNat } })

/-- `sna_dfc_send_from_ps_data` for an Attach: it is put into the MU of the
half-session, which is sent later. The half-session that has got it is returned. -/
def sendFromPsData (l : Lists) (rcb : Rm.Rcb) (mu : Bool) : Int × Lists × Option UInt32 :=
  match l.hs rcb.hsIndex with
  | none => (-enoent, l, none)
  | some hs =>
    if hs.dfc.sendMu || mu then
      (0, l.setHs { hs with dfc := { hs.dfc with sendMu := true } }, some hs.index)
    else (-enomem, l, none)

/-- `sna_ps_conv_build_and_send_fmh5` -/
def buildAndSendFmh5 (l : Lists) (tp : TpCb) (rcb : Rm.Rcb) (e : AttachEnv) :
    Int × Lists × Option UInt32 :=
  match l.hs rcb.hsIndex with
  | none => (-enoent, l, none)
  | some hs =>
    if (l.lulu hs.luluIndex).isNone || (l.pc hs.pcIndex).isNone || !e.port ||
        (l.remoteLu tp.remoteLuIndex).isNone then (-enoent, l, none)
    else if e.fmh5 then sendFromPsData l rcb e.mu
    else (-enomem, l, none)

/-- What an Allocate returns, and what it has done: the conversation that it has
linked, what `sna_rm_get_session` has returned, the session that it has started and
the half-session that has got the Attach. -/
structure AllocDone where
  rc : Rc
  lists : Lists
  rcbIndex : Option UInt32
  session : Option Int
  own : Option UInt32
  attached : Option UInt32

/-- `sna_ps_conv_rcb_allocated_proc` after `sna_rm_get_session` -/
def rcbAllocatedProc (tp : TpCb) (rcb : Rm.Rcb) (s : GotSession) (e : AttachEnv) : AllocDone :=
  let o := obtainSession s.lists rcb s.err
  if o.1 < 0 then
    { rc := acRcAllocationFailureNoRetry, lists := setRcb s.lists (fsmRcb .r .allocationErrorRc o.2),
      rcbIndex := some rcb.index, session := some s.err, own := s.own, attached := none }
  else
    let rcb := fsmRcb .none .allocate o.2
    let a := buildAndSendFmh5 (setRcb s.lists rcb) tp rcb e
    { rc := if a.1 < 0 then acRcUnsuccessful else acRcOk, lists := a.2.1, rcbIndex := some rcb.index,
      session := some s.err, own := s.own, attached := a.2.2 }

/-- `sna_ps_conv_alloc_proc` -/
def allocProc (l : Lists) (tpIndex : UInt32) (e : AllocEnv) : Option AllocDone :=
  match l.tp tpIndex with
  | none => none
  | some tp =>
    (allocRcb l tp e.rcbAlloc e.scbHs).bind fun r =>
      match r.1 with
      | none => some ⟨acRcUnsuccessful, r.2, none, none, none, none⟩
      | some new =>
        (getSession r.2 tpIndex e).bind fun s =>
          (s.lists.rcb new.index).map fun rcb => rcbAllocatedProc tp rcb s e.attach

/-- A program allocates a conversation, or something else happens. -/
inductive AllocEvent where
  | allocate (tpIndex : UInt32) (e : AllocEnv)
  | other (e : Event)

/-- The lists after an event; `none` if an Allocate cannot be issued or does not come
back. -/
def allocStep (l : Lists) : AllocEvent → Option Lists
  | .allocate tpIndex e => (allocProc l tpIndex e).map (·.lists)
  | .other e => step l e

end LinuxSna.Ps
