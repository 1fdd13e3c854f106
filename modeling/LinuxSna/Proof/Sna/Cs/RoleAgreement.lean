import LinuxSna.Impl.Sna.Cs.Dlc
import LinuxSna.Impl.Sna.Cs.LinkStation
import LinuxSna.Proof.Sna.Cs.Exchange
import LinuxSna.Spec.Negotiation

/-!
# What two nodes negotiate

The number of their transmission group, and the roles of their link stations.

## The number of a transmission group

`sna_cs_tg_name_high` returns what `strncmp` returns, and the caller takes all
that is not zero for higher. So both of two nodes whose names differ find
theirs higher, and both of two nodes whose names print alike find theirs not
higher: `tgNegotiate_same`. In no case do they agree on whose number is used
(`tg_never`).
-/

namespace LinuxSna.Cs

open Framework (strncmp_swap)

/-- Two nodes find their own name higher at once, or neither does. -/
theorem tgNameHigh_swap (m n : Netid) : tgNameHigh n m = -tgNameHigh m n :=
  strncmp_swap fqcpNameLen _ _

/-- The link stations by which two nodes know each other, each about to
negotiate from Reset with its own number and the other's. -/
structure Proposing (a b : Ls) : Prop where
  name_a : a.pluName = b.netid
  name_b : b.pluName = a.netid
  reset_a : a.tgState = .reset
  reset_b : b.tgState = .reset
  input_a : a.tgInput = .adjLoc
  input_b : b.tgInput = .adjLoc
  own_a : 0 < a.effectiveTg
  own_b : 0 < b.effectiveTg
  other_a : a.alsEffectiveTg = b.effectiveTg
  other_b : b.alsEffectiveTg = a.effectiveTg

theorem Proposing.symm {a b : Ls} (h : Proposing a b) : Proposing b a :=
  ⟨h.name_b, h.name_a, h.reset_b, h.reset_a, h.input_b, h.input_a, h.own_b, h.own_a, h.other_b,
    h.other_a⟩

/-- Both stations use the same number, and one of them knows it for its own and
the other for its partner's. -/
def TgAgreed (a b : Ls) : Prop :=
  a.effectiveTg = b.effectiveTg ∧
    (a.tgState = .doneLocal ∧ b.tgState = .donePartner ∨
      a.tgState = .donePartner ∧ b.tgState = .doneLocal)

theorem tgNegotiate_state {a b : Ls} (h : Proposing a b) :
    (tgNegotiate a).tgState =
      if tgNameHigh a.netid b.netid ≠ 0 then .doneLocal else .donePartner := by
  have hown := h.own_a
  have hother : 0 < a.alsEffectiveTg := by
    rw [h.other_a]
    exact h.own_b
  simp only [tgNegotiate, h.input_a, h.reset_a, h.name_a]
  rw [if_neg (by omega), if_neg (by omega), if_neg (by omega), if_neg (by omega), if_pos trivial]
  split_ifs <;> rfl

/-- The two stations end in the same state. -/
theorem tgNegotiate_same {a b : Ls} (h : Proposing a b) :
    (tgNegotiate a).tgState = (tgNegotiate b).tgState := by
  rw [tgNegotiate_state h, tgNegotiate_state h.symm, tgNameHigh_swap a.netid b.netid]
  simp only [ne_eq, Int.neg_eq_zero]

/-- Two adjacent nodes never agree on a transmission group number. -/
theorem tg_never (a b : Ls) (h : Proposing a b) : ¬ TgAgreed (tgNegotiate a) (tgNegotiate b) := by
  have hs := tgNegotiate_same h
  rintro ⟨-, ⟨ha, hb⟩ | ⟨ha, hb⟩⟩
  · rw [ha, hb] at hs
    exact absurd hs (by decide)
  · rw [ha, hb] at hs
    exact absurd hs (by decide)

/-- `NET.A` and `NET.B` -/
def netA : Netid := ⟨[0x4E, 0x45, 0x54, 0x20, 0x20, 0x20, 0x20, 0x20, 0],
  [0x41, 0x20, 0x20, 0x20, 0x20, 0x20, 0x20, 0x20, 0]⟩

@[inherit_doc netA]
def netB : Netid := ⟨[0x4E, 0x45, 0x54, 0x20, 0x20, 0x20, 0x20, 0x20, 0],
  [0x42, 0x20, 0x20, 0x20, 0x20, 0x20, 0x20, 0x20, 0]⟩

/-- The link station of a node that proposes a number and has seen the number
the other proposes. -/
def proposer (name other : Netid) (own theirs : Nat) : Ls :=
  { defineLs ⟨.neg, .dirBoth, true, 3, own, name, other⟩ 1 true 1 1 with
    tgInput := .adjLoc, alsEffectiveTg := theirs }

theorem proposing_net : Proposing (proposer netA netB 1 2) (proposer netB netA 2 1) :=
  ⟨rfl, rfl, rfl, rfl, rfl, rfl, by decide, by decide, rfl, rfl⟩

theorem tg_never_net : ¬ TgAgreed (tgNegotiate (proposer netA netB 1 2))
    (tgNegotiate (proposer netB netA 2 1)) :=
  tg_never _ _ proposing_net

/-- `NET.A` and `NET.B` both keep their own number. -/
theorem tgNegotiate_net : netA ≠ netB ∧
    Proposing (proposer netA netB 1 2) (proposer netB netA 2 1) ∧
    ¬ TgAgreed (tgNegotiate (proposer netA netB 1 2)) (tgNegotiate (proposer netB netA 2 1)) ∧
    (tgNegotiate (proposer netA netB 1 2)).effectiveTg = 1 ∧
    (tgNegotiate (proposer netB netA 2 1)).effectiveTg = 2 := by
  refine ⟨by decide, proposing_net, ?_, by decide +kernel, by decide +kernel⟩
  rintro ⟨h, -⟩
  exact absurd h (by decide +kernel)

/-!
## The roles that two link stations negotiate

A station sends its node id in network order and compares it in host order. It
follows the station of `Spec.Negotiation` that compares its id with the bytes
of the other's reversed (`negotiator_follows`), and this comparison is not
opposite at the two ends for all ids: `role_agreement_iff`.
-/

open Framework Framework.Duplex Negotiation

/-- How a station compares its id with what it received of the other's. -/
def compareWire (a b : UInt32) : Ordering := compare a (htonl b)

/-! ## Stations and frames as those of the negotiation -/

/-- The role a station has at a stage. -/
def stageRole : Stage → Role
  | .pri => .pri
  | .sec => .sec
  | .idle | .neg => .neg

/-- The state in which a station sends its XID of a stage. -/
def stageState : Stage → XidState
  | .pri => .sPri
  | .sec => .sSec
  | .idle | .neg => .sNeg

/-- A station can send its negotiation XID: it has exchanged prenegotiation
XIDs, or it begins with the negotiation. -/
def CanNegotiate (ls : Ls) : Prop :=
  ls.xidState = .sPn ∨ ls.xidState = .reset ∧ ls.xidInitMethod = .np ∧ ls.direction ≠ .dirIn

def AtStage (ls : Ls) : Stage → Prop
  | .idle => CanNegotiate ls
  | .sec => ls.xidState = .sSec ∨ ls.xidState = .rPriSSec
  | .neg => ls.xidState = .sNeg
  | .pri => ls.xidState = .sPri

/-- A link station does what a station of the negotiation does. -/
structure Plays (ls : Ls) (s : Station UInt32) : Prop where
  nodeid : ls.nodeid = s.id
  sent : ls.sent = []
  state : ls.state ≠ .defined
  coStatus : ls.coStatus = .testOk
  role : ls.effectiveRole = stageRole s.stage
  stage : AtStage ls s.stage

/-- The role in the XID of the negotiation. -/
def xidRole : Xid UInt32 → Role
  | .neg _ => .neg
  | .pri => .pri
  | .sec => .sec

/-- A frame is an XID of the negotiation. -/
def Carries (f : Frame) (m : Xid UInt32) : Prop :=
  ∃ x : Xid3, f = .xid .outbound (some x) false ∧ x.state = .neg ∧ x.lsRole = xidRole m ∧
    ∀ id, m = .neg id → x.nodeid = htonl id

/-! ## What a station sends -/

theorem xidOutputNeg_sent (ls : Ls) : ∃ tgState tgInput effectiveTg x,
    xidOutputNeg {} ls = { ls with
      tgState := tgState, tgInput := tgInput, effectiveTg := effectiveTg
      xidLastTx := some (some x)
      xidLastTxDirection := ls.xidDirection
      retry := ls.retry || ls.xidDirection = .outbound
      sent := ls.sent ++ [.xid ls.xidDirection (some x) false] } ∧
    x.state = .neg ∧ x.lsRole = ls.effectiveRole ∧ x.nodeid = htonl ls.nodeid := by
  obtain ⟨s, i, t, htg⟩ := tgNegotiate_eq { ls with tgInput := .adjLoc }
  refine ⟨s, i, t, { xidPktInit (tgNegotiate { ls with tgInput := .adjLoc }) with state := .neg },
    ?_, rfl, ?_, ?_⟩
  · show xidSend {} _ (tgNegotiate { ls with tgInput := .adjLoc }) = _
    rw [htg]
    rfl
  · rw [htg]
    rfl
  · rw [htg]
    rfl

/-- A station comes to a stage, and takes the role it has there. -/
def enter (stage : Stage) (ls : Ls) : Ls :=
  { ls with effectiveRole := stageRole stage, xidState := stageState stage }

/-- A station comes to a stage and sends the XID for it. -/
def enterSending (b : Buffers) (stage : Stage) (ls : Ls) : Ls :=
  { xidOutputNeg b { ls with effectiveRole := stageRole stage } with xidState := stageState stage }

theorem plays_enterSending {ls : Ls} {s : Station UInt32} (hid : ls.nodeid = s.id) (hsent : ls.sent = [])
    (hstate : ls.state ≠ .defined) (hco : ls.coStatus = .testOk) (hdir : ls.xidDirection = .outbound)
    (hs : s.stage ≠ .idle) :
    Plays (transmit (enterSending {} s.stage ls)).1 s ∧
      List.Forall₂ Carries (transmit (enterSending {} s.stage ls)).2 [announce s] := by
  obtain ⟨_, _, _, x, hx, hxs, hxr, hxn⟩ :=
    xidOutputNeg_sent { ls with effectiveRole := stageRole s.stage }
  unfold enterSending
  rw [hx]
  obtain ⟨id, stage⟩ := s
  refine ⟨⟨hid, rfl, hstate, hco, rfl, ?_⟩, ?_⟩
  · cases stage with
    | idle => exact absurd rfl hs
    | neg | pri => rfl
    | sec => exact .inl rfl
  · show List.Forall₂ Carries (ls.sent ++ [.xid ls.xidDirection (some x) false]) _
    rw [hsent, hdir]
    refine .cons ⟨x, rfl, hxs, ?_, ?_⟩ .nil
    · rw [hxr]
      cases stage <;> rfl
    · intro id' h
      rw [hxn]
      show htonl ls.nodeid = htonl id'
      rw [hid]
      cases stage <;> cases h <;> rfl

/-! ## What a station does -/

/-- A station about to handle an XID it has received. -/
def received (input : XidIn) (r : Received) (ls : Ls) : Ls :=
  { ls with
    xidInput := some input, xidDirection := .inbound, xidLastRx := some r, retry := false }

theorem indXidCmd_eq {ls : Ls} (env : Env) {r : Received} {input : XidIn} (h : ls.state ≠ .defined)
    (hr : xidPktInput r = some input) :
    indXidCmd env r ls = xidDoit env (received input r ls) := by
  unfold indXidCmd
  rw [hr]
  exact if_neg h

theorem xidPktInput_of_neg {x : Xid3} (hs : x.state = .neg) {input : XidIn}
    (h : x.lsRole = .neg ∧ input = .neg ∨ x.lsRole = .pri ∧ input = .pri ∨
      x.lsRole = .sec ∧ input = .sec) : xidPktInput ⟨false, x⟩ = some input := by
  rcases h with ⟨h, rfl⟩ | ⟨h, rfl⟩ | ⟨h, rfl⟩ <;> simp [xidPktInput, hs, h]

section

variable {ls : Ls} {r : Received} (hrx : ls.xidLastRx = some r)
include hrx

theorem xidNodeIdHigh_eq : xidNodeIdHigh ls = decide (compare ls.nodeid r.xid.nodeid = .gt) := by
  unfold xidNodeIdHigh
  rw [hrx]
  exact decide_eq_decide.mpr Std.compare_eq_gt.symm

theorem xidNodeIdLow_eq : xidNodeIdLow ls = decide (compare ls.nodeid r.xid.nodeid = .lt) := by
  unfold xidNodeIdLow
  rw [hrx]
  exact decide_eq_decide.mpr Std.compare_eq_lt.symm

theorem xidNodeIdEq_eq : xidNodeIdEq ls = decide (compare ls.nodeid r.xid.nodeid = .eq) := by
  unfold xidNodeIdEq
  rw [hrx]
  exact decide_eq_decide.mpr Std.compare_eq_iff_eq.symm

/-- A station that has not sent its id takes the role that the comparison
gives, and sends its XID. -/
theorem xidInputNeg_open (env : Env) (hx : ls.xidState = .reset ∨ ls.xidState = .sPn)
    (hrole : ls.effectiveRole = .neg) :
    xidInputNeg env ls = enterSending env.own (decision (compare ls.nodeid r.xid.nodeid))
      (xidFlipDirection ls) := by
  have hopen : xidInputNeg env ls =
      if xidNodeIdHigh ls then answer env.own .pri .sPri ls
      else if xidNodeIdLow ls then answer env.own .sec .sSec ls
      else if xidNodeIdEq ls then answer env.own .negId .sNeg ls
      else ls := by
    rcases hx with hx | hx
    · simp [xidInputNeg, hx, hrole]
    · simp [xidInputNeg, hx, hrole]
  rw [hopen, xidNodeIdHigh_eq hrx, xidNodeIdLow_eq hrx, xidNodeIdEq_eq hrx]
  cases compare ls.nodeid r.xid.nodeid <;> rfl

/-- A station that has sent its id takes the role that the comparison gives. -/
theorem xidInputNeg_sent (env : Env) (hx : ls.xidState = .sNeg) (hrole : ls.effectiveRole = .neg) :
    xidInputNeg env ls = enter (decision (compare ls.nodeid r.xid.nodeid)) ls := by
  have hneg : ls = enter .neg ls := by
    unfold enter stageRole stageState
    rw [← hx, ← hrole]
  simp only [xidInputNeg, hx, xidNodeIdHigh_eq hrx, xidNodeIdLow_eq hrx, xidNodeIdEq_eq hrx]
  cases compare ls.nodeid r.xid.nodeid with
  | lt => rfl
  | eq => exact hneg
  | gt => rfl

end

/-- On its own a station sends its id. -/
theorem act_idle {ls : Ls} {s : Station UInt32} (h : Plays ls s) (hs : s.stage = .idle)
    (xid : Xid3) : ∃ r, negotiator.act ls xid = some r ∧ Plays r.1 ⟨s.id, .neg⟩ ∧
      List.Forall₂ Carries r.2 [.neg s.id] := by
  have hrole : ls.effectiveRole = .neg := by rw [h.role, hs]; rfl
  have hstage : CanNegotiate ls := by have := h.stage; rwa [hs] at this
  rcases hstage with hx | ⟨hx, hinit, hdir⟩
  · refine ⟨_, by simp only [negotiator, hx]; rfl, ?_⟩
    have hpn : xidPktInput ⟨false, { xid with state := .pn }⟩ = some .pn := rfl
    rw [indXidCmd_eq _ h.state hpn]
    show Plays (transmit (xidInputPn {} _)).1 _ ∧ List.Forall₂ _ (transmit (xidInputPn {} _)).2 _
    simp only [xidInputPn, received, hx, hrole]
    exact plays_enterSending (s := ⟨s.id, .neg⟩) h.nodeid h.sent h.state h.coStatus rfl nofun
  · refine ⟨_, by simp only [negotiator, hx]; rfl, ?_⟩
    simp only [connectOut, connectOutWith, h.coStatus, xidDoit, xidInputBegin, hinit, hrole, hdir]
    exact plays_enterSending (s := ⟨s.id, .neg⟩) h.nodeid h.sent h.state rfl rfl nofun

/-- A station that has sent nothing answers the other's id. -/
theorem receive_idle {ls : Ls} {s : Station UInt32} (h : Plays ls s) (hs : s.stage = .idle)
    {x : Xid3} (hxs : x.state = .neg) (hxr : x.lsRole = .neg) {s' : Station UInt32}
    (hs' : s' = ⟨s.id, decision (compare s.id x.nodeid)⟩) :
    ∃ r, negotiator.receive ls (.xid .outbound (some x) false) = some r ∧ Plays r.1 s' ∧
      List.Forall₂ Carries r.2 [announce s'] := by
  have hrole : ls.effectiveRole = .neg := by rw [h.role, hs]; rfl
  have hstage : CanNegotiate ls := by have := h.stage; rwa [hs] at this
  have hstate : ls.xidState = .reset ∨ ls.xidState = .sPn := by
    rcases hstage with hx | ⟨hx, -⟩
    · exact .inr hx
    · exact .inl hx
  have hidle : s'.stage ≠ .idle := by
    rw [hs']
    exact decision_ne_idle _
  have hdoit : indXidCmd {} ⟨false, x⟩ ls = enterSending {} s'.stage
      { received .neg ⟨false, x⟩ ls with xidDirection := .outbound } := by
    rw [indXidCmd_eq _ h.state (xidPktInput_of_neg hxs (.inl ⟨hxr, rfl⟩)), hs', ← h.nodeid]
    have hopen : xidInputNeg {} (received .neg ⟨false, x⟩ ls) = _ :=
      xidInputNeg_open rfl {} hstate hrole
    show xidInputNeg {} (received .neg ⟨false, x⟩ ls) = _
    rw [hopen]
    rfl
  refine ⟨_, rfl, ?_⟩
  rw [hdoit]
  exact plays_enterSending (by rw [hs']; exact h.nodeid) h.sent h.state h.coStatus rfl hidle

theorem plays_enter {ls : Ls} {s : Station UInt32} (h : Plays ls s) {stage : Stage}
    (hs : stage ≠ .idle) : Plays (enter stage ls) ⟨s.id, stage⟩ := by
  refine ⟨h.nodeid, h.sent, h.state, h.coStatus, rfl, ?_⟩
  cases stage with
  | idle => exact absurd rfl hs
  | neg | pri => rfl
  | sec => exact .inl rfl

theorem transmit_quiet {ls : Ls} {s : Station UInt32} (h : Plays ls s) :
    Plays (transmit ls).1 s ∧ List.Forall₂ Carries (transmit ls).2 [] := by
  refine ⟨⟨h.nodeid, rfl, h.state, h.coStatus, h.role, h.stage⟩, ?_⟩
  show List.Forall₂ Carries ls.sent []
  rw [h.sent]
  exact .nil

theorem plays_received {ls : Ls} {s : Station UInt32} (h : Plays ls s) (input : XidIn)
    (r : Received) : Plays (received input r ls) s :=
  ⟨h.nodeid, h.sent, h.state, h.coStatus, h.role, h.stage⟩

/-- A station that has sent its id takes a role on what it receives, and sends
nothing. -/
theorem receive_neg {ls : Ls} {s : Station UInt32} (h : Plays ls s) (hs : s.stage = .neg)
    {x : Xid3} (hxs : x.state = .neg) {stage : Stage}
    (hx : x.lsRole = .neg ∧ stage = decision (compare s.id x.nodeid) ∨
      x.lsRole = .pri ∧ stage = .sec ∨ x.lsRole = .sec ∧ stage = .pri) :
    ∃ r, negotiator.receive ls (.xid .outbound (some x) false) = some r ∧
      Plays r.1 ⟨s.id, stage⟩ ∧ List.Forall₂ Carries r.2 [] := by
  have hrole : ls.effectiveRole = .neg := by rw [h.role, hs]; rfl
  have hstate : ls.xidState = .sNeg := by have := h.stage; rwa [hs] at this
  refine ⟨_, rfl, transmit_quiet ?_⟩
  rcases hx with ⟨hr, rfl⟩ | ⟨hr, rfl⟩ | ⟨hr, rfl⟩
  · rw [indXidCmd_eq _ h.state (xidPktInput_of_neg hxs (.inl ⟨hr, rfl⟩))]
    show Plays (xidInputNeg {} (received .neg ⟨false, x⟩ ls)) _
    have hsent : xidInputNeg {} (received .neg ⟨false, x⟩ ls) = _ :=
      xidInputNeg_sent rfl {} hstate hrole
    rw [hsent]
    show Plays (enter (decision (compare ls.nodeid x.nodeid)) _) _
    rw [h.nodeid]
    exact plays_enter (plays_received h .neg ⟨false, x⟩) (decision_ne_idle _)
  · rw [indXidCmd_eq _ h.state (xidPktInput_of_neg hxs (.inr (.inl ⟨hr, rfl⟩)))]
    show Plays (xidInputPri {} (received .pri ⟨false, x⟩ ls)) _
    simp only [xidInputPri, received, hstate]
    exact ⟨h.nodeid, h.sent, h.state, h.coStatus, rfl, .inr rfl⟩
  · rw [indXidCmd_eq _ h.state (xidPktInput_of_neg hxs (.inr (.inr ⟨hr, rfl⟩)))]
    show Plays (xidInputSec {} (received .sec ⟨false, x⟩ ls)) _
    simp only [xidInputSec, received, hstate]
    exact ⟨h.nodeid, h.sent, h.state, h.coStatus, rfl, rfl⟩

/-- A link station follows the station of the negotiation that compares its id
with the other's in reverse byte order. -/
theorem negotiator_follows : Follows negotiator (party compareWire) Plays Carries Carries where
  act {ls s xid y} h hy := by
    by_cases hs : s.stage = .idle
    · obtain rfl := Option.some.inj ((if_pos hs).symm.trans hy)
      exact act_idle h hs xid
    · cases (if_neg hs).symm.trans hy
  act_none {ls s xid} h hn := by
    have hs : s.stage ≠ .idle := by
      intro hs
      cases (if_pos hs).symm.trans hn
    have hstage := h.stage
    cases hst : s.stage with
    | idle => exact absurd hst hs
    | neg | pri =>
      rw [hst] at hstage
      simp only [negotiator, show ls.xidState = _ from hstage]
    | sec =>
      rw [hst] at hstage
      rcases hstage with hx | hx
      · simp only [negotiator, hx]
      · simp only [negotiator, hx]
  receive {ls s f m y} h hf hy := by
    obtain ⟨x, rfl, hxs, hxr, hxn⟩ := hf
    obtain ⟨id, stage⟩ := s
    cases stage with
    | idle =>
      cases m with
      | neg i =>
        cases hy
        exact receive_idle h rfl hxs hxr (by rw [hxn i rfl]; rfl)
      | pri | sec => cases hy
    | neg =>
      cases m with
      | neg i =>
        cases hy
        exact receive_neg h rfl hxs (.inl ⟨hxr, by rw [hxn i rfl]; rfl⟩)
      | pri =>
        cases hy
        exact receive_neg h rfl hxs (.inr (.inl ⟨hxr, rfl⟩))
      | sec =>
        cases hy
        exact receive_neg h rfl hxs (.inr (.inr ⟨hxr, rfl⟩))
    | pri | sec => cases m <;> cases hy

/-! ## Agreement -/

/-- A station of role `NEG` that can send its negotiation XID. -/
structure Negotiable (ls : Ls) : Prop where
  role : ls.effectiveRole = .neg
  begins : CanNegotiate ls
  state : ls.state ≠ .defined
  coStatus : ls.coStatus = .testOk
  sent : ls.sent = []

theorem Negotiable.plays {ls : Ls} (h : Negotiable ls) : Plays ls ⟨ls.nodeid, .idle⟩ :=
  ⟨rfl, h.sent, h.state, h.coStatus, h.role, h.begins⟩

/-- Two stations joined by a link with nothing on it. -/
def joined (a b : Ls) : Duplex Ls Frame := ⟨a, b, [], []⟩

def RolesAgree (a b : Ls) : Prop :=
  a.effectiveRole = .pri ∧ b.effectiveRole = .sec ∨ a.effectiveRole = .sec ∧ b.effectiveRole = .pri

/-- Whatever is sent and received and in whatever order, once nothing is on the
link any more the roles agree. -/
def AlwaysAgree (a b : Ls) : Prop :=
  ∀ (es : List (Duplex.Event Xid3)) d, es ≠ [] → run (step negotiator) (joined a b) es = some d →
    d.toLeft = [] → d.toRight = [] → RolesAgree d.left d.right

theorem rolesAgree_iff {a b : Ls} {s t : Station UInt32} (ha : Plays a s) (hb : Plays b t) :
    RolesAgree a b ↔ Complementary s.stage t.stage := by
  unfold RolesAgree Complementary
  rw [ha.role, hb.role]
  cases s.stage <;> cases t.stage <;> simp [stageRole]

theorem opposed_compareWire (a b : UInt32) : Opposed compareWire a b ↔
    htonl b < a ∧ b < htonl a ∨ a < htonl b ∧ htonl a < b := by
  unfold Opposed compareWire
  rw [Std.compare_eq_gt, Std.compare_eq_lt, Std.compare_eq_lt, Std.compare_eq_gt]

/-- In every order in which two stations send their ids and receive, they come
to complementary roles exactly if, of each id and the other's with its bytes
reversed, the greater is at different ends. -/
theorem role_agreement_iff (a b : Ls) (ha : Negotiable a) (hb : Negotiable b) :
    AlwaysAgree a b ↔
      htonl b.nodeid < a.nodeid ∧ b.nodeid < htonl a.nodeid ∨
        a.nodeid < htonl b.nodeid ∧ htonl a.nodeid < b.nodeid := by
  have hstart : Related Plays Plays Carries Carries (joined a b) (start a.nodeid b.nodeid) :=
    ⟨ha.plays, hb.plays, .nil, .nil⟩
  rw [← opposed_compareWire]
  constructor
  · intro h
    have : Nonempty Xid3 := ⟨xidPktInit a⟩
    apply (agree_iff (κ := Xid3)).mp
    intro es e hes he hl hr
    obtain ⟨d, hd, hrel⟩ := run_follows negotiator_follows negotiator_follows hstart he
    have hd' := h es d hes hd (List.forall₂_nil_right_iff.mp (hl ▸ hrel.toLeft))
      (List.forall₂_nil_right_iff.mp (hr ▸ hrel.toRight))
    exact (rolesAgree_iff hrel.left hrel.right).mp hd'
  · intro h es d hes hd hl hr
    have hkeep : ∀ e ev e', Reached compareWire a.nodeid b.nodeid e →
        step (party (κ := Xid3) compareWire) e ev = some e' →
        Reached compareWire a.nodeid b.nodeid e' :=
      fun _ _ _ he hs => he.step h hs
    obtain ⟨e, he, -, hrel⟩ := run_followed negotiator_follows negotiator_follows hkeep
      (fun _ he => Reached.alive h he) hstart (Or.inl rfl) hd
    have hc := (phase_run h hes he).complete (List.forall₂_nil_left_iff.mp (hl ▸ hrel.toLeft))
      (List.forall₂_nil_left_iff.mp (hr ▸ hrel.toRight))
    apply (rolesAgree_iff hrel.left hrel.right).mpr
    rw [hc]
    exact complementary_decision.mpr h

/-- A station that begins with the negotiation, in a node with an id. -/
def beginner (nodeid : UInt32) : Ls :=
  { defineLs ⟨.neg, .dirBoth, true, 3, 0, ⟨[], []⟩, ⟨[], []⟩⟩ nodeid true 1 1 with
    state := .activated, running := true, xidInitMethod := .np }

theorem negotiable_beginner (nodeid : UInt32) : Negotiable (beginner nodeid) :=
  ⟨rfl, .inr ⟨rfl, rfl, nofun⟩, nofun, rfl, rfl⟩

theorem role_agreement_ids : AlwaysAgree (beginner 0x02000001) (beginner 0x01000001) :=
  (role_agreement_iff _ _ (negotiable_beginner _) (negotiable_beginner _)).mpr
    (.inl (by decide +kernel))

/-- Nodes 1 and 2 both take the secondary role when their XIDs cross. -/
theorem roles_clash : Negotiable (beginner 1) ∧ Negotiable (beginner 2) ∧
    (beginner 1).nodeid ≠ (beginner 2).nodeid ∧ ¬ AlwaysAgree (beginner 1) (beginner 2) := by
  refine ⟨negotiable_beginner 1, negotiable_beginner 2, by decide, fun h => ?_⟩
  have hrun : ((run (step negotiator) (joined (beginner 1) (beginner 2))
      (crossingRun (xidPktInit (beginner 1)))).map fun d =>
        (d.left.effectiveRole, d.right.effectiveRole, d.toLeft, d.toRight)) =
      some (.sec, .sec, [], []) := by decide +kernel
  obtain ⟨d, hd, hroles⟩ := Option.map_eq_some_iff.mp hrun
  obtain ⟨hl, hr, htl, htr⟩ : d.left.effectiveRole = .sec ∧ d.right.effectiveRole = .sec ∧
      d.toLeft = [] ∧ d.toRight = [] := by
    simpa only [Prod.mk.injEq] using hroles
  rcases h _ d (List.cons_ne_nil _ _) hd htl htr with ⟨hp, -⟩ | ⟨-, hp⟩
  · rw [hl] at hp
    cases hp
  · rw [hr] at hp
    cases hp

end LinuxSna.Cs
