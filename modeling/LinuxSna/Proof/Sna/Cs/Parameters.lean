import LinuxSna.Framework.Run
import LinuxSna.Impl.Sna.Cs.Parameters
import LinuxSna.Proof.Sna.Cs.Activation
import LinuxSna.Proof.Sna.Cs.Calls
import LinuxSna.Proof.Sna.Cs.RoleAgreement

/-!
# The parameters of the two ends of a link

Each end has a role that it comes to if it comes to any (`Part.side`), and what it says in
all its XIDs goes with that role (`Part.Says`). As long as the ends do not hear anything else,
an end that is not active is in the role of its state (`Fits`), and it is active with the
sizes of both ends (`Up`).
-/

namespace LinuxSna.Link

open Framework
open Cs

/-! ## The two ends -/

/-- What is fixed of an end: the role that it can come to, and its role and its node id as
they are configured. -/
structure Part where
  side : Role
  role : Role
  nodeid : UInt32

/-- The roles that an end takes. -/
def Part.Takes (p : Part) (role : Role) : Prop :=
  match p.role with
  | .neg => role = .neg ∨ role = p.side
  | .pri => p.side = .pri ∧ role = .pri
  | .sec => p.side = .sec ∧ role = .sec
  | .rsv => p.side = .pri ∧ (role = .rsv ∨ role = .pri)

/-- An XID as an end sends it -/
structure Part.Says (p : Part) (xid : Xid3) : Prop where
  role : p.Takes xid.lsRole
  nodeid : xid.nodeid = htonl p.nodeid

def Part.Sends (p : Part) : Frame → Prop
  | .xid _ (some xid) _ => p.Says xid
  | .xid _ none _ | .test => True

/-- An end that does not take the role of the other end for its own: if both negotiate, the
comparison of the node ids gives it its own. -/
structure Part.Suits (p q : Part) : Prop where
  own : p.Takes p.role
  side : p.side = .pri ∨ p.side = .sec
  opposite : p.role = .neg → p.side ≠ q.side
  high : p.role = .neg → q.role = .neg → p.side = .pri → htonl q.nodeid ≤ p.nodeid
  low : p.role = .neg → q.role = .neg → p.side = .sec → p.nodeid ≤ htonl q.nodeid

namespace Part

variable {p q : Part}

theorem Takes.neg (ht : p.Takes .neg) : p.role = .neg := by
  unfold Takes at ht
  cases hr : p.role with
  | neg => rfl
  | pri | sec | rsv =>
    rw [hr] at ht
    simp at ht

theorem Takes.pri (ht : p.Takes .pri) : p.side = .pri := by
  unfold Takes at ht
  cases hr : p.role with
  | neg =>
    rw [hr] at ht
    exact (ht.resolve_left nofun).symm
  | pri | rsv =>
    rw [hr] at ht
    exact ht.1
  | sec =>
    rw [hr] at ht
    cases ht.2

theorem Takes.sec (ht : p.Takes .sec) : p.side = .sec := by
  unfold Takes at ht
  cases hr : p.role with
  | neg =>
    rw [hr] at ht
    exact (ht.resolve_left nofun).symm
  | pri | rsv =>
    rw [hr] at ht
    simp at ht
  | sec =>
    rw [hr] at ht
    exact ht.1

theorem Suits.pri_of_rsv (h : p.Suits q) (ht : p.Takes .rsv) : p.Takes .pri := by
  unfold Takes at ht ⊢
  cases hr : p.role with
  | neg =>
    rw [hr] at ht
    have hs := h.side
    rw [← ht.resolve_left nofun] at hs
    simp at hs
  | pri | sec =>
    rw [hr] at ht
    cases ht.2
  | rsv =>
    rw [hr] at ht
    exact ⟨ht.1, .inr rfl⟩

/-- An end takes the role that the other leaves it. -/
theorem Suits.takes_other (h : p.Suits q) {role : Role} (ht : p.Takes .neg)
    (hr : role = .pri ∧ q.side = .sec ∨ role = .sec ∧ q.side = .pri) : p.Takes role := by
  have hn := ht.neg
  have ho := h.opposite hn
  have hs : role = p.side := by
    rcases hr with ⟨rfl, hq⟩ | ⟨rfl, hq⟩
    · exact (h.side.resolve_right (hq ▸ ho)).symm
    · exact (h.side.resolve_left (hq ▸ ho)).symm
  unfold Takes
  rw [hn]
  exact .inr hs

/-- The comparison of the node ids gives an end its own role. -/
theorem Suits.takes_compared (h : p.Suits q) {role : Role} (ht : p.Takes .neg)
    (htq : q.Takes .neg)
    (hr : role = .pri ∧ htonl q.nodeid < p.nodeid ∨ role = .sec ∧ p.nodeid < htonl q.nodeid) :
    p.Takes role := by
  have hn := ht.neg
  have hs : role = p.side := by
    rcases hr with ⟨rfl, hc⟩ | ⟨rfl, hc⟩
    · refine (h.side.resolve_right fun hs => ?_).symm
      exact absurd hc (UInt32.not_lt.mpr (h.low hn (htq.neg) hs))
    · refine (h.side.resolve_left fun hs => ?_).symm
      exact absurd hc (UInt32.not_lt.mpr (h.high hn (htq.neg) hs))
  unfold Takes
  rw [hn]
  exact .inr hs

end Part

/-! ## What a link station keeps -/

/-- A link station plays its part, and if it has heard anything of the other end, `V` holds. -/
structure Keeps (p q : Part) (V : Prop) (ls : Ls) : Prop where
  nodeid : ls.nodeid = p.nodeid
  config : ls.role = p.role
  takes : p.Takes ls.effectiveRole
  sent : ∀ f ∈ ls.sent, p.Sends f
  lastTx : ∀ xid, ls.xidLastTx = some (some xid) → p.Says xid
  heard : ∀ r, ls.xidLastRx = some r → r.empty = false → q.Says r.xid ∧ V
  input : ∀ i, ls.xidInput = some i → i = .neg ∨ i = .pri ∨ i = .sec →
    ∃ r, ls.xidLastRx = some r ∧ xidPktInput r = some i

/-- The role in which an output leaves a link station. -/
def roleAfter (action : XidOut) (role : Role) : Role :=
  match action with
  | .neg | .negId => .neg
  | .pri | .priR => .pri
  | .sec | .secR => .sec
  | .null | .pn | .random | .z2 => role

section

variable {p q : Part} {V : Prop} {ls : Ls}

theorem init_said (h : Keeps p q V ls) (state : XchgState) : p.Says { xidPktInit ls with state := state } :=
  ⟨h.takes, by rw [← h.nodeid]; rfl⟩

theorem Keeps.send (h : Keeps p q V ls) (b : Buffers) {image : Option Xid3}
    (hi : ∀ xid, image = some xid → p.Says xid) : Keeps p q V (xidSend b image ls) := by
  unfold xidSend
  split
  · exact h
  · refine { h with sent := ?_, lastTx := ?_ }
    · intro f hf
      rcases List.mem_append.mp hf with hf | hf
      · exact h.sent f hf
      · rw [List.mem_singleton.mp hf]
        cases image with
        | none => trivial
        | some xid => exact hi xid rfl
    · intro xid hx
      dsimp only at hx
      split at hx
      · exact hi xid (Option.some.inj hx)
      · cases hx

theorem Keeps.outputNeg (h : Keeps p q V ls) (b : Buffers) : Keeps p q V (xidOutputNeg b ls) := by
  obtain ⟨s, i, t, htg⟩ := tgNegotiate_eq { ls with tgInput := .adjLoc }
  unfold xidOutputNeg
  dsimp only
  rw [htg]
  have ht : Keeps p q V { ls with tgState := s, tgInput := i, effectiveTg := t } := { h with }
  refine ht.send b fun xid hx => ?_
  rw [← Option.some.inj hx]
  exact init_said ht .neg

theorem Keeps.takeRole (h : Keeps p q V ls) {role : Role} (ht : p.Takes role) :
    Keeps p q V { ls with effectiveRole := role } := { h with takes := ht }

theorem Keeps.xidOutput (h : Keeps p q V ls) (b : Buffers) {action : XidOut}
    (ht : p.Takes (roleAfter action ls.effectiveRole)) : Keeps p q V (xidOutput b action ls) := by
  have hneg (role : Role) (ht : p.Takes role) :
      Keeps p q V (xidOutputNeg b { ls with effectiveRole := role }) :=
    (h.takeRole ht).outputNeg b
  cases action with
  | null =>
    have hnone (xid : Xid3) (hx : none = some xid) : p.Says xid := nomatch hx
    exact h.send b hnone
  | pn =>
    refine h.send b fun xid hx => ?_
    rw [← Option.some.inj hx]
    exact init_said h .pn
  | neg | negId => exact hneg .neg ht
  | pri => exact hneg .pri ht
  | sec => exact hneg .sec ht
  | priR => exact @Keeps.takeRole p q V ls h .pri ht
  | secR => exact @Keeps.takeRole p q V ls h .sec ht
  | random | z2 => exact h

theorem xidOutput_role (b : Buffers) (action : XidOut) (ls : Ls) :
    (xidOutput b action ls).effectiveRole = roleAfter action ls.effectiveRole := by
  have hsend (image : Option Xid3) (l : Ls) : (xidSend b image l).effectiveRole = l.effectiveRole := by
    unfold xidSend
    split <;> rfl
  have hneg (l : Ls) : (xidOutputNeg b l).effectiveRole = l.effectiveRole := by
    obtain ⟨s, i, t, htg⟩ := tgNegotiate_eq { l with tgInput := .adjLoc }
    unfold xidOutputNeg
    dsimp only
    rw [hsend, htg]
  cases action with
  | null | pn => exact hsend _ ls
  | neg | negId | pri | sec => exact hneg _
  | priR | secR | random | z2 => rfl

end

/-- An XID is taken for an input of its role. -/
theorem xidPktInput_role {r : Received} {i : XidIn} {role : Role} (h : xidPktInput r = some i)
    (hm : i = .neg ∧ role = .neg ∨ i = .pri ∧ role = .pri ∨ i = .sec ∧ role = .sec) :
    r.empty = false ∧ r.xid.lsRole = role := by
  unfold xidPktInput at h
  split_ifs at h with he
  · obtain rfl := Option.some.inj h
    simp at hm
  · refine ⟨Bool.eq_false_iff.mpr he, ?_⟩
    split at h
    case h_1 =>
      obtain rfl := Option.some.inj h
      simp at hm
    case h_2 | h_3 =>
      cases hrole : r.xid.lsRole with
      | rsv =>
        rw [hrole] at h
        cases h
      | sec | pri | neg =>
        rw [hrole] at h
        obtain rfl := Option.some.inj h
        simpa [eq_comm] using hm
    case h_4 => cases h

/-! ## A link station that is not active -/

/-- The role that goes with a state: a primary has sent its XID as a primary, a secondary as a
secondary, and each knows from the other's XID that they are opposite. -/
def RoleIn (q : Part) (state : XidState) (role : Role) : Prop :=
  match state with
  | .sNeg => role = .neg
  | .sPri => role = .pri
  | .sSec => role = .sec
  | .sPriRSec => role = .pri ∧ q.side = .sec
  | .rPriSSec => role = .sec ∧ q.side = .pri
  | .reset | .sPn | .active => True

/-- A link station that is not active, in the role of its state. -/
structure Fits (p q : Part) (V : Prop) (ls : Ls) : Prop extends Keeps p q V ls where
  state : ls.state ≠ .active
  xidState : ls.xidState ≠ .active
  role : RoleIn q ls.xidState ls.effectiveRole

section

variable {p q : Part} {V : Prop} {ls : Ls}

theorem Fits.output (h : Keeps p q V ls) (ha : ls.state ≠ .active) (b : Buffers) (action : XidOut)
    {state : XidState} (hs : state ≠ .active) (ht : p.Takes (roleAfter action ls.effectiveRole))
    (hr : RoleIn q state (roleAfter action ls.effectiveRole)) :
    Fits p q V (output b action state ls) := by
  refine { h.xidOutput b ht with state := ?_, xidState := hs, role := ?_ }
  · obtain ⟨δ, hδ⟩ := xidOutput_eq b action ls
    unfold Cs.output
    rw [hδ]
    exact ha
  · unfold Cs.output
    dsimp only
    rw [xidOutput_role]
    exact hr

theorem Fits.answer (h : Fits p q V ls) (b : Buffers) (action : XidOut)
    {state : XidState} (hs : state ≠ .active) (ht : p.Takes (roleAfter action ls.effectiveRole))
    (hr : RoleIn q state (roleAfter action ls.effectiveRole)) :
    Fits p q V (answer b action state ls) := by
  obtain ⟨direction, hd⟩ := xidFlipDirection_eq ls
  unfold Cs.answer
  rw [hd]
  have hk : Keeps p q V { ls with xidDirection := direction } := { h with }
  exact Fits.output hk h.state b action hs ht hr

theorem Fits.begin (h : Fits p q V ls) (b : Buffers) : Fits p q V (xidInputBegin b ls) := by
  unfold xidInputBegin
  split_ifs with h₁ h₂ hx
  · exact h
  · exact h
  · split
    · obtain ⟨δ, hδ⟩ := xidOutput_eq b .null ls
      have hk : Keeps p q V (xidOutput b .null ls) := @Keeps.xidOutput p q V ls h.toKeeps b .null h.takes
      refine { hk with state := ?_, xidState := ?_, role := ?_ }
      · rw [hδ]
        exact h.state
      · rw [hδ]
        exact h.xidState
      · rw [show (xidOutput b .null ls).xidState = ls.xidState by rw [hδ]; rfl, hx]
        trivial
    · exact Fits.output h.toKeeps h.state b .pn nofun h.takes trivial
    case h_3 he => exact Fits.output h.toKeeps h.state b .neg nofun (he ▸ h.takes) rfl
    case h_4 he => exact Fits.output h.toKeeps h.state b .pri nofun (he ▸ h.takes) rfl
    · exact h
  · exact h

end

section

variable {p q : Part} {V : Prop} {ls : Ls} (hp : p.Suits q)
include hp

theorem Keeps.cleared (h : Keeps p q V ls) (s : TgState) (i : TgInput) (t : Nat) :
    Keeps p q V (ls.cleared s i t) where
  nodeid := h.nodeid
  config := h.config
  takes := by
    show p.Takes ls.role
    rw [h.config]
    exact hp.own
  sent := h.sent
  lastTx _ hx := nomatch hx
  heard _ hr := nomatch hr
  input j hj hm := by
    obtain rfl := Option.some.inj hj
    simp at hm

omit hp in
/-- Whether it calls for the exchange or for a test, `sna_cs_connect_out` leaves a link station
that is not active. -/
theorem Fits.connectOut (h : Fits p q V ls) (doit : Ls → Ls)
    (hd : ∀ l, Fits p q V l → Fits p q V (doit l)) : Fits p q V (connectOutWith doit ls) := by
  cases ho : outCalled ls with
  | none =>
    obtain ⟨_, _, _, sent, hq, hsent⟩ := connectOutWith_quiet doit ho
    rw [hq]
    refine { h with sent := ?_ }
    intro f hf
    rcases hsent with rfl | rfl
    · exact h.sent f hf
    · rcases List.mem_append.mp hf with hf | hf
      · exact h.sent f hf
      · rw [List.mem_singleton.mp hf]
        trivial
  | some l =>
    rw [connectOutWith_called doit ho]
    obtain ⟨_, _, rfl⟩ := outCalled_eq ho
    exact hd _ { h with }

/-- A reset leaves a link station that is not active, and begins anew if it may. -/
theorem Keeps.reset (h : Keeps p q V ls) (b : Buffers) : Fits p q V (xidInputReset b ls) := by
  obtain ⟨s, i, t, hr⟩ := xidInputReset_eq b ls
  have hc := h.cleared hp s i t
  rw [hr]
  split
  · refine Fits.connectOut ?_ _ fun l hl => hl.begin b
    refine { hc with input := ?_, state := nofun, xidState := nofun, role := trivial }
    intro j hj hm
    obtain rfl := Option.some.inj hj
    simp at hm
  · exact { hc with state := nofun, xidState := nofun, role := trivial }

theorem Fits.resend (h : Fits p q V ls) (env : Env) : Fits p q V (xidOutputResend env ls) := by
  unfold xidOutputResend
  split
  · exact h
  case h_2 image htx =>
    split_ifs
    · exact h
    · exact h
    · refine Keeps.reset hp ?_ env.reset
      refine { h.toKeeps with input := ?_ }
      intro j hj hm
      obtain rfl := Option.some.inj hj
      simp at hm
    · refine { h with sent := ?_ }
      intro f hf
      rcases List.mem_append.mp hf with hf | hf
      · exact h.sent f hf
      · rw [List.mem_singleton.mp hf]
        cases image with
        | none => trivial
        | some xid => exact h.lastTx xid htx

theorem Fits.inputPn (h : Fits p q V ls) (env : Env) : Fits p q V (xidInputPn env ls) := by
  have ht := h.takes
  unfold xidInputPn
  split
  case h_1 =>
    split
    case h_1 | h_2 => exact h.answer env.own .pn nofun ht trivial
    case h_3 he => exact h.answer env.own .neg nofun (he ▸ ht) rfl
    case h_4 he => exact h.answer env.own .pri nofun (he ▸ ht) rfl
    case h_5 he => exact h.answer env.own .sec nofun (he ▸ ht) rfl
    case h_6 => exact h
  case h_2 =>
    split
    case h_1 he => exact h.answer env.own .neg nofun (he ▸ ht) rfl
    case h_2 he => exact h.answer env.own .pri nofun (he ▸ ht) rfl
    case h_3 he => exact h.answer env.own .sec nofun (he ▸ ht) rfl
    case h_4 => exact h
  case h_8 => exact h
  all_goals exact h.resend hp env

theorem Fits.inputNull (h : Fits p q V ls) (env : Env) : Fits p q V (xidInputNull env ls) := by
  have ht := h.takes
  unfold xidInputNull
  split
  case h_1 =>
    split
    case h_1 | h_2 => exact h.answer env.own .pn nofun ht trivial
    case h_3 he => exact h.answer env.own .neg nofun (he ▸ ht) rfl
    case h_4 he => exact h.answer env.own .pri nofun (he ▸ ht) rfl
    case h_5 he => exact h.answer env.own .sec nofun (he ▸ ht) rfl
    case h_6 => exact h
  case h_8 => exact h
  all_goals exact h.resend hp env

theorem Fits.outputZ1 (h : Fits p q V ls) (env : Env) : Fits p q V (xidOutputZ1 env ls) := by
  unfold xidOutputZ1
  split
  · obtain ⟨s, i, t, htg⟩ := tgNegotiate_eq { ls with tgInput := .reset }
    rw [htg]
    refine Fits.inputPn hp ?_ env
    refine { h with input := ?_ }
    intro j hj hm
    obtain rfl := Option.some.inj hj
    simp at hm
  · exact h

omit hp in
/-- In Reset any role fits. -/
theorem Fits.toReset (h : Fits p q V ls) : Fits p q V { ls with xidState := .reset } :=
  { h with xidState := nofun, role := trivial }

variable (h : Fits p q V ls)
include h

/-- An XID as a negotiation XID gives the role of the comparison. -/
theorem Fits.inputNeg {r : Received} (hrx : ls.xidLastRx = some r) (hs : q.Says r.xid)
    (hneg : r.xid.lsRole = .neg) (env : Env) : Fits p q V (xidInputNeg env ls) := by
  have ht := h.takes
  have htq : q.Takes .neg := hneg ▸ hs.role
  have hhigh (he : ls.effectiveRole = .neg) (hc : xidNodeIdHigh ls = true) : p.Takes .pri := by
    refine hp.takes_compared (he ▸ ht) htq (.inl ⟨rfl, ?_⟩)
    unfold xidNodeIdHigh at hc
    rw [hrx] at hc
    rw [← hs.nodeid, ← h.nodeid]
    exact of_decide_eq_true hc
  have hlow (he : ls.effectiveRole = .neg) (hc : xidNodeIdLow ls = true) : p.Takes .sec := by
    refine hp.takes_compared (he ▸ ht) htq (.inr ⟨rfl, ?_⟩)
    unfold xidNodeIdLow at hc
    rw [hrx] at hc
    rw [← hs.nodeid, ← h.nodeid]
    exact of_decide_eq_true hc
  unfold xidInputNeg
  split
  case h_1 | h_2 =>
    split_ifs with h₁ h₂ h₃ h₄ h₅
    · exact h.answer env.own .pri nofun (hhigh h₁.1 h₁.2) rfl
    · exact h.answer env.own .sec nofun (hlow h₂.1 h₂.2) rfl
    · exact h.answer env.own .negId nofun (h₃.1 ▸ ht) rfl
    · exact h.answer env.own .pri nofun (h₄ ▸ ht) rfl
    · exact h.answer env.own .sec nofun (h₅ ▸ ht) rfl
    · exact h
  case h_3 hx =>
    have he : ls.effectiveRole = .neg := by
      have hr := h.role
      rwa [hx] at hr
    split_ifs with h₁ h₂ h₃
    · exact Fits.output h.toKeeps h.state env.own .priR nofun (hhigh he h₁) rfl
    · exact Fits.output h.toKeeps h.state env.own .secR nofun (hlow he h₂) rfl
    · exact h
    · exact h
  case h_8 => exact h
  all_goals exact h.resend hp env

/-- An XID as a primary makes a link station a secondary, or is not answered as one. -/
theorem Fits.inputPri {r : Received} (hs : q.Says r.xid) (hpri : r.xid.lsRole = .pri)
    (env : Env) : Fits p q V (xidInputPri env ls) := by
  have ht := h.takes
  have hq : q.side = .pri := Part.Takes.pri (hpri ▸ hs.role)
  have hsec (he : ls.effectiveRole = .neg) : p.Takes .sec :=
    hp.takes_other (he ▸ ht) (.inr ⟨rfl, hq⟩)
  unfold xidInputPri
  split
  case h_1 =>
    split
    case h_1 he => exact h.answer env.own .sec nofun (hsec he) ⟨rfl, hq⟩
    case h_2 he => exact h.answer env.own .sec nofun (he ▸ ht) ⟨rfl, hq⟩
    case h_3 => exact h.outputZ1 hp env
    case h_4 => exact h
  case h_2 =>
    split
    case h_1 he => exact h.answer env.own .sec nofun (hsec he) ⟨rfl, hq⟩
    case h_2 he => exact h.answer env.own .sec nofun (he ▸ ht) ⟨rfl, hq⟩
    case h_3 =>
      refine Fits.toReset (Fits.outputZ1 hp ?_ env)
      obtain ⟨direction, hd⟩ := xidFlipDirection_eq ls
      rw [hd]
      exact { h with }
    case h_4 => exact h
  case h_3 hx =>
    have he : ls.effectiveRole = .neg := by
      have hr := h.role
      rwa [hx] at hr
    exact Fits.output h.toKeeps h.state env.own .secR nofun (hsec he) ⟨rfl, hq⟩
  case h_4 | h_5 => exact (h.outputZ1 hp env).toReset
  case h_6 hx =>
    have hr := h.role
    rw [hx] at hr
    exact { h with xidState := nofun, role := ⟨hr, hq⟩ }
  case h_7 | h_8 => exact h

/-- An XID as a secondary makes a link station a primary, or is not answered as one. -/
theorem Fits.inputSec {r : Received} (hs : q.Says r.xid) (hsec : r.xid.lsRole = .sec)
    (env : Env) : Fits p q V (xidInputSec env ls) := by
  have ht := h.takes
  have hq : q.side = .sec := Part.Takes.sec (hsec ▸ hs.role)
  have hpri (he : ls.effectiveRole = .neg) : p.Takes .pri :=
    hp.takes_other (he ▸ ht) (.inl ⟨rfl, hq⟩)
  have hopen (he : ls.effectiveRole ≠ .sec) : p.Takes .pri := by
    cases hr : ls.effectiveRole with
    | neg => exact hpri hr
    | pri => exact hr ▸ ht
    | sec => exact absurd hr he
    | rsv =>
      rw [hr] at ht
      exact hp.pri_of_rsv ht
  unfold xidInputSec
  split
  case h_1 | h_2 =>
    split_ifs with he
    · exact h.answer env.own .pri nofun (hopen he) rfl
    · exact h.outputZ1 hp env
  case h_3 hx =>
    have he : ls.effectiveRole = .neg := by
      have hr := h.role
      rwa [hx] at hr
    exact Fits.output h.toKeeps h.state env.own .priR nofun (hpri he) rfl
  case h_4 hx =>
    have hr := h.role
    rw [hx] at hr
    exact { h with xidState := nofun, role := ⟨hr, hq⟩ }
  case h_5 | h_6 => exact (h.outputZ1 hp env).toReset
  case h_7 | h_8 => exact h

end

/-! ## Every input -/

/-- An input that does not find a link station before its exchange has come to its end: a
SETMODE comes when the XIDs have been exchanged, and so does the activation, with XIDs that have
been sent and received. -/
structure Timely (l : Ls) : Prop where
  setmode : l.xidInput = some .setmode →
    l.xidState ≠ .reset ∧ l.xidState ≠ .sPn ∧ l.xidState ≠ .sNeg ∧ l.xidState ≠ .sSec
  ended : doitCalls l ≠ none → l.xidState = .rPriSSec ∨ l.xidState = .sPriRSec
  sent : doitCalls l ≠ none → l.xidLastTx.any Option.isSome
  received : doitCalls l ≠ none → l.xidLastRx.any (!·.empty)

instance (l : Ls) : Decidable (Timely l) :=
  decidable_of_iff (_ ∧ _ ∧ _ ∧ _)
    ⟨fun h => ⟨h.1, h.2.1, h.2.2.1, h.2.2.2⟩, fun h => ⟨h.setmode, h.ended, h.sent, h.received⟩⟩

/-- A link station that is active in its role, with the `odai` that goes with it. -/
structure Up (p q : Part) (V : Prop) (ls : Ls) : Prop extends Keeps p q V ls where
  state : ls.state = .active
  xidState : ls.xidState = .active
  role : ls.effectiveRole = .pri ∧ q.side = .sec ∧ ls.odai = 0 ∨
    ls.effectiveRole = .sec ∧ q.side = .pri ∧ ls.odai = 1

section

variable {p q : Part} {V : Prop} {l : Ls}

/-- A link station that has sent and received XIDs is activated with the results of them. -/
theorem Fits.inputActive (h : Fits p q V l) (env : Env)
    (hx : l.xidState = .rPriSSec ∨ l.xidState = .sPriRSec) (htx : l.xidLastTx ≠ none)
    (hrx : l.xidLastRx ≠ none) : Up p q V (xidInputActive env l).2 := by
  have hres : xidInputActive env l = activations env { l with
      xidState := .active, state := .active
      odai := if l.effectiveRole = .pri then 0 else 1 } := by
    unfold xidInputActive Cs.xidResults
    rw [if_neg h.xidState, if_neg (not_or.mpr ⟨htx, hrx⟩)]
  obtain ⟨_, _, _, _, hact, -⟩ := activations_eq env { l with
      xidState := .active, state := .active
      odai := if l.effectiveRole = .pri then 0 else 1 }
  rw [hres, hact]
  refine { h.toKeeps with state := rfl, xidState := rfl, role := ?_ }
  have hr := h.role
  rcases hx with hx | hx
  · rw [hx] at hr
    refine .inr ⟨hr.1, hr.2, ?_⟩
    show (if l.effectiveRole = .pri then _ else _) = _
    rw [hr.1]
    rfl
  · rw [hx] at hr
    refine .inl ⟨hr.1, hr.2, ?_⟩
    show (if l.effectiveRole = .pri then _ else _) = _
    rw [hr.1]
    rfl

/-- Where XIDs are looked at, there are some. -/
theorem Timely.there (ht : Timely l) (hc : doitCalls l ≠ none) :
    l.xidLastTx ≠ none ∧ l.xidLastRx ≠ none := by
  constructor
  · intro hn
    have := ht.sent hc
    rw [hn] at this
    cases this
  · intro hn
    have := ht.received hc
    rw [hn] at this
    cases this

theorem inputActiveCalls_ready (hx : l.xidState = .rPriSSec ∨ l.xidState = .sPriRSec) :
    inputActiveCalls l = some false := by
  unfold inputActiveCalls
  rcases hx with hx | hx <;> rw [hx]

/-- What is received is of the role that the input says. -/
theorem Fits.hears (h : Fits p q V l) {i : XidIn} {role : Role} (hi : l.xidInput = some i)
    (hm : i = .neg ∧ role = .neg ∨ i = .pri ∧ role = .pri ∨ i = .sec ∧ role = .sec) :
    ∃ r, l.xidLastRx = some r ∧ q.Says r.xid ∧ r.xid.lsRole = role := by
  obtain ⟨r, hrx, hr⟩ := h.input i hi (hm.imp And.left (Or.imp And.left And.left))
  obtain ⟨he, hrole⟩ := xidPktInput_role hr hm
  exact ⟨r, hrx, (h.heard r hrx he).1, hrole⟩

/-- A timely SETMODE: it activates the link station that has received an XID of a primary one. -/
theorem Fits.setmode (h : Fits p q V l) (ht : Timely l) (hi : l.xidInput = some .setmode) (env : Env) :
    doitCalls l = none ∧ Fits p q V (xidDoit env l) ∨
      doitCalls l = some false ∧ Up p q V (xidDoit env l) := by
  obtain ⟨h₁, h₂, h₃, h₄⟩ := ht.setmode hi
  have hd : xidDoit env l = xidInputSetmode env l := by
    unfold xidDoit
    rw [hi]
  have hc : doitCalls l = if l.xidState = .rPriSSec then inputActiveCalls l else none := by
    unfold doitCalls
    rw [hi]
    cases hx : l.xidState <;> simp_all
  by_cases hx : l.xidState = .rPriSSec
  · rw [if_pos hx, inputActiveCalls_ready (.inl hx)] at hc
    obtain ⟨htx, hrx⟩ := ht.there (hc ▸ Option.some_ne_none false)
    refine .inr ⟨hc, ?_⟩
    have hs : xidInputSetmode env l = (xidInputActive env
        { l with xidInput := some .active, xidDirection := .inbound }).2 := by
      unfold xidInputSetmode
      rw [hx]
    rw [hd, hs]
    have hf : Fits p q V { l with xidInput := some .active, xidDirection := .inbound } := by
      refine { h with input := ?_ }
      intro j hj hm
      obtain rfl := Option.some.inj hj
      simp at hm
    exact hf.inputActive env (.inl hx) htx hrx
  · rw [if_neg hx] at hc
    refine .inl ⟨hc, ?_⟩
    rw [hd]
    unfold xidInputSetmode
    split
    case h_1 hx' => exact absurd hx' h₁
    case h_2 hx' => exact absurd hx' h₂
    case h_3 hx' => exact absurd hx' h₃
    case h_4 hx' => exact absurd hx' h₄
    case h_5 | h_6 => exact Fits.output h.toKeeps h.state env.own .z2 nofun h.takes trivial
    case h_7 hx' => exact absurd hx' hx
    case h_8 hx' => exact absurd hx' h.xidState

/-- A timely input leaves a link station that is not active as it is, or activates it. -/
theorem Fits.doit (hp : p.Suits q) (h : Fits p q V l) (ht : Timely l) (env : Env) :
    doitCalls l = none ∧ Fits p q V (xidDoit env l) ∨
      doitCalls l = some false ∧ Up p q V (xidDoit env l) := by
  cases hi : l.xidInput with
  | none =>
    unfold xidDoit doitCalls
    rw [hi]
    exact .inl ⟨rfl, h⟩
  | some input =>
    cases input with
    | start | null | pn | reset =>
      unfold xidDoit doitCalls
      rw [hi]
      first
        | exact .inl ⟨rfl, h.begin env.own⟩
        | exact .inl ⟨rfl, h.inputNull hp env⟩
        | exact .inl ⟨rfl, h.inputPn hp env⟩
        | exact .inl ⟨rfl, h.toKeeps.reset hp env.own⟩
    | neg =>
      obtain ⟨r, hrx, hs, hr⟩ := h.hears hi (.inl ⟨rfl, rfl⟩)
      unfold xidDoit doitCalls
      rw [hi]
      exact .inl ⟨rfl, h.inputNeg hp hrx hs hr env⟩
    | pri =>
      obtain ⟨r, hrx, hs, hr⟩ := h.hears hi (.inr (.inl ⟨rfl, rfl⟩))
      unfold xidDoit doitCalls
      rw [hi]
      exact .inl ⟨rfl, h.inputPri hp hs hr env⟩
    | sec =>
      obtain ⟨r, hrx, hs, hr⟩ := h.hears hi (.inr (.inr ⟨rfl, rfl⟩))
      unfold xidDoit doitCalls
      rw [hi]
      exact .inl ⟨rfl, h.inputSec hp hs hr env⟩
    | active =>
      have hc : doitCalls l = inputActiveCalls l := by
        unfold doitCalls
        rw [hi]
      have hne : doitCalls l ≠ none := by
        rw [hc]
        unfold inputActiveCalls
        have := h.xidState
        cases hx : l.xidState <;> simp_all
      obtain ⟨htx, hrx⟩ := ht.there hne
      refine .inr ⟨hc.trans (inputActiveCalls_ready (ht.ended hne)), ?_⟩
      unfold xidDoit
      rw [hi]
      exact h.inputActive env (ht.ended hne) htx hrx
    | setmode => exact h.setmode ht hi env

/-- An active link station stays as it is unless it is reset. -/
theorem Up.doit (hp : p.Suits q) (h : Up p q V l) (env : Env) :
    doitCalls l = none ∧ (Fits p q V (xidDoit env l) ∨ xidDoit env l = l) := by
  have hx := h.xidState
  constructor
  · unfold doitCalls inputActiveCalls
    rw [hx]
    split <;> rfl
  · unfold xidDoit
    split
    · right
      unfold xidInputBegin
      simp [hx]
    · right
      simp only [xidInputNull, hx]
    · right
      simp only [xidInputPn, hx]
    · right
      simp only [xidInputNeg, hx]
    · right
      simp only [xidInputPri, hx]
    · right
      simp only [xidInputSec, hx]
    · right
      simp only [xidInputSetmode, hx]
    · right
      unfold xidInputActive
      rw [if_pos hx]
    · exact .inl (h.toKeeps.reset hp env.own)
    · exact .inr rfl

end

/-! ## Every event -/

/-- What an event leaves of what has been heard: an XID as the other end says it, with its
sizes. -/
theorem Keeps.set {p q : Part} {ls : Ls} {e : Event} {other : DlcCb} {junk sizes : XidSizes}
    (h : Keeps p q (sizes = other.sizes) ls)
    (he : ∀ r, e = .indXidCmd r ∨ e = .indXidRsp r → r.empty = false → q.Says r.xid)
    {σ : Setting} (hrx : σ.xidLastRx = (prepared ls e).xidLastRx)
    (hin : σ.xidInput = (prepared ls e).xidInput ∨
      σ.xidInput = ls.xidInput ∧ σ.xidLastRx = ls.xidLastRx)
    (hsent : σ.sent = ls.sent ∨ σ.sent = ls.sent ++ [.test]) :
    Keeps p q (rxSizesAfter e other junk sizes = other.sizes) (ls.set σ) := by
  refine { h with sent := ?_, heard := ?_, input := ?_ }
  · intro f hf
    rcases hsent with hs | hs
    · exact h.sent f (hs ▸ hf)
    · rcases List.mem_append.mp (hs ▸ hf : f ∈ ls.sent ++ [.test]) with hf | hf
      · exact h.sent f hf
      · rw [List.mem_singleton.mp hf]
        trivial
  · intro r hr hne
    replace hr : (prepared ls e).xidLastRx = some r := hrx.symm.trans hr
    cases e with
    | indXidCmd r' | indXidRsp r' =>
      obtain rfl := Option.some.inj hr
      refine ⟨he _ (by simp) hne, ?_⟩
      simp [rxSizesAfter, hne]
    | startLs | stopLs | activateRoute | retry | indTestRsp | indConn | indDisc | confConn
    | connectFinish | confDisc => exact h.heard r hr hne
  · intro i hi hm
    rcases hin with hin | ⟨hin, hrx'⟩
    · replace hi : (prepared ls e).xidInput = some i := hin.symm.trans hi
      show ∃ r, σ.xidLastRx = some r ∧ _
      rw [hrx]
      cases e with
      | indXidCmd r | indXidRsp r => exact ⟨r, rfl, hi⟩
      | retry | activateRoute | indTestRsp | connectFinish => exact h.input i hi hm
      | confConn ok =>
        obtain rfl := Option.some.inj hi
        cases ok <;> simp at hm
      | startLs | stopLs | indConn | indDisc | confDisc =>
        obtain rfl := Option.some.inj hi
        simp at hm
    · show ∃ r, σ.xidLastRx = some r ∧ _
      rw [hrx']
      exact h.input i (hin.symm.trans hi) hm

/-- A link station that plays its part, with the results of the XIDs if it is active. -/
def Ready (p q : Part) (other : DlcCb) (st : Station) : Prop :=
  Fits p q (st.rxSizes = other.sizes) st.ls ∨
    Up p q (st.rxSizes = other.sizes) st.ls ∧
      st.parameters = xidResults st.dlc.sizes other.sizes false

theorem Ready.keeps {p q : Part} {other : DlcCb} {st : Station} (h : Ready p q other st) :
    Keeps p q (st.rxSizes = other.sizes) st.ls :=
  h.elim Fits.toKeeps fun hu => hu.1.toKeeps

/-- An event keeps that, if what it calls is timely and what is received has been said. -/
theorem Ready.handle {p q : Part} (hp : p.Suits q) {other : DlcCb} {st st' : Station}
    (h : Ready p q other st) {junk : XidSizes} {env : Env} {e : Event}
    (he : ∀ r, e = .indXidCmd r ∨ e = .indXidRsp r → r.empty = false → q.Says r.xid)
    (ht : ∀ l ∈ called st.ls e, Timely l) (hst : st.handle other junk (env, e) = some st') :
    Ready p q other st' ∧ st'.dlc = st.dlc := by
  unfold Station.handle at hst
  obtain ⟨ls', hls, rfl⟩ := Option.map_eq_some_iff.mp hst
  refine ⟨?_, rfl⟩
  unfold Ready
  dsimp only
  cases hc : called st.ls e with
  | none =>
    obtain ⟨σ, hσ, rfl⟩ := handle_quiet hc hls
    have hk : Keeps p q (rxSizesAfter e other junk st.rxSizes = other.sizes) (st.ls.set σ) :=
      h.keeps.set he hσ.xidLastRx hσ.xidInput hσ.sent
    have hres (rx : XidSizes) : st.results junk rx e = st.parameters := by
      unfold Station.results
      rw [hc]
    rw [hres]
    rcases h with hf | ⟨hu, hpar⟩
    · left
      refine { hk with state := ?_, xidState := hf.xidState, role := hf.role }
      rcases hσ.holds with hs | ⟨-, hs⟩
      · exact fun ha => hf.state (hs.symm.trans ha)
      · exact fun ha => nomatch hs.symm.trans ha
    · right
      refine ⟨{ hk with state := ?_, xidState := hu.xidState, role := hu.role }, hpar⟩
      rcases hσ.holds with hs | ⟨hd, -⟩
      · exact hs.trans hu.state
      · exact nomatch hd.symm.trans hu.state
  | some l =>
    obtain ⟨retry, retries, coStatus, hl⟩ := called_eq hc
    have hk : Keeps p q (rxSizesAfter e other junk st.rxSizes = other.sizes) l := by
      rw [hl]
      refine h.keeps.set he rfl (.inl rfl) (.inl ?_)
      cases e <;> rfl
    have hstate : l.state = st.ls.state ∨ st.ls.state = .defined ∧ l.state = .activated := by
      rw [hl]
      exact prepared_holds hc
    obtain ⟨hx, hrole, hodai, htx⟩ : l.xidState = st.ls.xidState ∧
        l.effectiveRole = st.ls.effectiveRole ∧ l.odai = st.ls.odai ∧
        l.xidLastTx = st.ls.xidLastTx := by
      rw [hl]
      exact ⟨rfl, rfl, rfl, rfl⟩
    rw [handle_called hc hls]
    rcases h with hf | ⟨hu, hpar⟩
    · have hfl : Fits p q (rxSizesAfter e other junk st.rxSizes = other.sizes) l := by
        refine { hk with state := ?_, xidState := hx ▸ hf.xidState, role := hx ▸ hrole ▸ hf.role }
        rcases hstate with hs | ⟨-, hs⟩
        · exact hs ▸ hf.state
        · exact fun ha => nomatch hs.symm.trans ha
      have htl := ht l hc
      rcases hfl.doit hp htl env with ⟨-, hfit⟩ | ⟨hcall, hup⟩
      · exact .inl hfit
      · right
        refine ⟨hup, ?_⟩
        have hne : doitCalls l ≠ none := hcall ▸ Option.some_ne_none false
        obtain ⟨image, hi, himage⟩ := (Option.any_eq_true ..).mp (htl.sent hne)
        obtain ⟨r, hr, hempty⟩ := (Option.any_eq_true ..).mp (htl.received hne)
        obtain ⟨xid, rfl⟩ := Option.isSome_iff_exists.mp himage
        have hsizes := (hk.heard r hr (by simpa using hempty)).2
        have htxs : st.txSizes junk = st.dlc.sizes := by
          unfold Station.txSizes
          rw [← htx, hi]
        unfold Station.results
        simp only [hc, hcall, hi, hr, htxs, hsizes, reduceCtorEq, or_self, if_false]
    · have hul : Up p q (rxSizesAfter e other junk st.rxSizes = other.sizes) l := by
        refine { hk with state := ?_, xidState := hx.trans hu.xidState, role := ?_ }
        · rcases hstate with hs | ⟨hd, -⟩
          · exact hs.trans hu.state
          · exact nomatch hd.symm.trans hu.state
        · rw [hrole, hodai]
          exact hu.role
      obtain ⟨hcall, hdoit⟩ := hul.doit hp env
      rcases hdoit with hfit | hsame
      · exact .inl hfit
      · right
        refine ⟨hsame.symm ▸ hul, ?_⟩
        unfold Station.results
        simp only [hc, hcall]
        exact hpar

/-! ## The two link stations -/

/-- Both link stations are ready. -/
structure BothReady (p q : Part) (k : Ends) : Prop where
  left : Ready p q k.right.dlc k.left
  right : Ready q p k.left.dlc k.right

/-- What arrives has been said. -/
theorem said_of_arrives {q : Part} {sent : List Frame} (hsent : ∀ f ∈ sent, q.Sends f) {e : Event}
    (h : arrives sent e = true) (r : Received) (he : e = .indXidCmd r ∨ e = .indXidRsp r)
    (hr : r.empty = false) : q.Says r.xid := by
  have hcarried {d : XidDir} {image : Option Xid3} {resent : Bool}
      (hf : Frame.xid d image resent ∈ sent) (hc : carries image r = true) : q.Says r.xid := by
    cases image with
    | none =>
      have he : r.empty = true := hc
      rw [hr] at he
      cases he
    | some xid =>
      have hx : r.xid = xid := by simpa [carries, hr] using hc
      rw [hx]
      exact hsent _ hf
  rcases he with rfl | rfl
  · obtain ⟨f, hf, hc⟩ := List.any_eq_true.mp h
    split at hc
    case h_1 => exact hcarried hf hc
    all_goals cases hc
  · obtain ⟨f, hf, hc⟩ := List.any_eq_true.mp h
    split at hc
    case h_1 | h_2 => exact hcarried hf hc
    all_goals cases hc

/-- The end where an event is -/
def Ends.at (k : Ends) (right : Bool) : Station := if right then k.right else k.left

/-- What an event calls is timely. -/
def Meets (k : Ends) (e : LinkEvent) : Prop := ∀ l ∈ called (k.at e.right).ls e.event, Timely l

instance : ∀ k e, Decidable (Meets k e) := fun k e =>
  inferInstanceAs (Decidable (∀ l ∈ called (k.at e.right).ls e.event, Timely l))

theorem BothReady.stepLeft {p q : Part} (hp : p.Suits q) {k k' : Ends} (h : BothReady p q k)
    {e : LinkEvent} (ht : ∀ l ∈ called k.left.ls e.event, Timely l)
    (hs : stepLeft k e = some k') : BothReady p q k' := by
  unfold Link.stepLeft at hs
  split_ifs at hs with ha
  obtain ⟨st, hst, rfl⟩ := Option.map_eq_some_iff.mp hs
  obtain ⟨hl, hdlc⟩ := h.left.handle hp (said_of_arrives h.right.keeps.sent ha) ht hst
  refine ⟨hl, ?_⟩
  show Ready q p st.dlc k.right
  rw [hdlc]
  exact h.right

theorem BothReady.step {p q : Part} (hp : p.Suits q) (hq : q.Suits p) {k k' : Ends}
    (h : BothReady p q k) {e : LinkEvent} (hm : Meets k e) (hs : step k e = some k') :
    BothReady p q k' := by
  unfold Meets Ends.at at hm
  unfold Link.step at hs
  split_ifs at hs hm with hr
  · obtain ⟨k₁, hk₁, rfl⟩ := Option.map_eq_some_iff.mp hs
    have hsw : BothReady q p k₁ := BothReady.stepLeft hq ⟨h.right, h.left⟩ hm hk₁
    exact ⟨hsw.right, hsw.left⟩
  · exact h.stepLeft hp hm hs

theorem BothReady.run {p q : Part} (hp : p.Suits q) (hq : q.Suits p) {k k' : Ends}
    (h : BothReady p q k) {es : List LinkEvent} (hm : Along Link.step Meets k es)
    (hr : Framework.run Link.step k es = some k') : BothReady p q k' :=
  run_invariant (fun _ _ _ hs hG hstep => hs.step hp hq hG hstep) h hm hr

/-- Two link stations that are active agree on their parameters. -/
structure Agree (k : Ends) : Prop where
  maxBtu : k.left.parameters.txMaxBtu = k.right.parameters.rxMaxBtu ∧
    k.right.parameters.txMaxBtu = k.left.parameters.rxMaxBtu
  window : k.left.parameters.txWindow = k.right.parameters.rxWindow ∧
    k.right.parameters.txWindow = k.left.parameters.rxWindow
  role : RolesAgree k.left.ls k.right.ls
  odai : k.left.ls.odai ≠ k.right.ls.odai

theorem BothReady.agree {p q : Part} {k : Ends} (h : BothReady p q k)
    (hl : k.left.ls.state = .active) (hr : k.right.ls.state = .active) : Agree k := by
  obtain ⟨hup, hpl⟩ := h.left.resolve_left fun hf => hf.state hl
  obtain ⟨huq, hpr⟩ := h.right.resolve_left fun hf => hf.state hr
  have hrole : k.left.ls.effectiveRole = .pri ∧ k.right.ls.effectiveRole = .sec ∧
        k.left.ls.odai = 0 ∧ k.right.ls.odai = 1 ∨
      k.left.ls.effectiveRole = .sec ∧ k.right.ls.effectiveRole = .pri ∧
        k.left.ls.odai = 1 ∧ k.right.ls.odai = 0 := by
    rcases hup.role with ⟨he, hs, ho⟩ | ⟨he, hs, ho⟩
    · rcases huq.role with ⟨he', hs', ho'⟩ | ⟨he', hs', ho'⟩
      · have := Part.Takes.pri (he' ▸ huq.takes)
        rw [hs] at this
        cases this
      · exact .inl ⟨he, he', ho, ho'⟩
    · rcases huq.role with ⟨he', hs', ho'⟩ | ⟨he', hs', ho'⟩
      · exact .inr ⟨he, he', ho, ho'⟩
      · have := Part.Takes.sec (he' ▸ huq.takes)
        rw [hs] at this
        cases this
  refine ⟨?_, ?_, hrole.imp (fun h => ⟨h.1, h.2.1⟩) (fun h => ⟨h.1, h.2.1⟩), ?_⟩
  · rw [hpl, hpr]
    exact ⟨rfl, rfl⟩
  · rw [hpl, hpr]
    exact ⟨rfl, rfl⟩
  · rcases hrole with ⟨-, -, ho, ho'⟩ | ⟨-, -, ho, ho'⟩
    · rw [ho, ho']
      decide
    · rw [ho, ho']
      decide

/-! ## Agreement -/

/-- If both ends negotiate their roles, of each node id and the other's with its bytes reversed
the greater is at different ends. -/
def Ordered (a b : Ls) : Prop :=
  a.role = .neg → b.role = .neg →
    htonl b.nodeid ≤ a.nodeid ∧ b.nodeid ≤ htonl a.nodeid ∨
      a.nodeid ≤ htonl b.nodeid ∧ htonl a.nodeid ≤ b.nodeid

/-- The role that an end of a role can come to, where not both ends negotiate. -/
def sideOf (own other : Role) : Role :=
  match own with
  | .pri | .rsv => .pri
  | .sec => .sec
  | .neg => if other = .sec then .pri else .sec

theorem suits_sideOf {own other : Role} (h : ¬ (own = .neg ∧ other = .neg)) (nodeid nodeid' : UInt32) :
    (Part.mk (sideOf own other) own nodeid).Suits ⟨sideOf other own, other, nodeid'⟩ where
  own := by cases own <;> simp [Part.Takes, sideOf]
  side := by
    cases own with
    | neg => by_cases ho : other = .sec <;> simp [sideOf, ho]
    | pri | sec | rsv => simp [sideOf]
  opposite ho := by
    dsimp only at ho
    subst ho
    cases other with
    | neg => exact absurd ⟨rfl, rfl⟩ h
    | pri | sec | rsv => simp [sideOf]
  high ho ho' := absurd ⟨ho, ho'⟩ h
  low ho ho' := absurd ⟨ho, ho'⟩ h

/-- Both negotiate: the one with the greater id can come to be the primary. -/
theorem suits_pri {nodeid nodeid' : UInt32} (h : htonl nodeid' ≤ nodeid) :
    (Part.mk .pri .neg nodeid).Suits ⟨.sec, .neg, nodeid'⟩ where
  own := .inl rfl
  side := .inl rfl
  opposite _ := nofun
  high _ _ _ := h
  low _ _ hs := nomatch hs

theorem suits_sec {nodeid nodeid' : UInt32} (h : nodeid ≤ htonl nodeid') :
    (Part.mk .sec .neg nodeid).Suits ⟨.pri, .neg, nodeid'⟩ where
  own := .inl rfl
  side := .inr rfl
  opposite _ := nofun
  high _ _ hs := nomatch hs
  low _ _ _ := h

/-- The parts of two ends whose node ids are ordered. -/
theorem exists_parts {a b : Ls} (h : Ordered a b) : ∃ p q : Part, p.Suits q ∧ q.Suits p ∧
    (p.role = a.role ∧ p.nodeid = a.nodeid) ∧ q.role = b.role ∧ q.nodeid = b.nodeid := by
  by_cases hn : a.role = .neg ∧ b.role = .neg
  · obtain ⟨ha, hb⟩ := hn
    rcases h ha hb with ⟨h₁, h₂⟩ | ⟨h₁, h₂⟩
    · exact ⟨_, _, suits_pri h₁, suits_sec h₂, ⟨ha.symm, rfl⟩, hb.symm, rfl⟩
    · exact ⟨_, _, suits_sec h₁, suits_pri h₂, ⟨ha.symm, rfl⟩, hb.symm, rfl⟩
  · exact ⟨_, _, suits_sideOf hn a.nodeid b.nodeid,
      suits_sideOf (fun hba => hn hba.symm) b.nodeid a.nodeid, ⟨rfl, rfl⟩, rfl, rfl⟩

/-- A link station as it is defined plays its part. -/
theorem ready_defined {p q : Part} (hp : p.Suits q) (cfg : LsCfg) {nodeid : UInt32}
    (networkNode : Bool) (port index : UInt32) (dlc other : DlcCb) (hr : p.role = cfg.role)
    (hid : p.nodeid = nodeid) : Ready p q other
      ⟨defineLs cfg nodeid networkNode port index, dlc, ⟨0, 0⟩, ⟨0, 0, 0, 0⟩⟩ := by
  have hk : Keeps p q ((⟨0, 0⟩ : XidSizes) = other.sizes)
      (defineLs cfg nodeid networkNode port index) :=
    { nodeid := hid.symm
      config := hr.symm
      takes := by
        show p.Takes cfg.role
        rw [← hr]
        exact hp.own
      sent := fun f hf => absurd hf List.not_mem_nil
      lastTx := fun xid hx => nomatch hx
      heard := fun r hx => nomatch hx
      input := fun i hi hm => by
        obtain rfl := Option.some.inj hi
        simp at hm }
  have hstate : LsState.defined ≠ .active := nofun
  have hxid : XidState.reset ≠ .active := nofun
  exact .inl { hk with state := hstate, xidState := hxid, role := trivial }

/-- In every run of two link stations, whatever is lost, late or repeated, if their node ids are
ordered and every SETMODE and every activation comes when the XIDs have been exchanged, then
the two agree on their parameters whenever both are active. -/
theorem parameters_agree (cfg cfg' : LsCfg) (nodeid nodeid' : UInt32) (networkNode networkNode' : Bool)
    (port index port' index' : UInt32) (dlc dlc' : DlcCb)
    (ho : Ordered (defineLs cfg nodeid networkNode port index)
      (defineLs cfg' nodeid' networkNode' port' index'))
    {es : List LinkEvent} {k : Ends}
    (hm : Along step Meets (defined (defineLs cfg nodeid networkNode port index)
      (defineLs cfg' nodeid' networkNode' port' index') dlc dlc') es)
    (hk : run step (defined (defineLs cfg nodeid networkNode port index)
      (defineLs cfg' nodeid' networkNode' port' index') dlc dlc') es = some k)
    (hl : k.left.ls.state = .active) (hr : k.right.ls.state = .active) : Agree k := by
  obtain ⟨p, q, hp, hq, ⟨hpr, hpi⟩, hqr, hqi⟩ := exists_parts ho
  refine BothReady.agree (BothReady.run hp hq ⟨?_, ?_⟩ hm hk) hl hr
  · exact ready_defined hp cfg networkNode port index dlc dlc' hpr hpi
  · exact ready_defined hq cfg' networkNode' port' index' dlc' dlc hqr hqi

/-! ## Two runs -/

/-- A link station of a role in a direction -/
def cfgOf (role : Role) (direction : LsDir) : LsCfg :=
  ⟨role, direction, true, 3, 0, ⟨[], []⟩, ⟨[], []⟩⟩

def primary : Ls := defineLs (cfgOf .pri .dirBoth) 1 false 1 1

def secondary : Ls := defineLs (cfgOf .sec .dirIn) 2 false 1 1

def ethernet : DlcCb := ⟨.ether, 1500, 14⟩

/-- What is received of an XID that a link station sends. -/
def xidOf (ls : Ls) (state : XchgState) : Received := ⟨false, { xidPktInit ls with state := state }⟩

def atLeft (event : Event) : LinkEvent := { right := false, env := {}, event := event }

def atRight (event : Event) : LinkEvent := { right := true, env := {}, event := event }

/-- The secondary's XID is sent again; the primary's is still on its way. -/
def exchange : List LinkEvent :=
  [atRight .startLs, atLeft .startLs, atRight (.indXidCmd ⟨true, xidPktInit primary⟩),
    atLeft (.indXidCmd (xidOf secondary .pn)), atRight (.indXidCmd (xidOf primary .pn)),
    atLeft (.indXidCmd (xidOf secondary .neg)), atRight .retry,
    atLeft (.indXidCmd (xidOf secondary .neg))]

/-- The primary's XID arrives. -/
def orderly : List LinkEvent :=
  exchange ++ [atRight (.indXidCmd (xidOf primary .neg)), atRight .indConn, atLeft (.confConn true),
    atLeft .connectFinish]

/-- The primary's XID is lost. -/
def surprising : List LinkEvent :=
  exchange ++ [atRight .indConn, atLeft (.confConn true), atLeft .connectFinish]

theorem parameters_agree_orderly :
    ∃ k, run step (defined primary secondary ethernet ethernet) orderly = some k ∧
      k.left.ls.state = .active ∧ k.right.ls.state = .active ∧ Agree k := by
  have hrun : ((run step (defined primary secondary ethernet ethernet) orderly).map fun k =>
      (k.left.ls.state, k.right.ls.state)) = some (.active, .active) := by decide +kernel
  obtain ⟨k, hk, hs⟩ := Option.map_eq_some_iff.mp hrun
  obtain ⟨hl, hr⟩ := Prod.mk.inj hs
  refine ⟨k, hk, hl, hr, parameters_agree (cfgOf .pri .dirBoth) (cfgOf .sec .dirIn) 1 2 false false
    1 1 1 1 ethernet ethernet ?_ ?_ hk hl hr⟩
  · intro hn
    cases hn
  · show Along step Meets (defined primary secondary ethernet ethernet) orderly
    decide +kernel

/-- The primary expects windows of 2, the secondary, which is set up by surprise, of 7. -/
theorem parameters_differ :
    ∃ k, run step (defined primary secondary ethernet ethernet) surprising = some k ∧
      k.left.ls.state = .active ∧ k.right.ls.state = .active ∧
      k.left.parameters.txWindow = 2 ∧ k.right.parameters.rxWindow = 7 ∧ ¬ Agree k := by
  have hrun : ((run step (defined primary secondary ethernet ethernet) surprising).map fun k =>
      (k.left.ls.state, k.right.ls.state, k.left.parameters.txWindow,
        k.right.parameters.rxWindow)) = some (.active, .active, 2, 7) := by decide +kernel
  obtain ⟨k, hk, hs⟩ := Option.map_eq_some_iff.mp hrun
  obtain ⟨hl, hr, ht, hw⟩ : k.left.ls.state = .active ∧ k.right.ls.state = .active ∧
      k.left.parameters.txWindow = 2 ∧ k.right.parameters.rxWindow = 7 := by
    simpa only [Prod.mk.injEq] using hs
  refine ⟨k, hk, hl, hr, ht, hw, fun ha => ?_⟩
  have := ha.window.1
  rw [ht, hw] at this
  cases this

end LinuxSna.Link
