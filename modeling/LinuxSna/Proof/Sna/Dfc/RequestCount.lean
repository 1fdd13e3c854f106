import LinuxSna.Proof.Sna.Dfc.Reachable

/-!
# When a definite response is required

The requests of the normal flow are counted with 8 bits, which are never more than 16384. A half-session
therefore never requires a definite response, however many requests are sent and received.

* `sendFsms_counted`, `rcvFsms_counted`: what sending and receiving count;
* `counts_step`: the counter is the number of requests modulo 256;
* `required_iff`: up to which number of requests the code is right.
-/

namespace LinuxSna.Dfc

open Framework (run run_cons run_invariant')
open Hs (Bind HsCb HsType Mu Skb)
open Ps (PsMu)

variable {d : DfcState} {hs : HsCb} {s : Skb} {t t' : Sender}

/-! ## What the machines count -/

/-- The counter, and whether a definite response is required -/
def DfcState.counted (d : DfcState) : Bool × UInt8 := (d.rqdRequiredOnCeb, d.normalFlowRqCnt)

@[simp] theorem bsm_counted (d : DfcState) (s : Skb) (signal : BsmInd) :
    (bsm d s signal).counted = d.counted := by
  obtain ⟨_, _, h⟩ := bsm_eq d s signal
  rw [h]
  rfl

@[simp] theorem chainRcv_counted (d : DfcState) (s : Skb) (chain : ChainInd) :
    (chainRcv d s chain).counted = d.counted := by
  obtain ⟨_, _, _, _, h⟩ := chainRcv_eq d s chain
  rw [h]
  rfl

@[simp] theorem chainSend_counted (d : DfcState) (s : Skb) (chain : ChainInd) :
    (chainSend d s chain).counted = d.counted := by
  obtain ⟨_, _, _, h⟩ := chainSend_eq d s chain
  rw [h]
  rfl

@[simp] theorem qriChainRcv_counted (d : DfcState) (s : Skb) :
    (qriChainRcv d s).counted = d.counted := by
  obtain ⟨_, _, h⟩ := qriChainRcv_eq d s
  rw [h]
  rfl

@[simp] theorem rcvPurge_counted (d : DfcState) (s : Skb) (purge : Bool) :
    (rcvPurge d s purge).counted = d.counted := by
  obtain ⟨_, h⟩ := rcvPurge_eq d s purge
  rw [h]
  rfl

@[simp] theorem ctUpdate_counted (d : DfcState) (s : Skb) : (ctUpdate d s).counted = d.counted := by
  unfold ctUpdate
  split <;> rfl

@[simp] theorem noteBracket_counted (d : DfcState) (type : HsType) (s : Skb) :
    (noteBracket d type s).counted = d.counted := by
  unfold noteBracket
  split_ifs
  · rfl
  · split <;> rfl

@[simp] theorem generateRmPsInputs_counted (d : DfcState) (type : HsType) (s : Skb)
    (conversation : Bool) : (generateRmPsInputs d type s conversation).1.counted = d.counted := by
  obtain ⟨_, _, _, h⟩ := generateRmPsInputs_eq d type s conversation
  rw [h]
  rfl

/-- 8 bits are never more than 16384. -/
theorem countRequest_counted (h : d.rqdRequiredOnCeb = false) :
    (countRequest d).counted = (false, d.normalFlowRqCnt + 1) := by
  have hlt := (d.normalFlowRqCnt + 1).toNat_lt
  unfold countRequest
  rw [if_neg (by rw [h]; exact nofun)]
  show (decide _, _) = _
  rw [decide_eq_false (by omega)]

/-! ## Sending and receiving -/

theorem sendStep_counted_request (h : d.rqdRequiredOnCeb = false) (type : HsType)
    (hr : s.rri = .req) (he : s.efi = .norm) :
    (sendStep d type s).counted = (false, d.normalFlowRqCnt + 1) := by
  unfold sendStep
  rw [if_neg (by rw [he]; exact fun h => nomatch h.2), if_neg (by rw [hr]; exact fun h => nomatch h.1)]
  dsimp only
  split_ifs <;> simp [countRequest_counted h]

theorem sendStep_counted_response (d : DfcState) (type : HsType) (hr : s.rri = .rsp)
    (he : s.efi = .norm) : (sendStep d type s).counted = d.counted := by
  unfold sendStep
  rw [if_neg (by rw [he]; exact fun h => nomatch h.2), if_pos ⟨hr, he⟩]
  simp

/-- A request on the normal flow that is sent is counted. -/
theorem sendFsms_counted (h : hs.dfc.rqdRequiredOnCeb = false) (hr : s.rri = .req)
    (he : s.efi = .norm) (tx : TxPath) :
    (sendFsms hs s tx).hs.dfc.counted = (false, hs.dfc.normalFlowRqCnt + 1) :=
  sendStep_counted_request (d := { hs.dfc with direction := .outbound })
    (s := { s with toMu := (hs.tc.stamp s.toMu).2 }) h hs.type hr he

theorem sendFsms_counted_response (hs : HsCb) (hr : s.rri = .rsp) (he : s.efi = .norm) (tx : TxPath) :
    (sendFsms hs s tx).hs.dfc.counted = hs.dfc.counted :=
  sendStep_counted_response { hs.dfc with direction := .outbound }
    (s := { s with toMu := (hs.tc.stamp s.toMu).2 }) hs.type hr he

@[simp] theorem sendRspMu_counted (hs : HsCb) (s : Skb) (tx : TxPath) :
    (sendRspMu hs s tx).hs.dfc.counted = hs.dfc.counted := by
  unfold sendRspMu
  dsimp only
  split_ifs
  · exact sendFsms_counted_response _ (s := rspMu s) rfl rfl tx
  · rfl

theorem sendRspIfRequired_counted (hs : HsCb) (s : Skb) (tx : TxPath) :
    (sendRspIfRequired hs s tx).1.dfc.counted = hs.dfc.counted := by
  unfold sendRspIfRequired
  split_ifs
  · exact sendRspMu_counted hs s tx
  · rfl

theorem rcvStep_counted (d : DfcState) (s : Skb) : (rcvStep d s).counted = d.counted := by
  unfold rcvStep
  dsimp only
  split_ifs <;> simp

theorem rcvRequest_counted (h : hs.dfc.rqdRequiredOnCeb = false) (s : Skb) (e : Env) :
    (rcvRequest hs s e).hs.dfc.counted = (false, hs.dfc.normalFlowRqCnt + 1) := by
  have hc := countRequest_counted h
  unfold rcvRequest
  dsimp only
  rw [sendRspIfRequired_counted]
  show (rcvStep _ s).counted = _
  rw [rcvStep_counted]
  split_ifs <;> simp [hc]

theorem rcvFsms_counted_response (hs : HsCb) (hr : s.rri = .rsp) (e : Env) :
    (rcvFsms hs s e).hs.dfc.counted = hs.dfc.counted := by
  obtain ⟨sense, hd⟩ := rcvStateError_response hs.dfc hs.type hr
  have hc : (rcvStateError hs.dfc hs.type s).2.counted = hs.dfc.counted := by
    rw [hd]
    rfl
  unfold rcvFsms
  dsimp only
  split
  · exact hc
  split
  · exact hc
  · rw [hr]
    dsimp only
    unfold rcvResponse
    split
    · simp only [chainSend_counted, ctUpdate_counted]
      exact hc
    · exact hc

theorem checked_counted (hs : HsCb) (s : Skb) : (checked hs s).dfc.counted = hs.dfc.counted := by
  obtain ⟨_, _, h⟩ := checked_eq hs s
  rw [h]
  rfl

/-- A normal-flow request is taken up: it passes the format checks, and there is memory for its
clone. -/
def TakenUp (hs : HsCb) (s : Skb) (e : Env) : Prop := IsFormatted hs s ∧ e.cloned = true

instance (hs : HsCb) (s : Skb) (e : Env) : Decidable (TakenUp hs s e) :=
  inferInstanceAs (Decidable (_ ∧ _))

/-- A request that is taken up is counted. -/
theorem rxSkb_counted (h : hs.dfc.rqdRequiredOnCeb = false) {e : Env} (ht : TakenUp hs s e) :
    (rxSkb hs s e).hs.dfc.counted = (false, hs.dfc.normalFlowRqCnt + 1) := by
  obtain ⟨hf, hcl⟩ := ht
  have hc := checked_counted hs s
  have hrqd : (checked hs s).dfc.rqdRequiredOnCeb = false := (congrArg Prod.fst hc).trans h
  have hcnt : (checked hs s).dfc.normalFlowRqCnt = hs.dfc.normalFlowRqCnt := congrArg Prod.snd hc
  rw [rxSkb_request hf]
  show (rcvFsms (checked hs s) s e).hs.dfc.counted = _
  have hrec : (recorded (checked hs s) s).dfc.rqdRequiredOnCeb = false := hrqd
  rw [rcvFsms_request _ hf.1 hf.2.1, if_neg (by rw [hcl]; exact nofun), rcvRequest_counted hrec]
  show (false, (checked hs s).dfc.normalFlowRqCnt + 1) = _
  rw [hcnt]

/-- Nothing else that is received is. -/
theorem rxSkb_counted_other (hs : HsCb) {e : Env} (ht : ¬ TakenUp hs s e) :
    (rxSkb hs s e).hs.dfc.counted = hs.dfc.counted := by
  have hc := checked_counted hs s
  by_cases hz : (checked hs s).dfc.sense = 0
  · cases hr : s.rri with
    | rsp =>
      obtain ⟨sense, hd⟩ := strayRsp_eq (checked hs s).dfc s
      have hz : ¬ (formatError (inbound hs.dfc s) hs.type s).sense ≠ 0 := not_not.mpr hz
      have hst : (strayRsp (checked hs s).dfc s).2.counted = hs.dfc.counted := by
        rw [hd]
        exact hc
      unfold rxSkb
      dsimp only
      rw [if_neg hz, hr]
      dsimp only
      split
      · exact hst
      · exact (rcvFsms_counted_response _ hr e).trans hst
    | req =>
      cases he : s.efi with
      | norm =>
        have hf : IsFormatted hs s := ⟨hr, he, hz⟩
        have hcl : e.cloned = false := Bool.eq_false_iff.mpr fun h => ht ⟨hf, h⟩
        rw [rxSkb_request hf]
        show (rcvFsms (checked hs s) s e).hs.dfc.counted = _
        rw [rcvFsms_request _ hr he, if_pos hcl]
        exact hc
      | exp =>
        have hz : ¬ (formatError (inbound hs.dfc s) hs.type s).sense ≠ 0 := not_not.mpr hz
        unfold rxSkb
        dsimp only
        rw [if_neg hz, hr, he]
        dsimp only
        rw [sendRspMu_counted]
        exact hc
  · have hz : (formatError (inbound hs.dfc s) hs.type s).sense ≠ 0 := hz
    unfold rxSkb
    dsimp only
    rw [if_pos hz]
    exact hc

/-! ## Runs -/

/-- A request on the normal flow is sent, or received and taken up. -/
def HsEvent.isRequest (t : Sender) : HsEvent → Bool
  | .received s e => TakenUp t.hs s e
  | .request _ _ => true
  | .record r txMaxBtu rcbSendMu e => ((sendFmdMu t r txMaxBtu rcbSendMu e).bind (·.given)).isSome
  | _ => false

/-- `sna_dfc_init` is called. -/
def HsEvent.initialises : HsEvent → Bool
  | .finish _ _ _ copied => copied
  | _ => false

/-- A half-session, and how many requests it has sent and received since `sna_dfc_init` -/
structure Tally where
  sender : Sender
  requests : ℕ

def Tally.step (y : Tally) (ev : HsEvent) : Option Tally :=
  (hsStep y.sender ev).map fun t =>
    ⟨t, if ev.initialises then 0 else y.requests + (ev.isRequest y.sender).toNat⟩

/-- None is required, the counter is the number of requests modulo 256, and what is filled is a
request. -/
structure Tally.Counts (y : Tally) : Prop where
  counted : y.sender.hs.dfc.counted = (false, .ofNat y.requests)
  fmd : ∀ b, y.sender.sendMu = some b → IsFmd b.mu

namespace Tally.Counts

variable {y y' : Tally}

theorem required (h : y.Counts) : y.sender.hs.dfc.rqdRequiredOnCeb = false :=
  congrArg Prod.fst h.counted

/-- The counter after one more request -/
theorem succ (h : y.Counts) :
    (false, y.sender.hs.dfc.normalFlowRqCnt + 1) = (false, UInt8.ofNat (y.requests + 1)) := by
  have hc : y.sender.hs.dfc.normalFlowRqCnt = .ofNat y.requests := congrArg Prod.snd h.counted
  rw [hc, UInt8.ofNat_add]
  rfl

theorem sendFmdMu (h : y.Counts) {r : PsToHs} {txMaxBtu : Nat} {rcbSendMu : Option PsMu}
    {e : SendEnv} {d : FmdDone} (hd : sendFmdMu y.sender r txMaxBtu rcbSendMu e = some d) :
    (⟨d.sender, y.requests + d.given.isSome.toNat⟩ : Tally).Counts := by
  unfold Dfc.sendFmdMu at hd
  cases hb : y.sender.sendMu <|> createAndInitMu txMaxBtu e with
  | none =>
    rw [hb] at hd
    cases hd
    exact h
  | some b =>
    rw [hb] at hd
    obtain ⟨b', hp, hd⟩ := Option.bind_eq_some_iff.mp hd
    have hf := (IsFmd.setRh (Sender.taken_fmd h.fmd hb) y.sender.hs.dfc.chainSendState r).put
      (b := { b with mu := setRh y.sender.hs.dfc.chainSendState r b.mu }) hp
    split_ifs at hd
    · obtain ⟨b'', hp', rfl⟩ := Option.map_eq_some_iff.mp hd
      have hput := hf.put hp'
      refine ⟨?_, Sender.fmd_none⟩
      exact (sendFsms_counted (s := b''.skb) h.required hput.rri hput.efi e.tx).trans h.succ
    · cases hd
      exact ⟨h.counted, fun _ hb => Option.some.inj hb ▸ hf⟩

theorem sendRspMuOf (h : y.Counts) (s : Skb) (expedite negative : Bool) (sense : UInt32)
    (tx : TxPath) {r : Done × Option Mu}
    (hr : sendRspMuOf y.sender.hs (some s) true expedite negative sense tx = some r) :
    (⟨.of r.1.hs y.sender.sendMu, y.requests⟩ : Tally).Counts := by
  cases hr
  refine ⟨?_, h.fmd⟩
  refine Eq.trans ?_ h.counted
  dsimp only [Sender.of]
  split
  · have hq : (rspMuOf s negative sense).rri = .rsp := by cases negative <;> rfl
    have he : (rspMuOf s negative sense).efi = .norm := by cases negative <;> rfl
    exact sendFsms_counted_response
      { y.sender.hs with dfc := { y.sender.hs.dfc with direction := .outbound } } hq he tx
  · rfl

/-- What happens to the half-session leaves the counter at the number of requests. -/
theorem step (h : y.Counts) {ev : HsEvent} (hs : y.step ev = some y') : y'.Counts := by
  obtain ⟨t, ht, rfl⟩ := Option.map_eq_some_iff.mp hs
  cases ev with
  | received s e =>
    cases ht
    refine ⟨?_, h.fmd⟩
    by_cases hu : TakenUp y.sender.hs s e
    · rw [show HsEvent.isRequest y.sender (.received s e) = true from decide_eq_true hu]
      exact (rxSkb_counted h.required hu).trans h.succ
    · rw [show HsEvent.isRequest y.sender (.received s e) = false from decide_eq_false hu]
      exact (rxSkb_counted_other y.sender.hs hu).trans h.counted
  | request s tx =>
    cases ht
    refine ⟨?_, h.fmd⟩
    exact (sendFsms_counted (s := initThRh s) h.required rfl rfl tx).trans h.succ
  | record r txMaxBtu rcbSendMu e =>
    obtain ⟨d, hd, rfl⟩ := Option.map_eq_some_iff.mp ht
    have hq : HsEvent.isRequest y.sender (.record r txMaxBtu rcbSendMu e) = d.given.isSome := by
      rw [HsEvent.isRequest, hd]
      rfl
    rw [hq]
    exact h.sendFmdMu hd
  | response s expedite negative sense tx =>
    cases ht
    exact h.sendRspMuOf s expedite negative sense tx rfl
  | finish pcIndex lf bind copied =>
    cases ht
    cases copied with
    | true => exact ⟨rfl, Sender.fmd_none⟩
    | false => exact ⟨h.counted, h.fmd⟩
  | tc tc =>
    cases ht
    exact ⟨h.counted, h.fmd⟩

end Tally.Counts

/-- `sna_dfc_init`, whatever the half-session was before -/
theorem counts_of_initialised {t : Sender} {n : ℕ} {pcIndex : UInt32} {lf : Asm.Lfsid} {bind : Bind}
    {y : Tally} (h : Tally.step ⟨t, n⟩ (.finish pcIndex lf bind true) = some y) : y.Counts := by
  obtain ⟨t', ht, rfl⟩ := Option.map_eq_some_iff.mp h
  cases ht
  exact ⟨rfl, Sender.fmd_none⟩

/-- In a run since `sna_dfc_init`, a definite response is required exactly after more than 16384
requests, if and only if there were no more. -/
theorem required_iff {t : Sender} {pcIndex : UInt32} {lf : Asm.Lfsid} {bind : Bind}
    {es : List HsEvent} {y : Tally}
    (h : run Tally.step ⟨t, 0⟩ (.finish pcIndex lf bind true :: es) = some y) :
    (y.sender.hs.dfc.rqdRequiredOnCeb = true ↔ 16384 < y.requests) ↔ y.requests ≤ 16384 := by
  obtain ⟨y₀, h₀, hr⟩ := run_cons.mp h
  have hc : y.Counts :=
    run_invariant' (fun _ _ _ hi hs => hi.step hs) (counts_of_initialised h₀) hr
  rw [hc.required]
  constructor
  · intro hi
    exact Nat.not_lt.mp fun hlt => nomatch hi.mpr hlt
  · intro hle
    exact iff_of_false nofun (Nat.not_lt.mpr hle)

/-- As many requests as one likes can be sent. -/
theorem run_requests (y : Tally) (n : ℕ) :
    ∃ y', run Tally.step y (.replicate n (.request chainEnd (.taken 0))) = some y' ∧
      y'.requests = y.requests + n := by
  induction n generalizing y with
  | zero => exact ⟨y, rfl, rfl⟩
  | succ n ih =>
    obtain ⟨y', hr, hn⟩ := ih ⟨.of (sendFromPsReq y.sender.hs chainEnd (.taken 0)).hs y.sender.sendMu,
      y.requests + 1⟩
    refine ⟨y', ?_, ?_⟩
    · rw [List.replicate_succ]
      exact run_cons.mpr ⟨_, rfl, hr⟩
    · rw [hn]
      exact Nat.add_right_comm y.requests 1 n

theorem required_of_one_request :
    ∃ y, run Tally.step ⟨.new 1 1 .bidder, 0⟩
        (.finish 1 ⟨true, 1, 0, 1, 1⟩ plainBind true :: .replicate 1 (.request chainEnd (.taken 0))) =
          some y ∧
      (y.sender.hs.dfc.rqdRequiredOnCeb = true ↔ 16384 < y.requests) := by
  obtain ⟨y, hr, hn⟩ := run_requests ⟨opened .bidder, 0⟩ 1
  have h := run_cons.mpr ⟨_, (rfl : Tally.step ⟨.new 1 1 .bidder, 0⟩
    (.finish 1 ⟨true, 1, 0, 1, 1⟩ plainBind true) = some ⟨opened .bidder, 0⟩), hr⟩
  refine ⟨y, h, (required_iff h).mpr ?_⟩
  rw [hn]
  decide

/-- After 16385 requests none is required yet. -/
theorem not_required_after_16385 :
    ∃ y, run Tally.step ⟨.new 1 1 .bidder, 0⟩
        (.finish 1 ⟨true, 1, 0, 1, 1⟩ plainBind true ::
          .replicate 16385 (.request chainEnd (.taken 0))) = some y ∧
      y.requests = 16385 ∧ y.sender.hs.dfc.rqdRequiredOnCeb = false := by
  obtain ⟨y, hr, hn⟩ := run_requests ⟨opened .bidder, 0⟩ 16385
  have h₀ : Tally.step ⟨.new 1 1 .bidder, 0⟩ (.finish 1 ⟨true, 1, 0, 1, 1⟩ plainBind true) =
      some ⟨opened .bidder, 0⟩ := rfl
  have hc : y.Counts := run_invariant' (fun _ _ _ hi hs => hi.step hs) (counts_of_initialised h₀) hr
  exact ⟨y, run_cons.mpr ⟨_, h₀, hr⟩, hn.trans (Nat.zero_add _), hc.required⟩

end LinuxSna.Dfc
