import LinuxSna.Proof.Sna.Dfc.Enforcement

/-!
# What holds of every half-session

No half-session ever purges or waits for the response to a signal, and its table of
what is sent knows no request but one of FMD: nothing in the code makes it so.

* `Tame.rxSkb`: what is received keeps that;
* `Sender.Reachable.tame`: it holds after any events.
-/

namespace LinuxSna.Dfc

open Framework (run_invariant')
open Hs (HsCb HsType Mu Skb)
open Ps (PsMu)

variable {hs : HsCb} {d d' : DfcState} {s : Skb} {e : Env}

/-- Nothing is purged, no signal is outstanding, and what has been sent is FMD without the
QRI. -/
structure Tame (d : DfcState) : Prop where
  purge : d.rcvPurgeState ≠ .purge
  sig : d.sigRqOutstanding = false
  ru : d.ctSend.rh.ru = .fmd
  qri : d.ctSend.rh.qri = false
  rqCode : d.ctSend.rqCode = ctRqCodeOther

namespace Tame

theorem of_steady (h : Tame d) (hs : Steady d d') : Tame d' :=
  ⟨hs.purge h.purge, hs.sigRqOutstanding.trans h.sig, hs.ru.trans h.ru, hs.qri.trans h.qri,
    hs.rqCode h.rqCode⟩

theorem sense (h : Tame d) (sense : UInt32) : Tame { d with sense := sense } := ⟨h.1, h.2, h.3, h.4, h.5⟩

/-- `sna_dfc_init` -/
theorem init (h : Tame d) : Tame d.init := ⟨nofun, rfl, h.3, h.4, h.5⟩

theorem checked (h : Tame hs.dfc) (s : Skb) : Tame (checked hs s).dfc := by
  obtain ⟨sense, ct, hc⟩ := checked_eq hs s
  rw [hc]
  exact ⟨h.1, h.2, h.3, h.4, h.5⟩

end Tame

/-! ## Receiving -/

theorem strayRsp_eq (d : DfcState) (s : Skb) :
    ∃ sense, (strayRsp d s).2 = { d with sense := sense } := by
  unfold strayRsp
  split_ifs <;> exact ⟨_, rfl⟩

/-- The state checks of a response set the sense code, and nothing else. -/
theorem rcvStateError_response (d : DfcState) (type : HsType) (h : s.rri = .rsp) :
    ∃ sense, (rcvStateError d type s).2 = { d with sense := sense } := by
  have hc : ∃ sense, (d.check (chainSendStateChk d s) (false, d)).2 = { d with sense := sense } := by
    unfold DfcState.check DfcState.record
    split_ifs
    · split <;> exact ⟨_, rfl⟩
    · exact ⟨_, rfl⟩
  unfold rcvStateError
  rw [h]
  cases s.efi with
  | norm =>
    dsimp only
    split_ifs <;> first | exact ⟨_, rfl⟩ | exact hc
  | exp =>
    dsimp only
    split_ifs <;> exact ⟨_, rfl⟩

namespace Tame

theorem rcvResponse (h : Tame hs.dfc) (s : Skb) : Tame (rcvResponse hs s).hs.dfc := by
  cases he : s.efi with
  | norm => exact h.of_steady (Steady.rcvResponse hs he)
  | exp =>
    unfold Dfc.rcvResponse
    rw [he]
    exact ⟨h.1, rfl, h.3, h.4, h.5⟩

theorem rcvFsms_response (hs : HsCb) (h : Tame hs.dfc) (hr : s.rri = .rsp) (e : Env) :
    Tame (rcvFsms hs s e).hs.dfc := by
  obtain ⟨sense, hd⟩ := rcvStateError_response hs.dfc hs.type hr
  have ht := hd ▸ h.sense sense
  unfold rcvFsms
  dsimp only
  split
  · exact ht
  split
  · exact ⟨ht.1, ht.2, ht.3, ht.4, ht.5⟩
  · rw [hr]
    exact rcvResponse ⟨ht.1, ht.2, ht.3, ht.4, ht.5⟩ s

theorem rcvFsms_request (h : Tame hs.dfc) (hr : s.rri = .req) (he : s.efi = .norm) (e : Env) :
    Tame (rcvFsms hs s e).hs.dfc := by
  rw [Dfc.rcvFsms_request hs hr he]
  split_ifs
  · exact ⟨h.1, h.2, h.3, h.4, h.5⟩
  · have hk : Tame (recorded hs s).dfc := ⟨h.1, h.2, h.3, h.4, h.5⟩
    exact hk.of_steady (Steady.rcvRequest (recorded hs s) s e)

theorem rxSkb (h : Tame hs.dfc) (s : Skb) (e : Env) : Tame (rxSkb hs s e).hs.dfc := by
  have hc := h.checked s
  unfold Dfc.rxSkb
  dsimp only
  split
  · exact hc
  split
  case h_1 _ _ hr he => exact rcvFsms_request hc hr he e
  case h_2 =>
    refine of_steady ?_ (Steady.sendRspMu _ s e.tx)
    exact ⟨hc.1, hc.2, hc.3, hc.4, hc.5⟩
  case h_3 _ _ hr =>
    obtain ⟨sense, hd⟩ := strayRsp_eq (Dfc.checked hs s).dfc s
    have ht := hd ▸ hc.sense sense
    split
    · exact ht
    · exact rcvFsms_response { hs with dfc := _ } ht hr e

end Tame

/-! ## Sending -/

/-- What is filled is a request of FMD on the normal flow. -/
structure IsFmd (m : Mu) : Prop where
  efi : m.efi = .norm
  rri : m.rri = .req
  ru : m.ru = .fmd

theorem isFmd_newMu : IsFmd newMu := ⟨rfl, rfl, rfl⟩

theorem IsFmd.setRh {m : Mu} (h : IsFmd m) (chain : ChainSendState) (r : PsToHs) :
    IsFmd (setRh chain r m) := by
  unfold Dfc.setRh setType
  split <;> exact ⟨h.1, h.2, h.3⟩

theorem IsFmd.put {b b' : SendMu} {bytes : List UInt8} (h : IsFmd b.mu)
    (hb : b.put bytes = some b') : IsFmd b'.mu := by
  unfold SendMu.put at hb
  split_ifs at hb
  cases hb
  exact ⟨h.1, h.2, h.3⟩

namespace Sender

/-- The half-session is tame, and so is what it fills. -/
structure Tame (t : Sender) : Prop where
  dfc : Dfc.Tame t.hs.dfc
  fmd : ∀ b, t.sendMu = some b → IsFmd b.mu

theorem Tame.of (hs : HsCb) (sendMu : Option SendMu) (h : Dfc.Tame hs.dfc)
    (hb : ∀ b, sendMu = some b → IsFmd b.mu) : Tame (.of hs sendMu) :=
  ⟨⟨h.1, h.2, h.3, h.4, h.5⟩, hb⟩

theorem fmd_none (b : SendMu) (h : none = some b) : IsFmd b.mu := by cases h

/-- The MU that a record is put into. -/
theorem taken_fmd {t : Sender} (h : ∀ b, t.sendMu = some b → IsFmd b.mu) {txMaxBtu : Nat}
    {e : SendEnv} {b : SendMu} (hb : (t.sendMu <|> createAndInitMu txMaxBtu e) = some b) :
    IsFmd b.mu := by
  cases ht : t.sendMu with
  | some b' =>
    rw [ht] at hb
    cases hb
    exact h b ht
  | none =>
    rw [ht] at hb
    obtain ⟨slack, -, rfl⟩ := Option.map_eq_some_iff.mp (show createAndInitMu txMaxBtu e = some b from hb)
    exact isFmd_newMu

theorem Tame.record {t : Sender} (h : t.Tame) {r : PsToHs} {txMaxBtu : Nat}
    {rcbSendMu : Option PsMu} {e : SendEnv} {d : FmdDone}
    (hd : sendFmdMu t r txMaxBtu rcbSendMu e = some d) : d.sender.Tame := by
  unfold sendFmdMu at hd
  cases hb : t.sendMu <|> createAndInitMu txMaxBtu e with
  | none =>
    rw [hb] at hd
    cases hd
    exact h
  | some b =>
    rw [hb] at hd
    obtain ⟨b', hp, hd⟩ := Option.bind_eq_some_iff.mp hd
    have hf := ((taken_fmd h.fmd hb).setRh t.hs.dfc.chainSendState r).put
      (b := { b with mu := setRh t.hs.dfc.chainSendState r b.mu }) hp
    split_ifs at hd
    · obtain ⟨b'', hp', rfl⟩ := Option.map_eq_some_iff.mp hd
      have hs := Steady.sendFsms t.hs (s := b''.skb) (hf.put hp').efi e.tx
      exact Tame.of _ none (h.dfc.of_steady hs) fmd_none
    · cases hd
      exact Tame.of _ _ h.dfc fun _ hb => Option.some.inj hb ▸ hf

theorem Tame.step {t t' : Sender} (h : t.Tame) {ev : HsEvent} (ht : hsStep t ev = some t') :
    t'.Tame := by
  cases ev with
  | received s e =>
    cases ht
    exact Tame.of _ _ (h.dfc.rxSkb s e) h.fmd
  | request s tx =>
    cases ht
    exact Tame.of _ _ (h.dfc.of_steady (Steady.sendFsms t.hs rfl tx)) h.fmd
  | record r txMaxBtu rcbSendMu e =>
    obtain ⟨d, hd, rfl⟩ := Option.map_eq_some_iff.mp ht
    exact h.record hd
  | response s expedite negative sense tx =>
    cases ht
    refine Tame.of _ _ (h.dfc.of_steady ?_) h.fmd
    refine Steady.trans ?_ (Steady.direction t.hs.dfc.direction)
    split
    · have he : (rspMuOf s negative sense).efi = .norm := by cases negative <;> rfl
      exact (Steady.direction .outbound).trans
        (Steady.sendFsms { t.hs with dfc := { t.hs.dfc with direction := .outbound } } he tx)
    · exact Steady.direction .outbound
  | finish pcIndex lf bind copied =>
    cases ht
    cases copied with
    | true => exact Tame.of _ _ h.dfc.init fmd_none
    | false => exact Tame.of _ _ h.dfc h.fmd
  | tc tc =>
    cases ht
    exact ⟨h.dfc, h.fmd⟩

theorem tame_new (index luluIndex : UInt32) (type : HsType) : (new index luluIndex type).Tame :=
  ⟨⟨nofun, rfl, rfl, rfl, rfl⟩, fmd_none⟩

theorem Reachable.tame {t : Sender} (h : t.Reachable) : t.Tame := by
  obtain ⟨index, luluIndex, type, es, hr⟩ := h
  exact run_invariant' (fun t ev t' ht hs => Tame.step ht hs) (tame_new index luluIndex type) hr

end Sender

end LinuxSna.Dfc
