import LinuxSna.Framework.Run
import LinuxSna.Impl.Sna.Sm.Session

/-!
# Stray responses to a BIND

A RSP(BIND) for a session that waits for none. The state machine, which would
refuse it, is asked after the half-session has been initialized again and the
session counted.

* `bindRspFor_of_ne`: what such a response does to the lists;
* `ignored_iff`: when it is without effect.
-/

namespace LinuxSna.Sm

open Framework (find update run)
open Hs (HsCb Bind HsType)
open Asm (Lfsid)

variable {l : Lists} {lulu : Lulu} {lf : Lfsid} {rsp : BindRsp} {copied : Bool}

/-- Nothing is changed, and an error is reported. -/
structure Ignored (l : Lists) (r : BindRspDone) : Prop where
  lists : r.lists = l
  err : r.err < 0

theorem fsmInputBindRspNg_of_ne (hs : lulu.state ≠ .pndBinRsp) :
    fsmInputBindRspNg l lulu = (-einval, l) := if_pos hs

theorem fsmInputPosBindRspOk_of_ne (hs : lulu.state ≠ .pndBinRsp) :
    fsmInputPosBindRspOk l lulu = (-einval, l) := if_pos hs

/-- The response is refused in the end, whatever was done before. -/
theorem bindRspFor_of_ne (hs : lulu.state ≠ .pndBinRsp) :
    bindRspFor l lulu lf rsp copied = (-einval,
      if rsp.neg then l
      else match l.remoteLu lulu.remoteLuIndex, l.hs lulu.hsIndex with
        | some remoteLu, some hs =>
          let l := l.setHs (finishHs hs lulu.pcIndex lf rsp.bind copied)
          if copied then l.addSession remoteLu.index else l
        | _, _ => l) := by
  unfold bindRspFor
  by_cases hn : rsp.neg
  · rw [if_pos hn, if_pos hn, fsmInputBindRspNg_of_ne hs]
  · rw [if_neg hn, if_neg hn]
    cases hr : l.remoteLu lulu.remoteLuIndex with
    | none => exact fsmInputBindRspNg_of_ne hs
    | some remoteLu =>
      cases hh : l.hs lulu.hsIndex with
      | none => simp [hsInitFinish, hh, enoent, fsmInputBindRspNg_of_ne hs]
      | some h =>
        cases copied <;>
          simp [hsInitFinish, hh, enomem, fsmInputBindRspNg_of_ne hs, fsmInputPosBindRspOk_of_ne hs]

/-- One more is never as many. -/
theorem toNat_succ_ne {x : UInt16} : (x + 1).toNat ≠ x.toNat := by
  rw [UInt16.toNat_add]
  show (x.toNat + 1) % 2 ^ 16 ≠ _
  have := x.toNat_lt
  omega

/-- One more session is a change. -/
theorem addSession_ne {i : UInt32} {remoteLu : Rm.RemoteLuCb} (h : l.remoteLu i = some remoteLu) :
    (l.addSession remoteLu.index).remoteLuList ≠ l.remoteLuList := by
  have hi : remoteLu.index = i := Framework.key_of_find h
  have hf : find Rm.RemoteLuCb.index remoteLu.index l.remoteLuList = some remoteLu := by
    rw [hi]; exact h
  intro he
  have hs := congrArg Rm.RemoteLuCb.sessions ((Framework.update_eq_self_iff hf).mp he)
  exact toNat_succ_ne (congrArg UInt16.toNat hs)

/-- The response finds nothing that it could change: it is negative, the remote LU
is gone, or the half-session is, or the BIND cannot be copied and none was saved. -/
def Harmless (l : Lists) (lulu : Lulu) (rsp : BindRsp) (copied : Bool) : Prop :=
  rsp.neg = true ∨ l.remoteLu lulu.remoteLuIndex = none ∨ l.hs lulu.hsIndex = none ∨
    copied = false ∧ ∃ hs, l.hs lulu.hsIndex = some hs ∧ hs.rxBind = none

/-- A stray response is ignored if it finds nothing that it could change. -/
theorem ignored_iff (l : Lists) (lf : Lfsid) (lulu : Lulu) (rsp : BindRsp) (copied : Bool)
    (hl : l.lulu lf.smIndex.toUInt32 = some lulu) (hs : lulu.state ≠ .pndBinRsp) :
    Ignored l (procBindRsp l lf rsp copied) ↔ Harmless l lulu rsp copied := by
  have hp : procBindRsp l lf rsp copied =
      ⟨(bindRspFor l lulu lf rsp copied).1, (bindRspFor l lulu lf rsp copied).2, 1⟩ := by
    simp only [procBindRsp, hl]
  have hi : Ignored l (procBindRsp l lf rsp copied) ↔
      (bindRspFor l lulu lf rsp copied).2 = l := by
    rw [hp]
    refine ⟨fun h => h.lists, fun h => ⟨h, ?_⟩⟩
    show (bindRspFor l lulu lf rsp copied).1 < 0
    rw [bindRspFor_of_ne hs]
    show -einval < 0
    decide
  rw [hi, bindRspFor_of_ne hs, Harmless]
  by_cases hn : rsp.neg = true
  · simp [hn]
  cases hr : l.remoteLu lulu.remoteLuIndex with
  | none => simp
  | some remoteLu =>
    cases hh : l.hs lulu.hsIndex with
    | none => simp
    | some h =>
      have hk : h.index = lulu.hsIndex := Framework.key_of_find hh
      cases copied with
      | true =>
        refine iff_of_false (fun he => addSession_ne hr ?_) (by simp [hn])
        simp only [hn, Bool.false_eq_true, ↓reduceIte] at he
        have he := congrArg Lists.remoteLuList he
        exact he
      | false =>
        have hset : l.setHs (finishHs h lulu.pcIndex lf rsp.bind false) = l ↔ h.rxBind = none := by
          constructor
          · intro he
            have he := congrArg Lists.hsList he
            have he := (Framework.update_eq_self_iff (hk.symm ▸ hh)).mp he
            exact (congrArg HsCb.rxBind he).symm
          · intro hb
            have : finishHs h lulu.pcIndex lf rsp.bind false = h := by
              simp [finishHs, ← hb]
            rw [this]
            show { l with hsList := _ } = l
            rw [(Framework.update_eq_self_iff (hk.symm ▸ hh)).mpr rfl]
        simp [hn, hset]

/-- A mode for 1200 sessions. -/
def oneMode : Rm.ModeCb :=
  { index := 1, modeName := [0x23], active := .zero, pending := .zero, userMax := ⟨1200, 10, 10⟩,
    txMaxRu := 1024, rxMaxRu := 1024, txPacing := 7, rxPacing := 7 }

/-- One transaction program that has allocated a conversation with one remote LU. -/
def oneProgram : Lists :=
  { modeList := [oneMode]
    remoteLuList := [{ useName := [0x4C], index := 1, sessions := 0, parallel := true }]
    tpList := [⟨1, 1, 1, 0, 1, .reset, false⟩]
    rcbList := [⟨1, 0, 1, 1, 0, 0, {}⟩]
    rcbSystemIndex := 1
    luluList := []
    luluSystemIndex := 0
    hsList := []
    hsSystemIndex := 0
    asmList := []
    pcList := []
    waiting := []
    bound := []
    counted := [] }

/-- A link comes up, the program asks for a session, and the BIND is sent. -/
def untilBind : List Event :=
  [.linkUp ⟨1, 0, 0, []⟩ ⟨1, 2048, 2048⟩, .getSession 1 ⟨true, true⟩,
    .routeDone 1 (some 1) ⟨true, true, 0⟩]

/-- The partner accepts the BIND unchanged. -/
def accepted : Event := .bindRsp 0 1 1 ⟨false, bindPktInit oneMode⟩ true

/-- What the program's session is after these events. -/
def activeLulu : Lulu :=
  { index := 1, modeIndex := 1, remoteLuIndex := 1, pcIndex := 1, hsIndex := 1, tpIndex := 1,
    type := .fsp, lfsid := ⟨true, 1, 0, 1, 1⟩, state := .act }

/-- The lists after the run, if it is one. -/
def after (l : Lists) (es : List Event) : Lists := (run step l es).getD l

set_option maxRecDepth 100000 in
theorem lulu_after_accepted :
    (after oneProgram (untilBind ++ [accepted])).lulu 1 = some activeLulu := by
  decide

theorem ignored_iff_active :
    Ignored (after oneProgram (untilBind ++ [accepted])) (procBindRsp
      (after oneProgram (untilBind ++ [accepted])) activeLulu.lfsid ⟨true, bindPktInit oneMode⟩ true) ↔
    Harmless (after oneProgram (untilBind ++ [accepted])) activeLulu ⟨true, bindPktInit oneMode⟩ true :=
  ignored_iff _ _ _ _ _ lulu_after_accepted nofun

set_option maxRecDepth 100000 in
/-- The same response once more: the remote LU has two sessions then. -/
theorem repeated_not_ignored : ¬ ∀ (l : Lists), (∃ es, run step oneProgram es = some l) →
    ∀ (lf : Lfsid) (lulu : Lulu) (rsp : BindRsp) (copied : Bool),
      l.lulu lf.smIndex.toUInt32 = some lulu → lulu.state ≠ .pndBinRsp →
        Ignored l (procBindRsp l lf rsp copied) := by
  intro h
  have h := (h (after oneProgram (untilBind ++ [accepted])) ⟨untilBind ++ [accepted], rfl⟩ activeLulu.lfsid
    activeLulu ⟨false, bindPktInit oneMode⟩ true lulu_after_accepted nofun).lists
  have h := congrArg (fun l => (l.remoteLu 1).map (·.sessions)) h
  revert h
  decide

end LinuxSna.Sm
