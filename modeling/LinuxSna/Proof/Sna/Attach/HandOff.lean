import LinuxSna.Framework.Run
import LinuxSna.Spec.Attach

/-!
# The hand-off of Attaches

The queue with the listening daemon, and the desk that hands the same Attaches out. The record that
a listen copies is never filled, and the Attach is off the queue before the steps that may fail; so
what the desk promises is kept until a listen takes an Attach, but for one that an unfilled record
happens to describe (`handed_iff`).
-/

namespace LinuxSna.Attach

open Framework

/-- An Attach is queued, or a listen ends, after which the daemon would launch the process `pid`. -/
inductive HandEvent where
  | executeTp (a : AttachRq)
  | listen (env : ListenEnv) (buf : TpAttach) (pid : Int)

/-- `attach_queue` and the control blocks of the transaction programs; all Attaches that came, what
was reported of them, and the desk -/
structure HandOff where
  queue : List AttachRq
  tps : List TpCb
  queued : List AttachRq
  reported : List AttachRq
  desk : Desk
  deriving DecidableEq

namespace HandOff

def init (tps : List TpCb) : HandOff := ⟨[], tps, [], [], ⟨[], tps⟩⟩

/-- `names` are those of the programs that the daemon knows. The desk hands an Attach out when a
listen succeeds. -/
def step (names : List (List UInt8)) (s : HandOff) : HandEvent → Option HandOff
  | .executeTp a =>
    some { s with queue := s.queue ++ [a], queued := s.queued ++ [a], desk := s.desk.come a }
  | .listen env buf pid =>
    (attachListen env s.queue buf).map fun r =>
      if r.2.2 < 0 then { s with queue := r.1 }
      else { s with
        queue := r.1
        tps := director names pid r.2.1 s.tps
        reported := s.reported ++ [⟨r.2.1.tcbId, r.2.1.name⟩]
        desk := ((s.desk.hand names pid).map Prod.snd).getD s.desk }

/-- Every Attach that came was reported once, in the order in which they came, or is still in the
queue; and the control blocks have the processes that were launched for their Attaches. -/
structure Handed (s : HandOff) : Prop where
  reported : s.reported ++ s.queue = s.queued
  tps : s.tps = s.desk.tps

instance (s : HandOff) : Decidable s.Handed :=
  decidable_of_iff (s.reported ++ s.queue = s.queued ∧ s.tps = s.desk.tps)
    ⟨fun h => ⟨h.1, h.2⟩, fun h => ⟨h.reported, h.tps⟩⟩

/-- The listen takes no Attach, or one without a name whose number is in the caller's record
already, and nothing fails. -/
def Untouched (s : HandOff) : HandEvent → Prop
  | .executeTp _ => True
  | .listen env buf _ =>
    env.file = true → env.signal = false → ∀ a ∈ s.queue.head?,
      env.memory = true ∧ env.copy = true ∧ a = ⟨buf.tcbId, []⟩

/-- What was promised is kept, and the desk has the same Attaches in front of it. -/
structure Kept (s : HandOff) : Prop where
  handed : Handed s
  waiting : s.queue = s.desk.waiting

theorem name_ktou (buf : TpAttach) : (ktouPointerSize buf).name = [] := rfl

variable {names : List (List UInt8)}

/-- A listen that takes an Attach -/
theorem attachListen_cons {env : ListenEnv} (hf : env.file = true) (hs : env.signal = false)
    (a : AttachRq) (queue : List AttachRq) (buf : TpAttach) :
    attachListen env (a :: queue) buf =
      some (if env.memory = false then (queue, buf, eNomem)
        else if env.copy = false then (queue, buf, eFault)
        else (queue, ktouPointerSize buf, pointerSize)) := by
  unfold attachListen
  rw [hf, hs]
  cases env.memory <;> cases env.copy <;> rfl

/-- Other listens change nothing. -/
theorem step_listen_other {s s' : HandOff} {env : ListenEnv} {buf : TpAttach} {pid : Int}
    (hq : env.file = true → env.signal = false → s.queue = [])
    (h : s.step names (.listen env buf pid) = some s') : s' = s := by
  obtain ⟨r, hr, rfl⟩ := Option.map_eq_some_iff.mp h
  unfold attachListen at hr
  cases hf : env.file with
  | false =>
    rw [hf] at hr
    obtain rfl := Option.some.inj hr
    rfl
  | true =>
    cases hs : env.signal with
    | true =>
      rw [hf, hs] at hr
      obtain rfl := Option.some.inj hr
      rfl
    | false =>
      rw [hf, hs, hq hf hs] at hr
      cases hr

theorem kept_step {s s' : HandOff} {e : HandEvent} (h : Kept s) (hu : s.Untouched e)
    (hs : s.step names e = some s') : Kept s' := by
  obtain ⟨⟨hr, ht⟩, hw⟩ := h
  cases e with
  | executeTp a =>
    obtain rfl := Option.some.inj hs
    refine ⟨⟨?_, ht⟩, ?_⟩
    · dsimp only
      rw [← List.append_assoc, hr]
    · dsimp only [Desk.come]
      rw [hw]
  | listen env buf pid =>
    by_cases hq : env.file = true → env.signal = false → s.queue = []
    · rw [step_listen_other hq hs]
      exact ⟨⟨hr, ht⟩, hw⟩
    · simp only [not_forall] at hq
      obtain ⟨hf, hsig, hne⟩ := hq
      obtain ⟨a, queue, hq⟩ := List.exists_cons_of_ne_nil hne
      obtain ⟨hm, hc, rfl⟩ := hu hf hsig a (by rw [hq]; rfl)
      have hlisten := attachListen_cons hf hsig ⟨buf.tcbId, []⟩ queue buf
      rw [if_neg (by rw [hm]; decide), if_neg (by rw [hc]; decide)] at hlisten
      have hv : ¬ pointerSize < 0 := by decide
      rw [step, hq, hlisten, Option.map_some, Option.some.injEq] at hs
      dsimp only at hs
      rw [if_neg hv] at hs
      subst hs
      rw [hq] at hr hw
      refine ⟨⟨?_, ?_⟩, ?_⟩
      · dsimp only
        rw [List.append_assoc, name_ktou]
        exact hr
      · dsimp only [Desk.hand, director]
        rw [← hw, ht, name_ktou]
        rfl
      · dsimp only [Desk.hand]
        rw [← hw]
        rfl

/-- A listen that takes another Attach breaks the promise. -/
theorem not_handed {s : HandOff} {e : HandEvent} (h : Kept s) (hu : ¬ s.Untouched e) :
    ∃ s', s.step names e = some s' ∧ ¬ s'.Handed := by
  obtain ⟨⟨hr, -⟩, -⟩ := h
  cases e with
  | executeTp a => exact absurd trivial hu
  | listen env buf pid =>
    simp only [Untouched, not_forall] at hu
    obtain ⟨hf, hsig, a, ha, hnot⟩ := hu
    obtain ⟨queue, hq⟩ := List.head?_eq_some_iff.mp ha
    have hlisten := attachListen_cons hf hsig a queue buf
    rw [hq] at hr
    have hlost : ∀ v : Int, v < 0 → attachListen env (a :: queue) buf = some (queue, buf, v) →
        ∃ s', s.step names (.listen env buf pid) = some s' ∧ ¬ s'.Handed := by
      intro v hv hl
      refine ⟨{ s with queue := queue }, ?_, fun hh => ?_⟩
      · rw [step, hq, hl, Option.map_some]
        exact congrArg some (if_pos hv)
      · have hq' : s.reported ++ queue = s.queued := hh.reported
        rw [← hr] at hq'
        simpa using congrArg List.length hq'
    cases hm : env.memory with
    | false => exact hlost eNomem (by decide) (by rw [hlisten, if_pos hm])
    | true =>
      rw [if_neg (by rw [hm]; decide)] at hlisten
      cases hc : env.copy with
      | false => exact hlost eFault (by decide) (by rw [hlisten, if_pos hc])
      | true =>
        -- something else is reported
        rw [if_neg (by rw [hc]; decide)] at hlisten
        refine ⟨_, by rw [step, hq, hlisten, Option.map_some], fun hh => ?_⟩
        have hv : ¬ pointerSize < 0 := by decide
        have hq' := hh.reported
        rw [if_neg hv, ← hr] at hq'
        dsimp only at hq'
        rw [List.append_assoc, name_ktou] at hq'
        have heq := List.append_cancel_left hq'
        exact hnot ⟨hm, hc, (List.cons.inj heq).1.symm⟩

end HandOff

/-- The promise is kept in exactly the runs in which no listen takes an Attach, but for one without a
name whose number the caller's record has already. -/
theorem handed_iff (names : List (List UInt8)) (tps : List TpCb) (es : List HandEvent) :
    Always (HandOff.step names) HandOff.Handed (.init tps) es ↔
      Along (HandOff.step names) HandOff.Untouched (.init tps) es := by
  refine always_iff (I := HandOff.Kept) (fun _ h => h.handed) (fun _ _ _ => HandOff.kept_step)
    (fun _ _ => HandOff.not_handed) ?_
  exact ⟨⟨rfl, rfl⟩, rfl⟩

/-- The listen reports an Attach without a name and with the number 0 for one of program `a`. -/
theorem attach_not_reported :
    run (HandOff.step [[97]]) (.init [⟨1, -1⟩])
        [.executeTp ⟨1, [97]⟩, .listen ⟨true, false, true, true⟩ ⟨List.replicate 64 0, 0⟩ 7] =
      some ⟨[], [⟨1, -1⟩], [⟨1, [97]⟩], [⟨0, []⟩], ⟨[], [⟨1, 7⟩]⟩⟩ ∧
      ¬ Always (HandOff.step [[97]]) HandOff.Handed (.init [⟨1, -1⟩])
        [.executeTp ⟨1, [97]⟩, .listen ⟨true, false, true, true⟩ ⟨List.replicate 64 0, 0⟩ 7] := by
  exact ⟨by decide, by decide⟩

end LinuxSna.Attach
