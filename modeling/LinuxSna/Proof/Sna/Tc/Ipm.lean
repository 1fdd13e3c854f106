import LinuxSna.Proof.Sna.Tc.Flow

/-!
# Isolated pacing messages

What a half-session with adaptive pacing makes of a solicited and of an
unsolicited message.

* `adaptive_pacing`: when it does what the message asks for;
* `unsolicited_goes_on`: two half-sessions that have memory and path control
  answer each other's unsolicited message without end.
-/

namespace LinuxSna.Tc

open Hs Framework

variable {hs : Hs} {ack pc : Option Int} {copied : Bool}

/-- What the receiver of a pacing message sends in answer to it. -/
def answer (hs : Hs) (m : PacingRsp) (copied : Bool) (ack : Option Int) : Option PacingRsp :=
  if hs.txPacing.type = .adaptive ∧ m.mu.ipm.type = .unsolicit ∧ copied = true ∧ ack.isSome = true
  then some m else none

/-- Two half-sessions, and the pacing message on its way to the first. -/
structure Exchange where
  receiver : Hs
  partner : Hs
  flight : Option PacingRsp

/-- What the kernel and path control do while a message is processed. -/
structure Delivery where
  copied : Bool
  ack : Option Int
  pc : Option Int

/-- The message arrives, and the answer goes back. -/
def Exchange.step (x : Exchange) (d : Delivery) : Option Exchange :=
  x.flight.map fun m =>
    { receiver := x.partner
      partner := (x.receiver.rxPacingRsp m.mu d.copied d.ack d.pc).hs
      flight := answer x.receiver m d.copied d.ack }

/-- What is sent beside the answer comes from the queue. -/
theorem answer_sent (m : PacingRsp) :
    ∃ rest, (hs.rxPacingRsp m.mu copied ack pc).mus =
        (answer hs m copied ack).toList.map PacingRsp.mu ++ rest ∧
      rest.Sublist hs.writeQueue.mus := by
  obtain ⟨hd, -, hm⟩ | ⟨hs', err, hd, -, hm⟩ := rxPacingRsp_cases hs m.norm copied ack pc
  · refine ⟨[], ?_, List.nil_sublist _⟩
    have : answer hs m copied ack = none := by
      apply if_neg
      intro h
      simp [atDone, h.1, h.2.1, h.2.2.1] at hd
    rw [hm, this]; rfl
  · refine ⟨(hs'.sendNext err pc).mus, ?_, ?_⟩
    · have hc : m.mu.ipm.type = .unsolicit → hs.txPacing.type = .adaptive → copied = true := by
        intro hi ht
        simp only [atDone, ht, hi] at hd
        split at hd
        · assumption
        · cases hd
      rw [hm, answers, answer]
      congr 1
      by_cases h : hs.txPacing.type = .adaptive ∧ m.mu.ipm.type = .unsolicit ∧ ack.isSome = true
      · rw [if_pos h, if_pos ⟨h.1, h.2.1, hc h.2.1 h.1, h.2.2⟩]; rfl
      · rw [if_neg h, if_neg fun h' => h ⟨h'.1, h'.2.1, h'.2.2.2⟩]; rfl
    · rw [← (atDone_frame hd).1]
      exact (List.sublist_append_left _ _).trans (sendNext_order err)

/-- A solicited message replaces the send window, whatever the queue holds. An
unsolicited one is answered by one acknowledgement, what else is sent comes from
the queue, and the exchange that it starts ends. -/
structure Obeys (hs : Hs) (m : PacingRsp) (d : Delivery) : Prop where
  solicit : m.mu.ipm.type = .solicit →
    (hs.rxPacingRsp m.mu d.copied d.ack d.pc).hs.txPacing.rpc = 0 ∧
      (hs.rxPacingRsp m.mu d.copied d.ack d.pc).hs.txPacing.nws.toNat = m.mu.ipm.nws.toNat
  unsolicit : m.mu.ipm.type = .unsolicit →
    ∃ a rest, (hs.rxPacingRsp m.mu d.copied d.ack d.pc).mus = a :: rest ∧
      a.isPacingRsp = true ∧ a.ipm.type = .reset ∧ a.ipm.rwi = false ∧
      rest ++ (hs.rxPacingRsp m.mu d.copied d.ack d.pc).hs.writeQueue.mus = hs.writeQueue.mus
  ends : m.mu.ipm.type = .unsolicit → ∀ partner, partner.txPacing.type = .adaptive →
    ∃ n, ∀ ds, (run Exchange.step ⟨hs, partner, some m⟩ ds).isSome → ds.length ≤ n

/-! ## The send window -/

/-- The MU that leaves the queue takes no credit. -/
theorem sendNext_txPacing (err : Int) : (hs.sendNext err pc).hs.txPacing = hs.txPacing := by
  obtain ⟨h, -⟩ | ⟨r, rest, -, -, h⟩ := sendNext_cases hs err pc <;> rw [h]

theorem solicit_txPacing (ht : hs.txPacing.type = .adaptive) {m : Mu}
    (hi : m.ipm.type = .solicit) :
    (hs.rxPacingRsp m copied ack pc).hs.txPacing =
      if hs.writeQueue.mus = [] then hs.txPacing else (hs.setWindow m.ipm.nws).txPacing := by
  simp only [rxPacingRsp, ht, hi]
  split <;> exact sendNext_txPacing 0

/-- A window carried in 16 bits is stored in 8. -/
theorem setWindow_nws {nws : UInt16} :
    (hs.setWindow nws).txPacing.nws.toNat = nws.toNat ↔ nws.toNat < 256 := by
  show nws.toUInt8.toNat = _ ↔ _
  rw [UInt16.toNat_toUInt8]
  omega

/-- When the window of a solicited message is taken over. -/
def takesWindow (hs : Hs) (m : Mu) : Prop :=
  if hs.writeQueue.mus = [] then
    hs.txPacing.rpc = 0 ∧ hs.txPacing.nws.toNat = m.ipm.nws.toNat
  else m.ipm.nws.toNat < 256

theorem solicit_iff (ht : hs.txPacing.type = .adaptive) {m : Mu} (hi : m.ipm.type = .solicit) :
    (hs.rxPacingRsp m copied ack pc).hs.txPacing.rpc = 0 ∧
        (hs.rxPacingRsp m copied ack pc).hs.txPacing.nws.toNat = m.ipm.nws.toNat ↔
      takesWindow hs m := by
  rw [solicit_txPacing ht hi, takesWindow]
  split
  · exact Iff.rfl
  · rw [setWindow_nws]
    exact and_iff_right rfl

/-! ## The acknowledgement -/

/-- An unsolicited message is answered by itself, if it is answered. -/
theorem unsolicit_answer (m : PacingRsp) {a : Mu} {rest : List Mu}
    (hm : (hs.rxPacingRsp m.mu copied ack pc).mus = a :: rest)
    (hq : rest ++ (hs.rxPacingRsp m.mu copied ack pc).hs.writeQueue.mus = hs.writeQueue.mus) :
    a = m.mu := by
  obtain ⟨-, -, h⟩ | ⟨hs', err, hd, h, h'⟩ := rxPacingRsp_cases hs m.norm copied ack pc
  · rw [h] at hm; cases hm
  · unfold answers at h'
    split at h'
    · rw [h'] at hm
      exact (List.cons.inj hm).1.symm
    · -- what is sent is only what has left the queue
      rw [h', List.nil_append] at hm
      rw [h, ← (atDone_frame hd).1] at hq
      obtain ⟨h, -⟩ | ⟨r, t, hr, -, h⟩ := sendNext_cases hs' err pc
      · rw [h] at hm; cases hm
      · rw [h] at hm hq
        have hlen := congrArg List.length hq
        have hrest : rest = [] := by
          cases pc with
          | none => cases hm
          | some err => cases hm; rfl
        rw [hrest, PacingQueue.mus_dequeue, hr] at hlen
        simp at hlen

theorem not_unsolicit (m : PacingRsp) (hi : m.mu.ipm.type = .unsolicit) :
    ¬ ∃ a rest, (hs.rxPacingRsp m.mu copied ack pc).mus = a :: rest ∧
      a.isPacingRsp = true ∧ a.ipm.type = .reset ∧ a.ipm.rwi = false ∧
      rest ++ (hs.rxPacingRsp m.mu copied ack pc).hs.writeQueue.mus = hs.writeQueue.mus := by
  rintro ⟨a, rest, hm, -, hr, -, hq⟩
  rw [unsolicit_answer m hm hq, hi] at hr
  cases hr

/-- In every state, a pacing message is obeyed exactly if it is not an
unsolicited one, and the window of a solicited one is taken over. -/
theorem adaptive_pacing (hs : Hs) (ht : hs.txPacing.type = .adaptive) (m : PacingRsp)
    (d : Delivery) :
    Obeys hs m d ↔
      m.mu.ipm.type ≠ .unsolicit ∧ (m.mu.ipm.type = .solicit → takesWindow hs m.mu) := by
  constructor
  · intro h
    exact ⟨fun hi => not_unsolicit m hi (h.unsolicit hi), fun hi => (solicit_iff ht hi).mp (h.solicit hi)⟩
  · rintro ⟨hu, hs⟩
    exact ⟨fun hi => (solicit_iff ht hi).mpr (hs hi), fun hi => absurd hi hu, fun hi => absurd hi hu⟩

/-- An isolated pacing message. -/
def ipmMu (type window : UInt8) : PacingRsp where
  mu := { request .wholeBiu [type * 64, 0, window, 0] with rri := .rsp, pi := true }
  rsp := rfl
  pac := rfl
  norm := rfl
  whole := rfl
  format := rfl

/-- A half-session with a request on its queue. -/
def waitingHs : Hs :=
  { init .fsp (adaptiveBind 0) with
    writeQueue := PacingQueue.empty.enqueue (request .bbiu [1]) rfl }

/-- The window of a solicited message, with a request that waits for it. -/
theorem adaptive_pacing_solicit : Obeys waitingHs (ipmMu 0 5) ⟨true, some 0, some 0⟩ :=
  (adaptive_pacing waitingHs rfl (ipmMu 0 5) ⟨true, some 0, some 0⟩).mpr
    ⟨by decide, fun _ => by unfold takesWindow; decide⟩

/-- The window of a solicited message is lost when nothing waits for it. -/
theorem adaptive_pacing_lost :
    ¬ ∀ hs : Hs, hs.txPacing.type = .adaptive → ∀ m d, Obeys hs m d := by
  intro h
  have hw := ((h (init .fsp (adaptiveBind 1)) rfl (ipmMu 0 5) ⟨true, some 0, some 0⟩).solicit rfl).2
  revert hw
  decide

/-! ## The exchange -/

theorem exchange_step {hs partner : Hs} (ht : hs.txPacing.type = .adaptive) (m : PacingRsp)
    (hi : m.mu.ipm.type = .unsolicit) {d : Delivery} (hc : d.copied = true)
    (ha : d.ack.isSome = true) :
    Exchange.step ⟨hs, partner, some m⟩ d =
      some ⟨partner, (hs.rxPacingRsp m.mu d.copied d.ack d.pc).hs, some m⟩ := by
  simp [Exchange.step, answer, ht, hi, hc, ha]

/-- While there are memory and path control, two half-sessions send each other
the same unsolicited message for ever. -/
theorem unsolicited_goes_on {d : Delivery} (hc : d.copied = true) (ha : d.ack.isSome = true)
    (m : PacingRsp) (hi : m.mu.ipm.type = .unsolicit) (n : Nat) {hs partner : Hs}
    (ht : hs.txPacing.type = .adaptive) (ht' : partner.txPacing.type = .adaptive) :
    (run Exchange.step ⟨hs, partner, some m⟩ (List.replicate n d)).isSome := by
  induction n generalizing hs partner with
  | zero => rfl
  | succ n ih =>
    have hf := (sent_frame hs (.pacing m d.copied d.ack d.pc)).1
    have hs' := ih ht' (hf.trans ht)
    obtain ⟨x, hx⟩ := Option.isSome_iff_exists.mp hs'
    rw [List.replicate_succ, Option.isSome_iff_exists]
    exact ⟨x, run_cons.mpr ⟨_, exchange_step ht m hi hc ha, hx⟩⟩

end LinuxSna.Tc
