import LinuxSna.Framework.Run
import LinuxSna.Impl.Sna.Tc

/-!
# What a half-session sends

The runs that the pacing of a half-session is about: calls of `sna_tc_send_mu`
and pacing responses, and for each function what it hands to path control and
leaves on the pacing queue.

* `sendMu_cases`: an MU is refused, queued or handed on;
* `sendNext_cases`: the next MU stays on the queue or is handed on;
* `rxPacingRsp_cases`: a pacing response sets the window first (`atDone`).
-/

namespace LinuxSna.Tc

open Hs
open scoped List

variable {hs : Hs} {m : Mu} {pc ack : Option Int}

/-- A pacing response as it gets to `sna_tc_rx_pacing_rsp`. -/
structure PacingRsp where
  mu : Mu
  rsp : mu.rri = .rsp
  pac : mu.pi = true
  norm : mu.efi = .norm
  whole : mu.mpf = .wholeBiu
  format : biuFormatChk mu = 0

/-- One of the calls. -/
inductive Event where
  | send (m : Mu) (pc : Option Int)
  | pacing (m : PacingRsp) (copied : Bool) (ack pc : Option Int)

/-- A request of the normal flow. -/
def request (mpf : Mpf) (data : List UInt8) : Mu :=
  { mpf := mpf, efi := .norm, snf := 0, rri := .req, ru := .fmd, sdi := false, dr1i := false,
    dr2i := false, rlwi := false, qri := false, pi := false, edi := false, data := data }

/-- A BIND with adaptive pacing, segments and one first window in both
directions. -/
def adaptiveBind (window : UInt8) : Bind :=
  { secMaxRuSize := 255, priMaxRuSize := 255, secTxWinSize := window, secRxWinSize := window,
    priTxWinSize := window, priRxWinSize := window, adaptivePacing := true, wholeBiu := false,
    cryptoSupp := false }

/-- What the call does. -/
def sent (hs : Hs) : Event → Sent
  | .send m pc => hs.sendMu m pc
  | .pacing m copied ack pc => hs.rxPacingRsp m.mu copied ack pc

/-- `sna_tc_rx` processes a pacing response that is not too long for it. -/
theorem rx_pacing (m : PacingRsp) {e : RxEnv} (hlen : m.mu.data.length ≤ hs.maxRxRuSize.toNat) :
    hs.rx m.mu e = some
      ⟨(hs.rxPacingRsp m.mu e.copied e.ack e.pc).err, (hs.rxPacingRsp m.mu e.copied e.ack e.pc).hs,
        (hs.rxPacingRsp m.mu e.copied e.ack e.pc).mus, none⟩ := by
  have hseg : hs.segment m.mu e.truesize e.alloc = some (hs, some m.mu) := by
    rw [Hs.segment, if_neg (by omega), if_pos m.whole]
  have hp : m.mu.isPacingRsp = true := by simp [Mu.isPacingRsp, m.rsp, m.pac]
  simp [rx, rxSegmentChk, m.whole, m.norm, hseg, rxBiu, rxBiuChk, m.format, m.rsp, hp]

/-! ## Handing to path control -/

theorem sendToPc_norm (h : m.efi = .norm) :
    hs.sendToPc m pc = ⟨pc.getD (-einval), hs, if pc.isSome then [m] else []⟩ := by
  cases pc <;> simp [sendToPc, h]

/-- The counts change only for a first segment that the code takes for one of
the paced flow. -/
theorem sendToPc_of_not_paced
    (h : ¬ (m.mpf = .bbiu ∧ hs.isIpm m = false ∧ hs.txPacing.type ≠ .none ∧ m.efi ≠ .norm)) :
    (hs.sendToPc m pc).hs = hs := by
  cases pc with
  | none => rfl
  | some err => rw [sendToPc, if_neg h]

@[simp] theorem sendPacing_writeQueue : (hs.sendPacing m).1.writeQueue = hs.writeQueue := by
  unfold sendPacing; split <;> rfl

@[simp] theorem sendPacing_type : (hs.sendPacing m).1.txPacing.type = hs.txPacing.type := by
  unfold sendPacing; split <;> rfl

@[simp] theorem sendPacing_firstWs : (hs.sendPacing m).1.firstWs = hs.firstWs := by
  unfold sendPacing; split <;> rfl

@[simp] theorem sendPacing_efi : (hs.sendPacing m).2.efi = m.efi := by
  unfold sendPacing; split <;> rfl

@[simp] theorem sendToPc_writeQueue : (hs.sendToPc m pc).hs.writeQueue = hs.writeQueue := by
  unfold sendToPc
  split
  · rfl
  · split <;> simp

@[simp] theorem sendToPc_type : (hs.sendToPc m pc).hs.txPacing.type = hs.txPacing.type := by
  unfold sendToPc
  split
  · rfl
  · split <;> simp

@[simp] theorem sendToPc_firstWs : (hs.sendToPc m pc).hs.firstWs = hs.firstWs := by
  unfold sendToPc
  split
  · rfl
  · split <;> simp

/-- An MU keeps its flow. -/
theorem sendToPc_efi (hs : Hs) (m : Mu) (pc : Option Int) : ∀ m' ∈ (hs.sendToPc m pc).mus, m'.efi = m.efi := by
  unfold sendToPc
  split
  · simp
  · split <;> simp

/-! ## `sna_tc_send_mu` -/

/-- The MU has to wait for pacing. -/
def waits (hs : Hs) (m : Mu) : Prop :=
  match m.rri with
  | .req => hs.writeQueue.mus ≠ [] ∨ m.mpf = .bbiu ∧ hs.txPacing.credit = 0
  | .rsp => hs.writeQueue.mus = [] ∧ m.qri = true

instance : Decidable (waits hs m) := by
  unfold waits
  split <;> infer_instance

/-- The request is refused: it would have to be enciphered. -/
def ciphered (hs : Hs) (m : Mu) : Prop := m.rri = .req ∧ hs.crypto = true ∧ m.ru = .fmd

instance : Decidable (ciphered hs m) := inferInstanceAs (Decidable (_ ∧ _))

theorem sendMu_cases (hs : Hs) (m : Mu) (pc : Option Int) :
    (m.efi ≠ .norm ∧ hs.sendMu m pc = hs.sendToPc m pc) ∨
    (m.efi = .norm ∧ ciphered hs m ∧ hs.sendMu m pc = ⟨-einval, hs, []⟩) ∨
    (∃ h : m.efi = .norm, ¬ ciphered hs m ∧ hs.txPacing.type ≠ .none ∧ waits hs m ∧
      hs.sendMu m pc = ⟨0, { hs with writeQueue := hs.writeQueue.enqueue m h }, []⟩) ∨
    (m.efi = .norm ∧ ¬ ciphered hs m ∧ (hs.txPacing.type = .none ∨ ¬ waits hs m) ∧
      hs.sendMu m pc = hs.sendToPc m pc) := by
  by_cases h : m.efi = .norm
  · right
    cases hr : m.rri with
    | req =>
      by_cases hc : hs.crypto = true ∧ m.ru = .fmd
      · exact .inl ⟨h, ⟨hr, hc⟩, by simp [sendMu, h, hr, hc]⟩
      · have hc' : ¬ ciphered hs m := fun hd => hc hd.2
        by_cases hw : hs.txPacing.type ≠ .none ∧ waits hs m
        · have hw' : hs.writeQueue.mus ≠ [] ∨ m.mpf = .bbiu ∧ hs.txPacing.credit = 0 := by
            simpa [waits, hr] using hw.2
          exact .inr (.inl ⟨h, hc', hw.1, hw.2, by
            simp only [sendMu, h, hr, hc, hw.1, hw', ↓reduceDIte, ↓reduceIte, ne_eq,
              not_false_eq_true, and_self]⟩)
        · refine .inr (.inr ⟨h, hc', by rw [not_and_or, not_not] at hw; exact hw, ?_⟩)
          simp only [waits, hr] at hw
          simp only [sendMu, h, hr, hc, hw, ↓reduceDIte, ↓reduceIte]
    | rsp =>
      have hc' : ¬ ciphered hs m := fun hd => by simp [ciphered, hr] at hd
      by_cases hw : hs.txPacing.type ≠ .none ∧ waits hs m
      · have hw' := hw.2
        simp only [waits, hr] at hw'
        exact .inr (.inl ⟨h, hc', hw.1, hw.2, by simp [sendMu, h, hr, hw.1, hw']⟩)
      · refine .inr (.inr ⟨h, hc', by rw [not_and_or, not_not] at hw; exact hw, ?_⟩)
        simp only [waits, hr] at hw
        have hd : hs.txPacing.type = .none ∨ hs.writeQueue.mus ≠ [] ∨ m.qri = false := by
          by_contra hd
          simp only [not_or, not_not, ne_eq, Bool.not_eq_false] at hd
          exact hw ⟨hd.1, hd.2.1, hd.2.2⟩
        simp only [sendMu, h, hr, hd, ↓reduceDIte, ↓reduceIte]
  · exact .inl ⟨h, by simp [sendMu, h]⟩

/-! ## The next MU of the queue -/

/-- The MU at the head of the queue may go. -/
def mayGo (hs : Hs) (r : Mu) : Prop := r.mpf ≠ .bbiu ∨ r.rri = .rsp ∨ hs.txPacing.credit > 0

instance {r : Mu} : Decidable (mayGo hs r) := inferInstanceAs (Decidable (_ ∨ _ ∨ _))

theorem sendNext_nil (h : hs.writeQueue.mus = []) (err : Int) :
    hs.sendNext err pc = ⟨err, hs, []⟩ := by
  simp [sendNext, h]

theorem sendNext_stay {r : Mu} {rest : List Mu} (h : hs.writeQueue.mus = r :: rest)
    (hr : ¬ mayGo hs r) (err : Int) : hs.sendNext err pc = ⟨err, hs, []⟩ := by
  simp only [mayGo] at hr
  simp only [sendNext, h, hr, ↓reduceIte]

theorem sendNext_go {r : Mu} {rest : List Mu} (h : hs.writeQueue.mus = r :: rest)
    (hr : mayGo hs r) (err : Int) :
    hs.sendNext err pc =
      ⟨pc.getD (-einval), { hs with writeQueue := hs.writeQueue.dequeue },
        if pc.isSome then [r] else []⟩ := by
  have he : r.efi = .norm := hs.writeQueue.norm r (by simp [h])
  simp only [mayGo] at hr
  simp only [sendNext, h, hr, ↓reduceIte]
  exact sendToPc_norm he

theorem sendNext_cases (hs : Hs) (err : Int) (pc : Option Int) :
    (hs.sendNext err pc = ⟨err, hs, []⟩ ∧ ∀ r ∈ hs.writeQueue.mus.head?, ¬ mayGo hs r) ∨
    ∃ r rest, hs.writeQueue.mus = r :: rest ∧ mayGo hs r ∧
      hs.sendNext err pc =
        ⟨pc.getD (-einval), { hs with writeQueue := hs.writeQueue.dequeue },
          if pc.isSome then [r] else []⟩ := by
  cases h : hs.writeQueue.mus with
  | nil => exact .inl ⟨sendNext_nil h err, by simp⟩
  | cons r rest =>
    by_cases hr : mayGo hs r
    · exact .inr ⟨r, rest, rfl, hr, sendNext_go h hr err⟩
    · exact .inl ⟨sendNext_stay h hr err, by simpa using hr⟩

/-- The first of the queue leaves it or stays. -/
theorem sendNext_order (err : Int) :
    (hs.sendNext err pc).mus ++ (hs.sendNext err pc).hs.writeQueue.mus <+ hs.writeQueue.mus := by
  obtain ⟨h, -⟩ | ⟨r, rest, hq, -, h⟩ := sendNext_cases hs err pc
  · rw [h]; exact List.Sublist.refl _
  · rw [h, PacingQueue.mus_dequeue, hq]
    cases pc with
    | none => exact List.sublist_cons_self r rest
    | some err => exact List.Sublist.refl _

/-! ## `sna_tc_rx_pacing_rsp` -/

/-- The half-session when `sna_tc_rx_pacing_rsp` turns to the queue, if it
does. -/
def atDone (hs : Hs) (m : Mu) (copied : Bool) : Option Hs :=
  match hs.txPacing.type with
  | .none => none
  | .fixed => some { hs with txPacing := { hs.txPacing with nws := hs.firstWs } }
  | .adaptive =>
    match m.ipm.type with
    | .reset =>
      some
        { hs with
          rxPacing := { hs.rxPacing with rpc := 0, nws := hs.unsolicitedNws }
          unsolicitedIpmOutstanding := false }
    | .solicit => some (if hs.writeQueue.mus = [] then hs else hs.setWindow m.ipm.nws)
    | .unsolicit => if copied then some (hs.setWindow m.ipm.nws) else none
    | .rsv => some hs

/-- What is sent in answer to a pacing message. -/
def answers (hs : Hs) (m : Mu) (ack : Option Int) : List Mu :=
  if hs.txPacing.type = .adaptive ∧ m.ipm.type = .unsolicit ∧ ack.isSome then [m] else []

@[simp] theorem setWindow_writeQueue {nws : UInt16} :
    (hs.setWindow nws).writeQueue = hs.writeQueue := rfl

@[simp] theorem setWindow_type {nws : UInt16} :
    (hs.setWindow nws).txPacing.type = hs.txPacing.type := rfl

theorem rxPacingRsp_cases (hs : Hs) (he : m.efi = .norm) (copied : Bool) (ack pc : Option Int) :
    (atDone hs m copied = none ∧ (hs.rxPacingRsp m copied ack pc).hs = hs ∧
      (hs.rxPacingRsp m copied ack pc).mus = []) ∨
    ∃ hs' err, atDone hs m copied = some hs' ∧
      (hs.rxPacingRsp m copied ack pc).hs = (hs'.sendNext err pc).hs ∧
      (hs.rxPacingRsp m copied ack pc).mus = answers hs m ack ++ (hs'.sendNext err pc).mus := by
  cases ht : hs.txPacing.type with
  | none => exact .inl (by simp [atDone, rxPacingRsp, ht])
  | fixed =>
    exact .inr ⟨{ hs with txPacing := { hs.txPacing with nws := hs.firstWs } }, 0,
      by simp only [atDone, ht], by simp [rxPacingRsp, ht, answers]⟩
  | adaptive =>
    cases hi : m.ipm.type with
    | reset =>
      exact .inr
        ⟨{ hs with
          rxPacing := { hs.rxPacing with rpc := 0, nws := hs.unsolicitedNws }
          unsolicitedIpmOutstanding := false },
        0, by simp only [atDone, ht, hi], by simp [rxPacingRsp, ht, hi, answers]⟩
    | rsv =>
      exact .inr ⟨hs, 0, by simp only [atDone, ht, hi], by simp [rxPacingRsp, ht, hi, answers]⟩
    | solicit =>
      refine .inr ⟨if hs.writeQueue.mus = [] then hs else hs.setWindow m.ipm.nws, 0,
        by simp only [atDone, ht, hi], ?_⟩
      by_cases hq : hs.writeQueue.mus = [] <;> simp [rxPacingRsp, ht, hi, hq, answers]
    | unsolicit =>
      cases copied with
      | false => exact .inl (by simp [atDone, rxPacingRsp, ht, hi])
      | true =>
        refine .inr ⟨hs.setWindow m.ipm.nws, ack.getD (-einval), by simp [atDone, ht, hi], ?_⟩
        simp [rxPacingRsp, ht, hi, answers, sendToPc_norm he]

/-- All that a pacing response changes until it turns to the queue. -/
theorem atDone_eq {hs' : Hs} {copied : Bool} (h : atDone hs m copied = some hs') :
    ∃ rpc nws rx outstanding, hs' =
      { hs with
        txPacing := { hs.txPacing with rpc := rpc, nws := nws }
        rxPacing := rx
        unsolicitedIpmOutstanding := outstanding } := by
  unfold atDone at h
  split at h
  · cases h
  · cases h; exact ⟨_, _, _, _, rfl⟩
  · split at h
    · cases h; exact ⟨_, _, _, _, rfl⟩
    · cases h; split <;> exact ⟨_, _, _, _, rfl⟩
    · split at h <;> cases h
      exact ⟨_, _, _, _, rfl⟩
    · cases h; exact ⟨_, _, _, _, rfl⟩

/-- Until it turns to the queue, a pacing response leaves the queue and the
kind of pacing. -/
theorem atDone_frame {hs' : Hs} {copied : Bool} (h : atDone hs m copied = some hs') :
    hs'.writeQueue = hs.writeQueue ∧ hs'.txPacing.type = hs.txPacing.type ∧
      hs'.firstWs = hs.firstWs := by
  obtain ⟨rpc, nws, rx, outstanding, rfl⟩ := atDone_eq h
  exact ⟨rfl, rfl, rfl⟩

/-- The call keeps the kind of pacing and the first window. -/
theorem sent_frame (hs : Hs) (e : Event) :
    (sent hs e).hs.txPacing.type = hs.txPacing.type ∧ (sent hs e).hs.firstWs = hs.firstWs := by
  cases e with
  | send m pc =>
    simp only [sent]
    obtain ⟨-, h⟩ | ⟨-, -, h⟩ | ⟨_, -, -, -, h⟩ | ⟨-, -, -, h⟩ := sendMu_cases hs m pc <;>
      simp [h]
  | pacing m copied ack pc =>
    simp only [sent]
    obtain ⟨-, h, -⟩ | ⟨hs', err, hd, h, -⟩ := rxPacingRsp_cases hs m.norm copied ack pc
    · rw [h]; exact ⟨rfl, rfl⟩
    · obtain ⟨-, ht, hf⟩ := atDone_frame hd
      rw [h]
      obtain ⟨h, -⟩ | ⟨r, rest, -, -, h⟩ := sendNext_cases hs' err pc <;> rw [h] <;> exact ⟨ht, hf⟩

end LinuxSna.Tc
