import LinuxSna.Proof.Sna.Tc.Window

/-!
# The pacing queue

Only what has to wait for a window should be on the queue of a half-session: a
request that begins a BIU, while there is no credit, and what follows it.

* `sent_clear`: which calls keep it so, and release as much as was granted;
* `none_stranded`: it is so throughout a run exactly if its steps are `Clear`.
-/

namespace LinuxSna.Tc

open Hs Framework

variable {hs : Hs} {m : Mu} {ack pc : Option Int}

/-- The head of the queue, if there is one, is a request that begins a BIU,
and there is no credit. -/
def NoneStranded (hs : Hs) : Prop :=
  ∀ r ∈ hs.writeQueue.mus.head?, r.beginsBiu = true ∧ hs.txPacing.credit = 0

instance : DecidablePred NoneStranded := fun _ => by unfold NoneStranded; infer_instance

/-- The BIUs that wait on the queue. -/
def waiting (hs : Hs) : Nat := hs.writeQueue.mus.countP Mu.beginsBiu

/-- The call strands no MU, and if it is a pacing response it releases as many
requests as the window that it grants, or all. -/
structure Releases (hs : Hs) (e : Event) : Prop where
  noneStranded : NoneStranded (sent hs e).hs
  released : ∀ m copied ack pc, e = .pacing m copied ack pc →
    waiting hs = waiting (sent hs e).hs + min (grant hs m.mu) (waiting hs)

/-- An unsolicited message of which no copy could be had: it is ignored. -/
def uncopied (hs : Hs) (m : Mu) (copied : Bool) : Prop :=
  hs.txPacing.type = .adaptive ∧ m.ipm.type = .unsolicit ∧ copied = false

instance {copied : Bool} : Decidable (uncopied hs m copied) := inferInstanceAs (Decidable (_ ∧ _))

/-- The calls that do so. A response that asks to be queued finds the queue in
use, a first segment of the expedited flow finds it empty, and a pacing response
finds it empty, or grants nothing to a first segment, or finds one MU and grants
it a window whose low byte is not 0. -/
def Clear (hs : Hs) : Event → Prop
  | .send m pc =>
    hs.txPacing.type = .none ∨
      if m.efi = .norm then m.rri = .rsp → m.qri = true → hs.writeQueue.mus ≠ []
      else hs.writeQueue.mus = [] ∨ m.mpf ≠ .bbiu ∨ hs.isIpm m = true ∨ pc.isSome = false
  | .pacing m copied _ _ =>
    hs.txPacing.type = .none ∨
      match hs.writeQueue.mus with
      | [] => True
      | r :: rest =>
        if grant hs m.mu = 0 then r.mpf = .bbiu ∨ uncopied hs m.mu copied
        else
          rest = [] ∧ ¬ uncopied hs m.mu copied ∧ (r.mpf = .bbiu → grant hs m.mu % 256 ≠ 0)

instance : ∀ e, Decidable (Clear hs e)
  | .send .. => by unfold Clear; infer_instance
  | .pacing .. => by
    unfold Clear
    refine @instDecidableOr _ _ _ ?_
    split <;> infer_instance

/-! ## Sending -/

theorem noneStranded_nil (h : hs.writeQueue.mus = []) : NoneStranded hs := by
  simp [NoneStranded, h]

theorem noneStranded_cons {r : Mu} {rest : List Mu} (h : hs.writeQueue.mus = r :: rest) :
    NoneStranded hs ↔ r.beginsBiu = true ∧ hs.txPacing.credit = 0 := by
  simp [NoneStranded, h]

theorem credit_eq_zero : hs.txPacing.credit = 0 ↔ hs.txPacing.rpc = 0 ∧ hs.txPacing.nws = 0 := by
  rw [Pacing.credit, Nat.add_eq_zero_iff, ← UInt8.toNat_inj, ← UInt8.toNat_inj]
  rfl

/-- Without credit, a first segment that takes some wraps the count round. -/
theorem credit_sendPacing (h : hs.txPacing.credit = 0) :
    (hs.sendPacing m).1.txPacing.credit = 255 := by
  obtain ⟨hr, hn⟩ := credit_eq_zero.mp h
  simp [sendPacing, hr, hn, Pacing.credit]

theorem sendToPc_noneStranded (hi : NoneStranded hs) (ht : hs.txPacing.type ≠ .none)
    (he : m.efi ≠ .norm) :
    NoneStranded (hs.sendToPc m pc).hs ↔
      hs.writeQueue.mus = [] ∨ m.mpf ≠ .bbiu ∨ hs.isIpm m = true ∨ pc.isSome = false := by
  cases hq : hs.writeQueue.mus with
  | nil => exact iff_of_true (noneStranded_nil (by rw [sendToPc_writeQueue, hq])) (.inl rfl)
  | cons r rest =>
    by_cases hp : m.mpf = .bbiu ∧ hs.isIpm m = false ∧ hs.txPacing.type ≠ .none ∧ m.efi ≠ .norm
    · cases pc with
      | none => exact iff_of_true hi (.inr (.inr (.inr rfl)))
      | some err =>
        have hc := ((noneStranded_cons hq).mp hi).2
        have hne : ¬ NoneStranded (hs.sendToPc m (some err)).hs := by
          rw [noneStranded_cons (by rw [sendToPc_writeQueue]; exact hq)]
          rintro ⟨-, hz⟩
          rw [sendToPc, if_pos hp, credit_sendPacing hc] at hz
          cases hz
        exact iff_of_false hne (by simp [hp.1, hp.2.1])
    · have hn : NoneStranded (hs.sendToPc m pc).hs := by rwa [sendToPc_of_not_paced hp]
      apply iff_of_true hn
      by_contra h
      simp only [not_or, not_not, Bool.not_eq_true] at h
      exact hp ⟨h.2.1, h.2.2.1, ht, he⟩

theorem send_noneStranded (hi : NoneStranded hs)
    (hn : hs.txPacing.type = .none → hs.writeQueue.mus = []) :
    NoneStranded (hs.sendMu m pc).hs ↔ Clear hs (.send m pc) := by
  by_cases ht : hs.txPacing.type = .none
  · refine iff_of_true (noneStranded_nil ?_) (.inl ht)
    obtain ⟨-, h⟩ | ⟨-, -, h⟩ | ⟨_, -, ht', -⟩ | ⟨-, -, -, h⟩ := sendMu_cases hs m pc
    · rw [h, sendToPc_writeQueue, hn ht]
    · rw [h, hn ht]
    · exact absurd ht ht'
    · rw [h, sendToPc_writeQueue, hn ht]
  · simp only [Clear, ht, false_or]
    obtain ⟨he, h⟩ | ⟨he, hc, h⟩ | ⟨he, -, -, hw, h⟩ | ⟨he, -, hw, h⟩ := sendMu_cases hs m pc
    · rw [h, if_neg he]
      exact sendToPc_noneStranded hi ht he
    · rw [h, if_pos he]
      exact iff_of_true hi fun hr => by rw [hc.1] at hr; cases hr
    · rw [h, if_pos he]
      cases hr : m.rri with
      | req =>
        refine iff_of_true ?_ nofun
        rw [waits_req hr] at hw
        cases hq : hs.writeQueue.mus with
        | nil =>
          -- the request is the first that has to wait
          have hb : m.mpf = .bbiu ∧ hs.txPacing.credit = 0 := hw.resolve_left fun hne => hne hq
          have hq' : (hs.writeQueue.enqueue m he).mus = [m] := by rw [PacingQueue.mus_enqueue, hq]; rfl
          rw [noneStranded_cons hq']
          exact ⟨by simp [Mu.beginsBiu, hr, hb.1], hb.2⟩
        | cons r rest =>
          rw [noneStranded_cons (by rw [PacingQueue.mus_enqueue, hq]; rfl)]
          exact (noneStranded_cons hq).mp hi
      | rsp =>
        have hw : hs.writeQueue.mus = [] ∧ m.qri = true := by simpa only [waits, hr] using hw
        refine iff_of_false ?_ fun hd => hd rfl hw.2 hw.1
        have hq' : (hs.writeQueue.enqueue m he).mus = [m] := by rw [PacingQueue.mus_enqueue, hw.1]; rfl
        rw [noneStranded_cons hq']
        simp [Mu.beginsBiu, hr]
    · have hw := hw.resolve_left ht
      rw [h, if_pos he, sendToPc_norm he]
      refine iff_of_true hi fun hr hqr hq => hw ?_
      simp only [waits, hr]
      exact ⟨hq, hqr⟩

/-! ## Pacing responses -/

/-- The credit that a pacing response leaves for the head of the queue. -/
theorem credit_atDone {copied : Bool} {hs' : Hs} (hq : hs.writeQueue.mus ≠ [])
    (hc : hs.txPacing.credit = 0) (h : atDone hs m copied = some hs') :
    hs'.txPacing.credit = grant hs m % 256 := by
  obtain ⟨hr, -⟩ := credit_eq_zero.mp hc
  cases ht : hs.txPacing.type with
  | none => simp [atDone, ht] at h
  | fixed =>
    have hg : grant hs m = hs.firstWs.toNat := by simp only [grant, ht]
    have hlt := hs.firstWs.toNat_lt
    simp only [atDone, ht, Option.some.injEq] at h
    rw [hg, Nat.mod_eq_of_lt hlt, ← h]
    simp [Pacing.credit, hr]
  | adaptive =>
    cases hi : m.ipm.type with
    | reset =>
      have hg : grant hs m = 0 := by simp only [grant, ht, hi]
      simp only [atDone, ht, hi, Option.some.injEq] at h
      rw [hg, ← h]
      exact hc
    | rsv =>
      have hg : grant hs m = 0 := by simp only [grant, ht, hi]
      simp only [atDone, ht, hi, Option.some.injEq] at h
      rw [hg, ← h]
      exact hc
    | solicit =>
      have hg : grant hs m = m.ipm.nws.toNat := by simp only [grant, ht, hi]
      simp only [atDone, ht, hi, if_neg hq, Option.some.injEq] at h
      rw [hg, ← h, credit_setWindow]
    | unsolicit =>
      have hg : grant hs m = m.ipm.nws.toNat := by simp only [grant, ht, hi]
      simp only [atDone, ht, hi, Option.ite_none_right_eq_some, Option.some.injEq] at h
      rw [hg, ← h.2, credit_setWindow]

/-- What becomes of the queue when its head is looked at with some credit. -/
theorem sendNext_noneStranded {r : Mu} {rest : List Mu} (hq : hs.writeQueue.mus = r :: rest)
    (hr : r.beginsBiu = true) {w : Nat} (hc : hs.txPacing.credit = w % 256) (err : Int) :
    (NoneStranded (hs.sendNext err pc).hs ∧
        waiting hs = waiting (hs.sendNext err pc).hs + min w (waiting hs)) ↔
      if w = 0 then r.mpf = .bbiu else rest = [] ∧ (r.mpf = .bbiu → w % 256 ≠ 0) := by
  have hreq : r.rri = .req := by
    simp only [Mu.beginsBiu, Bool.and_eq_true, decide_eq_true_eq] at hr
    exact hr.1
  have hw : waiting hs = rest.countP Mu.beginsBiu + 1 := by
    rw [waiting, hq, List.countP_cons_of_pos hr]
  by_cases hgo : mayGo hs r
  · have hm := (mayGo_req hreq).mp hgo
    rw [hc] at hm
    rw [sendNext_go hq hgo, hw]
    have hw' : waiting { hs with writeQueue := hs.writeQueue.dequeue } =
        rest.countP Mu.beginsBiu := by
      simp [waiting, hq]
    simp only [hw']
    cases rest with
    | nil =>
      have hn : NoneStranded { hs with writeQueue := hs.writeQueue.dequeue } :=
        noneStranded_nil (by simp [hq])
      simp only [hn, List.countP_nil, true_and]
      split
      · rename_i hz
        refine iff_of_false (by omega) fun hb => hm ⟨hb, by rw [hz]⟩
      · exact iff_of_true (by omega) fun hb hz => hm ⟨hb, hz⟩
    | cons r' rest =>
      have hq' : hs.writeQueue.dequeue.mus = r' :: rest := by simp [hq]
      rw [noneStranded_cons hq']
      refine iff_of_false ?_ ?_
      · rintro ⟨⟨hr', hz⟩, hk⟩
        rw [List.countP_cons_of_pos hr'] at hk
        change hs.txPacing.credit = 0 at hz
        omega
      · split
        · rename_i hz
          exact fun hb => hm ⟨hb, by rw [hz]⟩
        · exact fun h => by cases h.1
  · have hm := mt (mayGo_req hreq).mpr hgo
    rw [not_not, hc] at hm
    rw [sendNext_stay hq hgo]
    have hn : NoneStranded hs := (noneStranded_cons hq).mpr ⟨hr, by rw [hc]; exact hm.2⟩
    simp only [hn, true_and, hw]
    split
    · exact iff_of_true (by omega) hm.1
    · exact iff_of_false (by omega) fun h => h.2 hm.1 hm.2

theorem atDone_eq_none {copied : Bool} :
    atDone hs m copied = none ↔ hs.txPacing.type = .none ∨ uncopied hs m copied := by
  unfold atDone uncopied
  split
  · rename_i ht; simp [ht]
  · rename_i ht; simp [ht]
  · rename_i ht
    split
    · rename_i hi; simp [ht, hi]
    · rename_i hi; simp [ht, hi]
    · rename_i hi; cases copied <;> simp [ht, hi]
    · rename_i hi; simp [ht, hi]

theorem releases_send_iff :
    Releases hs (.send m pc) ↔ NoneStranded (hs.sendMu m pc).hs := by
  refine ⟨fun h => h.noneStranded, fun h => ⟨h, ?_⟩⟩
  intro m' copied ack pc' he
  cases he

theorem releases_pacing_iff {m : PacingRsp} {copied : Bool} :
    Releases hs (.pacing m copied ack pc) ↔
      NoneStranded (hs.rxPacingRsp m.mu copied ack pc).hs ∧
        waiting hs = waiting (hs.rxPacingRsp m.mu copied ack pc).hs +
          min (grant hs m.mu) (waiting hs) := by
  refine ⟨fun h => ⟨h.noneStranded, h.released m copied ack pc rfl⟩, fun h => ⟨h.1, ?_⟩⟩
  intro m' copied' ack' pc' he
  cases he
  exact h.2

theorem waiting_nil (h : hs.writeQueue.mus = []) : waiting hs = 0 := by rw [waiting, h]; rfl

theorem pacing_releases (hi : NoneStranded hs) (m : PacingRsp) (copied : Bool) :
    Releases hs (.pacing m copied ack pc) ↔ Clear hs (.pacing m copied ack pc) := by
  rw [releases_pacing_iff]
  simp only [Clear]
  obtain ⟨hd, h, -⟩ | ⟨hs', err, hd, h, -⟩ := rxPacingRsp_cases hs m.norm copied ack pc
  · rw [h]
    obtain ht | hu := atDone_eq_none.mp hd
    · exact iff_of_true ⟨hi, by simp [grant, ht]⟩ (.inl ht)
    · have ht : hs.txPacing.type ≠ .none := fun h => by cases hu.1.symm.trans h
      simp only [ht, false_or, hi, true_and]
      cases hq : hs.writeQueue.mus with
      | nil => exact iff_of_true (by rw [waiting_nil hq, Nat.min_zero]) trivial
      | cons r rest =>
        have hb := ((noneStranded_cons hq).mp hi).1
        have hw : 0 < waiting hs := by
          rw [waiting, hq, List.countP_cons_of_pos hb]; exact Nat.succ_pos _
        by_cases hz : grant hs m.mu = 0
        · simp only [if_pos hz]
          exact iff_of_true (by omega) (.inr hu)
        · simp only [if_neg hz]
          exact iff_of_false (by omega) fun h => h.2.1 hu
  · have ht : ¬ hs.txPacing.type = .none := fun ht => by
      rw [atDone_eq_none.mpr (.inl ht)] at hd
      cases hd
    have hu : ¬ uncopied hs m.mu copied := fun hu => by
      rw [atDone_eq_none.mpr (.inr hu)] at hd
      cases hd
    obtain ⟨hq', -, -⟩ := atDone_frame hd
    have hw : waiting hs = waiting hs' := by rw [waiting, waiting, hq']
    simp only [ht, false_or]
    rw [h, hw]
    cases hq : hs.writeQueue.mus with
    | nil =>
      rw [sendNext_nil (hq' ▸ hq)]
      refine iff_of_true ⟨noneStranded_nil (hq' ▸ hq), ?_⟩ trivial
      rw [waiting_nil (hq' ▸ hq), Nat.min_zero]
    | cons r rest =>
      obtain ⟨hb, hc⟩ := (noneStranded_cons hq).mp hi
      rw [sendNext_noneStranded (hq' ▸ hq) hb (credit_atDone (by simp [hq]) hc hd) err]
      simp only [hu, or_false, not_false_eq_true, true_and]

/-! ## Runs -/

/-- The half-session after a call. -/
def next (hs : Hs) (e : Event) : Option Hs := some (sent hs e).hs

/-- What the steps keep. -/
structure QueueInv (hs : Hs) : Prop where
  noneStranded : NoneStranded hs
  unpaced : hs.txPacing.type = .none → hs.writeQueue.mus = []

theorem sent_clear (hi : QueueInv hs) (e : Event) : Releases hs e ↔ Clear hs e := by
  cases e with
  | send m pc =>
    rw [releases_send_iff]
    exact send_noneStranded hi.noneStranded hi.unpaced
  | pacing m copied ack pc => exact pacing_releases hi.noneStranded m copied

/-- A half-session without pacing queues nothing. -/
theorem sent_unpaced (hi : QueueInv hs) (e : Event) (ht : hs.txPacing.type = .none) :
    (sent hs e).hs.writeQueue.mus = [] := by
  have hq := hi.unpaced ht
  cases e with
  | send m pc =>
    simp only [sent]
    obtain ⟨-, h⟩ | ⟨-, -, h⟩ | ⟨_, -, ht', -⟩ | ⟨-, -, -, h⟩ := sendMu_cases hs m pc
    · rw [h, sendToPc_writeQueue, hq]
    · rw [h, hq]
    · exact absurd ht ht'
    · rw [h, sendToPc_writeQueue, hq]
  | pacing m copied ack pc => simp [sent, rxPacingRsp, ht, hq]

/-- For every BIND, the calls of a run strand no MU and release what was granted
exactly if each of them is clear. -/
theorem none_stranded (type : HsType) (bind : Bind) (es : List Event) :
    Along next Releases (init type bind) es ↔ Along next Clear (init type bind) es := by
  refine along_iff (I := QueueInv) ?_ (fun hs e hi => sent_clear hi e)
    ⟨noneStranded_nil rfl, fun _ => rfl⟩
  rintro hs e hs' hi hc h
  cases h
  refine ⟨((sent_clear hi e).mpr hc).noneStranded, fun ht => sent_unpaced hi e ?_⟩
  rwa [(sent_frame hs e).1] at ht

/-- A response that asks to be queued is stranded when nothing is queued before
it. -/
theorem none_stranded_response :
    ¬ Along next Releases (init .fsp (adaptiveBind 1))
      [.send { request .wholeBiu [1] with rri := .rsp, qri := true } (some 0)] := by
  rintro ⟨h, -⟩
  have hs := h.noneStranded
  revert hs
  decide

end LinuxSna.Tc
