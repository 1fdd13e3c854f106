import LinuxSna.Framework.Run
import LinuxSna.Proof.Sna.Ps.Queue
import LinuxSna.Spec.Records

/-!
# The end of a chain

The type of a chain is taken from the MU before its data are copied, and the end
of the chain is processed even if the rest of the MU has gone back to the queue.

* `pass_rest_iff`: when a pass of the copy leaves a rest of the MU;
* `processData_data`: what is copied of an MU is its data, where no pass misreads a
  record;
* `chain_end_after_data`: the end of a chain is processed after all data before it if
  no pass stops inside an MU that ends a chain or misreads a record, and on a basic
  conversation only then.
-/

namespace LinuxSna.Ps

open Framework (Along Passes along_of_invariant loop passes_iff passes_inl loop_last before_invariant)
open Spec.Mapped (Position)

/-! ## Where a pass stops -/

/-- The copy stops inside the MU: at the end of a record with fill LL, or with the
program's buffer full. -/
def stopsWithin (t : Take) : Prop :=
  (t.c.tp.fill = .ll ∧ t.c.rcb.llRx.left ≤ t.c.tp.room ∧
    t.c.rcb.llRx.left < t.mu.data.length) ∨
  (t.c.tp.room ≤ t.c.rcb.llRx.left ∧ t.c.tp.room < t.mu.data.length)

/-- A pass stops inside the MU, by the state before it. -/
def stopsInside (t : Take) : Prop :=
  match begin t with
  | none => False
  | some u =>
    if u.c.rcb.llRx.state = .incomplete then stopsWithin (pullLl u)
    else u.c.tp.room = 0 ∧ u.mu.data ≠ []

theorem turn_rest_iff {t : Take} {llEnd : Bool} :
    (∃ d, turn t llEnd = .inr d ∧ d.rest ≠ []) ↔
      ((t.c.tp.fill = .ll ∧ llEnd) ∨ t.c.tp.rxReqLen = t.c.tp.rxRcvLen) ∧ t.mu.data ≠ [] := by
  rw [turn]
  constructor
  · rintro ⟨d, hd, hrest⟩
    split at hd
    · rename_i hstop
      obtain rfl := Sum.inr.inj hd
      exact ⟨hstop, hrest⟩
    · split at hd
      · cases hd
      · obtain rfl := Sum.inr.inj hd
        exact absurd rfl hrest
  · rintro ⟨hstop, hdata⟩
    exact ⟨_, if_pos hstop, hdata⟩

theorem room_eq_zero {tp : Tp} : tp.room = 0 ↔ tp.rxReqLen = tp.rxRcvLen := by
  have := tp.le
  rw [Tp.room]
  omega

/-- The copy of a pass stops inside the MU. -/
theorem turn_copyData_rest_iff {t : Take} (hs : t.c.rcb.llRx.state = .incomplete) :
    (∃ d, turn (endRecord (copyData t)) t.size.2 = .inr d ∧ d.rest ≠ []) ↔ stopsWithin t := by
  have hle := readSize_le t.c t.mu
  have hn : readSize t.c t.mu = min _ (min _ _) := rfl
  have hsize := copySize_snd t.mu.data.length t.c.rcb.llRx.left t.c.tp.room
  have hrest : (copyData t).mu.data ≠ [] ↔ readSize t.c t.mu < t.mu.data.length := by
    rw [copyData_data t.c t.mu, ne_eq, List.drop_eq_nil_iff]
    omega
  rw [turn_rest_iff, stopsWithin]
  cases hend : t.size.2 with
  | true =>
    have hlast := hsize.mp hend
    rw [endRecord_last hend]
    show (((t.c.tp.fill = .ll ∧ _) ∨ (copyData t).c.tp.rxReqLen = (copyData t).c.tp.rxRcvLen) ∧
      (copyData t).mu.data ≠ []) ↔ _
    rw [hrest, copyData_full t.c t.mu]
    simp only [and_true]
    constructor
    · rintro ⟨hll | hfull, hlt⟩
      · exact Or.inl ⟨hll, hlast.2, by omega⟩
      · exact Or.inr ⟨by omega, by omega⟩
    · rintro (⟨hll, -, hlt⟩ | ⟨hroom, hlt⟩)
      · exact ⟨Or.inl hll, by omega⟩
      · exact ⟨Or.inr (by omega), by omega⟩
  | false =>
    have hnot : ¬ (t.c.rcb.llRx.left ≤ t.mu.data.length ∧ t.c.rcb.llRx.left ≤ t.c.tp.room) :=
      fun hle => absurd (hend.symm.trans (hsize.mpr hle)) (by simp)
    rw [endRecord_not_last hs hend, hrest, copyData_full t.c t.mu]
    simp only [Bool.false_eq_true, and_false, false_or]
    constructor
    · rintro ⟨hfull, hlt⟩
      exact Or.inr ⟨by omega, by omega⟩
    · rintro (⟨-, hroom, hlt⟩ | ⟨hroom, hlt⟩)
      · exact absurd ⟨by omega, hroom⟩ hnot
      · exact ⟨by omega, by omega⟩

/-- When a pass leaves a rest of the MU. -/
theorem pass_rest_iff (t : Take) : stopsInside t ↔ ∃ d, pass t = .inr d ∧ d.rest ≠ [] := by
  rw [stopsInside, pass]
  cases hbegin : begin t with
  | none =>
    apply iff_of_false id
    rintro ⟨d, hd, hrest⟩
    obtain rfl := Sum.inr.inj hd
    exact hrest rfl
  | some u =>
    by_cases hs : u.c.rcb.llRx.state = .incomplete
    · simp only [if_pos hs, readRecord_incomplete hs]
      exact (turn_copyData_rest_iff ((congrArg LlRx.state (pullLl_state u)).trans hs)).symm
    · have hread : readRecord u = (u, false) := if_neg hs
      have hend : (endRecord u).c.tp = u.c.tp ∧ (endRecord u).mu = u.mu := by
        rw [endRecord]; split <;> exact ⟨rfl, rfl⟩
      simp only [if_neg hs, hread]
      rw [turn_rest_iff, hend.1, hend.2, room_eq_zero]
      simp

/-- The rest of the MU, from the passes. -/
theorem passes_rest_iff {c : Conversation} {m : Mu} :
    Passes pass (fun t => ¬ stopsInside t) ⟨c, m⟩ ↔
      ∀ d, processData c m = some d → d.rest = [] := by
  rw [passes_iff (Q := fun d => d.rest = []) fun t => by rw [not_not, pass_rest_iff]]
  exact ⟨fun h d hd => h _ d hd, fun h n d hd => h d (processData_iff.mp ⟨n, hd⟩)⟩

/-! ## The data of an MU -/

/-- What of the bytes is for the program, from a place in a record on: on a mapped
conversation the headers are not. -/
def Tp.data (tp : Tp) (p : Position) (bytes : List UInt8) : List UInt8 :=
  match tp.conversationType with
  | .basic => bytes
  | .mapped => Spec.Mapped.data p bytes

/-- The place in a record that the rcb and the tp keep. -/
def position (c : Conversation) : Position :=
  if c.rcb.llRx.state = .incomplete then ⟨c.tp.rxMcLlPullLeft, c.rcb.llRx.left⟩ else {}

/-- A pass on a mapped conversation takes a record for another one: it begins a record
whose size is not one of 8 bits, or ends a record without data before its header has
been stripped. -/
def misreads (t : Take) : Prop :=
  t.c.tp.conversationType = .mapped ∧
    match begin t with
    | none => False
    | some u =>
      t.c.rcb.llRx.state = .none ∧ (llSize t.mu.data < 4 ∨ 4 + 2 ^ 8 ≤ llSize t.mu.data) ∨
        u.c.rcb.llRx.state = .incomplete ∧ u.c.rcb.llRx.left = 0 ∧
          u.mu.data.length < u.c.tp.rxMcLlPullLeft

/-- What the program has, and what it is still to get of the MU and of the bytes after
it. -/
def Take.whole (t : Take) (more : List UInt8) : List UInt8 :=
  t.c.tp.rxBuffer ++ t.c.tp.data (position t.c) (t.mu.data ++ more)

theorem Tp.data_basic {tp : Tp} {p : Position} {bytes : List UInt8}
    (h : tp.conversationType = .basic) : tp.data p bytes = bytes := by
  rw [Tp.data, h]

theorem Tp.data_mapped {tp : Tp} {p : Position} {bytes : List UInt8}
    (h : tp.conversationType = .mapped) : tp.data p bytes = Spec.Mapped.data p bytes := by
  rw [Tp.data, h]

theorem position_other {c : Conversation} (h : c.rcb.llRx.state ≠ .incomplete) :
    position c = {} := if_neg h

theorem whole_basic {t : Take} (h : t.c.tp.conversationType = .basic) (more : List UInt8) :
    t.whole more = t.c.tp.rxBuffer ++ (t.mu.data ++ more) := by
  rw [Take.whole, Tp.data_basic h]

/-- Between two records -/
theorem whole_between {t : Take} (h : t.c.tp.conversationType = .mapped)
    (hs : t.c.rcb.llRx.state ≠ .incomplete) (more : List UInt8) :
    t.whole more = t.c.tp.rxBuffer ++ Spec.Mapped.data {} (t.mu.data ++ more) := by
  rw [Take.whole, Tp.data_mapped h, position_other hs]

/-- Within a record -/
theorem whole_within {t : Take} (h : t.c.tp.conversationType = .mapped)
    (hs : t.c.rcb.llRx.state = .incomplete) (more : List UInt8) :
    t.whole more = t.c.tp.rxBuffer ++
      Spec.Mapped.data ⟨t.c.tp.rxMcLlPullLeft, t.c.rcb.llRx.left⟩ (t.mu.data ++ more) := by
  rw [Take.whole, Tp.data_mapped h, position, if_pos hs]

/-- The first two bytes of a record are its size, and two more follow before the data. -/
theorem data_start {bytes more : List UInt8} (h : 2 ≤ bytes.length) :
    Spec.Mapped.data ⟨4, llSize bytes - 4⟩ (bytes ++ more) =
      Spec.Mapped.data {} (bytes ++ more) := by
  match bytes, h with
  | a :: b :: rest, _ => simp [Spec.Mapped.data, llSize, byte]

theorem begin_whole {t u : Take} (h : ¬ misreads t) (hu : begin t = some u) (more : List UInt8) :
    u.whole more = t.whole more := by
  rw [misreads, hu] at h
  rw [begin] at hu
  split at hu
  · rename_i hs
    rw [startRecord] at hu
    split at hu
    · cases hu
    · rename_i hlen
      split at hu
      · cases hu
      · have hnone : t.c.rcb.llRx.state ≠ .incomplete := by simp [hs]
        split at hu <;> rename_i htype
        · -- the size that is kept is that of the record
          have hsize : 4 ≤ llSize t.mu.data ∧ llSize t.mu.data < 4 + 2 ^ 8 := by
            by_contra hn
            exact h ⟨htype, Or.inl ⟨hs, by omega⟩⟩
          have hleft : (llSize t.mu.data + 2 ^ 8 - 4) % 2 ^ 8 - 0 = llSize t.mu.data - 4 := by omega
          cases hu
          rw [whole_between htype hnone]
          refine Eq.trans (whole_within (by exact htype) rfl more) ?_
          show _ ++ Spec.Mapped.data ⟨4, (llSize t.mu.data + 2 ^ 8 - 4) % 2 ^ 8 - 0⟩ _ = _
          rw [hleft, data_start (by omega)]
        · cases hu
          rw [whole_basic htype]
          exact whole_basic (by exact htype) more
  · cases hu; rfl

/-- The fields before the data are not for the program. -/
theorem pullLl_whole {t : Take} (hs : t.c.rcb.llRx.state = .incomplete) (more : List UInt8) :
    (pullLl t).whole more = t.whole more := by
  rw [pullLl]
  split
  · rename_i h
    rw [whole_within h.1 hs, Spec.Mapped.data_header]
    exact whole_within (by exact h.1) (by exact hs) more
  · rfl

/-- All that a record still has of the MU is copied, or what there is room for. -/
theorem copyData_whole {t : Take} (hs : t.c.rcb.llRx.state = .incomplete)
    (h : t.c.tp.conversationType = .mapped → t.c.tp.rxMcLlPullLeft ≠ 0 →
      t.mu.data = [] ∧ t.c.rcb.llRx.left ≠ 0) (more : List UInt8) :
    (copyData t).whole more = t.whole more := by
  have hle := readSize_le t.c t.mu
  have hn : readSize t.c t.mu = min _ (min _ _) := rfl
  have hsize := copySize_snd t.mu.data.length t.c.rcb.llRx.left t.c.tp.room
  have hbuffer := copyData_rxBuffer t.c t.mu
  have hdata := copyData_data t.c t.mu
  have hleft := copyData_left t.c t.mu
  cases htype : t.c.tp.conversationType with
  | basic =>
    rw [whole_basic htype, whole_basic (t := copyData t) htype, hbuffer, hdata, List.append_assoc,
      ← List.append_assoc (List.take _ _), List.take_append_drop]
  | mapped =>
    rw [whole_within htype hs]
    by_cases hpull : t.c.tp.rxMcLlPullLeft = 0
    · rw [hpull, Spec.Mapped.data_left hle.2.1 hle.1, ← List.append_assoc]
      cases hend : t.size.2 with
      | true =>
        have hlast := hsize.mp hend
        rw [whole_between (t := copyData t) htype (by simp [copyData, LlRx.read, hend]), hbuffer,
          hdata]
        congr 2
        congr 1
        omega
      | false =>
        rw [whole_within (t := copyData t) htype (by simp [copyData, LlRx.read, hend, hs]), hbuffer,
          hdata, hleft]
        exact congrArg (fun n => _ ++ Spec.Mapped.data ⟨n, _⟩ _) hpull
    · -- the MU ended in the header
      obtain ⟨hnil, hmore⟩ := h htype hpull
      have hnone : readSize t.c t.mu = 0 := by
        rw [hn, hnil]
        exact Nat.zero_min _
      have hend : t.size.2 = false := by
        by_contra hend
        have hlast := hsize.mp (Bool.eq_true_of_not_eq_false hend)
        rw [hnil] at hlast
        exact hmore (Nat.le_zero.mp hlast.1)
      rw [whole_within (t := copyData t) htype (by simp [copyData, LlRx.read, hend, hs]), hbuffer,
        hdata, hleft, hnone, List.take_zero, List.append_nil]
      rfl

theorem readRecord_whole {t u : Take} (h : ¬ misreads t) (hu : begin t = some u)
    (more : List UInt8) : (readRecord u).1.whole more = u.whole more := by
  rw [readRecord]
  split
  · rename_i hs
    rw [copyData_whole ((congrArg LlRx.state (pullLl_state u)).trans hs) _ more, pullLl_whole hs]
    intro htype hpull
    rw [(pullLl_same u).kept.type] at htype
    rw [misreads, hu] at h
    rw [pullLl_state]
    rw [pullLl] at hpull ⊢
    split at hpull
    · rename_i hp
      have hlt : u.mu.data.length < u.c.tp.rxMcLlPullLeft := Nat.lt_of_sub_ne_zero hpull
      rw [if_pos hp]
      refine ⟨List.drop_eq_nil_of_le hlt.le, fun hleft => h ⟨?_, Or.inr ⟨hs, hleft, hlt⟩⟩⟩
      rw [← (begin_same hu).kept.type, htype]
    · rename_i hp
      exact absurd ⟨htype, hpull⟩ hp
  · rfl

theorem endRecord_whole (t : Take) (more : List UInt8) :
    (endRecord t).whole more = t.whole more := by
  rw [endRecord]
  split
  · rename_i hs
    have hposition : position t.c = {} := position_other (by simp [hs])
    rw [Take.whole, Take.whole, hposition]
    rfl
  · rfl

/-- A pass that does not misread a record gives the program its data. -/
theorem pass_whole {t u : Take} (h : ¬ misreads t) (hu : begin t = some u) (more : List UInt8) :
    (endRecord (readRecord u).1).whole more = t.whole more := by
  rw [endRecord_whole, readRecord_whole h hu, begin_whole h hu]

theorem turn_whole {t : Take} {llEnd : Bool} {d : Data} (h : turn t llEnd = .inr d)
    (more : List UInt8) :
    d.c.tp.rxBuffer ++ d.c.tp.data (position d.c) (d.rest ++ more) = t.whole more := by
  rw [turn] at h
  split at h
  · rw [← Sum.inr.inj h]; rfl
  · split at h
    · cases h
    · rename_i hnil
      rw [Take.whole, ← Sum.inr.inj h, not_not.mp hnil]
      rfl

/-- What is copied of an MU is its data. -/
theorem processData_data {c : Conversation} {m : Mu} {d : Data} (hd : processData c m = some d)
    (herr : d.err = acRcOk) (h : Passes pass (fun t => ¬ misreads t) ⟨c, m⟩) (more : List UInt8) :
    d.c.tp.rxBuffer ++ d.c.tp.data (position d.c) (d.rest ++ more) =
      c.tp.rxBuffer ++ c.tp.data (position c) (m.data ++ more) := by
  obtain ⟨k, t, hk, ht⟩ := loop_last hd
  have hinv : Passes pass (fun t => ¬ misreads t) t ∧ t.whole more = (⟨c, m⟩ : Take).whole more := by
    refine before_invariant (I := fun t => Passes pass (fun t => ¬ misreads t) t ∧
      t.whole more = (⟨c, m⟩ : Take).whole more) (fun t v hs hb => ?_) ⟨h, rfl⟩ hk
    obtain ⟨hgood, hpasses⟩ := (passes_inl hb).mp hs.1
    refine ⟨hpasses, ?_⟩
    rw [pass] at hb
    split at hb
    · cases hb
    · rename_i u hu
      rw [turn_inl hb, pass_whole hgood hu, hs.2]
  rw [pass] at ht
  split at ht
  · rw [← Sum.inr.inj ht] at herr
    cases herr
  · rename_i u hu
    rw [turn_whole ht, pass_whole (hinv.1 0 t rfl) hu, hinv.2]
    rfl

/-! ## Over the queue -/

/-- The loop goes on with the next MU, after the first on the queue. -/
def nextMu (c : Conversation) (m : Mu) : Option Conversation :=
  if c.rcb.postState ≠ .pendPosted ∨ m.isFmh7 then none
  else
    match processData { c with rcb.hsToPsBufferQueue := c.rcb.hsToPsBufferQueue.tail } m with
    | none => none
    | some d => if d.err = acRcOk ∧ d.reason = .none then some d.c else none

/-- No pass stops inside the MU if it ends a chain. -/
def readWhole (c : Conversation) (m : Mu) : Prop :=
  c.rcb.postState = .pendPosted → m.isFmh7 = false → m.hsPsType ≠ .notEndOfData →
    Passes pass (fun t => ¬ stopsInside t)
      ⟨{ c with rcb.hsToPsBufferQueue := c.rcb.hsToPsBufferQueue.tail }, m⟩

/-- No pass over the MU misreads a record. -/
def readRight (c : Conversation) (m : Mu) : Prop :=
  c.rcb.postState = .pendPosted → m.isFmh7 = false →
    Passes pass (fun t => ¬ misreads t)
      ⟨{ c with rcb.hsToPsBufferQueue := c.rcb.hsToPsBufferQueue.tail }, m⟩

section TakeMus

variable {q : List Mu} {m : Mu} {err : Rc} {fmh7 : Bool} {ec : CtrlType} {c : Conversation}

theorem nextMu_of_ne (h : c.rcb.postState ≠ .pendPosted) : nextMu c m = none := if_pos (Or.inl h)

theorem nextMu_of_fmh7 (h : m.isFmh7 = true) : nextMu c m = none := if_pos (Or.inr h)

theorem nextMu_of_none (hq : c.rcb.hsToPsBufferQueue = m :: q)
    (hd : processData { c with rcb.hsToPsBufferQueue := q } m = none) : nextMu c m = none := by
  rw [nextMu, hq, List.tail_cons, hd, ite_self]

theorem nextMu_of_some {d : Data} (h : c.rcb.postState = .pendPosted) (hm : m.isFmh7 = false)
    (hq : c.rcb.hsToPsBufferQueue = m :: q)
    (hd : processData { c with rcb.hsToPsBufferQueue := q } m = some d) :
    nextMu c m = if d.err = acRcOk ∧ d.reason = .none then some d.c else none := by
  rw [nextMu, hq, List.tail_cons, hd, if_neg (by simp [h, hm])]

/-- Where the loop stops, only the MU it has read last counts. -/
theorem along_of_none (h : nextMu c m = none) :
    Along nextMu readWhole c (m :: q) ↔ readWhole c m := by
  rw [Along, h]
  exact and_iff_left fun s' hs' => absurd hs' (by simp)

theorem along_of_some {c' : Conversation} (h : nextMu c m = some c') :
    Along nextMu readWhole c (m :: q) ↔ readWhole c m ∧ Along nextMu readWhole c' q := by
  rw [Along, h]
  exact and_congr_right fun _ => ⟨fun hall => hall c' rfl, fun ha s' hs' => Option.some.inj hs' ▸ ha⟩

/-- The end of the chain is processed with all data read, from the MUs. -/
theorem takeMus_rest_iff (hq : c.rcb.hsToPsBufferQueue = q) :
    (∀ g, takeMus err false ec c q = some g → g.endOfChain = true → g.rest = []) ↔
      Along nextMu readWhole c q := by
  induction q generalizing err ec c with
  | nil => exact iff_of_true (fun g hg _ => by cases hg; rfl) trivial
  | cons m q ih =>
    by_cases hpost : c.rcb.postState = .pendPosted
    · cases hm : m.isFmh7 with
      | true =>
        rw [takeMus_of_fmh7 hpost hm, along_of_none (nextMu_of_fmh7 hm)]
        refine iff_of_true (fun g hg hend => ?_) fun _ h => absurd (hm.symm.trans h) (by simp)
        rw [endOfChain_of_fmh7 (takeMus_fmh7 hg)] at hend
        cases hend
      | false =>
        have hwhole : readWhole c m ↔ (m.hsPsType ≠ .notEndOfData →
            ∀ d, processData { c with rcb.hsToPsBufferQueue := q } m = some d → d.rest = []) := by
          rw [readWhole, hq, List.tail_cons, passes_rest_iff]
          exact ⟨fun h => h hpost hm, fun h _ _ => h⟩
        cases hd : processData { c with rcb.hsToPsBufferQueue := q } m with
        | none =>
          rw [takeMus_of_none hpost hm hd, along_of_none (nextMu_of_none hq hd), hwhole, hd]
          exact iff_of_true (fun g hg => absurd hg (by simp)) fun _ d hd => absurd hd (by simp)
        | some d =>
          have hdone := processData_done hd
          have hwhole' : readWhole c m ↔ (m.hsPsType ≠ .notEndOfData → d.rest = []) := by
            rw [hwhole, hd]
            simp
          rw [takeMus_of_some hpost hm hd]
          by_cases hgo : d.err = acRcOk ∧ d.reason = .none
          · -- the MU has been read to its end
            have hrest := hdone.freed hgo.2
            rw [if_neg (not_not.mpr hgo.1), if_neg (not_not.mpr hgo.2),
              along_of_some ((nextMu_of_some hpost hm hq hd).trans (if_pos hgo)), hwhole',
              ih (hdone.read hrest)]
            exact (and_iff_right fun _ => hrest).symm
          · rw [along_of_none ((nextMu_of_some hpost hm hq hd).trans (if_neg hgo)), hwhole']
            by_cases herr : d.err = acRcOk
            · -- the program has what it asked for
              have hreason : d.reason ≠ .none := fun h => hgo ⟨herr, h⟩
              rw [if_neg (not_not.mpr herr), if_pos hreason]
              simp [Got.endOfChain, hdone.type]
            · rw [if_pos herr]
              exact iff_of_true (fun g hg hend => by cases hg; cases hend)
                fun _ => hdone.failed herr
    · rw [takeMus_of_ne hpost, along_of_none (nextMu_of_ne hpost)]
      exact iff_of_true (fun g hg _ => by cases hg; rfl) fun h => absurd h hpost

theorem nextMu_type {c' : Conversation} (h : nextMu c m = some c') :
    c'.tp.conversationType = c.tp.conversationType := by
  rw [nextMu] at h
  split at h
  · cases h
  · split at h
    · cases h
    · rename_i d hd
      split at h <;> cases h
      exact (processData_done hd).kept.type

/-- On a basic conversation there is nothing to misread. -/
theorem readRight_basic (h : c.tp.conversationType = .basic) : Along nextMu readRight c q := by
  refine along_of_invariant (G := fun _ _ => True) (I := fun c => c.tp.conversationType = .basic)
    (fun c m c' hc _ hm => (nextMu_type hm).trans hc) (fun c m hc _ _ _ => ?_) h Framework.along_true
  intro n t ht hmis
  have htype : t.c.tp.conversationType = .basic :=
    before_invariant (I := fun t => t.c.tp.conversationType = .basic)
      (fun t v ht hv => (pass_same hv).kept.type.trans ht) hc ht
  exact absurd (htype.symm.trans hmis.1) (by simp)

/-- The MUs that the loop has taken, the last of which gave the type of the chain,
and their data. -/
theorem takeMus_taken {g : Got} (hright : Along nextMu readRight c q)
    (hq : c.rcb.hsToPsBufferQueue = q) (hg : takeMus err false ec c q = some g)
    (hfailed : g.failed = false) (hfmh : g.fmh7 = false) :
    ∃ taken left, q = taken ++ left ∧
      (taken.getLast?.map Mu.hsPsType).getD ec = g.endOfChainType ∧
      (∀ more, g.c.tp.rxBuffer ++ g.c.tp.data (position g.c) (g.rest ++ more) =
        c.tp.rxBuffer ++ c.tp.data (position c) (taken.flatMap Mu.data ++ more)) ∧
      (g.rest = [] → g.c.rcb.hsToPsBufferQueue = left) := by
  induction q generalizing err ec c with
  | nil => cases hg; exact ⟨[], [], rfl, rfl, fun _ => rfl, fun _ => rfl⟩
  | cons m q ih =>
    have hpasses (hpost : c.rcb.postState = .pendPosted) (hm : m.isFmh7 = false) :
        Passes pass (fun t => ¬ misreads t) ⟨{ c with rcb.hsToPsBufferQueue := q }, m⟩ := by
      have hpasses := hright.1 hpost hm
      rwa [hq, List.tail_cons] at hpasses
    cases takesMu hg with
    | posted h => exact ⟨[], m :: q, rfl, rfl, fun _ => rfl, fun _ => rfl⟩
    | fmh7 rc c' h => cases hfmh
    | failed d hd herr => cases hfailed
    | stopped d hpost hm hd herr hreason =>
      have hdone := processData_done hd
      refine ⟨[m], q, rfl, hdone.type.symm, fun more => ?_, hdone.read⟩
      rw [List.flatMap_singleton]
      exact processData_data hd herr (hpasses hpost hm) more
    | read d hpost hm hd herr hreason g h =>
      have hdone := processData_done hd
      have hnext := hright.2 d.c ((nextMu_of_some hpost hm hq hd).trans (if_pos ⟨herr, hreason⟩))
      obtain ⟨taken, left, rfl, htype, hall, hleft⟩ := ih hnext (hdone.read (hdone.freed hreason)) h
      refine ⟨m :: taken, left, rfl, ?_, fun more => ?_, hleft⟩
      · rw [← htype, hdone.type, List.getLast?_cons]
        cases htaken : taken.getLast? with
        | none => rfl
        | some y => rfl
      · have hdata := processData_data hd herr (hpasses hpost hm) (taken.flatMap Mu.data ++ more)
        rw [hdone.freed hreason, List.nil_append] at hdata
        rw [hall, hdata, List.flatMap_cons, List.append_assoc]
        rfl

end TakeMus

/-! ## The end of the chain -/

/-- All of the MUs that were taken off the queue has been read, up to the one that
ends the chain, and what was copied are their data, from the place in a record where
the first of them begins. -/
structure AllRead (p : Position) (c : Conversation) (g : Got) : Prop where
  rest : g.rest = []
  copied : ∃ taken left,
    c.rcb.hsToPsBufferQueue = taken ++ left ∧ g.c.rcb.hsToPsBufferQueue = left ∧
      taken.getLast?.map Mu.hsPsType = some g.endOfChainType ∧
      g.c.tp.rxBuffer = c.tp.rxBuffer ++ c.tp.data p (taken.flatMap Mu.data)

/-- The end of a chain is processed after all data before it, and a Receive that
leaves data of an MU succeeds without a change of the conversation's state or of
the status. The MUs on the queue begin at a place in a record. -/
structure ChainEndAfterData (p : Position) (c : Conversation) : Prop where
  read : c.signal = false → ∀ g, gather c = some g → g.endOfChain = true → AllRead p c g
  unchanged : c.signal = false → ∀ g, gather c = some g → g.rest ≠ [] →
    ∃ c', performReceive c = some (acRcOk, c') ∧ c'.rcb.convState = c.rcb.convState ∧
      c'.tp.statusReceived = c.tp.statusReceived

theorem performReceive_of_gather {c : Conversation} {g : Got} (hs : c.signal = false)
    (hq : c.rcb.hsToPsBufferQueue ≠ []) (hg : gather c = some g) :
    performReceive c = some g.finish := by
  rw [performReceive, if_neg (by simp [hs]), if_neg hq, hg]
  rfl

theorem gather_nil {c : Conversation} {g : Got} (hq : c.rcb.hsToPsBufferQueue = [])
    (hg : gather c = some g) : g.rest = [] := by
  rw [gather, hq] at hg
  cases hg
  rfl

theorem Tp.data_nil (tp : Tp) (p : Position) : tp.data p [] = [] := by
  rw [Tp.data]
  split
  · rfl
  · obtain ⟨header, left⟩ := p
    cases header <;> cases left <;> rfl

theorem allRead {p : Position} {c : Conversation} {g : Got} (hg : gather c = some g)
    (hend : g.endOfChain = true) (hrest : g.rest = [])
    (hright : c.tp.conversationType = .mapped →
      p = position c ∧ Along nextMu readRight c c.rcb.hsToPsBufferQueue) : AllRead p c g where
  rest := hrest
  copied := by
    obtain ⟨⟨hfailed, hfmh⟩, htype⟩ : (g.failed = false ∧ g.fmh7 = false) ∧
        g.endOfChainType ≠ .notEndOfData := by
      simpa [Got.endOfChain] using hend
    have hright' : Along nextMu readRight c c.rcb.hsToPsBufferQueue := by
      cases hconv : c.tp.conversationType with
      | basic => exact readRight_basic hconv
      | mapped => exact (hright hconv).2
    have hplace (bytes : List UInt8) : c.tp.data (position c) bytes = c.tp.data p bytes := by
      cases hconv : c.tp.conversationType with
      | basic => rw [Tp.data_basic hconv, Tp.data_basic hconv]
      | mapped => rw [(hright hconv).1]
    obtain ⟨taken, left, hq, hlast, hall, hleft⟩ := takeMus_taken hright' rfl hg hfailed hfmh
    refine ⟨taken, left, hq, hleft hrest, ?_, ?_⟩
    · cases htaken : taken.getLast? with
      | none => exact absurd (by simpa [htaken] using hlast.symm) htype
      | some m => simpa [htaken] using hlast
    · simpa [hrest, Tp.data_nil, hplace] using hall []

/-- The end of a chain is processed after all data before it if no pass of the copy stops
inside an MU that ends a chain, and on a mapped conversation the place in a record is that
of the stream and no pass misreads a record. A pass that stops inside such an MU breaks it
in any case. -/
theorem chain_end_after_data (p : Position) (c : Conversation) :
    (ChainEndAfterData p c →
      c.signal = false → Along nextMu readWhole c c.rcb.hsToPsBufferQueue) ∧
    ((c.signal = false → Along nextMu readWhole c c.rcb.hsToPsBufferQueue ∧
        (c.tp.conversationType = .mapped →
          p = position c ∧ Along nextMu readRight c c.rcb.hsToPsBufferQueue)) →
      ChainEndAfterData p c) := by
  constructor
  · intro h hs
    exact (takeMus_rest_iff rfl).mp fun g hg hend => (h.read hs g hg hend).rest
  · intro h
    have hrest : c.signal = false → ∀ g, gather c = some g → g.endOfChain = true → g.rest = [] :=
      fun hs => (takeMus_rest_iff rfl).mpr (h hs).1
    refine ⟨fun hs g hg hend => allRead hg hend (hrest hs g hg hend) (h hs).2, fun hs g hg hne => ?_⟩
    have hend : g.endOfChain ≠ true := fun hend => hne (hrest hs g hg hend)
    obtain ⟨herr, hconv, hstatus⟩ := takeMus_kept hg hne
    refine ⟨g.c, ?_, hconv, hstatus⟩
    rw [performReceive_of_gather hs (fun hq => hne (gather_nil hq hg)) hg, Got.finish, if_neg hend,
      herr]

/-- A conversation with confirmation that has received a record of 6 bytes with a
Confirm, and a program that asks for 3 bytes. -/
def confirmBehindData : Conversation :=
  { rcb :=
      { convState := .rcvState
        postState := .pendPosted
        syncLevel := .confirm
        hsToPsBufferQueue :=
          [{ data := [0, 6, 1, 2, 3, 4], hsPsType := .confirm, received := CtrlType.confirm_received }] }
    tp := { conversationType := .basic, rxReqLen := 3 } }

/-- A mapped conversation that has received a record of 256 bytes with the end of the
conversation. -/
def overlongRecord : Conversation :=
  { rcb :=
      { convState := .rcvState
        postState := .pendPosted
        hsToPsBufferQueue :=
          [{ data := [1, 4, 0x12, 0xFF, 1, 0, 0, 0] ++ List.replicate 252 0
             hsPsType := .deallocateFlush
             received := CtrlType.deallocateFlush_received }] }
    tp := { conversationType := .mapped, fill := .buffer, rxReqLen := 300 } }

set_option maxRecDepth 4096 in
/-- The Confirm is processed with 3 bytes still to be read, which fails and ends the
conversation; and the end of a conversation without the first 4 bytes of the record, which
are taken for the header of the next. -/
theorem chain_end_before_data :
    (¬ ChainEndAfterData {} confirmBehindData ∧
      ∃ c', performReceive confirmBehindData = some (acRcResourceFailureNoRetry, c') ∧
        c'.rcb.convState = .endConv ∧ c'.tp.rxBuffer = [0, 6, 1] ∧
        c'.rcb.hsToPsBufferQueue.map Mu.data = [[2, 3, 4]]) ∧
    (¬ ChainEndAfterData {} overlongRecord ∧
      ∃ c', performReceive overlongRecord = some (acRcDeallocateNormal, c') ∧
        c'.tp.rxBuffer = List.replicate 252 0) := by
  have hrest : ∃ g, gather confirmBehindData = some g ∧ g.endOfChain = true ∧ g.rest = [2, 3, 4] :=
    ⟨_, rfl, rfl, rfl⟩
  have hlost : ∃ g, gather overlongRecord = some g ∧ g.endOfChain = true ∧
      g.c.tp.rxBuffer.length = 252 ∧ g.c.rcb.hsToPsBufferQueue = [] :=
    ⟨_, rfl, rfl, rfl, rfl⟩
  refine ⟨⟨fun h => ?_, _, rfl, rfl, rfl, rfl⟩, fun h => ?_, _, rfl, rfl⟩
  · obtain ⟨g, hg, hend, hrest⟩ := hrest
    exact absurd (hrest.symm.trans (h.read rfl g hg hend).rest) (by simp)
  · obtain ⟨g, hg, hend, hlength, hq⟩ := hlost
    obtain ⟨taken, left, htaken, hleft, -, hcopied⟩ := (h.read rfl g hg hend).copied
    rw [← hleft, hq, List.append_nil] at htaken
    rw [← htaken] at hcopied
    have hdata := congrArg List.length hcopied
    rw [hlength] at hdata
    exact absurd hdata (by decide)

end LinuxSna.Ps
