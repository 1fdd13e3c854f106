import LinuxSna.Impl.Sna.Ps.Receive

/-!
# The data of an MU

What `sna_ps_conv_process_data_proc` does with one MU.

* `processData_iff`: the passes that the model makes are enough: a loop that
  they do not end never ends;
* `processData_reads`: on a basic conversation with fill LL, within a record,
  one pass reads as much as the MU has, the record still has and the program
  has room for.
-/

namespace LinuxSna.Ps

open Framework (loop loop_succ_inr ends_iff)

theorem copySize_fst (len left room : Nat) :
    (copySize len left room).1 = min len (min left room) := by
  grind [copySize]

theorem copySize_snd (len left room : Nat) :
    (copySize len left room).2 = true ↔ left ≤ len ∧ left ≤ room := by
  grind [copySize]

/-! ## The parts of the body -/

theorem pass_of_begin {t u : Take} (h : begin t = some u) :
    pass t = turn (endRecord (readRecord u).1) (readRecord u).2 := by
  rw [pass, h]

theorem begin_of_ne {t : Take} (h : t.c.rcb.llRx.state ≠ .none) : begin t = some t := if_neg h

theorem readRecord_incomplete {t : Take} (h : t.c.rcb.llRx.state = .incomplete) :
    readRecord t = (copyData (pullLl t), (pullLl t).size.2) := if_pos h

theorem pullLl_basic {t : Take} (h : t.c.tp.conversationType = .basic) : pullLl t = t :=
  if_neg fun hm => by simp [h] at hm

theorem pullLl_state (t : Take) : (pullLl t).c.rcb.llRx = t.c.rcb.llRx := by
  rw [pullLl]; split <;> rfl

theorem endRecord_last {t : Take} (h : t.size.2 = true) :
    endRecord (copyData t) = { copyData t with c.rcb.llRx := {} } :=
  if_pos (by simp [copyData, LlRx.read, h])

theorem endRecord_not_last {t : Take} (hs : t.c.rcb.llRx.state = .incomplete)
    (h : t.size.2 = false) : endRecord (copyData t) = copyData t :=
  if_neg (by simp [copyData, LlRx.read, h, hs])

/-- The loop goes on with what the pass has left. -/
theorem turn_inl {t v : Take} {llEnd : Bool} (h : turn t llEnd = .inl v) : v = t := by
  rw [turn] at h
  split at h
  · cases h
  · split at h
    · exact (Sum.inl.inj h).symm
    · cases h

/-! ## The loop ends, or stays where it is -/

/-- Nothing is copied. -/
theorem Tp.copy_nil {tp : Tp} {bytes : List UInt8} (h : bytes.length ≤ tp.room)
    (hnil : bytes = []) : tp.copy bytes h = tp := by
  subst hnil
  simp [Tp.copy, ktou, Cpic.maxSnaAddr]

/-- A pass that goes on within a record comes to its end. -/
theorem turn_copyData {t v : Take} (hs : t.c.rcb.llRx.state = .incomplete)
    (h : turn (endRecord (copyData t)) t.size.2 = .inl v) :
    t.size.1 = t.c.rcb.llRx.left ∧ v = { copyData t with c.rcb.llRx := {} } := by
  have hn : t.size.1 = min _ (min _ _) := copySize_fst _ _ _
  have hsize := copySize_snd t.mu.data.length t.c.rcb.llRx.left t.c.tp.room
  cases hend : t.size.2 with
  | true =>
    have hle := hsize.mp hend
    rw [endRecord_last hend] at h
    exact ⟨by omega, turn_inl h⟩
  | false =>
    have hnot : ¬ (t.c.rcb.llRx.left ≤ t.mu.data.length ∧ t.c.rcb.llRx.left ≤ t.c.tp.room) :=
      fun hle => absurd (hend.symm.trans (hsize.mpr hle)) (by simp)
    rw [endRecord_not_last hs hend, turn] at h
    split at h
    · cases h
    · rename_i hgo
      split at h
      · rename_i hdata
        -- the MU has more and the program has room, so the record has ended
        have hfull : t.c.tp.rxReqLen ≠ t.c.tp.rxRcvLen + (t.mu.data.take t.size.1).length :=
          fun he => hgo (Or.inr he)
        have hmore : t.size.1 < t.mu.data.length := by
          by_contra hle
          exact hdata (List.drop_eq_nil_of_le (by omega))
        have hle := t.c.tp.le
        rw [List.length_take] at hfull
        simp only [Tp.room] at hn hnot
        exact absurd ⟨by omega, by omega⟩ hnot
      · cases h

theorem startRecord_some {t u : Take} (h : startRecord t = some u) :
    2 ≤ t.mu.data.length ∧ u.mu = t.mu ∧ u.c.rcb.llRx.state = .incomplete ∧
      (u.c.tp.conversationType = .mapped → u.c.tp.rxMcLlPullLeft = 4) ∧
      (u.c.tp.conversationType = .basic →
        u = { t with c.rcb.llRx := .start (llSize t.mu.data) }) := by
  rw [startRecord] at h
  split at h
  · cases h
  · split at h
    · cases h
    · rename_i hlen _
      cases htype : t.c.tp.conversationType with
      | basic =>
        rw [htype] at h
        cases h
        exact ⟨by omega, rfl, rfl, by simp [htype], fun _ => rfl⟩
      | mapped =>
        rw [htype] at h
        cases h
        exact ⟨by omega, rfl, rfl, fun _ => rfl, by simp [htype]⟩

theorem length_pullLl (t : Take) : (pullLl t).mu.data.length ≤ t.mu.data.length := by
  rw [pullLl]; split <;> simp

/-- A record of no bytes ends, and nothing else changes. -/
theorem copyData_nothing {t : Take} (h : t.size.1 = 0) :
    ({ copyData t with c.rcb.llRx := {} } : Take) = { t with c.rcb.llRx := {} } := by
  have hmu : (copyData t).mu = t.mu := by simp [copyData, h]
  have hnil : t.mu.data.take t.size.1 = [] := by rw [h, List.take_zero]
  have htp : (copyData t).c.tp = t.c.tp := Tp.copy_nil (by simp [hnil]) hnil
  have hcopy : ({ copyData t with c.rcb.llRx := {} } : Take) =
      ⟨{ t.c with rcb.llRx := {}, tp := (copyData t).c.tp }, (copyData t).mu⟩ := rfl
  rw [hcopy, htp, hmu]

/-- A record of no bytes is read over and over. -/
theorem pass_stuck {t u v : Take} (hs : t.c.rcb.llRx.state = .none)
    (hstart : startRecord t = some u) (hbasic : u.c.tp.conversationType = .basic)
    (hleft : u.size.1 = 0) (hv : v = { copyData u with c.rcb.llRx := {} })
    (hpass : pass t = .inl v) : pass v = .inl v := by
  obtain ⟨-, -, -, -, hu⟩ := startRecord_some hstart
  have hv' : v = { t with c.rcb.llRx := {} } := by
    rw [hv, copyData_nothing hleft, hu hbasic]
  have hbegin : begin v = some u := by
    rw [hv']
    exact hstart
  rw [pass_of_begin ((if_pos hs).trans hstart)] at hpass
  rw [pass_of_begin hbegin, hpass]

/-- A pass that goes on has read something, or ended a record, or the next is the
same. -/
theorem pass_measure {t v : Take} (h : pass t = .inl v) :
    v.measure < t.measure ∨ pass v = .inl v := by
  cases hs : t.c.rcb.llRx.state with
  | none =>
    have hbegin : begin t = startRecord t := if_pos hs
    cases hstart : startRecord t with
    | none => rw [pass, hbegin, hstart] at h; cases h
    | some u =>
      obtain ⟨hlen, hmu, hu, hmapped, -⟩ := startRecord_some hstart
      have hturn := h
      rw [pass_of_begin (hbegin.trans hstart), readRecord_incomplete hu] at hturn
      obtain ⟨hn, hv⟩ := turn_copyData ((congrArg LlRx.state (pullLl_state u)).trans hu) hturn
      have hvlen : v.mu.data.length = (pullLl u).mu.data.length - (pullLl u).size.1 := by
        rw [hv]; exact List.length_drop
      have hvs : v.c.rcb.llRx.state = .none := by rw [hv]
      have hpull := length_pullLl u
      rw [hmu] at hpull
      simp only [Take.measure, hs, hvs, ite_true]
      cases htype : u.c.tp.conversationType with
      | mapped =>
        left
        have : (pullLl u).mu.data.length = t.mu.data.length - 4 := by
          rw [pullLl, if_pos ⟨htype, by simp [hmapped htype]⟩, hmapped htype, ← hmu]
          exact List.length_drop
        omega
      | basic =>
        rw [pullLl_basic htype] at hn hv hvlen hpull
        by_cases hzero : u.size.1 = 0
        · exact Or.inr (pass_stuck hs hstart htype hzero hv h)
        · left
          have := (copySize_le u.mu.data.length u.c.rcb.llRx.left u.c.tp.room).1
          have : u.size.1 ≤ u.mu.data.length := this
          rw [hmu] at *
          omega
  | incomplete =>
    left
    rw [pass_of_begin (begin_of_ne (by simp [hs])), readRecord_incomplete hs] at h
    obtain ⟨-, hv⟩ := turn_copyData ((congrArg LlRx.state (pullLl_state t)).trans hs) h
    have hvs : v.c.rcb.llRx.state = .none := by rw [hv]
    have hvlen : v.mu.data.length = (pullLl t).mu.data.length - (pullLl t).size.1 := by
      rw [hv]; exact List.length_drop
    have := length_pullLl t
    simp only [Take.measure, hs, hvs, ite_true, reduceCtorEq, ite_false]
    omega
  | complete =>
    left
    have hread : readRecord t = (t, false) := if_neg (by simp [hs])
    have hend : endRecord t = { t with c.rcb.llRx := {} } := if_pos hs
    rw [pass_of_begin (begin_of_ne (by simp [hs])), hread, hend] at h
    simp [Take.measure, hs, turn_inl h]

/-- The passes that the model makes are enough. -/
theorem processData_iff {c : Conversation} {m : Mu} {d : Data} :
    (∃ n, loop pass n ⟨c, m⟩ = some d) ↔ processData c m = some d :=
  ends_iff fun _ _ => pass_measure

/-! ## Fill LL on a basic conversation -/

/-- The bytes on the queue, MU by MU. -/
def pieces (c : Conversation) : List (List UInt8) := c.rcb.hsToPsBufferQueue.map Mu.data

/-- How much a call reads of the MU within a record. -/
def readSize (c : Conversation) (m : Mu) : Nat :=
  min m.data.length (min c.rcb.llRx.left c.tp.room)

/-- What a call leaves that reads on in a record. -/
structure Reads (c : Conversation) (m : Mu) (d : Data) : Prop where
  err : d.err = acRcOk
  type : d.c.tp.conversationType = c.tp.conversationType
  fill : d.c.tp.fill = c.tp.fill
  copied : d.c.tp.rxBuffer = c.tp.rxBuffer ++ m.data.take (readSize c m)
  asked : d.c.tp.rxReqLen = c.tp.rxReqLen
  received : d.c.tp.rxRcvLen = c.tp.rxRcvLen + readSize c m
  pieces : pieces d.c =
    if m.data.drop (readSize c m) = [] then pieces c
    else m.data.drop (readSize c m) :: pieces c
  /-- The record ends. -/
  last : readSize c m = c.rcb.llRx.left →
    d.reason ≠ .none ∧ d.c.tp.dataReceived = acWrDataComplete ∧ d.c.rcb.llRx.state = .none
  /-- The record goes on. -/
  within : readSize c m < c.rcb.llRx.left →
    d.c.tp.dataReceived ≠ acWrDataComplete ∧ d.c.rcb.llRx.state = .incomplete ∧
      d.c.rcb.llRx.left = c.rcb.llRx.left - readSize c m
  /-- The Receive goes on. -/
  goesOn : d.reason = .none → readSize c m < c.tp.room

section Copy

variable (c : Conversation) (m : Mu)

theorem readSize_le : readSize c m ≤ m.data.length ∧ readSize c m ≤ c.rcb.llRx.left ∧
    readSize c m ≤ c.tp.room := by
  rw [readSize]; omega

theorem size_fst : (⟨c, m⟩ : Take).size.1 = readSize c m := copySize_fst _ _ _

/-- Too little is copied at once for `sna_ktou` to refuse it. -/
theorem ktou_take : ktou (m.data.take (readSize c m)) = m.data.take (readSize c m) := by
  have hlt := c.rcb.llRx.lt
  have hle := (readSize_le c m).2.1
  apply if_neg
  rw [List.length_take, Cpic.maxSnaAddr]
  rw [LlRx.left] at hle
  omega

theorem copyData_data : (copyData ⟨c, m⟩).mu.data = m.data.drop (readSize c m) := by
  simp [copyData, size_fst]

theorem copyData_rxBuffer :
    (copyData ⟨c, m⟩).c.tp.rxBuffer = c.tp.rxBuffer ++ m.data.take (readSize c m) := by
  simp [copyData, Tp.copy, size_fst, ktou_take]

theorem copyData_rxRcvLen :
    (copyData ⟨c, m⟩).c.tp.rxRcvLen = c.tp.rxRcvLen + readSize c m := by
  have := (readSize_le c m).1
  simp [copyData, Tp.copy, size_fst, this]

theorem copyData_left :
    (copyData ⟨c, m⟩).c.rcb.llRx.left = c.rcb.llRx.left - readSize c m := by
  simp only [copyData, LlRx.read, LlRx.left, size_fst]
  omega

/-- The program has all that it asked for exactly if there was just the room. -/
theorem copyData_full :
    (copyData ⟨c, m⟩).c.tp.rxReqLen = (copyData ⟨c, m⟩).c.tp.rxRcvLen ↔
      readSize c m = c.tp.room := by
  have hle := c.tp.le
  have hroom := (readSize_le c m).2.2
  rw [copyData_rxRcvLen]
  show c.tp.rxReqLen = _ ↔ _
  rw [Tp.room] at hroom ⊢
  omega

end Copy

theorem pieces_toProgram {t : Take} {llEnd : Bool} :
    pieces (toProgram t llEnd).c =
      if t.mu.data = [] then pieces t.c else t.mu.data :: pieces t.c := by
  by_cases h : t.mu.data = [] <;> simp [toProgram, pieces, h]

/-- The record ends. -/
theorem reads_last {c : Conversation} {m : Mu} (hfill : c.tp.fill = .ll)
    (hn : readSize c m = c.rcb.llRx.left) :
    Reads c m (toProgram { copyData ⟨c, m⟩ with c.rcb.llRx := {} } true) where
  err := rfl
  type := rfl
  fill := rfl
  copied := copyData_rxBuffer c m
  asked := rfl
  received := copyData_rxRcvLen c m
  pieces := by rw [pieces_toProgram, copyData_data]; rfl
  last _ := by
    have hll : (copyData ⟨c, m⟩).c.tp.fill = .ll := hfill
    simp [toProgram, hll]
  within hlt := absurd hn (Nat.ne_of_lt hlt)
  goesOn hreason := by
    have hll : (copyData ⟨c, m⟩).c.tp.fill = .ll := hfill
    simp [toProgram, hll] at hreason

/-- The program has what it asked for. -/
theorem reads_full {c : Conversation} {m : Mu} (hfill : c.tp.fill = .ll)
    (hstate : c.rcb.llRx.state = .incomplete) (hend : (⟨c, m⟩ : Take).size.2 = false)
    (hn : readSize c m ≠ c.rcb.llRx.left) :
    Reads c m (toProgram (copyData ⟨c, m⟩) false) where
  err := rfl
  type := rfl
  fill := rfl
  copied := copyData_rxBuffer c m
  asked := rfl
  received := copyData_rxRcvLen c m
  pieces := by rw [pieces_toProgram, copyData_data]; rfl
  last h := absurd h hn
  within _ := by
    have hll : (copyData ⟨c, m⟩).c.tp.fill = .ll := hfill
    refine ⟨by simp [toProgram, hll, acWrDataIncomplete, acWrDataComplete], ?_, copyData_left c m⟩
    simp [toProgram, copyData, LlRx.read, hend, hstate]
  goesOn hreason := by simp [toProgram] at hreason

/-- The MU has no more. -/
theorem reads_freed {c : Conversation} {m : Mu} (hstate : c.rcb.llRx.state = .incomplete)
    (hnew : c.tp.dataReceived ≠ acWrDataComplete) (hend : (⟨c, m⟩ : Take).size.2 = false)
    (hn : readSize c m ≠ c.rcb.llRx.left) (hroom : readSize c m ≠ c.tp.room)
    (hdata : m.data.drop (readSize c m) = []) :
    Reads c m (freed (copyData ⟨c, m⟩) acRcOk) where
  err := rfl
  type := rfl
  fill := rfl
  copied := copyData_rxBuffer c m
  asked := rfl
  received := copyData_rxRcvLen c m
  pieces := by rw [if_pos hdata]; rfl
  last h := absurd h hn
  within _ := ⟨hnew, by simp [freed, copyData, LlRx.read, hend, hstate], copyData_left c m⟩
  goesOn _ := by have := (readSize_le c m).2.2; omega

/-- A call that goes on has room, and has not come to the end of a record. -/
theorem Reads.more {c : Conversation} {m : Mu} {d : Data} (h : Reads c m d)
    (hr : d.reason = .none) : 0 < d.c.tp.room ∧ d.c.tp.dataReceived ≠ acWrDataComplete := by
  have hroom := h.goesOn hr
  have hle := readSize_le c m
  have hleft : d.c.tp.room = c.tp.rxReqLen - (c.tp.rxRcvLen + readSize c m) := by
    rw [Tp.room, h.asked, h.received]
  refine ⟨?_, fun hc => ?_⟩
  · rw [hleft]
    rw [Tp.room] at hroom
    omega
  · by_cases hn : readSize c m = c.rcb.llRx.left
    · exact (h.last hn).1 hr
    · exact (h.within (by omega)).1 hc

/-- The same, with what else a mapped conversation is interested in. -/
structure Strips (c : Conversation) (m : Mu) (d : Data) : Prop extends Reads c m d where
  pull : d.c.tp.rxMcLlPullLeft = c.tp.rxMcLlPullLeft
  full : d.reason ≠ .none → readSize c m ≠ c.rcb.llRx.left →
    d.c.tp.dataReceived = acWrDataIncomplete

/-- What is copied, once the fields before the data are gone. -/
theorem turn_strips {c : Conversation} {m : Mu} (hfill : c.tp.fill = .ll)
    (hstate : c.rcb.llRx.state = .incomplete) (hnew : c.tp.dataReceived ≠ acWrDataComplete) :
    ∃ d, turn (endRecord (copyData ⟨c, m⟩)) (⟨c, m⟩ : Take).size.2 = .inr d ∧ Strips c m d := by
  have hll : (copyData ⟨c, m⟩).c.tp.fill = .ll := hfill
  have hsize := copySize_snd m.data.length c.rcb.llRx.left c.tp.room
  cases hend : (⟨c, m⟩ : Take).size.2 with
  | true =>
    have hn : readSize c m = c.rcb.llRx.left := by
      have hle := hsize.mp hend
      rw [readSize]; omega
    rw [endRecord_last hend, turn, if_pos (Or.inl ⟨hfill, rfl⟩)]
    exact ⟨_, rfl, reads_last hfill hn, rfl, fun _ hne => absurd hn hne⟩
  | false =>
    have hn : readSize c m ≠ c.rcb.llRx.left := fun hn => by
      have hle := readSize_le c m
      have := hsize.mpr ⟨by omega, by omega⟩
      exact absurd (hend.symm.trans this) (by simp)
    rw [endRecord_not_last hstate hend, turn]
    by_cases hfull : readSize c m = c.tp.room
    · rw [if_pos (Or.inr ((copyData_full c m).mpr hfull))]
      exact ⟨_, rfl, reads_full hfill hstate hend hn, rfl, fun _ _ => by simp [toProgram, hll]⟩
    · have hdata : m.data.drop (readSize c m) = [] := by
        have hle := readSize_le c m
        apply List.drop_eq_nil_of_le
        rw [readSize] at hn hfull ⊢
        omega
      rw [if_neg (by simp [copyData_full, hfull]), if_neg (by simp [copyData_data, hdata])]
      exact ⟨_, rfl, reads_freed hstate hnew hend hn hfull hdata, rfl, fun hr => absurd rfl hr⟩

/-- Within a record one pass is all. -/
theorem pass_reads {c : Conversation} {m : Mu}
    (hbasic : c.tp.conversationType = .basic) (hfill : c.tp.fill = .ll)
    (hstate : c.rcb.llRx.state = .incomplete) (hnew : c.tp.dataReceived ≠ acWrDataComplete) :
    ∃ d, pass ⟨c, m⟩ = .inr d ∧ Reads c m d := by
  obtain ⟨d, hturn, hd⟩ := turn_strips (m := m) hfill hstate hnew
  refine ⟨d, ?_, hd.toReads⟩
  rw [pass_of_begin (begin_of_ne (t := ⟨c, m⟩) (by simp [hstate])), readRecord_incomplete hstate,
    pullLl_basic hbasic, hturn]

theorem processData_reads {c : Conversation} {m : Mu}
    (hbasic : c.tp.conversationType = .basic) (hfill : c.tp.fill = .ll)
    (hstate : c.rcb.llRx.state = .incomplete) (hnew : c.tp.dataReceived ≠ acWrDataComplete) :
    ∃ d, processData c m = some d ∧ Reads c m d := by
  obtain ⟨d, hpass, hd⟩ := pass_reads (m := m) hbasic hfill hstate hnew
  exact ⟨d, loop_succ_inr hpass, hd⟩

/-- At the start of a record: the same, with the size of the record in 8 bits. -/
theorem processData_starts {c : Conversation} {m : Mu}
    (hbasic : c.tp.conversationType = .basic) (hfill : c.tp.fill = .ll)
    (hstate : c.rcb.llRx.state = .none) (hnew : c.tp.dataReceived ≠ acWrDataComplete)
    (hlen : 2 ≤ m.data.length) (hll : 2 ≤ llSize m.data ∧ llSize m.data ≤ 32767) :
    ∃ d, processData c m = some d ∧
      Reads { c with rcb.llRx := .start (llSize m.data) } m d := by
  have hstart : startRecord ⟨c, m⟩ =
      some ⟨{ c with rcb.llRx := .start (llSize m.data) }, m⟩ := by
    have hshort : ¬ m.data.length < 2 := by omega
    have hbad : ¬ (llSize m.data < 2 ∨ llSize m.data > 32767) := by omega
    rw [startRecord, if_neg hshort, if_neg hbad, hbasic]
  obtain ⟨d, hpass, hd⟩ := pass_reads (c := { c with rcb.llRx := .start (llSize m.data) }) (m := m)
    hbasic hfill rfl hnew
  rw [pass_of_begin (begin_of_ne (by simp [LlRx.start]))] at hpass
  have hbegin : begin ⟨c, m⟩ = _ := (if_pos hstate).trans hstart
  exact ⟨d, loop_succ_inr ((pass_of_begin hbegin).trans hpass), hd⟩

/-- At the start of a record an MU without its LL field is given up. -/
theorem processData_short {c : Conversation} {m : Mu} (hstate : c.rcb.llRx.state = .none)
    (hlen : m.data.length < 2) :
    processData c m = some (freed ⟨c, m⟩ acRcUnsuccessful) := by
  have hbegin : begin ⟨c, m⟩ = none := (if_pos hstate).trans (if_pos hlen)
  apply loop_succ_inr
  rw [pass, hbegin]

end LinuxSna.Ps
