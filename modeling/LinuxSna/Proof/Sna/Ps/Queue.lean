import LinuxSna.Proof.Sna.Ps.Data
import LinuxSna.Proof.Sna.Ps.Fsm

/-!
# The queue of MUs

What processing an MU leaves alone, and the loop of
`sna_ps_conv_perform_receive_processing` over the queue.

* `processData_done`: what is known of an MU that has been processed;
* `takeMus_kept`: a rest of an MU is left only by a loop that went well;
* `takeMus_pendPosted`: a loop that has not posted has emptied the queue;
* `takeMus_first`: the loop makes the queue shorter, or has given the program what
  it asked for.
-/

namespace LinuxSna.Ps

open Framework (loop_last before_invariant)

/-! ## What processing an MU keeps -/

/-- The states of the conversation are the same, its type and the status
received. -/
structure Kept (c c' : Conversation) : Prop where
  type : c'.tp.conversationType = c.tp.conversationType
  convState : c'.rcb.convState = c.rcb.convState
  errState : c'.rcb.errState = c.rcb.errState
  postState : c'.rcb.postState = c.rcb.postState
  status : c'.tp.statusReceived = c.tp.statusReceived
  rm : c'.rcb.rmToPsQueue = c.rcb.rmToPsQueue
  hs : c'.rcb.hsToPsQueue = c.rcb.hsToPsQueue
  arrivals : c'.arrivals = c.arrivals
  signal : c'.signal = c.signal
  marks : c'.marks = c.marks

theorem Kept.trans {c c' c'' : Conversation} (h : Kept c c') (h' : Kept c' c'') : Kept c c'' where
  type := h'.type.trans h.type
  convState := h'.convState.trans h.convState
  errState := h'.errState.trans h.errState
  postState := h'.postState.trans h.postState
  status := h'.status.trans h.status
  rm := h'.rm.trans h.rm
  hs := h'.hs.trans h.hs
  arrivals := h'.arrivals.trans h.arrivals
  signal := h'.signal.trans h.signal
  marks := h'.marks.trans h.marks

theorem Kept.refl (c : Conversation) : Kept c c := ⟨rfl, rfl, rfl, rfl, rfl, rfl, rfl, rfl, rfl, rfl⟩

theorem Kept.queue (c : Conversation) (q : List Mu) :
    Kept c { c with rcb.hsToPsBufferQueue := q } :=
  ⟨rfl, rfl, rfl, rfl, rfl, rfl, rfl, rfl, rfl, rfl⟩

/-- In a pass also the queue, and the type of the MU. -/
structure Same (t u : Take) : Prop where
  kept : Kept t.c u.c
  queue : u.c.rcb.hsToPsBufferQueue = t.c.rcb.hsToPsBufferQueue
  type : u.mu.hsPsType = t.mu.hsPsType

theorem Same.refl (t : Take) : Same t t := ⟨Kept.refl t.c, rfl, rfl⟩

theorem Same.trans {t u v : Take} (h : Same t u) (h' : Same u v) : Same t v where
  kept := h.kept.trans h'.kept
  queue := h'.queue.trans h.queue
  type := h'.type.trans h.type

theorem startRecord_same {t u : Take} (h : startRecord t = some u) : Same t u := by
  rw [startRecord] at h
  split at h
  · cases h
  · split at h
    · cases h
    · split at h <;> cases h <;> exact ⟨⟨rfl, rfl, rfl, rfl, rfl, rfl, rfl, rfl, rfl, rfl⟩, rfl, rfl⟩

theorem begin_same {t u : Take} (h : begin t = some u) : Same t u := by
  rw [begin] at h
  split at h
  · exact startRecord_same h
  · cases h; exact Same.refl t

theorem pullLl_same (t : Take) : Same t (pullLl t) := by
  rw [pullLl]; split <;> exact ⟨⟨rfl, rfl, rfl, rfl, rfl, rfl, rfl, rfl, rfl, rfl⟩, rfl, rfl⟩

theorem copyData_same (t : Take) : Same t (copyData t) :=
  ⟨⟨rfl, rfl, rfl, rfl, rfl, rfl, rfl, rfl, rfl, rfl⟩, rfl, rfl⟩

theorem readRecord_same (t : Take) : Same t (readRecord t).1 := by
  rw [readRecord]
  split
  · exact (pullLl_same t).trans (copyData_same _)
  · exact Same.refl t

theorem endRecord_same (t : Take) : Same t (endRecord t) := by
  rw [endRecord]; split <;> exact ⟨⟨rfl, rfl, rfl, rfl, rfl, rfl, rfl, rfl, rfl, rfl⟩, rfl, rfl⟩

/-- What the procedure leaves, whatever it has read. -/
structure Done (t : Take) (d : Data) : Prop where
  kept : Kept t.c d.c
  type : d.endOfChainType = t.mu.hsPsType
  freed : d.reason = .none → d.rest = []
  stopped : d.reason ≠ .none → d.err = acRcOk
  read : d.rest = [] → d.c.rcb.hsToPsBufferQueue = t.c.rcb.hsToPsBufferQueue
  queue : d.c.rcb.hsToPsBufferQueue.length ≤ t.c.rcb.hsToPsBufferQueue.length + 1

theorem freed_done (t : Take) (err : Rc) : Done t (freed t err) :=
  ⟨⟨rfl, rfl, rfl, rfl, rfl, rfl, rfl, rfl, rfl, rfl⟩, rfl, fun _ => rfl, fun h => absurd rfl h, fun _ => rfl,
    Nat.le_succ _⟩

theorem toProgram_done (t : Take) (llEnd : Bool) : Done t (toProgram t llEnd) := by
  refine ⟨⟨rfl, rfl, rfl, rfl, rfl, rfl, rfl, rfl, rfl, rfl⟩, rfl, fun h => absurd h ?_, fun _ => rfl,
    fun h => if_neg (not_not.mpr h), ?_⟩
  · rw [toProgram]
    dsimp only
    split <;> simp
  · rw [toProgram]
    dsimp only
    split <;> simp

theorem Same.done {t u : Take} {d : Data} (h : Same t u) (hd : Done u d) : Done t d where
  kept := h.kept.trans hd.kept
  type := hd.type.trans h.type
  freed := hd.freed
  stopped := hd.stopped
  read hr := (hd.read hr).trans h.queue
  queue := h.queue ▸ hd.queue

theorem turn_done {t : Take} {llEnd : Bool} {d : Data} (h : turn t llEnd = .inr d) : Done t d := by
  rw [turn] at h
  split at h
  · exact Sum.inr.inj h ▸ toProgram_done t llEnd
  · split at h
    · cases h
    · exact Sum.inr.inj h ▸ freed_done t acRcOk

theorem pass_same {t v : Take} (h : pass t = .inl v) : Same t v := by
  rw [pass] at h
  split at h
  · cases h
  · rename_i u hbegin
    rw [turn_inl h]
    exact ((begin_same hbegin).trans (readRecord_same u)).trans (endRecord_same _)

theorem pass_done {t : Take} {d : Data} (h : pass t = .inr d) : Done t d := by
  rw [pass] at h
  split at h
  · exact Sum.inr.inj h ▸ freed_done t acRcUnsuccessful
  · rename_i u hbegin
    have hsame := ((begin_same hbegin).trans (readRecord_same u)).trans (endRecord_same _)
    exact hsame.done (turn_done h)

theorem processData_done {c : Conversation} {m : Mu} {d : Data} (h : processData c m = some d) :
    Done ⟨c, m⟩ d := by
  obtain ⟨k, t, hk, ht⟩ := loop_last h
  have hsame : Same ⟨c, m⟩ t :=
    before_invariant (fun _ _ hs hb => hs.trans (pass_same hb)) (Same.refl _) hk
  exact hsame.done (pass_done ht)

/-! ## What is received -/

theorem begin_dataReceived {t u : Take} (h : begin t = some u) :
    u.c.tp.dataReceived = t.c.tp.dataReceived := by
  rw [begin] at h
  split at h
  · rw [startRecord] at h
    split at h
    · cases h
    · split at h
      · cases h
      · split at h <;> cases h <;> rfl
  · cases h
    rfl

theorem readRecord_dataReceived (t : Take) :
    (endRecord (readRecord t).1).c.tp.dataReceived = t.c.tp.dataReceived := by
  have hpull : (pullLl t).c.tp.dataReceived = t.c.tp.dataReceived := by
    rw [pullLl]
    split <;> rfl
  have hend (u : Take) : (endRecord u).c.tp.dataReceived = u.c.tp.dataReceived := by
    rw [endRecord]
    split <;> rfl
  rw [hend, readRecord]
  split
  · exact hpull
  · rfl

/-- What is received is set where control goes back to the program, and only there. -/
def Receives (dr : Nat) (a : Data) : Prop :=
  (a.reason = .none → a.c.tp.dataReceived = dr) ∧
    (a.reason ≠ .none → a.c.tp.dataReceived ∈ [acWrData, acWrDataComplete, acWrDataIncomplete])

theorem turn_receives {t : Take} {llEnd : Bool} {a : Data} (h : turn t llEnd = .inr a) :
    Receives t.c.tp.dataReceived a := by
  rw [turn] at h
  split at h
  · obtain rfl := Sum.inr.inj h
    constructor
    · intro hreason
      simp only [toProgram] at hreason
      split at hreason <;> cases hreason
    · intro _
      simp only [toProgram]
      split_ifs <;> decide
  · split at h
    · cases h
    · obtain rfl := Sum.inr.inj h
      exact ⟨fun _ => rfl, fun hreason => absurd rfl hreason⟩

theorem processData_receives {c : Conversation} {m : Mu} {a : Data} (h : processData c m = some a) :
    Receives c.tp.dataReceived a := by
  obtain ⟨k, t, hk, ht⟩ := loop_last h
  have hkept : t.c.tp.dataReceived = c.tp.dataReceived := by
    refine before_invariant (I := fun t : Take => t.c.tp.dataReceived = c.tp.dataReceived)
      (fun t v htc hv => ?_) rfl hk
    rw [pass] at hv
    split at hv
    · cases hv
    · rename_i u hu
      rw [turn_inl hv, readRecord_dataReceived, begin_dataReceived hu, htc]
  rw [pass] at ht
  split at ht
  · obtain rfl := Sum.inr.inj ht
    exact ⟨fun _ => hkept, fun hreason => absurd rfl hreason⟩
  · rename_i u hu
    have hreceives := turn_receives ht
    rwa [readRecord_dataReceived, begin_dataReceived hu, hkept] at hreceives

/-! ## The loop over the queue -/

section TakeMus

variable {q : List Mu} {m : Mu} {err : Rc} {fmh7 : Bool} {ec : CtrlType} {c : Conversation}

theorem takeMus_of_ne (h : c.rcb.postState ≠ .pendPosted) :
    takeMus err fmh7 ec c (m :: q) =
      some ⟨false, err, fmh7, ec, { c with rcb.hsToPsBufferQueue := m :: q }, []⟩ := by
  rw [takeMus, if_pos h]

theorem takeMus_of_fmh7 (h : c.rcb.postState = .pendPosted) (hm : m.isFmh7 = true) :
    takeMus err fmh7 ec c (m :: q) =
      takeMus (processFmh7 (fsmPost { c with rcb.hsToPsBufferQueue := q } .post) m.data).1 true ec
        (processFmh7 (fsmPost { c with rcb.hsToPsBufferQueue := q } .post) m.data).2 q := by
  rw [takeMus, if_neg (not_not.mpr h), if_pos hm]

theorem takeMus_of_none (h : c.rcb.postState = .pendPosted) (hm : m.isFmh7 = false)
    (hd : processData { c with rcb.hsToPsBufferQueue := q } m = none) :
    takeMus err fmh7 ec c (m :: q) = none := by
  rw [takeMus, if_neg (not_not.mpr h), if_neg (by simp [hm]), hd]

theorem takeMus_of_some {d : Data} (h : c.rcb.postState = .pendPosted) (hm : m.isFmh7 = false)
    (hd : processData { c with rcb.hsToPsBufferQueue := q } m = some d) :
    takeMus err fmh7 ec c (m :: q) =
      if d.err ≠ acRcOk then
        some ⟨true, d.err, fmh7, d.endOfChainType, fsmPost d.c .post, d.rest⟩
      else if d.reason ≠ .none then
        some ⟨false, d.err, fmh7, d.endOfChainType, fsmPost d.c .post, d.rest⟩
      else takeMus d.err fmh7 d.endOfChainType d.c q := by
  rw [takeMus, if_neg (not_not.mpr h), if_neg (by simp [hm]), hd]

/-- How the loop goes on from an MU. An FMH-7 posts, so that it is the last to be
taken. -/
inductive TakesMu (err : Rc) (fmh7 : Bool) (ec : CtrlType) (c : Conversation) (m : Mu)
    (q : List Mu) : Got → Prop where
  | posted (h : c.rcb.postState ≠ .pendPosted) :
    TakesMu err fmh7 ec c m q ⟨false, err, fmh7, ec, { c with rcb.hsToPsBufferQueue := m :: q }, []⟩
  | fmh7 (rc : Rc) (c' : Conversation) (h : c'.rcb.postState ≠ .pendPosted) :
    TakesMu err fmh7 ec c m q ⟨false, rc, true, ec, { c' with rcb.hsToPsBufferQueue := q }, []⟩
  | failed (d : Data) (hd : processData { c with rcb.hsToPsBufferQueue := q } m = some d)
    (herr : d.err ≠ acRcOk) :
    TakesMu err fmh7 ec c m q ⟨true, d.err, fmh7, d.endOfChainType, fsmPost d.c .post, d.rest⟩
  | stopped (d : Data) (hpost : c.rcb.postState = .pendPosted) (hm : m.isFmh7 = false)
    (hd : processData { c with rcb.hsToPsBufferQueue := q } m = some d) (herr : d.err = acRcOk)
    (hreason : d.reason ≠ .none) :
    TakesMu err fmh7 ec c m q ⟨false, d.err, fmh7, d.endOfChainType, fsmPost d.c .post, d.rest⟩
  | read (d : Data) (hpost : c.rcb.postState = .pendPosted) (hm : m.isFmh7 = false)
    (hd : processData { c with rcb.hsToPsBufferQueue := q } m = some d) (herr : d.err = acRcOk)
    (hreason : d.reason = .none) (g : Got) (h : takeMus d.err fmh7 d.endOfChainType d.c q = some g) : TakesMu err fmh7 ec c m q g

theorem takesMu {g : Got} (hg : takeMus err fmh7 ec c (m :: q) = some g) :
    TakesMu err fmh7 ec c m q g := by
  by_cases hpost : c.rcb.postState = .pendPosted
  · cases hm : m.isFmh7 with
    | true =>
      have hposted : (processFmh7 (fsmPost { c with rcb.hsToPsBufferQueue := q } .post)
          m.data).2.rcb.postState ≠ .pendPosted := by
        rw [processFmh7_postState]
        exact fsmPost_post _
      rw [takeMus_of_fmh7 hpost hm] at hg
      cases q with
      | nil => cases hg; exact .fmh7 _ _ hposted
      | cons m' q =>
        rw [takeMus_of_ne hposted] at hg
        cases hg
        exact .fmh7 _ _ hposted
    | false =>
      cases hd : processData { c with rcb.hsToPsBufferQueue := q } m with
      | none => rw [takeMus_of_none hpost hm hd] at hg; cases hg
      | some d =>
        rw [takeMus_of_some hpost hm hd] at hg
        split at hg
        · rename_i herr
          cases hg
          exact .failed d hd herr
        · rename_i herr
          split at hg
          · rename_i hreason
            cases hg
            exact .stopped d hpost hm hd (not_not.mp herr) hreason
          · rename_i hreason
            exact .read d hpost hm hd (not_not.mp herr) (not_not.mp hreason) g hg
  · rw [takeMus_of_ne hpost] at hg
    cases hg
    exact .posted hpost

theorem takeMus_fmh7 {g : Got} (hg : takeMus err true ec c q = some g) : g.fmh7 = true := by
  induction q generalizing err ec c with
  | nil => cases hg; rfl
  | cons m q ih =>
    cases takesMu hg with
    | posted h => rfl
    | fmh7 rc c' h => rfl
    | failed d hd herr => rfl
    | stopped d hpost hm hd herr hreason => rfl
    | read d hpost hm hd herr hreason g h => exact ih h

/-- Once an FMH-7 was met, no end of a chain is processed. -/
theorem endOfChain_of_fmh7 {g : Got} (h : g.fmh7 = true) : g.endOfChain = false := by
  simp [Got.endOfChain, h]

theorem Done.failed {t : Take} {d : Data} (h : Done t d) (herr : d.err ≠ acRcOk) : d.rest = [] := by
  have hreason : d.reason = .none := by
    by_contra hr
    exact herr (h.stopped hr)
  exact h.freed hreason

/-- If a rest of an MU is left, the loop went well and the states are as before. -/
theorem takeMus_kept {g : Got} (hg : takeMus err fmh7 ec c q = some g) (hrest : g.rest ≠ []) :
    g.err = acRcOk ∧ g.c.rcb.convState = c.rcb.convState ∧
      g.c.tp.statusReceived = c.tp.statusReceived := by
  induction q generalizing err ec c with
  | nil => cases hg; exact absurd rfl hrest
  | cons m q ih =>
    cases takesMu hg with
    | posted h => exact absurd rfl hrest
    | fmh7 rc c' h => exact absurd rfl hrest
    | failed d hd herr => exact absurd ((processData_done hd).failed herr) hrest
    | stopped d hpost hm hd herr hreason =>
      have hkept := (processData_done hd).kept
      exact ⟨herr, hkept.convState, hkept.status⟩
    | read d hpost hm hd herr hreason g h =>
      have hkept := (processData_done hd).kept
      obtain ⟨herr', hconv, hstatus⟩ := ih h
      exact ⟨herr', hconv.trans hkept.convState, hstatus.trans hkept.status⟩

/-- A loop that has not posted has emptied the queue. -/
theorem takeMus_pendPosted {g : Got} (hg : takeMus err fmh7 ec c q = some g)
    (hpost : g.c.rcb.postState = .pendPosted) : g.c.rcb.hsToPsBufferQueue = [] ∧ Kept c g.c := by
  induction q generalizing err fmh7 ec c with
  | nil => cases hg; exact ⟨rfl, Kept.queue c []⟩
  | cons m q ih =>
    cases takesMu hg with
    | posted h => exact absurd hpost h
    | fmh7 rc c' h => exact absurd hpost h
    | failed d hd herr => exact absurd hpost (fsmPost_post d.c)
    | stopped d _ _ hd herr hreason => exact absurd hpost (fsmPost_post d.c)
    | read d _ _ hd herr hreason g h =>
      obtain ⟨hnil, hkept⟩ := ih h
      exact ⟨hnil, ((Kept.queue c q).trans (processData_done hd).kept).trans hkept⟩

theorem takeMus_length {g : Got} (hg : takeMus err fmh7 ec c q = some g) :
    g.c.rcb.hsToPsBufferQueue.length ≤ q.length := by
  induction q generalizing err fmh7 ec c with
  | nil => cases hg; exact Nat.le_refl _
  | cons m q ih =>
    cases takesMu hg with
    | posted h => exact Nat.le_refl _
    | fmh7 rc c' h => exact Nat.le_succ _
    | failed d hd herr => exact (processData_done hd).queue
    | stopped d hpost hm hd herr hreason => exact (processData_done hd).queue
    | read d hpost hm hd herr hreason g h => exact Nat.le_succ_of_le (ih h)

/-- The loop makes the queue shorter, or has given the program what it asked for. -/
theorem takeMus_first {g : Got} (hg : takeMus err fmh7 ec c (m :: q) = some g)
    (hpost : c.rcb.postState = .pendPosted) :
    g.c.rcb.hsToPsBufferQueue.length ≤ q.length ∨
      g.err = acRcOk ∧ g.endOfChainType ∈ CtrlType.received := by
  cases takesMu hg with
  | posted h => exact absurd hpost h
  | fmh7 rc c' h => exact Or.inl (Nat.le_refl _)
  | failed d hd herr =>
    have hdone := processData_done hd
    have hqueue : d.c.rcb.hsToPsBufferQueue = q := hdone.read (hdone.failed herr)
    exact Or.inl (Nat.le_of_eq (congrArg List.length hqueue))
  | stopped d _ _ hd herr hreason => exact Or.inr ⟨herr, (processData_done hd).type ▸ m.received⟩
  | read d hpost hm hd herr hreason g h => exact Or.inl (takeMus_length h)

end TakeMus

end LinuxSna.Ps
