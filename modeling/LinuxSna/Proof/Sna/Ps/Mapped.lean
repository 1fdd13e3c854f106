import LinuxSna.Impl.Sna.Ps.Send
import LinuxSna.Proof.Sna.Ps.Records
import LinuxSna.Spec.Records

/-!
# Delivery on a mapped conversation

A program that receives a mapped conversation, one Receive after another, from MUs that hold
its records with their headers. The headers are stripped; the size of a record is kept in
8 bits; and a record without data is complete as soon as its length is known.

* `Inside.call`, `Between.call`: what one call does within a record and at the start of one;
* `Doomed.not_getsAll`: what is wrong once is not put right;
* `Between.next`: the first call for a record goes on rightly, or it is wrong for good;
* `Aligned.getsAll_iff`: what is right so far stays so as long as the headers are whole and the
  records short;
* `Send.call_mapped`: a Send_Data fails, or it queues the record that it is passed;
* `mapped_records`: the cuts and the records for which the program gets what was sent.
-/

namespace LinuxSna.Ps

open Spec.Mapped (Cut WholeHead WholeHeads stream)

/-! ## The program -/

/-- What a program that receives over and over has got: whole records, and a part of one; and
whether a Receive has returned without saying what kind of data it has. -/
structure Tally where
  reading : Reading
  records : List (List UInt8) := []
  part : List UInt8 := []
  failed : Bool := false

namespace Tally

/-- The MUs that are yet to be read. -/
abbrev pieces (g : Tally) : List (List UInt8) := Ps.pieces g.reading.c

/-- A call of `sna_ps_conv_process_data_proc` for the MU at the head of the queue. A Receive
that comes to its end with it says whether the record is complete. -/
def call (sizes : Nat → Nat) (g : Tally) : Tally :=
  match g.reading.c.rcb.hsToPsBufferQueue with
  | [] => g
  | m :: q =>
    match processData { (g.reading.receive sizes).1 with rcb.hsToPsBufferQueue := q } m with
    | none => g
    | some d =>
      let part := g.part ++ d.c.tp.rxBuffer.drop (g.reading.receive sizes).1.tp.rxBuffer.length
      let r := g.reading.call sizes
      if d.err = acRcOk ∧ d.reason = .none then { g with reading := r, part := part }
      else if d.c.tp.dataReceived = acWrDataComplete then
        { g with reading := r, records := g.records ++ [part], part := [] }
      else if d.c.tp.dataReceived = acWrDataIncomplete then { g with reading := r, part := part }
      else { g with reading := r, part := part, failed := true }

/-- What it has got after so many calls. -/
def calls (sizes : Nat → Nat) (g : Tally) : Nat → Tally
  | 0 => g
  | k + 1 => (g.call sizes).calls sizes k

/-- All MUs have been read, the records are these, and no other has been begun. -/
structure IsDone (rs : List (List UInt8)) (g : Tally) : Prop where
  queue : g.reading.c.rcb.hsToPsBufferQueue = []
  state : g.reading.c.rcb.llRx.state = .none
  records : g.records = rs
  part : g.part = []
  failed : g.failed = false

/-- The program gets the records, each marked where it ends, and nothing else. -/
def GetsAll (sizes : Nat → Nat) (rs : List (List UInt8)) (g : Tally) : Prop :=
  ∃ k, (g.calls sizes k).IsDone rs

variable {sizes : Nat → Nat} {rs : List (List UInt8)} {g : Tally} {m : Mu} {q : List Mu}

theorem getsAll_call (hq : g.reading.c.rcb.hsToPsBufferQueue = m :: q) :
    GetsAll sizes rs g ↔ GetsAll sizes rs (g.call sizes) := by
  constructor
  · rintro ⟨k, hk⟩
    cases k with
    | zero => exact absurd (hk.queue.symm.trans hq) (List.cons_ne_nil m q).symm
    | succ k => exact ⟨k, hk⟩
  · rintro ⟨k, hk⟩
    exact ⟨k + 1, hk⟩

end Tally

/-! ## The fields before the data -/

/-- What is left of a conversation and its MU once what is there of a header has been
stripped. -/
theorem pullLl_mapped {t : Take} (h : t.c.tp.conversationType = .mapped) :
    pullLl t =
      { c := { t.c with
          tp.rxMcLlPullLeft := t.c.tp.rxMcLlPullLeft - t.mu.data.length }
        mu := { t.mu with data := t.mu.data.drop t.c.tp.rxMcLlPullLeft } } := by
  rw [pullLl]
  by_cases hpull : t.c.tp.rxMcLlPullLeft = 0
  · rw [if_neg fun hne => hne.2 hpull, hpull, Nat.zero_sub, List.drop_zero, ← hpull]
  · rw [if_pos ⟨h, hpull⟩]

/-- Within a record -/
theorem processData_strips {c : Conversation} {m : Mu}
    (hmapped : c.tp.conversationType = .mapped) (hfill : c.tp.fill = .ll)
    (hstate : c.rcb.llRx.state = .incomplete) (hnew : c.tp.dataReceived ≠ acWrDataComplete) :
    ∃ d, processData c m = some d ∧
      Strips { c with tp.rxMcLlPullLeft := c.tp.rxMcLlPullLeft - m.data.length }
        { m with data := m.data.drop c.tp.rxMcLlPullLeft } d := by
  obtain ⟨d, hturn, hd⟩ := turn_strips
    (c := { c with tp.rxMcLlPullLeft := c.tp.rxMcLlPullLeft - m.data.length })
    (m := { m with data := m.data.drop c.tp.rxMcLlPullLeft }) hfill hstate hnew
  refine ⟨d, Framework.loop_succ_inr ?_, hd⟩
  rw [pass_of_begin (begin_of_ne (t := ⟨c, m⟩) (by simp [hstate])), readRecord_incomplete hstate,
    pullLl_mapped hmapped, hturn]

/-- At the start of a record, with its LL field -/
theorem processData_heads {c : Conversation} {m : Mu}
    (hmapped : c.tp.conversationType = .mapped) (hfill : c.tp.fill = .ll)
    (hstate : c.rcb.llRx.state = .none) (hnew : c.tp.dataReceived ≠ acWrDataComplete)
    (hlen : 2 ≤ m.data.length) (hll : 2 ≤ llSize m.data ∧ llSize m.data ≤ 32767) :
    ∃ d, processData c m = some d ∧
      Strips
        { c with
          tp.rxMcLlPullLeft := 4 - m.data.length
          rcb.llRx := .start (llSize m.data + 2 ^ 8 - 4) }
        { m with data := m.data.drop 4 } d := by
  have hstart : startRecord ⟨c, m⟩ =
      some ⟨{ c with
        tp.rxMcLlPullLeft := 4
        rcb.llRx := .start (llSize m.data + 2 ^ 8 - 4) }, m⟩ := by
    have hshort : ¬ m.data.length < 2 := by omega
    have hbad : ¬ (llSize m.data < 2 ∨ llSize m.data > 32767) := by omega
    rw [startRecord, if_neg hshort, if_neg hbad, hmapped]
  obtain ⟨d, hturn, hd⟩ := turn_strips
    (c := { c with
      tp.rxMcLlPullLeft := 4 - m.data.length
      rcb.llRx := .start (llSize m.data + 2 ^ 8 - 4) })
    (m := { m with data := m.data.drop 4 }) hfill rfl hnew
  refine ⟨d, Framework.loop_succ_inr ?_, hd⟩
  have hbegin : begin ⟨c, m⟩ = _ := (if_pos hstate).trans hstart
  rw [pass_of_begin hbegin, readRecord_incomplete rfl, pullLl_mapped hmapped, hturn]

/-- At the start of a record an MU is given up that does not begin with a valid LL field. -/
theorem processData_invalid {c : Conversation} {m : Mu} (hstate : c.rcb.llRx.state = .none)
    (hbad : m.data.length < 2 ∨ llSize m.data < 2 ∨ llSize m.data > 32767) :
    processData c m = some (freed ⟨c, m⟩ acRcUnsuccessful) := by
  have hbegin : begin ⟨c, m⟩ = none := by
    rw [begin, if_pos hstate, startRecord]
    by_cases hlen : m.data.length < 2
    · exact if_pos hlen
    · exact (if_neg hlen).trans (if_pos (hbad.resolve_left hlen))
  apply Framework.loop_succ_inr
  rw [pass, hbegin]

/-! ## A fill that is not by records -/

/-- The fill is not by records, and no record is said to be complete. -/
def Unmarked (tp : Tp) : Prop := tp.fill ≠ .ll ∧ tp.dataReceived ≠ acWrDataComplete

theorem Unmarked.congr {tp tp' : Tp} (h : Unmarked tp) (hfill : tp'.fill = tp.fill)
    (hdata : tp'.dataReceived = tp.dataReceived) : Unmarked tp' := by
  rw [Unmarked, hfill, hdata]
  exact h

theorem Unmarked.begin {t u : Take} (h : Unmarked t.c.tp) (hu : Ps.begin t = some u) :
    Unmarked u.c.tp := by
  rw [Ps.begin] at hu
  split at hu
  · rw [startRecord] at hu
    split_ifs at hu
    split at hu <;> cases hu <;> exact h.congr rfl rfl
  · cases hu
    exact h

theorem Unmarked.pullLl {t : Take} (h : Unmarked t.c.tp) : Unmarked (Ps.pullLl t).c.tp := by
  rw [Ps.pullLl]
  split
  · exact h.congr rfl rfl
  · exact h

theorem Unmarked.read {t : Take} (h : Unmarked t.c.tp) :
    Unmarked (endRecord (readRecord t).1).c.tp := by
  have hread : Unmarked (readRecord t).1.c.tp := by
    rw [readRecord]
    split
    · exact h.pullLl.congr rfl rfl
    · exact h
  rw [endRecord]
  split
  · exact hread.congr rfl rfl
  · exact hread

theorem Unmarked.turn {t : Take} {llEnd : Bool} {d : Data} (h : Unmarked t.c.tp)
    (hd : Ps.turn t llEnd = .inr d) : Unmarked d.c.tp := by
  rw [Ps.turn] at hd
  split_ifs at hd <;> cases hd
  · refine ⟨h.1, ?_⟩
    show (if t.c.tp.fill = .ll then _ else acWrData) ≠ acWrDataComplete
    rw [if_neg h.1]
    decide
  · exact h

theorem Unmarked.processData {c : Conversation} {m : Mu} {d : Data} (h : Unmarked c.tp)
    (hd : Ps.processData c m = some d) : Unmarked d.c.tp := by
  obtain ⟨k, t, hk, ht⟩ := Framework.loop_last hd
  have hbefore : Unmarked t.c.tp := by
    refine Framework.before_invariant (I := fun t : Take => Unmarked t.c.tp) (fun t v ht hv => ?_) h hk
    rw [pass] at hv
    split at hv
    · cases hv
    · rename_i u hu
      rw [turn_inl hv]
      exact (ht.begin hu).read
  rw [pass] at ht
  split at ht
  · cases ht
    exact hbefore
  · rename_i u hu
    exact (hbefore.begin hu).read.turn ht

/-! ## One call -/

namespace Tally

section Calls

variable {sizes : Nat → Nat} {rs : List (List UInt8)} {g g' : Tally} {m : Mu} {q : List Mu}
  {pull left n : Nat}

/-- What holds between calls, wherever in a record they are. -/
structure Ready (g : Tally) : Prop where
  type : g.reading.c.tp.conversationType = .mapped
  fill : g.reading.c.tp.fill = .ll
  goesOn : g.reading.goesOn = true →
    0 < g.reading.c.tp.room ∧ g.reading.c.tp.dataReceived ≠ acWrDataComplete

/-- What a call finds. -/
structure Finds (c : Conversation) : Prop where
  type : c.tp.conversationType = .mapped
  fill : c.tp.fill = .ll
  room : 0 < c.tp.room
  new : c.tp.dataReceived ≠ acWrDataComplete

theorem Ready.receive (h : g.Ready) (hsizes : ∀ i, 1 ≤ sizes i) :
    Finds (g.reading.receive sizes).1 := by
  rw [Reading.receive]
  cases hgo : g.reading.goesOn with
  | true =>
    obtain ⟨hroom, hnew⟩ := h.goesOn hgo
    exact ⟨h.type, h.fill, hroom, hnew⟩
  | false => exact ⟨h.type, h.fill, hsizes _, by simp [askFor, acWrNoDataReceived, acWrDataComplete]⟩

theorem receive_rcb (sizes : Nat → Nat) (r : Reading) : (r.receive sizes).1.rcb = r.c.rcb := by
  rw [Reading.receive]
  split <;> rfl

theorem receive_pull (sizes : Nat → Nat) (r : Reading) :
    (r.receive sizes).1.tp.rxMcLlPullLeft = r.c.tp.rxMcLlPullLeft := by
  rw [Reading.receive]
  split <;> rfl

/-- What a call leaves that strips what is left of a header and then reads `n` bytes, where
`left` are left of the record. -/
structure Takes (g g' : Tally) (m : Mu) (q : List Mu) (pull left n : Nat) : Prop where
  ready : g'.Ready
  le : n ≤ left ∧ n ≤ (m.data.drop pull).length
  progress : n = 0 → left = 0 ∨ m.data.drop pull = []
  pieces : g'.pieces =
    if (m.data.drop pull).drop n = [] then q.map Mu.data
    else (m.data.drop pull).drop n :: q.map Mu.data
  failed : g'.failed = g.failed
  last : n = left → g'.reading.c.rcb.llRx.state = .none ∧ g'.reading.goesOn = false ∧
    g'.records = g.records ++ [g.part ++ (m.data.drop pull).take n] ∧ g'.part = []
  within : n < left → g'.reading.c.rcb.llRx.state = .incomplete ∧
    g'.reading.c.rcb.llRx.left = left - n ∧
    g'.reading.c.tp.rxMcLlPullLeft = pull - m.data.length ∧
    g'.records = g.records ∧ g'.part = g.part ++ (m.data.drop pull).take n

/-- What is copied to the program by a call. -/
theorem call_eq (hq : g.reading.c.rcb.hsToPsBufferQueue = m :: q) {d : Data}
    (hp : processData { (g.reading.receive sizes).1 with rcb.hsToPsBufferQueue := q } m = some d)
    {bytes : List UInt8}
    (hbytes : d.c.tp.rxBuffer.drop (g.reading.receive sizes).1.tp.rxBuffer.length = bytes) :
    (g.call sizes).reading = g.reading.call sizes ∧ (g.reading.call sizes).c = d.c ∧
      (d.err = acRcOk → d.reason = .none → (g.call sizes).records = g.records ∧
        (g.call sizes).part = g.part ++ bytes ∧ (g.call sizes).failed = g.failed) ∧
      (d.reason ≠ .none → d.c.tp.dataReceived = acWrDataComplete →
        (g.call sizes).records = g.records ++ [g.part ++ bytes] ∧ (g.call sizes).part = [] ∧
          (g.call sizes).failed = g.failed) ∧
      (d.reason ≠ .none → d.c.tp.dataReceived = acWrDataIncomplete →
        (g.call sizes).records = g.records ∧ (g.call sizes).part = g.part ++ bytes ∧
          (g.call sizes).failed = g.failed) := by
  have hc : (g.reading.call sizes).c = d.c := by rw [call_of_some hq hp]
  rw [Tally.call, hq]
  simp only [hp]
  rw [hbytes]
  refine ⟨?_, hc, fun herr hr => ?_, fun hr hdata => ?_, fun hr hdata => ?_⟩
  · split_ifs <;> rfl
  · rw [if_pos ⟨herr, hr⟩]
    exact ⟨rfl, rfl, rfl⟩
  · rw [if_neg fun h => hr h.2, if_pos hdata]
    exact ⟨rfl, rfl, rfl⟩
  · rw [if_neg fun h => hr h.2, if_neg (by simp [hdata, acWrDataIncomplete, acWrDataComplete]),
      if_pos hdata]
    exact ⟨rfl, rfl, rfl⟩

/-- What is counted of a call, by whether the record ends with it. -/
theorem counted_of_strips (hq : g.reading.c.rcb.hsToPsBufferQueue = m :: q) {c : Conversation}
    {m' : Mu} {d : Data}
    (hp : processData { (g.reading.receive sizes).1 with rcb.hsToPsBufferQueue := q } m = some d)
    (hd : Strips c m' d) {bytes : List UInt8}
    (hbytes : d.c.tp.rxBuffer.drop (g.reading.receive sizes).1.tp.rxBuffer.length = bytes) :
    (g.call sizes).failed = g.failed ∧
      (readSize c m' = c.rcb.llRx.left →
        (g.call sizes).records = g.records ++ [g.part ++ bytes] ∧ (g.call sizes).part = []) ∧
      (readSize c m' ≠ c.rcb.llRx.left →
        (g.call sizes).records = g.records ∧ (g.call sizes).part = g.part ++ bytes) := by
  obtain ⟨-, -, hnone, hcomplete, hincomplete⟩ := call_eq hq hp hbytes
  by_cases hn : readSize c m' = c.rcb.llRx.left
  · obtain ⟨hr, hdata, -⟩ := hd.last hn
    obtain ⟨hrecords, hpart, hfailed⟩ := hcomplete hr hdata
    exact ⟨hfailed, fun _ => ⟨hrecords, hpart⟩, fun hne => absurd hn hne⟩
  · by_cases hr : d.reason = .none
    · obtain ⟨hrecords, hpart, hfailed⟩ := hnone hd.err hr
      exact ⟨hfailed, fun he => absurd he hn, fun _ => ⟨hrecords, hpart⟩⟩
    · obtain ⟨hrecords, hpart, hfailed⟩ := hincomplete hr (hd.full hr hn)
      exact ⟨hfailed, fun he => absurd he hn, fun _ => ⟨hrecords, hpart⟩⟩

/-- The call, from what `sna_ps_conv_process_data_proc` does. -/
theorem Ready.takes (h : g.Ready) (hsizes : ∀ i, 1 ≤ sizes i)
    (hq : g.reading.c.rcb.hsToPsBufferQueue = m :: q) {c : Conversation} {d : Data}
    (hp : processData { (g.reading.receive sizes).1 with rcb.hsToPsBufferQueue := q } m = some d)
    (hd : Strips c { m with data := m.data.drop pull } d)
    (htp : c.tp = { (g.reading.receive sizes).1.tp with rxMcLlPullLeft := pull - m.data.length })
    (hqueue : c.rcb.hsToPsBufferQueue = q) (hleft : c.rcb.llRx.left = left) :
    ∃ n, Takes g (g.call sizes) m q pull left n := by
  have hfinds := h.receive hsizes
  obtain ⟨hle, hleft', -⟩ := readSize_le c { m with data := m.data.drop pull }
  have hbytes : d.c.tp.rxBuffer.drop (g.reading.receive sizes).1.tp.rxBuffer.length =
      (m.data.drop pull).take (readSize c { m with data := m.data.drop pull }) := by
    rw [hd.copied, htp]
    exact List.drop_left
  have hpull : d.c.tp.rxMcLlPullLeft = pull - m.data.length := by rw [hd.pull, htp]
  have hcroom : 0 < c.tp.room := by
    rw [htp]
    exact hfinds.room
  have hprogress : readSize c { m with data := m.data.drop pull } = 0 →
      left = 0 ∨ m.data.drop pull = [] := by
    intro hn
    rw [readSize, hleft] at hn
    rw [← List.length_eq_zero_iff]
    simp only at hn
    omega
  obtain ⟨hreading, hc, -⟩ := call_eq hq hp hbytes
  obtain ⟨hfailed, hend, hinside⟩ := counted_of_strips hq hp hd hbytes
  have hgo : (g.reading.call sizes).goesOn = (d.err = acRcOk && d.reason = .none) := by
    rw [call_of_some hq hp]
  have hlast := hd.last
  have hwithin := hd.within
  have hpieces := hd.pieces
  rw [Ps.pieces, Ps.pieces, hqueue] at hpieces
  have hready : (g.call sizes).Ready := by
    refine ⟨?_, ?_, ?_⟩ <;> rw [hreading]
    · rw [hc, hd.type, htp]
      exact hfinds.type
    · rw [hc, hd.fill, htp]
      exact hfinds.fill
    · rw [hgo, hc]
      intro hr
      simp only [Bool.and_eq_true, decide_eq_true_eq] at hr
      exact hd.more hr.2
  rw [hleft] at hlast hwithin hleft' hend hinside
  generalize readSize c { m with data := m.data.drop pull } = n at *
  refine ⟨n, hready, ⟨hleft', hle⟩, hprogress, ?_, hfailed, fun hn => ?_, fun hn => ?_⟩
  · rw [Tally.pieces, hreading, hc]
    exact hpieces
  · rw [hreading, hc, hgo]
    exact ⟨(hlast hn).2.2, by simp [(hlast hn).1], hend hn⟩
  · rw [hreading, hc]
    exact ⟨(hwithin hn).2.1, (hwithin hn).2.2, hpull, hinside (Nat.ne_of_lt hn)⟩

/-- At the start of a record -/
structure Between (g : Tally) : Prop where
  ready : g.Ready
  state : g.reading.c.rcb.llRx.state = .none
  goesOn : g.reading.goesOn = false

/-- Within a record, of whose header and data so many bytes are left. -/
structure Inside (g : Tally) (pull left : Nat) : Prop where
  ready : g.Ready
  state : g.reading.c.rcb.llRx.state = .incomplete
  pull : g.reading.c.tp.rxMcLlPullLeft = pull
  left : g.reading.c.rcb.llRx.left = left

theorem Inside.call (h : g.Inside pull left) (hsizes : ∀ i, 1 ≤ sizes i)
    (hq : g.reading.c.rcb.hsToPsBufferQueue = m :: q) :
    ∃ n, Takes g (g.call sizes) m q pull left n := by
  have hf := h.ready.receive hsizes
  have hrcb := receive_rcb sizes g.reading
  have hpull := (receive_pull sizes g.reading).trans h.pull
  obtain ⟨d, hp, hd⟩ := processData_strips
    (c := { (g.reading.receive sizes).1 with rcb.hsToPsBufferQueue := q }) (m := m) hf.type hf.fill
    ((congrArg (·.llRx.state) hrcb).trans h.state) hf.new
  dsimp only at hd
  rw [hpull] at hd
  exact h.ready.takes hsizes hq hp hd rfl rfl ((congrArg (·.llRx.left) hrcb).trans h.left)

/-- A record that begins is taken to have the size that its LL field says, in 8 bits. -/
theorem Between.call (h : g.Between) (hsizes : ∀ i, 1 ≤ sizes i)
    (hq : g.reading.c.rcb.hsToPsBufferQueue = m :: q) (hlen : 2 ≤ m.data.length)
    (hll : 2 ≤ llSize m.data ∧ llSize m.data ≤ 32767) :
    ∃ n, Takes g (g.call sizes) m q 4 ((llSize m.data + 2 ^ 8 - 4) % 2 ^ 8) n := by
  have hf := h.ready.receive hsizes
  have hrcb := receive_rcb sizes g.reading
  obtain ⟨d, hp, hd⟩ := processData_heads
    (c := { (g.reading.receive sizes).1 with rcb.hsToPsBufferQueue := q }) (m := m) hf.type hf.fill
    ((congrArg (·.llRx.state) hrcb).trans h.state) hf.new hlen hll
  exact h.ready.takes hsizes hq hp hd rfl rfl rfl

/-- Without a valid LL field, the Receive fails. -/
theorem Between.call_invalid (h : g.Between) (hq : g.reading.c.rcb.hsToPsBufferQueue = m :: q)
    (hbad : m.data.length < 2 ∨ llSize m.data < 2 ∨ llSize m.data > 32767) :
    (g.call sizes).failed = true := by
  have hrcb := receive_rcb sizes g.reading
  have hp := processData_invalid (m := m)
    (c := { (g.reading.receive sizes).1 with rcb.hsToPsBufferQueue := q })
    ((congrArg (·.llRx.state) hrcb).trans h.state) hbad
  have hnew : (g.reading.receive sizes).1.tp.dataReceived = acWrNoDataReceived := by
    rw [Reading.receive, h.goesOn]
    rfl
  rw [Tally.call, hq]
  simp only [hp]
  simp [freed, acRcUnsuccessful, acRcOk, hnew, acWrNoDataReceived, acWrDataComplete,
    acWrDataIncomplete]

/-! ## What a call leaves of the pieces -/

theorem pieces_eq (hq : g.reading.c.rcb.hsToPsBufferQueue = m :: q) :
    g.pieces = m.data :: q.map Mu.data := by
  rw [Tally.pieces, Ps.pieces, hq, List.map_cons]

theorem Takes.flatten_pieces (h : Takes g g' m q pull left n) :
    g'.pieces.flatten = (m.data.drop pull).drop n ++ (q.map Mu.data).flatten := by
  rw [h.pieces]
  split
  · rename_i hnil
    rw [hnil, List.nil_append]
  · rfl

theorem Takes.wholeHeads_iff (h : Takes g g' m q pull left n) {off : Nat}
    {rest : List (List UInt8)} :
    WholeHeads off rest ((m.data.drop pull).drop n :: q.map Mu.data) ↔
      WholeHeads off rest g'.pieces := by
  rw [h.pieces]
  split
  · rename_i hnil
    rw [hnil]
    exact Spec.Mapped.wholeHeads_nil_cons
  · rfl

/-- No piece is left without bytes. -/
theorem Takes.nil_notMem (h : Takes g g' m q pull left n)
    (hne : [] ∉ m.data :: q.map Mu.data) : [] ∉ g'.pieces := by
  rw [h.pieces]
  split
  · exact fun hm => hne (List.mem_cons_of_mem _ hm)
  · rename_i hsome
    intro hm
    obtain hm | hm := List.mem_cons.mp hm
    · exact hsome hm.symm
    · exact hne (List.mem_cons_of_mem _ hm)

/-! ## What cannot be put right -/

/-- The bytes that are yet to be read. -/
def todo (g : Tally) : Nat := g.pieces.flatten.length

theorem Takes.todo (h : Takes g g' m q pull left n)
    (hq : g.reading.c.rcb.hsToPsBufferQueue = m :: q) :
    g'.todo + (min m.data.length pull + n) = g.todo := by
  have hle := h.le.2
  rw [Tally.todo, h.flatten_pieces, Tally.todo, pieces_eq hq, List.flatten_cons]
  simp only [List.length_append, List.length_drop] at hle ⊢
  omega

/-- More bytes are to be read than the records to come have, of which so many bytes are left
of the first. -/
def Over (rs : List (List UInt8)) (g : Tally) : Prop :=
  (g.Between ∧ ∃ rest, rs = g.records ++ rest ∧ g.part = [] ∧ (stream rest).length < g.todo) ∨
    ∃ pull left x rest, g.Inside pull left ∧ rs = g.records ++ x :: rest ∧
      g.part.length + left = x.length ∧ pull + left + (stream rest).length < g.todo

/-- The program is in a record of another length than the one that is to come. -/
def Astray (rs : List (List UInt8)) (g : Tally) : Prop :=
  ∃ pull left, g.Inside pull left ∧
    ∀ x rest, rs = g.records ++ x :: rest → g.part.length + left ≠ x.length

/-- What is wrong for good: a Receive has failed, or the records that the program has got are
others, or they will be. -/
def Doomed (rs : List (List UInt8)) (g : Tally) : Prop :=
  g.failed = true ∨ ¬ g.records <+: rs ∨ Over rs g ∨ Astray rs g

/-- A record of the wrong length is a wrong record. -/
theorem not_prefix_of_length {x : List UInt8} {records : List (List UInt8)}
    (h : ∀ y rest, rs = records ++ y :: rest → x.length ≠ y.length) :
    ¬ records ++ [x] <+: rs := by
  rintro ⟨rest, hrest⟩
  exact h x rest (by rw [← hrest]; simp) rfl

/-- A call that goes on in a record that is not the one to come. -/
theorem Takes.astray (h : Takes g g' m q pull left n)
    (hne : ∀ x rest, rs = g.records ++ x :: rest → g.part.length + left ≠ x.length) :
    Doomed rs g' := by
  have hle := h.le
  by_cases hn : n = left
  · obtain ⟨-, -, hrecords, -⟩ := h.last hn
    refine .inr (.inl ?_)
    rw [hrecords]
    apply not_prefix_of_length
    intro y rest hrs
    have := hne y rest hrs
    rw [List.length_append, List.length_take]
    omega
  · obtain ⟨hstate, hleft, hpull, hrecords, hpart⟩ := h.within (by omega)
    refine .inr (.inr (.inr ⟨_, _, ⟨h.ready, hstate, hpull, hleft⟩, fun x rest hrs => ?_⟩))
    have := hne x rest (hrecords ▸ hrs)
    rw [hpart, List.length_append, List.length_take]
    omega

/-- A call with more bytes to come than there should be leaves too many. -/
theorem Takes.over (h : Takes g g' m q pull left n)
    (hq : g.reading.c.rcb.hsToPsBufferQueue = m :: q) {x : List UInt8}
    {rest : List (List UInt8)} (hrs : rs = g.records ++ x :: rest)
    (hlen : g.part.length + left = x.length)
    (hover : pull + left + (stream rest).length < g.todo) : Doomed rs g' := by
  have htodo := h.todo hq
  have hle := h.le
  by_cases hn : n = left
  · obtain ⟨hstate, hgo, hrecords, hpart⟩ := h.last hn
    by_cases hx : g.part ++ (m.data.drop pull).take n = x
    · refine .inr (.inr (.inl (.inl ⟨⟨h.ready, hstate, hgo⟩, rest, ?_, hpart, by omega⟩)))
      rw [hrecords, hx, hrs, List.append_assoc]
      rfl
    · refine .inr (.inl ?_)
      rw [hrecords, hrs, List.prefix_append_right_inj]
      rintro ⟨l, hl⟩
      exact hx (List.cons.inj hl).1
  · obtain ⟨hstate, hleft, hpull, hrecords, hpart⟩ := h.within (by omega)
    refine .inr (.inr (.inl (.inr ⟨_, _, x, rest, ⟨h.ready, hstate, hpull, hleft⟩, ?_, ?_, ?_⟩)))
    · rw [hrecords, hrs]
    · rw [hpart, List.length_append, List.length_take]
      omega
    · omega

theorem call_failed (h : g.failed = true) : (g.call sizes).failed = true := by
  rw [Tally.call]
  split
  · exact h
  · split
    · exact h
    · dsimp only
      split_ifs <;> first | exact h | rfl

theorem prefix_call (sizes : Nat → Nat) (g : Tally) : g.records <+: (g.call sizes).records := by
  rw [Tally.call]
  split
  · exact List.prefix_rfl
  · split
    · exact List.prefix_rfl
    · dsimp only
      split_ifs <;> first | exact List.prefix_rfl | exact List.prefix_append _ _

theorem Doomed.call (h : Doomed rs g) (hsizes : ∀ i, 1 ≤ sizes i)
    (hq : g.reading.c.rcb.hsToPsBufferQueue = m :: q) : Doomed rs (g.call sizes) := by
  obtain hfailed | hother | (⟨hbetween, rest, hrs, hpart, hover⟩ |
    ⟨pull, left, x, rest, hinside, hrs, hlen, hover⟩) | ⟨pull, left, hinside, hne⟩ := h
  · exact .inl (call_failed hfailed)
  · exact .inr (.inl fun hpre => hother ((prefix_call sizes g).trans hpre))
  · by_cases hbad : m.data.length < 2 ∨ llSize m.data < 2 ∨ llSize m.data > 32767
    · exact .inl (hbetween.call_invalid hq hbad)
    · obtain ⟨n, ht⟩ := hbetween.call hsizes hq (by omega) (by omega)
      by_cases hx : ∃ x rest', rest = x :: rest' ∧ (llSize m.data + 2 ^ 8 - 4) % 2 ^ 8 = x.length
      · obtain ⟨x, rest', rfl, hx⟩ := hx
        rw [Spec.Mapped.stream_cons, List.length_append, Spec.Mapped.length_bytes] at hover
        refine ht.over hq hrs ?_ (by omega)
        rw [hpart, List.length_nil, Nat.zero_add, hx]
      · refine ht.astray fun x rest' hrs' hlen => hx ⟨x, rest', ?_, ?_⟩
        · exact List.append_cancel_left (hrs.symm.trans hrs')
        · rwa [hpart, List.length_nil, Nat.zero_add] at hlen
  · obtain ⟨n, ht⟩ := hinside.call hsizes hq
    exact ht.over hq hrs hlen hover
  · obtain ⟨n, ht⟩ := hinside.call hsizes hq
    exact ht.astray hne

theorem Doomed.not_isDone (h : Doomed rs g) : ¬ g.IsDone rs := by
  rintro ⟨hqueue, hstate, hrecords, -, hfailed⟩
  have hnone : ¬ g.reading.c.rcb.llRx.state = .incomplete := by rw [hstate]; nofun
  obtain hfailed' | hother | (⟨-, rest, hrs, -, hover⟩ | ⟨_, _, _, _, hinside, -⟩) |
    ⟨_, _, hinside, -⟩ := h
  · rw [hfailed] at hfailed'
    cases hfailed'
  · exact hother (hrecords ▸ List.prefix_rfl)
  · rw [Tally.todo, Tally.pieces, Ps.pieces, hqueue] at hover
    exact Nat.not_lt_zero _ hover
  · exact hnone hinside.state
  · exact hnone hinside.state

/-- What is wrong once is not put right. -/
theorem Doomed.not_getsAll (h : Doomed rs g) (hsizes : ∀ i, 1 ≤ sizes i) :
    ¬ GetsAll sizes rs g := by
  rintro ⟨k, hk⟩
  induction k generalizing g with
  | zero => exact h.not_isDone hk
  | succ k ih =>
    cases hq : g.reading.c.rcb.hsToPsBufferQueue with
    | nil =>
      have hcall : g.call sizes = g := by rw [Tally.call, hq]
      rw [calls, hcall] at hk
      exact ih h hk
    | cons m q => exact ih (h.call hsizes hq) hk

/-! ## What is right so far -/

/-- The pieces hold what is left of a header and of the data of a record, and then the records
that are to come, which begin `off` bytes after the pieces do. -/
def Aligned (rs : List (List UInt8)) (g : Tally) (off : Nat) (rest : List (List UInt8)) : Prop :=
  g.failed = false ∧ [] ∉ g.pieces ∧
    (g.Between ∧ off = 0 ∧ rs = g.records ++ rest ∧ g.part = [] ∧
        g.pieces.flatten = stream rest ∨
      ∃ head data, g.Inside head.length data.length ∧ off = head.length + data.length ∧
        data ≠ [] ∧ rs = g.records ++ (g.part ++ data) :: rest ∧
        g.pieces.flatten = head ++ data ++ stream rest)

/-- What is left of a header and data when bytes of an MU are gone. -/
theorem flatten_strip {p head data tail : List UInt8} {q : List (List UInt8)}
    (hflat : p ++ q.flatten = head ++ data ++ tail) (hle : n ≤ data.length)
    (hp : n ≤ (p.drop head.length).length) :
    (p.drop head.length).take n = data.take n ∧
      (p.drop head.length).drop n ++ q.flatten = head.drop p.length ++ data.drop n ++ tail := by
  rw [List.append_assoc] at hflat
  obtain hshort | hlong := Nat.le_total p.length head.length
  · have hnil : p.drop head.length = [] := List.drop_eq_nil_of_le hshort
    have hn : n = 0 := by
      rw [hnil, List.length_nil] at hp
      omega
    have hdrop := congrArg (List.drop p.length) hflat
    rw [List.drop_left, List.drop_append_of_le_length hshort] at hdrop
    subst hn
    rw [hnil, hdrop, List.append_assoc]
    exact ⟨rfl, rfl⟩
  · have hdrop := congrArg (List.drop head.length) hflat
    rw [List.drop_left, List.drop_append_of_le_length hlong] at hdrop
    have htake := congrArg (List.take n) hdrop
    rw [List.take_append_of_le_length hp, List.take_append_of_le_length hle] at htake
    have hrest := congrArg (List.drop n) hdrop
    rw [List.drop_append_of_le_length hp, List.drop_append_of_le_length hle] at hrest
    rw [List.drop_eq_nil_of_le hlong]
    exact ⟨htake, hrest⟩

/-- A call within a record that is right. -/
theorem Takes.aligned (h : Takes g g' m q pull left n)
    (hq : g.reading.c.rcb.hsToPsBufferQueue = m :: q) (hfailed : g.failed = false)
    (hne : [] ∉ g.pieces) {head data : List UInt8} {rest : List (List UInt8)}
    (hpull : head.length = pull) (hleft : data.length = left) (hdata : data ≠ [])
    (hrs : rs = g.records ++ (g.part ++ data) :: rest)
    (hflat : g.pieces.flatten = head ++ data ++ stream rest) :
    ∃ off, Aligned rs g' off rest ∧
      (WholeHeads (pull + left) rest g.pieces ↔ WholeHeads off rest g'.pieces) ∧
      g'.todo < g.todo := by
  subst hpull hleft
  have htodo := h.todo hq
  obtain ⟨hle, hlen⟩ := h.le
  rw [pieces_eq hq] at hflat hne ⊢
  rw [List.flatten_cons] at hflat
  obtain ⟨htake, hrest⟩ := flatten_strip hflat hle hlen
  have hmu : 0 < m.data.length := List.length_pos_iff.mpr fun hnil => hne (hnil ▸ List.mem_cons_self)
  have hpos : 0 < data.length := List.length_pos_iff.mpr hdata
  have hmove : 0 < min m.data.length head.length + n := by
    by_cases hn : n = 0
    · obtain hz | hnil := h.progress hn
      · omega
      · have := List.drop_eq_nil_iff.mp hnil
        omega
    · omega
  -- the bytes of the first piece that are gone
  have hgone : (m.data.drop head.length).drop n = m.data.drop (min m.data.length head.length + n) := by
    rw [List.drop_drop]
    obtain hshort | hlong := Nat.le_total m.data.length head.length
    · rw [List.drop_eq_nil_of_le (by omega), List.drop_eq_nil_of_le (by omega)]
    · rw [Nat.min_eq_right hlong]
  have hflat' : g'.pieces.flatten = head.drop m.data.length ++ data.drop n ++ stream rest := by
    rw [h.flatten_pieces, hrest]
  have hheads : WholeHeads (head.length + data.length) rest (m.data :: q.map Mu.data) ↔
      WholeHeads (head.length + data.length - (min m.data.length head.length + n)) rest g'.pieces := by
    rw [List.length_drop] at hlen
    rw [Spec.Mapped.wholeHeads_drop (n := min m.data.length head.length + n) (by omega) (by omega),
      ← hgone, h.wholeHeads_iff]
  refine ⟨head.length + data.length - (min m.data.length head.length + n),
    ⟨h.failed.trans hfailed, h.nil_notMem hne, ?_⟩, hheads, by omega⟩
  rw [List.length_drop] at hlen
  by_cases hn : n = data.length
  · obtain ⟨hstate, hgo, hrecords, hpart⟩ := h.last hn
    refine .inl ⟨⟨h.ready, hstate, hgo⟩, by omega, ?_, hpart, ?_⟩
    · rw [hrecords, htake, hn, List.take_length, hrs, List.append_assoc]
      rfl
    · rw [hflat', List.drop_eq_nil_of_le (by omega), List.drop_eq_nil_of_le (by omega)]
      rfl
  · obtain ⟨hstate, hleft, hpull, hrecords, hpart⟩ := h.within (by omega)
    refine .inr ⟨head.drop m.data.length, data.drop n, ⟨h.ready, hstate, ?_, ?_⟩, ?_, ?_, ?_, hflat'⟩
    · rw [hpull, List.length_drop]
    · rw [hleft, List.length_drop]
    · rw [List.length_drop, List.length_drop]
      omega
    · intro hnil
      have := List.drop_eq_nil_iff.mp hnil
      omega
    · rw [hrecords, hpart, htake, List.append_assoc, List.take_append_drop, hrs]

/-- The LL field of a record that begins with the MU -/
theorem llSize_mapped {x p tail : List UInt8} {l : List UInt8} (hlen : 2 ≤ p.length)
    (hx : x.length ≤ 32763) (h : p ++ l = Spec.Mapped.bytes x ++ tail) :
    llSize p = x.length + 4 := by
  obtain ⟨a, b, t, rfl⟩ : ∃ a b t, p = a :: b :: t := by
    match p, hlen with
    | a :: b :: t, _ => exact ⟨a, b, t, rfl⟩
  simp only [Spec.Mapped.bytes, Cpic.be16, List.cons_append, List.cons.injEq] at h
  obtain ⟨rfl, rfl, -⟩ := h
  show ((x.length + 4) / 2 ^ 8) % 2 ^ 8 * 2 ^ 8 + (x.length + 4) % 2 ^ 8 = x.length + 4
  omega

/-- A record without data is right if its header has come with the MU. -/
theorem Takes.empty (h : Takes g g' m q 4 0 n)
    (hq : g.reading.c.rcb.hsToPsBufferQueue = m :: q) (hfailed : g.failed = false)
    (hne : [] ∉ g.pieces) (hpart : g.part = []) {rest : List (List UInt8)}
    (hrs : rs = g.records ++ [] :: rest)
    (hflat : g.pieces.flatten = Spec.Mapped.bytes [] ++ stream rest) (hlen : 2 ≤ m.data.length) :
    g'.todo < g.todo ∧
      (4 ≤ m.data.length → Aligned rs g' 0 rest ∧
        (WholeHeads 4 rest g.pieces ↔ WholeHeads 0 rest g'.pieces)) ∧
      (m.data.length < 4 → Doomed rs g') := by
  have htodo := h.todo hq
  obtain rfl : n = 0 := Nat.le_zero.mp h.le.1
  have hwhole : g.todo = 4 + (stream rest).length := by
    rw [Tally.todo, hflat, List.length_append, Spec.Mapped.length_bytes, List.length_nil]
  obtain ⟨hstate, hgo, hrecords, hpart'⟩ := h.last rfl
  have hrecords' : rs = g'.records ++ rest := by
    rw [hrecords, hpart, List.take_zero, hrs, List.append_assoc]
    rfl
  rw [pieces_eq hq] at hne hflat ⊢
  refine ⟨by omega, fun hfour => ⟨⟨h.failed.trans hfailed, h.nil_notMem hne,
    .inl ⟨⟨h.ready, hstate, hgo⟩, rfl, hrecords', hpart', ?_⟩⟩, ?_⟩, fun hshort =>
      .inr (.inr (.inl (.inl ⟨⟨h.ready, hstate, hgo⟩, rest, hrecords', hpart', by omega⟩)))⟩
  · have hdrop := congrArg (List.drop 4) hflat
    rw [List.flatten_cons, List.drop_append_of_le_length hfour] at hdrop
    rw [h.flatten_pieces, List.drop_zero]
    exact hdrop
  · rw [Spec.Mapped.wholeHeads_drop hfour (Nat.le_refl 4), ← h.wholeHeads_iff, List.drop_zero]

/-- Where there are bytes there is an MU. -/
theorem exists_mu (h : g.pieces.flatten ≠ []) :
    ∃ m q, g.reading.c.rcb.hsToPsBufferQueue = m :: q := by
  cases hq : g.reading.c.rcb.hsToPsBufferQueue with
  | nil =>
    rw [Tally.pieces, Ps.pieces, hq] at h
    exact absurd rfl h
  | cons m q => exact ⟨m, q, rfl⟩

/-- Where there are none, all have been read. -/
theorem queue_nil (hne : [] ∉ g.pieces) (h : g.pieces.flatten = []) :
    g.reading.c.rcb.hsToPsBufferQueue = [] := by
  cases hq : g.reading.c.rcb.hsToPsBufferQueue with
  | nil => rfl
  | cons m q =>
    rw [pieces_eq hq] at h hne
    have hnil := (List.append_eq_nil_iff.mp h).1
    exact absurd (hnil ▸ List.mem_cons_self) hne

/-- The first call for a record leaves all right if the record is short and its header has come
whole; if not, something is wrong for good. -/
theorem Between.next (h : g.Between) (hsizes : ∀ i, 1 ≤ sizes i) (hfailed : g.failed = false)
    (hne : [] ∉ g.pieces) (hpart : g.part = []) {x : List UInt8} {rest : List (List UInt8)}
    (hrs : rs = g.records ++ x :: rest)
    (hflat : g.pieces.flatten = Spec.Mapped.bytes x ++ stream rest) (hx : x.length ≤ 32763)
    (hq : g.reading.c.rcb.hsToPsBufferQueue = m :: q) :
    ((x.length < 2 ^ 8 ∧ WholeHead 0 x m.data.length) ∧
      ∃ off, Aligned rs (g.call sizes) off rest ∧
        (WholeHeads (x.length + 4) rest g.pieces ↔ WholeHeads off rest (g.call sizes).pieces) ∧
        (g.call sizes).todo < g.todo) ∨
    ¬ (x.length < 2 ^ 8 ∧ WholeHead 0 x m.data.length) ∧ Doomed rs (g.call sizes) := by
  by_cases hlen : 2 ≤ m.data.length
  · have hll : llSize m.data = x.length + 4 :=
      llSize_mapped (l := (q.map Mu.data).flatten) hlen hx
        (by rw [← List.flatten_cons, ← pieces_eq hq, hflat])
    obtain ⟨n, ht⟩ := h.call hsizes hq hlen (by omega)
    rw [hll, show x.length + 4 + 2 ^ 8 - 4 = x.length + 2 ^ 8 by omega, Nat.add_mod_right] at ht
    by_cases hshort : x.length < 2 ^ 8
    · rw [Nat.mod_eq_of_lt hshort] at ht
      cases x with
      | nil =>
        obtain ⟨hlt, hgood, hbad⟩ := ht.empty hq hfailed hne hpart hrs hflat hlen
        by_cases hfour : 4 ≤ m.data.length
        · obtain ⟨halign, hheads⟩ := hgood hfour
          exact .inl ⟨⟨hshort, by omega, fun _ => by omega⟩, 0, halign, hheads, hlt⟩
        · refine .inr ⟨fun hr => ?_, hbad (by omega)⟩
          have hone := hr.2.1
          have hthree := hr.2.2 rfl
          omega
      | cons b bs =>
        have hsplit : g.pieces.flatten =
            Cpic.be16 ((b :: bs).length + 4) ++ Cpic.be16 (Spec.Mapped.gds (b :: bs)) ++
              (b :: bs) ++ stream rest := hflat
        obtain ⟨off, halign, hheads, hlt⟩ := ht.aligned hq hfailed hne (by rfl) (by rfl)
          (List.cons_ne_nil b bs) (hrs.trans (by rw [hpart]; rfl)) hsplit
        rw [Nat.add_comm 4] at hheads
        have hhead : WholeHead 0 (b :: bs) m.data.length :=
          ⟨by omega, fun hnil => absurd hnil (List.cons_ne_nil b bs)⟩
        exact .inl ⟨⟨hshort, hhead⟩, off, halign, hheads, hlt⟩
    · refine .inr ⟨fun hr => hshort hr.1, ht.astray fun y rest' hrs' hlen' => ?_⟩
      obtain ⟨rfl, -⟩ := List.cons.inj (List.append_cancel_left (hrs.symm.trans hrs'))
      rw [hpart, List.length_nil, Nat.zero_add] at hlen'
      have := Nat.mod_lt x.length (show 0 < 2 ^ 8 by decide)
      omega
  · -- a piece has a byte, and with one alone the LL field is not whole
    have hpos : 0 < m.data.length := by
      rw [pieces_eq hq] at hne
      exact List.length_pos_iff.mpr fun hnil => hne (hnil ▸ List.mem_cons_self)
    refine .inr ⟨fun hr => ?_, .inl (h.call_invalid hq (.inl (by omega)))⟩
    have hone := hr.2.1
    omega

/-- From where all is right, the program gets the rest exactly if the records are short and
their headers whole. -/
theorem Aligned.getsAll_iff {off : Nat} {rest : List (List UInt8)} (h : Aligned rs g off rest)
    (hsizes : ∀ i, 1 ≤ sizes i) (hle : ∀ x ∈ rest, x.length ≤ 32763) :
    GetsAll sizes rs g ↔ (∀ x ∈ rest, x.length < 2 ^ 8) ∧ WholeHeads off rest g.pieces := by
  induction htodo : g.todo using Nat.strongRecOn generalizing g off rest with
  | _ k ih =>
  subst htodo
  obtain ⟨hfailed, hne, ⟨hbetween, rfl, hrs, hpart, hflat⟩ |
    ⟨head, data, hinside, rfl, hdata, hrs, hflat⟩⟩ := h
  · cases rest with
    | nil =>
      refine iff_of_true ⟨0, queue_nil hne hflat, hbetween.state, ?_, hpart, hfailed⟩
        ⟨fun x hx => absurd hx List.not_mem_nil, Spec.Mapped.wholeHeads_nil _ _⟩
      rw [calls, hrs, List.append_nil]
    | cons x rest =>
      obtain ⟨m, q, hq⟩ := exists_mu (g := g) (by rw [hflat]; exact List.cons_ne_nil _ _)
      have hmu : m.data ≠ [] := fun hnil => hne (by rw [pieces_eq hq, hnil]; exact List.mem_cons_self)
      rw [Spec.Mapped.stream_cons] at hflat
      have hnext := hbetween.next hsizes hfailed hne hpart hrs hflat (hle x List.mem_cons_self) hq
      rw [pieces_eq hq] at hnext
      rw [getsAll_call hq, pieces_eq hq, Spec.Mapped.wholeHeads_cons hmu, List.forall_mem_cons]
      obtain ⟨⟨hshort, hhead⟩, off, halign, hheads, hlt⟩ | ⟨hbad, hdoom⟩ := hnext
      · rw [ih _ hlt halign (fun y hy => hle y (List.mem_cons_of_mem _ hy)) rfl, ← hheads]
        simp only [hshort, hhead, true_and]
      · exact iff_of_false (hdoom.not_getsAll hsizes) fun hr => hbad ⟨hr.1.1, hr.2.1⟩
  · obtain ⟨m, q, hq⟩ := exists_mu (g := g) (by
      rw [hflat]
      exact List.append_ne_nil_of_left_ne_nil (List.append_ne_nil_of_right_ne_nil head hdata) _)
    obtain ⟨n, ht⟩ := hinside.call hsizes hq
    obtain ⟨off, halign, hheads, hlt⟩ := ht.aligned hq hfailed hne rfl rfl hdata hrs hflat
    rw [getsAll_call hq, ih _ hlt halign hle rfl, hheads]

/-- Without a fill by records, no record is got. -/
theorem Unmarked.calls {k : Nat} (hfill : g.reading.c.tp.fill ≠ .ll)
    (hgo : g.reading.goesOn = true → g.reading.c.tp.dataReceived ≠ acWrDataComplete) :
    (g.calls sizes k).records = g.records := by
  induction k generalizing g with
  | zero => rfl
  | succ k ih =>
    cases hq : g.reading.c.rcb.hsToPsBufferQueue with
    | nil =>
      have hcall : g.call sizes = g := by rw [Tally.call, hq]
      rw [Tally.calls, hcall]
      exact ih hfill hgo
    | cons m q =>
      have hreceive : Unmarked (g.reading.receive sizes).1.tp := by
        rw [Reading.receive]
        split
        · rename_i hgo'
          exact ⟨hfill, hgo hgo'⟩
        · exact ⟨hfill, by simp [askFor, acWrNoDataReceived, acWrDataComplete]⟩
      cases hp : Ps.processData { (g.reading.receive sizes).1 with rcb.hsToPsBufferQueue := q } m with
      | none =>
        have hcall : g.call sizes = g := by
          rw [Tally.call, hq]
          simp only [hp]
        rw [Tally.calls, hcall]
        exact ih hfill hgo
      | some d =>
        have hd := Unmarked.processData (c := { (g.reading.receive sizes).1 with
          rcb.hsToPsBufferQueue := q }) hreceive hp
        have hcall : (g.call sizes).records = g.records ∧ (g.call sizes).reading.c = d.c := by
          have hc : (g.reading.call sizes).c = d.c := by rw [call_of_some hq hp]
          rw [Tally.call, hq]
          simp only [hp]
          rw [if_neg hd.2]
          split_ifs <;> exact ⟨rfl, hc⟩
        obtain ⟨hrecords, hc⟩ := hcall
        rw [Tally.calls, ih (by rw [hc]; exact hd.1) (fun _ => by rw [hc]; exact hd.2), hrecords]

end Calls

end Tally

/-! ## Send_Data -/

theorem countTx_start {data : List UInt8} {size : Nat} (h : size < 2 ^ 16)
    (hsize : size ≤ data.length) :
    countTx data (.start size h) 0 = ({ LlTx.start size h with state := .complete }, 0 + (size - 0)) :=
  (if_pos rfl).trans (dif_neg (Nat.not_lt.mpr hsize))

/-- The check of the logical records accepts a record. -/
theorem validateLogicalRecords_bytes (slack : UInt8) {x : List UInt8} (hx : x.length ≤ 32763) :
    validateLogicalRecords slack {} (Spec.Mapped.bytes x) = some (acRcOk, {}) := by
  have hsize : llSizeAt slack (Spec.Mapped.bytes x) 0 = x.length + 4 := by
    show ((x.length + 4) / 2 ^ 8) % 2 ^ 8 * 2 ^ 8 + (x.length + 4) % 2 ^ 8 = x.length + 4
    omega
  have hlength := Spec.Mapped.length_bytes x
  have hstart : startTx slack (Spec.Mapped.bytes x) {} 0 =
      some (.start (llSizeAt slack (Spec.Mapped.bytes x) 0) (llSizeAt_lt _ _ _)) := by
    rw [startTx, if_pos rfl, if_neg (by omega), if_neg (by omega)]
  apply Framework.loop_succ_inr
  rw [validatePass, hstart]
  dsimp only
  rw [countTx_start _ (by omega), if_neg (by dsimp only; omega)]
  rfl

/-- A call of `sna_cpic_cmsend`, by what it is passed. -/
structure Send where
  buffer : Cpic.UserBytes
  length : Cpic.UserValue
  alloc : Bool

namespace Send

/-- The record: as many bytes of the buffer as the program says. -/
def data (s : Send) : List UInt8 := s.buffer.take (s.length.getD 0)

def call (s : Send) (router : Cpic.Router) : Cpic.Body :=
  Cpic.cmsend router s.buffer s.length s.alloc

/-- The call queues these bytes and no others, and returns what the verb router makes of them. -/
def Queues (s : Send) (tp : Cpic.Tp) (bytes : List UInt8) : Prop :=
  ∀ router, s.call router tp =
    (Cpic.appc2cpicRc (router (.sendData bytes) tp).rc, tp.replied (router (.sendData bytes) tp))

/-- The calls return that all is well, one after another. -/
def Succeed (router : Cpic.Router) : Cpic.Tp → List Send → Prop
  | _, [] => True
  | tp, s :: sends => (s.call router tp).1 = Cpic.cmOk ∧ Succeed router (s.call router tp).2 sends

/-- What each of the calls queues. -/
def Queue (router : Cpic.Router) : Cpic.Tp → List Send → List (List UInt8) → Prop
  | _, [], queued => queued = []
  | tp, s :: sends, queued =>
    ∃ bytes rest, queued = bytes :: rest ∧ s.Queues tp bytes ∧ Queue router (s.call router tp).2 sends rest

variable {s : Send} {sends : List Send} {tp : Cpic.Tp} {router : Cpic.Router}

/-- A mapped Send_Data fails and changes nothing, or it queues the record that it is passed, with its
header. -/
theorem call_mapped (s : Send) (h : tp.conversationType = Cpic.acConversationTypeMapped) :
    (∃ rc, rc ≠ Cpic.cmOk ∧ ∀ router, s.call router tp = (rc, tp)) ∨
      s.length = some s.data.length ∧ s.data.length ≤ 32763 ∧
        s.Queues tp (Spec.Mapped.bytes s.data) := by
  obtain ⟨buffer, length, alloc⟩ := s
  cases length with
  | none => exact .inl ⟨Cpic.cmProductSpecificError, by decide, fun router => rfl⟩
  | some n =>
    by_cases hmax : n > Cpic.acMaxBuffer
    · exact .inl ⟨Cpic.cmProgramParameterCheck, by decide, fun router => if_pos hmax⟩
    · cases halloc : alloc with
      | false =>
        exact .inl ⟨Cpic.cmProductSpecificError, by decide, fun router => if_neg hmax⟩
      | true =>
        by_cases haddr : n ≤ Cpic.maxSnaAddr ∧ n ≤ buffer.length
        · have hbytes : Cpic.utok buffer n = some (buffer.take n) := by
            rw [Cpic.utok, if_neg (Nat.not_lt.mpr haddr.1), if_pos haddr.2]
          have hlen : (buffer.take n).length = n := List.length_take_of_le haddr.2
          refine .inr ⟨congrArg some hlen.symm, hlen.trans_le (haddr.1.trans (by decide)), fun router => ?_⟩
          have hrecord : Cpic.sendRecord tp (buffer.take n) = Spec.Mapped.bytes (buffer.take n) :=
            if_pos h
          simp only [call, data, Option.getD_some, Cpic.cmsend, hmax, hbytes, hrecord, if_false,
            Bool.not_true, Bool.false_eq_true]
        · have hbytes : Cpic.utok buffer n = none := by
            rw [Cpic.utok]
            split_ifs with h1 h2
            · rfl
            · exact absurd ⟨Nat.not_lt.mp h1, h2⟩ haddr
            · rfl
          refine .inl ⟨Cpic.cmProductSpecificError, by decide, fun router => ?_⟩
          simp only [call, Cpic.cmsend, hmax, hbytes, if_false, Bool.not_true, Bool.false_eq_true]

theorem Queues.type {bytes : List UInt8} (h : s.Queues tp bytes) (router : Cpic.Router) :
    (s.call router tp).2.conversationType = tp.conversationType := by
  rw [h router]
  rfl

/-- Calls that succeed queue their records, each with its header. -/
theorem Succeed.queue (htype : tp.conversationType = Cpic.acConversationTypeMapped)
    (h : Succeed router tp sends) :
    Queue router tp sends (sends.map fun s => Spec.Mapped.bytes s.data) ∧
      ∀ s ∈ sends, s.data.length ≤ 32763 := by
  induction sends generalizing tp with
  | nil => exact ⟨rfl, fun s hs => absurd hs List.not_mem_nil⟩
  | cons s sends ih =>
    obtain ⟨hok, hrest⟩ := h
    obtain ⟨rc, hrc, hfail⟩ | ⟨-, hle, hqueues⟩ := s.call_mapped htype
    · rw [hfail] at hok
      exact absurd hok hrc
    · obtain ⟨hqueue, hles⟩ := ih ((hqueues.type router).trans htype) hrest
      exact ⟨⟨_, _, rfl, hqueues, hqueue⟩, List.forall_mem_cons.mpr ⟨hle, hles⟩⟩

end Send

/-! ## The round trip -/

/-- Which records a program gets, by its fill, their lengths and the cut -/
theorem getsAll_iff {sizes : Nat → Nat} {c : Conversation}
    (htype : c.tp.conversationType = .mapped) (hstate : c.rcb.llRx.state = .none)
    (hsizes : ∀ i, 1 ≤ sizes i) {rs : List (List UInt8)} (hcut : Cut rs (pieces c))
    (hle : ∀ x ∈ rs, x.length ≤ 32763) :
    Tally.GetsAll sizes rs { reading := { c := c } } ↔
      (rs ≠ [] → c.tp.fill = .ll) ∧ (∀ x ∈ rs, x.length < 2 ^ 8) ∧ WholeHeads 0 rs (pieces c) := by
  by_cases hfill : c.tp.fill = .ll
  · rw [and_iff_right fun _ => hfill]
    exact Tally.Aligned.getsAll_iff
      ⟨rfl, hcut.nonempty, .inl ⟨⟨⟨htype, hfill, fun h => by cases h⟩, hstate, rfl⟩, rfl, rfl, rfl, hcut.flatten⟩⟩
      hsizes hle
  · cases rs with
    | nil =>
      have hqueue : c.rcb.hsToPsBufferQueue = [] := by
        cases hq : c.rcb.hsToPsBufferQueue with
        | nil => rfl
        | cons m q =>
          have hflat := hcut.flatten
          have hne := hcut.nonempty
          rw [Ps.pieces, hq, List.map_cons] at hflat hne
          have hnil := (List.append_eq_nil_iff.mp hflat).1
          exact absurd (hnil ▸ List.mem_cons_self) hne
      exact iff_of_true ⟨0, hqueue, hstate, rfl, rfl, rfl⟩
        ⟨fun h => absurd rfl h, fun x hx => absurd hx List.not_mem_nil,
          Spec.Mapped.wholeHeads_nil _ _⟩
    | cons x rest =>
      refine iff_of_false ?_ fun h => hfill (h.1 (List.cons_ne_nil x rest))
      rintro ⟨k, hk⟩
      have hnone : (({ reading := { c := c } } : Tally).calls sizes k).records = [] :=
        Tally.Unmarked.calls hfill fun h => by cases h
      exact List.cons_ne_nil x rest (hk.records.symm.trans hnone)

/-- A program gets the records of a mapped conversation exactly if the fill is by records, none
of them is longer than 255 bytes, and the cut leaves their headers whole. Calls of Send_Data that
succeed queue the records that they are passed, in order, so that this holds of any cut of what they
queue; and whatever a Send_Data queues has a header that the check on the way out accepts. -/
theorem mapped_records (sizes : Nat → Nat) (c : Conversation)
    (htype : c.tp.conversationType = .mapped) (hstate : c.rcb.llRx.state = .none)
    (hne : [] ∉ pieces c) (hsizes : ∀ i, 1 ≤ sizes i) :
    (∀ rs, (pieces c).flatten = stream rs → (∀ x ∈ rs, x.length ≤ 32763) →
      (Tally.GetsAll sizes rs { reading := { c := c } } ↔
        (rs ≠ [] → c.tp.fill = .ll) ∧ (∀ x ∈ rs, x.length < 2 ^ 8) ∧ WholeHeads 0 rs (pieces c))) ∧
    (∀ router sends, ∀ tp : Cpic.Tp, tp.conversationType = Cpic.acConversationTypeMapped →
      Send.Succeed router tp sends →
        Send.Queue router tp sends (sends.map fun s => Spec.Mapped.bytes s.data) ∧
          ((pieces c).flatten = (sends.map fun s => Spec.Mapped.bytes s.data).flatten →
            (Tally.GetsAll sizes (sends.map Send.data) { reading := { c := c } } ↔
              (sends ≠ [] → c.tp.fill = .ll) ∧ (∀ s ∈ sends, s.data.length < 2 ^ 8) ∧
                WholeHeads 0 (sends.map Send.data) (pieces c)))) ∧
    ∀ s : Send, ∀ tp : Cpic.Tp, tp.conversationType = Cpic.acConversationTypeMapped →
      (∃ rc, rc ≠ Cpic.cmOk ∧ ∀ router, s.call router tp = (rc, tp)) ∨
        s.length = some s.data.length ∧ s.Queues tp (Spec.Mapped.bytes s.data) ∧
          ∀ slack, validateLogicalRecords slack {} (Spec.Mapped.bytes s.data) = some (acRcOk, {}) := by
  refine ⟨fun rs hflat hle => getsAll_iff htype hstate hsizes ⟨hflat, hne⟩ hle,
    fun router sends tp htp h => ?_, fun s tp htp => ?_⟩
  · obtain ⟨hqueue, hle⟩ := h.queue htp
    refine ⟨hqueue, fun hflat => ?_⟩
    have hcut : Cut (sends.map Send.data) (pieces c) := by
      refine ⟨?_, hne⟩
      rw [hflat, stream, List.flatMap_map]
      rfl
    rw [getsAll_iff htype hstate hsizes hcut (List.forall_mem_map.mpr hle), List.forall_mem_map,
      ne_eq, List.map_eq_nil_iff]
  · obtain hfail | ⟨hlength, hle, hqueues⟩ := s.call_mapped htp
    · exact .inl hfail
    · exact .inr ⟨hlength, hqueues, fun slack => validateLogicalRecords_bytes slack hle⟩

/-- A conversation with MUs of these bytes -/
def ofPieces (ps : List (List UInt8)) : Conversation :=
  { rcb := { convState := .rcvState, hsToPsBufferQueue := ps.map fun p => { data := p } }
    tp := { conversationType := .mapped } }

theorem pieces_ofPieces (ps : List (List UInt8)) : pieces (ofPieces ps) = ps := by
  rw [pieces, ofPieces, List.map_map]
  exact List.map_id ps

theorem aligned_ofPieces {rs ps : List (List UInt8)} (h : Cut rs ps) :
    Tally.Aligned rs { reading := { c := ofPieces ps } } 0 rs := by
  refine ⟨rfl, ?_, .inl ⟨⟨⟨rfl, rfl, nofun⟩, rfl, rfl⟩, rfl, rfl, rfl, ?_⟩⟩ <;>
    rw [Tally.pieces, pieces_ofPieces]
  · exact h.nonempty
  · exact h.flatten

theorem cut_single (x : List UInt8) : Cut [x] [Spec.Mapped.bytes x] where
  flatten := by rw [List.flatten_singleton, Spec.Mapped.stream_cons, Spec.Mapped.stream_nil,
    List.append_nil]
  nonempty h := by
    have := congrArg List.length (List.mem_singleton.mp h)
    rw [Spec.Mapped.length_bytes] at this
    cases this

/-- A record of 3 bytes, sent by a program that has 5 bytes in its buffer and received 2 bytes at a
time from two MUs, of which the first holds the header. -/
theorem mapped_records_short :
    Tally.GetsAll (fun _ => 2) [[1, 2, 3]]
      { reading := { c := ofPieces [[0, 7, 0x12, 0xFF], [1, 2, 3]] } } := by
  have hround := (mapped_records (fun _ => 2) (ofPieces [[0, 7, 0x12, 0xFF], [1, 2, 3]]) rfl rfl
    (by decide) fun _ => by decide).2.1 (fun _ _ => ⟨0, 0, 0, 0⟩) [⟨[1, 2, 3, 4, 5], some 3, true⟩]
    { conversationType := Cpic.acConversationTypeMapped } rfl ⟨rfl, trivial⟩
  exact (hround.2 rfl).mpr ⟨fun _ => rfl, by decide, (Spec.Mapped.wholeHeads_cons (by decide)).mpr
    ⟨⟨by decide, by decide⟩, Spec.Mapped.wholeHeads_nil _ _⟩⟩

/-- A record of 256 bytes in one MU, and one of 3 bytes whose header is cut after its first byte:
a program that asks for 300 bytes at a time gets neither. -/
theorem mapped_records_lost :
    (Cut [List.replicate 256 0] [Spec.Mapped.bytes (List.replicate 256 0)] ∧
      ¬ Tally.GetsAll (fun _ => 300) [List.replicate 256 0]
        { reading := { c := ofPieces [Spec.Mapped.bytes (List.replicate 256 0)] } }) ∧
    Cut [[1, 2, 3]] [[0], [7, 0x12, 0xFF, 1, 2, 3]] ∧
      ¬ Tally.GetsAll (fun _ => 300) [[1, 2, 3]]
        { reading := { c := ofPieces [[0], [7, 0x12, 0xFF, 1, 2, 3]] } } := by
  have hsizes : ∀ i, 1 ≤ (fun _ : Nat => 300) i := fun _ => Nat.le_of_ble_eq_true rfl
  have hlong : (List.replicate 256 (0 : UInt8)).length = 256 := List.length_replicate
  have hcut := cut_single (List.replicate 256 0)
  have hcut' : Cut [[1, 2, 3]] [[0], [7, 0x12, 0xFF, 1, 2, 3]] := ⟨rfl, by decide⟩
  refine ⟨⟨hcut, fun h => ?_⟩, hcut', fun h => ?_⟩
  · have hshort := (((aligned_ofPieces hcut).getsAll_iff hsizes (fun x hx => by
      rw [List.mem_singleton.mp hx, hlong]
      decide)).mp h).1 _ (List.mem_singleton_self _)
    rw [hlong] at hshort
    exact absurd hshort (by decide)
  · have hheads := (((aligned_ofPieces hcut').getsAll_iff hsizes (by decide)).mp h).2
    exact ((Spec.Mapped.wholeHeads_cons (by decide)).mp hheads).1.1 rfl

end LinuxSna.Ps
