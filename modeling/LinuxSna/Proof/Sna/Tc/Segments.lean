import LinuxSna.Proof.Sna.Tc.Flow

/-!
# The reassembly of segments

`sna_tc_segment` on what path control delivers, one segment after the other. A
BIU is put together from copies of its first segment, so it comes out right only
where the concatenation of its segments looks the same.

* `copySegments_eq_some`: what the copies make, and the room they take;
* `delivers_iff`: the reassembly of one BIU;
* `segment_reassembly`: any number of BIUs, and what is never mixed.
-/

namespace LinuxSna.Tc

open Hs Framework

variable {hs : Hs} {m : Mu}

/-- A segment as it arrives: the size of the buffer that holds it, and whether
there is memory for a whole BIU at that time, with the room that it has to
spare. -/
structure Arrival where
  mu : Mu
  truesize : Nat
  alloc : Option Nat

/-- A half-session, and what it has delivered. -/
structure Reassembly where
  hs : Hs
  delivered : List Mu

/-- The call of `sna_tc_segment` for an arrival; `none` if the kernel stops. -/
def Reassembly.step (r : Reassembly) (a : Arrival) : Option Reassembly :=
  (r.hs.segment a.mu a.truesize a.alloc).map fun x => ⟨x.1, r.delivered ++ x.2.toList⟩

/-- The segments of a BIU: a first, any number in the middle, and a last one. -/
structure Biu where
  first : Arrival
  middles : List Arrival
  last : Arrival
  begins : first.mu.mpf = .bbiu
  within : ∀ a ∈ middles, a.mu.mpf = .noBiu
  ends : last.mu.mpf = .ebiu

namespace Biu

def arrivals (b : Biu) : List Arrival := b.first :: b.middles ++ [b.last]

/-- The RU of the BIU. -/
def ru (b : Biu) : List UInt8 := (b.arrivals.map (·.mu.data)).flatten

end Biu

/-- No segment is held, and none is expected but a first one. -/
structure Ready (hs : Hs) : Prop where
  segments : hs.segments = []
  segmentIn : hs.segmentIn = .none
  segmentLen : hs.segmentLen = 0

/-- A BIU is delivered as one MU after its last segment, and not before; if
there is no memory then, it is not. Either way, the next BIU can come. -/
def Delivers (hs : Hs) (b : Biu) : Prop :=
  ∃ r, run Reassembly.step ⟨hs, []⟩ (b.first :: b.middles) = some r ∧ r.delivered = [] ∧
    ∃ r', Reassembly.step r b.last = some r' ∧ Ready r'.hs ∧
      match b.last.alloc with
      | none => r'.delivered = []
      | some _ => ∃ m, r'.delivered = [m] ∧ m.data = b.ru

/-- The half-session after a BIU. -/
def biuStep (hs : Hs) (b : Biu) : Option Hs :=
  (run Reassembly.step ⟨hs, []⟩ b.arrivals).map (·.hs)

/-- Some bytes over and over. -/
def repeated (k : Nat) (data : List UInt8) : List UInt8 := (List.replicate k data).flatten

/-- The segments that are not too long for an RU. -/
def accepted (max : Nat) (as : List Arrival) : List Arrival :=
  as.filter fun a => a.mu.data.length ≤ max

/-- The length of some segments. -/
def total (as : List Arrival) : Nat := (as.map (·.mu.data.length)).sum

/-- The BIUs that come out right. When there is memory: those whose first and
last segment are not too long, whose RU is that of the first segment, doubled
for each segment that follows and is not too long, and for which the buffer has
the room. When there is none: those of which nothing is held. -/
def Rebuilds (hs : Hs) (b : Biu) : Prop :=
  let max := hs.maxRxRuSize.toNat
  match b.last.alloc with
  | none => ∀ a ∈ b.arrivals, max < a.mu.data.length
  | some slack =>
    let rest := accepted max (b.middles ++ [b.last])
    let first := b.first.mu.data
    first.length ≤ max ∧ b.last.mu.data.length ≤ max ∧
      b.ru = repeated (2 ^ rest.length) first ∧
      first.length * (2 ^ rest.length - 1) ≤ (b.first.truesize + total rest) % 65536 + slack

instance (b : Biu) : Decidable (Rebuilds hs b) := by
  unfold Rebuilds
  split <;> infer_instance

/-! ## The copies -/

theorem repeated_double (k : Nat) (data : List UInt8) :
    repeated k (data ++ data) = repeated (2 * k) data := by
  induction k with
  | zero => rfl
  | succ k ih =>
    rw [Nat.mul_succ, repeated, repeated, List.replicate_succ, List.replicate_succ,
      List.replicate_succ, List.flatten_cons, List.flatten_cons, List.flatten_cons,
      List.append_assoc]
    congr 2

/-- Each copy doubles what there is. -/
theorem copySegments_eq_some {data data' : List UInt8} {room : Nat} {segments : List Mu} :
    copySegments data room segments = some data' ↔
      data.length * (2 ^ segments.length - 1) ≤ room ∧
        data' = repeated (2 ^ segments.length) data := by
  induction segments generalizing data room with
  | nil => simp [copySegments, repeated, eq_comm]
  | cons s segments ih =>
    have hpos : 0 < 2 ^ segments.length := Nat.two_pow_pos _
    have hlen : (data ++ data).length * (2 ^ segments.length - 1) + data.length =
        data.length * (2 ^ (segments.length + 1) - 1) := by
      obtain ⟨k, hk⟩ := Nat.exists_eq_succ_of_ne_zero (Nat.pos_iff_ne_zero.mp hpos)
      rw [List.length_append, pow_succ, hk]
      simp only [Nat.succ_eq_add_one, Nat.add_sub_cancel]
      have : (k + 1) * 2 - 1 = 2 * k + 1 := by omega
      rw [this]
      ring
    rw [copySegments]
    split
    · rw [ih, repeated_double, List.length_cons, ← hlen, Nat.pow_succ']
      exact and_congr_left fun _ => by omega
    · apply iff_of_false nofun
      intro h
      rw [List.length_cons, ← hlen] at h
      omega

/-! ## One segment -/

/-- The segments held, of some length, and whether the first is among them. -/
structure Holds (hs : Hs) (firstIn : Bool) (held : List Arrival) (len : Nat) : Prop where
  segments : hs.segments = held.map (·.mu)
  segmentIn : hs.segmentIn = ⟨firstIn, false, false⟩
  segmentLen : hs.segmentLen = UInt16.ofNat len

theorem segment_long {truesize : Nat} {alloc : Option Nat}
    (h : hs.maxRxRuSize.toNat < m.data.length) : hs.segment m truesize alloc = some (hs, none) := by
  rw [Hs.segment, if_pos h]

theorem segment_short {truesize : Nat} {alloc : Option Nat}
    (h : m.data.length ≤ hs.maxRxRuSize.toNat) (hw : m.mpf ≠ .wholeBiu) :
    hs.segment m truesize alloc =
      if (hs.segmentQueue m truesize).segmentIn = ⟨true, true, false⟩ then
        ((hs.segmentQueue m truesize).segmentReasm alloc).map fun r =>
          ({ r.1 with adjustIpmAckOutstanding := false }, r.2)
      else some (hs.segmentQueue m truesize, none) := by
  rw [Hs.segment, if_neg (by omega), if_neg hw]

/-- A segment put on the list. The buffer of the first counts as a whole. -/
theorem holds_segmentQueue {f : Bool} {held : List Arrival} {len : Nat} (h : Holds hs f held len)
    (a : Arrival) (hl : a.mu.mpf ≠ .ebiu) :
    Holds (hs.segmentQueue a.mu a.truesize) (f || a.mu.mpf = .bbiu) (held ++ [a])
      (len + if a.mu.mpf = .bbiu then a.truesize else a.mu.data.length) := by
  have hc : hs.segmentIn.complete = false := by rw [h.segmentIn]
  have hq : hs.segmentQueue a.mu a.truesize =
      { hs with
        segmentIn := ⟨f || a.mu.mpf = .bbiu, false, false⟩
        segmentLen := hs.segmentLen +
          (if a.mu.mpf = .bbiu then UInt16.ofNat a.truesize - UInt16.ofNat a.mu.data.length else 0) +
          UInt16.ofNat a.mu.data.length
        segments := hs.segments ++ [a.mu]
        segmentNum := hs.segmentNum + 1 } := by
    simp [segmentQueue, h.segmentIn, hl]
  rw [hq]
  refine ⟨by simp [h.segments], rfl, ?_⟩
  show hs.segmentLen + _ + _ = _
  rw [h.segmentLen]
  split
  · rw [UInt16.add_assoc, UInt16.sub_add_cancel, UInt16.ofNat_add]
  · rw [UInt16.add_zero, UInt16.ofNat_add]

@[simp] theorem segmentQueue_max {truesize : Nat} :
    (hs.segmentQueue m truesize).maxRxRuSize = hs.maxRxRuSize := by
  unfold segmentQueue; split <;> rfl

/-- A segment that is not the last is held, unless it is too long. -/
theorem step_held {f : Bool} {held : List Arrival} {len : Nat} {d : List Mu}
    (h : Holds hs f held len) {a : Arrival} (hw : a.mu.mpf ≠ .wholeBiu) (hl : a.mu.mpf ≠ .ebiu)
    (hlen : a.mu.data.length ≤ hs.maxRxRuSize.toNat) :
    Reassembly.step ⟨hs, d⟩ a = some ⟨hs.segmentQueue a.mu a.truesize, d⟩ := by
  have hq := holds_segmentQueue h a hl
  rw [Reassembly.step, segment_short hlen hw, if_neg (by simp [hq.segmentIn])]
  simp

theorem step_long {d : List Mu} {a : Arrival} (hlen : hs.maxRxRuSize.toNat < a.mu.data.length) :
    Reassembly.step ⟨hs, d⟩ a = some ⟨hs, d⟩ := by
  simp [Reassembly.step, segment_long hlen]

/-- The segments in the middle. -/
theorem run_middles {f : Bool} {held : List Arrival} {len : Nat} {d : List Mu} {as : List Arrival}
    (has : ∀ a ∈ as, a.mu.mpf = .noBiu) (h : Holds hs f held len) :
    ∃ hs', run Reassembly.step ⟨hs, d⟩ as = some ⟨hs', d⟩ ∧ hs'.maxRxRuSize = hs.maxRxRuSize ∧
      Holds hs' f (held ++ accepted hs.maxRxRuSize.toNat as)
        (len + total (accepted hs.maxRxRuSize.toNat as)) := by
  induction as generalizing hs held len with
  | nil => exact ⟨hs, rfl, rfl, by simpa [accepted, total] using h⟩
  | cons a as ih =>
    have ha := has a List.mem_cons_self
    have has := fun a' ha' => has a' (List.mem_cons_of_mem a ha')
    by_cases hlen : a.mu.data.length ≤ hs.maxRxRuSize.toNat
    · have hq := holds_segmentQueue h a (by rw [ha]; nofun)
      simp only [ha, reduceCtorEq, decide_false, Bool.or_false, if_false] at hq
      obtain ⟨hs', hr, hm, hh⟩ := ih has hq
      rw [segmentQueue_max] at hm hh
      refine ⟨hs', run_cons.mpr ⟨_, step_held h (by rw [ha]; nofun) (by rw [ha]; nofun) hlen, hr⟩,
        hm, ?_⟩
      have hacc : accepted hs.maxRxRuSize.toNat (a :: as) =
          a :: accepted hs.maxRxRuSize.toNat as := by
        simp [accepted, hlen]
      rw [hacc]
      simpa [total, Nat.add_assoc] using hh
    · obtain ⟨hs', hr, hm, hh⟩ := ih has h
      refine ⟨hs', run_cons.mpr ⟨_, step_long (by omega), hr⟩, hm, ?_⟩
      have hacc : accepted hs.maxRxRuSize.toNat (a :: as) = accepted hs.maxRxRuSize.toNat as := by
        simp [accepted, hlen]
      rwa [hacc]

/-! ## The last segment -/

/-- What the last segment finds when it is not too long, and what becomes of it. -/
theorem holds_last {f : Bool} {held : List Arrival} {len : Nat} (h : Holds hs f held len)
    {a : Arrival} (hl : a.mu.mpf = .ebiu) :
    (hs.segmentQueue a.mu a.truesize).segmentIn = ⟨f, true, false⟩ ∧
      (hs.segmentQueue a.mu a.truesize).segments = (held ++ [a]).map (·.mu) ∧
      (hs.segmentQueue a.mu a.truesize).segmentLen =
        UInt16.ofNat (len + a.mu.data.length) := by
  simp [segmentQueue, h.segmentIn, hl, h.segments, h.segmentLen, UInt16.ofNat_add]

/-- Without a first segment, nothing is reassembled. -/
theorem step_last_alone {held : List Arrival} {len : Nat} {d : List Mu}
    (h : Holds hs false held len) {a : Arrival} (hl : a.mu.mpf = .ebiu)
    (hlen : a.mu.data.length ≤ hs.maxRxRuSize.toNat) :
    Reassembly.step ⟨hs, d⟩ a = some ⟨hs.segmentQueue a.mu a.truesize, d⟩ := by
  rw [Reassembly.step, segment_short hlen (by rw [hl]; nofun), (holds_last h hl).1]
  simp

/-- With the first segment there, the whole BIU is reassembled. -/
theorem step_last {s : Arrival} {held : List Arrival} {len : Nat} {d : List Mu}
    (h : Holds hs true (s :: held) len) {a : Arrival} (hl : a.mu.mpf = .ebiu)
    (hlen : a.mu.data.length ≤ hs.maxRxRuSize.toNat) :
    Reassembly.step ⟨hs, d⟩ a =
      ((hs.segmentQueue a.mu a.truesize).segmentReasm a.alloc).map fun x =>
        ⟨{ x.1 with adjustIpmAckOutstanding := false }, d ++ x.2.toList⟩ := by
  rw [Reassembly.step, segment_short hlen (by rw [hl]; nofun), if_pos (holds_last h hl).1,
    Option.map_map]
  rfl

/-- Without memory, the bits that say so stay set. -/
theorem step_last_none {s : Arrival} {held : List Arrival} {len : Nat} {d : List Mu}
    (h : Holds hs true (s :: held) len) {a : Arrival} (hl : a.mu.mpf = .ebiu)
    (hlen : a.mu.data.length ≤ hs.maxRxRuSize.toNat) (ha : a.alloc = none) :
    ∃ hs', Reassembly.step ⟨hs, d⟩ a = some ⟨hs', d⟩ ∧ hs'.segmentIn.complete = true := by
  have hs := (holds_last h hl).2.1
  rw [step_last h hl hlen, segmentReasm, ha]
  simp only [hs, List.cons_append, List.map_cons, Option.map_some, Option.toList_none,
    List.append_nil]
  exact ⟨_, rfl, rfl⟩

/-- With memory, it succeeds if the copies find the room. -/
theorem step_last_some {s : Arrival} {held : List Arrival} {len slack : Nat} {d : List Mu}
    (h : Holds hs true (s :: held) len) {a : Arrival} (hl : a.mu.mpf = .ebiu)
    (hlen : a.mu.data.length ≤ hs.maxRxRuSize.toNat) (ha : a.alloc = some slack) :
    match copySegments s.mu.data ((UInt16.ofNat (len + a.mu.data.length)).toNat + slack)
        ((held ++ [a]).map (·.mu)) with
    | none => Reassembly.step ⟨hs, d⟩ a = none
    | some data =>
      ∃ hs' m, Reassembly.step ⟨hs, d⟩ a = some ⟨hs', d ++ [m]⟩ ∧ Ready hs' ∧ m.data = data := by
  obtain ⟨-, hs, hlen'⟩ := holds_last h hl
  rw [step_last h hl hlen, segmentReasm, ha]
  simp only [hs, hlen', List.cons_append, List.map_cons]
  cases copySegments s.mu.data ((UInt16.ofNat (len + a.mu.data.length)).toNat + slack)
      ((held ++ [a]).map (·.mu)) with
  | none => rfl
  | some data => exact ⟨_, _, rfl, ⟨rfl, rfl, rfl⟩, rfl⟩

/-! ## One BIU -/

theorem ready_holds (h : Ready hs) : Holds hs false [] 0 :=
  ⟨h.segments, h.segmentIn, h.segmentLen⟩

/-- After the first segment and those in the middle, what is not too long is
held, in order, and nothing is delivered. -/
theorem run_before_last (h : Ready hs) (b : Biu) :
    ∃ hs', run Reassembly.step ⟨hs, []⟩ (b.first :: b.middles) = some ⟨hs', []⟩ ∧
      hs'.maxRxRuSize = hs.maxRxRuSize ∧
      if b.first.mu.data.length ≤ hs.maxRxRuSize.toNat then
        Holds hs' true (b.first :: accepted hs.maxRxRuSize.toNat b.middles)
          (b.first.truesize + total (accepted hs.maxRxRuSize.toNat b.middles))
      else Holds hs' false (accepted hs.maxRxRuSize.toNat b.middles)
          (total (accepted hs.maxRxRuSize.toNat b.middles)) := by
  have hf := b.begins
  split
  · rename_i hlen
    have hq := holds_segmentQueue (ready_holds h) b.first (by rw [hf]; nofun)
    simp only [hf, decide_true, Bool.or_true, if_true, Nat.zero_add, List.nil_append] at hq
    obtain ⟨hs', hr, hm, hh⟩ := run_middles (d := []) b.within hq
    rw [segmentQueue_max] at hm hh
    exact ⟨hs', run_cons.mpr ⟨_, step_held (ready_holds h) (by rw [hf]; nofun) (by rw [hf]; nofun)
      hlen, hr⟩, hm, hh⟩
  · rename_i hlen
    obtain ⟨hs', hr, hm, hh⟩ := run_middles (d := []) b.within (ready_holds h)
    refine ⟨hs', run_cons.mpr ⟨_, step_long (by omega), hr⟩, hm, ?_⟩
    simpa using hh

theorem not_ready_of_segments (h : hs.segments ≠ []) : ¬ Ready hs := fun hr => h hr.segments

theorem delivers_of_run {b : Biu} {hs' : Hs}
    (hr : run Reassembly.step ⟨hs, []⟩ (b.first :: b.middles) = some ⟨hs', []⟩) :
    Delivers hs b ↔
      ∃ r, Reassembly.step ⟨hs', []⟩ b.last = some r ∧ Ready r.hs ∧
        match b.last.alloc with
        | none => r.delivered = []
        | some _ => ∃ m, r.delivered = [m] ∧ m.data = b.ru := by
  constructor
  · rintro ⟨r, hr', -, h⟩
    cases hr.symm.trans hr'
    exact h
  · exact fun h => ⟨_, hr, rfl, h⟩

/-- What the last segment does alone decides whether a BIU is delivered. -/
theorem delivers_of_step {b : Biu} {hs' : Hs} {r : Reassembly}
    (hr : run Reassembly.step ⟨hs, []⟩ (b.first :: b.middles) = some ⟨hs', []⟩)
    (hl : Reassembly.step ⟨hs', []⟩ b.last = some r) (hn : ¬ Ready r.hs) : ¬ Delivers hs b := by
  rw [delivers_of_run hr]
  rintro ⟨r', hr', hd, -⟩
  cases hl.symm.trans hr'
  exact hn hd

theorem not_rebuilds_first {b : Biu} (h : hs.maxRxRuSize.toNat < b.first.mu.data.length)
    {a : Arrival} (ha : a ∈ b.arrivals) (hlen : a.mu.data.length ≤ hs.maxRxRuSize.toNat) :
    ¬ Rebuilds hs b := by
  unfold Rebuilds
  split
  · exact fun hall => absurd (hall a ha) (by omega)
  · exact fun hall => absurd hall.1 (by omega)

theorem mem_arrivals_first (b : Biu) : b.first ∈ b.arrivals := by simp [Biu.arrivals]

theorem mem_arrivals_last (b : Biu) : b.last ∈ b.arrivals := by simp [Biu.arrivals]

/-- Nothing but segments that are too long. -/
theorem delivers_iff_long {b : Biu} {hs' : Hs}
    (hr : run Reassembly.step ⟨hs, []⟩ (b.first :: b.middles) = some ⟨hs', []⟩)
    (hm : hs'.maxRxRuSize = hs.maxRxRuSize)
    (hh : Holds hs' false (accepted hs.maxRxRuSize.toNat b.middles)
      (total (accepted hs.maxRxRuSize.toNat b.middles)))
    (hf : hs.maxRxRuSize.toNat < b.first.mu.data.length)
    (hl : hs.maxRxRuSize.toNat < b.last.mu.data.length) :
    Delivers hs b ↔ Rebuilds hs b := by
  have hstep : Reassembly.step ⟨hs', []⟩ b.last = some ⟨hs', []⟩ := step_long (by rwa [hm])
  by_cases hacc : accepted hs.maxRxRuSize.toNat b.middles = []
  · rw [hacc] at hh
    have hready : Ready hs' := ⟨hh.segments, hh.segmentIn, hh.segmentLen⟩
    have hall : ∀ a ∈ b.arrivals, hs.maxRxRuSize.toNat < a.mu.data.length := by
      intro a ha
      simp only [Biu.arrivals, List.mem_append, List.mem_cons, List.not_mem_nil, or_false] at ha
      obtain (rfl | ha) | rfl := ha
      · exact hf
      · have := List.filter_eq_nil_iff.mp hacc a ha
        simpa using this
      · exact hl
    rw [delivers_of_run hr, hstep]
    unfold Rebuilds
    split
    · exact iff_of_true ⟨_, rfl, hready, rfl⟩ hall
    · refine iff_of_false ?_ fun h => absurd h.1 (by omega)
      rintro ⟨r, h, -, m, hm, -⟩
      cases h
      cases hm
  · obtain ⟨a, as, hcons⟩ := List.exists_cons_of_ne_nil hacc
    have hmem : a ∈ accepted hs.maxRxRuSize.toNat b.middles := hcons ▸ List.mem_cons_self
    obtain ⟨ha, hlen⟩ := List.mem_filter.mp hmem
    refine iff_of_false (delivers_of_step hr hstep (not_ready_of_segments ?_))
      (not_rebuilds_first hf (a := a) ?_ (by simpa using hlen))
    · rw [hh.segments, hcons]; nofun
    · simp [Biu.arrivals, ha]

theorem accepted_last {max : Nat} {as : List Arrival} {a : Arrival} (h : a.mu.data.length ≤ max) :
    accepted max (as ++ [a]) = accepted max as ++ [a] := by
  simp [accepted, h]

/-- With memory the last segment delivers the BIU exactly if the copies find the room
and give its RU. -/
theorem delivers_iff_copied {hs' : Hs} {b : Biu} {slack : Nat}
    (hr : run Reassembly.step ⟨hs, []⟩ (b.first :: b.middles) = some ⟨hs', []⟩)
    (hh : Holds hs' true (b.first :: accepted hs.maxRxRuSize.toNat b.middles)
      (b.first.truesize + total (accepted hs.maxRxRuSize.toNat b.middles)))
    (hl : b.last.mu.data.length ≤ hs.maxRxRuSize.toNat)
    (hl' : b.last.mu.data.length ≤ hs'.maxRxRuSize.toNat) (ha : b.last.alloc = some slack) :
    Delivers hs b ↔ copySegments b.first.mu.data
      ((b.first.truesize +
        total (accepted hs.maxRxRuSize.toNat (b.middles ++ [b.last]))) % 65536 + slack)
      ((accepted hs.maxRxRuSize.toNat (b.middles ++ [b.last])).map (·.mu)) = some b.ru := by
  have hstep := step_last_some (d := []) hh b.ends hl' ha
  rw [← accepted_last hl] at hstep
  have hroom : (UInt16.ofNat (b.first.truesize +
      total (accepted hs.maxRxRuSize.toNat b.middles) + b.last.mu.data.length)).toNat =
      (b.first.truesize +
        total (accepted hs.maxRxRuSize.toNat (b.middles ++ [b.last]))) % 65536 := by
    rw [accepted_last hl, UInt16.toNat_ofNat']
    simp [total, Nat.add_assoc]
  rw [hroom] at hstep
  rw [delivers_of_run hr, ha]
  split at hstep
  · rename_i hc
    rw [hstep, hc]
    exact iff_of_false (by rintro ⟨r, h, -⟩; cases h) nofun
  · rename_i data hc
    obtain ⟨hs₂, m, hstep, hready, hdata⟩ := hstep
    rw [hstep, hc, Option.some.injEq, ← hdata]
    constructor
    · rintro ⟨r, h, -, m', hm', hru⟩
      cases h
      cases hm'
      exact hru
    · exact fun hru => ⟨_, rfl, hready, m, rfl, hru⟩

/-- One BIU, from a state in which none is open. -/
theorem delivers_iff (h : Ready hs) (b : Biu) : Delivers hs b ↔ Rebuilds hs b := by
  obtain ⟨hs', hr, hm, hh⟩ := run_before_last h b
  split at hh
  · rename_i hf
    by_cases hl : b.last.mu.data.length ≤ hs.maxRxRuSize.toNat
    · have hl' : b.last.mu.data.length ≤ hs'.maxRxRuSize.toNat := by rwa [hm]
      cases ha : b.last.alloc with
      | none =>
        obtain ⟨hs₂, hstep, hc⟩ := step_last_none (d := []) hh b.ends hl' ha
        refine iff_of_false (delivers_of_step hr hstep fun hready => ?_) ?_
        · rw [hready.segmentIn] at hc; cases hc
        · simp only [Rebuilds, ha]
          exact fun hall => absurd (hall _ (mem_arrivals_first b)) (by omega)
      | some slack =>
        rw [delivers_iff_copied hr hh hl hl' ha, copySegments_eq_some, List.length_map]
        simp only [Rebuilds, ha]
        exact ⟨fun h => ⟨hf, hl, h.2, h.1⟩, fun h => ⟨h.2.2.2, h.2.2.1⟩⟩
    · have hstep : Reassembly.step ⟨hs', []⟩ b.last = some ⟨hs', []⟩ := step_long (by rw [hm]; omega)
      refine iff_of_false (delivers_of_step hr hstep (not_ready_of_segments ?_)) ?_
      · rw [hh.segments]; nofun
      · unfold Rebuilds
        split
        · exact fun hall => absurd (hall _ (mem_arrivals_first b)) (by omega)
        · exact fun hall => hl hall.2.1
  · rename_i hf
    by_cases hl : b.last.mu.data.length ≤ hs.maxRxRuSize.toNat
    · have hl' : b.last.mu.data.length ≤ hs'.maxRxRuSize.toNat := by rwa [hm]
      have hstep := step_last_alone (d := []) hh b.ends hl'
      refine iff_of_false (delivers_of_step hr hstep (not_ready_of_segments ?_))
        (not_rebuilds_first (by omega) (mem_arrivals_last b) hl)
      rw [(holds_last hh b.ends).2.1]
      simp
    · exact delivers_iff_long hr hm hh (by omega) (by omega)

/-- What a BIU that comes out right leaves. -/
theorem ready_of_delivers {b : Biu} {hs' : Hs} (h : Delivers hs b)
    (hstep : biuStep hs b = some hs') : Ready hs' := by
  obtain ⟨r, hr, -, r', hl, hready, -⟩ := h
  obtain ⟨r'', hr'', rfl⟩ := Option.map_eq_some_iff.mp hstep
  rw [Biu.arrivals, run_append, hr, Option.bind_some, run_cons] at hr''
  obtain ⟨t, ht, h⟩ := hr''
  cases hl.symm.trans ht
  cases h
  exact hready

/-! ## Arbitrary segments -/

/-- Each MU delivered is made of the RU of one of the segments. -/
def Unmixed (as : List Arrival) (r : Reassembly) : Prop :=
  (∀ m ∈ r.hs.segments, ∃ a ∈ as, a.mu = m) ∧
    ∀ d ∈ r.delivered, ∃ a ∈ as, ∃ k, d.data = repeated k a.mu.data

theorem segmentQueue_mem {truesize : Nat} :
    ∀ m' ∈ (hs.segmentQueue m truesize).segments, m' ∈ hs.segments ∨ m' = m := by
  unfold segmentQueue
  split
  · exact fun _ h => .inl h
  · exact fun m' h => by simpa using h

theorem segmentReasm_mem {alloc : Option Nat} {x : Hs × Option Mu}
    (h : hs.segmentReasm alloc = some x) :
    (∀ m ∈ x.1.segments, m ∈ hs.segments) ∧
      ∀ d ∈ x.2, ∃ s ∈ hs.segments, ∃ k, d.data = repeated k s.data := by
  unfold segmentReasm at h
  simp only at h
  split at h
  · cases h
    exact ⟨fun m hm => hm, by simp⟩
  · rename_i s segments hs
    rw [hs]
    split at h
    · cases h
      exact ⟨fun m hm => List.mem_cons_of_mem s hm, by simp⟩
    · split at h
      · cases h
      · rename_i data hc
        cases h
        refine ⟨by simp, fun d hd => ?_⟩
        rw [← Option.mem_some_iff.mp hd]
        exact ⟨s, List.mem_cons_self, _, (copySegments_eq_some.mp hc).2⟩

theorem segment_mem {truesize : Nat} {alloc : Option Nat} {x : Hs × Option Mu}
    (h : hs.segment m truesize alloc = some x) :
    (∀ m' ∈ x.1.segments, m' ∈ hs.segments ∨ m' = m) ∧
      ∀ d ∈ x.2, ∃ s, (s ∈ hs.segments ∨ s = m) ∧ ∃ k, d.data = repeated k s.data := by
  unfold Hs.segment at h
  split at h
  · cases h
    exact ⟨fun m' hm => .inl hm, by simp⟩
  · split at h
    · cases h
      refine ⟨fun m' hm => .inl hm, fun d hd => ?_⟩
      rw [← Option.mem_some_iff.mp hd]
      exact ⟨m, .inr rfl, 1, by simp [repeated]⟩
    · simp only at h
      split at h
      · obtain ⟨y, hy, rfl⟩ := Option.map_eq_some_iff.mp h
        obtain ⟨hseg, hd⟩ := segmentReasm_mem hy
        refine ⟨fun m' hm => segmentQueue_mem m' (hseg m' hm), fun d hd' => ?_⟩
        obtain ⟨s, hs, hk⟩ := hd d hd'
        exact ⟨s, segmentQueue_mem s hs, hk⟩
      · cases h
        exact ⟨segmentQueue_mem, by simp⟩

theorem unmixed_step {as : List Arrival} {r r' : Reassembly} {a : Arrival} (h : Unmixed as r)
    (hs : Reassembly.step r a = some r') : Unmixed (as ++ [a]) r' := by
  obtain ⟨x, hx, rfl⟩ := Option.map_eq_some_iff.mp hs
  obtain ⟨hseg, hdel⟩ := segment_mem hx
  have hfrom : ∀ m, m ∈ r.hs.segments ∨ m = a.mu → ∃ a' ∈ as ++ [a], a'.mu = m := by
    rintro m (hm | rfl)
    · obtain ⟨a', ha', h'⟩ := h.1 m hm
      exact ⟨a', List.mem_append_left _ ha', h'⟩
    · exact ⟨a, List.mem_append_right _ List.mem_cons_self, rfl⟩
  refine ⟨fun m hm => hfrom m (hseg m hm), fun d hd => ?_⟩
  rcases List.mem_append.mp hd with hd | hd
  · obtain ⟨a', ha', hk⟩ := h.2 d hd
    exact ⟨a', List.mem_append_left _ ha', hk⟩
  · obtain ⟨s, hs, k, hk⟩ := hdel d (Option.mem_toList.mp hd)
    obtain ⟨a', ha', rfl⟩ := hfrom s hs
    exact ⟨a', ha', k, hk⟩

theorem unmixed_run {as bs : List Arrival} {r r' : Reassembly} (h : Unmixed as r)
    (hr : run Reassembly.step r bs = some r') : Unmixed (as ++ bs) r' := by
  induction bs generalizing as r with
  | nil => cases hr; rwa [List.append_nil]
  | cons b bs ih =>
    obtain ⟨t, ht, hr⟩ := run_cons.mp hr
    have hu := ih (unmixed_step h ht) hr
    rwa [List.append_assoc] at hu

/-! ## Runs -/

theorem ready_init (type : HsType) (bind : Bind) : Ready (init type bind) := ⟨rfl, rfl, rfl⟩

/-- For every BIND: any number of BIUs in segments are delivered exactly if each
of them is one that comes out right; and whatever the order of the segments,
an MU is made of the RU of one of them. -/
theorem segment_reassembly (type : HsType) (bind : Bind) :
    (∀ bs, Along biuStep Delivers (init type bind) bs ↔ Along biuStep Rebuilds (init type bind) bs) ∧
      ∀ as r, run Reassembly.step ⟨init type bind, []⟩ as = some r →
        ∀ d ∈ r.delivered, ∃ a ∈ as, ∃ k, d.data = repeated k a.mu.data := by
  constructor
  · intro bs
    refine along_iff (I := Ready) ?_ (fun hs b h => delivers_iff h b) (ready_init type bind)
    exact fun hs b hs' h hb hstep => ready_of_delivers ((delivers_iff h b).mpr hb) hstep
  · intro as r h
    have hu : Unmixed [] ⟨init type bind, []⟩ := ⟨by simp [init], by simp⟩
    exact (unmixed_run hu h).2

/-- A BIU of two segments. -/
def twoSegments (first last : List UInt8) : Biu where
  first := ⟨request .bbiu first, 2000, none⟩
  middles := []
  last := ⟨request .ebiu last, 2000, some 0⟩
  begins := rfl
  within := List.forall_mem_nil _
  ends := rfl

/-- Both halves are the same. -/
theorem segment_reassembly_same :
    Along biuStep Delivers (init .fsp (adaptiveBind 1))
      [twoSegments (List.replicate 10 1) (List.replicate 10 1)] :=
  ((segment_reassembly .fsp (adaptiveBind 1)).1 _).mpr ⟨by decide, fun _ _ => trivial⟩

/-- The second half is not the first. -/
theorem segment_reassembly_wrong :
    ¬ Along biuStep Delivers (init .fsp (adaptiveBind 1))
      [twoSegments (List.replicate 10 1) (List.replicate 3 2)] := by
  rintro ⟨h, -⟩
  rw [delivers_iff (ready_init .fsp (adaptiveBind 1))] at h
  revert h
  decide

end LinuxSna.Tc
