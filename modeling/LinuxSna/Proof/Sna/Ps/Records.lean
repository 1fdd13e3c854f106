import LinuxSna.Proof.Sna.Ps.Data
import LinuxSna.Spec.Records

/-!
# Delivery of logical records

A program that receives a basic conversation with fill LL, one Receive after
another, from MUs that hold its records. The size of a record is kept in 8 bits.

* `At.read`, `At.start`, `At.short`: what one call does within a record, at the
  start of one, and at the start of one with an empty MU;
* `logical_records`: for every cut and every sequence of sizes, the program gets
  the records, each marked where it ends, exactly if none is longer than 255
  bytes.
-/

namespace LinuxSna.Ps

open Spec (Record stream Cut NoSplit EndsWithin)

/-! ## The program -/

/-- The program asks for so many bytes, and what was received is reset. -/
def askFor (n : Nat) (c : Conversation) : Conversation :=
  { c with
    tp := { c.tp with
      rxReqLen := n
      rxRcvLen := 0
      rxBuffer := []
      dataReceived := acWrNoDataReceived
      le := Nat.zero_le n } }

/-- A program that receives over and over. -/
structure Reading where
  c : Conversation
  /-- How many Receives it has issued. -/
  asked : Nat := 0
  /-- The last of them goes on with the next MU. -/
  goesOn : Bool := false
  /-- What was copied to it, by all calls. -/
  bytes : List UInt8 := []

/-- The conversation and the number of Receives at the next call. -/
def Reading.receive (sizes : Nat → Nat) (r : Reading) : Conversation × Nat :=
  if r.goesOn then (r.c, r.asked) else (askFor (sizes r.asked) r.c, r.asked + 1)

/-- A call of `sna_ps_conv_process_data_proc` for the MU at the head of the
queue. -/
def Reading.call (sizes : Nat → Nat) (r : Reading) : Reading :=
  match r.c.rcb.hsToPsBufferQueue with
  | [] => r
  | m :: q =>
    match processData { (r.receive sizes).1 with rcb.hsToPsBufferQueue := q } m with
    | none => r
    | some d =>
      { c := d.c
        asked := (r.receive sizes).2
        goesOn := d.err = acRcOk && d.reason = .none
        bytes := r.bytes ++ d.c.tp.rxBuffer.drop (r.receive sizes).1.tp.rxBuffer.length }

/-- The program after so many calls. -/
def Reading.calls (sizes : Nat → Nat) (r : Reading) : Nat → Reading
  | 0 => r
  | k + 1 => (r.calls sizes k).call sizes

/-- The program gets the records. -/
structure Delivers (sizes : Nat → Nat) (rs : List Record) (r : Reading) : Prop where
  /-- What is copied is the records in order, ... -/
  order (k : Nat) : (r.calls sizes k).bytes <+: stream rs
  /-- ... and in the end all of them. -/
  all : ∃ k, (r.calls sizes k).bytes = stream rs
  /-- No Receive gets more than it asked for. -/
  fits (k : Nat) : (r.calls sizes k).asked ≠ 0 →
    (r.calls sizes k).c.tp.rxBuffer.length ≤ sizes ((r.calls sizes k).asked - 1)
  /-- A call says that a record is complete exactly if it copies its last byte. -/
  complete (k : Nat) : (r.calls sizes k).c.rcb.hsToPsBufferQueue ≠ [] →
    ((r.calls sizes (k + 1)).c.tp.dataReceived = acWrDataComplete ↔
      EndsWithin rs (r.calls sizes k).bytes.length (r.calls sizes (k + 1)).bytes.length)

/-! ## What every call keeps -/

/-- What holds between calls, wherever in a record they are. -/
structure Base (sizes : Nat → Nat) (r : Reading) : Prop where
  type : r.c.tp.conversationType = .basic
  fill : r.c.tp.fill = .ll
  buffer : r.asked ≠ 0 → r.c.tp.rxBuffer.length ≤ r.c.tp.rxRcvLen
  asked : r.asked ≠ 0 → r.c.tp.rxReqLen = sizes (r.asked - 1)
  goesOn : r.goesOn = true →
    r.asked ≠ 0 ∧ 0 < r.c.tp.room ∧ r.c.tp.dataReceived ≠ acWrDataComplete

/-- The same of the conversation that a call is made with. -/
structure Asks (sizes : Nat → Nat) (s : Conversation × Nat) : Prop where
  type : s.1.tp.conversationType = .basic
  fill : s.1.tp.fill = .ll
  buffer : s.1.tp.rxBuffer.length ≤ s.1.tp.rxRcvLen
  asked : s.2 ≠ 0 ∧ s.1.tp.rxReqLen = sizes (s.2 - 1)
  room : 0 < s.1.tp.room
  new : s.1.tp.dataReceived ≠ acWrDataComplete

theorem Base.receive {sizes : Nat → Nat} {r : Reading} (h : Base sizes r)
    (hsizes : ∀ i, 1 ≤ sizes i) : Asks sizes (r.receive sizes) := by
  rw [Reading.receive]
  cases hgo : r.goesOn with
  | true =>
    obtain ⟨hasked, hroom, hnew⟩ := h.goesOn hgo
    exact ⟨h.type, h.fill, h.buffer hasked, ⟨hasked, h.asked hasked⟩, hroom, hnew⟩
  | false =>
    exact ⟨h.type, h.fill, Nat.le_refl 0, ⟨Nat.succ_ne_zero _, rfl⟩, hsizes _,
      by simp [askFor, acWrNoDataReceived, acWrDataComplete]⟩

/-- A new Receive leaves the place in the record. -/
theorem receive_llRx (sizes : Nat → Nat) (r : Reading) :
    (r.receive sizes).1.rcb.llRx = r.c.rcb.llRx := by
  rw [Reading.receive]; split <;> rfl

/-- What a call leaves that reads `n` bytes of the `d` that it takes for the rest of
the record. -/
structure ReadsOn (sizes : Nat → Nat) (r r' : Reading) (m : Mu) (q : List Mu) (n : Nat)
    (d : List UInt8) : Prop where
  base : Base sizes r'
  le : n ≤ d.length ∧ n ≤ m.data.length
  progress : n = 0 → d = [] ∨ m.data = []
  bytes : r'.bytes = r.bytes ++ d.take n
  pieces : pieces r'.c =
    if m.data.drop n = [] then q.map Mu.data else m.data.drop n :: q.map Mu.data
  last : n = d.length → r'.c.tp.dataReceived = acWrDataComplete ∧ r'.c.rcb.llRx.state = .none
  within : n < d.length → r'.c.tp.dataReceived ≠ acWrDataComplete ∧
    r'.c.rcb.llRx.state = .incomplete ∧ r'.c.rcb.llRx.left = d.length - n

theorem ReadsOn.complete_iff {sizes : Nat → Nat} {r r' : Reading} {m : Mu} {q : List Mu} {n : Nat}
    {d : List UInt8} (h : ReadsOn sizes r r' m q n d) :
    r'.c.tp.dataReceived = acWrDataComplete ↔ n = d.length := by
  refine ⟨fun hc => ?_, fun hn => (h.last hn).1⟩
  by_contra hn
  exact (h.within (Nat.lt_of_le_of_ne h.le.1 hn)).1 hc

theorem call_of_some {sizes : Nat → Nat} {r : Reading} {m : Mu} {q : List Mu} {data : Data}
    (hq : r.c.rcb.hsToPsBufferQueue = m :: q)
    (hp : processData { (r.receive sizes).1 with rcb.hsToPsBufferQueue := q } m = some data) :
    r.call sizes =
      { c := data.c
        asked := (r.receive sizes).2
        goesOn := data.err = acRcOk && data.reason = .none
        bytes := r.bytes ++ data.c.tp.rxBuffer.drop (r.receive sizes).1.tp.rxBuffer.length } := by
  rw [Reading.call, hq]
  simp only [hp]

section Call

variable {sizes : Nat → Nat} {r : Reading} {m : Mu} {q : List Mu} {c : Conversation} {data : Data}
  {d tail : List UInt8}

/-- The next call finds what this one has found. -/
theorem Base.next (h : Base sizes r) (hsizes : ∀ i, 1 ≤ sizes i) (hread : Reads c m data)
    (htp : c.tp = (r.receive sizes).1.tp) {bytes : List UInt8} :
    Base sizes
      { c := data.c
        asked := (r.receive sizes).2
        goesOn := data.err = acRcOk && data.reason = .none
        bytes := bytes } where
  type := hread.type.trans (by rw [htp]; exact (h.receive hsizes).type)
  fill := hread.fill.trans (by rw [htp]; exact (h.receive hsizes).fill)
  buffer _ := by
    show data.c.tp.rxBuffer.length ≤ data.c.tp.rxRcvLen
    have hbuffer := (h.receive hsizes).buffer
    have hle := readSize_le c m
    rw [hread.copied, hread.received, htp, List.length_append, List.length_take]
    omega
  asked _ := by
    show data.c.tp.rxReqLen = _
    rw [hread.asked, htp]
    exact (h.receive hsizes).asked.2
  goesOn hgo := by
    obtain ⟨-, hreason⟩ : data.err = acRcOk ∧ data.reason = .none := by simpa using hgo
    exact ⟨(h.receive hsizes).asked.1, hread.more hreason⟩

/-- What the call leaves, from what `sna_ps_conv_process_data_proc` does. -/
theorem Base.call (h : Base sizes r) (hsizes : ∀ i, 1 ≤ sizes i)
    (hq : r.c.rcb.hsToPsBufferQueue = m :: q)
    (hp : processData { (r.receive sizes).1 with rcb.hsToPsBufferQueue := q } m = some data)
    (hread : Reads c m data) (htp : c.tp = (r.receive sizes).1.tp)
    (hqueue : c.rcb.hsToPsBufferQueue = q) (hleft : c.rcb.llRx.left = d.length)
    (hflat : m.data ++ (q.map Mu.data).flatten = d ++ tail) :
    ReadsOn sizes r (r.call sizes) m q (readSize c m) d := by
  have hle := readSize_le c m
  rw [hleft] at hle
  have htake : m.data.take (readSize c m) = d.take (readSize c m) := by
    have := congrArg (List.take (readSize c m)) hflat
    rwa [List.take_append_of_le_length hle.1, List.take_append_of_le_length hle.2.1] at this
  have hlast := hread.last
  have hwithin := hread.within
  rw [hleft] at hlast hwithin
  rw [call_of_some hq hp]
  exact
    { base := h.next hsizes hread htp
      le := ⟨hle.2.1, hle.1⟩
      progress := fun hn => by
        have hroom := (h.receive hsizes).room
        rw [← htp] at hroom
        rw [readSize, hleft] at hn
        rw [← List.length_eq_zero_iff, ← List.length_eq_zero_iff]
        omega
      bytes := by
        show r.bytes ++ data.c.tp.rxBuffer.drop _ = _
        rw [hread.copied, ← htp, List.drop_left, htake]
      pieces := by
        show Ps.pieces data.c = _
        rw [hread.pieces, Ps.pieces, hqueue]
      last := fun hn => (hlast hn).2
      within := hwithin }

end Call

/-! ## Where in the stream a call is made -/

/-- The bytes `d` are taken for the rest of a record, and others follow. -/
structure At (sizes : Nat → Nat) (r : Reading) (d tail : List UInt8) : Prop where
  base : Base sizes r
  flatten : (pieces r.c).flatten = d ++ tail
  between : d = [] → r.c.rcb.llRx.state = .none
  within : d ≠ [] → r.c.rcb.llRx.state = .incomplete ∧ r.c.rcb.llRx.left = d.length

theorem flatten_pieces {m : Mu} {q : List Mu} {n : Nat} {d tail : List UInt8}
    (hn : n ≤ d.length) (hm : n ≤ m.data.length)
    (hflat : m.data ++ (q.map Mu.data).flatten = d ++ tail) :
    (if m.data.drop n = [] then q.map Mu.data else m.data.drop n :: q.map Mu.data).flatten =
      d.drop n ++ tail := by
  have hdrop := congrArg (List.drop n) hflat
  rw [List.drop_append_of_le_length hm, List.drop_append_of_le_length hn] at hdrop
  split
  · rename_i hnil
    rw [← hdrop, hnil, List.nil_append]
  · exact hdrop

/-- The call leaves the program further on in the record, or at its end. -/
theorem ReadsOn.place {sizes : Nat → Nat} {r r' : Reading} {m : Mu} {q : List Mu} {n : Nat}
    {d tail : List UInt8} (h : ReadsOn sizes r r' m q n d)
    (hflat : m.data ++ (q.map Mu.data).flatten = d ++ tail) : At sizes r' (d.drop n) tail where
  base := h.base
  flatten := by rw [h.pieces]; exact flatten_pieces h.le.1 h.le.2 hflat
  between hd := by
    have := List.drop_eq_nil_iff.mp hd
    exact (h.last (Nat.le_antisymm h.le.1 this)).2
  within hd := by
    have hlt : n < d.length := by
      by_contra hge
      exact hd (List.drop_eq_nil_of_le (by omega))
    rw [List.length_drop]
    exact (h.within hlt).2

theorem At.flatten_cons {sizes : Nat → Nat} {r : Reading} {d tail : List UInt8} {m : Mu}
    {q : List Mu} (h : At sizes r d tail) (hq : r.c.rcb.hsToPsBufferQueue = m :: q) :
    m.data ++ (q.map Mu.data).flatten = d ++ tail := by
  have := h.flatten
  rwa [pieces, hq, List.map_cons, List.flatten_cons] at this

section Calls

variable {sizes : Nat → Nat} {r : Reading} {m : Mu} {q : List Mu} {d tail : List UInt8}

/-- A call within a record. -/
theorem At.read (h : At sizes r d tail) (hd : d ≠ []) (hsizes : ∀ i, 1 ≤ sizes i)
    (hq : r.c.rcb.hsToPsBufferQueue = m :: q) :
    ∃ n, ReadsOn sizes r (r.call sizes) m q n d := by
  obtain ⟨hstate, hleft⟩ := h.within hd
  have hs := h.base.receive hsizes
  have hrx := receive_llRx sizes r
  obtain ⟨data, hp, hread⟩ := processData_reads
    (c := { (r.receive sizes).1 with rcb.hsToPsBufferQueue := q }) (m := m) hs.type hs.fill
    ((congrArg LlRx.state hrx).trans hstate) hs.new
  exact ⟨_, h.base.call hsizes hq hp hread rfl rfl ((congrArg LlRx.left hrx).trans hleft)
    (h.flatten_cons hq)⟩

/-- A call at the start of a record: the record is taken to be as long as its LL
field says, in 8 bits. -/
theorem At.start (h : At sizes r [] tail) (hsizes : ∀ i, 1 ≤ sizes i)
    (hq : r.c.rcb.hsToPsBufferQueue = m :: q) (hlen : 2 ≤ m.data.length)
    (hll : 2 ≤ llSize m.data ∧ llSize m.data ≤ 32767) (htail : llSize m.data ≤ tail.length) :
    ∃ n, ReadsOn sizes r (r.call sizes) m q n (tail.take (llSize m.data % 2 ^ 8)) := by
  have hs := h.base.receive hsizes
  have hrx := receive_llRx sizes r
  obtain ⟨data, hp, hread⟩ := processData_starts
    (c := { (r.receive sizes).1 with rcb.hsToPsBufferQueue := q }) (m := m) hs.type hs.fill
    ((congrArg LlRx.state hrx).trans (h.between rfl)) hs.new hlen hll
  have hflat : m.data ++ (q.map Mu.data).flatten =
      tail.take (llSize m.data % 2 ^ 8) ++ tail.drop (llSize m.data % 2 ^ 8) := by
    rw [List.take_append_drop]
    exact h.flatten_cons hq
  refine ⟨_, h.base.call hsizes hq hp hread rfl rfl ?_ hflat⟩
  have := Nat.mod_le (llSize m.data) (2 ^ 8)
  rw [List.length_take]
  simp only [LlRx.left, LlRx.start]
  omega

/-- A call at the start of a record, with an empty MU. -/
theorem At.short (h : At sizes r [] tail) (hsizes : ∀ i, 1 ≤ sizes i)
    (hq : r.c.rcb.hsToPsBufferQueue = m :: q) (hm : m.data = []) :
    At sizes (r.call sizes) [] tail ∧ (r.call sizes).bytes = r.bytes ∧
      (r.call sizes).c.tp.dataReceived ≠ acWrDataComplete ∧
      pieces (r.call sizes).c = q.map Mu.data := by
  have hs := h.base.receive hsizes
  have hrx := receive_llRx sizes r
  have hp : processData { (r.receive sizes).1 with rcb.hsToPsBufferQueue := q } m = _ :=
    processData_short ((congrArg LlRx.state hrx).trans (h.between rfl)) (by simp [hm])
  have hcall : r.call sizes =
      { c := { (r.receive sizes).1 with rcb.hsToPsBufferQueue := q }
        asked := (r.receive sizes).2
        goesOn := false
        bytes := r.bytes } := by
    rw [Reading.call, hq]
    simp only [hp]
    simp [freed, acRcUnsuccessful, acRcOk]
  have hflat := h.flatten_cons hq
  rw [hm, List.nil_append] at hflat
  rw [hcall]
  exact ⟨⟨⟨hs.type, hs.fill, fun _ => hs.buffer, fun _ => hs.asked.2, fun h => by cases h⟩, hflat,
    fun _ => (congrArg LlRx.state hrx).trans (h.between rfl), fun hne => absurd rfl hne⟩, rfl, hs.new, rfl⟩

end Calls

/-! ## Along the records -/

/-- The LL field at the start of a record -/
theorem llSize_eq {x : Record} {data l tail : List UInt8} (hlen : 2 ≤ data.length)
    (h : data ++ l = x.bytes ++ tail) : llSize data = x.ll := by
  obtain ⟨a, b, t, rfl⟩ : ∃ a b t, data = a :: b :: t := by
    match data, hlen with
    | a :: b :: t, _ => exact ⟨a, b, t, rfl⟩
  have hle := x.ll_le
  simp only [Record.bytes, Cpic.be16, List.cons_append, List.cons.injEq] at h
  obtain ⟨rfl, rfl, -⟩ := h
  show (x.ll / 2 ^ 8) % 2 ^ 8 * 2 ^ 8 + x.ll % 2 ^ 8 = x.ll
  omega

/-- The program has read the records `done`, but for the last bytes `d` of them. -/
structure On (sizes : Nat → Nat) (rs : List Record) (r : Reading) (done : List Record)
    (d : List UInt8) (rest : List Record) : Prop where
  place : At sizes r d (stream rest)
  rs : rs = done ++ rest
  bytes : r.bytes ++ d = stream done
  last : d ≠ [] → ∃ before x, done = before ++ [x] ∧ (stream before).length ≤ r.bytes.length
  noSplit : NoSplit d.length rest (pieces r.c)

/-- What is left to be read: bytes, and MUs. -/
def todo (r : Reading) : Nat := (pieces r.c).flatten.length + (pieces r.c).length

section Step

variable {sizes : Nat → Nat} {rs : List Record} {r r' : Reading} {m : Mu} {q : List Mu} {n : Nat}
  {d tail : List UInt8}

/-- A call that reads something, or takes an empty MU, leaves less. -/
theorem ReadsOn.todo_lt (h : ReadsOn sizes r r' m q n d) (hd : d ≠ [])
    (hq : r.c.rcb.hsToPsBufferQueue = m :: q) : todo r' < todo r := by
  have hle := h.le
  have hn : n ≠ 0 ∨ m.data = [] := by
    by_cases hn : n = 0
    · exact Or.inr ((h.progress hn).resolve_left hd)
    · exact Or.inl hn
  rw [todo, todo, h.pieces, Ps.pieces, hq]
  by_cases hdrop : m.data.drop n = []
  · rw [if_pos hdrop]
    simp only [List.map_cons, List.flatten_cons, List.length_append, List.length_cons]
    omega
  · have hm : m.data ≠ [] := by
      rintro hm
      exact hdrop (by rw [hm, List.drop_nil])
    have := hn.resolve_right hm
    rw [if_neg hdrop]
    simp only [List.map_cons, List.flatten_cons, List.length_append, List.length_cons,
      List.length_drop]
    omega

/-- A call within the record `x`. -/
theorem ReadsOn.on {before rest : List Record} {x : Record} (h : ReadsOn sizes r r' m q n d)
    (hd : d ≠ []) (hflat : m.data ++ (q.map Mu.data).flatten = d ++ stream rest)
    (hrs : rs = before ++ x :: rest) (hbytes : r.bytes ++ d = stream before ++ x.bytes)
    (hbefore : (stream before).length ≤ r.bytes.length)
    (hsplit : NoSplit d.length rest (m.data :: q.map Mu.data)) :
    On sizes rs r' (before ++ [x]) (d.drop n) rest ∧
      (r'.c.tp.dataReceived = acWrDataComplete ↔
        EndsWithin rs r.bytes.length r'.bytes.length) := by
  have hlen : r'.bytes.length = r.bytes.length + n := by
    rw [h.bytes, List.length_append, List.length_take, Nat.min_eq_left h.le.1]
  have htotal : r.bytes.length + d.length = (stream before).length + x.ll := by
    have := congrArg List.length hbytes
    rwa [List.length_append, List.length_append, Record.length_bytes] at this
  constructor
  · refine ⟨h.place hflat, by simp [hrs], ?_, fun _ => ⟨before, x, rfl, by omega⟩, ?_⟩
    · rw [h.bytes, List.append_assoc, List.take_append_drop, hbytes]
      simp
    · have hdrop := hsplit.drop h.le.2 h.le.1
      rw [List.length_drop, h.pieces]
      split
      · rename_i hnil
        rw [hnil] at hdrop
        exact hdrop.of_nil
      · exact hdrop
  · rw [h.complete_iff]
    have hpos : 0 < d.length := List.length_pos_iff.mpr hd
    constructor
    · intro hn
      exact Spec.endsWithin_of_le hrs (by omega) (by omega)
    · intro hends
      by_contra hn
      have := h.le.1
      exact Spec.not_endsWithin hrs hbefore (by omega) hends

theorem not_endsWithin_self (a : Nat) : ¬ EndsWithin rs a a := fun ⟨_, _, hlt, hle⟩ => by omega

/-- A call, where the next record is not too long. -/
theorem On.call {done rest : List Record} (h : On sizes rs r done d rest)
    (hsizes : ∀ i, 1 ≤ sizes i) (hq : r.c.rcb.hsToPsBufferQueue = m :: q)
    (hshort : d = [] → m.data ≠ [] → ∀ x ∈ rest.head?, x.ll < 2 ^ 8) :
    (∃ done' d' rest', On sizes rs (r.call sizes) done' d' rest' ∧
      (rest' = rest ∨ ∃ x, rest = x :: rest' ∧ x.ll < 2 ^ 8)) ∧
    ((r.call sizes).c.tp.dataReceived = acWrDataComplete ↔
      EndsWithin rs r.bytes.length (r.call sizes).bytes.length) ∧
    todo (r.call sizes) < todo r := by
  have hflat := h.place.flatten_cons hq
  have hpieces : pieces r.c = m.data :: q.map Mu.data := by rw [pieces, hq, List.map_cons]
  by_cases hd : d = []
  · subst hd
    by_cases hm : m.data = []
    · obtain ⟨hat, hbytes, hnew, hp⟩ := h.place.short hsizes hq hm
      refine ⟨⟨done, [], rest, ⟨hat, h.rs, hbytes ▸ h.bytes, fun hne => absurd rfl hne, ?_⟩,
        Or.inl rfl⟩, ?_, ?_⟩
      · have := h.noSplit
        rw [hpieces, hm] at this
        rw [hp]
        exact this.of_nil
      · rw [hbytes]
        exact iff_of_false hnew (not_endsWithin_self _)
      · rw [todo, todo, hp, hpieces, hm]
        simp
    · cases rest with
      | nil => exact absurd (List.append_eq_nil_iff.mp hflat).1 hm
      | cons x rest =>
        have hx : x.ll < 2 ^ 8 := hshort rfl hm x rfl
        have hsplit := h.noSplit
        rw [hpieces] at hsplit
        have hlen : 2 ≤ m.data.length := by
          have hne := hsplit.length_ne_one
          have := List.length_pos_iff.mpr hm
          omega
        have hll : llSize m.data = x.ll := llSize_eq hlen (by simpa using hflat)
        have := x.two_le_ll
        obtain ⟨n, hread⟩ := h.place.start hsizes hq hlen
          (by rw [hll]; exact ⟨x.two_le_ll, x.ll_le⟩) (by rw [hll]; simp)
        have htake : (stream (x :: rest)).take (llSize m.data % 2 ^ 8) = x.bytes := by
          rw [hll, Nat.mod_eq_of_lt hx, Spec.stream_cons, ← x.length_bytes, List.take_left]
        have hne : x.bytes ≠ [] := List.ne_nil_of_length_pos (by rw [x.length_bytes]; omega)
        rw [htake] at hread
        have hbytes : r.bytes = stream done := by simpa using h.bytes
        obtain ⟨hon, hiff⟩ := hread.on hne (by simpa using hflat) h.rs (by rw [hbytes])
          (Nat.le_of_eq (congrArg List.length hbytes.symm))
          (by rw [x.length_bytes]; exact hsplit.next)
        exact ⟨⟨_, _, rest, hon, Or.inr ⟨x, rfl, hx⟩⟩, hiff, hread.todo_lt hne hq⟩
  · obtain ⟨before, x, rfl, hbefore⟩ := h.last hd
    obtain ⟨n, hread⟩ := h.place.read hd hsizes hq
    obtain ⟨hon, hiff⟩ := hread.on (x := x) hd hflat (h.rs.trans (by simp)) (h.bytes.trans (by simp))
      hbefore (hpieces ▸ h.noSplit)
    exact ⟨⟨_, _, rest, hon, Or.inl rfl⟩, hiff, hread.todo_lt hd hq⟩

/-- Once the queue is empty nothing more is called. -/
theorem call_nil (hq : r.c.rcb.hsToPsBufferQueue = []) : r.call sizes = r := by
  rw [Reading.call, hq]

end Step

/-! ## All calls -/

section Run

variable {sizes : Nat → Nat} {rs : List Record} {r : Reading}

/-- No record is too long. -/
theorem On.calls {done rest : List Record} {d : List UInt8} (h : On sizes rs r done d rest)
    (hsizes : ∀ i, 1 ≤ sizes i) (hshort : ∀ x ∈ rest, x.ll < 2 ^ 8) (k : Nat) :
    ∃ done' d' rest', On sizes rs (r.calls sizes k) done' d' rest' ∧
      ∀ x ∈ rest', x.ll < 2 ^ 8 := by
  induction k with
  | zero => exact ⟨done, d, rest, h, hshort⟩
  | succ k ih =>
    obtain ⟨done', d', rest', hon, hshort'⟩ := ih
    rw [Reading.calls]
    cases hq : (r.calls sizes k).c.rcb.hsToPsBufferQueue with
    | nil => rw [call_nil hq]; exact ⟨done', d', rest', hon, hshort'⟩
    | cons m q =>
      obtain ⟨⟨done'', d'', rest'', hon', hrest⟩, -⟩ := hon.call hsizes hq
        fun _ _ x hx => hshort' x (List.mem_of_mem_head? hx)
      refine ⟨done'', d'', rest'', hon', fun x hx => ?_⟩
      obtain rfl | ⟨y, rfl, -⟩ := hrest
      · exact hshort' x hx
      · exact hshort' x (List.mem_cons_of_mem y hx)

theorem On.order {done rest : List Record} {d : List UInt8} (h : On sizes rs r done d rest) :
    r.bytes <+: stream rs := by
  refine ⟨d ++ stream rest, ?_⟩
  rw [← List.append_assoc, h.bytes, h.rs, Spec.stream_append]

/-- Once the queue is empty, all has been copied. -/
theorem On.all {done rest : List Record} {d : List UInt8} (h : On sizes rs r done d rest)
    (hq : r.c.rcb.hsToPsBufferQueue = []) : r.bytes = stream rs := by
  have hflat := h.place.flatten
  rw [pieces, hq, List.map_nil, List.flatten_nil, eq_comm, List.append_eq_nil_iff] at hflat
  rw [h.rs, Spec.stream_append, ← h.bytes, hflat.1, hflat.2]
  simp

/-- The queue gets empty. -/
theorem On.ends {done rest : List Record} {d : List UInt8} (h : On sizes rs r done d rest)
    (hsizes : ∀ i, 1 ≤ sizes i) (hshort : ∀ x ∈ rest, x.ll < 2 ^ 8) :
    ∃ k, (r.calls sizes k).c.rcb.hsToPsBufferQueue = [] := by
  suffices hlt : ∀ n k, todo (r.calls sizes k) ≤ n →
      ∃ k, (r.calls sizes k).c.rcb.hsToPsBufferQueue = [] from hlt _ 0 (Nat.le_refl _)
  intro n
  induction n with
  | zero =>
    intro k hk
    refine ⟨k, ?_⟩
    rw [todo, pieces, List.length_map] at hk
    exact List.eq_nil_of_length_eq_zero (by omega)
  | succ n ih =>
    intro k hk
    obtain ⟨done', d', rest', hon, hshort'⟩ := h.calls hsizes hshort k
    cases hq : (r.calls sizes k).c.rcb.hsToPsBufferQueue with
    | nil => exact ⟨k, hq⟩
    | cons m q =>
      have htodo := (hon.call hsizes hq fun _ _ x hx => hshort' x (List.mem_of_mem_head? hx)).2.2
      apply ih (k + 1)
      rw [Reading.calls]
      omega

theorem Base.fits (h : Base sizes r) (hasked : r.asked ≠ 0) :
    r.c.tp.rxBuffer.length ≤ sizes (r.asked - 1) := by
  rw [← h.asked hasked]
  exact Nat.le_trans (h.buffer hasked) r.c.tp.le

theorem On.delivers {done rest : List Record} {d : List UInt8} (h : On sizes rs r done d rest)
    (hsizes : ∀ i, 1 ≤ sizes i) (hshort : ∀ x ∈ rest, x.ll < 2 ^ 8) : Delivers sizes rs r where
  order k := by
    obtain ⟨_, _, _, hon, -⟩ := h.calls hsizes hshort k
    exact hon.order
  all := by
    obtain ⟨k, hk⟩ := h.ends hsizes hshort
    obtain ⟨_, _, _, hon, -⟩ := h.calls hsizes hshort k
    exact ⟨k, hon.all hk⟩
  fits k hasked := by
    obtain ⟨_, _, _, hon, -⟩ := h.calls hsizes hshort k
    exact hon.place.base.fits hasked
  complete k hne := by
    obtain ⟨_, _, _, hon, hshort'⟩ := h.calls hsizes hshort k
    obtain ⟨m, q, hq⟩ := List.exists_cons_of_ne_nil hne
    exact (hon.call hsizes hq fun _ _ x hx => hshort' x (List.mem_of_mem_head? hx)).2.1

/-! ## A record that is too long -/

/-- A record is taken to end before it does. -/
structure Inside (sizes : Nat → Nat) (rs : List Record) (r : Reading) (d tail : List UInt8)
    (before : List Record) (x : Record) (rest : List Record) : Prop where
  place : At sizes r d tail
  ne : d ≠ []
  rs : rs = before ++ x :: rest
  le : (stream before).length ≤ r.bytes.length
  lt : r.bytes.length + d.length < (stream before).length + x.ll

/-- A record that is too long is yet to come, or the program is inside one. -/
def Ahead (sizes : Nat → Nat) (rs : List Record) (r : Reading) : Prop :=
  (∃ done d rest, On sizes rs r done d rest ∧ ∃ x ∈ rest, ¬ x.ll < 2 ^ 8) ∨
    ∃ d tail before x rest, Inside sizes rs r d tail before x rest

/-- A call that does not tell a wrong end leaves the program inside the record. -/
theorem ReadsOn.inside {r' : Reading} {m : Mu} {q : List Mu} {n : Nat} {d tail : List UInt8}
    {before rest : List Record} {x : Record} (h : ReadsOn sizes r r' m q n d)
    (hflat : m.data ++ (q.map Mu.data).flatten = d ++ tail) (hrs : rs = before ++ x :: rest)
    (hbefore : (stream before).length ≤ r.bytes.length)
    (hlt : r.bytes.length + d.length < (stream before).length + x.ll)
    (hcomplete : r'.c.tp.dataReceived = acWrDataComplete ↔
      EndsWithin rs r.bytes.length r'.bytes.length) :
    Inside sizes rs r' (d.drop n) tail before x rest := by
  have hlen : r'.bytes.length = r.bytes.length + n := by
    rw [h.bytes, List.length_append, List.length_take, Nat.min_eq_left h.le.1]
  have hle := h.le.1
  have hne : n ≠ d.length := fun hn =>
    Spec.not_endsWithin hrs hbefore (by omega) (hcomplete.mp (h.complete_iff.mpr hn))
  refine ⟨h.place hflat, ?_, hrs, by omega, ?_⟩
  · exact List.ne_nil_of_length_pos (by rw [List.length_drop]; omega)
  · rw [hlen, List.length_drop]
    omega

theorem Ahead.call {m : Mu} {q : List Mu} (h : Ahead sizes rs r) (hsizes : ∀ i, 1 ≤ sizes i)
    (hq : r.c.rcb.hsToPsBufferQueue = m :: q)
    (hcomplete : (r.call sizes).c.tp.dataReceived = acWrDataComplete ↔
      EndsWithin rs r.bytes.length (r.call sizes).bytes.length) :
    Ahead sizes rs (r.call sizes) := by
  obtain ⟨done, d, rest, hon, x, hx, hlong⟩ | ⟨d, tail, before, x, rest, hin⟩ := h
  · by_cases hshort : d = [] → m.data ≠ [] → ∀ x ∈ rest.head?, x.ll < 2 ^ 8
    · obtain ⟨⟨done', d', rest', hon', hrest⟩, -⟩ := hon.call hsizes hq hshort
      refine Or.inl ⟨done', d', rest', hon', x, ?_, hlong⟩
      obtain rfl | ⟨y, rfl, hy⟩ := hrest
      · exact hx
      · exact (List.mem_cons.mp hx).resolve_left fun he => hlong (he ▸ hy)
    · -- the record that begins here is too long
      push Not at hshort
      obtain ⟨rfl, hm, y, hy, hylong⟩ := hshort
      obtain ⟨rest, rfl⟩ : ∃ l, rest = y :: l := by
        cases rest with
        | nil => cases hy
        | cons z l => cases hy; exact ⟨l, rfl⟩
      have hflat := hon.place.flatten_cons hq
      have hsplit := hon.noSplit
      rw [pieces, hq, List.map_cons] at hsplit
      have hlen : 2 ≤ m.data.length := by
        have hne := hsplit.length_ne_one
        have := List.length_pos_iff.mpr hm
        omega
      have hll : llSize m.data = y.ll := llSize_eq hlen (by simpa using hflat)
      obtain ⟨n, hread⟩ := hon.place.start hsizes hq hlen
        (by rw [hll]; exact ⟨y.two_le_ll, y.ll_le⟩) (by rw [hll]; simp)
      have hbytes : r.bytes = stream done := by simpa using hon.bytes
      have hmod := Nat.mod_lt (llSize m.data) (show 0 < 2 ^ 8 by decide)
      have hcut : m.data ++ (q.map Mu.data).flatten =
          (stream (y :: rest)).take (llSize m.data % 2 ^ 8) ++
            (stream (y :: rest)).drop (llSize m.data % 2 ^ 8) := by
        rw [List.take_append_drop]
        exact hflat
      refine Or.inr ⟨_, _, done, y, rest, hread.inside hcut hon.rs
        (Nat.le_of_eq (congrArg List.length hbytes.symm)) ?_ hcomplete⟩
      rw [hbytes, List.length_take]
      omega
  · obtain ⟨n, hread⟩ := hin.place.read hin.ne hsizes hq
    exact Or.inr ⟨_, tail, before, x, rest, hread.inside (hin.place.flatten_cons hq) hin.rs
      hin.le hin.lt hcomplete⟩

/-- The bytes of a record that is too long have not all been copied. -/
theorem Ahead.bytes_ne (h : Ahead sizes rs r) : r.bytes ≠ stream rs := by
  intro heq
  have hlen := congrArg List.length heq
  obtain ⟨done, d, rest, hon, x, hx, -⟩ | ⟨d, tail, before, x, rest, hin⟩ := h
  · have hle := congrArg List.length hon.bytes
    obtain ⟨l₁, l₂, rfl⟩ := List.append_of_mem hx
    have := x.two_le_ll
    simp only [hon.rs, Spec.stream_append, Spec.stream_cons, List.length_append,
      Record.length_bytes] at hlen hle
    omega
  · have := hin.lt
    simp only [hin.rs, Spec.stream_append, Spec.stream_cons, List.length_append,
      Record.length_bytes] at hlen
    omega

theorem Ahead.not_delivers (h : Ahead sizes rs r) (hsizes : ∀ i, 1 ≤ sizes i) :
    ¬ Delivers sizes rs r := by
  intro hdel
  have hall : ∀ k, Ahead sizes rs (r.calls sizes k) := by
    intro k
    induction k with
    | zero => exact h
    | succ k ih =>
      rw [Reading.calls]
      cases hq : (r.calls sizes k).c.rcb.hsToPsBufferQueue with
      | nil => rw [call_nil hq]; exact ih
      | cons m q => exact ih.call hsizes hq (hdel.complete k (by simp [hq]))
  obtain ⟨k, hk⟩ := hdel.all
  exact (hall k).bytes_ne hk

end Run

/-! ## The result -/

/-- The program before its first Receive. -/
theorem on_start {sizes : Nat → Nat} {rs : List Record} {c : Conversation}
    (htype : c.tp.conversationType = .basic) (hfill : c.tp.fill = .ll)
    (hstate : c.rcb.llRx.state = .none) (hcut : Cut rs (pieces c)) :
    On sizes rs { c := c } [] [] rs where
  place :=
    { base := ⟨htype, hfill, fun h => absurd rfl h, fun h => absurd rfl h, nofun⟩
      flatten := hcut.flatten
      between := fun _ => hstate
      within := fun h => absurd rfl h }
  rs := rfl
  bytes := rfl
  last h := absurd rfl h
  noSplit := hcut.noSplit

/-- A program that receives a basic conversation with fill LL gets its logical
records, each marked where it ends, exactly if none is longer than what 8 bits
can say. -/
theorem logical_records (sizes : Nat → Nat) (rs : List Record) (c : Conversation)
    (htype : c.tp.conversationType = .basic) (hfill : c.tp.fill = .ll)
    (hstate : c.rcb.llRx.state = .none) (hcut : Cut rs (pieces c)) (hsizes : ∀ i, 1 ≤ sizes i) :
    Delivers sizes rs { c := c } ↔ ∀ x ∈ rs, x.ll < 2 ^ 8 := by
  have hon : On sizes rs { c := c } [] [] rs := on_start htype hfill hstate hcut
  refine ⟨fun hdel => ?_, fun hshort => hon.delivers hsizes hshort⟩
  by_contra hlong
  push Not at hlong
  obtain ⟨x, hx, hlong⟩ := hlong
  exact Ahead.not_delivers (Or.inl ⟨[], [], rs, hon, x, hx, by omega⟩) hsizes hdel

/-- A conversation with one MU, which holds one record. -/
def oneRecord (x : Record) : Conversation :=
  { rcb := { convState := .rcvState, hsToPsBufferQueue := [{ data := x.bytes }] }
    tp := { conversationType := .basic } }

theorem cut_oneRecord (x : Record) : Cut [x] (pieces (oneRecord x)) where
  flatten := by simp [pieces, oneRecord]
  noSplit first hfirst i hi := by
    have hx := x.two_le_ll
    obtain rfl : i = 0 := by simpa using hi
    cases first with
    | nil => simp
    | cons y first =>
      obtain ⟨rfl, hnil⟩ := List.cons_prefix_cons.mp hfirst
      obtain rfl := List.prefix_nil.mp hnil
      simp
      omega

/-- A record of 5 bytes, received 4 bytes at a time. -/
theorem logical_records_short :
    Delivers (fun _ => 4) [⟨[1, 2, 3], by decide⟩] { c := oneRecord ⟨[1, 2, 3], by decide⟩ } ↔
      ∀ x ∈ [(⟨[1, 2, 3], by decide⟩ : Record)], x.ll < 2 ^ 8 :=
  logical_records _ _ _ rfl rfl rfl (cut_oneRecord _) fun _ => by decide

/-- A record of 256 bytes -/
def longRecord : Record := ⟨List.replicate 254 0, by rw [List.length_replicate]; decide⟩

theorem ll_longRecord : longRecord.ll = 256 :=
  congrArg (· + 2) (List.length_replicate)

/-- A record of 256 bytes in one MU, and a program with room for 300 bytes: the
first call copies nothing and says that the record is complete. -/
theorem logical_records_long :
    (oneRecord longRecord).tp.conversationType = .basic ∧ (oneRecord longRecord).tp.fill = .ll ∧
      (oneRecord longRecord).rcb.llRx.state = .none ∧
      Cut [longRecord] (pieces (oneRecord longRecord)) ∧ (∀ i, 1 ≤ (fun _ : Nat => 300) i) ∧
      ¬ Delivers (fun _ => 300) [longRecord] { c := oneRecord longRecord } := by
  have hsizes : ∀ i, 1 ≤ (fun _ : Nat => 300) i := fun _ => Nat.le_of_ble_eq_true rfl
  refine ⟨rfl, rfl, rfl, cut_oneRecord _, hsizes, ?_⟩
  have hon : On (fun _ => 300) [longRecord] { c := oneRecord longRecord } [] [] [longRecord] :=
    on_start rfl rfl rfl (cut_oneRecord longRecord)
  refine Ahead.not_delivers (Or.inl ⟨[], [], [longRecord], hon, longRecord, ?_, ?_⟩) hsizes
  · exact List.mem_singleton_self _
  · rw [ll_longRecord]
    decide

end LinuxSna.Ps
