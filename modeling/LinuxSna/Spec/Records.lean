import LinuxSna.Framework.Run
import LinuxSna.Impl.Sna.Cpic.Calls

/-!
# Records of a conversation

The data of a basic conversation: records that begin with their own length,
the LL field, in network byte order, one after another in a stream of bytes.
The stream is cut into pieces anywhere but inside an LL field. On a mapped
conversation each record is sent behind a header of four bytes, its length with
the header, and a GDS identifier, and the stream is cut into pieces anywhere.
-/

namespace LinuxSna.Spec

/-- A well-formed logical record, by the data after its LL field. -/
structure Record where
  data : List UInt8
  le : data.length + 2 ≤ 32767

/-- The LL field: the length of the record, the field included. -/
def Record.ll (r : Record) : Nat := r.data.length + 2

def Record.bytes (r : Record) : List UInt8 := Cpic.be16 r.ll ++ r.data

/-- The records, one after another. -/
def stream (rs : List Record) : List UInt8 := rs.flatMap Record.bytes

/-- The first pieces never end inside the LL field of a record, where the records
begin `d` bytes after the pieces do. -/
def NoSplit (d : Nat) (rs : List Record) (pieces : List (List UInt8)) : Prop :=
  ∀ first, first <+: pieces → ∀ i < rs.length,
    first.flatten.length ≠ d + (stream (rs.take i)).length + 1

/-- The pieces are the stream, cut anywhere but inside an LL field. -/
structure Cut (rs : List Record) (pieces : List (List UInt8)) : Prop where
  flatten : pieces.flatten = stream rs
  noSplit : NoSplit 0 rs pieces

/-- The last byte of a record is after the first `a` bytes of the stream and not
after the first `b`. -/
def EndsWithin (rs : List Record) (a b : Nat) : Prop :=
  ∃ i < rs.length, a < (stream (rs.take (i + 1))).length ∧ (stream (rs.take (i + 1))).length ≤ b

@[simp] theorem length_be16 (n : Nat) : (Cpic.be16 n).length = 2 := rfl

@[simp] theorem Record.length_bytes (r : Record) : r.bytes.length = r.ll := by
  simp [Record.bytes, Record.ll, Nat.add_comm]

theorem Record.two_le_ll (r : Record) : 2 ≤ r.ll := Nat.le_add_left _ _

theorem Record.ll_le (r : Record) : r.ll ≤ 32767 := r.le

@[simp] theorem stream_nil : stream [] = [] := rfl

@[simp] theorem stream_cons (r : Record) (rs : List Record) :
    stream (r :: rs) = r.bytes ++ stream rs := List.flatMap_cons

@[simp] theorem stream_append (rs rs' : List Record) :
    stream (rs ++ rs') = stream rs ++ stream rs' := List.flatMap_append

/-! ## Cuts -/

/-- What is left of a cut once the first bytes of its first piece are gone. -/
theorem NoSplit.drop {d n : Nat} {rs : List Record} {p : List UInt8} {q : List (List UInt8)}
    (h : NoSplit d rs (p :: q)) (hp : n ≤ p.length) (hd : n ≤ d) :
    NoSplit (d - n) rs (p.drop n :: q) := by
  intro first hfirst i hi
  cases first with
  | nil => simp
  | cons x first =>
    obtain ⟨rfl, hpre⟩ := List.cons_prefix_cons.mp hfirst
    have := h (p :: first) (List.cons_prefix_cons.mpr ⟨rfl, hpre⟩) i hi
    simp only [List.flatten_cons, List.length_append, List.length_drop] at this ⊢
    omega

/-- A piece that is all gone is not missed. -/
theorem NoSplit.of_nil {d : Nat} {rs : List Record} {q : List (List UInt8)}
    (h : NoSplit d rs ([] :: q)) : NoSplit d rs q := fun first hfirst i hi => by
  simpa using h ([] :: first) (List.cons_prefix_cons.mpr ⟨rfl, hfirst⟩) i hi

/-- The records after the first begin where it ends. -/
theorem NoSplit.next {r : Record} {rs : List Record} {pieces : List (List UInt8)}
    (h : NoSplit 0 (r :: rs) pieces) : NoSplit r.ll rs pieces := fun first hfirst i hi => by
  simpa [Nat.add_assoc] using h first hfirst (i + 1) (by simpa using hi)

/-- At the start of a record the first piece has its whole LL field. -/
theorem NoSplit.length_ne_one {r : Record} {rs : List Record} {p : List UInt8}
    {q : List (List UInt8)} (h : NoSplit 0 (r :: rs) (p :: q)) : p.length ≠ 1 := by
  simpa using h [p] (List.cons_prefix_cons.mpr ⟨rfl, List.nil_prefix⟩) 0 (by simp)

/-! ## Ends of records -/

/-- The records up to one of them. -/
theorem length_stream_take {rs done rest : List Record} {r : Record}
    (hrs : rs = done ++ r :: rest) :
    (stream (rs.take (done.length + 1))).length = (stream done).length + r.ll := by
  rw [hrs, List.take_length_add_append, List.take_succ_cons, List.take_zero]
  simp

theorem length_stream_take_mono (rs : List Record) {j k : Nat} (h : j ≤ k) :
    (stream (rs.take j)).length ≤ (stream (rs.take k)).length := by
  obtain ⟨l, hl⟩ := List.take_prefix_take_left (l := rs) h
  rw [← hl, stream_append, List.length_append]
  omega

/-- The end of the record after some others. -/
theorem endsWithin_of_le {rs done rest : List Record} {r : Record} {a b : Nat}
    (hrs : rs = done ++ r :: rest) (ha : a < (stream done).length + r.ll)
    (hb : (stream done).length + r.ll ≤ b) : EndsWithin rs a b := by
  refine ⟨done.length, by simp [hrs], ?_, ?_⟩
  · rw [length_stream_take hrs]; exact ha
  · rw [length_stream_take hrs]; exact hb

/-- No record ends inside another. -/
theorem not_endsWithin {rs done rest : List Record} {r : Record} {a b : Nat}
    (hrs : rs = done ++ r :: rest) (ha : (stream done).length ≤ a)
    (hb : b < (stream done).length + r.ll) : ¬ EndsWithin rs a b := by
  rintro ⟨i, -, hlt, hle⟩
  by_cases hd : i + 1 ≤ done.length
  · have htake : rs.take (i + 1) <+: done := by
      rw [hrs, List.take_append_of_le_length hd]
      exact List.take_prefix _ _
    obtain ⟨l, hl⟩ := htake
    have := congrArg (fun l => (stream l).length) hl
    simp only [stream_append, List.length_append] at this
    omega
  · have := length_stream_take_mono rs (show done.length + 1 ≤ i + 1 by omega)
    rw [length_stream_take hrs] at this
    omega

/-!
## Places in a stream of logical records

Where one is in the records after some bytes of them, told byte by byte. `place_eq_start`: after
whole records one is at the start of the next; `valid_iff`: bytes after which one is somewhere, but
not in an LL field, are the first of some stream of records, and no others are.
-/

open Framework

inductive Place where
  | start
  /-- After the first byte of an LL field -/
  | ll (b : UInt8)
  /-- After `done` bytes of a record of `size` -/
  | within (size done : Nat)
  deriving DecidableEq

/-- After one more byte; `none` if an LL field is not valid. -/
def Place.next : Place → UInt8 → Option Place
  | .start, b => some (.ll b)
  | .ll a, b =>
    let size := a.toNat * 2 ^ 8 + b.toNat
    if size < 2 ∨ size > 32767 then none
    else some (if size = 2 then .start else .within size 2)
  | .within size done, _ => some (if done + 1 = size then .start else .within size (done + 1))

def place (bytes : List UInt8) : Option Place := run Place.next .start bytes

/-- The bytes are the first of some stream of records. -/
def Valid (bytes : List UInt8) : Prop := ∃ rs, bytes <+: stream rs

variable {size done : Nat} {a b : UInt8} {bytes rest : List UInt8} {p q : Place}

/-! ## Going on -/

theorem run_place_append (p : Place) (xs ys : List UInt8) :
    run Place.next p (xs ++ ys) = (run Place.next p xs).bind fun q => run Place.next q ys :=
  run_append

/-- More bytes of a record, and not all that are left -/
theorem run_within_lt (h : done + bytes.length < size) :
    run Place.next (.within size done) bytes = some (.within size (done + bytes.length)) := by
  induction bytes generalizing done with
  | nil => rfl
  | cons b bytes ih =>
    rw [List.length_cons] at h ⊢
    refine run_cons.mpr ⟨.within size (done + 1), ?_, ?_⟩
    · rw [Place.next, if_neg (by omega)]
    · rw [ih (by omega)]
      congr 2
      omega

/-- All the bytes that are left of a record -/
theorem run_within_eq (h : done + bytes.length = size) (hne : bytes ≠ []) :
    run Place.next (.within size done) bytes = some .start := by
  obtain ⟨init, b, rfl⟩ := List.eq_nil_or_concat bytes |>.resolve_left hne
  rw [List.concat_eq_append, List.length_append, List.length_singleton] at h
  rw [List.concat_eq_append, run_place_append, run_within_lt (by omega), Option.bind_some]
  refine run_cons.mpr ⟨.start, ?_, rfl⟩
  rw [Place.next, if_pos (by omega)]

/-- The bytes that are left of a record, and others -/
theorem run_within (hd : done < size) (h : size ≤ done + bytes.length) :
    run Place.next (.within size done) bytes = place (bytes.drop (size - done)) := by
  have hne : bytes.take (size - done) ≠ [] := by
    apply List.ne_nil_of_length_pos
    rw [List.length_take]
    omega
  conv_lhs => rw [← List.take_append_drop (size - done) bytes]
  rw [run_place_append, run_within_eq (by rw [List.length_take]; omega) hne, Option.bind_some]
  rfl

/-- At the start of a record, with its LL field and others -/
theorem place_cons (a b : UInt8) (rest : List UInt8) :
    place (a :: b :: rest) =
      if a.toNat * 2 ^ 8 + b.toNat < 2 ∨ a.toNat * 2 ^ 8 + b.toNat > 32767 then none
      else if rest.length + 2 < a.toNat * 2 ^ 8 + b.toNat then
        some (.within (a.toNat * 2 ^ 8 + b.toNat) (rest.length + 2))
      else place (rest.drop (a.toNat * 2 ^ 8 + b.toNat - 2)) := by
  have hfirst : place (a :: b :: rest) = (Place.next (.ll a) b).bind fun q =>
      run Place.next q rest := rfl
  rw [hfirst, Place.next]
  generalize a.toNat * 2 ^ 8 + b.toNat = size
  by_cases hbad : size < 2 ∨ size > 32767
  · rw [if_pos hbad]
    simp only [if_pos hbad, Option.bind_none]
  · simp only [if_neg hbad, Option.bind_some]
    by_cases h2 : size = 2
    · rw [if_pos h2, if_neg (by omega), h2]
      rfl
    · rw [if_neg h2]
      split
      · rw [run_within_lt (by omega), Nat.add_comm]
      · rw [run_within (by omega) (by omega)]

/-- A place in a record is behind its LL field and not at its end. -/
theorem place_within (h : place bytes = some (.within size done)) :
    2 ≤ done ∧ done < size ∧ size ≤ 32767 ∧ done ≤ bytes.length := by
  induction hn : bytes.length using Nat.strongRecOn generalizing bytes with
  | ind n ih =>
    match bytes with
    | [] => cases h
    | [b] => cases h
    | a :: b :: rest =>
      rw [place_cons] at h
      simp only [List.length_cons] at hn
      split at h
      · cases h
      · split at h
        · cases h
          omega
        · have hlen := List.length_drop (i := a.toNat * 2 ^ 8 + b.toNat - 2) (l := rest)
          have := ih _ (by rw [hlen]; omega) h rfl
          rw [hlen] at this
          omega

/-! ## Streams -/

theorem place_record (r : Record) : place r.bytes = some .start := by
  have hle := r.le
  have hll : (UInt8.ofNat (r.ll / 2 ^ 8)).toNat * 2 ^ 8 + (UInt8.ofNat r.ll).toNat = r.ll := by
    rw [UInt8.toNat_ofNat', UInt8.toNat_ofNat', Record.ll]
    omega
  have hbytes : r.bytes = UInt8.ofNat (r.ll / 2 ^ 8) :: UInt8.ofNat r.ll :: r.data := rfl
  rw [hbytes, place_cons, hll, if_neg (by rw [Record.ll]; omega), if_neg (by rw [Record.ll]; omega),
    Record.ll, List.drop_eq_nil_of_le (by omega)]
  rfl

theorem place_stream (rs : List Record) : place (stream rs) = some .start := by
  induction rs with
  | nil => rfl
  | cons r rs ih =>
    rw [stream_cons, place, run_place_append, ← place, place_record, Option.bind_some]
    exact ih

/-- The first record of bytes that end with a record -/
theorem place_eq_start (h : place bytes = some .start) : ∃ rs, bytes = stream rs := by
  induction hn : bytes.length using Nat.strongRecOn generalizing bytes with
  | ind n ih =>
    match bytes with
    | [] => exact ⟨[], rfl⟩
    | [b] => cases h
    | a :: b :: rest =>
      rw [place_cons] at h
      simp only [List.length_cons] at hn
      split at h
      · cases h
      · rename_i hsize
        split at h
        · cases h
        · rename_i hlen
          obtain ⟨rs, hrs⟩ := ih _ (by rw [List.length_drop]; omega) h rfl
          have hdata : (rest.take (a.toNat * 2 ^ 8 + b.toNat - 2)).length + 2 =
              a.toNat * 2 ^ 8 + b.toNat := by
            rw [List.length_take]
            omega
          refine ⟨⟨rest.take (a.toNat * 2 ^ 8 + b.toNat - 2), by omega⟩ :: rs, ?_⟩
          have ha := a.toNat_lt
          have hb := b.toNat_lt
          have hhigh : UInt8.ofNat ((a.toNat * 2 ^ 8 + b.toNat) / 2 ^ 8) = a := by
            rw [← UInt8.toNat_inj, UInt8.toNat_ofNat']
            omega
          have hlow : UInt8.ofNat (a.toNat * 2 ^ 8 + b.toNat) = b := by
            rw [← UInt8.toNat_inj, UInt8.toNat_ofNat']
            omega
          have hbe :
              Cpic.be16 ((rest.take (a.toNat * 2 ^ 8 + b.toNat - 2)).length + 2) = [a, b] := by
            rw [hdata, Cpic.be16, hhigh, hlow]
          rw [stream_cons, ← hrs]
          show a :: b :: rest = Cpic.be16 ((rest.take _).length + 2) ++ rest.take _ ++ rest.drop _
          rw [hbe, List.append_assoc, List.take_append_drop]
          rfl

theorem valid_of_append (h : Valid (bytes ++ rest)) : Valid bytes := by
  obtain ⟨rs, hrs⟩ := h
  exact ⟨rs, (List.prefix_append _ _).trans hrs⟩

theorem place_ne_none_of_valid (h : Valid bytes) : ∃ p, place bytes = some p := by
  obtain ⟨rs, rest, hrs⟩ := h
  have hplace := place_stream rs
  rw [← hrs, place, run_place_append] at hplace
  obtain ⟨p, hp, -⟩ := Option.bind_eq_some_iff.mp hplace
  exact ⟨p, hp⟩

theorem valid_of_place (h : place bytes = some p) (hll : ∀ b, p ≠ .ll b) : Valid bytes := by
  cases p with
  | start =>
    obtain ⟨rs, hrs⟩ := place_eq_start h
    exact ⟨rs, hrs ▸ List.prefix_rfl⟩
  | ll b => exact absurd rfl (hll b)
  | within size done =>
    obtain ⟨-, hlt, -⟩ := place_within h
    have hend : place (bytes ++ List.replicate (size - done) 0) = some .start := by
      have hlen := List.length_replicate (n := size - done) (a := (0 : UInt8))
      rw [place, run_place_append, ← place, h, Option.bind_some]
      exact run_within_eq (by omega) (List.ne_nil_of_length_pos (by omega))
    obtain ⟨rs, hrs⟩ := place_eq_start hend
    exact ⟨rs, hrs ▸ List.prefix_append _ _⟩

/-- The place is not in an LL field. -/
def WholeLl (bytes : List UInt8) : Prop := ∀ b, place bytes ≠ some (.ll b)

theorem valid_iff (h : WholeLl bytes) : Valid bytes ↔ place bytes ≠ none := by
  constructor
  · intro hv hn
    obtain ⟨p, hp⟩ := place_ne_none_of_valid hv
    rw [hn] at hp
    cases hp
  · intro hne
    obtain ⟨p, hp⟩ := Option.ne_none_iff_exists'.mp hne
    exact valid_of_place hp fun b hb => h b (hb ▸ hp)

end LinuxSna.Spec

namespace LinuxSna.Spec.Mapped

/-- A record as the program gives it. -/
abbrev Data := List UInt8

/-- The GDS identifier: that of application data, or that of no data. -/
def gds (x : Data) : Nat := if x.length > 0 then Cpic.snaGdsAppData else Cpic.snaGdsNullData

/-- A record with its header. -/
def bytes (x : Data) : List UInt8 := Cpic.be16 (x.length + 4) ++ Cpic.be16 (gds x) ++ x

/-- The records, one after another. -/
def stream (rs : List Data) : List UInt8 := rs.flatMap bytes

/-- Whether a header that begins `d` bytes after the pieces is whole in one of them, as far as it
must be: no piece ends after the first byte of a header, nor anywhere in the header of a record
without data. -/
def WholeHead (d : Nat) (x : Data) (n : Nat) : Prop :=
  n ≠ d + 1 ∧ (x = [] → n ≠ d + 2 ∧ n ≠ d + 3)

/-- The headers of the records are whole, where the records begin `d` bytes after the pieces
do. -/
def WholeHeads (d : Nat) (rs : List Data) (pieces : List (List UInt8)) : Prop :=
  ∀ first, first <+: pieces → ∀ before x rest, rs = before ++ x :: rest →
    WholeHead (d + (stream before).length) x first.flatten.length

/-- The pieces are the stream, cut anywhere. -/
structure Cut (rs : List Data) (pieces : List (List UInt8)) : Prop where
  flatten : pieces.flatten = stream rs
  nonempty : [] ∉ pieces

@[simp] theorem length_bytes (x : Data) : (bytes x).length = x.length + 4 := by
  simp [bytes, Cpic.be16]

@[simp] theorem stream_nil : stream [] = [] := rfl

@[simp] theorem stream_cons (x : Data) (rs : List Data) :
    stream (x :: rs) = bytes x ++ stream rs := List.flatMap_cons

/-! ## Cuts -/

theorem wholeHeads_nil (d : Nat) (pieces : List (List UInt8)) : WholeHeads d [] pieces :=
  fun _ _ before _ _ h => absurd h.symm (by simp)

/-- What is left of the pieces once the first bytes of the first are gone. -/
theorem wholeHeads_drop {d n : Nat} {rs : List Data} {p : List UInt8} {q : List (List UInt8)}
    (hp : n ≤ p.length) (hd : n ≤ d) :
    WholeHeads d rs (p :: q) ↔ WholeHeads (d - n) rs (p.drop n :: q) := by
  have hfirst (first : List (List UInt8)) (before : List Data) (x : Data) :
      WholeHead (d + (stream before).length) x (p :: first).flatten.length ↔
        WholeHead (d - n + (stream before).length) x (p.drop n :: first).flatten.length := by
    simp only [WholeHead, List.flatten_cons, List.length_append, List.length_drop]
    constructor <;> rintro ⟨h1, h2⟩ <;> refine ⟨by omega, fun hx => ?_⟩ <;> have := h2 hx <;> omega
  constructor <;> intro h first hpre before x rest hrs
  · cases first with
    | nil => simp [WholeHead]
    | cons y first =>
      obtain ⟨rfl, hq⟩ := List.cons_prefix_cons.mp hpre
      exact (hfirst first before x).mp
        (h (p :: first) (List.cons_prefix_cons.mpr ⟨rfl, hq⟩) before x rest hrs)
  · cases first with
    | nil => simp [WholeHead]
    | cons y first =>
      obtain ⟨rfl, hq⟩ := List.cons_prefix_cons.mp hpre
      exact (hfirst first before x).mpr
        (h (y.drop n :: first) (List.cons_prefix_cons.mpr ⟨rfl, hq⟩) before x rest hrs)

/-- A piece that is all gone is not missed. -/
theorem wholeHeads_nil_cons {d : Nat} {rs : List Data} {q : List (List UInt8)} :
    WholeHeads d rs ([] :: q) ↔ WholeHeads d rs q := by
  constructor <;> intro h first hpre before x rest hrs
  · exact h ([] :: first) (List.cons_prefix_cons.mpr ⟨rfl, hpre⟩) before x rest hrs
  · cases first with
    | nil => simp [WholeHead]
    | cons y first =>
      obtain ⟨rfl, hq⟩ := List.cons_prefix_cons.mp hpre
      exact h first hq before x rest hrs

/-- The header at the start of the pieces is whole if it is in the first of them, and the others
come after it. -/
theorem wholeHeads_cons {x : Data} {rs : List Data} {p : List UInt8} {q : List (List UInt8)}
    (hp : p ≠ []) :
    WholeHeads 0 (x :: rs) (p :: q) ↔
      WholeHead 0 x p.length ∧ WholeHeads (x.length + 4) rs (p :: q) := by
  have hpos := List.length_pos_iff.mpr hp
  constructor
  · intro h
    refine ⟨?_, fun first hpre before y rest hrs => ?_⟩
    · simpa using h [p] (List.cons_prefix_cons.mpr ⟨rfl, List.nil_prefix⟩) [] x rs rfl
    · have hnext := h first hpre (x :: before) y rest (by rw [hrs]; rfl)
      rw [stream_cons, List.length_append, length_bytes] at hnext
      rwa [Nat.zero_add] at hnext
  · rintro ⟨hx, hrest⟩ first hpre before y rest hrs
    cases before with
    | nil =>
      obtain ⟨rfl, rfl⟩ := List.cons.inj hrs
      cases first with
      | nil => simp [WholeHead]
      | cons z first =>
        obtain ⟨rfl, -⟩ := List.cons_prefix_cons.mp hpre
        obtain ⟨h1, h2⟩ := hx
        simp only [WholeHead, stream_nil, List.length_nil, List.flatten_cons, List.length_append]
        refine ⟨by omega, fun hnil => ?_⟩
        have := h2 hnil
        omega
    | cons z before =>
      obtain ⟨rfl, rfl⟩ := List.cons.inj hrs
      have hnext := hrest first hpre before y rest rfl
      rwa [stream_cons, List.length_append, length_bytes, Nat.zero_add]

/-! ## The data of a stream -/

/-- A place in a stream: so many bytes of a header are still to come, and so many of the data
behind it. -/
structure Position where
  header : Nat := 0
  left : Nat := 0

/-- The data of a stream, from a place in it on. -/
def data : Position → List UInt8 → List UInt8
  | ⟨0, 0⟩, a :: b :: bytes => data ⟨2, a.toNat * 2 ^ 8 + b.toNat - 4⟩ bytes
  | ⟨0, n + 1⟩, x :: bytes => x :: data ⟨0, n⟩ bytes
  | ⟨k + 1, n⟩, _ :: bytes => data ⟨k, n⟩ bytes
  | _, _ => []

theorem data_header {k n : Nat} {bytes more : List UInt8} :
    data ⟨k, n⟩ (bytes ++ more) = data ⟨k - bytes.length, n⟩ (bytes.drop k ++ more) := by
  induction bytes generalizing k with
  | nil => simp
  | cons x bytes ih =>
    cases k with
    | zero => simp
    | succ k => simpa [data] using ih

theorem data_left {n size : Nat} {bytes more : List UInt8} (hn : size ≤ n)
    (hsize : size ≤ bytes.length) :
    data ⟨0, n⟩ (bytes ++ more) =
      bytes.take size ++ data ⟨0, n - size⟩ (bytes.drop size ++ more) := by
  induction size generalizing n bytes with
  | zero => simp
  | succ size ih =>
    obtain ⟨x, bytes, rfl⟩ := List.exists_cons_of_length_pos (Nat.lt_of_lt_of_le size.succ_pos hsize)
    obtain ⟨n, rfl⟩ : ∃ k, n = k + 1 := ⟨n - 1, by omega⟩
    simpa [data] using ih (Nat.le_of_succ_le_succ hn) (Nat.le_of_succ_le_succ hsize)

theorem data_bytes {x : Data} (hx : x.length + 4 < 2 ^ 16) (more : List UInt8) :
    data {} (bytes x ++ more) = x ++ data {} more := by
  have hsize : (x.length + 4) / 256 % 256 * 256 + (x.length + 4) % 256 - 4 = x.length := by omega
  have hdata : data ⟨0, x.length⟩ (x ++ more) = x ++ data {} more :=
    (data_left (Nat.le_refl x.length) (Nat.le_refl _)).trans (by simp)
  simpa [bytes, Cpic.be16, data, hsize] using hdata

/-- The data of records are the records. -/
theorem data_stream {rs : List Data} (hrs : ∀ x ∈ rs, x.length + 4 < 2 ^ 16) :
    data {} (stream rs) = rs.flatten := by
  induction rs with
  | nil => rfl
  | cons x rs ih =>
    rw [stream_cons, data_bytes (hrs x List.mem_cons_self), List.flatten_cons,
      ih fun y hy => hrs y (List.mem_cons_of_mem x hy)]

end LinuxSna.Spec.Mapped
