import LinuxSna.Spec.Database

/-!
# The bytes of a database

What the functions of `tdb.c` read in the file, and what their writes make of its blocks.

* `tdbRead_eq`, `tdbWrite_eq`: inside the file reading and writing succeed;
* `recAt_write`, `blockAt_congr`: a record that has been written, and the others;
* `agrees_top`, `agrees_block`: the layout after a top or something in a block was written;
* `withLock_put`: the locks are as they were.
-/

namespace LinuxSna.Tdb

open Framework

/-! ## Record heads -/

/-- Each member is a word. -/
structure ListStruct.Words (r : ListStruct) : Prop where
  recLen : r.recLen < 2 ^ 32
  next : r.next < 2 ^ 32
  keyLen : r.keyLen < 2 ^ 32
  dataLen : r.dataLen < 2 ^ 32
  fullHash : r.fullHash < 2 ^ 32
  magic : r.magic < 2 ^ 32

/-- What is left of each member in a word -/
def ListStruct.wrap (r : ListStruct) : ListStruct :=
  ⟨r.recLen % 2 ^ 32, r.next % 2 ^ 32, r.keyLen % 2 ^ 32, r.dataLen % 2 ^ 32, r.fullHash % 2 ^ 32,
    r.magic % 2 ^ 32⟩

theorem ListStruct.Words.wrap_eq {r : ListStruct} (hr : r.Words) : r.wrap = r := by
  cases r
  simp only [ListStruct.wrap, Nat.mod_eq_of_lt hr.recLen, Nat.mod_eq_of_lt hr.next,
    Nat.mod_eq_of_lt hr.keyLen, Nat.mod_eq_of_lt hr.dataLen, Nat.mod_eq_of_lt hr.fullHash,
    Nat.mod_eq_of_lt hr.magic]

@[simp] theorem length_bytes (r : ListStruct) : r.bytes.length = recSize := by
  simp [ListStruct.bytes, recSize]

theorem ofBytes_bytes (r : ListStruct) (bs : List UInt8) :
    ListStruct.ofBytes (r.bytes ++ bs) = r.wrap := by
  simp [ListStruct.ofBytes, ListStruct.bytes, ListStruct.wrap, List.drop_append,
    List.drop_eq_nil_of_le, value_bytesOf]

theorem ofBytes_take (bs : List UInt8) : ListStruct.ofBytes (bs.take recSize) = .ofBytes bs := by
  simp [ListStruct.ofBytes, recSize, List.take_take, List.drop_take]

variable {m m' : Image} {o x v i n size : ℕ} {bs : List UInt8} {r : ListStruct}

theorem ofBytes_read (m : Image) (o : ℕ) : ListStruct.ofBytes (m.read o recSize) = recAt m o := by
  simp [ListStruct.ofBytes, recAt, recSize, Image.word, Image.drop_read, Image.take_read]

theorem recAt_words (m : Image) (o : ℕ) : (recAt m o).Words :=
  ⟨m.word_lt _, m.word_lt _, m.word_lt _, m.word_lt _, m.word_lt _, m.word_lt _⟩

theorem recAt_congr (h : ∀ x, o ≤ x → x < o + recSize → m' x = m x) : recAt m' o = recAt m o := by
  rw [← ofBytes_read, ← ofBytes_read, Image.read_congr h]

theorem recAt_write (m : Image) (o : ℕ) (r : ListStruct) (bs : List UInt8) :
    recAt (m.write o (r.bytes ++ bs)) o = r.wrap := by
  have hself := m.read_write_self o (r.bytes ++ bs)
  have hle : recSize ≤ (r.bytes ++ bs).length := by
    rw [List.length_append, length_bytes]
    exact Nat.le_add_right _ _
  rw [← ofBytes_read, ← Image.take_read _ _ hle, hself, ofBytes_take, ofBytes_bytes]

theorem blockAt_congr (h : ∀ x, o ≤ x → x < o + (blockAt m o).extent → m' x = m x) :
    blockAt m' o = blockAt m o := by
  have hrec : recAt m' o = recAt m o :=
    recAt_congr fun x hle hlt => h x hle (Nat.lt_of_lt_of_le hlt
      (Nat.add_le_add_left (Nat.le_add_right _ _) _))
  rw [blockAt, blockAt, hrec]
  refine congrArg _ (Image.read_congr fun x hle hlt => h x ?_ ?_)
  · omega
  · show x < o + (recSize + (recAt m o).recLen)
    omega

@[simp] theorem blockAt_head (m : Image) (o : ℕ) : (blockAt m o).head = recAt m o := rfl

theorem length_payload (m : Image) (o : ℕ) : (blockAt m o).payload.length = (blockAt m o).head.recLen :=
  Image.length_read _ _ _

/-- What is read behind the head -/
theorem read_key {k : ℕ} (hk : k ≤ (recAt m o).recLen) :
    m.read (o + recSize) k = (blockAt m o).payload.take k := (Image.take_read _ _ hk).symm

theorem read_data {k j : ℕ} (hk : k + j ≤ (recAt m o).recLen) :
    m.read (o + recSize + k) j = ((blockAt m o).payload.drop k).take j := by
  rw [blockAt, Image.drop_read, Image.take_read]
  omega

/-- The head of a record is written over. -/
theorem blockAt_write_head (hr : r.Words) (hlen : r.recLen = (recAt m o).recLen) :
    blockAt (m.write o r.bytes) o = ⟨r, (blockAt m o).payload⟩ := by
  have hrec := recAt_write m o r []
  rw [List.append_nil, hr.wrap_eq] at hrec
  rw [blockAt, blockAt, hrec, hlen]
  refine congrArg _ (Image.read_write_of_sep (.inr ?_))
  rw [length_bytes]

/-- A record is written with its key and its data. -/
theorem blockAt_write_all (hr : r.Words) (hfit : bs.length ≤ r.recLen) :
    ∃ rest, blockAt (m.write o (r.bytes ++ bs)) o = ⟨r, bs ++ rest⟩ ∧
      (bs ++ rest).length = r.recLen := by
  have hrec := recAt_write m o r bs
  rw [hr.wrap_eq] at hrec
  obtain ⟨k, hk⟩ := Nat.exists_eq_add_of_le hfit
  have hself : (m.write o (r.bytes ++ bs)).read (o + recSize) bs.length = bs := by
    rw [Image.write_append, length_bytes]
    exact Image.read_write_self _ _ _
  refine ⟨(m.write o (r.bytes ++ bs)).read (o + recSize + bs.length) k, ?_, ?_⟩
  · rw [blockAt, hrec, hk, Image.read_add, hself]
  · rw [List.length_append, Image.length_read, hk]

/-- The data of a record are written. -/
theorem blockAt_write_data {k : ℕ} (hfit : k + bs.length ≤ (recAt m o).recLen) :
    ∃ rest, blockAt (m.write (o + recSize + k) bs) o =
      ⟨recAt m o, (blockAt m o).payload.take k ++ (bs ++ rest)⟩ := by
  have hrec : recAt (m.write (o + recSize + k) bs) o = recAt m o :=
    recAt_congr fun y _ hlt => Image.write_of_sep (by omega)
  obtain ⟨j, hj⟩ := Nat.exists_eq_add_of_le hfit
  have hself := m.read_write_self (o + recSize + k) bs
  refine ⟨(m.write (o + recSize + k) bs).read (o + recSize + k + bs.length) j, ?_⟩
  rw [blockAt, hrec, hj, Nat.add_assoc k, Image.read_add, Image.read_add, hself,
    Image.read_write_of_sep (.inl (Nat.le_refl _)), read_key (by omega)]

/-- Two heads are written: one at `o`, and one behind it. -/
def cut (m : Image) (o q : ℕ) (r r' : ListStruct) : Image := (m.write q r'.bytes).write o r.bytes

variable {q e : ℕ} {r' : ListStruct}

theorem cut_of_sep (hq : o + recSize ≤ q) (he : q + recSize ≤ e) (hx : x < o ∨ e ≤ x) :
    cut m o q r r' x = m x := by
  rw [cut, Image.write_of_sep, Image.write_of_sep] <;> rw [length_bytes] <;> omega

theorem recAt_cut (hr : r.Words) : recAt (cut m o q r r') o = r := by
  have hself := recAt_write (m.write q r'.bytes) o r []
  rwa [List.append_nil, hr.wrap_eq] at hself

theorem recAt_cut_rest (hq : o + recSize ≤ q) : recAt (cut m o q r r') q = r'.wrap := by
  have hself := recAt_write m q r' []
  rw [List.append_nil] at hself
  rw [← hself, cut]
  refine recAt_congr fun x hx _ => Image.write_of_sep (.inr ?_)
  rw [length_bytes]
  omega

/-! ## Layouts -/

variable {loose : List ℕ} {l : ℕ → List ℕ}

/-- A top is written. -/
theorem agrees_top (hw : (layoutOf m size n).Wf loose l) (hi : i ≤ n) (hv : v < 2 ^ 32) :
    Layout.Agrees { layoutOf m size n with top := Function.update (layoutOf m size n).top i v }
      (layoutOf (m.write (topAt i) (bytesOf 4 v)) size n) (members (n + 1) loose l) where
  top j hj := by
    show Image.word _ (topAt j) = Function.update (layoutOf m size n).top i v j
    by_cases hji : j = i
    · rw [hji, Function.update_self, Image.word_write_self, Nat.mod_eq_of_lt hv]
    · rw [Function.update_of_ne hji, Image.word_write_of_sep]
      · rfl
      · rw [length_bytesOf, topAt, topAt]
        omega
  block o ho := by
    have hle := (hw.bounds ho).1
    refine blockAt_congr fun x hx _ => Image.write_of_sep (.inr ?_)
    rw [length_bytesOf, topAt]
    simp only [dataStart, layoutOf] at hle
    omega
  size := rfl
  hashSize := rfl

theorem header_top (i v : ℕ) : ∀ x < freelistTop, m.write (topAt i) (bytesOf 4 v) x = m x :=
  fun x hx => Image.write_of_sep (.inl (by rw [topAt]; omega))

/-- Something is written inside a block. -/
theorem agrees_block (hw : (layoutOf m size n).Wf loose l) (ho : o ∈ members (n + 1) loose l)
    (hle : o ≤ x) (hend : x + bs.length ≤ o + (blockAt m o).extent) :
    Layout.Agrees { layoutOf m size n with
        block := Function.update (blockAt m) o (blockAt (m.write x bs) o) }
      (layoutOf (m.write x bs) size n) (members (n + 1) loose l) where
  top j hj := by
    have hstart := (hw.bounds ho).1
    refine Image.word_write_of_sep (.inl ?_)
    rw [topAt]
    simp only [dataStart, layoutOf] at hstart hj
    omega
  block p hp := by
    show blockAt _ p = Function.update (blockAt m) o (blockAt (m.write x bs) o) p
    by_cases hpo : p = o
    · subst hpo
      rw [Function.update_self]
    · rw [Function.update_of_ne hpo]
      have hsep := hw.packed.sep hp ho hpo
      simp only [layoutOf] at hsep
      exact blockAt_congr fun y hy hlt => Image.write_of_sep (by omega)
  size := rfl
  hashSize := rfl

/-- The head of a record is written. -/
theorem agrees_head (hw : (layoutOf m size n).Wf loose l) (ho : o ∈ members (n + 1) loose l)
    (hr : r.Words) (hlen : r.recLen = (recAt m o).recLen) :
    Layout.Agrees { layoutOf m size n with
        block := Function.update (blockAt m) o ⟨r, (blockAt m o).payload⟩ }
      (layoutOf (m.write o r.bytes) size n) (members (n + 1) loose l) := by
  rw [← blockAt_write_head hr hlen]
  refine agrees_block hw ho (Nat.le_refl o) ?_
  rw [length_bytes]
  exact Nat.add_le_add_left (Nat.le_add_right _ _) _

/-- A record is cut. -/
theorem agrees_cut (r r' : ListStruct) (hw : (layoutOf m size n).Wf loose l)
    (ho : o ∈ members (n + 1) loose l)
    (hq : o + recSize ≤ q) (he : q + recSize ≤ o + (blockAt m o).extent) :
    Layout.Agrees { layoutOf m size n with
        block := Function.update (Function.update (blockAt m) o (blockAt (cut m o q r r') o)) q
          (blockAt (cut m o q r r') q) }
      (layoutOf (cut m o q r r') size n) (q ::ₘ members (n + 1) loose l) where
  top j hj := by
    have hstart := (hw.bounds ho).1
    refine Image.word_congr fun x _ hlt => cut_of_sep hq he (.inl ?_)
    rw [topAt] at hlt
    simp only [dataStart, layoutOf] at hstart hj
    omega
  block p hp := by
    show blockAt _ p = Function.update (Function.update (blockAt m) o _) q _ p
    by_cases hpq : p = q
    · rw [hpq, Function.update_self]
    · rw [Function.update_of_ne hpq]
      by_cases hpo : p = o
      · rw [hpo, Function.update_self]
      · rw [Function.update_of_ne hpo]
        have hsep := hw.packed.sep ((Multiset.mem_cons.mp hp).resolve_left hpq) ho hpo
        simp only [layoutOf] at hsep
        exact blockAt_congr fun y hy hlt => cut_of_sep hq he (by omega)
  size := rfl
  hashSize := rfl

theorem header_block (hw : (layoutOf m size n).Wf loose l) (ho : o ∈ members (n + 1) loose l)
    (hle : o ≤ x) : ∀ y < freelistTop, m.write x bs y = m y := by
  have hstart := (hw.bounds ho).1
  intro y hy
  refine Image.write_of_sep (.inl ?_)
  rw [dataStart] at hstart
  omega

/-! ## Contexts -/

/-- The image and the size are set. -/
def Context.put (t : Context) (m : Image) (size : ℕ) : Context :=
  { t with image := some m, mapSize := size }

namespace Context

variable {t : Context} {k : ℕ}

@[simp] theorem put_image : (t.put m size).image = some m := rfl

@[simp] theorem put_mapSize : (t.put m size).mapSize = size := rfl

@[simp] theorem put_hashSize : (t.put m size).hashSize = t.hashSize := rfl

@[simp] theorem put_inMemory : (t.put m size).inMemory = t.inMemory := rfl

@[simp] theorem put_put : (t.put m size).put m' k = t.put m' k := rfl

theorem put_self (h : t.image = some m) : t.put m t.mapSize = t := by
  cases t
  cases h
  rfl

end Context

variable {t : Context} {α : Type} {a : α}

theorem tdbLock_image : (tdbLock t i).image = t.image := by
  rw [tdbLock]
  split <;> rfl

theorem tdbLock_mapSize : (tdbLock t i).mapSize = t.mapSize := by
  rw [tdbLock]
  split <;> rfl

theorem tdbLock_hashSize : (tdbLock t i).hashSize = t.hashSize := by
  rw [tdbLock]
  split <;> rfl

theorem tdbLock_inMemory : (tdbLock t i).inMemory = t.inMemory := by
  rw [tdbLock]
  split <;> rfl

theorem unlock_lock (hi : i ≤ t.hashSize) : tdbUnlock (tdbLock t i) i = t := by
  have hlock : tdbLock t i = { t with locked := Function.update t.locked i (t.locked i + 1) } :=
    if_pos hi
  rw [hlock, tdbUnlock, if_pos ⟨hi, by simp⟩]
  simp

theorem unlock_set (hi : i ≤ t.hashSize) (x : Option Image) (size : ℕ) :
    tdbUnlock { tdbLock t i with image := x, mapSize := size } i =
      { t with image := x, mapSize := size } := by
  have hlock : tdbLock t i = { t with locked := Function.update t.locked i (t.locked i + 1) } :=
    if_pos hi
  rw [hlock, tdbUnlock, if_pos ⟨hi, by simp⟩]
  simp

theorem unlock_put (hi : i ≤ t.hashSize) :
    tdbUnlock ((tdbLock t i).put m size) i = t.put m size := unlock_set hi _ _

theorem withLock_same {body : Context → Option (Context × α)} (hi : i ≤ t.hashSize)
    (h : body (tdbLock t i) = some (tdbLock t i, a)) : withLock i t body = some (t, a) := by
  rw [withLock, h, Option.map_some, unlock_lock hi]

theorem withLock_put {body : Context → Option (Context × α)} (hi : i ≤ t.hashSize)
    (h : body (tdbLock t i) = some ((tdbLock t i).put m size, a)) :
    withLock i t body = some (t.put m size, a) := by
  rw [withLock, h, Option.map_some, unlock_put hi]

/-- Inside the file, reading succeeds. -/
theorem tdbRead_eq (hm : t.image = some m) (hlt : t.mapSize < 2 ^ 32) {len : ℕ}
    (hle : o + len ≤ t.mapSize) : tdbRead t o len = some (m.read o len) := by
  have hin : (o + len) % 2 ^ 32 = o + len := Nat.mod_eq_of_lt (by omega)
  rw [tdbRead, tdbOob, hin, decide_eq_false (by omega), Bool.and_false, if_neg Bool.false_ne_true, hm,
    Nat.mod_eq_of_lt (by omega), Nat.mod_eq_of_lt (by omega)]
  rfl

theorem tdbWrite_eq (hm : t.image = some m) (hlt : t.mapSize < 2 ^ 32)
    (hle : o + bs.length ≤ t.mapSize) : tdbWrite t o bs = some (t.put (m.write o bs) t.mapSize) := by
  have hin : (o + bs.length) % 2 ^ 32 = o + bs.length := Nat.mod_eq_of_lt (by omega)
  rw [tdbWrite, tdbOob, hin, decide_eq_false (by omega), Bool.and_false, if_neg Bool.false_ne_true, hm,
    Nat.mod_eq_of_lt (by omega), Nat.mod_eq_of_lt (by omega), List.take_length]
  rfl

theorem ofsRead_eq (hm : t.image = some m) (hlt : t.mapSize < 2 ^ 32) (hle : o + 4 ≤ t.mapSize) :
    ofsRead t o = some (m.word o) := by
  rw [ofsRead, tdbRead_eq hm hlt hle]
  rfl

theorem structRead_eq (hm : t.image = some m) (hlt : t.mapSize < 2 ^ 32)
    (hle : o + recSize ≤ t.mapSize) : structRead t o = some (recAt m o) := by
  rw [structRead, tdbRead_eq hm hlt hle, Option.map_some, ofBytes_read]

theorem recRead_eq (hm : t.image = some m) (hlt : t.mapSize < 2 ^ 32)
    (hle : o + recSize ≤ t.mapSize) (hmagic : (recAt m o).magic = tdbMagic)
    (hnext : (recAt m o).next ≤ t.mapSize) : recRead t o = some (recAt m o) := by
  have hoob : tdbOob t (recAt m o).next = false := by
    rw [tdbOob, decide_eq_false (by have := Nat.mod_le (recAt m o).next (2 ^ 32); omega), Bool.and_false]
  rw [recRead, structRead_eq hm hlt hle]
  simp only [hmagic, hoob, ne_eq, not_true_eq_false, if_false, Bool.false_eq_true]

end LinuxSna.Tdb
