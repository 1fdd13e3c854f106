import LinuxSna.Framework.Blocks
import LinuxSna.Impl.Asuite.Tdb

/-!
# What a database is made of

Between the bytes of the file and the map that it is for: blocks, each a record head and what is behind
it, that fill the file from the end of its tops on, and lists of them, the free records first and then
those of each bucket. A block that is on no list is loose.

* `Wf.unlinkTop`, `Wf.unlinkBehind`: a block is taken out of a list;
* `Wf.push`: a loose block is put in front of one;
* `Wf.setLoose`, `Wf.setEntry`: what is in a block changes;
* `Wf.split`, `Wf.grow`: a free block is cut in two, or put behind the others;
* `content_setEntry`, `content_unlink`, `content_pushEntry`: what becomes of the map.

And the map itself: what is asked, and what may be answered (`Answers`).
-/

namespace LinuxSna.Tdb

open Framework

/-- A record: its head, and the bytes behind it -/
structure Block where
  head : ListStruct
  payload : List UInt8

namespace Block

/-- The key of a record -/
def key (b : Block) : List UInt8 := b.payload.take b.head.keyLen

/-- The data of a record -/
def data (b : Block) : List UInt8 := (b.payload.drop b.head.keyLen).take b.head.dataLen

/-- How long a record is with its head -/
def extent (b : Block) : ℕ := recSize + b.head.recLen

/-- The record is linked to another one. -/
def relink (b : Block) (next : ℕ) : Block := { b with head := { b.head with next := next } }

variable {b : Block} {next : ℕ}

@[simp] theorem relink_next : (b.relink next).head.next = next := rfl

@[simp] theorem relink_magic : (b.relink next).head.magic = b.head.magic := rfl

@[simp] theorem relink_extent : (b.relink next).extent = b.extent := rfl

@[simp] theorem relink_key : (b.relink next).key = b.key := rfl

@[simp] theorem relink_data : (b.relink next).data = b.data := rfl

theorem key_mk {w : ListStruct} {key rest : List UInt8} (h : w.keyLen = key.length) :
    Block.key ⟨w, key ++ rest⟩ = key := by
  rw [Block.key, h, List.take_left' rfl]

theorem data_mk {w : ListStruct} {key dbuf rest : List UInt8} (hk : w.keyLen = key.length)
    (hd : w.dataLen = dbuf.length) : Block.data ⟨w, key ++ (dbuf ++ rest)⟩ = dbuf := by
  rw [Block.data, hk, hd, List.drop_left' rfl, List.take_left' rfl]

theorem extent_pos (b : Block) : 0 < b.extent := Nat.lt_of_lt_of_le (by decide) (Nat.le_add_right _ _)

/-- Of the payload, the key and the data are used. -/
structure Entry (hashSize i : ℕ) (b : Block) : Prop where
  magic : b.head.magic = tdbMagic
  length : b.payload.length = b.head.recLen
  fits : b.head.keyLen + b.head.dataLen ≤ b.head.recLen
  hash : b.head.fullHash = tdbHash b.key
  bucket : tdbHash b.key % hashSize = i

namespace Entry

variable {n i : ℕ}

theorem relink (he : Entry n i b) : Entry n i (b.relink next) := ⟨he.1, he.2, he.3, he.4, he.5⟩

theorem length_key (he : Entry n i b) : b.key.length = b.head.keyLen := by
  have := he.fits
  rw [key, List.length_take, he.length]
  omega

theorem length_data (he : Entry n i b) : b.data.length = b.head.dataLen := by
  have := he.fits
  rw [data, List.length_take, List.length_drop, he.length]
  omega

end Entry

end Block

/-- Where the lists begin, what is at an offset, and how large the database and its table are -/
structure Layout where
  top : ℕ → ℕ
  block : ℕ → Block
  size : ℕ
  hashSize : ℕ

/-- Where the records begin: behind the top of the free list and those of the buckets -/
def dataStart (hashSize : ℕ) : ℕ := freelistTop + 4 * (hashSize + 1)

/-- How large the database is made for `length` bytes more: there is room for ten times as many, up to the
end of a page. -/
def Context.grown (t : Context) (length : ℕ) : ℕ :=
  (t.mapSize + length * tdbLenMultiplier + tdbPageSize) / tdbPageSize * tdbPageSize

/-- The new size is a word. -/
def Context.Small (t : Context) (length : ℕ) : Prop :=
  t.mapSize + length * tdbLenMultiplier + tdbPageSize < 2 ^ 32

instance (t : Context) (length : ℕ) : Decidable (t.Small length) :=
  inferInstanceAs (Decidable (_ < _))

/-- A file that cannot be grown is as it was. Memory is lost. -/
def Context.refused (t : Context) (length : ℕ) : Context :=
  if t.inMemory then { t with image := none, mapSize := t.grown length } else t

/-- The record head at an offset -/
def recAt (m : Image) (o : ℕ) : ListStruct :=
  ⟨m.word o, m.word (o + 4), m.word (o + 8), m.word (o + 12), m.word (o + 16), m.word (o + 20)⟩

/-- The block at an offset -/
def blockAt (m : Image) (o : ℕ) : Block := ⟨recAt m o, m.read (o + recSize) (recAt m o).recLen⟩

/-- Where the top of a list stands -/
def topAt (i : ℕ) : ℕ := freelistTop + 4 * i

/-- What the bytes of a file are -/
def layoutOf (m : Image) (size hashSize : ℕ) : Layout :=
  ⟨fun i => m.word (topAt i), blockAt m, size, hashSize⟩

namespace Layout

/-- The blocks fill the file, the lists are linked, and each has the blocks that belong there. -/
structure Wf (s : Layout) (loose : List ℕ) (l : ℕ → List ℕ) : Prop where
  size_lt : s.size < 2 ^ 32
  hash_pos : 0 < s.hashSize
  packed : Packed (fun o => (s.block o).extent) (dataStart s.hashSize) s.size
    (members (s.hashSize + 1) loose l)
  linked : ∀ i ≤ s.hashSize, Linked (fun o => (s.block o).head.next) (s.top i) (l i)
  free : ∀ o ∈ l 0, (s.block o).head.magic = tdbFreeMagic
  entry : ∀ i < s.hashSize, ∀ o ∈ l (i + 1), Block.Entry s.hashSize i (s.block o)
  keys : ∀ i < s.hashSize, ((l (i + 1)).map fun o => (s.block o).key).Nodup

/-- What the database maps a key to -/
def content (s : Layout) (l : ℕ → List ℕ) (k : List UInt8) : Option (List UInt8) :=
  ((l (tdbHash k % s.hashSize + 1)).find? fun o => (s.block o).key = k).map fun o => (s.block o).data

/-- The record of a key is long enough for new data. -/
def InPlace (s : Layout) (l : ℕ → List ℕ) (key dbuf : List UInt8) : Prop :=
  ∃ o ∈ l (tdbHash key % s.hashSize + 1),
    (s.block o).key = key ∧ key.length + dbuf.length ≤ (s.block o).head.recLen

/-- A free record is long enough. -/
def HasFree (s : Layout) (l : ℕ → List ℕ) (length : ℕ) : Prop :=
  ∃ o ∈ l 0, length ≤ (s.block o).head.recLen

variable {s s' : Layout} {loose l₁ l₂ : List ℕ} {l : ℕ → List ℕ} {i o a : ℕ} {b : Block}

/-- The same tops and the same blocks -/
structure Agrees (s s' : Layout) (M : Multiset ℕ) : Prop where
  top : ∀ i ≤ s.hashSize, s'.top i = s.top i
  block : ∀ o ∈ M, s'.block o = s.block o
  size : s'.size = s.size
  hashSize : s'.hashSize = s.hashSize

theorem bucket_lt (hs : 0 < s.hashSize) (k : List UInt8) : tdbHash k % s.hashSize < s.hashSize :=
  Nat.mod_lt _ hs

namespace Wf

theorem mem (_ : Wf s loose l) (hi : i ≤ s.hashSize) (ho : o ∈ l i) :
    o ∈ members (s.hashSize + 1) loose l := mem_members_of_mem (Nat.lt_succ_of_le hi) ho

variable (hw : Wf s loose l)
include hw

theorem nodup (hi : i ≤ s.hashSize) : (l i).Nodup :=
  nodup_of_members hw.packed.nodup (Nat.lt_succ_of_le hi)

theorem bounds (ho : o ∈ members (s.hashSize + 1) loose l) :
    dataStart s.hashSize ≤ o ∧ o + (s.block o).extent ≤ s.size := hw.packed.bounds ho

theorem pos (ho : o ∈ members (s.hashSize + 1) loose l) : 0 < o :=
  Nat.lt_of_lt_of_le (by rw [dataStart, freelistTop]; omega) (hw.bounds ho).1

theorem length_le (hi : i ≤ s.hashSize) : (l i).length ≤ s.size := by
  have hle : (l i : Multiset ℕ) ≤ members (s.hashSize + 1) loose l :=
    le_trans (Finset.single_le_sum (f := fun i => (l i : Multiset ℕ)) (fun _ _ => Multiset.zero_le _)
      (Finset.mem_range.mpr (Nat.lt_succ_of_le hi))) (Multiset.le_add_left _ _)
  exact le_trans (Multiset.card_le_card hle) (hw.packed.card_le fun o => (s.block o).extent_pos)

/-- A record and where it goes on lie in the file. -/
theorem next_le (hi : i ≤ s.hashSize) (ho : o ∈ l i) : (s.block o).head.next ≤ s.size := by
  obtain hzero | hmem := (hw.linked i hi).next_eq_zero_or_mem ho
  · rw [hzero]
    exact Nat.zero_le _
  · have := hw.bounds (hw.mem hi hmem)
    omega

theorem congr (hs : Agrees s s' (members (s.hashSize + 1) loose l)) : Wf s' loose l := by
  obtain ⟨htop, hblock, hsize, hhash⟩ := hs
  have hlist : ∀ i ≤ s.hashSize, ∀ o ∈ l i, s'.block o = s.block o := fun i hi o ho =>
    hblock o (hw.mem hi ho)
  refine ⟨hsize ▸ hw.size_lt, hhash ▸ hw.hash_pos, ?_, fun i hi => ?_, fun o ho => ?_,
    fun i hi o ho => ?_, fun i hi => ?_⟩
  · rw [hsize, hhash]
    exact hw.packed.congr fun o ho => by rw [hblock o ho]
  · rw [hhash] at hi
    rw [htop i hi]
    exact (hw.linked i hi).congr fun o ho => by rw [hlist i hi o ho]
  · rw [hlist 0 (Nat.zero_le _) o ho]
    exact hw.free o ho
  · rw [hhash] at hi ⊢
    rw [hlist (i + 1) hi o ho]
    exact hw.entry i hi o ho
  · rw [hhash] at hi
    rw [List.map_congr_left fun o ho => by rw [hlist (i + 1) hi o ho]]
    exact hw.keys i hi

/-- A block goes off a list, where the block before it may be linked anew. -/
theorem unlink (hi : i ≤ s.hashSize) (hl : l i = l₁ ++ o :: l₂) (htop : ∀ j ≤ s.hashSize, j ≠ i →
      s'.top j = s.top j)
    (hblock : ∀ p, ∃ next, s'.block p = (s.block p).relink next)
    (hnext : ∀ j ≤ s.hashSize, j ≠ i → ∀ p ∈ l j, s'.block p = s.block p)
    (hlink : Linked (fun o => (s'.block o).head.next) (s'.top i) (l₁ ++ l₂)) (hsize : s'.size = s.size)
    (hhash : s'.hashSize = s.hashSize) : Wf s' (o :: loose) (Function.update l i (l₁ ++ l₂)) := by
  have hmem : ∀ j, ∀ p ∈ Function.update l i (l₁ ++ l₂) j, p ∈ l j := fun j p hp => by
    by_cases hj : j = i
    · subst hj
      rw [Function.update_self] at hp
      rw [hl]
      exact List.mem_append.mpr ((List.mem_append.mp hp).imp_right (List.mem_cons_of_mem _))
    · rwa [Function.update_of_ne hj] at hp
  have hsub : ∀ j, List.Sublist (Function.update l i (l₁ ++ l₂) j) (l j) := fun j => by
    by_cases hj : j = i
    · subst hj
      rw [Function.update_self, hl]
      exact (List.sublist_cons_self o l₂).append_left l₁
    · rw [Function.update_of_ne hj]
  refine ⟨hsize ▸ hw.size_lt, hhash ▸ hw.hash_pos, ?_, fun j hj => ?_, fun p hp => ?_,
    fun j hj p hp => ?_, fun j hj => ?_⟩
  · rw [hsize, hhash, members_take (Nat.lt_succ_of_le hi) hl]
    refine hw.packed.congr fun p _ => ?_
    obtain ⟨next, hp⟩ := hblock p
    rw [hp, Block.relink_extent]
  · rw [hhash] at hj
    by_cases hji : j = i
    · subst hji
      rw [Function.update_self]
      exact hlink
    · rw [Function.update_of_ne hji, htop j hj hji]
      exact (hw.linked j hj).congr fun p hp => by rw [hnext j hj hji p hp]
  · obtain ⟨next, hb⟩ := hblock p
    rw [hb, Block.relink_magic]
    exact hw.free p (hmem 0 p hp)
  · rw [hhash] at hj ⊢
    obtain ⟨next, hb⟩ := hblock p
    rw [hb]
    exact (hw.entry j hj p (hmem _ p hp)).relink
  · rw [hhash] at hj
    have hkey : (fun p => (s'.block p).key) = fun p => (s.block p).key := by
      funext p
      obtain ⟨next, hb⟩ := hblock p
      rw [hb, Block.relink_key]
    rw [hkey]
    exact (hw.keys j hj).sublist ((hsub _).map _)

/-- The first block of a list goes. -/
theorem unlinkTop (hi : i ≤ s.hashSize) (hl : l i = o :: l₂) :
    Wf { s with top := Function.update s.top i (s.block o).head.next } (o :: loose)
      (Function.update l i l₂) := by
  have hlink := hw.linked i hi
  rw [hl] at hlink
  refine hw.unlink hi (show l i = [] ++ o :: l₂ from hl) (fun j _ hj => Function.update_of_ne hj _ _)
    (fun p => ⟨_, rfl⟩) (fun _ _ _ _ _ => rfl) ?_ rfl rfl
  show Linked _ (Function.update s.top i _ i) l₂
  rw [Function.update_self]
  exact hlink.2.2

/-- The block behind `a` goes. -/
theorem unlinkBehind (hi : i ≤ s.hashSize) (hl : l i = l₁ ++ a :: o :: l₂) :
    Wf { s with block := Function.update s.block a ((s.block a).relink (s.block o).head.next) }
      (o :: loose) (Function.update l i (l₁ ++ a :: l₂)) := by
  have ha : a ∈ l i := by
    rw [hl]
    exact List.mem_append_right _ List.mem_cons_self
  have hl' : l i = (l₁ ++ [a]) ++ o :: l₂ := by
    rw [hl, List.append_assoc, List.singleton_append]
  rw [show l₁ ++ a :: l₂ = (l₁ ++ [a]) ++ l₂ by rw [List.append_assoc, List.singleton_append]]
  refine hw.unlink hi hl' (fun _ _ _ => rfl) (fun p => ?_) (fun j hj hji p hp => ?_) ?_ rfl rfl
  · by_cases hp : p = a
    · subst hp
      exact ⟨_, Function.update_self _ _ _⟩
    · exact ⟨(s.block p).head.next, Function.update_of_ne hp _ _⟩
  · refine Function.update_of_ne ?_ _ _
    rintro rfl
    exact notMem_other hw.packed.nodup (Nat.lt_succ_of_le hi) (Nat.lt_succ_of_le hj) hji.symm ha hp
  · have hlink := hw.linked i hi
    have hn := hw.nodup hi
    rw [hl] at hlink hn
    have hnext : (fun p => (Function.update s.block a ((s.block a).relink (s.block o).head.next) p).head.next)
        = Function.update (fun p => (s.block p).head.next) a (s.block o).head.next := by
      funext p
      by_cases hp : p = a
      · subst hp
        rw [Function.update_self, Function.update_self, Block.relink_next]
      · rw [Function.update_of_ne hp, Function.update_of_ne hp]
    rw [List.append_assoc, List.singleton_append]
    show Linked (fun p => (Function.update s.block a _ p).head.next) (s.top i) _
    rw [hnext]
    exact hlink.remove hn

omit hw in
/-- No blocks -/
theorem empty (hsize : s.size = dataStart s.hashSize) (hlt : s.size < 2 ^ 32) (hs : 0 < s.hashSize)
    (htop : ∀ i ≤ s.hashSize, s.top i = 0) : Wf s [] fun _ => [] where
  size_lt := hlt
  hash_pos := hs
  packed := by
    rw [hsize, show members (s.hashSize + 1) [] (fun _ => []) = 0 by simp [members]]
    exact .empty _ _
  linked i hi := htop i hi
  free o ho := absurd ho List.not_mem_nil
  entry _ _ o ho := absurd ho List.not_mem_nil
  keys _ _ := List.nodup_nil

omit hw in
/-- A loose block is put in front of a list. -/
theorem push (hw : Wf s (o :: loose) l) (hi : i ≤ s.hashSize)
    (hnext : (s.block o).head.next = s.top i) (hfree : i = 0 → (s.block o).head.magic = tdbFreeMagic)
    (hentry : ∀ j, i = j + 1 → Block.Entry s.hashSize j (s.block o) ∧
      (s.block o).key ∉ (l i).map fun p => (s.block p).key) :
    Wf { s with top := Function.update s.top i o } loose (Function.update l i (o :: l i)) := by
  have hmem : o ∈ members (s.hashSize + 1) (o :: loose) l := mem_members.mpr (.inl List.mem_cons_self)
  have hnew : ∀ j ≤ s.hashSize, o ∉ l j := fun j hj ho =>
    notMem_loose hw.packed.nodup (Nat.lt_succ_of_le hj) ho List.mem_cons_self
  refine ⟨hw.size_lt, hw.hash_pos, ?_, fun j hj => ?_, fun p hp => ?_, fun j hj p hp => ?_,
    fun j hj => ?_⟩
  · show Packed _ _ _ (members (s.hashSize + 1) loose _)
    rw [members_push (Nat.lt_succ_of_le hi)]
    exact hw.packed
  · show Linked _ (Function.update s.top i o j) _
    by_cases hji : j = i
    · subst hji
      rw [Function.update_self, Function.update_self]
      refine ⟨rfl, Nat.ne_of_gt (hw.pos hmem), ?_⟩
      show Linked _ (s.block o).head.next (l j)
      rw [hnext]
      exact hw.linked j hi
    · rw [Function.update_of_ne hji, Function.update_of_ne hji]
      exact hw.linked j hj
  · by_cases hzero : i = 0
    · subst hzero
      rw [Function.update_self] at hp
      rcases List.mem_cons.mp hp with rfl | hp
      · exact hfree rfl
      · exact hw.free p hp
    · rw [Function.update_of_ne (Ne.symm hzero)] at hp
      exact hw.free p hp
  · by_cases hji : j + 1 = i
    · subst hji
      rw [Function.update_self] at hp
      rcases List.mem_cons.mp hp with rfl | hp
      · exact (hentry j rfl).1
      · exact hw.entry j hj p hp
    · rw [Function.update_of_ne hji] at hp
      exact hw.entry j hj p hp
  · by_cases hji : j + 1 = i
    · subst hji
      rw [Function.update_self, List.map_cons]
      exact List.nodup_cons.mpr ⟨(hentry j rfl).2, hw.keys j hj⟩
    · rw [Function.update_of_ne hji]
      exact hw.keys j hj

/-- A block is written over, with the same length. -/
theorem setBlock (hext : b.extent = (s.block o).extent)
    (hnext : ∀ j ≤ s.hashSize, o ∈ l j → b.head.next = (s.block o).head.next)
    (hfree : o ∈ l 0 → b.head.magic = tdbFreeMagic)
    (hentry : ∀ j < s.hashSize, o ∈ l (j + 1) → Block.Entry s.hashSize j b ∧ b.key = (s.block o).key) :
    Wf { s with block := Function.update s.block o b } loose l := by
  refine ⟨hw.size_lt, hw.hash_pos, hw.packed.congr fun p _ => ?_, fun j hj =>
    (hw.linked j hj).congr fun p hp => ?_, fun p hp => ?_, fun j hj p hp => ?_, fun j hj => ?_⟩
  · by_cases hpo : p = o
    · subst hpo
      show (Function.update s.block p b p).extent = _
      rw [Function.update_self, hext]
    · show (Function.update s.block o b p).extent = _
      rw [Function.update_of_ne hpo]
  · by_cases hpo : p = o
    · subst hpo
      show (Function.update s.block p b p).head.next = _
      rw [Function.update_self, hnext j hj hp]
    · show (Function.update s.block o b p).head.next = _
      rw [Function.update_of_ne hpo]
  · by_cases hpo : p = o
    · subst hpo
      show (Function.update s.block p b p).head.magic = _
      rw [Function.update_self, hfree hp]
    · show (Function.update s.block o b p).head.magic = _
      rw [Function.update_of_ne hpo]
      exact hw.free p hp
  · by_cases hpo : p = o
    · subst hpo
      show Block.Entry _ _ (Function.update s.block p b p)
      rw [Function.update_self]
      exact (hentry j hj hp).1
    · show Block.Entry _ _ (Function.update s.block o b p)
      rw [Function.update_of_ne hpo]
      exact hw.entry j hj p hp
  · have hkey : ∀ p ∈ l (j + 1), (Function.update s.block o b p).key = (s.block p).key := fun p hp => by
      by_cases hpo : p = o
      · subst hpo
        rw [Function.update_self, (hentry j hj hp).2]
      · rw [Function.update_of_ne hpo]
    show ((l (j + 1)).map fun p => (Function.update s.block o b p).key).Nodup
    rw [List.map_congr_left hkey]
    exact hw.keys j hj

omit hw in
theorem setLoose (hw : Wf s (o :: loose) l) (hext : b.extent = (s.block o).extent) :
    Wf { s with block := Function.update s.block o b } (o :: loose) l := by
  have hnew : ∀ j ≤ s.hashSize, o ∉ l j := fun j hj ho =>
    notMem_loose hw.packed.nodup (Nat.lt_succ_of_le hj) ho List.mem_cons_self
  exact hw.setBlock hext (fun j hj ho => absurd ho (hnew j hj))
    (fun ho => absurd ho (hnew 0 (Nat.zero_le _))) fun j hj ho => absurd ho (hnew (j + 1) hj)

theorem setEntry (hi : i < s.hashSize) (ho : o ∈ l (i + 1)) (hext : b.extent = (s.block o).extent)
    (hnext : b.head.next = (s.block o).head.next) (he : Block.Entry s.hashSize i b)
    (hkey : b.key = (s.block o).key) : Wf { s with block := Function.update s.block o b } loose l := by
  have honly : ∀ j ≤ s.hashSize, o ∈ l j → j = i + 1 := fun j hj hmem => by
    by_contra hne
    exact notMem_other hw.packed.nodup (Nat.lt_succ_of_le hj) (Nat.lt_succ_of_le hi) hne hmem ho
  refine hw.setBlock hext (fun _ _ _ => hnext) (fun hmem => ?_) fun j hj hmem => ?_
  · exact absurd (honly 0 (Nat.zero_le _) hmem) (Nat.succ_ne_zero _).symm
  · obtain rfl := Nat.succ.inj (honly (j + 1) hj hmem)
    exact ⟨he, hkey⟩

/-- A free block is cut in two. -/
theorem split (b' : Block) (hl : l 0 = l₁ ++ o :: l₂) (hlt : b.extent < (s.block o).extent)
    (hext : b'.extent = (s.block o).extent - b.extent) (hnext : b.head.next = o + b.extent)
    (hnext' : b'.head.next = (s.block o).head.next) (hfree : b.head.magic = tdbFreeMagic)
    (hfree' : b'.head.magic = tdbFreeMagic) :
    Wf { s with block := Function.update (Function.update s.block o b) (o + b.extent) b' } loose
      (Function.update l 0 (l₁ ++ o :: (o + b.extent) :: l₂)) := by
  have ho : o ∈ l 0 := by
    rw [hl]
    exact List.mem_append_right _ List.mem_cons_self
  have hmem := hw.mem (Nat.zero_le _) ho
  have hpos : 0 < b.extent := b.extent_pos
  have hoq : o ≠ o + b.extent := by omega
  obtain ⟨B, hB⟩ : ∃ B, B = Function.update (Function.update s.block o b) (o + b.extent) b' := ⟨_, rfl⟩
  have hblock : ∀ p, p ≠ o → p ≠ o + b.extent → B p = s.block p := fun p hpo hpq => by
    rw [hB, Function.update_of_ne hpq, Function.update_of_ne hpo]
  have hfront : B o = b := by rw [hB, Function.update_of_ne hoq, Function.update_self]
  have hback : B (o + b.extent) = b' := by rw [hB, Function.update_self]
  rw [← hB]
  have hnew : o + b.extent ∉ members (s.hashSize + 1) loose l := fun hin => by
    have := hw.packed.sep hmem hin hoq
    have := (s.block (o + b.extent)).extent_pos
    omega
  have hother : ∀ j, j ≤ s.hashSize → j ≠ 0 → ∀ p ∈ l j, B p = s.block p := by
    intro j hj hj0 p hp
    refine hblock p ?_ ?_
    · rintro rfl
      exact notMem_other hw.packed.nodup (Nat.lt_succ_of_le hj) (Nat.succ_pos _) hj0 hp ho
    · rintro rfl
      exact hnew (hw.mem hj hp)
  refine ⟨hw.size_lt, hw.hash_pos, ?_, fun j hj => ?_, fun p hp => ?_, fun j hj p hp => ?_,
    fun j hj => ?_⟩
  · show Packed _ _ _ (members (s.hashSize + 1) loose _)
    have hinsert : members (s.hashSize + 1) loose (Function.update l 0 (l₁ ++ o :: (o + b.extent) :: l₂))
        = (o + b.extent) ::ₘ members (s.hashSize + 1) loose l := by
      have hl' : l 0 = (l₁ ++ [o]) ++ l₂ := by rw [hl, List.append_assoc, List.singleton_append]
      rw [show l₁ ++ o :: (o + b.extent) :: l₂ = (l₁ ++ [o]) ++ (o + b.extent) :: l₂ by
        rw [List.append_assoc, List.singleton_append]]
      exact members_insert (Nat.succ_pos _) hl'
    rw [hinsert]
    refine hw.packed.split hmem hpos hlt (fun p hp hpo => ?_) ?_ ?_
    · show (B p).extent = _
      rw [hblock p hpo (ne_of_mem_of_not_mem hp hnew)]
    · show (B o).extent = _
      rw [hfront]
    · show (B (o + b.extent)).extent = _
      rw [hback, hext]
  · by_cases hj0 : j = 0
    · subst hj0
      have hlink := hw.linked 0 hj
      have hn := hw.nodup hj
      have hnot : o + b.extent ∉ l 0 := fun hin => hnew (hw.mem hj hin)
      rw [hl] at hlink hn hnot
      have heq : (fun p => (B p).head.next) =
          Function.update (Function.update (fun p => (s.block p).head.next) o (o + b.extent))
            (o + b.extent) (s.block o).head.next := by
        funext p
        by_cases hpq : p = o + b.extent
        · rw [hpq, hback, Function.update_self, hnext']
        · rw [Function.update_of_ne hpq]
          by_cases hpo : p = o
          · rw [hpo, hfront, Function.update_self, hnext]
          · rw [hblock p hpo hpq, Function.update_of_ne hpo]
      rw [Function.update_self]
      show Linked (fun p => (B p).head.next) _ _
      rw [heq]
      exact hlink.insert hn (by omega) hnot
    · rw [Function.update_of_ne hj0]
      exact (hw.linked j hj).congr fun p hp => by
        show (B p).head.next = _
        rw [hother j hj hj0 p hp]
  · rw [Function.update_self] at hp
    show (B p).head.magic = _
    by_cases hpq : p = o + b.extent
    · rw [hpq, hback, hfree']
    · by_cases hpo : p = o
      · rw [hpo, hfront, hfree]
      · rw [hblock p hpo hpq]
        refine hw.free p ?_
        rw [hl]
        rw [List.mem_append, List.mem_cons, List.mem_cons] at hp
        rw [List.mem_append, List.mem_cons]
        exact hp.imp_right fun h => h.imp_right fun h => h.resolve_left hpq
  · rw [Function.update_of_ne (Nat.succ_ne_zero j)] at hp
    show Block.Entry _ _ (B p)
    rw [hother (j + 1) hj (Nat.succ_ne_zero j) p hp]
    exact hw.entry j hj p hp
  · rw [Function.update_of_ne (Nat.succ_ne_zero j)]
    show ((l (j + 1)).map fun p => (B p).key).Nodup
    rw [List.map_congr_left fun p hp => by rw [hother (j + 1) hj (Nat.succ_ne_zero j) p hp]]
    exact hw.keys j hj

/-- A loose block is put behind the others. -/
theorem grow (hlt : s.size + b.extent < 2 ^ 32) :
    Wf { s with block := Function.update s.block s.size b, size := s.size + b.extent }
      (s.size :: loose) l := by
  have hnew : s.size ∉ members (s.hashSize + 1) loose l :=
    hw.packed.notMem_end fun o => (s.block o).extent_pos
  obtain ⟨B, hB⟩ : ∃ B, B = Function.update s.block s.size b := ⟨_, rfl⟩
  have hblock : ∀ p ∈ members (s.hashSize + 1) loose l, B p = s.block p := fun p hp => by
    rw [hB, Function.update_of_ne (ne_of_mem_of_not_mem hp hnew)]
  rw [← hB]
  refine ⟨hlt, hw.hash_pos, ?_, fun j hj => (hw.linked j hj).congr fun p hp => ?_, fun p hp => ?_,
    fun j hj p hp => ?_, fun j hj => ?_⟩
  · show Packed _ _ _ (members (s.hashSize + 1) (s.size :: loose) l)
    rw [members_cons]
    refine hw.packed.grow (fun o => (s.block o).extent_pos) (fun p hp => ?_) ?_
    · show (B p).extent = _
      rw [hblock p hp]
    · show (B s.size).extent = _
      rw [hB, Function.update_self]
  · show (B p).head.next = _
    rw [hblock p (hw.mem hj hp)]
  · show (B p).head.magic = _
    rw [hblock p (hw.mem (Nat.zero_le _) hp)]
    exact hw.free p hp
  · show Block.Entry _ _ (B p)
    rw [hblock p (hw.mem hj hp)]
    exact hw.entry j hj p hp
  · show ((l (j + 1)).map fun p => (B p).key).Nodup
    rw [List.map_congr_left fun p hp => by rw [hblock p (hw.mem hj hp)]]
    exact hw.keys j hj

end Wf

/-! ## The map -/

/-- With different keys, the record with a key is the first one. -/
theorem content_eq_some_iff (hw : Wf s loose l) {k d : List UInt8} : content s l k = some d ↔
    ∃ o ∈ l (tdbHash k % s.hashSize + 1), (s.block o).key = k ∧ (s.block o).data = d := by
  have hkeys := hw.keys _ (bucket_lt hw.hash_pos k)
  rw [content, Option.map_eq_some_iff]
  constructor
  · rintro ⟨o, ho, rfl⟩
    exact ⟨o, List.mem_of_find?_eq_some ho, by simpa using List.find?_some ho, rfl⟩
  · rintro ⟨o, ho, hk, rfl⟩
    cases hfind : (l (tdbHash k % s.hashSize + 1)).find? fun o => (s.block o).key = k with
    | none =>
      rw [List.find?_eq_none] at hfind
      exact absurd (decide_eq_true hk) (hfind o ho)
    | some p =>
      have hp : (s.block p).key = k := by simpa using List.find?_some hfind
      rw [List.inj_on_of_nodup_map hkeys (List.mem_of_find?_eq_some hfind) ho (hp.trans hk.symm)]
      exact ⟨o, rfl, rfl⟩

theorem content_eq_none_iff {k : List UInt8} : content s l k = none ↔
    ∀ o ∈ l (tdbHash k % s.hashSize + 1), (s.block o).key ≠ k := by
  rw [content, Option.map_eq_none_iff, List.find?_eq_none]
  simp

/-- The free records do not matter. -/
theorem content_congr {l' : ℕ → List ℕ} (hhash : s'.hashSize = s.hashSize) (hs : 0 < s.hashSize)
    (hl : ∀ i < s.hashSize, l' (i + 1) = l (i + 1))
    (hblock : ∀ i < s.hashSize, ∀ o ∈ l (i + 1),
      (s'.block o).key = (s.block o).key ∧ (s'.block o).data = (s.block o).data) :
    content s' l' = content s l := by
  funext k
  have hlt := bucket_lt hs k
  rw [content, content, hhash, hl _ hlt]
  have hfind : ((l (tdbHash k % s.hashSize + 1)).find? fun o => (s'.block o).key = k) =
      (l (tdbHash k % s.hashSize + 1)).find? fun o => (s.block o).key = k :=
    List.find?_congr fun o ho => by rw [(hblock _ hlt o ho).1]
  rw [hfind]
  refine Option.map_congr fun o ho => (hblock _ hlt o ?_).2
  exact List.mem_of_find?_eq_some ho

/-- A record has been written over with the same key. -/
theorem content_setEntry (hw : Wf s loose l) (hi : i < s.hashSize) (ho : o ∈ l (i + 1))
    (hkey : b.key = (s.block o).key) :
    content { s with block := Function.update s.block o b } l =
      Function.update (content s l) (s.block o).key (some b.data) := by
  have hbucket := (hw.entry i hi o ho).bucket
  have hkeys : ∀ p, (Function.update s.block o b p).key = (s.block p).key := fun p => by
    by_cases hp : p = o
    · subst hp
      rw [Function.update_self, hkey]
    · rw [Function.update_of_ne hp]
  have hfind : ∀ k, ((l (tdbHash k % s.hashSize + 1)).find? fun p =>
      (Function.update s.block o b p).key = k) =
      (l (tdbHash k % s.hashSize + 1)).find? fun p => (s.block p).key = k := fun k =>
    List.find?_congr fun p _ => by rw [hkeys]
  funext k
  rw [content]
  show ((l (tdbHash k % s.hashSize + 1)).find? fun p =>
    (Function.update s.block o b p).key = k).map _ = _
  rw [hfind]
  by_cases hk : k = (s.block o).key
  · subst hk
    have hsome : content s l (s.block o).key = some (s.block o).data :=
      (content_eq_some_iff hw).mpr ⟨o, hbucket.symm ▸ ho, rfl, rfl⟩
    obtain ⟨p, hp, -⟩ := Option.map_eq_some_iff.mp hsome
    have hpk : (s.block p).key = (s.block o).key := by simpa using List.find?_some hp
    have hpl := List.mem_of_find?_eq_some hp
    rw [hbucket] at hpl
    obtain rfl := List.inj_on_of_nodup_map (hw.keys i hi) hpl ho hpk
    rw [Function.update_self, hp, Option.map_some]
    show some (Function.update s.block p b p).data = _
    rw [Function.update_self]
  · rw [Function.update_of_ne hk, content]
    refine Option.map_congr fun p hp => ?_
    have hpk : (s.block p).key = k := by simpa using List.find?_some hp
    have hpo : p ≠ o := by
      rintro rfl
      exact hk hpk.symm
    show (Function.update s.block o b p).data = _
    rw [Function.update_of_ne hpo]

/-- A record has been taken out of its list. -/
theorem content_unlink (hw : Wf s loose l) (hi : i < s.hashSize) (hl : l (i + 1) = l₁ ++ o :: l₂) :
    content s (Function.update l (i + 1) (l₁ ++ l₂)) =
      Function.update (content s l) (s.block o).key none := by
  have ho : o ∈ l (i + 1) := by
    rw [hl]
    exact List.mem_append_right _ List.mem_cons_self
  have hbucket := (hw.entry i hi o ho).bucket
  funext k
  rw [content]
  by_cases hk : k = (s.block o).key
  · subst hk
    have hkeys := hw.keys i hi
    rw [hl, List.map_append, List.map_cons, List.nodup_middle, List.nodup_cons, ← List.map_append] at hkeys
    rw [hbucket, Function.update_self, Function.update_self, Option.map_eq_none_iff, List.find?_eq_none]
    intro p hp hpk
    exact hkeys.1 (List.mem_map.mpr ⟨p, hp, by simpa using hpk⟩)
  · rw [Function.update_of_ne hk, content]
    by_cases hbk : tdbHash k % s.hashSize = i
    · rw [hbk, Function.update_self, hl, List.find?_append, List.find?_append, List.find?_cons_of_neg]
      simpa using Ne.symm hk
    · rw [Function.update_of_ne fun h => hbk (Nat.succ.inj h)]

/-- A record with a new key has been put in front of a list. -/
theorem content_pushEntry (he : Block.Entry s.hashSize i (s.block o)) :
    content s (Function.update l (i + 1) (o :: l (i + 1))) =
      Function.update (content s l) (s.block o).key (some (s.block o).data) := by
  funext k
  rw [content]
  by_cases hk : k = (s.block o).key
  · subst hk
    rw [he.bucket, Function.update_self, Function.update_self, List.find?_cons_of_pos (by simp)]
    rfl
  · rw [Function.update_of_ne hk, content]
    by_cases hbk : tdbHash k % s.hashSize = i
    · rw [hbk, Function.update_self, List.find?_cons_of_neg (by simpa using Ne.symm hk)]
    · rw [Function.update_of_ne fun h => hbk (Nat.succ.inj h)]

end Layout

/-- Each byte behind the tops is in one record, and each record is on one list. -/
def Context.Filled (t : Context) : Prop :=
  ∃ (m : Image) (l : ℕ → List ℕ), t.image = some m ∧
    (∀ i ≤ t.hashSize, Linked (fun o => (recAt m o).next) (m.word (topAt i)) (l i) ∧ (l i).Nodup) ∧
    (∀ i ≤ t.hashSize, ∀ j ≤ t.hashSize, i ≠ j → ∀ o ∈ l i, o ∉ l j) ∧
    ∀ x, dataStart t.hashSize ≤ x → x < t.mapSize →
      ∃! o, (∃ i ≤ t.hashSize, o ∈ l i) ∧ o ≤ x ∧ x < o + (recSize + (recAt m o).recLen)

/-! ## What a database is for -/

/-- What keys are mapped to -/
abbrev Table := List UInt8 → Option (List UInt8)

/-- A free record is long enough, or the database can be made larger. -/
def Context.HasRoom (t : Context) (room length : ℕ) : Prop :=
  t.grown (length + recSize) ≤ room ∨
    ∃ (m : Image) (free : List ℕ), t.image = some m ∧
      Linked (fun o => (recAt m o).next) (m.word (topAt 0)) free ∧ ∃ o ∈ free, length ≤ (recAt m o).recLen

/-- What a database is asked. To reopen it is to close it and to open it again. -/
inductive Request where
  | store (key dbuf : List UInt8) (flag : ℕ)
  | update (key dbuf : List UInt8)
  | delete (key : List UInt8)
  | fetch (key : List UInt8)
  | contains (key : List UInt8)
  | reopen (hashSize : ℕ) (clearIfFirst : Bool)
  deriving DecidableEq

/-- What a function of the database returns -/
inductive Reply where
  | status (ok : Bool)
  | data (value : Option (List UInt8))
  deriving DecidableEq

/-- A request to the database. One in memory that is opened again is a new one. -/
def serve (host : Host) (t : Context) : Request → Option (Context × Reply)
  | .store key dbuf flag => (tdbStore host t key dbuf flag).map (Prod.map id .status)
  | .update key dbuf => (tdbUpdate t key dbuf).map (Prod.map id .status)
  | .delete key => (tdbDelete t key).map (Prod.map id .status)
  | .fetch key => (tdbFetch t key).map (Prod.map id .data)
  | .contains key => (tdbExists t key).map (Prod.map id .status)
  | .reopen hashSize clearIfFirst =>
    (if t.inMemory then some (tdbOpenMemory hashSize)
      else t.file.bind fun f => tdbOpenFile f hashSize clearIfFirst true).map fun t => (t, .status true)

/-- One request after the other -/
def serveAll : Context → List (Host × Request) → Option (Context × List Reply)
  | t, [] => some (t, [])
  | t, e :: es => do
    let (t, a) ← serve e.1 t e.2
    let (t, as) ← serveAll t es
    some (t, a :: as)

/-- The state after a request -/
def serveStep (t : Context) (e : Host × Request) : Option Context := (serve e.1 t e.2).map Prod.fst

/-- The offsets that a request leads to are words, and so are the places in its key. Memory can be grown if it
has to be. -/
def Request.Fits (t : Context) (e : Host × Request) : Prop :=
  match e.2 with
  | .store key dbuf _ =>
    t.Small (key.length + dbuf.length + recSize) ∧
      (t.inMemory → t.HasRoom e.1.room (key.length + dbuf.length))
  | .reopen hashSize _ => dataStart (openHashSize hashSize) < 2 ^ 32
  | .update key _ | .delete key | .fetch key | .contains key => key.length < 2 ^ 32

/-- Memory can be grown for every store. -/
def Request.Grows (t : Context) (e : Host × Request) : Prop :=
  match e.2 with
  | .store key dbuf _ =>
    t.Small (key.length + dbuf.length + recSize) ∧ t.grown (key.length + dbuf.length + recSize) ≤ e.1.room
  | .reopen hashSize _ => dataStart (openHashSize hashSize) < 2 ^ 32
  | .update key _ | .delete key | .fetch key | .contains key => key.length < 2 ^ 32

instance (t : Context) : ∀ e : Host × Request, Decidable (Request.Grows t e)
  | (_, .store _ _ _) => inferInstanceAs (Decidable (_ ∧ _))
  | (_, .reopen _ _) => inferInstanceAs (Decidable (_ < _))
  | (_, .update _ _) => inferInstanceAs (Decidable (_ < _))
  | (_, .delete _) => inferInstanceAs (Decidable (_ < _))
  | (_, .fetch _) => inferInstanceAs (Decidable (_ < _))
  | (_, .contains _) => inferInstanceAs (Decidable (_ < _))

theorem Request.Grows.fits {t : Context} {e : Host × Request} (h : Request.Grows t e) :
    Request.Fits t e := by
  obtain ⟨host, r⟩ := e
  cases r with
  | store => exact ⟨h.1, fun _ => .inl h.2⟩
  | reopen => exact h
  | update => exact h
  | delete => exact h
  | fetch => exact h
  | contains => exact h

/-- A host with so much room -/
def Host.withRoom (room : ℕ) : Host := ⟨room, ⟨0, 0, 0, 0, 0, 0⟩, fun _ => 0⟩

/-- What may be answered about a table, and what becomes of the table. A store fails if the key is there
that `TDB_INSERT` is for, or if there is no room for it in a file, and an update only if there are no data
that are as long. -/
inductive Answers (t : Context) (host : Host) : Table → Request → Reply → Table → Prop
  | stored {f : Table} {key dbuf : List UInt8} {flag : ℕ} : (flag = tdbInsert → f key = none) →
      Answers t host f (.store key dbuf flag) (.status true) (Function.update f key (some dbuf))
  | found {f : Table} {key dbuf : List UInt8} : f key ≠ none →
      Answers t host f (.store key dbuf tdbInsert) (.status false) f
  | full {f : Table} {key dbuf : List UInt8} {flag : ℕ} : t.inMemory = false →
      ¬t.HasRoom host.room (key.length + dbuf.length) →
      Answers t host f (.store key dbuf flag) (.status false) f
  | updated {f : Table} {key dbuf : List UInt8} : f key ≠ none →
      Answers t host f (.update key dbuf) (.status true) (Function.update f key (some dbuf))
  | tooLong {f : Table} {key dbuf : List UInt8} :
      (∀ old, f key = some old → old.length < dbuf.length) →
      Answers t host f (.update key dbuf) (.status false) f
  | deleted {f : Table} {key : List UInt8} :
      Answers t host f (.delete key) (.status (f key).isSome) (Function.update f key none)
  | fetched {f : Table} {key : List UInt8} : Answers t host f (.fetch key) (.data (f key)) f
  | contained {f : Table} {key : List UInt8} :
      Answers t host f (.contains key) (.status (f key).isSome) f
  | reopened {f : Table} {hashSize : ℕ} {clearIfFirst : Bool} :
      Answers t host f (.reopen hashSize clearIfFirst) (.status true)
        (if t.inMemory || clearIfFirst then fun _ => none else f)

/-- The answers to requests one after the other -/
def Tells : Context → Table → List (Host × Request) → List Reply → Table → Prop
  | _, f, [], as, g => as = [] ∧ g = f
  | t, f, e :: es, as, g => ∃ t' a as' f', serveStep t e = some t' ∧ as = a :: as' ∧
      Answers t e.1 f e.2 a f' ∧ Tells t' f' es as' g

/-- What a database answers that has nothing in it and cannot be written to -/
def Request.refusal : Request → Reply
  | .store _ _ _ => .status false
  | .update _ _ => .status false
  | .delete _ => .status false
  | .fetch _ => .data none
  | .contains _ => .status false
  | .reopen _ _ => .status true

/-- The database stays open. -/
def Request.Stays : Request → Prop
  | .reopen _ _ => False
  | _ => True

/-- A database that has just been made: in memory, or in a file that was none or is cleared -/
inductive New (hashSize : ℕ) : Context → Prop
  | memory : New hashSize (tdbOpenMemory hashSize)
  | file {f : File} {clearIfFirst : Bool} {t : Context} : clearIfFirst = true ∨ validHeader f = false →
      tdbOpenFile f hashSize clearIfFirst true = some t → New hashSize t

/-! ## Going through a database -/

/-- What a function that is called for a record comes to: its state, whether the record is to go, and
whether it has seen enough. -/
structure Verdict (σ : Type) where
  state : σ
  remove : Bool
  stop : Bool

variable {σ : Type}

/-- A function for `tdb_traverse` that may delete the record that it is called for -/
def visitor (g : List UInt8 → List UInt8 → σ → Verdict σ) (t : Context) (key dbuf : List UInt8)
    (state : σ) : Option (Context × σ × Bool) :=
  let v := g key dbuf state
  if v.remove then (tdbDelete t key).map fun r => (r.1, v.state, v.stop)
  else some (t, v.state, v.stop)

/-- How far a traversal has come: the state of its function, the table, and how many records there were -/
structure Visit (σ : Type) where
  state : σ
  table : Table
  count : ℕ
  stopped : Bool

/-- The next record of a traversal -/
def Visit.step (g : List UInt8 → List UInt8 → σ → Verdict σ) (v : Visit σ)
    (e : List UInt8 × List UInt8) : Visit σ :=
  if v.stopped then v
  else
    let w := g e.1 e.2 v.state
    ⟨w.state, if w.remove then Function.update v.table e.1 none else v.table, v.count + 1, w.stop⟩

/-- A traversal that has ended goes no further. -/
theorem Visit.foldl_stopped {g : List UInt8 → List UInt8 → σ → Verdict σ} {v : Visit σ}
    (hv : v.stopped = true) (es : List (List UInt8 × List UInt8)) :
    es.foldl (Visit.step g) v = v := by
  induction es with
  | nil => rfl
  | cons e es ih => rwa [List.foldl_cons, Visit.step, if_pos hv]

end LinuxSna.Tdb
