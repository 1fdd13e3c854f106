import LinuxSna.Proof.Asuite.Tdb.Bytes

/-!
# Allocating records

`tdb_allocate` and `tdb_expand` on a database whose lists are in order.

* `Rep.unlinkRecord`, `Rep.push`: a record is taken out of a list, or put in front of one;
* `Rep.splitRecord`: a free record is cut in two;
* `Rep.expand`: the database grows by a free record;
* `Rep.allocate`: what is allocated was free, is as long as asked for, and is on no list; there is such a
  record, or the database can be grown, or nothing has changed.
-/

namespace LinuxSna.Tdb

open Framework

/-- The lists of a database are in order. -/
structure Rep (t : Context) (hd m : Image) (loose : List ℕ) (l : ℕ → List ℕ) : Prop where
  image : t.image = some m
  header : ∀ x < freelistTop, m x = hd x
  wf : (layoutOf m t.mapSize t.hashSize).Wf loose l

variable {t : Context} {hd m m' : Image} {loose l₁ l₂ : List ℕ} {l l' : ℕ → List ℕ} {i o size : ℕ}
  {host : Host} {r : ListStruct} {length : ℕ}

namespace Rep

theorem lock (h : Rep t hd m loose l) (i : ℕ) : Rep (tdbLock t i) hd m loose l := by
  refine ⟨tdbLock_image.trans h.image, h.header, ?_⟩
  rw [tdbLock_mapSize, tdbLock_hashSize]
  exact h.wf

variable (h : Rep t hd m loose l)
include h

theorem size_lt : t.mapSize < 2 ^ 32 := h.wf.size_lt

theorem start_le : dataStart t.hashSize ≤ t.mapSize := by
  have htotal := h.wf.packed.total
  simp only [layoutOf] at htotal
  omega

theorem top_le (hi : i ≤ t.hashSize) : topAt i + 4 ≤ t.mapSize := by
  have hle := h.start_le
  rw [dataStart] at hle
  rw [topAt]
  omega

theorem rec_le (ho : o ∈ members (t.hashSize + 1) loose l) :
    o + recSize + (recAt m o).recLen ≤ t.mapSize := by
  have hend := (h.wf.bounds ho).2
  rw [Nat.add_assoc]
  exact hend

theorem ofsRead_top (hi : i ≤ t.hashSize) : ofsRead t (topAt i) = some (m.word (topAt i)) :=
  ofsRead_eq h.image h.size_lt (h.top_le hi)

theorem structRead (ho : o ∈ members (t.hashSize + 1) loose l) :
    structRead t o = some (recAt m o) :=
  structRead_eq h.image h.size_lt (Nat.le_trans (Nat.le_add_right _ _) (h.rec_le ho))

theorem linked (hi : i ≤ t.hashSize) :
    Linked (fun p => (recAt m p).next) (m.word (topAt i)) (l i) := h.wf.linked i hi

/-- Writing a top -/
theorem ofsWrite_top (hi : i ≤ t.hashSize) (v : ℕ) :
    ofsWrite t (topAt i) v = some (t.put (m.write (topAt i) (bytesOf 4 v)) t.mapSize) :=
  tdbWrite_eq h.image h.size_lt (by
    rw [length_bytesOf]
    exact h.top_le hi)

/-- Writing a record head -/
theorem recWrite (ho : o ∈ members (t.hashSize + 1) loose l) (r : ListStruct) :
    recWrite t o r = some (t.put (m.write o r.bytes) t.mapSize) :=
  tdbWrite_eq h.image h.size_lt (by
    rw [length_bytes]
    exact Nat.le_trans (Nat.le_add_right _ _) (h.rec_le ho))

/-- A record is taken out of its list. The record before it may be linked anew. -/
theorem unlinkRecord (hi : i ≤ t.hashSize) (hl : l i = l₁ ++ o :: l₂)
    (hr : r.next = (recAt m o).next) :
    ∃ m', Tdb.unlinkRecord t (topAt i) (l₁.getLast?.map fun a => (a, recAt m a)) r =
        some (t.put m' t.mapSize) ∧
      Rep (t.put m' t.mapSize) hd m' (o :: loose) (Function.update l i (l₁ ++ l₂)) ∧
      blockAt m' o = blockAt m o ∧
      ∀ p ∈ members (t.hashSize + 1) loose l, (∃ next, blockAt m' p = (blockAt m p).relink next) ∧
        (p ∉ l₁ → blockAt m' p = blockAt m p) := by
  have ho : o ∈ l i := by
    rw [hl]
    exact List.mem_append_right _ List.mem_cons_self
  have hnext : (recAt m o).next < 2 ^ 32 := (recAt_words m o).next
  have htake : members (t.hashSize + 1) (o :: loose) (Function.update l i (l₁ ++ l₂)) =
      members (t.hashSize + 1) loose l := members_take (Nat.lt_succ_of_le hi) hl
  obtain rfl | ⟨l₁, a, rfl⟩ := List.eq_nil_or_concat' l₁
  · refine ⟨_, (congrArg _ hr).trans (h.ofsWrite_top hi _), ?_⟩
    rw [List.nil_append] at htake
    have hagrees := agrees_top h.wf hi hnext
    have hsame : ∀ p ∈ members (t.hashSize + 1) loose l,
        blockAt (m.write (topAt i) (bytesOf 4 (recAt m o).next)) p = blockAt m p := hagrees.block
    refine ⟨⟨rfl, fun x hx => (header_top i _ x hx).trans (h.header x hx), ?_⟩,
      hsame o (h.wf.mem hi ho), fun p hp => ⟨⟨_, hsame p hp⟩, fun _ => hsame p hp⟩⟩
    refine (h.wf.unlinkTop hi hl).congr ?_
    show Layout.Agrees _ _ (members (t.hashSize + 1) _ _)
    rw [htake]
    exact hagrees
  · have hl' : l i = l₁ ++ a :: o :: l₂ := by rw [hl, List.append_assoc, List.singleton_append]
    have ha : a ∈ l i := by
      rw [hl']
      exact List.mem_append_right _ List.mem_cons_self
    have hoa : o ≠ a := by
      rintro rfl
      have hn := h.wf.nodup hi
      rw [hl', List.nodup_append] at hn
      exact (List.nodup_cons.mp hn.2.1).1 List.mem_cons_self
    have hmem := h.wf.mem hi ha
    have hwords : ListStruct.Words { recAt m a with next := (recAt m o).next } :=
      { recAt_words m a with next := hnext }
    have hagrees := agrees_head h.wf hmem hwords rfl
    have hother : ∀ p ∈ members (t.hashSize + 1) loose l, p ≠ a →
        blockAt (m.write a { recAt m a with next := (recAt m o).next }.bytes) p = blockAt m p :=
      fun p hp hpa => (hagrees.block p hp).trans (Function.update_of_ne hpa _ _)
    refine ⟨_, ?_, ⟨rfl, fun x hx => (header_block h.wf hmem (Nat.le_refl a) x hx).trans (h.header x hx),
      ?_⟩, hother o (h.wf.mem hi ho) hoa, fun p hp => ⟨?_, fun hpl => hother p hp ?_⟩⟩
    · rw [List.getLast?_append_of_ne_nil _ (List.cons_ne_nil _ _), List.getLast?_singleton, Option.map_some,
        Tdb.unlinkRecord, hr]
      exact h.recWrite hmem _
    · have hwf := h.wf.unlinkBehind hi hl'
      rw [show l₁ ++ a :: l₂ = (l₁ ++ [a]) ++ l₂ by rw [List.append_assoc, List.singleton_append]] at hwf
      refine hwf.congr ?_
      show Layout.Agrees _ _ (members (t.hashSize + 1) _ _)
      rw [htake]
      exact hagrees
    · by_cases hpa : p = a
      · subst hpa
        exact ⟨_, (hagrees.block p hp).trans (Function.update_self _ _ _)⟩
      · exact ⟨(blockAt m p).head.next, hother p hp hpa⟩
    · rintro rfl
      exact hpl (List.mem_append_right _ List.mem_cons_self)

omit h in
/-- A loose record is put in front of a list. -/
theorem push (h : Rep t hd m (o :: loose) l) (hi : i ≤ t.hashSize)
    (hnext : (recAt m o).next = m.word (topAt i))
    (hfree : i = 0 → (recAt m o).magic = tdbFreeMagic)
    (hentry : ∀ j, i = j + 1 → Block.Entry t.hashSize j (blockAt m o) ∧
      (blockAt m o).key ∉ (l i).map fun p => (blockAt m p).key) :
    ∃ m', ofsWrite t (topAt i) o = some (t.put m' t.mapSize) ∧
      Rep (t.put m' t.mapSize) hd m' loose (Function.update l i (o :: l i)) ∧
      ∀ p ∈ members (t.hashSize + 1) (o :: loose) l, blockAt m' p = blockAt m p := by
  have hmem : o ∈ members (t.hashSize + 1) (o :: loose) l := mem_members.mpr (.inl List.mem_cons_self)
  have hlt : o < 2 ^ 32 := by
    have := h.rec_le hmem
    have := h.size_lt
    omega
  have hagrees := agrees_top h.wf hi hlt
  refine ⟨_, h.ofsWrite_top hi o, ⟨rfl, fun x hx => (header_top i _ x hx).trans (h.header x hx), ?_⟩,
    hagrees.block⟩
  refine (h.wf.push hi hnext hfree hentry).congr ?_
  show Layout.Agrees _ _ (members (t.hashSize + 1) _ _)
  rw [members_push (Nat.lt_succ_of_le hi)]
  exact hagrees

omit h in
/-- Something is written inside a loose record. -/
theorem writeLoose (h : Rep t hd m (o :: loose) l) {x : ℕ} {bs : List UInt8} (hle : o ≤ x)
    (hend : x + bs.length ≤ o + (blockAt m o).extent)
    (hext : (blockAt (m.write x bs) o).extent = (blockAt m o).extent) :
    tdbWrite t x bs = some (t.put (m.write x bs) t.mapSize) ∧
      Rep (t.put (m.write x bs) t.mapSize) hd (m.write x bs) (o :: loose) l ∧
      (∀ i ≤ t.hashSize, (m.write x bs).word (topAt i) = m.word (topAt i)) ∧
      ∀ p ∈ members (t.hashSize + 1) (o :: loose) l, p ≠ o → blockAt (m.write x bs) p = blockAt m p := by
  have hmem : o ∈ members (t.hashSize + 1) (o :: loose) l := mem_members.mpr (.inl List.mem_cons_self)
  have hagrees := agrees_block h.wf hmem hle hend
  refine ⟨tdbWrite_eq h.image h.size_lt (Nat.le_trans hend (h.wf.bounds hmem).2),
    ⟨rfl, fun y hy => (header_block h.wf hmem hle y hy).trans (h.header y hy),
      (h.wf.setLoose hext).congr hagrees⟩, hagrees.top, fun p hp hpo => ?_⟩
  exact (hagrees.block p hp).trans (Function.update_of_ne hpo _ _)

/-! ## Splitting -/

/-- A free record is cut in two. -/
theorem cut {r r' : ListStruct} {q : ℕ} (hl : l 0 = l₁ ++ o :: l₂) (hr : r.Words)
    (hq : q = o + recSize + r.recLen) (hnext : r.next = q) (hfree : r.magic = tdbFreeMagic)
    (hnext' : r'.next = (recAt m o).next) (hfree' : r'.magic = tdbFreeMagic)
    (hlen : recSize + r.recLen + r'.recLen = (recAt m o).recLen) :
    Rep (t.put (Tdb.cut m o q r r') t.mapSize) hd (Tdb.cut m o q r r') loose
      (Function.update l 0 (l₁ ++ o :: q :: l₂)) ∧
      ∀ p ∈ members (t.hashSize + 1) loose l, p ≠ o →
        blockAt (Tdb.cut m o q r r') p = blockAt m p := by
  have ho : o ∈ l 0 := by
    rw [hl]
    exact List.mem_append_right _ List.mem_cons_self
  have hmem := h.wf.mem (Nat.zero_le _) ho
  have hwords := recAt_words m o
  have hrecLen := hwords.recLen
  have hfront : o + recSize ≤ q := by omega
  have hback : q + recSize ≤ o + (blockAt m o).extent := by
    show _ ≤ o + (recSize + (recAt m o).recLen)
    omega
  have hagrees := agrees_cut r r' h.wf hmem hfront hback
  have hhead : recAt (Tdb.cut m o q r r') o = r := recAt_cut hr
  have hhead' : recAt (Tdb.cut m o q r r') q = r'.wrap := recAt_cut_rest hfront
  have hext : (blockAt (Tdb.cut m o q r r') o).extent = recSize + r.recLen := by
    show recSize + (recAt (Tdb.cut m o q r r') o).recLen = _
    rw [hhead]
  have hqo : o + (blockAt (Tdb.cut m o q r r') o).extent = q := by
    rw [hext, hq, Nat.add_assoc]
  have hqne : q ≠ o := by
    have := (blockAt (Tdb.cut m o q r r') o).extent_pos
    omega
  refine ⟨⟨rfl, fun x hx => (cut_of_sep hfront hback (.inl ?_)).trans (h.header x hx), ?_⟩,
    fun p hp hpo => ?_⟩
  · have hstart := (h.wf.bounds hmem).1
    rw [dataStart] at hstart
    omega
  · have hwf := h.wf.split (b := blockAt (Tdb.cut m o q r r') o) (blockAt (Tdb.cut m o q r r') q) hl
      ?_ ?_ ?_ ?_ ?_ ?_
    · rw [hqo] at hwf
      refine hwf.congr ?_
      show Layout.Agrees _ _ (members (t.hashSize + 1) _ _)
      have hins : members (t.hashSize + 1) loose (Function.update l 0 ((l₁ ++ [o]) ++ q :: l₂)) =
          q ::ₘ members (t.hashSize + 1) loose l :=
        members_insert (Nat.succ_pos _) (by rw [hl, List.append_assoc, List.singleton_append])
      rw [List.append_assoc, List.singleton_append] at hins
      rw [hins]
      exact hagrees
    · rw [hext]
      show _ < recSize + (recAt m o).recLen
      have hpos : 0 < recSize := by decide
      omega
    · rw [hext]
      show recSize + (recAt (Tdb.cut m o q r r') q).recLen = recSize + (recAt m o).recLen - _
      rw [hhead']
      show recSize + r'.recLen % 2 ^ 32 = _
      rw [Nat.mod_eq_of_lt (by omega)]
      omega
    · show (recAt (Tdb.cut m o q r r') o).next = _
      rw [hhead, hnext, hqo]
    · show (recAt (Tdb.cut m o q r r') q).next = (recAt m o).next
      rw [hhead']
      show r'.next % 2 ^ 32 = _
      rw [hnext', Nat.mod_eq_of_lt hwords.next]
    · show (recAt (Tdb.cut m o q r r') o).magic = _
      rw [hhead, hfree]
    · show (recAt (Tdb.cut m o q r r') q).magic = _
      rw [hhead']
      show r'.magic % 2 ^ 32 = _
      rw [hfree']
      rfl
  · have hblock := hagrees.block p (Multiset.mem_cons_of_mem hp)
    by_cases hpq : p = q
    · -- no record begins inside another
      have hsep := h.wf.packed.sep hmem hp (Ne.symm hpo)
      have hpos := (blockAt m p).extent_pos
      have hrec : 0 < recSize := by decide
      simp only [layoutOf] at hsep
      omega
    · exact hblock.trans ((Function.update_of_ne hpq _ _).trans (Function.update_of_ne hpo _ _))

omit h in
theorem sub32_eq {a b : ℕ} (hle : b ≤ a) (hlt : a < 2 ^ 32) : sub32 a b = a - b := by
  rw [sub32]
  omega

/-- A free record is cut if it is much longer than it has to be. -/
theorem splitRecord (host : Host) (hl : l 0 = l₁ ++ o :: l₂) (hlen : length ≤ (recAt m o).recLen) :
    ∃ m' l₂', Tdb.splitRecord host t length o (recAt m o) =
        (t.put m' t.mapSize, some (recAt m' o)) ∧
      Rep (t.put m' t.mapSize) hd m' loose (Function.update l 0 (l₁ ++ o :: l₂')) ∧
      length ≤ (recAt m' o).recLen ∧
      ∀ p ∈ members (t.hashSize + 1) loose l, p ≠ o → blockAt m' p = blockAt m p := by
  by_cases hcut : (recAt m o).recLen > length + minRecSize
  · have ho : o ∈ l 0 := by
      rw [hl]
      exact List.mem_append_right _ List.mem_cons_self
    have hend := h.rec_le (h.wf.mem (Nat.zero_le _) ho)
    have hsize := h.size_lt
    have hmagic : (recAt m o).magic = tdbFreeMagic := h.wf.free o ho
    have hwords := recAt_words m o
    have hrecLt := hwords.recLen
    have hroom : (recAt m o).recLen > length + 52 := hcut
    simp only [recSize] at hend
    -- what the record keeps
    obtain ⟨k, hk⟩ : ∃ k, k = (length + tdbAlign) % 2 ^ 32 / tdbAlign * tdbAlign := ⟨_, rfl⟩
    have hklt : length < k ∧ k ≤ length + 4 := by
      rw [tdbAlign] at hk
      omega
    have hq : (o + recSize + k) % 2 ^ 32 = o + recSize + k := Nat.mod_eq_of_lt (by
      show o + 24 + k < _
      omega)
    have hrest : sub32 (recAt m o).recLen (recSize + k) = (recAt m o).recLen - (24 + k) :=
      sub32_eq (by show 24 + k ≤ _; omega) hrecLt
    obtain ⟨w, hw⟩ : ∃ w : ListStruct, w =
        { recAt m o with recLen := k, next := o + recSize + k } := ⟨_, rfl⟩
    obtain ⟨w', hw'⟩ : ∃ w' : ListStruct, w' =
        { host.stack with
          recLen := (recAt m o).recLen - (24 + k), next := (recAt m o).next, magic := tdbFreeMagic } :=
      ⟨_, rfl⟩
    have hwWords : w.Words := by
      subst hw
      exact ⟨by show k < _; omega, by show o + 24 + k < _; omega, hwords.keyLen, hwords.dataLen,
        hwords.fullHash, hwords.magic⟩
    have hwLen : w.recLen = k := by rw [hw]
    have hwNext : w.next = o + recSize + k := by rw [hw]
    have hsum : recSize + w.recLen + w'.recLen = (recAt m o).recLen := by
      rw [hwLen, hw']
      show 24 + k + ((recAt m o).recLen - (24 + k)) = _
      omega
    obtain ⟨hrep, hother⟩ := h.cut hl hwWords (q := o + recSize + k) (by rw [hwLen]) hwNext
      (by rw [hw]; exact hmagic) (by rw [hw']) (by rw [hw']) hsum
    have hhead : recAt (Tdb.cut m o (o + recSize + k) w w') o = w := recAt_cut hwWords
    refine ⟨_, _, ?_, hrep, by rw [hhead, hwLen]; omega, hother⟩
    have hwrite : Tdb.recWrite t (o + recSize + k) w' =
        some (t.put (m.write (o + recSize + k) w'.bytes) t.mapSize) := by
      refine tdbWrite_eq h.image hsize ?_
      rw [length_bytes]
      show o + 24 + k + 24 ≤ _
      omega
    have hwrite' : Tdb.recWrite (t.put (m.write (o + recSize + k) w'.bytes) t.mapSize) o w =
        some (t.put (Tdb.cut m o (o + recSize + k) w w') t.mapSize) := by
      refine tdbWrite_eq rfl hsize ?_
      rw [length_bytes]
      show o + 24 ≤ t.mapSize
      omega
    rw [Tdb.splitRecord, if_pos hcut]
    simp only [← hk, hrest, hq, ← hw, ← hw']
    rw [hwrite]
    simp only [hwrite', hhead]
  · refine ⟨m, l₂, ?_, ?_, hlen, fun _ _ _ => rfl⟩
    · rw [Tdb.splitRecord, if_neg hcut, Context.put_self h.image]
    · rw [Context.put_self h.image, ← hl, Function.update_eq_self]
      exact h

/-! ## Growing -/

omit h in
theorem lock_grown : (tdbLock t i).grown length = t.grown length := by
  rw [Context.grown, tdbLock_mapSize, Context.grown]

omit h in
theorem unlock_refused : tdbUnlock ((tdbLock t 0).refused length) 0 = t.refused length := by
  rw [Context.refused, Context.refused, tdbLock_inMemory, lock_grown]
  split
  · exact unlock_set (Nat.zero_le _) _ _
  · exact unlock_lock (Nat.zero_le _)

omit h in
theorem grown_eq (hsmall : t.Small length) :
    t.mapSize + length * 10 < t.grown length ∧ t.grown length < 2 ^ 32 ∧
      (t.mapSize + length % 2 ^ 32 * tdbLenMultiplier % 2 ^ 32 + tdbPageSize) % 2 ^ 32 / tdbPageSize *
        tdbPageSize = t.grown length := by
  simp only [Context.Small, Context.grown, tdbLenMultiplier, tdbPageSize] at *
  rw [Nat.mod_eq_of_lt (a := length) (by omega), Nat.mod_eq_of_lt (a := length * 10) (by omega),
    Nat.mod_eq_of_lt (by omega)]
  omega

/-- What is in the file before it is linked is as it was. -/
theorem growTo_eq (host : Host) (hlt : t.mapSize < size) (hsize : size < 2 ^ 32) :
    if size ≤ host.room then ∃ m₁, growTo host t size = some m₁ ∧ ∀ x < t.mapSize, m₁ x = m x
    else growTo host t size = none := by
  have hlast : sub32 size 1 = size - 1 := sub32_eq (by omega) hsize
  rw [growTo, hlast]
  by_cases hroom : size ≤ host.room
  · rw [if_pos hroom, if_pos (by omega), h.image]
    cases t.inMemory with
    | true => exact ⟨_, rfl, fun x hx => (if_pos rfl).trans (if_neg (Nat.not_le.mpr hx))⟩
    | false => exact ⟨_, rfl, fun x hx => (if_neg Bool.false_ne_true).trans (if_neg (by omega))⟩
  · rw [if_neg hroom, if_neg (by omega)]

/-- A record is written behind the others. -/
theorem grow {m₁ : Image} {r : ListStruct} (hsame : ∀ x < t.mapSize, m₁ x = m x)
    (hsize : t.mapSize + (recSize + r.recLen) = size) (hlt : size < 2 ^ 32) :
    Rep (t.put (m₁.write t.mapSize r.bytes) size) hd (m₁.write t.mapSize r.bytes)
        (t.mapSize :: loose) l ∧
      recAt (m₁.write t.mapSize r.bytes) t.mapSize = r.wrap ∧
      (m₁.write t.mapSize r.bytes).word (topAt 0) = m.word (topAt 0) ∧
      ∀ p ∈ members (t.hashSize + 1) loose l,
        blockAt (m₁.write t.mapSize r.bytes) p = blockAt m p := by
  have hstart := h.start_le
  rw [dataStart] at hstart
  have hrec : recAt (m₁.write t.mapSize r.bytes) t.mapSize = r.wrap := by
    have hself := recAt_write m₁ t.mapSize r []
    rwa [List.append_nil] at hself
  have hbelow : ∀ x < t.mapSize, m₁.write t.mapSize r.bytes x = m x := fun x hx =>
    (Image.write_of_sep (.inl hx)).trans (hsame x hx)
  have htop : ∀ i ≤ t.hashSize, (m₁.write t.mapSize r.bytes).word (topAt i) = m.word (topAt i) :=
    fun i hi => Image.word_congr fun x _ hx => hbelow x (Nat.lt_of_lt_of_le hx (h.top_le hi))
  have hblock : ∀ p ∈ members (t.hashSize + 1) loose l,
      blockAt (m₁.write t.mapSize r.bytes) p = blockAt m p := fun p hp =>
    blockAt_congr fun x _ hx => hbelow x (Nat.lt_of_lt_of_le hx (h.wf.bounds hp).2)
  have hext : (blockAt (m₁.write t.mapSize r.bytes) t.mapSize).extent = recSize + r.recLen := by
    show recSize + (recAt (m₁.write t.mapSize r.bytes) t.mapSize).recLen = _
    rw [hrec]
    show recSize + r.recLen % 2 ^ 32 = _
    rw [Nat.mod_eq_of_lt (by omega)]
  refine ⟨⟨rfl, fun x hx => (hbelow x (by omega)).trans (h.header x hx), ?_⟩, hrec,
    htop 0 (Nat.zero_le _), hblock⟩
  have hwf := h.wf.grow (b := blockAt (m₁.write t.mapSize r.bytes) t.mapSize) (by
    show t.mapSize + (blockAt (m₁.write t.mapSize r.bytes) t.mapSize).extent < _
    rw [hext, hsize]
    exact hlt)
  refine hwf.congr ⟨htop, fun p hp => ?_, ?_, rfl⟩
  · show _ = Function.update (blockAt m) t.mapSize _ p
    by_cases hpe : p = t.mapSize
    · rw [hpe, Function.update_self]
      rfl
    · rw [Function.update_of_ne hpe]
      have hp' : p ∈ members (t.hashSize + 1) (t.mapSize :: loose) l := hp
      rw [members_cons] at hp'
      exact hblock p ((Multiset.mem_cons.mp hp').resolve_left hpe)
  · show size = t.mapSize + (blockAt (m₁.write t.mapSize r.bytes) t.mapSize).extent
    rw [hext, hsize]

/-- The database grows by a free record. -/
theorem expandBody (host : Host) (hlen : recSize ≤ length) (hsmall : t.Small length) :
    if t.grown length ≤ host.room then
      ∃ m', Tdb.expandBody host t length = (t.put m' (t.grown length), true) ∧
        Rep (t.put m' (t.grown length)) hd m' loose (Function.update l 0 (t.mapSize :: l 0)) ∧
        length ≤ (recAt m' t.mapSize).recLen + recSize ∧
        ∀ p ∈ members (t.hashSize + 1) loose l, blockAt m' p = blockAt m p
    else Tdb.expandBody host t length = (t.refused length, false) := by
  obtain ⟨hlt, hsize, hgrown⟩ := grown_eq hsmall
  have hpos : t.mapSize < t.grown length := by omega
  have hsub : sub32 (t.grown length) t.mapSize = t.grown length - t.mapSize :=
    sub32_eq (Nat.le_of_lt hpos) hsize
  have hback : sub32 (t.grown length) (t.grown length - t.mapSize) = t.mapSize := by
    rw [sub32_eq (Nat.sub_le _ _) hsize]
    omega
  have htop : ofsRead t freelistTop = some (m.word (topAt 0)) := h.ofsRead_top (Nat.zero_le _)
  have hgrow := h.growTo_eq host hpos hsize
  by_cases hroom : t.grown length ≤ host.room
  · rw [if_pos hroom] at hgrow ⊢
    obtain ⟨m₁, hm₁, hsame⟩ := hgrow
    simp only [recSize] at hlen
    obtain ⟨r, hr⟩ : ∃ r : ListStruct, r = { host.stack with
      recLen := t.grown length - t.mapSize - 24, next := m.word (topAt 0), magic := tdbFreeMagic } :=
      ⟨_, rfl⟩
    have hrecLen : r.recLen = t.grown length - t.mapSize - 24 := by rw [hr]
    have hrest : sub32 (t.grown length - t.mapSize) recSize = t.grown length - t.mapSize - 24 :=
      sub32_eq (by show 24 ≤ _; omega) (by omega)
    obtain ⟨hrep, hrec, htop', hblock⟩ := h.grow hsame (r := r)
      (by rw [hrecLen]; show t.mapSize + (24 + _) = _; omega) hsize
    have hnext : (recAt (m₁.write t.mapSize r.bytes) t.mapSize).next =
        (m₁.write t.mapSize r.bytes).word (topAt 0) := by
      rw [hrec, htop', hr]
      exact Nat.mod_eq_of_lt (m.word_lt _)
    have hmagic : (recAt (m₁.write t.mapSize r.bytes) t.mapSize).magic = tdbFreeMagic := by
      rw [hrec, hr]
      rfl
    obtain ⟨m₂, hwrite, hrep, hblock₂⟩ := hrep.push (i := 0) (Nat.zero_le _) hnext (fun _ => hmagic)
      fun _ hj => absurd hj (Nat.succ_ne_zero _).symm
    have hlast : t.mapSize ∈ members (t.hashSize + 1) (t.mapSize :: loose) l :=
      mem_members.mpr (.inl List.mem_cons_self)
    have hhead : recAt m₂ t.mapSize = r.wrap :=
      (congrArg Block.head (hblock₂ _ hlast)).trans hrec
    refine ⟨m₂, ?_, hrep, ?_, fun p hp => (hblock₂ p ?_).trans (hblock p hp)⟩
    · have hfirst : Tdb.recWrite (t.put m₁ (t.grown length)) t.mapSize r =
          some (t.put (m₁.write t.mapSize r.bytes) (t.grown length)) := by
        refine tdbWrite_eq rfl hsize ?_
        rw [length_bytes]
        show t.mapSize + 24 ≤ t.grown length
        omega
      have hread : ofsRead (if t.inMemory then t else { t with image := some m₁ }) freelistTop =
          some (m.word (topAt 0)) := by
        have hword : m₁.word (topAt 0) = m.word (topAt 0) :=
          Image.word_congr fun x _ hx => hsame x (Nat.lt_of_lt_of_le hx (h.top_le (Nat.zero_le _)))
        split
        · exact htop
        · rw [← hword]
          exact ofsRead_eq rfl h.size_lt (h.top_le (Nat.zero_le _))
      have hput : ∀ next, { (if t.inMemory then t else { t with image := some m₁ } : Context) with
          image := some m₁, mapSize := next } = t.put m₁ next := fun next => by
        split <;> rfl
      rw [Tdb.expandBody, hgrown]
      simp only [hsub, hm₁, hback, hrest, Option.isNone_some, Bool.false_eq_true, and_false, if_false]
      rw [hread]
      simp only [hput, ← hr, hfirst]
      have hlink : ofsWrite (t.put (m₁.write t.mapSize r.bytes) (t.grown length)) freelistTop t.mapSize =
          some (t.put m₂ (t.grown length)) := hwrite
      rw [hlink]
    · rw [hhead]
      show length ≤ r.recLen % 2 ^ 32 + 24
      rw [hrecLen, Nat.mod_eq_of_lt (by omega)]
      omega
    · rw [members_cons]
      exact Multiset.mem_cons_of_mem hp
  · rw [if_neg hroom] at hgrow ⊢
    rw [Tdb.expandBody, hgrown]
    simp only [hsub, hgrow, hback]
    cases hmem : t.inMemory with
    | false => simp [Context.refused, hmem]
    | true =>
      simp only [reduceCtorEq, false_and, if_false, if_true, htop]
      simp [Tdb.recWrite, tdbWrite, tdbOob, Context.refused, hmem]

/-- `tdb_expand` gives back its lock. -/
theorem expand (host : Host) (hlen : recSize ≤ length) (hsmall : t.Small length) :
    if t.grown length ≤ host.room then
      ∃ m', tdbExpand host t length = (t.put m' (t.grown length), true) ∧
        Rep (t.put m' (t.grown length)) hd m' loose (Function.update l 0 (t.mapSize :: l 0)) ∧
        length ≤ (recAt m' t.mapSize).recLen + recSize ∧
        ∀ p ∈ members (t.hashSize + 1) loose l, blockAt m' p = blockAt m p
    else tdbExpand host t length = (t.refused length, false) := by
  have hbody := (h.lock 0).expandBody host hlen (by rwa [Context.Small, tdbLock_mapSize])
  rw [lock_grown, tdbLock_mapSize, tdbLock_hashSize] at hbody
  by_cases hroom : t.grown length ≤ host.room
  · rw [if_pos hroom] at hbody ⊢
    obtain ⟨m', heq, hrep, hle, hblock⟩ := hbody
    refine ⟨m', ?_, ⟨rfl, hrep.header, ?_⟩, hle, hblock⟩
    · rw [tdbExpand, heq, unlock_put (Nat.zero_le _)]
    · have hwf := hrep.wf
      rwa [Context.put_hashSize, tdbLock_hashSize] at hwf
  · rw [if_neg hroom] at hbody ⊢
    rw [tdbExpand, hbody]
    exact Prod.ext unlock_refused rfl

end Rep

/-! ## Allocating -/

/-- What there is after `o` has been allocated -/
structure Allocated (t : Context) (hd m : Image) (loose : List ℕ) (l : ℕ → List ℕ) (length : ℕ)
    (m' : Image) (size : ℕ) (l' : ℕ → List ℕ) (o : ℕ) : Prop where
  rep : Rep (t.put m' size) hd m' (o :: loose) l'
  magic : (recAt m' o).magic = tdbFreeMagic
  fits : length ≤ (recAt m' o).recLen
  lists : ∀ i < t.hashSize, l' (i + 1) = l (i + 1)
  block : ∀ i < t.hashSize, ∀ p ∈ l (i + 1), blockAt m' p = blockAt m p

theorem allocateLoop_zero (fuel : ℕ) (last : Option (ℕ × ListStruct)) :
    allocateLoop host t length fuel last 0 = some (t, none) := by
  cases fuel <;> rfl

namespace Rep

variable (h : Rep t hd m loose l)
include h

/-- A free record is taken. -/
theorem take (host : Host) (hl : l 0 = l₁ ++ o :: l₂) (hlen : length ≤ (recAt m o).recLen) :
    ∃ m₁ m₂ l', Tdb.splitRecord host t length o (recAt m o) = (t.put m₁ t.mapSize, some (recAt m₁ o)) ∧
      Tdb.unlinkRecord (t.put m₁ t.mapSize) freelistTop (l₁.getLast?.map fun a => (a, recAt m a))
        (recAt m₁ o) = some (t.put m₂ t.mapSize) ∧
      Allocated t hd m loose l length m₂ t.mapSize l' o := by
  obtain ⟨m₁, l₂', hsplit, hrep, hfits, hother⟩ := h.splitRecord host hl hlen
  have ho : o ∈ l 0 := by
    rw [hl]
    exact List.mem_append_right _ List.mem_cons_self
  have hl' : Function.update l 0 (l₁ ++ o :: l₂') 0 = l₁ ++ o :: l₂' := Function.update_self _ _ _
  obtain ⟨m₂, hunlink, hrep₂, hsame, hblock⟩ :=
    hrep.unlinkRecord (i := 0) (r := recAt m₁ o) (Nat.zero_le _) hl' rfl
  have hn := h.wf.nodup (Nat.zero_le t.hashSize)
  rw [hl] at hn
  -- the record before it has not been cut
  have hlast : (l₁.getLast?.map fun a => (a, recAt m a)) = l₁.getLast?.map fun a => (a, recAt m₁ a) := by
    refine Option.map_congr fun a ha => ?_
    have ha := List.mem_of_getLast? ha
    have hmem : a ∈ l 0 := by
      rw [hl]
      exact List.mem_append_left _ ha
    have hao : a ≠ o := by
      rintro rfl
      exact (List.nodup_append.mp hn).2.2 a ha a List.mem_cons_self rfl
    rw [show recAt m₁ a = recAt m a from congrArg Block.head (hother a (h.wf.mem (Nat.zero_le _) hmem) hao)]
  refine ⟨m₁, m₂, _, hsplit, ?_, hrep₂, ?_, ?_, fun i _ => ?_, fun i hi p hp => ?_⟩
  · rw [hlast]
    exact hunlink
  · rw [show recAt m₂ o = recAt m₁ o from congrArg Block.head hsame]
    refine hrep.wf.free o ?_
    rw [hl']
    exact List.mem_append_right _ List.mem_cons_self
  · rw [show recAt m₂ o = recAt m₁ o from congrArg Block.head hsame]
    exact hfits
  · rw [Function.update_of_ne (Nat.succ_ne_zero i), Function.update_of_ne (Nat.succ_ne_zero i)]
  · have hp' : p ∈ Function.update l 0 (l₁ ++ o :: l₂') (i + 1) := by
      rwa [Function.update_of_ne (Nat.succ_ne_zero i)]
    have hpo : p ≠ o := by
      rintro rfl
      exact notMem_other h.wf.packed.nodup (Nat.succ_lt_succ hi) (Nat.succ_pos _)
        (Nat.succ_ne_zero i) hp ho
    have hnot : p ∉ Function.update l 0 (l₁ ++ o :: l₂') 0 :=
      notMem_other hrep.wf.packed.nodup (Nat.succ_lt_succ hi) (Nat.succ_pos _) (Nat.succ_ne_zero i) hp'
    rw [hl'] at hnot
    exact ((hblock p (hrep.wf.mem hi hp')).2 fun hpl => hnot (List.mem_append_left _ hpl)).trans
      (hother p (h.wf.mem hi hp) hpo)

/-- The loop over the free records takes the first one that is long enough. -/
theorem allocateLoop (host : Host) (length : ℕ) {fuel recPtr : ℕ} (hl : l 0 = l₁ ++ l₂)
    (hlink : Linked (fun p => (recAt m p).next) recPtr l₂) (hfuel : l₂.length ≤ fuel) :
    if ∃ o ∈ l₂, length ≤ (recAt m o).recLen then
      ∃ m' l' o, Tdb.allocateLoop host t length fuel (l₁.getLast?.map fun a => (a, recAt m a)) recPtr =
          some (t.put m' t.mapSize, some o) ∧ Allocated t hd m loose l length m' t.mapSize l' o
    else Tdb.allocateLoop host t length fuel (l₁.getLast?.map fun a => (a, recAt m a)) recPtr =
      some (t, none) := by
  induction l₂ generalizing l₁ recPtr fuel with
  | nil =>
    obtain rfl : recPtr = 0 := hlink
    simp [allocateLoop_zero]
  | cons o l₂ ih =>
    obtain ⟨rfl, ho0, hlink⟩ := hlink
    obtain ⟨fuel, rfl⟩ := Nat.exists_eq_succ_of_ne_zero (Nat.ne_of_gt (Nat.lt_of_lt_of_le
      (Nat.succ_pos l₂.length) hfuel))
    obtain ⟨k, rfl⟩ := Nat.exists_eq_succ_of_ne_zero ho0
    have ho : k + 1 ∈ l 0 := by
      rw [hl]
      exact List.mem_append_right _ List.mem_cons_self
    have hread := h.structRead (h.wf.mem (Nat.zero_le _) ho)
    have hmagic : (recAt m (k + 1)).magic = tdbFreeMagic := h.wf.free _ ho
    by_cases hlen : length ≤ (recAt m (k + 1)).recLen
    · rw [if_pos ⟨_, List.mem_cons_self, hlen⟩]
      obtain ⟨m₁, m₂, l', hsplit, hunlink, hall⟩ := h.take host hl hlen
      refine ⟨m₂, l', k + 1, ?_, hall⟩
      rw [Tdb.allocateLoop, hread]
      simp only [hmagic, ne_eq, not_true_eq_false, if_false, ge_iff_le, hlen, if_true, hsplit, hunlink]
    · have hstep : Tdb.allocateLoop host t length (fuel + 1) (l₁.getLast?.map fun a => (a, recAt m a))
          (k + 1) = Tdb.allocateLoop host t length fuel
            ((l₁ ++ [k + 1]).getLast?.map fun a => (a, recAt m a)) (recAt m (k + 1)).next := by
        rw [Tdb.allocateLoop, hread, List.getLast?_append_of_ne_nil _ (List.cons_ne_nil _ _)]
        simp only [hmagic, ne_eq, not_true_eq_false, if_false, ge_iff_le, hlen]
        rfl
      rw [hstep]
      have hrest := ih
        (show l 0 = (l₁ ++ [k + 1]) ++ l₂ by rw [hl, List.append_assoc, List.singleton_append]) hlink
        (Nat.le_of_succ_le_succ hfuel)
      have hiff : (∃ o ∈ (k + 1) :: l₂, length ≤ (recAt m o).recLen) ↔
          ∃ o ∈ l₂, length ≤ (recAt m o).recLen := by
        simp [hlen]
      rw [if_congr hiff rfl rfl]
      exact hrest

/-- The free list is gone through, from its top on. -/
theorem allocateBody_step (host : Host) (length tries : ℕ) :
    if ∃ o ∈ l 0, length ≤ (recAt m o).recLen then
      ∃ m' l' o, allocateBody host length (tries + 1) t = some (t.put m' t.mapSize, o) ∧
        Allocated t hd m loose l length m' t.mapSize l' o
    else allocateBody host length (tries + 1) t =
      match tdbExpand host t (length + recSize) with
      | (t, true) => allocateBody host length tries t
      | (t, false) => some (t, 0) := by
  have htop : ofsRead t freelistTop = some (m.word (topAt 0)) := h.ofsRead_top (Nat.zero_le _)
  have hloop := h.allocateLoop host length (show l 0 = [] ++ l 0 from rfl) (h.linked (Nat.zero_le _))
    (h.wf.length_le (Nat.zero_le _))
  rw [List.getLast?_nil, Option.map_none, show (layoutOf m t.mapSize t.hashSize).size = t.mapSize from rfl]
    at hloop
  rw [allocateBody, htop]
  split
  · rename_i hfree
    rw [if_pos hfree] at hloop
    obtain ⟨m', l', o, heq, hall⟩ := hloop
    refine ⟨m', l', o, ?_, hall⟩
    simp only [heq]
  · rename_i hfree
    rw [if_neg hfree] at hloop
    rcases hexp : tdbExpand host t (length + recSize) with ⟨t₁, _ | _⟩ <;> simp only [hloop, hexp]

/-- The first record that is long enough, or one from a new page, or none if there is no room for it. -/
theorem allocateBody (host : Host) (hsmall : t.Small (length + recSize)) (tries : ℕ) :
    if (∃ o ∈ l 0, length ≤ (recAt m o).recLen) ∨ t.grown (length + recSize) ≤ host.room then
      ∃ m' size l' o, Tdb.allocateBody host length (tries + 2) t = some (t.put m' size, o) ∧
        Allocated t hd m loose l length m' size l' o
    else Tdb.allocateBody host length (tries + 2) t = some (t.refused (length + recSize), 0) := by
  have hstep := h.allocateBody_step host length (tries + 1)
  by_cases hfree : ∃ o ∈ l 0, length ≤ (recAt m o).recLen
  · rw [if_pos (.inl hfree)]
    rw [if_pos hfree] at hstep
    obtain ⟨m', l', o, heq, hall⟩ := hstep
    exact ⟨m', _, l', o, heq, hall⟩
  · rw [if_neg hfree] at hstep
    have hexpand := h.expand host (Nat.le_add_left _ _) hsmall
    by_cases hroom : t.grown (length + recSize) ≤ host.room
    · rw [if_pos (.inr hroom)]
      rw [if_pos hroom] at hexpand
      obtain ⟨m₁, heq, hrep, hle, hblock⟩ := hexpand
      rw [heq] at hstep
      have hmem : t.mapSize ∈ Function.update l 0 (t.mapSize :: l 0) 0 := by
        rw [Function.update_self]
        exact List.mem_cons_self
      -- the new record is long enough
      have hnew := hrep.allocateBody_step host length tries
      rw [if_pos ⟨_, hmem, by omega⟩] at hnew
      obtain ⟨m₂, l', o, heq₂, hall⟩ := hnew
      refine ⟨m₂, _, l', o, hstep.trans heq₂, hall.rep, hall.magic, hall.fits, fun i hi => ?_,
        fun i hi p hp => ?_⟩
      · rw [hall.lists i hi, Function.update_of_ne (Nat.succ_ne_zero i)]
      · rw [hall.block i hi p (by rwa [Function.update_of_ne (Nat.succ_ne_zero i)]),
          hblock p (h.wf.mem hi hp)]
    · rw [if_neg (not_or.mpr ⟨hfree, hroom⟩)]
      rw [if_neg hroom] at hexpand
      rw [hstep, hexpand]

/-- `tdb_allocate` gives back its lock. -/
theorem allocate (host : Host) (hsmall : t.Small (length + recSize)) :
    if (∃ o ∈ l 0, length ≤ (recAt m o).recLen) ∨ t.grown (length + recSize) ≤ host.room then
      ∃ m' size l' o, tdbAllocate host t length = some (t.put m' size, o) ∧
        Allocated t hd m loose l length m' size l' o
    else tdbAllocate host t length = some (t.refused (length + recSize), 0) := by
  have hmod : length % 2 ^ 32 = length := Nat.mod_eq_of_lt (by
    simp only [Context.Small, tdbLenMultiplier] at hsmall
    omega)
  have hsmall' : (tdbLock t 0).Small (length + recSize) := by rwa [Context.Small, tdbLock_mapSize]
  have hbody := (h.lock 0).allocateBody host hsmall' (2 ^ 19 - 2)
  rw [lock_grown, show 2 ^ 19 - 2 + 2 = 2 ^ 19 by norm_num] at hbody
  rw [tdbAllocate, hmod]
  by_cases hroom : (∃ o ∈ l 0, length ≤ (recAt m o).recLen) ∨ t.grown (length + recSize) ≤ host.room
  · rw [if_pos hroom] at hbody ⊢
    obtain ⟨m', size, l', o, heq, hall⟩ := hbody
    refine ⟨m', size, l', o, withLock_put (Nat.zero_le _) heq, ⟨rfl, hall.rep.header, ?_⟩, hall.magic,
      hall.fits, ?_, ?_⟩
    · have hwf := hall.rep.wf
      rwa [Context.put_hashSize, tdbLock_hashSize] at hwf
    · have hlists := hall.lists
      rwa [tdbLock_hashSize] at hlists
    · have hblock := hall.block
      rwa [tdbLock_hashSize] at hblock
  · rw [if_neg hroom] at hbody ⊢
    rw [withLock, hbody, Option.map_some]
    exact congrArg some (Prod.ext unlock_refused rfl)

end Rep

end LinuxSna.Tdb
