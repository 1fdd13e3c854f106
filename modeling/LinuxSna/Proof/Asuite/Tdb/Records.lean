import LinuxSna.Proof.Asuite.Tdb.Allocate

/-!
# Records with a key

What `tdb_find`, `tdb_fetch`, `tdb_exists`, `tdb_update`, `tdb_delete` and `tdb_store` do to a database
whose lists are in order, and to the map that it is for.

* `Rep.find`: the record with a key is found;
* `Rep.fetch`, `Rep.contains`: the map is asked;
* `Rep.update`: the data are replaced in place if the record is long enough for them;
* `Rep.delete`: the key goes, and its record is free;
* `Rep.store`: the key is mapped to the data, or `TDB_INSERT` finds it, or there is no room for it.
-/

namespace LinuxSna.Tdb

open Framework

variable {t : Context} {hd m : Image} {loose l₁ l₂ : List ℕ} {l : ℕ → List ℕ} {i o size : ℕ}
  {host : Host} {key dbuf : List UInt8} {flag : ℕ}

theorem tdbHashTop_eq (t : Context) (hash : ℕ) : tdbHashTop t hash = topAt (bucket t hash + 1) := by
  rw [tdbHashTop, topAt, Nat.mul_comm]

theorem bucket_lock (hash : ℕ) : bucket (tdbLock t i) hash = bucket t hash := by
  rw [bucket, tdbLock_hashSize, bucket]

theorem findLoop_zero (fuel : ℕ) {hash : ℕ} : findLoop t key hash fuel 0 = some none := by
  cases fuel <;> rfl

theorem deleteLoop_zero (fuel : ℕ) {hash : ℕ} (last : Option (ℕ × ListStruct)) :
    deleteLoop t key hash fuel last 0 = some (t, none) := by
  cases fuel <;> rfl

/-- What a database maps keys to -/
abbrev mapOf (t : Context) (m : Image) (l : ℕ → List ℕ) : List UInt8 → Option (List UInt8) :=
  (layoutOf m t.mapSize t.hashSize).content l

theorem mapOf_eq_none_iff : mapOf t m l key = none ↔
    ∀ o ∈ l (bucket t (tdbHash key) + 1), (blockAt m o).key ≠ key := Layout.content_eq_none_iff

theorem lock_mapOf : mapOf (tdbLock t i) m l = mapOf t m l := by
  rw [mapOf, mapOf, tdbLock_mapSize, tdbLock_hashSize]

namespace Rep

/-- A lock does not matter. -/
theorem of_lock (h : Rep ((tdbLock t i).put m size) hd m loose l) : Rep (t.put m size) hd m loose l := by
  refine ⟨rfl, h.header, ?_⟩
  have hwf := h.wf
  rwa [Context.put_hashSize, tdbLock_hashSize] at hwf

variable (h : Rep t hd m loose l)
include h

theorem hash_pos : 0 < t.hashSize := h.wf.hash_pos

theorem bucket_lt (hash : ℕ) : bucket t hash < t.hashSize := Nat.mod_lt _ h.hash_pos

theorem entry (hi : i < t.hashSize) (ho : o ∈ l (i + 1)) : Block.Entry t.hashSize i (blockAt m o) :=
  h.wf.entry i hi o ho

theorem mem (hi : i < t.hashSize) (ho : o ∈ l (i + 1)) : o ∈ members (t.hashSize + 1) loose l :=
  h.wf.mem (Nat.succ_le_of_lt hi) ho

theorem recRead (hi : i < t.hashSize) (ho : o ∈ l (i + 1)) : recRead t o = some (recAt m o) :=
  recRead_eq h.image h.size_lt (Nat.le_trans (Nat.le_add_right _ _) (h.rec_le (h.mem hi ho)))
    (h.entry hi ho).magic (h.wf.next_le (Nat.succ_le_of_lt hi) ho)

theorem readKey (hi : i < t.hashSize) (ho : o ∈ l (i + 1)) :
    tdbRead t (o + recSize) (recAt m o).keyLen = some (blockAt m o).key := by
  have hfits : (recAt m o).keyLen + (recAt m o).dataLen ≤ (recAt m o).recLen := (h.entry hi ho).fits
  have hle := h.rec_le (h.mem hi ho)
  rw [tdbRead_eq h.image h.size_lt (by omega), read_key (by omega)]
  rfl

theorem readData (hi : i < t.hashSize) (ho : o ∈ l (i + 1)) :
    tdbRead t (o + recSize + (recAt m o).keyLen) (recAt m o).dataLen = some (blockAt m o).data := by
  have hfits : (recAt m o).keyLen + (recAt m o).dataLen ≤ (recAt m o).recLen := (h.entry hi ho).fits
  have hle := h.rec_le (h.mem hi ho)
  rw [tdbRead_eq h.image h.size_lt (by omega), read_data hfits]
  rfl

/-- What the loops compare first is necessary. -/
theorem key_ne (hi : i < t.hashSize) (ho : o ∈ l (i + 1))
    (hne : ¬(tdbHash key = (recAt m o).fullHash ∧ key.length = (recAt m o).keyLen)) :
    (blockAt m o).key ≠ key := by
  rintro rfl
  exact hne ⟨(h.entry hi ho).hash.symm, (h.entry hi ho).length_key⟩

/-- The loop finds the first record with the key. -/
theorem findLoop (hi : i < t.hashSize) {fuel recPtr : ℕ} (hl : ∀ o ∈ l₂, o ∈ l (i + 1))
    (hlink : Linked (fun p => (recAt m p).next) recPtr l₂) (hfuel : l₂.length ≤ fuel) :
    Tdb.findLoop t key (tdbHash key) fuel recPtr =
      some ((l₂.find? fun o => (blockAt m o).key = key).map fun o => (o, recAt m o)) := by
  induction l₂ generalizing recPtr fuel with
  | nil =>
    obtain rfl : recPtr = 0 := hlink
    exact findLoop_zero fuel
  | cons o l₂ ih =>
    obtain ⟨rfl, ho0, hlink⟩ := hlink
    rw [List.forall_mem_cons] at hl
    obtain ⟨fuel, rfl⟩ := Nat.exists_eq_succ_of_ne_zero (Nat.ne_of_gt (Nat.lt_of_lt_of_le
      (Nat.succ_pos l₂.length) hfuel))
    obtain ⟨k, rfl⟩ := Nat.exists_eq_succ_of_ne_zero ho0
    have hrest := ih hl.2 hlink (Nat.le_of_succ_le_succ hfuel)
    rw [Tdb.findLoop, h.recRead hi hl.1]
    by_cases hlike : tdbHash key = (recAt m (k + 1)).fullHash ∧ key.length = (recAt m (k + 1)).keyLen
    · simp only [if_pos hlike, h.readKey hi hl.1]
      by_cases hkey : key = (blockAt m (k + 1)).key
      · rw [if_pos hkey, List.find?_cons, decide_eq_true hkey.symm]
        rfl
      · rw [if_neg hkey, List.find?_cons, decide_eq_false (Ne.symm hkey)]
        exact hrest
    · simp only [if_neg hlike]
      rw [List.find?_cons, decide_eq_false (h.key_ne hi hl.1 hlike)]
      exact hrest

/-- `tdb_find` -/
theorem find (key : List UInt8) : tdbFind t key (tdbHash key) =
    some (((l (bucket t (tdbHash key) + 1)).find? fun o => (blockAt m o).key = key).map
      fun o => (o, recAt m o)) := by
  have hi := h.bucket_lt (tdbHash key)
  rw [tdbFind, tdbHashTop_eq, h.ofsRead_top (Nat.succ_le_of_lt hi)]
  exact h.findLoop hi (fun _ ho => ho) (h.linked (Nat.succ_le_of_lt hi))
    (h.wf.length_le (Nat.succ_le_of_lt hi))

omit h in
/-- The record that is found has the key. -/
theorem found {key : List UInt8} (hfind : (l (bucket t (tdbHash key) + 1)).find?
    (fun o => (blockAt m o).key = key) = some o) :
    o ∈ l (bucket t (tdbHash key) + 1) ∧ (blockAt m o).key = key :=
  ⟨List.mem_of_find?_eq_some hfind, by simpa using List.find?_some hfind⟩

/-- `tdb_fetch` asks the map. -/
theorem fetch (key : List UInt8) : tdbFetch t key = some (t, mapOf t m l key) := by
  have hi := h.bucket_lt (tdbHash key)
  have hlock := h.lock (bucket t (tdbHash key) + 1)
  refine withLock_same (Nat.succ_le_of_lt hi) ?_
  rw [hlock.find key, bucket_lock]
  show _ = some (_, ((l (bucket t (tdbHash key) + 1)).find? fun o => (blockAt m o).key = key).map fun o =>
    (blockAt m o).data)
  cases hfind : (l (bucket t (tdbHash key) + 1)).find? fun o => (blockAt m o).key = key with
  | none => rfl
  | some o =>
    obtain ⟨ho, -⟩ := found hfind
    show some (_, tdbRead _ (o + recSize + (recAt m o).keyLen) (recAt m o).dataLen) = some (_, some _)
    rw [hlock.readData (by rwa [tdbLock_hashSize]) ho]

/-- `tdb_exists` asks the map. -/
theorem contains (key : List UInt8) : tdbExists t key = some (t, (mapOf t m l key).isSome) := by
  have hi := h.bucket_lt (tdbHash key)
  have hlock := h.lock (bucket t (tdbHash key) + 1)
  refine withLock_same (Nat.succ_le_of_lt hi) ?_
  rw [hlock.find key, bucket_lock, Option.map_some, Option.isSome_map]
  show _ = some (_, (((l (bucket t (tdbHash key) + 1)).find? fun o => (blockAt m o).key = key).map fun o =>
    (blockAt m o).data).isSome)
  rw [Option.isSome_map]

/-! ## Replacing data -/

/-- Something is written inside a record without touching its key. -/
theorem writeEntry (hi : i < t.hashSize) (ho : o ∈ l (i + 1)) {x : ℕ} {bs : List UInt8} (hle : o ≤ x)
    (hend : x + bs.length ≤ o + (blockAt m o).extent) {w : ListStruct} {payload : List UInt8}
    (hblock : blockAt (m.write x bs) o = ⟨w, payload⟩) (hrecLen : w.recLen = (recAt m o).recLen)
    (hnext : w.next = (recAt m o).next) (he : Block.Entry t.hashSize i ⟨w, payload⟩)
    (hkey : Block.key ⟨w, payload⟩ = (blockAt m o).key) :
    tdbWrite t x bs = some (t.put (m.write x bs) t.mapSize) ∧
      Rep (t.put (m.write x bs) t.mapSize) hd (m.write x bs) loose l ∧
      mapOf t (m.write x bs) l =
        Function.update (mapOf t m l) (blockAt m o).key (some (Block.data ⟨w, payload⟩)) := by
  have hmem := h.mem hi ho
  have hagrees := agrees_block h.wf hmem hle hend
  rw [hblock] at hagrees
  refine ⟨tdbWrite_eq h.image h.size_lt (Nat.le_trans hend (h.wf.bounds hmem).2),
    ⟨rfl, fun y hy => (header_block h.wf hmem hle y hy).trans (h.header y hy), ?_⟩, ?_⟩
  · exact (h.wf.setEntry hi ho (congrArg (recSize + ·) hrecLen) hnext he hkey).congr hagrees
  · have hset := Layout.content_setEntry h.wf hi ho (b := ⟨w, payload⟩) hkey
    refine Eq.trans ?_ hset
    refine Layout.content_congr rfl h.hash_pos (fun _ _ => rfl) fun j hj p hp => ?_
    have hp := hagrees.block p (h.mem hj hp)
    exact ⟨congrArg Block.key hp, congrArg Block.data hp⟩

/-- `tdb_find` under the lock of the list -/
theorem find_lock (key : List UInt8) :
    tdbFind (tdbLock t (bucket t (tdbHash key) + 1)) key (tdbHash key) =
      some (((l (bucket t (tdbHash key) + 1)).find? fun o => (blockAt m o).key = key).map
        fun o => (o, recAt m o)) := by
  rw [(h.lock _).find key, bucket_lock]

/-- The record with a key is the one that is found. -/
theorem find?_eq (hi : i < t.hashSize) (ho : o ∈ l (i + 1)) :
    (l (i + 1)).find? (fun p => (blockAt m p).key = (blockAt m o).key) = some o := by
  cases hfind : (l (i + 1)).find? fun p => (blockAt m p).key = (blockAt m o).key with
  | none =>
    rw [List.find?_eq_none] at hfind
    exact absurd (decide_eq_true rfl) (hfind o ho)
  | some p =>
    have hkey : (blockAt m p).key = (blockAt m o).key := by simpa using List.find?_some hfind
    rw [List.inj_on_of_nodup_map (h.wf.keys i hi) (List.mem_of_find?_eq_some hfind) ho hkey]

/-- `tdb_update` does nothing if there is no record that is long enough. -/
theorem update_of_not (hnot : ¬(layoutOf m t.mapSize t.hashSize).InPlace l key dbuf) :
    tdbUpdate t key dbuf = some (t, false) := by
  refine withLock_same (Nat.succ_le_of_lt (h.bucket_lt (tdbHash key))) ?_
  rw [updateBody, h.find_lock key]
  cases hfind : (l (bucket t (tdbHash key) + 1)).find? fun o => (blockAt m o).key = key with
  | none => rfl
  | some o =>
    obtain ⟨ho, hkey⟩ := found hfind
    show (if (recAt m o).recLen < key.length + dbuf.length then _ else _) = _
    rw [if_pos]
    by_contra hle
    exact hnot ⟨o, ho, hkey, Nat.le_of_not_lt hle⟩

/-- Data are written behind the key. -/
theorem writeData (hi : i < t.hashSize) (ho : o ∈ l (i + 1))
    (hfits : (recAt m o).keyLen + dbuf.length ≤ (recAt m o).recLen) :
    ∃ m', tdbWrite t (o + recSize + (recAt m o).keyLen) dbuf = some (t.put m' t.mapSize) ∧
      Rep (t.put m' t.mapSize) hd m' loose l ∧ recAt m' o = recAt m o ∧
      (blockAt m' o).key = (blockAt m o).key ∧
      ((blockAt m' o).payload.drop (recAt m o).keyLen).take dbuf.length = dbuf ∧
      mapOf t m' l = Function.update (mapOf t m l) (blockAt m o).key (some (blockAt m' o).data) := by
  have he := h.entry hi ho
  have hend : o + recSize + (recAt m o).keyLen + dbuf.length ≤ o + (blockAt m o).extent := by
    show _ ≤ o + (recSize + (recAt m o).recLen)
    omega
  obtain ⟨m', hm'⟩ : ∃ m', m' = m.write (o + recSize + (recAt m o).keyLen) dbuf := ⟨_, rfl⟩
  obtain ⟨rest, hblock⟩ := blockAt_write_data hfits
  have hlength := length_payload m' o
  rw [← hm'] at hblock
  rw [hblock] at hlength
  have htake : ((blockAt m o).payload.take (recAt m o).keyLen).length = (recAt m o).keyLen := by
    rw [List.length_take, length_payload, blockAt_head]
    omega
  have hkey : (blockAt m' o).key = (blockAt m o).key := by
    rw [hblock, Block.key, List.take_left' htake, Block.key, blockAt_head]
  have hkey' := hkey
  rw [hblock] at hkey'
  rw [hm'] at hblock
  obtain ⟨hwrite, hr, hmap⟩ := h.writeEntry hi ho (by omega) hend hblock rfl rfl
    ⟨he.magic, hlength, he.fits, he.hash.trans (congrArg tdbHash hkey'.symm),
      (congrArg (tdbHash · % _) hkey').trans he.bucket⟩ hkey'
  rw [← hm'] at hwrite hr hmap hblock
  refine ⟨m', hwrite, hr, ?_, hkey, ?_, ?_⟩
  · rw [← blockAt_head, hblock]
  · rw [hblock, List.drop_left' htake, List.take_left' rfl]
  · rw [hmap, hblock]

/-- The length of the data is written. -/
theorem writeLength (hi : i < t.hashSize) (ho : o ∈ l (i + 1)) {n : ℕ}
    (hfits : (recAt m o).keyLen + n ≤ (recAt m o).recLen) :
    ∃ m', Tdb.recWrite t o { recAt m o with dataLen := n } = some (t.put m' t.mapSize) ∧
      Rep (t.put m' t.mapSize) hd m' loose l ∧
      mapOf t m' l = Function.update (mapOf t m l) (blockAt m o).key
        (some (((blockAt m o).payload.drop (recAt m o).keyLen).take n)) := by
  have he := h.entry hi ho
  have hwords := recAt_words m o
  have hlt := hwords.recLen
  have hwWords : ListStruct.Words { recAt m o with dataLen := n } :=
    { hwords with dataLen := by show n < _; omega }
  have hblock := blockAt_write_head hwWords (m := m) (o := o) rfl
  obtain ⟨hwrite, hr, hmap⟩ := h.writeEntry hi ho (Nat.le_refl o)
    (by
      rw [length_bytes]
      exact Nat.add_le_add_left (Nat.le_add_right _ _) _)
    hblock rfl rfl ⟨he.magic, he.length, hfits, he.hash, he.bucket⟩ rfl
  exact ⟨_, hwrite, hr, hmap⟩

/-- The data of a record are written, and then their length if it is another one. -/
theorem updateBody (hi : i < t.hashSize) (ho : o ∈ l (i + 1))
    (hfits : (blockAt m o).key.length + dbuf.length ≤ (recAt m o).recLen) :
    ∃ m', Tdb.updateBody (blockAt m o).key dbuf t = some (t.put m' t.mapSize, true) ∧
      Rep (t.put m' t.mapSize) hd m' loose l ∧
      mapOf t m' l = Function.update (mapOf t m l) (blockAt m o).key (some dbuf) := by
  have he := h.entry hi ho
  have hfind : tdbFind t (blockAt m o).key (tdbHash (blockAt m o).key) = some (some (o, recAt m o)) := by
    rw [h.find, bucket, he.bucket, h.find?_eq hi ho]
    rfl
  have hnew : (recAt m o).keyLen + dbuf.length ≤ (recAt m o).recLen := he.length_key ▸ hfits
  obtain ⟨m₁, hwrite, hr, hhead, hkey, hdata, hmap⟩ := h.writeData hi ho hnew
  rw [Tdb.updateBody, hfind]
  simp only [Nat.not_lt.mpr hfits, if_false, hwrite]
  by_cases hsame : dbuf.length = (recAt m o).dataLen
  · refine ⟨m₁, if_neg (not_not_intro hsame), hr, hmap.trans ?_⟩
    rw [Block.data, blockAt_head, hhead, ← hsame, hdata]
  · rw [← hhead] at hnew hdata
    obtain ⟨m₂, hwrite₂, hr₂, hmap₂⟩ := hr.writeLength hi ho hnew
    have hmod : dbuf.length % 2 ^ 32 = dbuf.length :=
      Nat.mod_eq_of_lt (by have := (recAt_words m₁ o).recLen; omega)
    rw [hhead] at hwrite₂
    refine ⟨m₂, ?_, hr₂, ?_⟩
    · rw [if_pos hsame, hmod, hwrite₂]
      rfl
    · have hmap₁ : mapOf (t.put m₁ t.mapSize) m₁ l = mapOf t m₁ l := rfl
      rw [hkey, hdata, hmap₁, hmap, Function.update_idem] at hmap₂
      exact hmap₂

/-- `tdb_update` replaces the data if the record is long enough for them. -/
theorem update (hin : (layoutOf m t.mapSize t.hashSize).InPlace l key dbuf) :
    ∃ m', tdbUpdate t key dbuf = some (t.put m' t.mapSize, true) ∧
      Rep (t.put m' t.mapSize) hd m' loose l ∧
      mapOf t m' l = Function.update (mapOf t m l) key (some dbuf) := by
  obtain ⟨o, ho, rfl, hfits⟩ := hin
  have hi := h.bucket_lt (tdbHash (blockAt m o).key)
  obtain ⟨m', heq, hr, hmap⟩ := (h.lock (bucket t (tdbHash (blockAt m o).key) + 1)).updateBody
    (by rwa [tdbLock_hashSize]) ho hfits
  rw [tdbLock_mapSize] at heq hr
  rw [mapOf, mapOf, tdbLock_mapSize, tdbLock_hashSize] at hmap
  exact ⟨m', withLock_put (Nat.succ_le_of_lt hi) heq, hr.of_lock, hmap⟩

/-! ## Deleting -/

/-- One step of the loop passes a record with another key. -/
theorem deleteLoop_step {k fuel : ℕ} (hi : i < t.hashSize) (hl : l (i + 1) = l₁ ++ (k + 1) :: l₂)
    (hne : (blockAt m (k + 1)).key ≠ key) :
    Tdb.deleteLoop t key (tdbHash key) (fuel + 1) (l₁.getLast?.map fun a => (a, recAt m a)) (k + 1) =
      Tdb.deleteLoop t key (tdbHash key) fuel ((l₁ ++ [k + 1]).getLast?.map fun a => (a, recAt m a))
        (recAt m (k + 1)).next := by
  have ho : k + 1 ∈ l (i + 1) := by
    rw [hl]
    exact List.mem_append_right _ List.mem_cons_self
  rw [Tdb.deleteLoop, h.recRead hi ho, List.getLast?_append_of_ne_nil _ (List.cons_ne_nil _ _)]
  by_cases hlike : tdbHash key = (recAt m (k + 1)).fullHash ∧ key.length = (recAt m (k + 1)).keyLen
  · simp only [if_pos hlike, h.readKey hi ho, if_neg (Ne.symm hne)]
    rfl
  · simp only [if_neg hlike]
    rfl

/-- The loop finds nothing. -/
theorem deleteLoop_of_none (hi : i < t.hashSize) {fuel recPtr : ℕ} (hl : l (i + 1) = l₁ ++ l₂)
    (hlink : Linked (fun p => (recAt m p).next) recPtr l₂) (hfuel : l₂.length ≤ fuel)
    (hnone : ∀ o ∈ l₂, (blockAt m o).key ≠ key) :
    Tdb.deleteLoop t key (tdbHash key) fuel (l₁.getLast?.map fun a => (a, recAt m a)) recPtr =
      some (t, none) := by
  induction l₂ generalizing l₁ recPtr fuel with
  | nil =>
    obtain rfl : recPtr = 0 := hlink
    exact deleteLoop_zero _ _
  | cons o l₂ ih =>
    obtain ⟨rfl, ho0, hlink⟩ := hlink
    obtain ⟨fuel, rfl⟩ := Nat.exists_eq_succ_of_ne_zero (Nat.ne_of_gt (Nat.lt_of_lt_of_le
      (Nat.succ_pos l₂.length) hfuel))
    obtain ⟨k, rfl⟩ := Nat.exists_eq_succ_of_ne_zero ho0
    rw [List.forall_mem_cons] at hnone
    rw [h.deleteLoop_step hi hl hnone.1]
    exact ih (by rw [hl, List.append_assoc, List.singleton_append]) hlink
      (Nat.le_of_succ_le_succ hfuel) hnone.2

/-- What the other records are after the one behind `l₁` has been taken out -/
abbrev Relinked (_ : Rep t hd m loose l) (m' : Image) (l₁ : List ℕ) : Prop :=
  ∀ p ∈ members (t.hashSize + 1) loose l, (∃ next, blockAt m' p = (blockAt m p).relink next) ∧
    (p ∉ l₁ → blockAt m' p = blockAt m p)

/-- The loop takes out the record with the key. -/
theorem deleteLoop (hi : i < t.hashSize) (hbucket : bucket t (tdbHash key) = i) {fuel recPtr : ℕ}
    (hl : l (i + 1) = l₁ ++ l₂) (hlink : Linked (fun p => (recAt m p).next) recPtr l₂)
    (hfuel : l₂.length ≤ fuel) (hin : ∃ o ∈ l₂, (blockAt m o).key = key) :
    ∃ m' o l₃ l₄, l (i + 1) = l₃ ++ o :: l₄ ∧ (blockAt m o).key = key ∧
      Tdb.deleteLoop t key (tdbHash key) fuel (l₁.getLast?.map fun a => (a, recAt m a)) recPtr =
        some (t.put m' t.mapSize, some (o, recAt m o)) ∧
      Rep (t.put m' t.mapSize) hd m' (o :: loose) (Function.update l (i + 1) (l₃ ++ l₄)) ∧
      recAt m' o = recAt m o ∧ h.Relinked m' l₃ := by
  induction l₂ generalizing l₁ recPtr fuel with
  | nil =>
    obtain ⟨o, ho, -⟩ := hin
    exact absurd ho List.not_mem_nil
  | cons o l₂ ih =>
    obtain ⟨rfl, ho0, hlink⟩ := hlink
    obtain ⟨fuel, rfl⟩ := Nat.exists_eq_succ_of_ne_zero (Nat.ne_of_gt (Nat.lt_of_lt_of_le
      (Nat.succ_pos l₂.length) hfuel))
    obtain ⟨k, rfl⟩ := Nat.exists_eq_succ_of_ne_zero ho0
    have ho : k + 1 ∈ l (i + 1) := by
      rw [hl]
      exact List.mem_append_right _ List.mem_cons_self
    by_cases hkey : (blockAt m (k + 1)).key = key
    · obtain ⟨m', hunlink, hrep, hsame, hblock⟩ :=
        h.unlinkRecord (r := recAt m (k + 1)) (Nat.succ_le_of_lt hi) hl rfl
      refine ⟨m', k + 1, l₁, l₂, hl, hkey, ?_, hrep, congrArg Block.head hsame, hblock⟩
      have he := h.entry hi ho
      have hlike : tdbHash key = (recAt m (k + 1)).fullHash ∧ key.length = (recAt m (k + 1)).keyLen := by
        rw [← hkey]
        exact ⟨he.hash.symm, he.length_key⟩
      rw [Tdb.deleteLoop, h.recRead hi ho]
      simp only [if_pos hlike, h.readKey hi ho, if_pos hkey.symm]
      rw [tdbHashTop_eq, hbucket, hunlink]
    · rw [h.deleteLoop_step hi hl hkey]
      obtain ⟨o, ho, hk⟩ := hin
      refine ih (by rw [hl, List.append_assoc, List.singleton_append]) hlink
        (Nat.le_of_succ_le_succ hfuel) ⟨o, (List.mem_cons.mp ho).resolve_left ?_, hk⟩
      rintro rfl
      exact hkey hk

omit h in
/-- The space of a record is recovered. -/
theorem recoverRecord (h : Rep t hd m (o :: loose) l) :
    ∃ m', Tdb.recoverRecord t o (recAt m o) = (t.put m' t.mapSize, true) ∧
      Rep (t.put m' t.mapSize) hd m' loose (Function.update l 0 (o :: l 0)) ∧
      ∀ p ∈ members (t.hashSize + 1) loose l, blockAt m' p = blockAt m p := by
  have hwords := recAt_words m o
  obtain ⟨w, hw⟩ : ∃ w : ListStruct, w =
      { recAt m o with next := m.word (topAt 0), magic := tdbFreeMagic } := ⟨_, rfl⟩
  have hwWords : w.Words := by
    subst hw
    exact { hwords with next := m.word_lt _, magic := by show tdbFreeMagic < 2 ^ 32; decide }
  have hlen : w.recLen = (recAt m o).recLen := by rw [hw]
  have hblock : blockAt (m.write o w.bytes) o = _ := blockAt_write_head hwWords hlen
  have hhead : recAt (m.write o w.bytes) o = w := by rw [← blockAt_head, hblock]
  have hend : o + w.bytes.length ≤ o + (blockAt m o).extent := by
    rw [length_bytes]
    exact Nat.add_le_add_left (Nat.le_add_right _ _) _
  obtain ⟨hwrite, hrep, htop, hother⟩ := h.writeLoose (Nat.le_refl o) hend
    (by
      rw [hblock]
      exact congrArg (recSize + ·) hlen)
  obtain ⟨m', hlink, hrep', hsame⟩ := hrep.push (i := 0) (Nat.zero_le _)
    (by rw [hhead, htop 0 (Nat.zero_le _), hw]) (fun _ => by rw [hhead, hw])
    fun _ hj => absurd hj (Nat.succ_ne_zero _).symm
  refine ⟨m', ?_, hrep', fun p hp => ?_⟩
  · have htop₀ : ofsRead t freelistTop = some (m.word (topAt 0)) := h.ofsRead_top (Nat.zero_le _)
    have hfirst : Tdb.recWrite t o w = some (t.put (m.write o w.bytes) t.mapSize) := hwrite
    have hsecond : ofsWrite (t.put (m.write o w.bytes) t.mapSize) freelistTop o =
        some (t.put m' t.mapSize) := hlink
    rw [Tdb.recoverRecord, htop₀]
    simp only [← hw, hfirst, hsecond]
  · have hmem : p ∈ members (t.hashSize + 1) (o :: loose) l := by
      rw [members_cons]
      exact Multiset.mem_cons_of_mem hp
    refine (hsame p hmem).trans (hother p hmem ?_)
    rintro rfl
    have hn := h.wf.packed.nodup
    rw [show (layoutOf m t.mapSize t.hashSize).hashSize = t.hashSize from rfl, members_cons] at hn
    exact (Multiset.nodup_cons.mp hn).1 hp

theorem deleteBody_of_none (hnone : mapOf t m l key = none) :
    Tdb.deleteBody key t = some (t, none) := by
  have hi := Nat.succ_le_of_lt (h.bucket_lt (tdbHash key))
  rw [Tdb.deleteBody, tdbHashTop_eq, h.ofsRead_top hi]
  exact h.deleteLoop_of_none hi (show l (bucket t (tdbHash key) + 1) = [] ++ l _ from rfl) (h.linked hi)
    (h.wf.length_le hi)
    (mapOf_eq_none_iff.mp hnone)

theorem deleteBody (hsome : mapOf t m l key ≠ none) :
    ∃ m' o l₃ l₄, l (bucket t (tdbHash key) + 1) = l₃ ++ o :: l₄ ∧ (blockAt m o).key = key ∧
      Tdb.deleteBody key t = some (t.put m' t.mapSize, some (o, recAt m o)) ∧
      Rep (t.put m' t.mapSize) hd m' (o :: loose)
        (Function.update l (bucket t (tdbHash key) + 1) (l₃ ++ l₄)) ∧
      recAt m' o = recAt m o ∧ h.Relinked m' l₃ := by
  have hi := Nat.succ_le_of_lt (h.bucket_lt (tdbHash key))
  have hin : ∃ o ∈ l (bucket t (tdbHash key) + 1), (blockAt m o).key = key := by
    by_contra hnot
    exact hsome (mapOf_eq_none_iff.mpr fun o ho hk => hnot ⟨o, ho, hk⟩)
  rw [Tdb.deleteBody, tdbHashTop_eq, h.ofsRead_top hi]
  exact h.deleteLoop hi rfl (show l (bucket t (tdbHash key) + 1) = [] ++ l _ from rfl) (h.linked hi)
    (h.wf.length_le hi) hin

/-- `tdb_delete` finds nothing. -/
theorem delete_of_none (hnone : mapOf t m l key = none) : tdbDelete t key = some (t, false) := by
  have hfirst : withLock (bucket t (tdbHash key) + 1) t (Tdb.deleteBody key) = some (t, none) :=
    withLock_same (Nat.succ_le_of_lt (h.bucket_lt _))
      ((h.lock _).deleteBody_of_none (by rw [lock_mapOf, hnone]))
  rw [tdbDelete, hfirst]
  rfl

/-- `tdb_delete` takes the key out of the map, and its record is the first that is free. The records behind
it and those of the other lists stay as they are. -/
theorem delete (hsome : mapOf t m l key ≠ none) :
    ∃ m' o l₃ l₄, l (bucket t (tdbHash key) + 1) = l₃ ++ o :: l₄ ∧ (blockAt m o).key = key ∧
      tdbDelete t key = some (t.put m' t.mapSize, true) ∧
      Rep (t.put m' t.mapSize) hd m' loose (Function.update
        (Function.update l (bucket t (tdbHash key) + 1) (l₃ ++ l₄)) 0 (o :: l 0)) ∧
      mapOf t m' (Function.update
        (Function.update l (bucket t (tdbHash key) + 1) (l₃ ++ l₄)) 0 (o :: l 0)) =
          Function.update (mapOf t m l) key none ∧
      ∀ p ∈ members (t.hashSize + 1) loose l, p ≠ o → p ∉ l₃ → blockAt m' p = blockAt m p := by
  have hi := h.bucket_lt (tdbHash key)
  obtain ⟨m₁, o, l₃, l₄, hl, hkey, hbody, hrep, hhead, hrelink⟩ :=
    (h.lock (bucket t (tdbHash key) + 1)).deleteBody (by rwa [lock_mapOf])
  rw [bucket_lock] at hl hrep
  rw [tdbLock_mapSize] at hbody hrep
  rw [Relinked, tdbLock_hashSize] at hrelink
  have hrep₁ := hrep.of_lock
  -- the record is pushed on the free list
  obtain ⟨m₂, hrecover, hrep₂, hsame⟩ := (hrep₁.lock 0).recoverRecord
  rw [tdbLock_mapSize] at hrecover hrep₂
  rw [tdbLock_hashSize] at hsame
  rw [Function.update_of_ne (Nat.succ_ne_zero _).symm] at hrep₂
  have htake : members (t.hashSize + 1) (o :: loose)
      (Function.update l (bucket t (tdbHash key) + 1) (l₃ ++ l₄)) =
      members (t.hashSize + 1) loose l := members_take (Nat.succ_lt_succ hi) hl
  refine ⟨m₂, o, l₃, l₄, hl, hkey, ?_, hrep₂.of_lock, ?_, fun p hp hpo hpl => ?_⟩
  · rw [tdbDelete, withLock_put (Nat.succ_le_of_lt hi) hbody]
    show withLock 0 (t.put m₁ t.mapSize) (fun t => some (Tdb.recoverRecord t o (recAt m o))) = _
    refine withLock_put (Nat.zero_le _) ?_
    rw [← hhead]
    exact congrArg some hrecover
  · refine Eq.trans ?_ ((Layout.content_unlink h.wf hi hl).trans
      (congrArg (fun k => Function.update (mapOf t m l) k none) hkey))
    refine Layout.content_congr rfl h.hash_pos (fun j _ => ?_) fun j hj p hp => ?_
    · rw [Function.update_of_ne (Nat.succ_ne_zero j)]
    · have hmem : p ∈ members (t.hashSize + 1) loose
          (Function.update l (bucket t (tdbHash key) + 1) (l₃ ++ l₄)) :=
        mem_members_of_mem (Nat.succ_lt_succ hj) hp
      obtain ⟨⟨next, hnext⟩, -⟩ := hrelink p (by
        rw [← htake, members_cons]
        exact Multiset.mem_cons_of_mem hmem)
      have hblock : blockAt m₂ p = (blockAt m p).relink next := (hsame p hmem).trans hnext
      show (blockAt m₂ p).key = (blockAt m p).key ∧ (blockAt m₂ p).data = (blockAt m p).data
      rw [hblock]
      exact ⟨rfl, rfl⟩
  · have hmem := hp
    rw [← htake, members_cons, Multiset.mem_cons] at hmem
    exact (hsame p (hmem.resolve_left hpo)).trans ((hrelink p hp).2 hpl)

/-! ## Storing -/

omit h in
/-- The map does not depend on what is loose. -/
theorem mapOf_eq {m' : Image} {l' : ℕ → List ℕ} (h : Rep t hd m loose l) (size : ℕ)
    (hl : ∀ j < t.hashSize, l' (j + 1) = l (j + 1))
    (hblock : ∀ j < t.hashSize, ∀ p ∈ l (j + 1), blockAt m' p = blockAt m p) :
    mapOf (t.put m' size) m' l' = mapOf t m l := by
  refine Layout.content_congr rfl h.hash_pos hl fun j hj p hp => ?_
  show (blockAt m' p).key = (blockAt m p).key ∧ (blockAt m' p).data = (blockAt m p).data
  rw [hblock j hj p hp]
  exact ⟨rfl, rfl⟩

/-- The head of a record that is stored -/
def newHead (m : Image) (o : ℕ) (key dbuf : List UInt8) (next : ℕ) : ListStruct :=
  { recAt m o with
    next := next, keyLen := key.length, dataLen := dbuf.length, fullHash := tdbHash key
    magic := tdbMagic }

omit h in
/-- A loose record is filled. -/
theorem fillRecord (h : Rep t hd m (o :: loose) l) (hfits : key.length + dbuf.length ≤ (recAt m o).recLen)
    {next : ℕ} (hnext : next < 2 ^ 32) :
    ∃ m', tdbWrite t o ((newHead m o key dbuf next).bytes ++ (key ++ dbuf)) =
        some (t.put m' t.mapSize) ∧
      Rep (t.put m' t.mapSize) hd m' (o :: loose) l ∧ (recAt m' o).next = next ∧
      Block.Entry t.hashSize (bucket t (tdbHash key)) (blockAt m' o) ∧ (blockAt m' o).key = key ∧
      (blockAt m' o).data = dbuf ∧ (∀ i ≤ t.hashSize, m'.word (topAt i) = m.word (topAt i)) ∧
      ∀ j < t.hashSize, ∀ p ∈ l (j + 1), blockAt m' p = blockAt m p := by
  have hwords := recAt_words m o
  have hrecLt := hwords.recLen
  have hwWords : (newHead m o key dbuf next).Words :=
    ⟨hwords.recLen, hnext, by show key.length < 2 ^ 32; omega, by show dbuf.length < 2 ^ 32; omega,
      Nat.mod_lt _ (by decide), by show tdbMagic < 2 ^ 32; decide⟩
  have hfit : (key ++ dbuf).length ≤ (newHead m o key dbuf next).recLen := by
    rw [List.length_append]
    exact hfits
  obtain ⟨rest, hblock, -⟩ := blockAt_write_all (m := m) (o := o) hwWords hfit
  have hend : o + ((newHead m o key dbuf next).bytes ++ (key ++ dbuf)).length ≤
      o + (blockAt m o).extent := by
    rw [List.length_append, length_bytes]
    exact Nat.add_le_add_left (Nat.add_le_add_left hfit _) _
  obtain ⟨hwrite, hrep, htop, hother⟩ := h.writeLoose (Nat.le_refl o) hend (by
    rw [hblock]
    rfl)
  obtain ⟨m', hm'⟩ : ∃ m', m' = m.write o ((newHead m o key dbuf next).bytes ++ (key ++ dbuf)) :=
    ⟨_, rfl⟩
  rw [← hm'] at hblock hwrite hrep htop hother
  rw [List.append_assoc] at hblock
  have hhead : recAt m' o = newHead m o key dbuf next := by rw [← blockAt_head, hblock]
  have hkey : (blockAt m' o).key = key := by rw [hblock, Block.key_mk rfl]
  refine ⟨m', hwrite, hrep, by rw [hhead]; rfl, ⟨?_, length_payload m' o, ?_, ?_, ?_⟩, hkey,
    by rw [hblock, Block.data_mk rfl rfl], htop, fun j hj p hp => ?_⟩
  · rw [blockAt_head, hhead]
    rfl
  · rw [blockAt_head, hhead]
    exact hfits
  · rw [blockAt_head, hhead, hkey]
    rfl
  · rw [hkey]
    rfl
  · exact hother p (h.mem hj hp) (ne_of_mem_of_not_mem hp fun ho =>
      notMem_loose h.wf.packed.nodup (Nat.succ_lt_succ hj) ho List.mem_cons_self)

omit h in
/-- With `TDB_INSERT` the free record is written over, then put at the head of its list. -/
theorem storeBody_insert : Tdb.storeBody o key dbuf tdbInsert t =
    match Tdb.structRead t o with
    | none => some (t, false)
    | some r =>
      if r.magic ≠ tdbFreeMagic then some (t, false)
      else
        match ofsRead t (tdbHashTop t (tdbHash key)) with
        | none => some (t, false)
        | some next =>
          match tdbWrite t o (ListStruct.bytes { r with
              next := next, keyLen := key.length % 2 ^ 32, dataLen := dbuf.length % 2 ^ 32
              fullHash := tdbHash key, magic := tdbMagic } ++ (key ++ dbuf)) with
          | none => some (t, false)
          | some t =>
            match ofsWrite t (tdbHashTop t (tdbHash key)) o with
            | none => some (t, false)
            | some t => some (t, true) := rfl

omit h in
/-- Without `TDB_INSERT` what there was under the key goes first. -/
theorem storeBody_replace (hflag : flag ≠ tdbInsert) :
    Tdb.storeBody o key dbuf flag t =
      (tdbDelete t key).bind fun r => Tdb.storeBody o key dbuf tdbInsert r.1 := by
  rw [Tdb.storeBody, if_pos hflag]
  rfl

omit h in
/-- A loose record is filled and put in front of its list. -/
theorem fill (h : Rep t hd m (o :: loose) l) (hmagic : (recAt m o).magic = tdbFreeMagic)
    (hfits : key.length + dbuf.length ≤ (recAt m o).recLen) (hnew : mapOf t m l key = none) :
    ∃ m' l', Tdb.storeBody o key dbuf tdbInsert t = some (t.put m' t.mapSize, true) ∧
      Rep (t.put m' t.mapSize) hd m' loose l' ∧
      mapOf t m' l' = Function.update (mapOf t m l) key (some dbuf) := by
  obtain ⟨i, hb⟩ : ∃ i, i = bucket t (tdbHash key) := ⟨_, rfl⟩
  have hi : i < t.hashSize := hb ▸ h.bucket_lt (tdbHash key)
  have hi' := Nat.succ_le_of_lt hi
  have hmem : o ∈ members (t.hashSize + 1) (o :: loose) l := mem_members.mpr (.inl List.mem_cons_self)
  have hrecLt := (recAt_words m o).recLen
  obtain ⟨m₁, hwrite, hrep, hnext, he, hkey, hdata, htop, hentry⟩ :=
    h.fillRecord hfits (m.word_lt (topAt (i + 1)))
  have hmap₁ : mapOf t m₁ l = mapOf t m l := h.mapOf_eq t.mapSize (fun _ _ => rfl) hentry
  rw [← hb] at he
  obtain ⟨m₂, hlink, hrep₂, hsame⟩ := hrep.push hi' (by rw [hnext, htop _ hi'])
    (fun hz => absurd hz (Nat.succ_ne_zero _)) fun j hj => by
      obtain rfl := Nat.succ.inj hj
      refine ⟨he, fun hin => ?_⟩
      obtain ⟨p, hp, hpk⟩ := List.mem_map.mp hin
      rw [hkey] at hpk
      exact mapOf_eq_none_iff.mp ((congrFun hmap₁ key).trans hnew) p (hb ▸ hp) hpk
  refine ⟨m₂, _, ?_, hrep₂, ?_⟩
  · have hb₁ : bucket (t.put m₁ t.mapSize) (tdbHash key) = i := hb.symm
    rw [newHead] at hwrite
    rw [storeBody_insert, h.structRead hmem]
    simp only [hmagic, ne_eq, not_true_eq_false, if_false, tdbHashTop_eq, ← hb, h.ofsRead_top hi']
    rw [Nat.mod_eq_of_lt (a := key.length) (by omega), Nat.mod_eq_of_lt (a := dbuf.length) (by omega),
      hwrite]
    simp only [hb₁, hlink]
    rfl
  · have hpush := Layout.content_pushEntry (s := layoutOf m₁ t.mapSize t.hashSize) (l := l) he
    have hcongr : mapOf t m₂ (Function.update l (i + 1) (o :: l (i + 1))) =
        mapOf t m₁ (Function.update l (i + 1) (o :: l (i + 1))) := by
      refine Layout.content_congr rfl h.hash_pos (fun _ _ => rfl) fun j hj p hp => ?_
      show (blockAt m₂ p).key = (blockAt m₁ p).key ∧ (blockAt m₂ p).data = (blockAt m₁ p).data
      rw [hsame p]
      · exact ⟨rfl, rfl⟩
      · rw [show (t.put m₁ t.mapSize).hashSize = t.hashSize from rfl, ← members_push (Nat.succ_lt_succ hi)]
        exact mem_members_of_mem (Nat.succ_lt_succ hj) hp
    refine hcongr.trans (hpush.trans ?_)
    show Function.update (mapOf t m₁ l) (blockAt m₁ o).key (some (blockAt m₁ o).data) = _
    rw [hkey, hdata, hmap₁]

omit h in
/-- `tdb_store` with a record that was allocated -/
theorem storeBody (h : Rep t hd m (o :: loose) l) (hmagic : (recAt m o).magic = tdbFreeMagic)
    (hfits : key.length + dbuf.length ≤ (recAt m o).recLen)
    (hnew : flag = tdbInsert → mapOf t m l key = none) :
    ∃ m' l', Tdb.storeBody o key dbuf flag t = some (t.put m' t.mapSize, true) ∧
      Rep (t.put m' t.mapSize) hd m' loose l' ∧
      mapOf t m' l' = Function.update (mapOf t m l) key (some dbuf) := by
  by_cases hflag : flag = tdbInsert
  · subst hflag
    exact h.fill hmagic hfits (hnew rfl)
  · by_cases hnone : mapOf t m l key = none
    · obtain ⟨m', l', heq, hrep, hmap⟩ := h.fill hmagic hfits hnone
      refine ⟨m', l', ?_, hrep, hmap⟩
      rw [storeBody_replace hflag, h.delete_of_none hnone]
      exact heq
    · obtain ⟨m₁, q, l₃, l₄, hl, -, hdelete, hrep₁, hmap₁, hother⟩ := h.delete hnone
      have hnot : o ∉ l (bucket t (tdbHash key) + 1) := fun ho =>
        notMem_loose h.wf.packed.nodup (Nat.succ_lt_succ (h.bucket_lt _)) ho List.mem_cons_self
      rw [hl, List.mem_append, List.mem_cons, not_or, not_or] at hnot
      have hblock := hother o (mem_members.mpr (.inl List.mem_cons_self)) hnot.2.1 hnot.1
      have hrec : recAt m₁ o = recAt m o := by rw [← blockAt_head, hblock, blockAt_head]
      obtain ⟨m', l', heq, hrep, hmap⟩ := hrep₁.fill (hrec ▸ hmagic)
        (show key.length + dbuf.length ≤ _ from hrec ▸ hfits)
        ((congrFun hmap₁ key).trans (Function.update_self _ _ _))
      refine ⟨m', l', ?_, hrep, ?_⟩
      · rw [storeBody_replace hflag, hdelete]
        exact heq
      · have hmap' : mapOf t m' l' = Function.update (mapOf t m₁ _) key (some dbuf) := hmap
        rw [hmap', hmap₁, Function.update_idem]

/-- `TDB_INSERT` finds the key. -/
theorem store_of_exists (hsome : mapOf t m l key ≠ none) :
    tdbStore host t key dbuf tdbInsert = some (t, false) := by
  have hthere : (mapOf t m l key).isSome = true := Option.isSome_iff_ne_none.mpr hsome
  rw [tdbStore, if_pos rfl, h.contains, hthere]
  rfl

/-- The data are replaced in place. -/
theorem store_inPlace (host : Host) (hflag : flag ≠ tdbInsert)
    (hin : (layoutOf m t.mapSize t.hashSize).InPlace l key dbuf) :
    ∃ m', tdbStore host t key dbuf flag = some (t.put m' t.mapSize, true) ∧
      Rep (t.put m' t.mapSize) hd m' loose l ∧
      mapOf t m' l = Function.update (mapOf t m l) key (some dbuf) := by
  obtain ⟨m', heq, hrep, hmap⟩ := h.update hin
  refine ⟨m', ?_, hrep, hmap⟩
  rw [tdbStore, if_neg hflag]
  simp -implicitDefEqProofs only [Option.bind_eq_bind, Option.bind_some, Bool.false_eq_true, if_false,
    if_pos hflag, heq, if_true]

/-- What the flag asks for comes to nothing. -/
theorem store_step
    (hnew : if flag = tdbInsert then mapOf t m l key = none
      else ¬(layoutOf m t.mapSize t.hashSize).InPlace l key dbuf) :
    tdbStore host t key dbuf flag = (tdbAllocate host t (key.length + dbuf.length)).bind fun r =>
      if r.2 = 0 then some (r.1, false)
      else withLock (bucket r.1 (tdbHash key) + 1) r.1 (Tdb.storeBody r.2 key dbuf flag) := by
  by_cases hflag : flag = tdbInsert
  · rw [if_pos hflag] at hnew
    rw [tdbStore, if_pos hflag, h.contains, hnew]
    simp only [Option.bind_eq_bind, Option.bind_some, Option.isSome_none, Bool.false_eq_true, if_false,
      ne_eq, hflag, not_true_eq_false]
  · rw [if_neg hflag] at hnew
    rw [tdbStore, if_neg hflag]
    simp -implicitDefEqProofs only [Option.bind_eq_bind, Option.bind_some, Bool.false_eq_true, if_false,
      if_pos hflag, h.update_of_not hnew]

/-- A record is allocated and filled, or there is no room for it. -/
theorem store (host : Host) (hsmall : t.Small (key.length + dbuf.length + recSize))
    (hnew : if flag = tdbInsert then mapOf t m l key = none
      else ¬(layoutOf m t.mapSize t.hashSize).InPlace l key dbuf) :
    ((layoutOf m t.mapSize t.hashSize).HasFree l (key.length + dbuf.length) ∨
        t.grown (key.length + dbuf.length + recSize) ≤ host.room →
      ∃ m' size l', tdbStore host t key dbuf flag = some (t.put m' size, true) ∧
        Rep (t.put m' size) hd m' loose l' ∧
        mapOf (t.put m' size) m' l' = Function.update (mapOf t m l) key (some dbuf)) ∧
    (¬((layoutOf m t.mapSize t.hashSize).HasFree l (key.length + dbuf.length) ∨
        t.grown (key.length + dbuf.length + recSize) ≤ host.room) →
      tdbStore host t key dbuf flag =
        some (t.refused (key.length + dbuf.length + recSize), false)) := by
  have halloc := h.allocate host hsmall
  rw [h.store_step hnew]
  constructor
  · intro hroom
    have hroom' : (∃ o ∈ l 0, key.length + dbuf.length ≤ (recAt m o).recLen) ∨ _ := hroom
    rw [if_pos hroom'] at halloc
    obtain ⟨m₁, size, l₁, o, heq, hall⟩ := halloc
    have hmap₁ : mapOf (t.put m₁ size) m₁ l₁ = mapOf t m l := h.mapOf_eq size hall.lists hall.block
    have hmem : o ∈ members (t.hashSize + 1) (o :: loose) l₁ := mem_members.mpr (.inl List.mem_cons_self)
    have ho : o ≠ 0 := Nat.ne_of_gt (hall.rep.wf.pos hmem)
    have hi : bucket (t.put m₁ size) (tdbHash key) < t.hashSize := h.bucket_lt (tdbHash key)
    have hlocked := hall.rep.lock (bucket (t.put m₁ size) (tdbHash key) + 1)
    obtain ⟨m', l', hstore, hrep, hmap⟩ := hlocked.storeBody hall.magic hall.fits
      fun hflag : flag = tdbInsert => by
        rw [if_pos hflag] at hnew
        rw [lock_mapOf, hmap₁, hnew]
    rw [tdbLock_mapSize] at hstore hrep
    rw [lock_mapOf, lock_mapOf, hmap₁] at hmap
    refine ⟨m', size, l', ?_, hrep.of_lock, hmap⟩
    rw [heq, Option.bind_some, if_neg ho]
    exact withLock_put (Nat.succ_le_of_lt hi) hstore
  · intro hroom
    have hroom' : ¬((∃ o ∈ l 0, key.length + dbuf.length ≤ (recAt m o).recLen) ∨ _) := hroom
    rw [if_neg hroom'] at halloc
    rw [halloc]
    rfl

end Rep

end LinuxSna.Tdb
