import LinuxSna.Proof.Asuite.Tdb.Runs

/-!
# Going through a database

`tdb_traverse`, `tdb_firstkey` and `tdb_nextkey`, after whatever a database has been asked.

* `Rep.removeAt`: a record is deleted while a loop stands on it, which does not hurt the loop;
* `Holds.traverses`: `tdb_traverse` calls its function for each entry once;
* `Holds.iterates`: `tdb_firstkey` and `tdb_nextkey` come by the keys, but for those of the last bucket.
-/

namespace LinuxSna.Tdb

open Framework

variable {t : Context} {hd m : Image} {loose l₁ l₂ : List ℕ} {l : ℕ → List ℕ} {i o : ℕ} {f : Table}
  {σ : Type}

/-- The entry that a record is for -/
def entryAt (m : Image) (o : ℕ) : List UInt8 × List UInt8 := ((blockAt m o).key, (blockAt m o).data)

/-- The entries of so many buckets from one on, in the order of their lists -/
def entriesFrom (m : Image) (l : ℕ → List ℕ) (h n : ℕ) : List (List UInt8 × List UInt8) :=
  (List.range' h n).flatMap fun j => (l (j + 1)).map (entryAt m)

theorem entriesFrom_succ (h n : ℕ) :
    entriesFrom m l h (n + 1) = (l (h + 1)).map (entryAt m) ++ entriesFrom m l (h + 1) n := by
  rw [entriesFrom, List.range'_succ, List.flatMap_cons]
  rfl

theorem entriesFrom_add (h n k : ℕ) :
    entriesFrom m l h (n + k) = entriesFrom m l h n ++ entriesFrom m l (h + n) k := by
  have hrange : List.range' h n 1 ++ List.range' (h + 1 * n) k 1 = List.range' h (n + k) 1 :=
    List.range'_append
  rw [entriesFrom, ← hrange, List.flatMap_append, Nat.one_mul]
  rfl

theorem entriesFrom_congr {m' : Image} {l' : ℕ → List ℕ} {h n : ℕ}
    (hl : ∀ j, h ≤ j → j < h + n → l' (j + 1) = l (j + 1) ∧
      ∀ p ∈ l (j + 1), blockAt m' p = blockAt m p) :
    entriesFrom m' l' h n = entriesFrom m l h n := by
  refine List.flatMap_congr fun j hj => ?_
  obtain ⟨hle, hlt⟩ := List.mem_range'_1.mp hj
  obtain ⟨hlist, hblock⟩ := hl j hle hlt
  rw [hlist]
  exact List.map_congr_left fun p hp => by rw [entryAt, hblock p hp, entryAt]

namespace Rep

variable (h : Rep t hd m loose l)
include h

theorem mem_entriesFrom {a n : ℕ} (hn : a + n ≤ t.hashSize) {k d : List UInt8} :
    (k, d) ∈ entriesFrom m l a n ↔
      mapOf t m l k = some d ∧ a ≤ bucket t (tdbHash k) ∧ bucket t (tdbHash k) < a + n := by
  have hsome := Layout.content_eq_some_iff h.wf (k := k) (d := d)
  rw [mapOf, hsome, entriesFrom, List.mem_flatMap]
  constructor
  · rintro ⟨j, hj, he⟩
    obtain ⟨hle, hlt⟩ := List.mem_range'_1.mp hj
    obtain ⟨o, ho, heq⟩ := List.mem_map.mp he
    cases heq
    have hbucket : bucket t (tdbHash (blockAt m o).key) = j := (h.entry (by omega) ho).bucket
    refine ⟨⟨o, ?_, rfl, rfl⟩, hbucket.symm ▸ hle, hbucket.symm ▸ hlt⟩
    show o ∈ l (bucket t (tdbHash (blockAt m o).key) + 1)
    rwa [hbucket]
  · rintro ⟨⟨o, ho, rfl, rfl⟩, hle, hlt⟩
    exact ⟨_, List.mem_range'_1.mpr ⟨hle, hlt⟩, List.mem_map.mpr ⟨o, ho, rfl⟩⟩

/-- No key is there twice. -/
theorem nodup_entriesFrom {a n : ℕ} (hn : a + n ≤ t.hashSize) :
    ((entriesFrom m l a n).map Prod.fst).Nodup := by
  induction n generalizing a with
  | zero => exact List.nodup_nil
  | succ n ih =>
    rw [entriesFrom_succ, List.map_append, List.nodup_append, List.map_map]
    refine ⟨h.wf.keys a (by show a < t.hashSize; omega), ih (by omega), fun k hk k' hk' => ?_⟩
    obtain ⟨o, ho, rfl⟩ := List.mem_map.mp hk
    obtain ⟨⟨k, d⟩, he, rfl⟩ := List.mem_map.mp hk'
    have hbucket : bucket t (tdbHash (blockAt m o).key) = a := (h.entry (by omega) ho).bucket
    have hle := ((h.mem_entriesFrom (by omega)).mp he).2.1
    intro (heq : (blockAt m o).key = k)
    rw [← heq, hbucket] at hle
    exact Nat.not_succ_le_self a hle

/-- A record is deleted where it stands. Those behind it and those of the other lists stay as they are. -/
theorem removeAt (hi : i < t.hashSize) (hl : l (i + 1) = l₁ ++ o :: l₂) :
    ∃ m' l', tdbDelete t (blockAt m o).key = some (t.put m' t.mapSize, true) ∧
      Rep (t.put m' t.mapSize) hd m' loose l' ∧
      mapOf t m' l' = Function.update (mapOf t m l) (blockAt m o).key none ∧ l' (i + 1) = l₁ ++ l₂ ∧
      (∀ p ∈ l₂, blockAt m' p = blockAt m p) ∧
      ∀ j, i < j → j < t.hashSize → l' (j + 1) = l (j + 1) ∧
        ∀ p ∈ l (j + 1), blockAt m' p = blockAt m p := by
  have ho : o ∈ l (i + 1) := by
    rw [hl]
    exact List.mem_append_right _ List.mem_cons_self
  have hbucket : bucket t (tdbHash (blockAt m o).key) = i := (h.entry hi ho).bucket
  have hn := h.wf.nodup (Nat.succ_le_of_lt hi)
  have hsome : mapOf t m l (blockAt m o).key ≠ none := fun hnone =>
    mapOf_eq_none_iff.mp hnone o (by rwa [hbucket]) rfl
  obtain ⟨m', q, l₃, l₄, hq, hkey, heq, hrep, hmap, hframe⟩ := h.delete hsome
  rw [hbucket] at hq hrep hmap
  -- the record with the key is this one
  have hqo : q = o := by
    refine List.inj_on_of_nodup_map (h.wf.keys i hi) ?_ ho hkey
    rw [hq]
    exact List.mem_append_right _ List.mem_cons_self
  subst hqo
  rw [hl] at hn
  obtain ⟨hn₁, hn₂, hdisj⟩ := List.nodup_append.mp hn
  have hparts := (List.append_cons_inj_of_notMem (fun hin => hdisj _ hin _ List.mem_cons_self rfl)
    (List.nodup_cons.mp hn₂).1).mp (hl.symm.trans hq)
  obtain ⟨rfl, -, rfl⟩ := hparts
  refine ⟨m', _, heq, hrep, hmap, ?_, fun p hp => ?_, fun j hij hj => ⟨?_, fun p hp => ?_⟩⟩
  · rw [Function.update_of_ne (Nat.succ_ne_zero i), Function.update_self]
  · refine hframe p (h.mem hi ?_) ?_ fun hin => hdisj p hin p (List.mem_cons_of_mem _ hp) rfl
    · rw [hl]
      exact List.mem_append_right _ (List.mem_cons_of_mem _ hp)
    · rintro rfl
      exact (List.nodup_cons.mp hn₂).1 hp
  · rw [Function.update_of_ne (Nat.succ_ne_zero j), Function.update_of_ne (by omega)]
  · have hother := notMem_other h.wf.packed.nodup (Nat.succ_lt_succ hj) (Nat.succ_lt_succ hi)
      (by omega) hp
    rw [hl, List.mem_append, List.mem_cons, not_or, not_or] at hother
    exact hframe p (h.mem hj hp) hother.2.1 hother.1

/-- What `tdb_traverse` reads behind a record head -/
theorem readEntry (hi : i < t.hashSize) (ho : o ∈ l (i + 1)) :
    tdbRead t (o + recSize) (((recAt m o).keyLen + (recAt m o).dataLen) % 2 ^ 32) =
      some ((blockAt m o).key ++ (blockAt m o).data) := by
  have hfits : (recAt m o).keyLen + (recAt m o).dataLen ≤ (recAt m o).recLen := (h.entry hi ho).fits
  have hle := h.rec_le (h.mem hi ho)
  have hlt := h.size_lt
  rw [Nat.mod_eq_of_lt (by omega), tdbRead_eq h.image hlt (by omega), Image.read_add,
    read_key (by omega), read_data hfits]
  rfl

/-- The function is called for a record, and may delete it. -/
theorem visitor_eq (g : List UInt8 → List UInt8 → σ → Verdict σ) (s : σ) (count : ℕ)
    (hi : i < t.hashSize) (hl : l (i + 1) = l₁ ++ o :: l₂) :
    ∃ m' l₃ l' v, v = Visit.step g ⟨s, mapOf t m l, count, false⟩ (entryAt m o) ∧
      visitor g t (blockAt m o).key (blockAt m o).data s = some (t.put m' t.mapSize, v.state, v.stopped) ∧
      v.count = count + 1 ∧ Rep (t.put m' t.mapSize) hd m' loose l' ∧ mapOf t m' l' = v.table ∧
      l' (i + 1) = l₃ ++ l₂ ∧ (∀ p ∈ l₂, blockAt m' p = blockAt m p) ∧
      ∀ j, i < j → j < t.hashSize → l' (j + 1) = l (j + 1) ∧
        ∀ p ∈ l (j + 1), blockAt m' p = blockAt m p := by
  cases hremove : (g (blockAt m o).key (blockAt m o).data s).remove with
  | false =>
    refine ⟨m, l₁ ++ [o], l, _, rfl, ?_, rfl, ?_, ?_, ?_, fun _ _ => rfl, fun _ _ _ => ⟨rfl, fun _ _ => rfl⟩⟩
    · simp only [visitor, hremove, Bool.false_eq_true, if_false, Context.put_self h.image]
      rfl
    · rwa [Context.put_self h.image]
    · simp [Visit.step, entryAt, hremove]
    · rw [hl, List.append_assoc, List.singleton_append]
  | true =>
    obtain ⟨m', l', heq, hrep, hmap, hlist, hrest, hother⟩ := h.removeAt hi hl
    refine ⟨m', l₁, l', _, rfl, ?_, rfl, hrep, ?_, hlist, hrest, hother⟩
    · simp only [visitor, hremove, if_true, heq, Option.map_some]
      rfl
    · simp [Visit.step, entryAt, hremove, hmap]

/-- The loop over a list calls its function for one record after the other. -/
theorem traverseChain (g : List UInt8 → List UInt8 → σ → Verdict σ) (s : σ) (count : ℕ)
    (hi : i < t.hashSize) {fuel recPtr : ℕ} (hl : l (i + 1) = l₁ ++ l₂)
    (hlink : Linked (fun p => (recAt m p).next) recPtr l₂) (hfuel : l₂.length ≤ fuel) :
    ∃ m' l' v, v = (l₂.map (entryAt m)).foldl (Visit.step g) ⟨s, mapOf t m l, count, false⟩ ∧
      Tdb.traverseChain (visitor g) fuel t s count recPtr =
        some (t.put m' t.mapSize, v.state, some (v.count, v.stopped)) ∧
      Rep (t.put m' t.mapSize) hd m' loose l' ∧ mapOf t m' l' = v.table ∧
      ∀ j, i < j → j < t.hashSize → l' (j + 1) = l (j + 1) ∧
        ∀ p ∈ l (j + 1), blockAt m' p = blockAt m p := by
  induction l₂ generalizing t m l l₁ s count fuel recPtr with
  | nil =>
    obtain rfl : recPtr = 0 := hlink
    refine ⟨m, l, _, rfl, ?_, ?_, rfl, fun _ _ _ => ⟨rfl, fun _ _ => rfl⟩⟩
    · rw [Context.put_self h.image]
      cases fuel <;> rfl
    · rwa [Context.put_self h.image]
  | cons o l₂ ih =>
    obtain ⟨rfl, ho0, hlink⟩ := hlink
    obtain ⟨fuel, rfl⟩ := Nat.exists_eq_succ_of_ne_zero (Nat.ne_of_gt (Nat.lt_of_lt_of_le
      (Nat.succ_pos l₂.length) hfuel))
    obtain ⟨k, rfl⟩ := Nat.exists_eq_succ_of_ne_zero ho0
    have ho : k + 1 ∈ l (i + 1) := by
      rw [hl]
      exact List.mem_append_right _ List.mem_cons_self
    obtain ⟨m₁, l₃, l₁', v, hv, hvisit, hcount, hrep, hmap, hlist, hrest, hother⟩ :=
      h.visitor_eq g s count hi hl
    have hkey : ((blockAt m (k + 1)).key ++ (blockAt m (k + 1)).data).take (recAt m (k + 1)).keyLen =
        (blockAt m (k + 1)).key := List.take_left' (h.entry hi ho).length_key
    have hdata : ((blockAt m (k + 1)).key ++ (blockAt m (k + 1)).data).drop (recAt m (k + 1)).keyLen =
        (blockAt m (k + 1)).data := List.drop_left' (h.entry hi ho).length_key
    rw [List.map_cons, List.foldl_cons, ← hv, Tdb.traverseChain, h.recRead hi ho]
    simp only [h.readEntry hi ho, hkey, hdata, hvisit]
    cases hstop : v.stopped with
    | true =>
      refine ⟨m₁, l₁', v, (Visit.foldl_stopped hstop _).symm, ?_, hrep, hmap, hother⟩
      rw [hcount, hstop]
    | false =>
      have hlink' : Linked (fun p => (recAt m₁ p).next) (recAt m (k + 1)).next l₂ :=
        hlink.congr fun p hp => congrArg (fun b => b.head.next) (hrest p hp)
      obtain ⟨m₂, l₂', w, hw, hloop, hrep₂, hmap₂, hother₂⟩ :=
        ih hrep v.state (count + 1) hi hlist hlink' (Nat.le_of_succ_le_succ hfuel)
      have hstart : (⟨v.state, mapOf (t.put m₁ t.mapSize) m₁ l₁', count + 1, false⟩ : Visit σ) = v := by
        rw [show mapOf (t.put m₁ t.mapSize) m₁ l₁' = v.table from hmap, ← hcount, ← hstop]
      have hentries : l₂.map (entryAt m₁) = l₂.map (entryAt m) :=
        List.map_congr_left fun p hp => by rw [entryAt, hrest p hp, entryAt]
      rw [hstart, hentries] at hw
      refine ⟨m₂, l₂', w, hw, hloop, hrep₂, hmap₂, fun j hij hj => ?_⟩
      obtain ⟨hl₁, hb₁⟩ := hother j hij hj
      obtain ⟨hl₂, hb₂⟩ := hother₂ j hij hj
      exact ⟨hl₂.trans hl₁, fun p hp => (hb₂ p (hl₁ ▸ hp)).trans (hb₁ p hp)⟩

/-- The loop over the lists -/
theorem traverseLists (g : List UInt8 → List UInt8 → σ → Verdict σ) (s : σ) (count : ℕ) {a n : ℕ}
    (hn : a + n = t.hashSize) :
    ∃ m' l' v, v = (entriesFrom m l a n).foldl (Visit.step g) ⟨s, mapOf t m l, count, false⟩ ∧
      Tdb.traverseLists (visitor g) n a t s count = some (t.put m' t.mapSize, v.state, some v.count) ∧
      Rep (t.put m' t.mapSize) hd m' loose l' ∧ mapOf t m' l' = v.table := by
  induction n generalizing t m l s count a with
  | zero =>
    refine ⟨m, l, _, rfl, ?_, ?_, rfl⟩
    · rw [Context.put_self h.image]
      rfl
    · rwa [Context.put_self h.image]
  | succ n ih =>
    have ha : a < t.hashSize := by omega
    have hbucket : bucket t a = a := Nat.mod_eq_of_lt ha
    have hlock := h.lock (a + 1)
    have ha' : a < (tdbLock t (a + 1)).hashSize := by rwa [tdbLock_hashSize]
    obtain ⟨m₁, l₁, v, hv, hchain, hrep, hmap, hother⟩ := hlock.traverseChain g s count ha'
      (show l (a + 1) = [] ++ l (a + 1) from rfl) (hlock.linked (Nat.succ_le_of_lt ha'))
      (h.wf.length_le (Nat.succ_le_of_lt ha))
    rw [tdbLock_hashSize] at hother
    rw [tdbLock_mapSize] at hrep hchain
    rw [lock_mapOf] at hmap hv
    have hwith : withLock (a + 1) t (traverseBody (visitor g) a s count) =
        some (t.put m₁ t.mapSize, v.state, some (v.count, v.stopped)) := by
      refine withLock_put (Nat.succ_le_of_lt ha) ?_
      rw [traverseBody, tdbHashTop_eq, bucket_lock, hbucket, hlock.ofsRead_top (Nat.succ_le_of_lt ha')]
      show Tdb.traverseChain _ (tdbLock t (a + 1)).mapSize _ _ _ _ = _
      rw [tdbLock_mapSize]
      exact hchain
    rw [entriesFrom_succ, List.foldl_append, ← hv, Tdb.traverseLists, hbucket]
    simp only [Option.bind_eq_bind, hwith, Option.bind_some]
    cases hstop : v.stopped with
    | true => exact ⟨m₁, l₁, v, (Visit.foldl_stopped hstop _).symm, rfl, hrep.of_lock, hmap⟩
    | false =>
      obtain ⟨m₂, l₂, w, hw, hloop, hrep₂, hmap₂⟩ :=
        ih hrep.of_lock v.state v.count (show a + 1 + n = t.hashSize by omega)
      have hstart : (⟨v.state, mapOf (t.put m₁ t.mapSize) m₁ l₁, v.count, false⟩ : Visit σ) = v := by
        rw [show mapOf (t.put m₁ t.mapSize) m₁ l₁ = v.table from hmap, ← hstop]
      have hentries : entriesFrom m₁ l₁ (a + 1) n = entriesFrom m l (a + 1) n :=
        entriesFrom_congr fun j hj hlt => hother j hj (by omega)
      rw [hstart, hentries] at hw
      exact ⟨m₂, l₂, w, hw, hloop, hrep₂, hmap₂⟩

/-! ### Keys -/

theorem keyRead (hi : i < t.hashSize) (ho : o ∈ l (i + 1)) :
    Tdb.keyRead t o = some (blockAt m o).key := by
  rw [Tdb.keyRead, h.recRead hi ho]
  exact h.readKey hi ho

/-- The top of a bucket, and what it leads to -/
theorem top_cases (hi : i < t.hashSize) :
    l (i + 1) = [] ∧ m.word (topAt (i + 1)) = 0 ∨
      ∃ k l₂, l (i + 1) = (k + 1) :: l₂ ∧ m.word (topAt (i + 1)) = k + 1 := by
  have hlink := h.linked (Nat.succ_le_of_lt hi)
  cases hl : l (i + 1) with
  | nil =>
    rw [hl] at hlink
    exact .inl ⟨rfl, hlink⟩
  | cons o l₂ =>
    rw [hl] at hlink
    obtain ⟨k, rfl⟩ := Nat.exists_eq_succ_of_ne_zero hlink.2.1
    exact .inr ⟨k, l₂, rfl, hlink.1⟩

/-- The loop of `tdb_firstkey` stops at the first bucket with a record. -/
theorem firstkeyLoop {a n : ℕ} (hn : a + n = t.hashSize) :
    Tdb.firstkeyLoop n a t = (t, ((entriesFrom m l a n).map Prod.fst).head?) := by
  induction n generalizing a with
  | zero => rfl
  | succ n ih =>
    have ha : a < t.hashSize := by omega
    have ha' : a < (tdbLock t (a + 1)).hashSize := by rwa [tdbLock_hashSize]
    have hbucket : bucket t a = a := Nat.mod_eq_of_lt ha
    have hlock := h.lock (a + 1)
    rw [Tdb.firstkeyLoop, hbucket]
    simp only [tdbHashTop_eq, bucket_lock, hbucket, hlock.ofsRead_top (Nat.succ_le_of_lt ha')]
    obtain ⟨hl, htop⟩ | ⟨k, l₂, hl, htop⟩ := h.top_cases ha
    · rw [htop, entriesFrom_succ, hl, unlock_lock (Nat.succ_le_of_lt ha)]
      exact ih (by omega)
    · have ho : k + 1 ∈ l (a + 1) := by
        rw [hl]
        exact List.mem_cons_self
      rw [htop, entriesFrom_succ, hl]
      show (tdbUnlock _ _, Tdb.keyRead _ _) = _
      rw [unlock_lock (Nat.succ_le_of_lt ha), hlock.keyRead ha' ho]
      rfl

/-- The loop of `tdb_nextkey` goes on to the next record, or to the next bucket with one, which is not the
last. -/
theorem nextkeyLoop {n b recPtr : ℕ} (hb : b < t.hashSize) (hn : t.hashSize ≤ n + b)
    (hl : ∀ o ∈ l₂, o ∈ l (b + 1)) (hlink : Linked (fun p => (recAt m p).next) recPtr l₂) :
    Tdb.nextkeyLoop n recPtr b (tdbLock t (b + 1)) =
      (t, ((l₂.map (entryAt m) ++ entriesFrom m l (b + 1) (t.hashSize - 2 - b)).map Prod.fst).head?) := by
  have hunlock := unlock_lock (t := t) (Nat.succ_le_of_lt hb)
  induction n generalizing b recPtr l₂ with
  | zero => omega
  | succ n ih =>
    cases l₂ with
    | cons o l₂ =>
      obtain ⟨rfl, ho, -⟩ := hlink
      obtain ⟨k, rfl⟩ := Nat.exists_eq_succ_of_ne_zero ho
      have hkey := (h.lock (b + 1)).keyRead (by rwa [tdbLock_hashSize]) (hl _ List.mem_cons_self)
      show (tdbUnlock _ _, Tdb.keyRead _ _) = _
      rw [hunlock, hkey]
      rfl
    | nil =>
      obtain rfl : recPtr = 0 := hlink
      have hstart := h.start_le
      have hsize := h.size_lt
      rw [dataStart] at hstart
      have hsub : sub32 t.hashSize 1 = t.hashSize - 1 := sub32_eq (by omega) (by omega)
      rw [Tdb.nextkeyLoop, hunlock, hsub, List.map_nil, List.nil_append]
      by_cases hlast : b + 1 ≥ t.hashSize - 1
      · rw [if_pos hlast, show t.hashSize - 2 - b = 0 by omega]
        rfl
      · have hb' : b + 1 < (tdbLock t (b + 1 + 1)).hashSize := by
          rw [tdbLock_hashSize]
          omega
        have hbucket : bucket t (b + 1) = b + 1 := Nat.mod_eq_of_lt (by omega)
        have htop := (h.lock (b + 1 + 1)).ofsRead_top (Nat.succ_le_of_lt hb')
        simp only [if_neg hlast, tdbHashTop_eq, bucket_lock, hbucket, htop]
        rw [show t.hashSize - 2 - b = t.hashSize - 2 - (b + 1) + 1 by omega, entriesFrom_succ]
        exact ih (by omega) (by omega) (fun _ ho => ho) (h.linked (by omega))
          (unlock_lock (show b + 1 + 1 ≤ t.hashSize by omega))

/-- `tdb_nextkey` -/
theorem nextkey {b : ℕ} (hb : b < t.hashSize) (hl : l (b + 1) = l₁ ++ o :: l₂) :
    tdbNextkey t (blockAt m o).key = some (t,
      ((l₂.map (entryAt m) ++ entriesFrom m l (b + 1) (t.hashSize - 2 - b)).map Prod.fst).head?) := by
  have ho : o ∈ l (b + 1) := by
    rw [hl]
    exact List.mem_append_right _ List.mem_cons_self
  have hbucket : bucket t (tdbHash (blockAt m o).key) = b := (h.entry hb ho).bucket
  have hfind := h.find_lock (blockAt m o).key
  have hlink := h.linked (Nat.succ_le_of_lt hb)
  rw [hl] at hlink
  rw [hbucket, h.find?_eq hb ho] at hfind
  rw [tdbNextkey, hbucket, hfind]
  refine congrArg some ?_
  show Tdb.nextkeyLoop (tdbLock t (b + 1)).hashSize (recAt m o).next b _ = _
  rw [tdbLock_hashSize]
  refine h.nextkeyLoop hb (Nat.le_add_right _ _) (fun p hp => ?_) hlink.tail
  rw [hl]
  exact List.mem_append_right _ (List.mem_cons_of_mem _ hp)

/-- Among the keys of some buckets that are followed by the last one, or are that, `tdb_nextkey` comes by
one after the other. -/
theorem nextkey_order {a n : ℕ} (hle : a + n ≤ t.hashSize)
    (hn : ∀ b, a ≤ b → b < a + n → n = (b - a) + ((t.hashSize - 2 - b) + 1)) {A B : List (List UInt8)}
    {k : List UInt8} (hks : (entriesFrom m l a n).map Prod.fst = A ++ k :: B) :
    tdbNextkey t k = some (t, B.head?) := by
  have hnodup := h.nodup_entriesFrom hle
  have hk : k ∈ (entriesFrom m l a n).map Prod.fst := by
    rw [hks]
    exact List.mem_append_right _ List.mem_cons_self
  obtain ⟨⟨k, d⟩, he, rfl⟩ := List.mem_map.mp hk
  obtain ⟨hd, hab, hbn⟩ := (h.mem_entriesFrom hle).mp he
  obtain ⟨o, ho, hkey, -⟩ := (Layout.content_eq_some_iff h.wf).mp hd
  replace hkey : (blockAt m o).key = k := hkey
  subst hkey
  obtain ⟨b, hb⟩ : ∃ b, b = bucket t (tdbHash (blockAt m o).key) := ⟨_, rfl⟩
  rw [← hb] at hab hbn
  obtain ⟨l₁, l₂, hl⟩ := List.append_of_mem (show o ∈ l (b + 1) from hb ▸ ho)
  have hsplit : (entriesFrom m l a n).map Prod.fst =
      ((entriesFrom m l a (b - a) ++ l₁.map (entryAt m)).map Prod.fst) ++ (blockAt m o).key ::
        ((l₂.map (entryAt m) ++ entriesFrom m l (b + 1) (t.hashSize - 2 - b)).map Prod.fst) := by
    rw [hn b hab hbn, entriesFrom_add, show a + (b - a) = b by omega, entriesFrom_succ, hl]
    simp [entryAt]
  rw [hks] at hnodup
  obtain ⟨-, hn₂, hdisj⟩ := List.nodup_append.mp hnodup
  obtain ⟨-, -, hB⟩ := (List.append_cons_inj_of_notMem
    (fun hin => absurd rfl (hdisj _ hin _ List.mem_cons_self)) (List.nodup_cons.mp hn₂).1).mp
      (hks.symm.trans hsplit)
  rw [h.nextkey (show b < t.hashSize by omega) hl, hB]

end Rep

/-- `tdb_traverse` calls its function for each entry of the table once, in some order, until it is told to
stop, and counts them. What the function deletes is gone from the table then. -/
def Traverses (t : Context) (f : Table) : Prop :=
  ∃ es : List (List UInt8 × List UInt8), (es.map Prod.fst).Nodup ∧ (∀ k d, (k, d) ∈ es ↔ f k = some d) ∧
    ∀ (σ : Type) (g : List UInt8 → List UInt8 → σ → Verdict σ) (s : σ), ∃ t' v,
      v = es.foldl (Visit.step g) ⟨s, f, 0, false⟩ ∧
      tdbTraverse t (visitor g) s = some (t', v.state, some v.count) ∧ Holds t' v.table

/-- `tdb_firstkey`, and then `tdb_nextkey` with each key that was got, come by the keys `ks`, one after the
other and none of them twice. -/
def Iterates (t : Context) (ks : List (List UInt8)) : Prop :=
  ks.Nodup ∧ tdbFirstkey t = (t, ks.head?) ∧
    ∀ A k B, ks = A ++ k :: B → tdbNextkey t k = some (t, B.head?)

/-- A traversal may delete the record that it stands on. -/
theorem Holds.traverses (h : Holds t f) : Traverses t f := by
  obtain ⟨hd, m, l, hrep, rfl, hlocked, hhead⟩ := h
  have hall : 0 + t.hashSize = t.hashSize := Nat.zero_add _
  refine ⟨entriesFrom m l 0 t.hashSize, hrep.nodup_entriesFrom hall.le, fun k d => ?_, fun σ g s => ?_⟩
  · rw [hrep.mem_entriesFrom hall.le, hall]
    exact and_iff_left ⟨Nat.zero_le _, hrep.bucket_lt _⟩
  · obtain ⟨m', l', v, hv, heq, hrep', hmap⟩ := hrep.traverseLists g s 0 hall
    exact ⟨_, v, hv, heq, Rep.holds_put hlocked hhead hrep' hmap⟩

/-- The keys of the last bucket are left out, unless there are no others. -/
theorem Holds.iterates (h : Holds t f) : ∃ ks, Iterates t ks ∧
    ∀ k, k ∈ ks ↔ f k ≠ none ∧ (bucket t (tdbHash k) + 1 < t.hashSize ∨
      ∀ k', f k' ≠ none → bucket t (tdbHash k') + 1 = t.hashSize) := by
  obtain ⟨hd, m, l, hrep, rfl, -, -⟩ := h
  have hpos := hrep.hash_pos
  have hall : 0 + t.hashSize = t.hashSize := Nat.zero_add _
  have hmem : ∀ {a n : ℕ}, a + n ≤ t.hashSize → ∀ k, k ∈ (entriesFrom m l a n).map Prod.fst ↔
      mapOf t m l k ≠ none ∧ a ≤ bucket t (tdbHash k) ∧ bucket t (tdbHash k) < a + n := by
    intro a n hn k
    rw [List.mem_map, Option.ne_none_iff_exists']
    constructor
    · rintro ⟨⟨k, d⟩, he, rfl⟩
      exact ⟨⟨d, ((hrep.mem_entriesFrom hn).mp he).1⟩, ((hrep.mem_entriesFrom hn).mp he).2⟩
    · rintro ⟨⟨d, hd⟩, hb⟩
      exact ⟨(k, d), (hrep.mem_entriesFrom hn).mpr ⟨hd, hb⟩, rfl⟩
  have hfirst : tdbFirstkey t = (t, ((entriesFrom m l 0 (t.hashSize - 1) ++
      entriesFrom m l (t.hashSize - 1) 1).map Prod.fst).head?) := by
    have hjoin := entriesFrom_add (m := m) (l := l) 0 (t.hashSize - 1) 1
    rw [Nat.sub_add_cancel hpos, Nat.zero_add] at hjoin
    rw [← hjoin]
    exact hrep.firstkeyLoop hall
  by_cases hfront : entriesFrom m l 0 (t.hashSize - 1) = []
  · -- all keys are in the last bucket
    have hlast : ∀ k, mapOf t m l k ≠ none → bucket t (tdbHash k) + 1 = t.hashSize := fun k hk => by
      have hlt := hrep.bucket_lt (tdbHash k)
      by_contra hne
      have hin := (hmem (a := 0) (n := t.hashSize - 1) (by omega) k).mpr ⟨hk, by omega, by omega⟩
      rw [hfront] at hin
      exact List.not_mem_nil hin
    rw [hfront, List.nil_append] at hfirst
    refine ⟨_, ⟨hrep.nodup_entriesFrom (by omega), hfirst, fun A k B hks =>
      hrep.nextkey_order (by omega) (fun b hb hlt => by omega) hks⟩, fun k => ?_⟩
    rw [hmem (by omega)]
    constructor
    · exact fun hk => ⟨hk.1, .inr hlast⟩
    · intro hk
      have hb := hlast k hk.1
      exact ⟨hk.1, by omega, by omega⟩
  · obtain ⟨⟨k₀, d₀⟩, he₀⟩ := List.exists_mem_of_ne_nil _ hfront
    obtain ⟨hk₀, -, hb₀⟩ := (hrep.mem_entriesFrom (by omega)).mp he₀
    refine ⟨_, ⟨hrep.nodup_entriesFrom (by omega), ?_, fun A k B hks =>
      hrep.nextkey_order (a := 0) (n := t.hashSize - 1) (by omega) (fun b hb hlt => by omega) hks⟩,
      fun k => ?_⟩
    rotate_left
    · rw [hmem (by omega)]
      constructor
      · exact fun hk => ⟨hk.1, .inl (by omega)⟩
      · rintro ⟨hk, hb | hlast⟩
        · exact ⟨hk, by omega, by omega⟩
        · have hb := hlast k₀ (by rw [hk₀]; exact Option.some_ne_none _)
          omega
    · rw [hfirst, List.map_append, List.head?_append_of_ne_nil]
      simpa using hfront

/-! ## After requests -/

section

variable {n : ℕ} {rs : List (Host × Request)}

/-- Whatever a database has been asked, `tdb_traverse` calls its function for each entry that there is, once,
though the function may delete the entry it is called for, and ends where the function wants it to. -/
theorem traverse_visits (hnew : New n t) (hn : dataStart (openHashSize n) < 2 ^ 32)
    (hfits : Along serveStep Request.Fits t rs) : ∃ t' as f, serveAll t rs = some (t', as) ∧
      Tells t (fun _ => none) rs as f ∧ Traverses t' f := by
  obtain ⟨t', as, f, hall, htells, h⟩ := serveAll_tells (holds_new hnew hn) hfits
  exact ⟨t', as, f, hall, htells, h.traverses⟩

theorem traverse_visits_memory : ∃ t' as f, serveAll (tdbOpenMemory 2) fourKeys = some (t', as) ∧
    Tells (tdbOpenMemory 2) (fun _ => none) fourKeys as f ∧ Traverses t' f :=
  traverse_visits .memory (by decide) fits_fourKeys

/-- Whatever a database has been asked, `tdb_firstkey` and `tdb_nextkey` come by keys that it has, each of
them once. Those of the last bucket are left out, unless there are no others. -/
theorem nextkey_leaves_out (hnew : New n t) (hn : dataStart (openHashSize n) < 2 ^ 32)
    (hfits : Along serveStep Request.Fits t rs) : ∃ t' as f ks, serveAll t rs = some (t', as) ∧
      Tells t (fun _ => none) rs as f ∧ Iterates t' ks ∧
      ∀ k, k ∈ ks ↔ f k ≠ none ∧ (bucket t' (tdbHash k) + 1 < t'.hashSize ∨
        ∀ k', f k' ≠ none → bucket t' (tdbHash k') + 1 = t'.hashSize) := by
  obtain ⟨t', as, f, hall, htells, h⟩ := serveAll_tells (holds_new hnew hn) hfits
  obtain ⟨ks, hks, hmem⟩ := h.iterates
  exact ⟨t', as, f, ks, hall, htells, hks, hmem⟩

theorem nextkey_leaves_out_memory : ∃ t' as f ks,
    serveAll (tdbOpenMemory 2) fourKeys = some (t', as) ∧
      Tells (tdbOpenMemory 2) (fun _ => none) fourKeys as f ∧ Iterates t' ks ∧
      ∀ k, k ∈ ks ↔ f k ≠ none ∧ (bucket t' (tdbHash k) + 1 < t'.hashSize ∨
        ∀ k', f k' ≠ none → bucket t' (tdbHash k') + 1 = t'.hashSize) :=
  nextkey_leaves_out .memory (by decide) fits_fourKeys

end

end LinuxSna.Tdb
