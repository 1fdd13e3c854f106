import LinuxSna.Framework.Run
import LinuxSna.Proof.Asuite.Tdb.Records

/-!
# A database over its requests

Whatever a database is asked, it answers what the map would that it is for.

* `holds_new`: a new database is empty;
* `serve_answers`: one request;
* `serveAll_tells`: all requests.
-/

namespace LinuxSna.Tdb

open Framework

variable {t t' : Context} {hd m : Image} {l : ℕ → List ℕ} {i n size : ℕ} {host : Host}
  {key dbuf : List UInt8} {f g : Table}

/-- The header of a database file -/
structure Headed (m : Image) (hashSize : ℕ) : Prop where
  magic : m.read 0 10 = tdbMagicFood
  version : m.word 32 = tdbVersion
  hashSize : m.word 36 = hashSize

theorem Headed.congr {m' : Image} (hm : Headed m n) (h : ∀ x < freelistTop, m' x = m x) : Headed m' n where
  magic := (Image.read_congr fun x _ hx => h x (Nat.lt_of_lt_of_le hx (by decide))).trans hm.magic
  version := (Image.word_congr fun x _ hx => h x (Nat.lt_of_lt_of_le hx (by decide))).trans hm.version
  hashSize := (Image.word_congr fun x _ hx => h x (Nat.lt_of_lt_of_le hx (by decide))).trans hm.hashSize

/-- The database maps keys as `f` does. No list is locked, and a file has its header. -/
def Holds (t : Context) (f : Table) : Prop :=
  ∃ hd m l, Rep t hd m [] l ∧ mapOf t m l = f ∧ (t.locked = fun _ => 0) ∧
    (t.inMemory = false → Headed hd t.hashSize)

theorem openHashSize_pos (n : ℕ) : 0 < openHashSize n := by
  rw [openHashSize]
  split
  · decide
  · omega

/-- An image without records -/
theorem holds_empty (hm : t.image = some m) (hsize : t.mapSize = dataStart t.hashSize)
    (hlt : dataStart t.hashSize < 2 ^ 32) (hpos : 0 < t.hashSize) (hzero : ∀ x, freelistTop ≤ x → m x = 0)
    (hlocked : t.locked = fun _ => 0) (hhead : t.inMemory = false → Headed m t.hashSize) :
    Holds t fun _ => none := by
  refine ⟨m, m, fun _ => [], ⟨hm, fun _ _ => rfl, ?_⟩, ?_, hlocked, hhead⟩
  · refine .empty hsize ?_ hpos fun i _ => ?_
    · show t.mapSize < _
      rw [hsize]
      exact hlt
    · show m.word (topAt i) = 0
      have hread : m.read (topAt i) 4 = List.replicate 4 0 := by
        refine List.eq_replicate_iff.mpr ⟨Image.length_read _ _ _, fun b hb => ?_⟩
        obtain ⟨j, -, rfl⟩ := List.mem_map.mp hb
        exact hzero _ (by rw [topAt]; omega)
      rw [Image.word, hread]
      decide
  · funext k
    rfl

theorem length_newDatabase (n : ℕ) : (tdbNewDatabase n).length = dataStart n := by
  simp only [tdbNewDatabase, tdbMagicFood, dataStart, freelistTop, List.length_append,
    List.length_replicate, length_bytesOf, List.length_cons, List.length_nil]
  omega

/-- What has been written to a new file -/
theorem headed_new (n : ℕ) (hn : n < 2 ^ 32) :
    Headed (Image.write (fun _ => 0) 0 (tdbNewDatabase n)) n ∧
      ∀ x, freelistTop ≤ x → Image.write (fun _ => 0) 0 (tdbNewDatabase n) x = 0 := by
  have hlen := length_newDatabase n
  have hpart : ∀ b k, b + k ≤ dataStart n →
      (Image.write (fun _ => 0) 0 (tdbNewDatabase n)).read b k = ((tdbNewDatabase n).drop b).take k :=
    fun b k hle => by
      have hread := Image.read_write_part (a := 0) (fun _ => 0) (hlen ▸ hle)
      rwa [Nat.zero_add] at hread
  have hstart : 44 ≤ dataStart n := by
    rw [dataStart, freelistTop]
    omega
  refine ⟨⟨?_, ?_, ?_⟩, fun x hx => ?_⟩
  · rw [hpart _ _ (by omega)]
    rfl
  · rw [Image.word, hpart _ _ (by omega)]
    simp [tdbNewDatabase, tdbMagicFood, value_bytesOf, tdbVersion]
  · rw [Image.word, hpart _ _ (by omega)]
    simp [tdbNewDatabase, tdbMagicFood, value_bytesOf]
    omega
  · rw [Image.write]
    split
    · -- behind the header there are only zeros
      have hparts : tdbNewDatabase n = (tdbMagicFood ++ (List.replicate 22 0 ++ (bytesOf 4 tdbVersion ++
          bytesOf 4 n))) ++ List.replicate (4 * (n + 1)) 0 := by
        simp only [tdbNewDatabase, List.append_assoc]
      have hfront : (tdbMagicFood ++ (List.replicate 22 0 ++ (bytesOf 4 tdbVersion ++
          bytesOf 4 n))).length = freelistTop := by
        simp [tdbMagicFood, freelistTop]
      rw [Nat.sub_zero, hparts, List.getD_append_right _ _ _ _ (by rw [hfront]; exact hx)]
      simp [List.getD_eq_getElem?_getD, List.getElem?_replicate]
      split <;> rfl
    · rfl

/-- A new database is empty. -/
theorem holds_new (hnew : New n t) (hn : dataStart (openHashSize n) < 2 ^ 32) :
    Holds t fun _ => none := by
  have hlt : openHashSize n < 2 ^ 32 := by
    rw [dataStart, freelistTop] at hn
    omega
  cases hnew with
  | memory =>
    exact holds_empty rfl rfl hn (openHashSize_pos n) (fun _ _ => rfl) rfl fun h => by cases h
  | @file f clearIfFirst _ hfile hopen =>
    obtain ⟨hhead, hzero⟩ := headed_new _ hlt
    have hinvalid : validHeader (if clearIfFirst then ⟨fun _ => 0, 0⟩ else f) = false := by
      rcases hfile with rfl | hfile
      · rfl
      · cases clearIfFirst
        · exact hfile
        · rfl
    rw [tdbOpenFile] at hopen
    simp only [hinvalid, Bool.false_eq_true, if_false, if_true, Option.some.injEq] at hopen
    subst hopen
    exact holds_empty rfl (length_newDatabase _) hn (openHashSize_pos n) hzero rfl fun _ => hhead

/-! ## Requests -/

section

variable (hrep : Rep t hd m [] l) (hlocked : t.locked = fun _ => 0)
  (hhead : t.inMemory = false → Headed hd t.hashSize)
include hrep hlocked hhead

theorem Rep.holds : Holds t (mapOf t m l) := ⟨hd, m, l, hrep, rfl, hlocked, hhead⟩

omit hrep in
theorem Rep.holds_put {m' : Image} {l' : ℕ → List ℕ} (h : Rep (t.put m' size) hd m' [] l')
    (hmap : mapOf (t.put m' size) m' l' = g) : Holds (t.put m' size) g :=
  ⟨hd, m', l', h, hmap, hlocked, hhead⟩

omit hlocked hhead in
/-- There is room where a free record or the host has it. -/
theorem Rep.hasRoom_iff {room length : ℕ} : t.HasRoom room length ↔
    (layoutOf m t.mapSize t.hashSize).HasFree l length ∨ t.grown (length + recSize) ≤ room := by
  rw [Context.HasRoom, or_comm]
  refine or_congr_left ⟨?_, fun ⟨o, ho, hle⟩ => ⟨m, l 0, hrep.image, hrep.linked (Nat.zero_le _), o, ho, hle⟩⟩
  rintro ⟨m', free, hm, hlink, o, ho, hle⟩
  obtain rfl : m = m' := Option.some.inj (hrep.image.symm.trans hm)
  rw [hlink.unique (hrep.linked (Nat.zero_le _))] at ho
  exact ⟨o, ho, hle⟩

/-- A store puts the data under the key, or finds it, or the disk is full. -/
theorem Rep.store_answers (flag : ℕ) (hfits : Request.Fits t (host, .store key dbuf flag)) :
    ∃ t' a f', serve host t (.store key dbuf flag) = some (t', a) ∧
      Answers t host (mapOf t m l) (.store key dbuf flag) a f' ∧
      Holds t' f' ∧ t'.inMemory = t.inMemory := by
  by_cases hthere : flag = tdbInsert ∧ mapOf t m l key ≠ none
  · obtain ⟨rfl, hsome⟩ := hthere
    refine ⟨t, _, _, ?_, .found hsome, hrep.holds hlocked hhead, rfl⟩
    rw [serve, hrep.store_of_exists hsome]
    rfl
  have hnew : flag = tdbInsert → mapOf t m l key = none := fun hflag => by
    by_contra hsome
    exact hthere ⟨hflag, hsome⟩
  by_cases hin : flag ≠ tdbInsert ∧ (layoutOf m t.mapSize t.hashSize).InPlace l key dbuf
  · obtain ⟨m', heq, hrep', hmap⟩ := hrep.store_inPlace host hin.1 hin.2
    refine ⟨_, _, _, ?_, .stored hnew, Rep.holds_put hlocked hhead hrep' hmap, rfl⟩
    rw [serve, heq]
    rfl
  have hstep : if flag = tdbInsert then mapOf t m l key = none
      else ¬(layoutOf m t.mapSize t.hashSize).InPlace l key dbuf := by
    by_cases hflag : flag = tdbInsert
    · rw [if_pos hflag]
      exact hnew hflag
    · rw [if_neg hflag]
      exact fun hi => hin ⟨hflag, hi⟩
  obtain ⟨hsmall, hmemory⟩ := hfits
  obtain ⟨hroom, hfull⟩ := hrep.store host hsmall hstep
  rw [← hrep.hasRoom_iff] at hroom hfull
  by_cases hspace : t.HasRoom host.room (key.length + dbuf.length)
  · obtain ⟨m', size, l', heq, hrep', hmap⟩ := hroom hspace
    refine ⟨_, _, _, ?_, .stored hnew, Rep.holds_put hlocked hhead hrep' hmap, rfl⟩
    rw [serve, heq]
    rfl
  · have hfile : t.inMemory = false := by
      by_contra hmem
      exact hspace (hmemory (by simpa using hmem))
    have hsame : t.refused (key.length + dbuf.length + recSize) = t := by
      rw [Context.refused, hfile]
      rfl
    refine ⟨t, _, _, ?_, (.full hfile hspace), hrep.holds hlocked hhead, rfl⟩
    rw [serve, hfull hspace, hsame]
    rfl

/-- An update that fails had no room for the data in the record. -/
theorem Rep.update_answers :
    ∃ t' a f', serve host t (.update key dbuf) = some (t', a) ∧
      Answers t host (mapOf t m l) (.update key dbuf) a f' ∧
      Holds t' f' ∧ t'.inMemory = t.inMemory := by
  by_cases hin : (layoutOf m t.mapSize t.hashSize).InPlace l key dbuf
  · obtain ⟨m', heq, hrep', hmap⟩ := hrep.update hin
    refine ⟨_, _, _, ?_, .updated ?_, Rep.holds_put hlocked hhead hrep' hmap, rfl⟩
    · rw [serve, heq]
      rfl
    · obtain ⟨o, ho, hk, -⟩ := hin
      exact fun hnone => mapOf_eq_none_iff.mp hnone o ho hk
  · refine ⟨t, _, _, ?_, .tooLong fun old hold => ?_, hrep.holds hlocked hhead, rfl⟩
    · rw [serve, hrep.update_of_not hin]
      rfl
    · obtain ⟨o, ho, rfl, rfl⟩ := (Layout.content_eq_some_iff hrep.wf).mp hold
      have he := hrep.entry (hrep.bucket_lt _) ho
      by_contra hle
      refine hin ⟨o, ho, rfl, ?_⟩
      have hlen : ((layoutOf m t.mapSize t.hashSize).block o).data.length = _ := he.length_data
      have hkey : ((layoutOf m t.mapSize t.hashSize).block o).key.length = _ := he.length_key
      have hfit : (recAt m o).keyLen + (recAt m o).dataLen ≤ (recAt m o).recLen := he.fits
      rw [blockAt_head] at hlen hkey
      show _ ≤ (recAt m o).recLen
      omega

theorem Rep.delete_answers :
    ∃ t' a f', serve host t (.delete key) = some (t', a) ∧
      Answers t host (mapOf t m l) (.delete key) a f' ∧ Holds t' f' ∧
      t'.inMemory = t.inMemory := by
  by_cases hnone : mapOf t m l key = none
  · refine ⟨t, _, _, ?_, .deleted, ?_, rfl⟩
    · rw [serve, hrep.delete_of_none hnone, hnone]
      rfl
    · rw [← hnone, Function.update_eq_self]
      exact hrep.holds hlocked hhead
  · obtain ⟨m', _, _, _, -, -, heq, hrep', hmap, -⟩ := hrep.delete hnone
    refine ⟨_, _, _, ?_, .deleted, Rep.holds_put hlocked hhead hrep' hmap, rfl⟩
    rw [serve, heq, Option.isSome_iff_ne_none.mpr hnone]
    rfl

/-- A file that is opened again is as it was. -/
theorem Rep.reopen_answers {hashSize : ℕ} {clearIfFirst : Bool}
    (hfits : dataStart (openHashSize hashSize) < 2 ^ 32) :
    ∃ t' a f', serve host t (.reopen hashSize clearIfFirst) = some (t', a) ∧
      Answers t host (mapOf t m l) (.reopen hashSize clearIfFirst) a f' ∧ Holds t' f' ∧
      t'.inMemory = t.inMemory := by
  by_cases hmem : t.inMemory = true
  · refine ⟨tdbOpenMemory hashSize, _, _, ?_, .reopened, ?_, hmem.symm⟩
    · rw [serve, hmem]
      rfl
    · rw [hmem]
      exact holds_new .memory hfits
  · have hfile : t.inMemory = false := by simpa using hmem
    cases hclear : clearIfFirst with
    | true =>
      obtain ⟨t', ht'⟩ : ∃ t', tdbOpenFile ⟨m, t.mapSize⟩ hashSize true true = some t' := ⟨_, rfl⟩
      have hmode : t'.inMemory = false := by
        rw [tdbOpenFile] at ht'
        cases ht'
        rfl
      refine ⟨t', _, _, ?_, .reopened, ?_, hmode.trans hfile.symm⟩
      · rw [serve, hfile, Context.file, hrep.image]
        show Option.map _ (tdbOpenFile ⟨m, t.mapSize⟩ hashSize true true) = _
        rw [ht']
        rfl
      · rw [Bool.or_true]
        exact holds_new (.file (.inl rfl) ht') hfits
    | false =>
      have hvalid := (hhead hfile).congr hrep.header
      have hopen : tdbOpenFile ⟨m, t.mapSize⟩ hashSize false true = some t := by
        have hstart := hrep.start_le
        have hheader : validHeader ⟨m, t.mapSize⟩ = true := by
          have hle : freelistTop ≤ t.mapSize := by
            rw [dataStart] at hstart
            omega
          rw [validHeader, hvalid.magic, hvalid.version, decide_eq_true hle]
          simp
        rw [tdbOpenFile]
        simp only [Bool.false_eq_true, if_false, hheader, if_true]
        rw [hvalid.hashSize, ← hrep.image, ← hfile, ← hlocked]
      refine ⟨t, _, _, ?_, .reopened, ?_, rfl⟩
      · rw [serve, hfile, Context.file, hrep.image]
        show Option.map _ (tdbOpenFile ⟨m, t.mapSize⟩ hashSize false true) = _
        rw [hopen]
        rfl
      · rw [hfile]
        exact hrep.holds hlocked hhead

end

/-- Each request is answered as the map would answer it. -/
theorem serve_answers (h : Holds t f) (r : Request) (hfits : Request.Fits t (host, r)) :
    ∃ t' a f', serve host t r = some (t', a) ∧
      Answers t host f r a f' ∧ Holds t' f' ∧
      t'.inMemory = t.inMemory := by
  obtain ⟨hd, m, l, hrep, rfl, hlocked, hhead⟩ := h
  cases r with
  | store key dbuf flag => exact hrep.store_answers hlocked hhead flag hfits
  | update key dbuf => exact hrep.update_answers hlocked hhead
  | delete key => exact hrep.delete_answers hlocked hhead
  | fetch key =>
    refine ⟨t, _, _, ?_, .fetched, hrep.holds hlocked hhead, rfl⟩
    rw [serve, hrep.fetch]
    rfl
  | contains key =>
    refine ⟨t, _, _, ?_, .contained, hrep.holds hlocked hhead, rfl⟩
    rw [serve, hrep.contains]
    rfl
  | reopen hashSize clearIfFirst => exact hrep.reopen_answers hlocked hhead hfits

/-- And all requests one after the other. -/
theorem serveAll_tells (h : Holds t f) {es : List (Host × Request)}
    (hfits : Along serveStep Request.Fits t es) :
    ∃ t' as f', serveAll t es = some (t', as) ∧ Tells t f es as f' ∧ Holds t' f' := by
  induction es generalizing t f with
  | nil => exact ⟨t, [], f, rfl, ⟨rfl, rfl⟩, h⟩
  | cons e es ih =>
    obtain ⟨t₁, a, f₁, hserve, hanswer, h₁, -⟩ := serve_answers h e.2 hfits.1
    have hstep : serveStep t e = some t₁ := by
      rw [serveStep, hserve]
      rfl
    obtain ⟨t', as, f', hall, htells, h'⟩ := ih h₁ (hfits.2 t₁ hstep)
    refine ⟨t', a :: as, f', ?_, ⟨t₁, a, as, f₁, hstep, rfl, hanswer, htells⟩, h'⟩
    rw [serveAll, hserve]
    simp only [Option.bind_eq_bind, Option.bind_some, hall]

/-- From when it is made on, a database answers as the map of what was stored, in a file also after it was
closed and opened again. -/
theorem database_tells (hnew : New n t) (hn : dataStart (openHashSize n) < 2 ^ 32)
    {es : List (Host × Request)} (hfits : Along serveStep Request.Fits t es) :
    ∃ t' as f', serveAll t es = some (t', as) ∧ Tells t (fun _ => none) es as f' ∧
      (∀ key, tdbFetch t' key = some (t', f' key)) ∧ t'.locked = fun _ => 0 := by
  obtain ⟨t', as, f', hall, htells, hd, m, l, hrep, rfl, hlocked, -⟩ :=
    serveAll_tells (holds_new hnew hn) hfits
  exact ⟨t', as, _, hall, htells, hrep.fetch, hlocked⟩

theorem Request.along_fits {es : List (Host × Request)}
    (h : Along serveStep Request.Grows t es) : Along serveStep Request.Fits t es :=
  along_of_invariant (I := fun _ => True) (fun _ _ _ _ _ _ => trivial) (fun _ _ _ hg => hg.fits) trivial h

/-- Four keys, two for each of two buckets; one is stored again, with longer data, and one is deleted. -/
def fourKeys : List (Host × Request) :=
  [.store [1] [2] 1, .store [2] [5] 1, .store [3] [6] 1, .store [4] [7] 1, .store [1] [2, 3] 1,
    .delete [3]].map fun r => (.withRoom (2 ^ 32), r)

theorem fits_fourKeys : Along serveStep Request.Fits (tdbOpenMemory 2) fourKeys :=
  Request.along_fits (by decide +kernel)

theorem database_tells_memory : ∃ t' as f', serveAll (tdbOpenMemory 2) fourKeys = some (t', as) ∧
    Tells (tdbOpenMemory 2) (fun _ => none) fourKeys as f' ∧
    (∀ key, tdbFetch t' key = some (t', f' key)) ∧ t'.locked = fun _ => 0 :=
  database_tells .memory (by decide) fits_fourKeys

/-! ## Space -/

/-- Whatever it has been asked, each byte of a database behind its tops is in one record, and each record is
on one list: nothing is lost, and nothing is used twice. -/
theorem nothing_lost (hnew : New n t) (hn : dataStart (openHashSize n) < 2 ^ 32)
    {es : List (Host × Request)} (hfits : Along serveStep Request.Fits t es) {as : List Reply}
    (hrun : serveAll t es = some (t', as)) : t'.Filled := by
  obtain ⟨_, _, _, hall, -, hd, m, l, hrep, -⟩ := serveAll_tells (holds_new hnew hn) hfits
  cases hrun.symm.trans hall
  have hmem : ∀ o, o ∈ members (t'.hashSize + 1) [] l ↔ ∃ i ≤ t'.hashSize, o ∈ l i := fun o => by
    simp only [mem_members, List.not_mem_nil, false_or, Nat.lt_succ_iff]
  refine ⟨m, l, hrep.image, fun i hi => ⟨hrep.linked hi, hrep.wf.nodup hi⟩, fun i hi j hj hij o ho => ?_,
    fun x hle hlt => ?_⟩
  · exact notMem_other hrep.wf.packed.nodup (Nat.lt_succ_of_le hi) (Nat.lt_succ_of_le hj) hij ho
  · have hone := hrep.wf.packed.existsUnique ⟨hle, hlt⟩
    refine (existsUnique_congr fun o => ?_).mp hone
    exact and_congr_left' (hmem o)

theorem nothing_lost_memory :
    ∃ t' as, serveAll (tdbOpenMemory 2) fourKeys = some (t', as) ∧ t'.Filled := by
  obtain ⟨t', as, _, hall, -⟩ := serveAll_tells (holds_new .memory (by decide)) fits_fourKeys
  exact ⟨t', as, hall, nothing_lost .memory (by decide) fits_fourKeys hall⟩

/-! ## Growth that is refused -/

section

variable (hlost : t.image = none) (hmode : t.inMemory = true)
include hlost

theorem tdbRead_lost (offset len : ℕ) : tdbRead t offset len = none := by
  rw [tdbRead, hlost]
  split <;> rfl

theorem ofsRead_lost (offset : ℕ) : ofsRead t offset = none := by
  rw [ofsRead, tdbRead_lost hlost]
  rfl

theorem tdbFind_lost (hash : ℕ) : tdbFind t key hash = some none := by
  rw [tdbFind, ofsRead_lost hlost]

theorem lock_lost (i : ℕ) : (tdbLock t i).image = none := tdbLock_image.trans hlost

theorem tdbExists_lost (hpos : 0 < t.hashSize) (key : List UInt8) :
    tdbExists t key = some (t, false) := by
  refine withLock_same (show bucket t _ + 1 ≤ _ from Nat.mod_lt _ hpos) ?_
  rw [tdbFind_lost (lock_lost hlost _)]
  rfl

theorem tdbFetch_lost (hpos : 0 < t.hashSize) (key : List UInt8) : tdbFetch t key = some (t, none) := by
  refine withLock_same (show bucket t _ + 1 ≤ _ from Nat.mod_lt _ hpos) ?_
  rw [tdbFind_lost (lock_lost hlost _)]

theorem tdbUpdate_lost (hpos : 0 < t.hashSize) (key dbuf : List UInt8) :
    tdbUpdate t key dbuf = some (t, false) := by
  refine withLock_same (show bucket t _ + 1 ≤ _ from Nat.mod_lt _ hpos) ?_
  rw [updateBody, tdbFind_lost (lock_lost hlost _)]

theorem tdbDelete_lost (hpos : 0 < t.hashSize) (key : List UInt8) :
    tdbDelete t key = some (t, false) := by
  have hbody : withLock (bucket t (tdbHash key) + 1) t (deleteBody key) = some (t, none) := by
    refine withLock_same (Nat.mod_lt _ hpos) ?_
    rw [deleteBody, ofsRead_lost (lock_lost hlost _)]
  rw [tdbDelete, hbody]
  rfl

theorem tdbStore_lost (hpos : 0 < t.hashSize) (key dbuf : List UInt8) (flag : ℕ) :
    tdbStore host t key dbuf flag = some (t, false) := by
  have halloc : ∀ length, tdbAllocate host t length = some (t, 0) := fun length => by
    refine withLock_same (Nat.zero_le _) ?_
    rw [show 2 ^ 19 = (2 ^ 19 - 1) + 1 by norm_num, allocateBody, ofsRead_lost (lock_lost hlost _)]
  rw [tdbStore]
  by_cases hflag : flag = tdbInsert
  · simp -implicitDefEqProofs [hflag, tdbExists_lost hlost hpos, halloc]
  · simp -implicitDefEqProofs [hflag, tdbUpdate_lost hlost hpos, halloc]

/-- Nothing is found, and nothing can be stored, in memory that is lost. -/
theorem serve_lost (hpos : 0 < t.hashSize) {r : Request} (hr : r.Stays) :
    serve host t r = some (t, r.refusal) := by
  cases r with
  | store key dbuf flag =>
    rw [serve, tdbStore_lost hlost hpos]
    rfl
  | update key dbuf =>
    rw [serve, tdbUpdate_lost hlost hpos]
    rfl
  | delete key =>
    rw [serve, tdbDelete_lost hlost hpos]
    rfl
  | fetch key =>
    rw [serve, tdbFetch_lost hlost hpos]
    rfl
  | contains key =>
    rw [serve, tdbExists_lost hlost hpos]
    rfl
  | reopen => exact absurd hr id

theorem serveAll_lost (hpos : 0 < t.hashSize) {es : List (Host × Request)} (hes : ∀ e ∈ es, e.2.Stays) :
    serveAll t es = some (t, es.map fun e => e.2.refusal) := by
  induction es with
  | nil => rfl
  | cons e es ih =>
    rw [List.forall_mem_cons] at hes
    rw [serveAll, serve_lost hlost hpos hes.1]
    simp only [Option.bind_eq_bind, Option.bind_some, ih hes.2, List.map_cons]

end

/-- A store that does not find its key fails only if there is no room for it. -/
theorem Holds.store_refused (h : Holds t f) {flag : ℕ}
    (hsmall : t.Small (key.length + dbuf.length + recSize)) (hnew : flag = tdbInsert → f key = none)
    (hstore : tdbStore host t key dbuf flag = some (t', false)) :
    ¬t.HasRoom host.room (key.length + dbuf.length) ∧ 0 < t.hashSize ∧
      t' = t.refused (key.length + dbuf.length + recSize) := by
  obtain ⟨hd, m, l, hrep, rfl, -, -⟩ := h
  have hstep : if flag = tdbInsert then mapOf t m l key = none
      else ¬(layoutOf m t.mapSize t.hashSize).InPlace l key dbuf := by
    split
    · exact hnew ‹_›
    · rename_i hflag
      intro hin
      obtain ⟨m', heq, -⟩ := hrep.store_inPlace host hflag hin
      cases heq.symm.trans hstore
  obtain ⟨hspace, hfull⟩ := hrep.store host hsmall hstep
  rw [← hrep.hasRoom_iff] at hspace hfull
  have hnone : ¬t.HasRoom host.room (key.length + dbuf.length) := fun hroom => by
    obtain ⟨m', size, l', heq, -⟩ := hspace hroom
    cases heq.symm.trans hstore
  cases (hfull hnone).symm.trans hstore
  exact ⟨hnone, hrep.hash_pos, rfl⟩

/-- A store fails only if the key is there or there is no room: no free record is long enough, and the
database cannot be made larger. That leaves a file as it was; in memory everything is lost that has been
stored, until the database is closed. -/
theorem refused_store (h : Holds t f) {flag : ℕ} (hsmall : t.Small (key.length + dbuf.length + recSize))
    (hnew : flag = tdbInsert → f key = none) (hstore : tdbStore host t key dbuf flag = some (t', false)) :
    ¬t.HasRoom host.room (key.length + dbuf.length) ∧ (t.inMemory = false → t' = t) ∧
      (t.inMemory = true → ∀ es : List (Host × Request), (∀ e ∈ es, e.2.Stays) →
        serveAll t' es = some (t', es.map fun e => e.2.refusal)) := by
  obtain ⟨hroom, hpos, rfl⟩ := h.store_refused hsmall hnew hstore
  refine ⟨hroom, fun hfile => ?_, fun hmem es hes => ?_⟩
  · rw [Context.refused, hfile]
    rfl
  · rw [Context.refused, if_pos hmem]
    refine serveAll_lost ?_ ?_ hes
    · rfl
    · exact hpos

/-- Two keys in a database that grows by little. -/
def twoKeys : List (Host × Request) :=
  [(.withRoom (2 ^ 32), .store [1] [2] 1), (.withRoom (2 ^ 32), .store [2] [3] 1)]

/-- The data under the first key are lost. -/
theorem refused_store_memory : ∃ t as t', serveAll (tdbOpenMemory 1971) twoKeys = some (t, as) ∧
    (tdbFetch t [1]).map Prod.snd = some (some [2]) ∧
    tdbStore (.withRoom 100) t [3] (List.replicate 300 0) 1 = some (t', false) ∧
    ¬t.HasRoom 100 301 ∧ ∀ es : List (Host × Request), (∀ e ∈ es, e.2.Stays) →
      serveAll t' es = some (t', es.map fun e => e.2.refusal) := by
  have hrun : ((serveAll (tdbOpenMemory 1971) twoKeys).bind fun r =>
      (tdbStore (.withRoom 100) r.1 [3] (List.replicate 300 0) 1).map fun r' =>
        ((tdbFetch r.1 [1]).map Prod.snd, decide (r.1.Small (301 + recSize)), r.1.inMemory, r'.2)) =
      some (some (some [2]), true, true, false) := by decide +kernel
  obtain ⟨⟨t, as⟩, hall, hrest⟩ := Option.bind_eq_some_iff.mp hrun
  obtain ⟨⟨t', _⟩, hstore, heq⟩ := Option.map_eq_some_iff.mp hrest
  simp only [Prod.mk.injEq, decide_eq_true_eq] at heq
  obtain ⟨hfetch, hsmall, hmem, rfl⟩ := heq
  have hfits : Along serveStep Request.Fits (tdbOpenMemory 1971) twoKeys :=
    Request.along_fits (by decide +kernel)
  obtain ⟨_, _, _, hall', -, hholds⟩ := serveAll_tells (holds_new .memory (by decide)) hfits
  cases hall.symm.trans hall'
  have hlength : ([3] : List UInt8).length + (List.replicate 300 (0 : UInt8)).length = 301 := by
    rw [List.length_replicate]
    rfl
  refine ⟨t, as, t', hall, hfetch, hstore, ?_⟩
  generalize List.replicate 300 (0 : UInt8) = dbuf at hstore hlength
  have hlost := refused_store hholds (by rwa [hlength]) (fun h => by cases h) hstore
  rw [hlength] at hlost
  exact ⟨hlost.1, hlost.2.2 hmem⟩

end LinuxSna.Tdb
