import LinuxSna.Framework.Image

/-!
# The database of the name server

`tdb.c`: a table of lists of records in a file or in memory, with a list of free records in front of
the others. Offsets and lengths are 32-bit words, and a function that is given a longer one gets what
is left of it. A process has the file for itself, it may write to it, and `malloc` succeeds; `Host` is
what else is not in the hands of the database.

A list is followed for as many records as the file has bytes. One that goes on is in a circle, and
`none` is where the C does not come back.
-/

namespace LinuxSna.Tdb

open Framework (Image bytesOf value)

/-- `TDB_VERSION` -/
def tdbVersion : ℕ := 0x26011967 + 1

/-- `TDB_MAGIC` -/
def tdbMagic : ℕ := 0x26011999

/-- `TDB_FREE_MAGIC` -/
def tdbFreeMagic : ℕ := 2 ^ 32 - 1 - tdbMagic

/-- `TDB_ALIGN` -/
def tdbAlign : ℕ := 4

/-- `sizeof(struct list_struct)` -/
def recSize : ℕ := 24

/-- `MIN_REC_SIZE` -/
def minRecSize : ℕ := 2 * recSize + tdbAlign

/-- `DEFAULT_HASH_SIZE` -/
def defaultHashSize : ℕ := 128

/-- `TDB_PAGE_SIZE` -/
def tdbPageSize : ℕ := 0x2000

/-- `TDB_LEN_MULTIPLIER` -/
def tdbLenMultiplier : ℕ := 10

/-- `FREELIST_TOP`, which is `sizeof(struct tdb_header)` -/
def freelistTop : ℕ := 40

/-- `TDB_INSERT` -/
def tdbInsert : ℕ := 2

/-- `TDB_MAGIC_FOOD`, with its NUL -/
def tdbMagicFood : List UInt8 := [84, 68, 66, 32, 102, 105, 108, 101, 10, 0]

/-- What an `unsigned int` keeps of a difference -/
def sub32 (a b : ℕ) : ℕ := (a + (2 ^ 32 - b % 2 ^ 32)) % 2 ^ 32

/-- `struct list_struct` -/
structure ListStruct where
  recLen : ℕ
  next : ℕ
  keyLen : ℕ
  dataLen : ℕ
  fullHash : ℕ
  magic : ℕ

namespace ListStruct

/-- A record head in the file -/
def bytes (r : ListStruct) : List UInt8 :=
  bytesOf 4 r.recLen ++ (bytesOf 4 r.next ++ (bytesOf 4 r.keyLen ++
    (bytesOf 4 r.dataLen ++ (bytesOf 4 r.fullHash ++ bytesOf 4 r.magic))))

/-- A record head that has been read -/
def ofBytes (bs : List UInt8) : ListStruct where
  recLen := value (bs.take 4)
  next := value ((bs.drop 4).take 4)
  keyLen := value ((bs.drop 8).take 4)
  dataLen := value ((bs.drop 12).take 4)
  fullHash := value ((bs.drop 16).take 4)
  magic := value ((bs.drop 20).take 4)

end ListStruct

/-- How large the file, or the memory, can be made, and what is in a `struct list_struct` on the stack and
in memory from `realloc` before they are set. -/
structure Host where
  room : ℕ
  stack : ListStruct
  heap : Image

/-- `TDB_CONTEXT`, with the file or the memory that it is about. `locked` is by the number of the list
plus one, and `image` is `none` when `realloc` has failed. -/
structure Context where
  image : Option Image
  mapSize : ℕ
  hashSize : ℕ
  inMemory : Bool
  locked : ℕ → ℕ

variable {α σ : Type}

/-- `BUCKET` -/
def bucket (t : Context) (hash : ℕ) : ℕ := hash % t.hashSize

/-! ## Locks -/

/-- `tdb_lock`, of the list with this number less one. -/
def tdbLock (t : Context) (list : ℕ) : Context :=
  if list ≤ t.hashSize then { t with locked := Function.update t.locked list (t.locked list + 1) } else t

/-- `tdb_unlock` -/
def tdbUnlock (t : Context) (list : ℕ) : Context :=
  if list ≤ t.hashSize ∧ t.locked list ≠ 0 then
    { t with locked := Function.update t.locked list (t.locked list - 1) }
  else t

/-- What stands between `tdb_lock` and the `tdb_unlock` that each way out of it goes through -/
def withLock (list : ℕ) (t : Context) (body : Context → Option (Context × α)) :
    Option (Context × α) :=
  (body (tdbLock t list)).map fun r => (tdbUnlock r.1 list, r.2)

/-! ## Reading and writing -/

/-- `tdb_oob` -/
def tdbOob (t : Context) (offset : ℕ) : Bool :=
  !t.inMemory && decide (t.mapSize < offset % 2 ^ 32)

/-- `tdb_write`. `none` is -1. -/
def tdbWrite (t : Context) (offset : ℕ) (buf : List UInt8) : Option Context :=
  if tdbOob t (offset + buf.length) then none
  else t.image.map fun m =>
    { t with image := some (m.write (offset % 2 ^ 32) (buf.take (buf.length % 2 ^ 32))) }

/-- `tdb_read`, and `tdb_alloc_read` -/
def tdbRead (t : Context) (offset len : ℕ) : Option (List UInt8) :=
  if tdbOob t (offset + len) then none
  else t.image.map fun m => m.read (offset % 2 ^ 32) (len % 2 ^ 32)

/-- `rec_write` -/
def recWrite (t : Context) (offset : ℕ) (r : ListStruct) : Option Context := tdbWrite t offset r.bytes

/-- `ofs_write` -/
def ofsWrite (t : Context) (offset d : ℕ) : Option Context := tdbWrite t offset (bytesOf 4 d)

/-- `ofs_read` -/
def ofsRead (t : Context) (offset : ℕ) : Option ℕ := (tdbRead t offset 4).map value

/-- `tdb_read` of a `struct list_struct` -/
def structRead (t : Context) (offset : ℕ) : Option ListStruct :=
  (tdbRead t offset recSize).map .ofBytes

/-- `rec_read` -/
def recRead (t : Context) (offset : ℕ) : Option ListStruct :=
  match structRead t offset with
  | none => none
  | some r => if r.magic ≠ tdbMagic then none else if tdbOob t r.next then none else some r

/-! ## Keys -/

/-- A character, which is signed, shifted to the left as an `int` -/
def charShift (c : UInt8) (n : ℕ) : ℕ :=
  (if c.toNat < 128 then c.toNat else c.toNat + (2 ^ 32 - 256)) * 2 ^ n % 2 ^ 32

/-- The loop of `tdb_hash` from the character `i` on -/
def hashLoop : ℕ → ℕ → List UInt8 → ℕ
  | _, v, [] => v
  | i, v, c :: cs => hashLoop (i + 1) ((v + charShift c (i * 5 % 2 ^ 32 % 24)) % 2 ^ 32) cs

/-- `tdb_hash` -/
def tdbHash (key : List UInt8) : ℕ :=
  (1103515243 * hashLoop 0 (0x238F13AF * key.length % 2 ^ 32) key + 12345) % 2 ^ 32

/-- `tdb_hash_top` -/
def tdbHashTop (t : Context) (hash : ℕ) : ℕ := freelistTop + (bucket t hash + 1) * 4

/-! ## Free records -/

/-- What `tdb_expand` does to the file or the memory when it makes it end at `size`. A file gets a zero as
its last byte. -/
def growTo (host : Host) (t : Context) (size : ℕ) : Option Image :=
  if sub32 size 1 < host.room then
    t.image.map fun m x =>
      if t.inMemory then if t.mapSize ≤ x then host.heap x else m x
      else if t.mapSize ≤ x ∧ x < sub32 size 1 ∨ x = sub32 size 1 then 0
      else m x
  else none

/-- `tdb_expand` between its locks. Memory that cannot be grown is lost. -/
def expandBody (host : Host) (t : Context) (length : ℕ) : Context × Bool :=
  let length := length % 2 ^ 32 * tdbLenMultiplier % 2 ^ 32
  let size := (t.mapSize + length + tdbPageSize) % 2 ^ 32 / tdbPageSize * tdbPageSize
  let length := sub32 size t.mapSize
  let grown := growTo host t size
  if t.inMemory = false ∧ grown.isNone then (t, false)
  else
    let t : Context := if t.inMemory then t else { t with image := grown }
    match ofsRead t freelistTop with
    | none => (t, false)
    | some next =>
      let r : ListStruct :=
        { host.stack with recLen := sub32 length recSize, next := next, magic := tdbFreeMagic }
      let t : Context := { t with image := grown, mapSize := size }
      match recWrite t (sub32 size length) r with
      | none => (t, false)
      | some t =>
        match ofsWrite t freelistTop (sub32 size length) with
        | none => (t, false)
        | some t => (t, true)

/-- `tdb_expand` -/
def tdbExpand (host : Host) (t : Context) (length : ℕ) : Context × Bool :=
  let r := expandBody host (tdbLock t 0) length
  (tdbUnlock r.1 0, r.2)

/-- A record is taken out of a list: the top is written, or the record before it. -/
def unlinkRecord (t : Context) (top : ℕ) (last : Option (ℕ × ListStruct)) (r : ListStruct) :
    Option Context :=
  match last with
  | none => ofsWrite t top r.next
  | some (lastPtr, lastrec) => recWrite t lastPtr { lastrec with next := r.next }

/-- `tdb_allocate`: a free record is split if it is much longer than it has to be. `none` is `goto fail`,
after which what has been written stays. -/
def splitRecord (host : Host) (t : Context) (length recPtr : ℕ) (r : ListStruct) :
    Context × Option ListStruct :=
  if r.recLen > length + minRecSize then
    let length := (length + tdbAlign) % 2 ^ 32 / tdbAlign * tdbAlign
    let newrec : ListStruct :=
      { host.stack with
        recLen := sub32 r.recLen (recSize + length), next := r.next, magic := tdbFreeMagic }
    let r : ListStruct :=
      { r with recLen := length, next := (recPtr + recSize + length) % 2 ^ 32 }
    match recWrite t r.next newrec with
    | none => (t, none)
    | some t =>
      match recWrite t recPtr r with
      | none => (t, none)
      | some t => (t, some r)
  else (t, some r)

/-- The loop of `tdb_allocate` over the free records. What it comes to is the offset that is returned, or
`none` where no record was long enough. -/
def allocateLoop (host : Host) (t : Context) (length : ℕ) :
    ℕ → Option (ℕ × ListStruct) → ℕ → Option (Context × Option ℕ)
  | _, _, 0 => some (t, none)
  | 0, _, _ + 1 => none
  | fuel + 1, last, recPtr@(_ + 1) =>
    match structRead t recPtr with
    | none => some (t, some 0)
    | some r =>
      if r.magic ≠ tdbFreeMagic then some (t, some 0)
      else if r.recLen ≥ length then
        match splitRecord host t length recPtr r with
        | (t, none) => some (t, some 0)
        | (t, some r) =>
          match unlinkRecord t freelistTop last r with
          | none => some (t, some 0)
          | some t => some (t, some recPtr)
      else allocateLoop host t length fuel (some (recPtr, r)) r.next

/-- `tdb_allocate` between its locks, from `again` on. The database grows by a page at least each time. -/
def allocateBody (host : Host) (length : ℕ) : ℕ → Context → Option (Context × ℕ)
  | 0, _ => none
  | tries + 1, t =>
    match ofsRead t freelistTop with
    | none => some (t, 0)
    | some recPtr =>
      match allocateLoop host t length t.mapSize none recPtr with
      | none => none
      | some (t, some offset) => some (t, offset)
      | some (t, none) =>
        match tdbExpand host t (length + recSize) with
        | (t, true) => allocateBody host length tries t
        | (t, false) => some (t, 0)

/-- `tdb_allocate` -/
def tdbAllocate (host : Host) (t : Context) (length : ℕ) : Option (Context × ℕ) :=
  withLock 0 t (allocateBody host (length % 2 ^ 32) (2 ^ 19))

/-! ## Records with a key -/

/-- The loop of `tdb_find` -/
def findLoop (t : Context) (key : List UInt8) (hash : ℕ) : ℕ → ℕ → Option (Option (ℕ × ListStruct))
  | _, 0 => some none
  | 0, _ + 1 => none
  | fuel + 1, recPtr@(_ + 1) =>
    match recRead t recPtr with
    | none => some none
    | some r =>
      if hash = r.fullHash ∧ key.length = r.keyLen then
        match tdbRead t (recPtr + recSize) r.keyLen with
        | none => some none
        | some k => if key = k then some (some (recPtr, r)) else findLoop t key hash fuel r.next
      else findLoop t key hash fuel r.next

/-- `tdb_find` -/
def tdbFind (t : Context) (key : List UInt8) (hash : ℕ) : Option (Option (ℕ × ListStruct)) :=
  match ofsRead t (tdbHashTop t hash) with
  | none => some none
  | some recPtr => findLoop t key hash t.mapSize recPtr

/-- `tdb_update` between its locks. `true` is 0. -/
def updateBody (key dbuf : List UInt8) (t : Context) : Option (Context × Bool) :=
  match tdbFind t key (tdbHash key) with
  | none => none
  | some none => some (t, false)
  | some (some (recPtr, r)) =>
    if r.recLen < key.length + dbuf.length then some (t, false)
    else
      match tdbWrite t (recPtr + recSize + r.keyLen) dbuf with
      | none => some (t, false)
      | some t =>
        if dbuf.length ≠ r.dataLen then
          match recWrite t recPtr { r with dataLen := dbuf.length % 2 ^ 32 } with
          | none => some (t, false)
          | some t => some (t, true)
        else some (t, true)

/-- `tdb_update` -/
def tdbUpdate (t : Context) (key dbuf : List UInt8) : Option (Context × Bool) :=
  withLock (bucket t (tdbHash key) + 1) t (updateBody key dbuf)

/-- `tdb_fetch`. `none` is where `dptr` is NULL. -/
def tdbFetch (t : Context) (key : List UInt8) : Option (Context × Option (List UInt8)) :=
  withLock (bucket t (tdbHash key) + 1) t fun t =>
    match tdbFind t key (tdbHash key) with
    | none => none
    | some none => some (t, none)
    | some (some (recPtr, r)) => some (t, tdbRead t (recPtr + recSize + r.keyLen) r.dataLen)

/-- `tdb_exists` -/
def tdbExists (t : Context) (key : List UInt8) : Option (Context × Bool) :=
  withLock (bucket t (tdbHash key) + 1) t fun t =>
    (tdbFind t key (tdbHash key)).map fun found => (t, found.isSome)

/-- The loop of `tdb_delete`, up to where it gives back the lock of the list. It comes to the record that
was taken out. -/
def deleteLoop (t : Context) (key : List UInt8) (hash : ℕ) :
    ℕ → Option (ℕ × ListStruct) → ℕ → Option (Context × Option (ℕ × ListStruct))
  | _, _, 0 => some (t, none)
  | 0, _, _ + 1 => none
  | fuel + 1, last, recPtr@(_ + 1) =>
    match recRead t recPtr with
    | none => some (t, none)
    | some r =>
      if hash = r.fullHash ∧ key.length = r.keyLen then
        match tdbRead t (recPtr + recSize) r.keyLen with
        | none => some (t, none)
        | some data =>
          if key = data then
            match unlinkRecord t (tdbHashTop t hash) last r with
            | none => some (t, none)
            | some t => some (t, some (recPtr, r))
          else deleteLoop t key hash fuel (some (recPtr, r)) r.next
      else deleteLoop t key hash fuel (some (recPtr, r)) r.next

/-- `tdb_delete`: the space of the record is recovered. -/
def recoverRecord (t : Context) (recPtr : ℕ) (r : ListStruct) : Context × Bool :=
  match ofsRead t freelistTop with
  | none => (t, false)
  | some next =>
    match recWrite t recPtr { r with next := next, magic := tdbFreeMagic } with
    | none => (t, false)
    | some t =>
      match ofsWrite t freelistTop recPtr with
      | none => (t, false)
      | some t => (t, true)

/-- `tdb_delete` with the lock of the list -/
def deleteBody (key : List UInt8) (t : Context) : Option (Context × Option (ℕ × ListStruct)) :=
  match ofsRead t (tdbHashTop t (tdbHash key)) with
  | none => some (t, none)
  | some recPtr => deleteLoop t key (tdbHash key) t.mapSize none recPtr

/-- `tdb_delete` -/
def tdbDelete (t : Context) (key : List UInt8) : Option (Context × Bool) := do
  let (t, removed) ← withLock (bucket t (tdbHash key) + 1) t (deleteBody key)
  match removed with
  | none => some (t, false)
  | some (recPtr, r) => withLock 0 t fun t => some (recoverRecord t recPtr r)

/-- `tdb_store` from where it has the new record and the lock of the list -/
def storeBody (recPtr : ℕ) (key dbuf : List UInt8) (flag : ℕ) (t : Context) :
    Option (Context × Bool) := do
  let (t, _) ← if flag ≠ tdbInsert then tdbDelete t key else some (t, true)
  match structRead t recPtr with
  | none => some (t, false)
  | some r =>
    if r.magic ≠ tdbFreeMagic then some (t, false)
    else
      match ofsRead t (tdbHashTop t (tdbHash key)) with
      | none => some (t, false)
      | some next =>
        let r : ListStruct :=
          { r with
            next := next, keyLen := key.length % 2 ^ 32, dataLen := dbuf.length % 2 ^ 32
            fullHash := tdbHash key, magic := tdbMagic }
        match tdbWrite t recPtr (r.bytes ++ (key ++ dbuf)) with
        | none => some (t, false)
        | some t =>
          match ofsWrite t (tdbHashTop t (tdbHash key)) recPtr with
          | none => some (t, false)
          | some t => some (t, true)

/-- `tdb_store` -/
def tdbStore (host : Host) (t : Context) (key dbuf : List UInt8) (flag : ℕ) :
    Option (Context × Bool) := do
  let (t, there) ← if flag = tdbInsert then tdbExists t key else some (t, false)
  if there then some (t, false)
  else
    let (t, updated) ← if flag ≠ tdbInsert then tdbUpdate t key dbuf else some (t, false)
    if updated then some (t, true)
    else
      let (t, recPtr) ← tdbAllocate host t (key.length + dbuf.length)
      if recPtr = 0 then some (t, false)
      else withLock (bucket t (tdbHash key) + 1) t (storeBody recPtr key dbuf flag)

/-! ## All records -/

/-- The loop of `tdb_traverse` over a list. `fn` is given the database, and `true` is where it wants to
stop. `none` is where reading fails, and otherwise the records are counted. -/
def traverseChain (fn : Context → List UInt8 → List UInt8 → σ → Option (Context × σ × Bool)) :
    ℕ → Context → σ → ℕ → ℕ → Option (Context × σ × Option (ℕ × Bool))
  | _, t, state, count, 0 => some (t, state, some (count, false))
  | 0, _, _, _, _ + 1 => none
  | fuel + 1, t, state, count, recPtr@(_ + 1) =>
    match recRead t recPtr with
    | none => some (t, state, none)
    | some r =>
      match tdbRead t (recPtr + recSize) ((r.keyLen + r.dataLen) % 2 ^ 32) with
      | none => some (t, state, none)
      | some data =>
        match fn t (data.take r.keyLen) (data.drop r.keyLen) state with
        | none => none
        | some (t, state, true) => some (t, state, some (count + 1, true))
        | some (t, state, false) => traverseChain fn fuel t state (count + 1) r.next

/-- `tdb_traverse` with the lock of a list -/
def traverseBody (fn : Context → List UInt8 → List UInt8 → σ → Option (Context × σ × Bool)) (h : ℕ)
    (state : σ) (count : ℕ) (t : Context) : Option (Context × σ × Option (ℕ × Bool)) :=
  match ofsRead t (tdbHashTop t h) with
  | none => some (t, state, none)
  | some recPtr => traverseChain fn t.mapSize t state count recPtr

/-- The loop of `tdb_traverse` over so many lists from `h` on -/
def traverseLists (fn : Context → List UInt8 → List UInt8 → σ → Option (Context × σ × Bool)) :
    ℕ → ℕ → Context → σ → ℕ → Option (Context × σ × Option ℕ)
  | 0, _, t, state, count => some (t, state, some count)
  | n + 1, h, t, state, count => do
    let (t, state, result) ← withLock (bucket t h + 1) t (traverseBody fn h state count)
    match result with
    | none => some (t, state, none)
    | some (count, true) => some (t, state, some count)
    | some (count, false) => traverseLists fn n (h + 1) t state count

/-- `tdb_traverse`. `none` is -1. -/
def tdbTraverse (t : Context)
    (fn : Context → List UInt8 → List UInt8 → σ → Option (Context × σ × Bool)) (state : σ) :
    Option (Context × σ × Option ℕ) :=
  traverseLists fn t.hashSize 0 t state 0

/-- The key of a record, as `tdb_firstkey` and `tdb_nextkey` read it. -/
def keyRead (t : Context) (recPtr : ℕ) : Option (List UInt8) :=
  (recRead t recPtr).bind fun r => tdbRead t (recPtr + recSize) r.keyLen

/-- The loop of `tdb_firstkey` over so many lists from `hash` on, and what follows it -/
def firstkeyLoop : ℕ → ℕ → Context → Context × Option (List UInt8)
  | 0, _, t => (t, none)
  | n + 1, hash, t =>
    let t := tdbLock t (bucket t hash + 1)
    match ofsRead t (tdbHashTop t hash) with
    | none => (tdbUnlock t (bucket t hash + 1), none)
    | some 0 => firstkeyLoop n (hash + 1) (tdbUnlock t (bucket t hash + 1))
    | some recPtr@(_ + 1) => (tdbUnlock t (bucket t hash + 1), keyRead t recPtr)

/-- `tdb_firstkey` -/
def tdbFirstkey (t : Context) : Context × Option (List UInt8) := firstkeyLoop t.hashSize 0 t

/-- The loop of `tdb_nextkey`, with the lock of `hbucket`, and what follows it. It ends before it has gone
through all lists. -/
def nextkeyLoop : ℕ → ℕ → ℕ → Context → Context × Option (List UInt8)
  | _, recPtr@(_ + 1), hbucket, t => (tdbUnlock t (hbucket + 1), keyRead t recPtr)
  | 0, 0, hbucket, t => (tdbUnlock t (hbucket + 1), none)
  | n + 1, 0, hbucket, t =>
    let t := tdbUnlock t (hbucket + 1)
    let hbucket := hbucket + 1
    if hbucket ≥ sub32 t.hashSize 1 then (t, none)
    else
      let t := tdbLock t (hbucket + 1)
      match ofsRead t (tdbHashTop t hbucket) with
      | none => (tdbUnlock t (hbucket + 1), none)
      | some recPtr => nextkeyLoop n recPtr hbucket t

/-- `tdb_nextkey` -/
def tdbNextkey (t : Context) (key : List UInt8) : Option (Context × Option (List UInt8)) :=
  let hbucket := bucket t (tdbHash key)
  let t := tdbLock t (hbucket + 1)
  (tdbFind t key (tdbHash key)).map fun found =>
    nextkeyLoop t.hashSize (found.elim 0 fun r => r.2.next) hbucket t

/-! ## Opening -/

/-- A file -/
structure File where
  bytes : Image
  size : ℕ

/-- `tdb_new_database`: what is written to the file. -/
def tdbNewDatabase (hashSize : ℕ) : List UInt8 :=
  tdbMagicFood ++ (List.replicate 22 0 ++ (bytesOf 4 tdbVersion ++ (bytesOf 4 hashSize ++
    List.replicate (4 * (hashSize + 1)) 0)))

/-- `hash_size`, for which 0 stands for a default -/
def openHashSize (hashSize : ℕ) : ℕ := if hashSize = 0 then defaultHashSize else hashSize

/-- `tdb_open` without a name, with `O_CREAT` -/
def tdbOpenMemory (hashSize : ℕ) : Context where
  image := some fun _ => 0
  mapSize := freelistTop + 4 * (openHashSize hashSize + 1)
  hashSize := openHashSize hashSize
  inMemory := true
  locked := fun _ => 0

/-- `tdb_open` found its head in the file. -/
def validHeader (f : File) : Bool :=
  decide (freelistTop ≤ f.size) && (f.bytes.read 0 10 == tdbMagicFood) &&
    (f.bytes.word 32 == tdbVersion)

/-- `tdb_open` of a file, which is emptied before if `TDB_CLEAR_IF_FIRST` is set. -/
def tdbOpenFile (f : File) (hashSize : ℕ) (clearIfFirst creat : Bool) : Option Context :=
  let f : File := if clearIfFirst then ⟨fun _ => 0, 0⟩ else f
  if validHeader f then
    some ⟨some f.bytes, f.size, f.bytes.word 36, false, fun _ => 0⟩
  else if creat then
    let contents := tdbNewDatabase (openHashSize hashSize)
    some ⟨some (Image.write (fun _ => 0) 0 contents), contents.length, openHashSize hashSize, false,
      fun _ => 0⟩
  else none

/-- The file of a database -/
def Context.file (t : Context) : Option File := t.image.map fun m => ⟨m, t.mapSize⟩

end LinuxSna.Tdb
