import LinuxSna.Impl.Asuite.Ftp.Client

/-!
# Listing a directory

`wildcard.c`, `a_list_request` of `aftpd.c` with `get_local_file_list`, and `aftp_dir_open` and
`aftp_dir_read` of `libaftp.c`. What the server finds in its file system is given. In `wildcard.c` a
string is what may be read of it, with its NUL as the last byte, and a pattern is given without its
NUL. `none` is where the C has no meaning: a list is used that was never set, or a string is read
behind its end.
-/

namespace LinuxSna.Asuite

/-- The loop for `*`: what is left of the pattern is matched at each place of the string. Places with
another character are skipped where the pattern goes on with a plain one. -/
def wcStar (rest : List UInt8 → Option Bool) (skips : UInt8 → Bool) : List UInt8 → Option Bool
  | [] => none
  | c :: str =>
    if c = 0 then some false
    else if skips c then wcStar rest skips str
    else
      match rest (c :: str) with
      | none => none
      | some true => some true
      | some false => wcStar rest skips str

/-- The first character of the string is compared with one of the pattern. -/
def wcCompare (rest : List UInt8 → Option Bool) (ch : UInt8) : List UInt8 → Option Bool
  | [] => none
  | c :: str => if c = ch then rest str else some false

/-- The characters of the string that the loop for `*` skips. -/
def wcSkips : List UInt8 → UInt8 → Bool
  | [], _ => false
  | p :: _, c => p ≠ 63 ∧ p ≠ 92 ∧ p ≠ 42 ∧ c ≠ p

/-- `wc_match`, with the pattern first: `?`, `*`, the escape character, and any other. -/
def wcMatch : List UInt8 → List UInt8 → Option Bool
  | [], str => str.head?.map (· == 0)
  | ch :: pattern, str =>
    if ch = 63 then wcMatch pattern str.tail
    else if ch = 42 then
      if pattern = [] then some true else wcStar (wcMatch pattern) (wcSkips pattern) str
    else if ch = 92 then
      match pattern with
      | [] => wcCompare (fun _ => none) 0 str
      | ch :: pattern => wcCompare (wcMatch pattern) ch str
    else wcCompare (wcMatch pattern) ch str

example : wcMatch [97, 42, 98] [97, 120, 98, 0] = some true := by decide

example : wcMatch [97, 63] [97, 0] = none := by decide

end LinuxSna.Asuite

namespace LinuxSna.Asuite.Ftp

variable {V W : Type}

/-- `AFTP_LIST_REQUEST` -/
def aftpListRequest : Nat := 3

/-- `AFTP_LIST_ENTRY` -/
def aftpListEntry : Nat := 4

/-- `AFTP_LIST_COMPLETE` -/
def aftpListComplete : Nat := 5

/-- `AFTP_FILE_TYPE` -/
def aftpFileType : UInt8 := 19

/-- `AFTP_INFO_LEVEL` -/
def aftpInfoLevel : UInt8 := 20

/-- `A_ERR_INVALID_PATH` -/
def aErrInvalidPath : Nat := 607

/-- `A_ERR_NO_FILES_FOUND` -/
def aErrNoFilesFound : Nat := 614

/-! ## The file system of the server -/

/-- `struct stat`: whether it is a directory, and the string that `get_long_format` makes of it. -/
structure Stats where
  isDir : Bool
  longFormat : List UInt8
  nonzero : 0 ∉ longFormat
  short : longFormat.length ≤ 1024

/-- What `readdir` finds in a directory, in its order. A name has `NAME_MAX` bytes at most. -/
structure Directory where
  names : List FileName
  nodup : names.Nodup
  short : ∀ n ∈ names, n.length ≤ 255

/-- The file system, as the calls find it. -/
structure Tree where
  /-- `safe_get_cwd` -/
  cwd : Option FileName
  cwd_short : ∀ d, cwd = some d → d.length ≤ 4096
  lstat : List UInt8 → Option Stats
  stat : List UInt8 → Option Stats
  opendir : List UInt8 → Option Directory

/-- `g_dirname` -/
def gDirname (path : List UInt8) : List UInt8 :=
  let base := path.reverse.dropWhile (· ≠ 47)
  if base = [] then [46]
  else
    let rest := base.dropWhile (· = 47)
    if rest = [] then [47] else rest.reverse

/-! ## The server -/

/-- `g_slist_insert_sorted` with `fname_compare` -/
def insertSorted (name : FileName) (filelist : List FileName) : List FileName :=
  filelist.orderedInsert (fun a b => a.bytes ≤ b.bytes) name

/-- The loop of `get_local_file_list` over a directory. -/
def readNames (filespec : List UInt8) : List FileName → List FileName → Option (List FileName)
  | [], filelist => some filelist
  | name :: names, filelist =>
    match wcMatch filespec (name.bytes ++ [0]) with
    | none => none
    | some true => readNames filespec names (insertSorted name filelist)
    | some false => readNames filespec names filelist

/-- What the parameters of a listing say. -/
structure ListKeys where
  filespec : Option (List UInt8) := none
  /-- `AFTP_ALL_FILES`, if there is none. -/
  filetype : UInt8 := 3
  infolevel : Option UInt8 := none

/-- The body of the loop of `a_list_request` over the parameters. The memory for the name is not
checked; `.inr` is a copy to no memory. -/
def listBody (sys : System W) (record : Record) (curpos : Nat) (a : W × ListKeys) :
    (W × ListKeys) ⊕ Unit :=
  let key := getKey record curpos
  if key = aftpFilespec then
    match sys.malloc a.1 with
    | (false, _) => .inr ()
    | (true, w) => .inl (w, { a.2 with filespec := some (stringAt record (curpos + 3)) })
  else if key = aftpFileType then .inl (a.1, { a.2 with filetype := record.buffer (curpos + 3) })
  else if key = aftpInfoLevel then
    .inl (a.1, { a.2 with infolevel := some (record.buffer (curpos + 3)) })
  else .inl a

/-- `filestring`: with `AFTP_NATIVE_ATTRIBUTES`, the long format stands before the name. -/
def filestring (infolevel : UInt8) (filestats : Stats) (name : FileName) : List UInt8 :=
  if infolevel = 1 then filestats.longFormat ++ 32 :: name.bytes else name.bytes

/-- Whether the name is put into the record of an entry: `AFTP_FILE`, `AFTP_DIRECTORY`, and any
other. -/
def ofType (filetype : UInt8) (isdir : Bool) : Bool :=
  if filetype = 1 then !isdir else if filetype = 2 then isdir else true

/-- The loop over the list. `stat` gets the name alone, and where it fails, `filestats` stays as it
was; every name has its record. -/
def sendEntries (host : Host) (tree : Tree) (filetype infolevel : UInt8) :
    List FileName → Stats → Record → Record × List (List UInt8)
  | [], _, record =>
    let r := asuiterecordSettype host (asuiterecordClear record) aftpListComplete
    (r, [sendAsuiterecord r])
  | name :: filelist, filestats, record =>
    let r := asuiterecordSettype host (asuiterecordClear record) aftpListEntry
    let filestats := (tree.stat name.bytes).getD filestats
    let string := filestring infolevel filestats name
    let r :=
      if ofType filetype filestats.isDir then
        asuiterecordAppend host r aftpFilespec string (string.length + 1)
      else r
    let (record, sent) := sendEntries host tree filetype infolevel filelist filestats r
    (record, sendAsuiterecord r :: sent)

/-- What `a_list_request` does once it knows where to look, and for what. Where the directory cannot
be opened, `filelist` is what stands on the stack. -/
def listFiles (host : Host) (tree : Tree) (keys : ListKeys) (directory path : Option (List UInt8))
    (filespec : List UInt8) (filestats : Stats) (s : Server W) : Option (Served W) := do
  let dir ← path.bind tree.opendir
  let filelist ← readNames filespec dir.names []
  if filelist = [] then
    return (s, [simpleResponse host rcFailInputError 0 aErrNoFilesFound])
  else
    let directory ← directory
    let infolevel ← keys.infolevel
    let r := asuiterecordSettype host (asuiterecordClear s.record) Libaftp.aftpSimpleResponse
    let r := asuiterecordAppendChar host r Libaftp.aftpStatusReturnCode 0
    let r := asuiterecordAppend host r aftpFilespec directory (directory.length + 1)
    let (record, sent) := sendEntries host tree keys.filetype infolevel filelist filestats r
    return ({ s with record }, sendAsuiterecord r :: sent)

/-- `a_list_request` -/
def aListRequest (host : Host) (sys : System W) (tree : Tree) (s : Server W) :
    Option (Served W) := do
  match ← scan host s.record (getReceivedLen s.record) (listBody sys s.record) (s.world, {}) with
  | .inr () => none
  | .inl (world, keys) =>
    let s := { s with world }
    let filespec ← keys.filespec
    let directory := if gDirname filespec = [46] then tree.cwd.map FileName.bytes
      else some (gDirname filespec)
    let filename := gBasename filespec
    let refused := some (s, [simpleResponse host rcFailInputError 0 aErrInvalidPath])
    match tree.lstat filespec with
    | none =>
      match directory.bind tree.lstat with
      | none => refused
      | some filestats =>
        if filestats.isDir then listFiles host tree keys directory directory filename filestats s
        else refused
    | some filestats =>
      if filestats.isDir then listFiles host tree keys directory (some filespec) [42] filestats s
      else listFiles host tree keys directory directory filename filestats s

/-- A record is received and served, also if it asks for a listing. -/
def serveListing (host : Host) (sys : System W) (garbage : Nat) (tree : Tree) (data : List UInt8)
    (s : Server W) : Option (Served W) :=
  if getMajorCode (s.received data).record = aftpListRequest then
    aListRequest host sys tree (s.received data)
  else serve host sys garbage data s

/-! ## The client -/

namespace Client

/-- The request of `aftp_dir_open` -/
def listRequest (host : Host) (filespec : List UInt8) (length : Nat) (fileType infoLevel : UInt8)
    (record : Record) : Record :=
  let r := asuiterecordSettype host (asuiterecordClear record) aftpListRequest
  let r := asuiterecordAppend host r aftpFilespec filespec (length + 1)
  let r := asuiterecordAppendChar host r aftpFileType fileType
  asuiterecordAppendChar host r aftpInfoLevel infoLevel

/-- What an answer leaves in the variables of the caller: the return code, and the path, if it is
set. -/
structure Opened where
  rc : Nat
  path : Option (List UInt8)
  session : Ftpsession

/-- The loop of `aftp_dir_open` over a simple response. The path has to fit into its buffer with its
NUL, which `strlen` goes on to. -/
def openBody (host : Host) (pathBufferLength : Nat) (record : Record) (curpos : Nat) (a : Opened) :
    Opened ⊕ Unit :=
  let key := getKey record curpos
  if key = Libaftp.aftpStatusReturnCode then
    .inl { a with session := takeStatus curpos a.session }
  else if key = aftpFilespec then
    let path := stringAt record (curpos + 3)
    if path.length < pathBufferLength then .inl { a with path := some path } else .inr ()
  else if key = Libaftp.aftpStatusCategoryIndex then
    let (rc, session) := takeCategory host curpos a.session
    .inl { a with rc, session }
  else if key = Libaftp.aftpStatusPrimaryMsg then
    .inl { a with session := setPrimaryMsg curpos a.session }
  else .inl a

/-- `aftp_dir_open`: its return code, the path, and where it leads. -/
def aftpDirOpen (host : Host) (env : Env V W) (tree : Tree) (filespec : List UInt8) (length : Nat)
    (fileType infoLevel : UInt8) (pathBufferLength : Nat) (c : Conn V W) :
    Option (Nat × Option (List UInt8) × Conn V W) := do
  let record := listRequest host filespec length fileType infoLevel c.session.record
  if maxBufferSize < (sendAsuiterecord record).length then none
  else
    let (server, sent) ← serveListing host env.server env.garbage tree (sendAsuiterecord record)
      c.server
    let c := { c with
      session := { c.session with record }
      server := server
      responses := c.responses ++ sent }
    let c ← c.receive
    let record := c.session.record
    if getMajorCode record = Libaftp.aftpSimpleResponse then
      match ← scan host record (getReceivedLen record) (openBody host pathBufferLength record)
          ⟨rcOk, none, c.session⟩ with
      | .inr () => none
      | .inl a => return (a.rc, a.path, { c with session := a.session })
    else return (rcOk, none, c)

/-- What a call of `aftp_dir_read` leaves in the variables of the caller: its return code, and the
entry and `no_more_entries`, if they are set. -/
structure DirRead where
  rc : Nat
  entry : Option (List UInt8)
  noMore : Option Bool

/-- The loop of `aftp_dir_read` over the record of an entry. -/
def readBody (host : Host) (dirEntrySize : Nat) (record : Record) (curpos : Nat)
    (a : DirRead × Ftpsession) : (DirRead × Ftpsession) ⊕ Unit :=
  let key := getKey record curpos
  if key = aftpFilespec then
    let entry := stringAt record (curpos + 3)
    if entry.length < dirEntrySize then
      .inl ({ a.1 with entry := some entry, noMore := some false }, a.2)
    else .inr ()
  else if key = Libaftp.aftpStatusCategoryIndex then
    let (rc, session) := takeCategory host curpos a.2
    .inl ({ a.1 with rc }, session)
  else if key = Libaftp.aftpStatusPrimaryMsg then .inl (a.1, setPrimaryMsg curpos a.2)
  else .inl a

/-- `aftp_dir_read` -/
def aftpDirRead (host : Host) (dirEntrySize : Nat) (c : Conn V W) :
    Option (DirRead × Conn V W) := do
  let c ← c.receive
  let record := c.session.record
  match getMajorCode record with
  | 4 =>
    match ← scan host record (getReceivedLen record) (readBody host dirEntrySize record)
        (⟨rcOk, none, none⟩, c.session) with
    | .inr () => none
    | .inl (read, session) => return (read, { c with session })
  | 5 => return (⟨rcOk, none, some true⟩, c)
  | _ => return (⟨rcOk, none, none⟩, c)

/-- `aftp_dir_read` until it sets `no_more_entries`, `n` calls of it at most: what the calls before
the last return. -/
def dirReads (host : Host) (dirEntrySize : Nat) :
    Nat → Conn V W → Option (List DirRead × Conn V W)
  | 0, _ => none
  | n + 1, c => do
    let (read, c) ← aftpDirRead host dirEntrySize c
    if read.noMore = some true then return ([], c)
    else
      let (reads, c) ← dirReads host dirEntrySize n c
      return (read :: reads, c)

end Client

end LinuxSna.Asuite.Ftp
