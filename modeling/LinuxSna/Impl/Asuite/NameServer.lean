import LinuxSna.Impl.Asuite.Ftp.Records
import LinuxSna.Impl.Asuite.Tdb

/-!
# The name server

`anamed.c`. The database is a map from byte strings to byte strings, or, for a `Daemon`, the one of `tdb.c`
in memory, and each record is stored under itself: under the bytes of the `namerec` that a loop over the
parameters fills. `none` is where the C
has no meaning: a name is copied over the end of its field, or a string goes on behind the end of
what is stored.
-/

namespace LinuxSna.Asuite.Names

open Ftp

/-- `ANAME_STATUS_RECORD` -/
def anameStatusRecord : Nat := 1

/-- `ANAME_REGISTER_REQUEST_RECORD` -/
def anameRegisterRequestRecord : Nat := 2

/-- `ANAME_DELETE_REQUEST_RECORD` -/
def anameDeleteRequestRecord : Nat := 3

/-- `ANAME_QUERY_REQUEST_RECORD` -/
def anameQueryRequestRecord : Nat := 4

/-- `ANAME_RESPONSE_RECORD` -/
def anameResponseRecord : Nat := 5

/-- `ANAME_STATUS_RETURN_CODE` -/
def anameStatusReturnCode : UInt8 := 2

/-! ## `namerec` -/

/-- The members of a `namerec`. -/
inductive Member where
  | username
  | fqluname
  | grpname
  | tpname
  deriving DecidableEq

namespace Member

/-- The size of a member, without its NUL. -/
def size : Member → Nat
  | username => Anamed.anameUnSize
  | fqluname => Anamed.anameFqSize
  | grpname => Anamed.anameUnSize
  | tpname => Anamed.anameUnSize

/-- The key of a member -/
def key : Member → UInt8
  | username => Anamed.anameUserName
  | fqluname => Anamed.anameFqluName
  | grpname => Anamed.anameGroupName
  | tpname => Anamed.anameTpName

/-- The `switch` over the key -/
def ofKey (key : UInt8) : Option Member :=
  if key = Anamed.anameUserName then some username
  else if key = Anamed.anameFqluName then some fqluname
  else if key = Anamed.anameGroupName then some grpname
  else if key = Anamed.anameTpName then some tpname
  else none

/-- The members in their order -/
def all : List Member := [username, fqluname, grpname, tpname]

end Member

/-- The memory of a member: one byte more than its size. -/
structure Memory (size : Nat) where
  bytes : List UInt8
  length_eq : bytes.length = size + 1

namespace Memory

variable {size : Nat}

/-- `memset` with `' '` -/
def blank (size : Nat) : Memory size := ⟨List.replicate (size + 1) 32, List.length_replicate ..⟩

/-- `memcpy`, and a NUL behind it. -/
def copy (m : Memory size) (text : List UInt8) (h : text.length ≤ size) : Memory size where
  bytes := text ++ 0 :: m.bytes.drop (text.length + 1)
  length_eq := by
    rw [List.length_append, List.length_cons, List.length_drop, m.length_eq]
    omega

end Memory

/-- `namerec` -/
abbrev Namerec := (m : Member) → Memory m.size

namespace Namerec

/-- `namebuf` after its `memset` -/
def blank : Namerec := fun m => .blank m.size

/-- The bytes of a `namerec`, one member after another. -/
def bytes (r : Namerec) : List UInt8 := Member.all.flatMap fun m => (r m).bytes

end Namerec

/-- Where a member begins: `offsetof` -/
def Member.offset : Member → Nat
  | username => 0
  | fqluname => Anamed.anameUnSize + 1
  | grpname => Anamed.anameUnSize + 1 + (Anamed.anameFqSize + 1)
  | tpname => Anamed.anameUnSize + 1 + (Anamed.anameFqSize + 1) + (Anamed.anameUnSize + 1)

/-- The string of a member of what is stored. It goes on to the next NUL, wherever that is. -/
def stringOf (value : List UInt8) (m : Member) : Option (List UInt8) :=
  let rest := value.drop m.offset
  if 0 ∈ rest then some (rest.takeWhile (· ≠ 0)) else none

/-! ## The loop over the parameters -/

/-- `memcpy` of `n` bytes of the record to a member. -/
def copyName (record : Record) (start n : Nat) (m : Member) (r : Namerec) : Namerec ⊕ Unit :=
  if h : n ≤ m.size then
    .inl (Function.update r m ((r m).copy (record.slice start n)
      (by rw [Record.slice, List.length_map, List.length_range]; exact h)))
  else .inr ()

/-- The body of the loop. `param_len - 4` is an `unsigned int`. -/
def namerecBody (host : Host) (record : Record) (curpos : Nat) (r : Namerec) : Namerec ⊕ Unit :=
  match Member.ofKey (getKey record curpos) with
  | none => .inl r
  | some m =>
    copyName record (curpos + 3) ((getParamLen host record curpos + 2 ^ 32 - 4) % 2 ^ 32) m r

/-- What the loop makes of `namebuf`. -/
def readNamerec (host : Host) (record : Record) : Option Namerec := do
  match ← scan host record (getReceivedLen record) (namerecBody host record) .blank with
  | .inl r => return r
  | .inr () => none

/-! ## The requests -/

/-- The server between two conversations. -/
structure Server where
  db : List UInt8 → Option (List UInt8)
  record : Record

/-- What a request leads to: the server, and the records that it has sent. -/
abbrev Served := Server × List (List UInt8)

/-- A record that says how a request went. -/
def statusRecord (host : Host) (rc : UInt8) (record : Record) : Record :=
  asuiterecordAppendChar host
    (asuiterecordSettype host (asuiterecordClear record) anameStatusRecord) anameStatusReturnCode rc

/-- `a_register`. The string at byte 5 has to be the name of the partner. `tdb_store` fails if there
is no room. -/
def aRegister (host : Host) (origin : List UInt8) (room : Bool) (s : Server) : Option Served :=
  if stringAt s.record 5 ≠ origin then
    some (s, [simpleResponse host rcFailInputError 0 709])
  else do
    let r ← readNamerec host s.record
    if room then
      let record := statusRecord host 0 s.record
      return (⟨Function.update s.db r.bytes (some r.bytes), record⟩, [sendAsuiterecord record])
    else
      let record := statusRecord host 3 s.record
      return (⟨s.db, record⟩, [sendAsuiterecord record])

/-- `a_delete`. Where nothing is deleted, the record is made, and is not sent. -/
def aDelete (host : Host) (s : Server) : Option Served := do
  let r ← readNamerec host s.record
  match s.db r.bytes with
  | some _ =>
    let record := statusRecord host 0 s.record
    return (⟨Function.update s.db r.bytes none, record⟩, [sendAsuiterecord record])
  | none => return ({ s with record := statusRecord host 3 s.record }, [])

/-- A string of what is stored is appended. -/
def appendMember (host : Host) (value : List UInt8) (m : Member) (record : Record) :
    Option Record := do
  let string ← stringOf value m
  return asuiterecordAppend host record m.key string (string.length + 1)

/-- The record of a response. -/
def responseRecord (host : Host) (value : List UInt8) (record : Record) : Option Record :=
  Member.all.foldlM (fun r m => appendMember host value m r)
    (asuiterecordSettype host (asuiterecordClear record) anameResponseRecord)

/-- `a_query`. What is found is sent between two records that say so. Where nothing is found, the
record is made, and is not sent. -/
def aQuery (host : Host) (s : Server) : Option Served := do
  let r ← readNamerec host s.record
  match s.db r.bytes with
  | some value =>
    let status := statusRecord host 0 s.record
    let response ← responseRecord host value status
    let record := statusRecord host 0 response
    return ({ s with record },
      [sendAsuiterecord status, sendAsuiterecord response, sendAsuiterecord record])
  | none => return ({ s with record := statusRecord host 3 s.record }, [])

/-- A conversation: its partner, the record that it sends, and whether there is room to store one. -/
structure Conversation where
  origin : List UInt8
  data : List UInt8
  room : Bool

/-- The loop of `main` -/
def serve (host : Host) (s : Server) (c : Conversation) : Option Served :=
  let s := { s with record := getAsuiterecord c.data s.record }
  match getMajorCode s.record with
  | 2 => aRegister host c.origin c.room s
  | 3 => aDelete host s
  | 4 => aQuery host s
  | _ => some (s, [])

/-! ## The server with its database -/

/-- `TDB_REPLACE` -/
def tdbReplace : Nat := 1

/-- The server between two conversations, with what it has in memory of `tdb.c`. -/
structure Daemon where
  db : Tdb.Context
  record : Record

namespace Daemon

/-- `main`: `tdb_open` without a name and with the default size -/
def begin (record : Record) : Daemon := ⟨Tdb.tdbOpenMemory 0, record⟩

/-- `a_register` -/
def aRegister (host : Host) (memory : Tdb.Host) (origin : List UInt8) (s : Daemon) :
    Option (Daemon × List (List UInt8)) :=
  if stringAt s.record 5 ≠ origin then
    some (s, [simpleResponse host rcFailInputError 0 709])
  else do
    let r ← readNamerec host s.record
    let (db, stored) ← Tdb.tdbStore memory s.db r.bytes r.bytes tdbReplace
    let record := statusRecord host (if stored then 0 else 3) s.record
    return (⟨db, record⟩, [sendAsuiterecord record])

/-- `a_delete` -/
def aDelete (host : Host) (s : Daemon) : Option (Daemon × List (List UInt8)) := do
  let r ← readNamerec host s.record
  let (db, deleted) ← Tdb.tdbDelete s.db r.bytes
  if deleted then
    let record := statusRecord host 0 s.record
    return (⟨db, record⟩, [sendAsuiterecord record])
  else return (⟨db, statusRecord host 3 s.record⟩, [])

/-- `a_query` -/
def aQuery (host : Host) (s : Daemon) : Option (Daemon × List (List UInt8)) := do
  let r ← readNamerec host s.record
  let (db, found) ← Tdb.tdbFetch s.db r.bytes
  match found with
  | some value =>
    let status := statusRecord host 0 s.record
    let response ← responseRecord host value status
    let record := statusRecord host 0 response
    return (⟨db, record⟩,
      [sendAsuiterecord status, sendAsuiterecord response, sendAsuiterecord record])
  | none => return (⟨db, statusRecord host 3 s.record⟩, [])

/-- The loop of `main`. What memory there is for the database takes the place of `room`. -/
def serve (host : Host) (s : Daemon) (memory : Tdb.Host) (c : Conversation) :
    Option (Daemon × List (List UInt8)) :=
  let s := { s with record := getAsuiterecord c.data s.record }
  match getMajorCode s.record with
  | 2 => aRegister host memory c.origin s
  | 3 => aDelete host s
  | 4 => aQuery host s
  | _ => some (s, [])

/-- One conversation after the other, and what is sent on each -/
def serveAll (host : Host) : Daemon → List (Tdb.Host × Conversation) →
    Option (Daemon × List (List (List UInt8)))
  | s, [] => some (s, [])
  | s, e :: es => do
    let (s, sent) ← serve host s e.1 e.2
    let (s, rest) ← serveAll host s es
    some (s, sent :: rest)

end Daemon

/-- One conversation after the other, and what is sent on each, by the server with a map for its database -/
def serveAll (host : Host) : Server → List Conversation → Option (Server × List (List (List UInt8)))
  | s, [] => some (s, [])
  | s, c :: cs => do
    let (s, sent) ← serve host s c
    let (s, rest) ← serveAll host s cs
    some (s, sent :: rest)

end LinuxSna.Asuite.Names
