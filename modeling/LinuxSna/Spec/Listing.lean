import LinuxSna.Framework.Text
import LinuxSna.Impl.Asuite.Ftp.Listing

/-!
# What a listing is

What a wildcard pattern means: `?` stands for one character, `*` for any sequence, a character after a
backslash for itself, and so does any other; a backslash at the end stands for nothing. And the directory
that a name addresses, the names in it that are asked for, and the calls of the client that list them.

* `wanted_sorted`, `mem_wanted`: the names are in ascending order, and each is there once;
* `Lists`: what the calls return are these names, or an error if there is none.
-/

namespace LinuxSna.Asuite

open Framework.Glob (Matches Piece)

/-- The pieces of a pattern -/
def pieces : List UInt8 → List (Piece UInt8)
  | [] => []
  | ch :: pattern =>
    if ch = 63 then .one :: pieces pattern
    else if ch = 42 then .many :: pieces pattern
    else if ch = 92 then
      match pattern with
      | [] => [.never]
      | ch :: pattern => .char ch :: pieces pattern
    else .char ch :: pieces pattern

/-- What `wc_match` should return for a string and a pattern without a NUL, having read nothing behind
them: whether the whole string matches -/
def matched (pattern str : List UInt8) : Bool := decide (Matches (pieces pattern) str)

end LinuxSna.Asuite

namespace LinuxSna.Asuite.Ftp

open Framework.Glob (Matches)

variable {V W : Type}

/-- `AFTP_FILE`, `AFTP_DIRECTORY` and `AFTP_ALL_FILES`. -/
inductive FileType where
  | file
  | directory
  | allFiles

/-- The number of a file type. -/
def FileType.code : FileType → UInt8
  | file => 1
  | directory => 2
  | allFiles => 3

/-- `AFTP_NATIVE_FILENAMES` and `AFTP_NATIVE_ATTRIBUTES`. -/
inductive InfoLevel where
  | filenames
  | attributes

/-- The number of an information level. -/
def InfoLevel.code : InfoLevel → UInt8
  | filenames => 0
  | attributes => 1

/-- The text of an entry is that of a name; with attributes, these stand before it. -/
def InfoLevel.Names (level : InfoLevel) (text : List UInt8) (name : FileName) : Prop :=
  match level with
  | filenames => text = name.bytes
  | attributes => ∃ attributes, text = attributes ++ 32 :: name.bytes

namespace Tree

variable (tree : Tree) (filespec : FileName) (type : FileType)

/-- The directory of a name. -/
def directory : Option (List UInt8) :=
  if gDirname filespec.bytes = [46] then tree.cwd.map FileName.bytes
  else some (gDirname filespec.bytes)

/-- The directory that a name addresses, and a pattern for the names in it: if it is itself one, all
that is in it. -/
def addressed : Option (List UInt8) × List UInt8 :=
  match tree.lstat filespec.bytes with
  | some stats =>
    if stats.isDir then (some filespec.bytes, [42])
    else (tree.directory filespec, gBasename filespec.bytes)
  | none => (tree.directory filespec, gBasename filespec.bytes)

/-- What is in the addressed directory. -/
def present : Option Directory := (tree.addressed filespec).1.bind tree.opendir

/-- A name matches the pattern. -/
def Asks (name : FileName) : Prop := Matches (pieces (tree.addressed filespec).2) name.bytes

instance (name : FileName) : Decidable (tree.Asks filespec name) :=
  inferInstanceAs (Decidable (Matches _ _))

/-- A name in the addressed directory is one of a directory. -/
def isDirectory (name : FileName) : Bool :=
  (((tree.addressed filespec).1.bind fun path =>
    tree.stat (path ++ 47 :: name.bytes)).map Stats.isDir).getD false

/-- The names that match, in ascending order. -/
def asked : List FileName :=
  match tree.present filespec with
  | none => []
  | some dir =>
    (dir.names.filter (tree.Asks filespec ·)).insertionSort fun a b => a.bytes ≤ b.bytes

/-- Those of them that are of the type. -/
def wanted : List FileName :=
  (tree.asked filespec).filter fun name => ofType type.code (tree.isDirectory filespec name)

end Tree

theorem FileName.bytes_injective : Function.Injective FileName.bytes := fun a b h => by
  obtain ⟨bytes, _, _⟩ := a
  obtain ⟨bytes', _, _⟩ := b
  obtain rfl : bytes = bytes' := h
  rfl

instance : Std.Total (fun a b : FileName => a.bytes ≤ b.bytes) :=
  ⟨fun a b => Std.Total.total (r := (· ≤ · : List UInt8 → List UInt8 → Prop)) a.bytes b.bytes⟩

instance : IsTrans FileName (fun a b => a.bytes ≤ b.bytes) :=
  ⟨fun _ _ _ h h' => List.le_trans h h'⟩

section Sorted

variable {names names' : List FileName}

/-- Names are in ascending order, each once. -/
def Ascending (names : List FileName) : Prop := names.Pairwise fun a b => a.bytes < b.bytes

/-- There is one order of names only. -/
theorem ascending_unique
    (h : names.Pairwise fun a b => a.bytes ≤ b.bytes)
    (h' : names'.Pairwise fun a b => a.bytes ≤ b.bytes) (hperm : names.Perm names') :
    names = names' :=
  hperm.eq_of_pairwise (fun _ _ _ _ hab hba =>
    FileName.bytes_injective (List.le_antisymm hab hba)) h h'

theorem ascending_of_nodup (hnodup : names.Nodup)
    (h : names.Pairwise fun a b => a.bytes ≤ b.bytes) : Ascending names := by
  refine (h.and hnodup).imp fun {a b} hab => ?_
  obtain ⟨hle, hne⟩ := hab
  by_contra hlt
  exact hne (FileName.bytes_injective (List.le_antisymm hle (List.not_lt.mp hlt)))

end Sorted

section Wanted

variable {tree : Tree} {filespec : FileName} {type : FileType}

theorem mem_asked {name : FileName} : name ∈ tree.asked filespec ↔
    ∃ dir, tree.present filespec = some dir ∧ name ∈ dir.names ∧ tree.Asks filespec name := by
  rw [Tree.asked]
  cases tree.present filespec with
  | none => simp
  | some dir =>
    simp only [List.mem_insertionSort, List.mem_filter, decide_eq_true_eq, Option.some.injEq,
      exists_eq_left']

theorem asked_sorted : Ascending (tree.asked filespec) := by
  rw [Tree.asked]
  cases tree.present filespec with
  | none => exact List.Pairwise.nil
  | some dir =>
    apply ascending_of_nodup
    · exact (List.perm_insertionSort ..).nodup_iff.mpr (dir.nodup.filter _)
    · exact List.pairwise_insertionSort ..

/-- A listing shows them in ascending order, each once. -/
theorem wanted_sorted : Ascending (tree.wanted filespec type) := asked_sorted.filter _

/-- They are the names in the directory that match and are of the type. -/
theorem mem_wanted {name : FileName} : name ∈ tree.wanted filespec type ↔
    (∃ dir, tree.present filespec = some dir ∧ name ∈ dir.names ∧ tree.Asks filespec name) ∧
      ofType type.code (tree.isDirectory filespec name) = true := by
  rw [Tree.wanted, List.mem_filter, mem_asked]

end Wanted

/-! ## The calls that list them -/

/-- A call that returns an entry, which is that of a name. -/
def ReadsName (level : InfoLevel) (name : FileName) (read : Client.DirRead) : Prop :=
  read.rc = rcOk ∧ read.noMore = some false ∧ ∃ text, read.entry = some text ∧ level.Names text name

/-- A request for a listing: the name, what is asked for, and the sizes of the buffers for the path
and for an entry. -/
structure Query where
  filespec : FileName
  type : FileType
  level : InfoLevel
  pathBufferLength : Nat
  dirEntrySize : Nat

/-- `aftp_dir_open` for a request -/
def Query.open (q : Query) (env : Env V W) (tree : Tree) (c : Conn V W) :
    Option (Nat × Option (List UInt8) × Conn V W) :=
  Client.aftpDirOpen .little env tree q.filespec.bytes q.filespec.length q.type.code q.level.code
    q.pathBufferLength c

/-- The names that are asked for are listed, and nothing is left on the conversation. If there is
none, the call that asks for them may fail, and the server has answered it; it does so if nothing
matches. -/
def Lists (env : Env V W) (tree : Tree) (q : Query) (c : Conn V W) : Prop :=
  (tree.wanted q.filespec q.type = [] ∧
    ∃ rc path c', q.open env tree c = some (rc, path, c') ∧ rc ≠ rcOk ∧ c'.responses = []) ∨
  (tree.asked q.filespec ≠ [] ∧
    ∃ path c' n reads c'', q.open env tree c = some (rcOk, path, c') ∧
      Client.dirReads .little q.dirEntrySize n c' = some (reads, c'') ∧
      List.Forall₂ (ReadsName q.level) (tree.wanted q.filespec q.type) reads ∧ c''.responses = [])

end LinuxSna.Asuite.Ftp
