import LinuxSna.Proof.Asuite.Ftp.Pieces
import LinuxSna.Spec.Listing

/-!
# What the server sends of a listing

* `readNames_eq`: the names that match, in ascending order, unless a string is read behind its end;
* `sendEntries_eq`: a record for each of them, which has no name in it if the type is another;
* `aListRequest_served`: what comes of the whole request.
-/

namespace LinuxSna.Asuite.Ftp

variable {V W : Type}

/-! ## Names -/

section Dirname

variable {path : List UInt8}

theorem gDirname_ne_nil (path : List UInt8) : gDirname path ≠ [] := by
  simp only [gDirname]
  split_ifs with hbase hrest
  · exact List.cons_ne_nil _ _
  · exact List.cons_ne_nil _ _
  · exact fun h => hrest (List.reverse_eq_nil_iff.mp h)

theorem mem_gDirname {b : UInt8} (hb : b ∈ gDirname path) (hdot : b ≠ 46) (hslash : b ≠ 47) :
    b ∈ path := by
  simp only [gDirname] at hb
  split_ifs at hb with hbase hrest
  · exact absurd (List.mem_singleton.mp hb) hdot
  · exact absurd (List.mem_singleton.mp hb) hslash
  · have hmem := (List.dropWhile_sublist _).mem (List.mem_reverse.mp hb)
    exact List.mem_reverse.mp ((List.dropWhile_sublist _).mem hmem)

theorem length_gDirname_le (hpath : path ≠ []) : (gDirname path).length ≤ path.length := by
  have hpos := List.length_pos_of_ne_nil hpath
  simp only [gDirname]
  split_ifs with hbase hrest
  · exact hpos
  · exact hpos
  · have hdrop := (List.dropWhile_sublist (· = 47) (l := path.reverse.dropWhile (· ≠ 47))).length_le
    have hbase := (List.dropWhile_sublist (· ≠ 47) (l := path.reverse)).length_le
    rw [List.length_reverse] at hbase ⊢
    exact hdrop.trans hbase

end Dirname

/-- The directory of a name is a name itself. -/
theorem directory_name {tree : Tree} {filespec : FileName} {directory : List UInt8}
    (h : tree.directory filespec = some directory) :
    ∃ name : FileName, name.bytes = directory ∧ name.length ≤ max filespec.length 4096 := by
  rw [Tree.directory] at h
  split_ifs at h with hdot
  · obtain ⟨name, hname, rfl⟩ := Option.map_eq_some_iff.mp h
    exact ⟨name, rfl, (tree.cwd_short name hname).trans (Nat.le_max_right ..)⟩
  · obtain rfl := Option.some.inj h
    refine ⟨⟨gDirname filespec.bytes, gDirname_ne_nil _, fun hzero => ?_⟩, rfl, ?_⟩
    · exact filespec.nonzero (mem_gDirname hzero (by decide) (by decide))
    · exact (length_gDirname_le filespec.nonempty).trans (Nat.le_max_left ..)

/-- The text of an entry. -/
def Stats.text (stats : Stats) (infolevel : UInt8) (name : FileName) : FileName where
  bytes := filestring infolevel stats name
  nonempty := by
    rw [filestring]
    split_ifs with hlevel
    · exact List.append_ne_nil_of_right_ne_nil _ (List.cons_ne_nil _ _)
    · exact name.nonempty
  nonzero := by
    rw [filestring]
    split_ifs with hlevel
    · rw [List.mem_append, List.mem_cons, not_or, not_or]
      exact ⟨stats.nonzero, by decide, name.nonzero⟩
    · exact name.nonzero

theorem Stats.length_text_le (stats : Stats) (infolevel : UInt8) (name : FileName) :
    (stats.text infolevel name).length ≤ 1025 + name.length := by
  show (filestring infolevel stats name).length ≤ _
  rw [filestring]
  split_ifs with hlevel
  · have hshort := stats.short
    rw [List.length_append, List.length_cons, FileName.length]
    omega
  · exact Nat.le_add_left ..

/-! ## The list -/

/-- The names that match are collected in ascending order, unless a string is read behind its
end. -/
theorem readNames_eq (filespec : List UInt8) (names filelist : List FileName)
    (hsorted : filelist.Pairwise fun a b => a.bytes ≤ b.bytes) :
    if ∀ name ∈ names, wcMatch filespec (name.bytes ++ [0]) ≠ none then
      ∃ found, readNames filespec names filelist = some found ∧
        (found.Pairwise fun a b => a.bytes ≤ b.bytes) ∧
        found.Perm (filelist ++
          names.filter fun name => wcMatch filespec (name.bytes ++ [0]) = some true)
    else readNames filespec names filelist = none := by
  induction names generalizing filelist with
  | nil =>
    rw [if_pos (fun _ h => absurd h List.not_mem_nil)]
    exact ⟨filelist, rfl, hsorted, by rw [List.filter_nil, List.append_nil]⟩
  | cons name names ih =>
    simp only [List.forall_mem_cons, readNames]
    cases hmatch : wcMatch filespec (name.bytes ++ [0]) with
    | none => rw [if_neg (fun h => h.1 rfl)]
    | some b =>
      simp only [ne_eq, reduceCtorEq, not_false_eq_true, true_and]
      cases b with
      | false =>
        rw [List.filter_cons_of_neg (by simp [hmatch])]
        exact ih filelist hsorted
      | true =>
        have hinsert := ih (insertSorted name filelist) (List.Pairwise.orderedInsert _ _ hsorted)
        rw [List.filter_cons_of_pos (by simp [hmatch])]
        split_ifs at hinsert ⊢ with hall
        · obtain ⟨found, heq, hfound, hperm⟩ := hinsert
          refine ⟨found, heq, hfound, hperm.trans ?_⟩
          exact ((List.perm_orderedInsert _ name filelist).append_right _).trans
            List.perm_middle.symm
        · exact hinsert

/-- `wc_match` takes a name. -/
def Tree.Takes (tree : Tree) (filespec name : FileName) : Prop :=
  wcMatch (tree.addressed filespec).2 (name.bytes ++ [0]) = some true

instance (tree : Tree) (filespec name : FileName) : Decidable (tree.Takes filespec name) :=
  inferInstanceAs (Decidable (_ = _))

/-- The names that `wc_match` takes, in ascending order. -/
def Tree.taken (tree : Tree) (filespec : FileName) : List FileName :=
  match tree.present filespec with
  | none => []
  | some dir =>
    (dir.names.filter (tree.Takes filespec ·)).insertionSort fun a b => a.bytes ≤ b.bytes

theorem mem_taken {tree : Tree} {filespec name : FileName} : name ∈ tree.taken filespec ↔
    ∃ dir, tree.present filespec = some dir ∧ name ∈ dir.names ∧ tree.Takes filespec name := by
  rw [Tree.taken]
  cases tree.present filespec with
  | none => simp
  | some dir =>
    simp only [List.mem_insertionSort, List.mem_filter, decide_eq_true_eq, Option.some.injEq,
      exists_eq_left']

/-- What is found in the addressed directory are the names that `wc_match` takes. -/
theorem readNames_taken {tree : Tree} {filespec : FileName} {dir : Directory}
    (hdir : tree.present filespec = some dir) :
    readNames (tree.addressed filespec).2 dir.names [] =
      if ∀ name ∈ dir.names, wcMatch (tree.addressed filespec).2 (name.bytes ++ [0]) ≠ none then
        some (tree.taken filespec)
      else none := by
  have hread := readNames_eq (tree.addressed filespec).2 dir.names [] List.Pairwise.nil
  split_ifs at hread ⊢ with hall
  · obtain ⟨found, heq, hsorted, hperm⟩ := hread
    rw [heq, Option.some.injEq, Tree.taken, hdir]
    apply ascending_unique hsorted (List.pairwise_insertionSort ..)
    exact hperm.trans (List.perm_insertionSort ..).symm
  · exact hread

/-! ## The records -/

/-- The record of an entry, with a text or without one. -/
def entryData (host : Host) (text : Option FileName) : List UInt8 :=
  message host aftpListEntry (text.toList.map (FileName.param aftpFilespec))

/-- The record that says that a listing is complete. -/
def listedData (host : Host) : List UInt8 := message host aftpListComplete []

/-- The record that a listing begins with. -/
def openedData (host : Host) (directory : FileName) : List UInt8 :=
  message host Libaftp.aftpSimpleResponse
    [.char Libaftp.aftpStatusReturnCode 0, directory.param aftpFilespec]

/-- The texts that are sent for names, where `filestats` is what the call before has found. -/
def shown (tree : Tree) (filetype infolevel : UInt8) : Stats → List FileName → List (Option FileName)
  | _, [] => []
  | filestats, name :: names =>
    let filestats := (tree.stat name.bytes).getD filestats
    (if ofType filetype filestats.isDir then some (filestats.text infolevel name) else none) ::
      shown tree filetype infolevel filestats names

theorem sendEntries_eq (host : Host) (tree : Tree) (filetype infolevel : UInt8)
    (names : List FileName) (filestats : Stats) (record : Record) :
    ∃ record', sendEntries host tree filetype infolevel names filestats record =
      (record', (shown tree filetype infolevel filestats names).map (entryData host) ++
        [listedData host]) := by
  induction names generalizing filestats record with
  | nil =>
    refine ⟨_, Prod.ext rfl ?_⟩
    exact congrArg (· :: []) (sendAsuiterecord_build host record aftpListComplete [])
  | cons name names ih =>
    rw [sendEntries, shown]
    simp only
    set stats := (tree.stat name.bytes).getD filestats
    set typed := asuiterecordSettype host (asuiterecordClear record) aftpListEntry with htyped
    set r := if ofType filetype stats.isDir then
      asuiterecordAppend host typed aftpFilespec (filestring infolevel stats name)
        ((filestring infolevel stats name).length + 1) else typed with hr
    obtain ⟨record', heq⟩ := ih stats r
    have hsend : sendAsuiterecord r = entryData host
        (if ofType filetype stats.isDir then some (stats.text infolevel name) else none) := by
      rw [hr]
      split_ifs with htype
      · have happend := (stats.text infolevel name).append_eq host typed aftpFilespec
        rw [show asuiterecordAppend host typed aftpFilespec (filestring infolevel stats name)
          ((filestring infolevel stats name).length + 1) = _ from happend]
        exact sendAsuiterecord_build host record aftpListEntry
          [(stats.text infolevel name).param aftpFilespec]
      · exact sendAsuiterecord_build host record aftpListEntry []
    exact ⟨record', by rw [heq, hsend]; rfl⟩

/-! ## The request -/

/-- What the file system says first of a name, unless it refuses it: neither the name nor its
directory is there, or the latter is not a directory. -/
def Tree.start (tree : Tree) (filespec : FileName) : Option Stats :=
  match tree.lstat filespec.bytes with
  | some filestats => some filestats
  | none => ((tree.directory filespec).bind tree.lstat).filter Stats.isDir

/-- The request for a listing -/
def listData (host : Host) (filespec : FileName) (filetype infolevel : UInt8) : List UInt8 :=
  message host aftpListRequest
    [filespec.param aftpFilespec, .char aftpFileType filetype, .char aftpInfoLevel infolevel]

/-- What the loop of `a_list_request` does for a parameter. -/
def listStep (host : Host) (sys : System W) (x : Call) (a : W × ListKeys) :
    (W × ListKeys) ⊕ Unit :=
  if x.key = aftpFilespec then
    match sys.malloc a.1 with
    | (false, _) => .inr ()
    | (true, w) => .inl (w, { a.2 with filespec := some ((x.data host).takeWhile (· ≠ 0)) })
  else if x.key = aftpFileType then
    .inl (a.1, { a.2 with filetype := (x.data host).headD 0 })
  else if x.key = aftpInfoLevel then
    .inl (a.1, { a.2 with infolevel := some ((x.data host).headD 0) })
  else .inl a

theorem listBody_eq {host : Host} {sys : System W} {record : Record} {x : Call} {c : Nat}
    (h : Stands host record c x) (hx : Asks host { names := [aftpFilespec] } x) (a : W × ListKeys) :
    listBody sys record c a = listStep host sys x a := by
  have hkey := (h.faithful hx.faithful).1
  rw [listBody, hkey]
  by_cases hname : x.key = aftpFilespec
  · rw [if_pos hname, h.string hx.faithful (hx.string (List.mem_singleton.mpr hname))]
    exact (if_pos hname).symm
  · obtain ⟨b, rest, hdata⟩ := List.exists_cons_of_ne_nil hx.nonempty
    rw [if_neg hname, listStep, if_neg hname, h.first hx.faithful hdata, hdata, List.headD_cons]

/-- `a_list_request`, once its parameters have been read. -/
theorem aListRequest_served (sys : System W) (tree : Tree) {host : Host} {s : Server W}
    {f : FileName} {filetype infolevel : UInt8}
    (h : Holds s.record (listData host f filetype infolevel))
    (hfits : (listData host f filetype infolevel).length ≤ maxBufferSize) :
    aListRequest host sys tree s =
      match sys.malloc s.world with
      | (false, _) => none
      | (true, world) =>
        match tree.start f with
        | none => some ({ s with world },
            [simpleResponse host rcFailInputError 0 aErrInvalidPath])
        | some filestats => listFiles host tree ⟨some f.bytes, filetype, some infolevel⟩
            (tree.directory f) (tree.addressed f).1 (tree.addressed f).2 filestats
            { s with world } := by
  have hasks : ∀ x ∈ [f.param aftpFilespec, .char aftpFileType filetype,
      .char aftpInfoLevel infolevel], Asks host { names := [aftpFilespec] } x := by
    simp only [List.forall_mem_cons, List.not_mem_nil, false_implies, implies_true, and_true]
    refine ⟨f.asks host _, ⟨trivial, fun hkey => ?_, List.cons_ne_nil _ _⟩,
      ⟨trivial, fun hkey => ?_, List.cons_ne_nil _ _⟩⟩
    · exact absurd hkey (show ¬ aftpFileType ∈ [aftpFilespec] by decide)
    · exact absurd hkey (show ¬ aftpInfoLevel ∈ [aftpFilespec] by decide)
  have hscan := scan_message (listBody sys s.record) (fun _ => listStep host sys) h
    (List.cons_ne_nil _ _) (fun x hx => (hasks x hx).faithful) hfits
    (fun x hx c a hc => listBody_eq hc (hasks x hx) a) (s.world, {})
  have htype : ¬ aftpFileType = aftpFilespec := by decide
  have hlevel : ¬ aftpInfoLevel = aftpFilespec := by decide
  have hlevel' : ¬ aftpInfoLevel = aftpFileType := by decide
  simp only [scanCalls, listStep, FileName.key_param, FileName.string_param, key_char, if_true,
    htype, hlevel, hlevel', if_false] at hscan
  rw [aListRequest, hscan]
  cases sys.malloc s.world with
  | mk done world =>
    cases done with
    | false => rfl
    | true =>
      have hdirectory : (if gDirname f.bytes = [46] then tree.cwd.map FileName.bytes
          else some (gDirname f.bytes)) = tree.directory f := rfl
      have hdata (b : UInt8) (key : UInt8) : ((Call.char key b).data host).headD 0 = b := rfl
      simp only [Option.bind_eq_bind, Option.bind_some, hdata, hdirectory]
      rw [Tree.start, Tree.addressed]
      cases tree.lstat f.bytes with
      | some filestats =>
        simp only
        by_cases hdir : filestats.isDir = true
        · rw [if_pos hdir, if_pos hdir]
        · rw [if_neg hdir, if_neg hdir]
      | none =>
        simp only
        cases (tree.directory f).bind tree.lstat with
        | none => rfl
        | some filestats =>
          simp only
          by_cases hdir : filestats.isDir = true
          · rw [if_pos hdir, Option.filter_some_pos hdir]
          · rw [if_neg hdir, Option.filter_some_neg (Bool.eq_false_of_not_eq_true hdir)]

section Files

variable {host : Host} {tree : Tree} {f : FileName} {filetype infolevel : UInt8}
  {filestats : Stats} {s : Server W}

/-- A directory that cannot be opened leaves the list unset. -/
theorem listFiles_closed (keys : ListKeys) (h : tree.present f = none) :
    listFiles host tree keys (tree.directory f) (tree.addressed f).1 (tree.addressed f).2 filestats
      s = none := by
  rw [listFiles, show (tree.addressed f).1.bind tree.opendir = none from h]
  rfl

variable {dir : Directory}

theorem listFiles_overrun (keys : ListKeys) (h : tree.present f = some dir)
    (hmatch : ¬ ∀ n ∈ dir.names, wcMatch (tree.addressed f).2 (n.bytes ++ [0]) ≠ none) :
    listFiles host tree keys (tree.directory f) (tree.addressed f).1 (tree.addressed f).2 filestats
      s = none := by
  rw [listFiles, show (tree.addressed f).1.bind tree.opendir = some dir from h]
  simp only [Option.bind_eq_bind, Option.bind_some, readNames_taken h, if_neg hmatch,
    Option.bind_none]

variable (hmatch : ∀ n ∈ dir.names, wcMatch (tree.addressed f).2 (n.bytes ++ [0]) ≠ none)

include hmatch

/-- Where no name is taken, that is what is answered. -/
theorem listFiles_nothing (keys : ListKeys) (h : tree.present f = some dir)
    (htaken : tree.taken f = []) :
    listFiles host tree keys (tree.directory f) (tree.addressed f).1 (tree.addressed f).2 filestats
      s = some (s, [simpleResponse host rcFailInputError 0 aErrNoFilesFound]) := by
  rw [listFiles, show (tree.addressed f).1.bind tree.opendir = some dir from h]
  simp only [Option.bind_eq_bind, Option.bind_some, readNames_taken h, if_pos hmatch, htaken,
    if_true]
  rfl

theorem listFiles_nowhere (keys : ListKeys) (h : tree.present f = some dir)
    (htaken : tree.taken f ≠ []) (hdirectory : tree.directory f = none) :
    listFiles host tree keys (tree.directory f) (tree.addressed f).1 (tree.addressed f).2 filestats
      s = none := by
  rw [listFiles, show (tree.addressed f).1.bind tree.opendir = some dir from h]
  simp only [Option.bind_eq_bind, Option.bind_some, readNames_taken h, if_pos hmatch,
    if_neg htaken, hdirectory, Option.bind_none]

/-- Otherwise there is a record for each name. -/
theorem listFiles_served (h : tree.present f = some dir) (htaken : tree.taken f ≠ [])
    {directory : FileName} (hdirectory : tree.directory f = some directory.bytes) :
    ∃ record, listFiles host tree ⟨some f.bytes, filetype, some infolevel⟩ (tree.directory f)
        (tree.addressed f).1 (tree.addressed f).2 filestats s =
      some ({ s with record }, openedData host directory ::
        ((shown tree filetype infolevel filestats (tree.taken f)).map (entryData host) ++
          [listedData host])) := by
  set opened := [Call.char Libaftp.aftpStatusReturnCode 0, directory.param aftpFilespec].foldl
    (fun r x => x.run host r)
    (asuiterecordSettype host (asuiterecordClear s.record) Libaftp.aftpSimpleResponse) with hopened
  obtain ⟨record, heq⟩ := sendEntries_eq host tree filetype infolevel (tree.taken f) filestats
    opened
  have hsend : sendAsuiterecord opened = openedData host directory :=
    sendAsuiterecord_build host s.record Libaftp.aftpSimpleResponse _
  have happend : asuiterecordAppend host (asuiterecordAppendChar host
      (asuiterecordSettype host (asuiterecordClear s.record) Libaftp.aftpSimpleResponse)
      Libaftp.aftpStatusReturnCode 0) aftpFilespec directory.bytes (directory.bytes.length + 1) =
      opened :=
    directory.append_eq host _ aftpFilespec
  refine ⟨record, ?_⟩
  rw [listFiles, show (tree.addressed f).1.bind tree.opendir = some dir from h]
  simp only [Option.bind_eq_bind, Option.bind_some, readNames_taken h, if_pos hmatch,
    if_neg htaken, hdirectory, happend, heq, hsend]
  rfl

end Files

end LinuxSna.Asuite.Ftp
