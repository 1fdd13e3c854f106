import LinuxSna.Proof.Asuite.Ftp.Listing
import LinuxSna.Proof.Asuite.Ftp.Outcomes
import LinuxSna.Proof.Asuite.Received
import LinuxSna.Proof.Asuite.Wildcard

/-!
# Listings at the client

What `aftp_dir_open` and `aftp_dir_read` make of the records of a listing.

* `dirReads_eq`: a record without a name returns what stands behind it in the buffer, which is the
  entry before it;
* `lists_of_opened`: so each name that `wc_match` takes has to show one that is asked for;
* `taken_eq_asked`: it takes the names that match, where it is right;
* `lists_iff`: when the names that are asked for are listed.
-/

namespace LinuxSna.Asuite.Ftp

variable {V W : Type}

/-! ## Opening -/

/-- What the loop of `aftp_dir_open` does for a parameter. -/
def openStep (host : Host) (pathBufferLength c : Nat) (x : Call) (a : Client.Opened) :
    Client.Opened ⊕ Unit :=
  if x.key = Libaftp.aftpStatusReturnCode then
    .inl { a with session := Client.takeStatus c a.session }
  else if x.key = aftpFilespec then
    let path := (x.data host).takeWhile (· ≠ 0)
    if path.length < pathBufferLength then .inl { a with path := some path } else .inr ()
  else if x.key = Libaftp.aftpStatusCategoryIndex then
    let (rc, session) := Client.takeCategory host c a.session
    .inl { a with rc, session }
  else if x.key = Libaftp.aftpStatusPrimaryMsg then
    .inl { a with session := Client.setPrimaryMsg c a.session }
  else .inl a

theorem openBody_eq {host : Host} {pathBufferLength c : Nat} {record : Record} {x : Call}
    (h : Stands host record c x) (hx : x.Faithful)
    (hstring : x.key = aftpFilespec → 0 ∈ x.data host) (a : Client.Opened) :
    Client.openBody host pathBufferLength record c a = openStep host pathBufferLength c x a := by
  rw [Client.openBody, openStep, (h.faithful hx).1]
  by_cases hname : x.key = aftpFilespec
  · rw [h.string hx (hstring hname)]
  · simp only [if_neg hname]

/-- What stands behind the type of a record: the return code, or the name of an entry. -/
def Behind (record : Record) : Option FileName → Prop
  | none => getKey record 2 = Libaftp.aftpStatusReturnCode
  | some text => Stands .little record 2 (text.param aftpFilespec)

/-- The client has received a record. -/
def Conn.heard (c : Conn V W) (data : List UInt8) (rest : List (List UInt8)) : Conn V W :=
  { c with
    session := { c.session with record := getAsuiterecord data c.session.record }
    responses := rest }

theorem receive_cons {c : Conn V W} {data : List UInt8} {rest : List (List UInt8)}
    (h : c.responses = data :: rest) : c.receive = some (c.heard data rest) := by
  rw [Conn.receive, h]
  rfl

/-- What the client makes of the first answer. -/
def openAnswer (pathBufferLength : Nat) (c : Conn V W) :
    Option (Nat × Option (List UInt8) × Conn V W) := do
  let record := c.session.record
  if getMajorCode record = Libaftp.aftpSimpleResponse then
    match ← scan .little record (getReceivedLen record)
        (Client.openBody .little pathBufferLength record) ⟨rcOk, none, c.session⟩ with
    | .inr () => none
    | .inl a => return (a.rc, a.path, { c with session := a.session })
  else return (rcOk, none, c)

/-- The first answer says that the listing has begun. -/
theorem openAnswer_opened {pathBufferLength : Nat} {c : Conn V W} {directory : FileName}
    (h : Holds c.session.record (openedData .little directory))
    (hfits : (openedData .little directory).length ≤ maxBufferSize) :
    if directory.length < pathBufferLength then
      ∃ c', openAnswer pathBufferLength c = some (rcOk, some directory.bytes, c') ∧
        c'.responses = c.responses ∧ Behind c'.session.record none
    else openAnswer pathBufferLength c = none := by
  have hfaithful : ∀ x ∈ [Call.char Libaftp.aftpStatusReturnCode 0, directory.param aftpFilespec],
      x.Faithful := by
    simp only [List.forall_mem_cons, List.not_mem_nil, false_implies, implies_true, and_true]
    exact ⟨trivial, directory.param_faithful _⟩
  have hstring : ∀ x ∈ [Call.char Libaftp.aftpStatusReturnCode 0, directory.param aftpFilespec],
      x.key = aftpFilespec → 0 ∈ x.data .little := by
    simp only [List.forall_mem_cons, List.not_mem_nil, false_implies, implies_true, and_true]
    refine ⟨fun hkey => ?_, fun _ => directory.zero_mem_param .little aftpFilespec⟩
    exact absurd hkey (show ¬ Libaftp.aftpStatusReturnCode = aftpFilespec by decide)
  have hscan := scan_message (Client.openBody .little pathBufferLength c.session.record)
    (openStep .little pathBufferLength) h (List.cons_ne_nil _ _) hfaithful hfits
    (fun x hx c a hc => openBody_eq hc (hfaithful x hx) (hstring x hx) a) ⟨rcOk, none, c.session⟩
  have hother : ¬ aftpFilespec = Libaftp.aftpStatusReturnCode := by decide
  simp only [scanCalls, openStep, key_char, FileName.key_param, FileName.string_param, if_true,
    hother, if_false] at hscan
  have hmajor := h.majorCode (show Libaftp.aftpSimpleResponse < 256 by decide)
  by_cases hpath : directory.length < pathBufferLength
  · rw [if_pos (show directory.bytes.length < pathBufferLength from hpath)] at hscan
    rw [if_pos hpath, openAnswer, hmajor, if_pos rfl, hscan]
    refine ⟨_, rfl, rfl, ?_⟩
    exact ((h.stands_first _ hfits).faithful trivial).1
  · rw [if_neg (show ¬ directory.bytes.length < pathBufferLength from hpath)] at hscan
    rw [if_neg hpath, openAnswer, hmajor, if_pos rfl, hscan]
    rfl

/-- The first answer is an error. -/
theorem openAnswer_refused {pathBufferLength : Nat} {c : Conn V W} {index : Nat}
    (h : Holds c.session.record (simpleResponse .little rcFailInputError 0 index)) :
    ∃ c', openAnswer pathBufferLength c = some (rcFailFatal, none, c') ∧
      c'.responses = c.responses := by
  have hlength := length_simpleResponse .little rcFailInputError 0 index
  rw [simpleResponse_eq] at h hlength
  have hfits : (message .little Libaftp.aftpSimpleResponse
      (statusCalls rcFailInputError 0 index)).length ≤ maxBufferSize := by
    rw [hlength]
    decide
  have hfaithful := statusCalls_faithful rcFailInputError 0 index
  have hstring : ∀ x ∈ statusCalls rcFailInputError 0 index,
      x.key = aftpFilespec → 0 ∈ x.data .little := by
    intro x hx hkey
    have hkeys : ∀ y ∈ statusCalls rcFailInputError 0 index, ¬ y.key = aftpFilespec := by
      simp only [statusCalls, show rcFailInputError ≠ 0 by decide, if_true, ne_eq,
        not_false_eq_true, List.forall_mem_cons, List.not_mem_nil, false_implies, implies_true,
        and_true]
      exact ⟨show ¬ Libaftp.aftpStatusReturnCode = aftpFilespec by decide,
        show ¬ Libaftp.aftpStatusCategoryIndex = aftpFilespec by decide,
        show ¬ Libaftp.aftpStatusPrimaryMsg = aftpFilespec by decide⟩
    exact absurd hkey (hkeys x hx)
  have hscan := scan_message (Client.openBody .little pathBufferLength c.session.record)
    (openStep .little pathBufferLength) h (List.cons_ne_nil _ _) hfaithful hfits
    (fun x hx c a hc => openBody_eq hc (hfaithful x hx) (hstring x hx) a) ⟨rcOk, none, c.session⟩
  have hmajor := h.majorCode (show Libaftp.aftpSimpleResponse < 256 by decide)
  rw [openAnswer, hmajor, if_pos rfl, hscan]
  exact ⟨_, rfl, rfl⟩

/-- The request of a query. -/
def Query.data (q : Query) : List UInt8 := listData .little q.filespec q.type.code q.level.code

theorem send_listRequest (q : Query) (record : Record) :
    sendAsuiterecord (Client.listRequest .little q.filespec.bytes q.filespec.length q.type.code
      q.level.code record) = q.data := by
  rw [Client.listRequest, q.filespec.append_eq]
  exact sendAsuiterecord_build .little record aftpListRequest [q.filespec.param aftpFilespec,
    .char aftpFileType q.type.code, .char aftpInfoLevel q.level.code]

/-- `aftp_dir_open`, by what the server makes of the request. -/
theorem dirOpen_eq (env : Env V W) (tree : Tree) (q : Query) {c : Conn V W}
    (hempty : c.responses = []) (hfits : q.data.length ≤ maxBufferSize) :
    ∃ record, q.open env tree c =
      (aListRequest .little env.server tree (c.server.received q.data)).bind fun (server, sent) =>
        match sent with
        | [] => none
        | data :: rest =>
          openAnswer q.pathBufferLength (Conn.heard { c with
            session := { c.session with record }, server := server } data rest) := by
  have hmajor : getMajorCode (c.server.received q.data).record = aftpListRequest :=
    (received_holds q.data c.server).majorCode (by decide)
  refine ⟨Client.listRequest .little q.filespec.bytes q.filespec.length q.type.code
    q.level.code c.session.record, ?_⟩
  rw [Query.open, Client.aftpDirOpen]
  simp only [send_listRequest, if_neg (Nat.not_lt.mpr hfits), serveListing, hmajor, if_true,
    Option.bind_eq_bind]
  cases aListRequest .little env.server tree (c.server.received q.data) with
  | none => rfl
  | some served =>
    obtain ⟨server, sent⟩ := served
    simp only [Option.bind_some, hempty, List.nil_append]
    cases sent with
    | nil => rfl
    | cons data rest => rfl

/-- A request that does not fit is not made. -/
theorem dirOpen_none (env : Env V W) (tree : Tree) (q : Query) (c : Conn V W)
    (hfits : ¬ q.data.length ≤ maxBufferSize) : q.open env tree c = none := by
  rw [Query.open, Client.aftpDirOpen]
  simp only [send_listRequest, if_pos (Nat.lt_of_not_le hfits)]

/-! ## Reading -/

/-- What the loop of `aftp_dir_read` does for a name. -/
theorem readBody_text {record : Record} {text : FileName} {size : Nat}
    (h : Stands .little record 2 (text.param aftpFilespec)) (a : Client.DirRead × Ftpsession) :
    Client.readBody .little size record 2 a =
      if text.length < size then
        .inl ({ a.1 with entry := some text.bytes, noMore := some false }, a.2)
      else .inr () := by
  have hfaithful := text.param_faithful aftpFilespec
  have hstring := h.string hfaithful (text.zero_mem_param .little aftpFilespec)
  rw [text.string_param] at hstring
  rw [Client.readBody, (h.faithful hfaithful).1, FileName.key_param, if_pos rfl, hstring]
  rfl

/-- What a call returns of an entry, or of none. -/
def readOf (text : Option FileName) : Client.DirRead :=
  ⟨rcOk, text.map FileName.bytes, text.map fun _ => false⟩

/-- A text fits into the buffer for an entry. -/
def Short (size : Nat) (text : Option FileName) : Prop := ∀ t, text = some t → t.length < size

theorem short_none (size : Nat) : Short size none := fun _ h => absurd h (by simp)

theorem short_some {size : Nat} {text : FileName} :
    Short size (some text) ↔ text.length < size :=
  ⟨fun h => h text rfl, fun h _ ht => Option.some.inj ht ▸ h⟩

instance (size : Nat) (text : Option FileName) : Decidable (Short size text) :=
  match text with
  | none => isTrue (short_none size)
  | some _ => decidable_of_iff _ short_some.symm

theorem readBody_none {record : Record} {size : Nat}
    (h : getKey record 2 = Libaftp.aftpStatusReturnCode) (a : Client.DirRead × Ftpsession) :
    Client.readBody .little size record 2 a = .inl a := by
  have hname : ¬ Libaftp.aftpStatusReturnCode = aftpFilespec := by decide
  have hcategory : ¬ Libaftp.aftpStatusReturnCode = Libaftp.aftpStatusCategoryIndex := by decide
  have hmsg : ¬ Libaftp.aftpStatusReturnCode = Libaftp.aftpStatusPrimaryMsg := by decide
  rw [Client.readBody, h, if_neg hname, if_neg hcategory, if_neg hmsg]

/-- What the loop does for what stands behind the type. -/
theorem readBody_behind {record : Record} {text : Option FileName} {size : Nat}
    (h : Behind record text) (session : Ftpsession) :
    Client.readBody .little size record 2 (⟨rcOk, none, none⟩, session) =
      if Short size text then .inl (readOf text, session) else .inr () := by
  cases text with
  | none =>
    rw [if_pos (short_none size), readBody_none h]
    rfl
  | some text =>
    rw [readBody_text h]
    by_cases hshort : text.length < size
    · rw [if_pos hshort, if_pos (short_some.mpr hshort)]
      rfl
    · rw [if_neg hshort, if_neg (mt short_some.mp hshort)]

/-- A loop that ends with its first parameter. -/
theorem scan_once {σ ρ : Type} {host : Host} {record : Record} {stop : Nat}
    (body : Nat → σ → σ ⊕ ρ) (hstop : stop ≤ 2 + getParamLen host record 2) (a : σ) :
    scan host record stop body a = some (body 2 a) := by
  have hlt := getParamLen_lt host record 2
  rw [scan, scanFrom, Nat.mod_eq_of_lt (by omega)]
  cases body 2 a with
  | inl b => exact if_neg (Nat.not_lt.mpr hstop)
  | inr r => rfl

/-- What stands behind the type stays, if only a type is received. -/
theorem Behind.heard {record : Record} {text : Option FileName} (h : Behind record text)
    {data : List UInt8} (hdata : data.length = 2) : Behind (getAsuiterecord data record) text := by
  have hbuffer (i : Nat) (hi : 2 ≤ i) : (getAsuiterecord data record).buffer i = record.buffer i :=
    getAsuiterecord_behind data record (hdata.trans_le hi)
  cases text with
  | none => exact (hbuffer 4 (by decide)).trans h
  | some text =>
    have hslice (n : Nat) : (getAsuiterecord data record).slice 2 n = record.slice 2 n :=
      List.map_congr_left fun i _ => hbuffer (2 + i) (Nat.le_add_right ..)
    exact ⟨(hslice _).trans h.slice, h.fits⟩

/-- One call, for the record of an entry: if there is no text in it, what is returned is the one
before. -/
theorem dirRead_entry {c : Conn V W} {text before : Option FileName} (size : Nat)
    {rest : List (List UInt8)} (hresponses : c.responses = entryData .little text :: rest)
    (hbefore : Behind c.session.record before)
    (hfits : (entryData .little text).length ≤ maxBufferSize) :
    if Short size (text.or before) then
      ∃ c', Client.aftpDirRead .little size c = some (readOf (text.or before), c') ∧
        c'.responses = rest ∧ Behind c'.session.record (text.or before)
    else Client.aftpDirRead .little size c = none := by
  have hholds := holds_getAsuiterecord (entryData .little text) c.session.record
  have hmajor := hholds.majorCode (show aftpListEntry < 256 by decide)
  set record := getAsuiterecord (entryData .little text) c.session.record with hrecord
  obtain ⟨hbehind, hstop⟩ : Behind record (text.or before) ∧
      getReceivedLen record ≤ 2 + getParamLen .little record 2 := by
    cases text with
    | none =>
      refine ⟨hbefore.heard rfl, ?_⟩
      exact hholds.position.trans_le (Nat.le_add_right 2 _)
    | some text =>
      have hstands := Holds.stands_first [] hholds hfits
      refine ⟨hstands, ?_⟩
      rw [(hstands.faithful (text.param_faithful _)).2.1]
      refine (Holds.position_message hholds).trans_le ?_
      rw [Option.toList_some, List.map_singleton, List.flatMap_singleton]
  have hscan := scan_once (Client.readBody .little size record) hstop
    (⟨rcOk, none, none⟩, { c.session with record })
  rw [readBody_behind hbehind] at hscan
  rw [Client.aftpDirRead, receive_cons hresponses]
  simp only [Option.bind_eq_bind, Option.bind_some, Conn.heard, ← hrecord, hmajor, aftpListEntry]
  rw [hscan]
  by_cases hshort : Short size (text.or before)
  · rw [if_pos hshort, if_pos hshort]
    exact ⟨_, rfl, rfl, hbehind⟩
  · rw [if_neg hshort, if_neg hshort]
    rfl

/-- The call that sets `no_more_entries`. -/
theorem dirRead_listed {c : Conn V W} {size : Nat} {rest : List (List UInt8)}
    (hresponses : c.responses = listedData .little :: rest) :
    Client.aftpDirRead .little size c =
      some (⟨rcOk, none, some true⟩, c.heard (listedData .little) rest) := by
  have hholds := holds_getAsuiterecord (listedData .little) c.session.record
  have hmajor := hholds.majorCode (show aftpListComplete < 256 by decide)
  rw [Client.aftpDirRead, receive_cons hresponses]
  simp only [Option.bind_eq_bind, Option.bind_some, Conn.heard, hmajor, aftpListComplete]
  rfl

/-- What the calls return of texts, where this one stands in the buffer. -/
def readsOf : Option FileName → List (Option FileName) → List Client.DirRead
  | _, [] => []
  | before, text :: texts => readOf (text.or before) :: readsOf (text.or before) texts

/-- The calls, until one sets `no_more_entries`. -/
theorem dirReads_eq {texts : List (Option FileName)} {size : Nat} {c : Conn V W}
    {before : Option FileName}
    (hresponses : c.responses = texts.map (entryData .little) ++ [listedData .little])
    (hbefore : Behind c.session.record before)
    (hfits : ∀ text ∈ texts, (entryData .little text).length ≤ maxBufferSize)
    (hshort : Short size before) :
    if ∀ text ∈ texts, Short size text then
      ∃ c', c'.responses = [] ∧ ∀ n, Client.dirReads .little size n c =
        if texts.length < n then some (readsOf before texts, c') else none
    else ∀ n, Client.dirReads .little size n c = none := by
  induction texts generalizing c before with
  | nil =>
    rw [if_pos (fun _ h => absurd h List.not_mem_nil)]
    refine ⟨c.heard (listedData .little) [], rfl, fun n => ?_⟩
    cases n with
    | zero => rfl
    | succ n =>
      have hpos : ([] : List (Option FileName)).length < n + 1 := Nat.succ_pos n
      rw [Client.dirReads, dirRead_listed hresponses, if_pos hpos]
      rfl
  | cons text texts ih =>
    rw [List.forall_mem_cons] at hfits
    have hread := dirRead_entry size hresponses hbefore hfits.1
    have hor : Short size text ↔ Short size (text.or before) := by
      cases text with
      | none => exact iff_of_true (short_none size) hshort
      | some text => exact Iff.rfl
    simp only [List.forall_mem_cons, hor]
    by_cases htext : Short size (text.or before)
    · rw [if_pos htext] at hread
      obtain ⟨c', hread, hresponses', hbehind⟩ := hread
      have hrest := ih hresponses' hbehind hfits.2 htext
      simp only [htext, true_and]
      have hnoMore : ¬ (readOf (text.or before)).noMore = some true := by
        cases text.or before <;> simp [readOf]
      split_ifs at hrest ⊢ with hall
      · obtain ⟨c'', hempty, hreads⟩ := hrest
        refine ⟨c'', hempty, fun n => ?_⟩
        cases n with
        | zero => rfl
        | succ n =>
          rw [Client.dirReads, hread]
          simp only [Option.bind_eq_bind, Option.bind_some, if_neg hnoMore, hreads n,
            List.length_cons, Nat.succ_lt_succ_iff]
          split_ifs
          · rfl
          · rfl
      · intro n
        cases n with
        | zero => rfl
        | succ n =>
          rw [Client.dirReads, hread]
          simp only [Option.bind_eq_bind, Option.bind_some, if_neg hnoMore, hrest n,
            Option.bind_none]
    · rw [if_neg htext] at hread
      rw [if_neg fun h => htext h.1]
      intro n
      cases n with
      | zero => rfl
      | succ n =>
        rw [Client.dirReads, hread]
        rfl

/-! ## The names that are listed -/

/-- The records of the names that are taken show those that are asked for, one each, and fit: as `stat`
finds the name itself, or else the name before it, it is of the type, and its text is that of the name
asked for; or the text before it is. -/
def Shows (tree : Tree) (type : FileType) (level : InfoLevel) (size : Nat) :
    Option FileName → Stats → List FileName → List FileName → Prop
  | _, _, [], wanted => wanted = []
  | before, filestats, name :: names, wanted =>
    let filestats := (tree.stat name.bytes).getD filestats
    let text := if ofType type.code filestats.isDir then some (filestats.text level.code name) else before
    Short size text ∧ ∃ want rest, wanted = want :: rest ∧
      (∃ t, text = some t ∧ level.Names t.bytes want) ∧
        Shows tree type level size text filestats names rest

theorem readsName_readOf {level : InfoLevel} {name : FileName} {text : Option FileName} :
    ReadsName level name (readOf text) ↔ ∃ t, text = some t ∧ level.Names t.bytes name := by
  cases text with
  | none => simp [ReadsName, readOf]
  | some text => simp [ReadsName, readOf]

/-- The calls return the names exactly if the records show them. -/
theorem readsOf_iff_shows {tree : Tree} {type : FileType} {level : InfoLevel} {size : Nat}
    {before : Option FileName} (hbefore : Short size before) (filestats : Stats)
    (names wanted : List FileName) :
    (∀ text ∈ shown tree type.code level.code filestats names, Short size text) ∧
        List.Forall₂ (ReadsName level) wanted
          (readsOf before (shown tree type.code level.code filestats names)) ↔
      Shows tree type level size before filestats names wanted := by
  induction names generalizing before filestats wanted with
  | nil =>
    rw [shown, readsOf, Shows, List.forall₂_nil_right_iff]
    exact and_iff_right fun _ h => absurd h List.not_mem_nil
  | cons name names ih =>
    rw [shown, readsOf, Shows]
    set stats := (tree.stat name.bytes).getD filestats
    have htext : (if ofType type.code stats.isDir = true then some (stats.text level.code name)
        else none).or before =
        if ofType type.code stats.isDir = true then some (stats.text level.code name) else before := by
      split_ifs <;> rfl
    have hshort : Short size (if ofType type.code stats.isDir = true then
        some (stats.text level.code name) else none) ↔
        Short size (if ofType type.code stats.isDir = true then
          some (stats.text level.code name) else before) := by
      split_ifs
      · rfl
      · exact iff_of_true (short_none size) hbefore
    simp only [List.forall_mem_cons, htext, List.forall₂_cons_right_iff, hshort]
    constructor
    · rintro ⟨⟨htext', hall⟩, want, rest, hread, hreads, rfl⟩
      exact ⟨htext', want, rest, rfl, readsName_readOf.mp hread, (ih htext' _ _).mp ⟨hall, hreads⟩⟩
    · rintro ⟨htext', want, rest, rfl, hread, hshows⟩
      obtain ⟨hall, hreads⟩ := (ih htext' _ _).mpr hshows
      exact ⟨⟨htext', hall⟩, want, rest, readsName_readOf.mpr hread, hreads, rfl⟩

theorem length_readsOf (before : Option FileName) (texts : List (Option FileName)) :
    (readsOf before texts).length = texts.length := by
  induction texts generalizing before with
  | nil => rfl
  | cons text texts ih => rw [readsOf, List.length_cons, List.length_cons, ih]

theorem length_shown (tree : Tree) (filetype infolevel : UInt8) (filestats : Stats)
    (names : List FileName) :
    (shown tree filetype infolevel filestats names).length = names.length := by
  induction names generalizing filestats with
  | nil => rfl
  | cons name names ih => rw [shown, List.length_cons, List.length_cons, ih]

/-- A record with the text of a short name fits. -/
theorem entryData_fits {tree : Tree} {filetype infolevel : UInt8} {names : List FileName}
    (hnames : ∀ name ∈ names, name.length ≤ 255) (filestats : Stats) :
    ∀ text ∈ shown tree filetype infolevel filestats names,
      (entryData .little text).length ≤ maxBufferSize := by
  induction names generalizing filestats with
  | nil => exact fun _ h => absurd h List.not_mem_nil
  | cons name names ih =>
    rw [List.forall_mem_cons] at hnames
    rw [shown, List.forall_mem_cons]
    refine ⟨?_, ih hnames.2 _⟩
    have hmax : maxBufferSize = 32763 := rfl
    split_ifs
    · have hlength := ((tree.stat name.bytes).getD filestats).length_text_le infolevel name
      rw [entryData, length_message, Option.toList_some, List.map_singleton, List.flatMap_singleton,
        FileName.length_param]
      omega
    · rw [hmax]
      decide

/-! ## The listing as a whole -/

section Whole

variable {env : Env V W} {tree : Tree} {q : Query} {c : Conn V W}

theorem not_lists_of_none (h : q.open env tree c = none) : ¬ Lists env tree q c := by
  rintro (⟨_, rc, path, c', hopen, _⟩ | ⟨_, path, c', n, reads, c'', hopen, _⟩)
  · rw [h] at hopen
    exact absurd hopen (by simp)
  · rw [h] at hopen
    exact absurd hopen (by simp)

theorem lists_of_refused {path : Option (List UInt8)} {c' : Conn V W}
    (h : q.open env tree c = some (rcFailFatal, path, c')) (hempty : c'.responses = []) :
    Lists env tree q c ↔ tree.wanted q.filespec q.type = [] := by
  constructor
  · rintro (⟨hwanted, _⟩ | ⟨_, path', c₁, n, reads, c₂, hopen, _⟩)
    · exact hwanted
    · rw [h] at hopen
      exact absurd (congrArg Prod.fst (Option.some.inj hopen))
        (show ¬ rcFailFatal = rcOk by decide)
  · intro hwanted
    exact Or.inl ⟨hwanted, rcFailFatal, path, c', h, by decide, hempty⟩

/-- A listing that has begun: it is right exactly if the names that are taken show those that are
asked for. -/
theorem lists_of_opened {path : Option (List UInt8)} {c' : Conn V W} {filestats : Stats}
    (h : q.open env tree c = some (rcOk, path, c'))
    (hresponses : c'.responses =
      (shown tree q.type.code q.level.code filestats (tree.taken q.filespec)).map
        (entryData .little) ++ [listedData .little])
    (hbehind : Behind c'.session.record none) (htaken : tree.taken q.filespec ≠ []) :
    Lists env tree q c ↔ Shows tree q.type q.level q.dirEntrySize none filestats
      (tree.taken q.filespec) (tree.wanted q.filespec q.type) := by
  have hnames : ∀ name ∈ tree.taken q.filespec, name.length ≤ 255 := by
    intro name hname
    obtain ⟨dir, _, hmem, _⟩ := mem_taken.mp hname
    exact dir.short name hmem
  have hreads := dirReads_eq hresponses hbehind (entryData_fits hnames filestats)
    (short_none q.dirEntrySize)
  rw [← readsOf_iff_shows (short_none _)]
  constructor
  · rintro (⟨_, rc, path', c₁, hopen, hrc, _⟩ | ⟨_, path', c₁, n, reads, c₂, hopen, hread, hall, _⟩)
    · rw [h] at hopen
      exact absurd (congrArg Prod.fst (Option.some.inj hopen)).symm hrc
    · rw [h] at hopen
      obtain rfl : c' = c₁ := congrArg Prod.snd (congrArg Prod.snd (Option.some.inj hopen))
      split_ifs at hreads with hshort
      · obtain ⟨c₃, _, hreads⟩ := hreads
        rw [hreads n] at hread
        split_ifs at hread with hn
        obtain rfl := congrArg Prod.fst (Option.some.inj hread)
        exact ⟨hshort, hall⟩
      · rw [hreads n] at hread
        exact absurd hread (by simp)
  · rintro ⟨hshort, hall⟩
    rw [if_pos hshort] at hreads
    obtain ⟨c₃, hempty, hreads⟩ := hreads
    have hread := hreads ((tree.taken q.filespec).length + 1)
    rw [length_shown, if_pos (Nat.lt_succ_self _)] at hread
    refine Or.inr ⟨fun hasked => htaken (List.length_eq_zero_iff.mp ?_), path, c', _, _, c₃, h, hread, hall, hempty⟩
    -- there is a call for every name that is taken
    have hlength := hall.length_eq
    rw [length_readsOf, length_shown, Tree.wanted, hasked] at hlength
    exact hlength.symm

variable (hempty : c.responses = []) (hfits : q.data.length ≤ maxBufferSize)
  {server : Server W}

include hempty hfits

theorem open_none
    (h : aListRequest .little env.server tree (c.server.received q.data) = none) :
    q.open env tree c = none := by
  obtain ⟨record, hopen⟩ := dirOpen_eq env tree q hempty hfits
  rw [hopen, h]
  rfl

theorem open_refused {index : Nat}
    (h : aListRequest .little env.server tree (c.server.received q.data) =
      some (server, [simpleResponse .little rcFailInputError 0 index])) :
    ∃ c', q.open env tree c = some (rcFailFatal, none, c') ∧ c'.responses = [] := by
  obtain ⟨record, hopen⟩ := dirOpen_eq env tree q hempty hfits
  rw [hopen, h, Option.bind_some]
  exact openAnswer_refused (holds_getAsuiterecord _ _)

theorem open_opened {directory : FileName} {rest : List (List UInt8)}
    (h : aListRequest .little env.server tree (c.server.received q.data) =
      some (server, openedData .little directory :: rest))
    (hdirectory : (openedData .little directory).length ≤ maxBufferSize) :
    if directory.length < q.pathBufferLength then
      ∃ c', q.open env tree c = some (rcOk, some directory.bytes, c') ∧
        c'.responses = rest ∧ Behind c'.session.record none
    else q.open env tree c = none := by
  obtain ⟨record, hopen⟩ := dirOpen_eq env tree q hempty hfits
  rw [hopen, h, Option.bind_some]
  exact openAnswer_opened (holds_getAsuiterecord _ _) hdirectory

end Whole

/-- A record with the directory of a name fits, if the request for it does. -/
theorem openedData_fits {q : Query} {directory : FileName} (hfits : q.data.length ≤ maxBufferSize)
    (h : directory.length ≤ max q.filespec.length 4096) :
    (openedData .little directory).length ≤ maxBufferSize := by
  have hmax : maxBufferSize = 32763 := rfl
  have hchar (key b : UInt8) : ((Call.char key b).bytes .little).length = 4 := by
    rw [Call.length_bytes]
    rfl
  rw [Query.data, listData, length_message] at hfits
  rw [openedData, length_message]
  simp only [List.flatMap_cons, List.flatMap_nil, List.append_nil, List.length_append,
    FileName.length_param, hchar] at hfits ⊢
  omega

/-- When a listing is right: the request fits and there is memory for the name; the directory can be
read, `wc_match` reads no name in it behind its end, and either it takes none and none is asked for,
or the path fits into its buffer, and the names that it takes show those that are asked for. If neither
the name nor a directory for it is found, nothing may be asked for. -/
def ListMeets (env : Env V W) (tree : Tree) (q : Query) (c : Conn V W) : Prop :=
  q.data.length ≤ maxBufferSize ∧ (env.server.malloc c.server.world).1 = true ∧
    match tree.start q.filespec with
    | none => tree.wanted q.filespec q.type = []
    | some filestats => ∃ dir, tree.present q.filespec = some dir ∧
      (∀ name ∈ dir.names,
        wcMatch (tree.addressed q.filespec).2 (name.bytes ++ [0]) ≠ none) ∧
      (tree.taken q.filespec = [] ∧ tree.wanted q.filespec q.type = [] ∨
        ∃ directory, tree.directory q.filespec = some directory ∧
          directory.length < q.pathBufferLength ∧
          Shows tree q.type q.level q.dirEntrySize none filestats (tree.taken q.filespec)
            (tree.wanted q.filespec q.type))

/-- A listing, once the name has been found. -/
theorem lists_of_start {env : Env V W} {tree : Tree} {q : Query} {c : Conn V W} {s : Server W}
    {filestats : Stats} (hempty : c.responses = []) (hfits : q.data.length ≤ maxBufferSize)
    (hserved : aListRequest .little env.server tree (c.server.received q.data) =
      listFiles .little tree ⟨some q.filespec.bytes, q.type.code, some q.level.code⟩
        (tree.directory q.filespec) (tree.addressed q.filespec).1 (tree.addressed q.filespec).2
        filestats s) :
    Lists env tree q c ↔ ∃ dir, tree.present q.filespec = some dir ∧
      (∀ name ∈ dir.names,
        wcMatch (tree.addressed q.filespec).2 (name.bytes ++ [0]) ≠ none) ∧
      (tree.taken q.filespec = [] ∧ tree.wanted q.filespec q.type = [] ∨
        ∃ directory, tree.directory q.filespec = some directory ∧
          directory.length < q.pathBufferLength ∧
          Shows tree q.type q.level q.dirEntrySize none filestats (tree.taken q.filespec)
            (tree.wanted q.filespec q.type)) := by
  cases hpresent : tree.present q.filespec with
  | none =>
    rw [listFiles_closed _ hpresent] at hserved
    refine iff_of_false (not_lists_of_none (open_none hempty hfits hserved)) ?_
    rintro ⟨dir, hdir, _⟩
    exact absurd hdir (by simp)
  | some dir =>
    simp only [Option.some.injEq, exists_eq_left']
    by_cases hmatch : ∀ name ∈ dir.names,
        wcMatch (tree.addressed q.filespec).2 (name.bytes ++ [0]) ≠ none
    · rw [and_iff_right hmatch]
      by_cases htaken : tree.taken q.filespec = []
      · -- nothing is taken, and the server says so
        rw [listFiles_nothing hmatch _ hpresent htaken] at hserved
        obtain ⟨c', hopen, hempty'⟩ := open_refused hempty hfits hserved
        rw [lists_of_refused hopen hempty', htaken]
        constructor
        · exact fun hwanted => Or.inl ⟨rfl, hwanted⟩
        · rintro (⟨_, hwanted⟩ | ⟨_, _, _, hshows⟩)
          · exact hwanted
          · exact hshows
      · rw [or_iff_right fun h => htaken h.1]
        cases hdirectory : tree.directory q.filespec with
        | none =>
          rw [listFiles_nowhere hmatch _ hpresent htaken hdirectory] at hserved
          refine iff_of_false (not_lists_of_none (open_none hempty hfits hserved)) ?_
          rintro ⟨directory, h, _⟩
          exact absurd h (by simp)
        | some directory =>
          simp only [Option.some.injEq, exists_eq_left']
          obtain ⟨name, rfl, hname⟩ := directory_name hdirectory
          obtain ⟨record, heq⟩ := listFiles_served hmatch hpresent htaken hdirectory
          rw [heq] at hserved
          have hopened := open_opened hempty hfits hserved (openedData_fits hfits hname)
          by_cases hpath : name.length < q.pathBufferLength
          · rw [if_pos hpath] at hopened
            obtain ⟨c', hopen, hresponses, hbehind⟩ := hopened
            rw [lists_of_opened hopen hresponses hbehind htaken]
            exact (and_iff_right hpath).symm
          · rw [if_neg hpath] at hopened
            exact iff_of_false (not_lists_of_none hopened) fun h => hpath h.1
    · rw [listFiles_overrun _ hpresent hmatch] at hserved
      refine iff_of_false (not_lists_of_none (open_none hempty hfits hserved)) ?_
      exact fun h => hmatch h.1

/-- A listing, for a request that fits. -/
theorem lists_of_fits {env : Env V W} {tree : Tree} {q : Query} {c : Conn V W}
    (hempty : c.responses = []) (hfits : q.data.length ≤ maxBufferSize) :
    Lists env tree q c ↔ ListMeets env tree q c := by
  have hserved := aListRequest_served env.server tree (received_holds q.data c.server) hfits
  have hworld : (c.server.received q.data).world = c.server.world := rfl
  rw [hworld] at hserved
  rw [ListMeets, and_iff_right hfits]
  cases hmalloc : env.server.malloc c.server.world with
  | mk done world =>
    simp only [hmalloc] at hserved
    cases done with
    | false =>
      refine iff_of_false (not_lists_of_none (open_none hempty hfits hserved)) ?_
      exact fun h => Bool.noConfusion h.1
    | true =>
      rw [eq_self_iff_true, true_and]
      cases hstart : tree.start q.filespec with
      | none =>
        simp only [hstart] at hserved
        obtain ⟨c', hopen, hempty'⟩ := open_refused hempty hfits hserved
        exact lists_of_refused hopen hempty'
      | some filestats =>
        simp only [hstart] at hserved
        exact lists_of_start hempty hfits hserved

/-- There is no NUL in a pattern. -/
theorem zero_notMem_addressed (tree : Tree) (filespec : FileName) :
    0 ∉ (tree.addressed filespec).2 := by
  have hbase : 0 ∉ gBasename filespec.bytes := fun h => by
    have hmem := (List.takeWhile_sublist _).mem (List.mem_reverse.mp h)
    exact filespec.nonzero (List.mem_reverse.mp hmem)
  rw [Tree.addressed]
  split
  · split_ifs
    · show 0 ∉ [42]
      decide
    · exact hbase
  · exact hbase

/-- Where `wc_match` is right for each name, the names that it takes are those that match. -/
theorem taken_eq_asked {tree : Tree} {filespec : FileName}
    (h : ∀ dir, tree.present filespec = some dir → ∀ name ∈ dir.names,
      WellDecided (Asuite.pieces (tree.addressed filespec).2) name.bytes) :
    tree.taken filespec = tree.asked filespec := by
  rw [Tree.taken, Tree.asked]
  cases hdir : tree.present filespec with
  | none => rfl
  | some dir =>
    have hfilter : dir.names.filter (tree.Takes filespec ·) = dir.names.filter (tree.Asks filespec ·) := by
      refine List.filter_congr fun name hname => ?_
      have hright := (wc_match_iff (zero_notMem_addressed tree filespec) name.nonzero).mpr
        (h dir hdir name hname)
      have hiff : tree.Takes filespec name ↔ tree.Asks filespec name := by
        rw [Tree.Takes, hright, Option.some.injEq, matched, decide_eq_true_iff, Tree.Asks]
      simp only [hiff]
    show (dir.names.filter _).insertionSort _ = (dir.names.filter _).insertionSort _
    rw [hfilter]

/-- `.` -/
def dot : FileName := ⟨[46], by decide, by decide⟩

/-- A file system of directories with `abc` in them, and `.`, which alone is a directory. -/
def dotted : Tree where
  cwd := some abc
  cwd_short _ h := Option.some.inj h ▸ (by decide)
  lstat _ := some ⟨true, [], List.not_mem_nil, by decide⟩
  stat path := some ⟨path.getLast? = some 46, [], List.not_mem_nil, by decide⟩
  opendir _ := some ⟨[abc, dot], by decide, by decide⟩

/-- The files in `abc` are asked for. -/
def filesOfAbc : Query := ⟨abc, .file, .filenames, 100, 100⟩

end LinuxSna.Asuite.Ftp
