import LinuxSna.Proof.Asuite.Ftp.Messages
import LinuxSna.Proof.Asuite.Requests
import LinuxSna.Spec.Ftp

/-!
# What the server makes of the requests

Each request that the client sends makes the system calls of its operation, and is answered.

* `withNames_oneName`, `aRename_served`, `aChangeDir_served`: one answer, which says whether the
  system call went through;
* `aSendFile_served`, `aFileData_served`: no answer unless something fails;
* `aFileComplete_served`: one answer.
-/

namespace LinuxSna.Asuite.Ftp

variable {W : Type}

/-! ## Answers -/

/-- The parameters of an answer. -/
def statusCalls (errcode category index : Nat) : List Call :=
  .char Libaftp.aftpStatusReturnCode (UInt8.ofNat errcode) ::
    if errcode ≠ 0 then
      [.twobyte Libaftp.aftpStatusCategoryIndex [category, index],
        .append Libaftp.aftpStatusPrimaryMsg errorText]
    else []

theorem simpleResponse_eq (host : Host) (errcode category index : Nat) :
    simpleResponse host errcode category index =
      message host Libaftp.aftpSimpleResponse (statusCalls errcode category index) := by
  rw [← sendAsuiterecord_build host asuiterecordNew, simpleResponse, statusCalls]
  by_cases he : errcode ≠ 0
  · rw [if_pos he, if_pos he]
    rfl
  · rw [if_neg he, if_neg he]
    rfl

/-- The answer that all is well, or one of those that something has failed. -/
def Says (host : Host) (done : Bool) (response : List UInt8) : Prop :=
  if done then response = simpleResponse host rcOk 0 0
  else ∃ errcode index, errcode ≠ 0 ∧ response = simpleResponse host errcode 0 index

/-- Nothing is answered if all is well, and nothing but errors otherwise. -/
structure Complains (host : Host) (done : Bool) (responses : List (List UInt8)) : Prop where
  quiet : done = true → responses = []
  errors : ∀ response ∈ responses, Says host false response

theorem complains_nil (host : Host) : Complains host true [] :=
  ⟨fun _ => rfl, fun _ h => absurd h List.not_mem_nil⟩

theorem complains_error {host : Host} {response : List UInt8} (h : Says host false response) :
    Complains host false [response] :=
  ⟨fun hf => absurd hf Bool.false_ne_true, fun _ hr => List.mem_singleton.mp hr ▸ h⟩

theorem says_answer (host : Host) (table : List (Errno × Nat)) (outcome : Option Errno) :
    Says host outcome.isNone (answer host table outcome) := by
  cases outcome with
  | none => rfl
  | some errno => exact ⟨rcFailInputError, _, by decide, rfl⟩

/-! ## Names -/

/-- A name, as the client passes it with its length. -/
def FileName.param (key : UInt8) (name : FileName) : Call := .append key (name.bytes ++ [0])

theorem FileName.padded_eq (name : FileName) :
    Framework.padded (name.length + 1) name.bytes = name.bytes ++ [0] := by
  have hpos : ∀ a ∈ name.bytes, (decide (a ≠ 0)) = true := fun a ha => by
    simpa using ne_of_mem_of_not_mem ha name.nonzero
  have htake : name.bytes.take (name.length + 1) = name.bytes :=
    List.take_of_length_le (Nat.le_succ _)
  simp only [Framework.padded]
  rw [htake, List.takeWhile_eq_self_iff.mpr hpos]
  simp only [FileName.length, Nat.add_sub_cancel_left, List.replicate_one]

theorem FileName.takeWhile_eq (name : FileName) :
    (name.bytes ++ [0]).takeWhile (· ≠ 0) = name.bytes := by
  have hpos : ∀ a ∈ name.bytes, (decide (a ≠ 0)) = true := fun a ha => by
    simpa using ne_of_mem_of_not_mem ha name.nonzero
  rw [List.takeWhile_append_of_pos hpos, List.takeWhile_cons_of_neg (by simp), List.append_nil]

theorem FileName.append_eq (host : Host) (record : Record) (key : UInt8) (name : FileName) :
    asuiterecordAppend host record key name.bytes (name.length + 1) =
      (name.param key).run host record := by
  rw [asuiterecordAppend_eq, name.padded_eq]
  rfl

theorem FileName.param_faithful (key : UInt8) (name : FileName) : (name.param key).Faithful :=
  ⟨name.bytes, 1, name.nonzero, rfl⟩

theorem FileName.length_param (host : Host) (key : UInt8) (name : FileName) :
    ((name.param key).bytes host).length = name.length + 4 := by
  rw [Call.length_bytes, (name.param_faithful key).stored host |>.2]
  show 3 + (name.bytes ++ [0]).length = name.length + 4
  rw [List.length_append, FileName.length, List.length_singleton]
  omega

/-- What the loops of the requests with names do for a parameter. -/
def namesStep (host : Host) (sys : System W) (keys : Keys) (x : Call) (a : W × Filespecs) :
    (W × Filespecs) ⊕ (W × List UInt8) :=
  if x.key ∈ keys.names then
    match sys.malloc a.1 with
    | (true, w) =>
      if x.key = aftpFilespec then
        .inl (w, { a.2 with filespec := some ((x.data host).takeWhile (· ≠ 0)) })
      else .inl (w, { a.2 with newFilespec := some ((x.data host).takeWhile (· ≠ 0)) })
    | (false, w) => .inr (w, simpleResponse host rcProgramInternalError 0 aErrOutOfMemory)
  else if x.key ∈ keys.passed then
    if x.key = aftpDataType then
      .inl (a.1, { a.2 with dataType := ((x.data host).headD 0).toNat })
    else .inl a
  else .inr (a.1, simpleResponse host rcProgramInternalError 0 aErrUnknownParameter)

/-- A parameter of a request: it is stored as it is, its names are strings, and its data are not
empty. -/
structure Asks (host : Host) (keys : Keys) (x : Call) : Prop where
  faithful : x.Faithful
  string : x.key ∈ keys.names → 0 ∈ x.data host
  nonempty : x.data host ≠ []

theorem namesBody_eq {host : Host} {sys : System W} {record : Record} {keys : Keys} {x : Call}
    {c : Nat} (h : Stands host record c x) (hx : Asks host keys x) (a : W × Filespecs) :
    namesBody host sys record keys c a = namesStep host sys keys x a := by
  have hkey := (h.faithful hx.faithful).1
  simp only [namesBody, hkey]
  by_cases hname : x.key ∈ keys.names
  · rw [if_pos hname, h.string hx.faithful (hx.string hname)]
    exact (if_pos hname).symm
  · rw [if_neg hname, namesStep, if_neg hname]
    obtain ⟨b, rest, hdata⟩ := List.exists_cons_of_ne_nil hx.nonempty
    rw [h.first hx.faithful hdata, hdata, List.headD_cons]

/-- A request with names, once it has been received. -/
theorem withNames_eq {host : Host} {sys : System W} {keys : Keys} {s : Server W}
    {operation : Filespecs → Server W → Option (Served W)} {rectype : Nat} {calls : List Call}
    (h : Holds s.record (message host rectype calls)) (hne : calls ≠ [])
    (hasks : ∀ x ∈ calls, Asks host keys x)
    (hfits : (message host rectype calls).length ≤ maxBufferSize) :
    withNames host sys keys s operation =
      match scanCalls host (fun _ => namesStep host sys keys) 2 calls (s.world, {}) with
      | .inr (w, response) => some ({ s with world := w }, [response])
      | .inl (w, specs) => operation specs { s with world := w } := by
  have hscan := scan_message (namesBody host sys s.record keys)
    (fun _ => namesStep host sys keys) h hne
    (fun x hx => (hasks x hx).faithful) hfits
    (fun x hx c a hc => namesBody_eq hc (hasks x hx) a) (s.world, {})
  rw [withNames, hscan]
  cases scanCalls host (fun _ => namesStep host sys keys) 2 calls (s.world, {}) with
  | inl a => rfl
  | inr r => rfl

theorem FileName.zero_mem_param (host : Host) (key : UInt8) (name : FileName) :
    0 ∈ (name.param key).data host := by
  show (0 : UInt8) ∈ name.bytes ++ [0]
  simp

theorem FileName.asks (host : Host) {keys : Keys} (key : UInt8) (name : FileName) :
    Asks host keys (name.param key) where
  faithful := name.param_faithful key
  string _ := name.zero_mem_param host key
  nonempty := by
    show name.bytes ++ [0] ≠ []
    simp

theorem FileName.key_param (key : UInt8) (name : FileName) : (name.param key).key = key := rfl

theorem key_char (key data : UInt8) : (Call.char key data).key = key := rfl

theorem FileName.string_param (host : Host) (key : UInt8) (name : FileName) :
    ((name.param key).data host).takeWhile (· ≠ 0) = name.bytes := name.takeWhile_eq

/-! ## The requests -/

section Requests

variable {host : Host} (sys : System W) {garbage : Nat} {s : Server W}

/-- A request with one name. -/
theorem withNames_oneName (call : List UInt8 → W → Option Errno × W)
    (table : List (Errno × Nat)) {rectype : Nat} {name : FileName}
    (h : Holds s.record (message host rectype [name.param aftpFilespec]))
    (hfits : (message host rectype [name.param aftpFilespec]).length ≤ maxBufferSize) :
    ∃ response, Says host (s.remote.named sys 1 (call name.bytes)).1 response ∧
      withNames host sys { names := [aftpFilespec] } s (oneName host call table) =
        some ({ s with world := (s.remote.named sys 1 (call name.bytes)).2.world },
          [response]) := by
  rw [withNames_eq h (List.cons_ne_nil _ _)
    (fun x hx => by rw [List.mem_singleton.mp hx]; exact name.asks host aftpFilespec) hfits]
  simp only [scanCalls, namesStep, FileName.key_param, FileName.string_param, List.mem_singleton,
    if_true, Remote.named, System.named, System.mallocs, Server.remote]
  cases hmalloc : sys.malloc s.world with
  | mk done w =>
    cases done with
    | true => exact ⟨_, says_answer host table (call name.bytes w).1, rfl⟩
    | false => exact ⟨_, ⟨rcProgramInternalError, aErrOutOfMemory, by decide, rfl⟩, rfl⟩

/-- `a_rename` -/
theorem aRename_served {rectype : Nat} {f g : FileName}
    (h : Holds s.record (message host rectype [f.param aftpFilespec, g.param aftpNewFilespec]))
    (hfits : (message host rectype
      [f.param aftpFilespec, g.param aftpNewFilespec]).length ≤ maxBufferSize) :
    ∃ response, Says host (s.remote.named sys 2 (sys.rename f.bytes g.bytes)).1 response ∧
      aRename host sys s =
        some ({ s with world := (s.remote.named sys 2 (sys.rename f.bytes g.bytes)).2.world },
          [response]) := by
  have hasks : ∀ x ∈ [f.param aftpFilespec, g.param aftpNewFilespec],
      Asks host { names := [aftpFilespec, aftpNewFilespec] } x := by
    simp only [List.forall_mem_cons, List.not_mem_nil, false_implies, implies_true, and_true]
    exact ⟨f.asks host _, g.asks host _⟩
  have hother : ¬ aftpNewFilespec = aftpFilespec := by decide
  rw [aRename, withNames_eq h (List.cons_ne_nil _ _) hasks hfits]
  simp only [scanCalls, namesStep, FileName.key_param, FileName.string_param, List.mem_cons,
    if_true, true_or, or_true, hother, if_false, Remote.named, System.named, System.mallocs,
    Server.remote]
  cases sys.malloc s.world with
  | mk done w =>
    cases done with
    | false => exact ⟨_, ⟨rcProgramInternalError, aErrOutOfMemory, by decide, rfl⟩, rfl⟩
    | true =>
      simp only
      cases sys.malloc w with
      | mk done w' =>
        cases done with
        | false => exact ⟨_, ⟨rcProgramInternalError, aErrOutOfMemory, by decide, rfl⟩, rfl⟩
        | true => exact ⟨_, says_answer host _ (sys.rename f.bytes g.bytes w').1, rfl⟩

/-- What the loop of `a_change_dir` does for a name. -/
def changeDirStep (host : Host) (sys : System W) (x : Call) (w : W) :
    W ⊕ Option (W × List UInt8) :=
  match sys.malloc w with
  | (false, _) => .inr none
  | (true, w) =>
    match sys.chdir ((x.data host).takeWhile (· ≠ 0)) w with
    | (none, w) => .inl w
    | (some errno, w) =>
      .inr (some (w, answer host [(.enoent, aErrFileNotFound)] (some errno)))

/-- `a_change_dir`: where there is no memory, it copies the name to nowhere. -/
theorem aChangeDir_served {rectype : Nat} {d : FileName}
    (h : Holds s.record (message host rectype [d.param aftpFilespec]))
    (hfits : (message host rectype [d.param aftpFilespec]).length ≤ maxBufferSize) :
    if (sys.malloc s.world).1 = true then
      ∃ response record, Says host (s.remote.named sys 1 (sys.chdir d.bytes)).1 response ∧
        aChangeDir host sys s =
          some ({ s with
            world := (s.remote.named sys 1 (sys.chdir d.bytes)).2.world, record }, [response])
    else aChangeDir host sys s = none := by
  have hscan := scan_message (changeDirBody host sys s.record)
    (fun _ => changeDirStep host sys) h (List.cons_ne_nil _ _)
    (fun x hx => by rw [List.mem_singleton.mp hx]; exact d.param_faithful _) hfits
    (fun x hx c a hc => by
      rw [List.mem_singleton.mp hx] at hc ⊢
      have hasks : Asks host { names := [aftpFilespec] } (d.param aftpFilespec) := d.asks host _
      rw [changeDirBody, (hc.faithful hasks.faithful).1, FileName.key_param, if_pos rfl,
        hc.string hasks.faithful (hasks.string (List.mem_singleton.mpr rfl))]
      rfl)
    s.world
  simp only [aChangeDir, hscan, scanCalls, changeDirStep, FileName.string_param, Remote.named,
    System.named, System.mallocs, Server.remote, Option.bind_eq_bind, Option.bind_some]
  cases sys.malloc s.world with
  | mk done w =>
    cases done with
    | false => rfl
    | true =>
      simp only [if_true]
      cases sys.chdir d.bytes w with
      | mk outcome w' =>
        cases outcome with
        | none =>
          refine ⟨_, _, ?_, rfl⟩
          rw [Says, Option.isNone_none, if_pos rfl, simpleResponse_eq]
          exact sendAsuiterecord_build host s.record Libaftp.aftpSimpleResponse (statusCalls 0 0 0)
        | some errno => exact ⟨_, _, says_answer host _ (some errno), rfl⟩

/-- `a_send_file` -/
theorem aSendFile_served {rectype : Nat} {f g : FileName} {dataType dateMode : UInt8}
    (h : Holds s.record (message host rectype [f.param aftpFilespec, g.param aftpNewFilespec,
      .char aftpDataType dataType, .char aftpDateMode dateMode]))
    (hfits : (message host rectype [f.param aftpFilespec, g.param aftpNewFilespec,
      .char aftpDataType dataType, .char aftpDateMode dateMode]).length ≤ maxBufferSize) :
    ∃ responses, Complains host (s.remote.openFile sys f.bytes).1 responses ∧
      aSendFile host sys s =
        some (⟨(s.remote.openFile sys f.bytes).2.world,
          (s.remote.openFile sys f.bytes).2.destFile, s.record⟩, responses) := by
  have hasks : ∀ x ∈ [f.param aftpFilespec, g.param aftpNewFilespec,
      .char aftpDataType dataType, .char aftpDateMode dateMode],
      Asks host fileRequestKeys x := by
    simp only [List.forall_mem_cons, List.not_mem_nil, false_implies, implies_true, and_true]
    refine ⟨f.asks host _, g.asks host _, ⟨trivial, fun hkey => ?_, List.cons_ne_nil _ _⟩,
      ⟨trivial, fun hkey => ?_, List.cons_ne_nil _ _⟩⟩
    · exact absurd hkey (show ¬ aftpDataType ∈ fileRequestKeys.names by decide)
    · exact absurd hkey (show ¬ aftpDateMode ∈ fileRequestKeys.names by decide)
  rw [aSendFile, withNames_eq h (List.cons_ne_nil _ _) hasks hfits]
  have hfirst : aftpFilespec ∈ fileRequestKeys.names := by decide
  have hsecond : aftpNewFilespec ∈ fileRequestKeys.names := by decide
  have hother : ¬ aftpNewFilespec = aftpFilespec := by decide
  have htype : ¬ aftpDataType ∈ fileRequestKeys.names := by decide
  have htype' : aftpDataType ∈ fileRequestKeys.passed := by decide
  have hdate : ¬ aftpDateMode ∈ fileRequestKeys.names := by decide
  have hdate' : aftpDateMode ∈ fileRequestKeys.passed := by decide
  have hplain : ¬ aftpDateMode = aftpDataType := by decide
  have hmemory : Says host false (simpleResponse host rcProgramInternalError 0 aErrOutOfMemory) :=
    ⟨rcProgramInternalError, aErrOutOfMemory, by decide, rfl⟩
  simp only [scanCalls, namesStep, FileName.key_param, FileName.string_param, key_char, hfirst,
    hsecond, hother, htype, htype', hdate, hdate', hplain, if_true, if_false, Remote.openFile,
    System.mallocs, Server.remote]
  cases sys.malloc s.world with
  | mk done w =>
    cases done with
    | false => exact ⟨_, complains_error hmemory, rfl⟩
    | true =>
      simp only
      cases sys.malloc w with
      | mk done w' =>
        cases done with
        | false => exact ⟨_, complains_error hmemory, rfl⟩
        | true =>
          simp only [Option.bind_eq_bind, Option.bind_some]
          cases sys.openWrite f.bytes w' with
          | mk opened w'' =>
            cases opened with
            | ok fd => exact ⟨_, complains_nil host, rfl⟩
            | error errno => exact ⟨_, complains_error (says_answer host _ (some errno)), rfl⟩

/-- The data of a record that is not of parameters. -/
theorem Holds.data {rectype : Nat} {data : List UInt8} {record : Record}
    (h : Holds record (host.short rectype ++ data)) :
    record.slice 2 (record.position - 2) = data := by
  have hslice := h.slice
  rw [List.length_append, Host.length_short, Record.slice_add] at hslice
  rw [h.position, List.length_append, Host.length_short, Nat.add_sub_cancel_left]
  exact (List.append_inj hslice (Record.length_slice ..)).2

/-- `a_file_data` -/
theorem aFileData_served {rectype : Nat} {data : List UInt8}
    (h : Holds s.record (host.short rectype ++ data)) :
    ∃ responses, Complains host (s.remote.piece sys data).1 responses ∧
      aFileData host sys s = (⟨(s.remote.piece sys data).2.world,
        (s.remote.piece sys data).2.destFile, s.record⟩, responses) := by
  obtain ⟨world, destFile, record⟩ := s
  simp only [aFileData, Remote.piece, Server.remote, h.data]
  cases destFile with
  | none => exact ⟨_, complains_error (says_answer host [] (some .other)), rfl⟩
  | some fd =>
    simp only
    cases sys.writeAll fd data world with
    | mk done w =>
      cases done with
      | true => exact ⟨_, complains_nil host, rfl⟩
      | false => exact ⟨_, complains_error (says_answer host [] (some .other)), rfl⟩

/-- `a_file_complete` -/
theorem aFileComplete_served (host : Host) (s : Server W) :
    ∃ response, Says host (s.remote.complete sys).1 response ∧
      aFileComplete host sys s = (⟨(s.remote.complete sys).2.world,
        (s.remote.complete sys).2.destFile, s.record⟩, [response]) := by
  obtain ⟨world, destFile, record⟩ := s
  simp only [aFileComplete, Remote.complete, Server.remote]
  cases destFile with
  | none => exact ⟨_, says_answer host [] (some .other), rfl⟩
  | some fd => exact ⟨_, says_answer host [] (sys.close fd world).1, rfl⟩

end Requests

end LinuxSna.Asuite.Ftp
