import LinuxSna.Proof.Asuite.Ftp.Served

/-!
# Files in pieces

A file is read and sent in records of its data, and the last says that it is complete.

* `sendOpenFile_eq`: the records that are sent, whichever side sends them;
* `transmit_pieces`: what becomes of them at the server, and what it answers.
-/

namespace LinuxSna.Asuite.Ftp

variable {V W : Type}

/-- A record of data. -/
def dataRecord (host : Host) (data : List UInt8) : List UInt8 := host.short aftpFileData ++ data

/-- The record that says that a file is complete. -/
def completeRecord (host : Host) : List UInt8 := message host aftpFileComplete []

/-! ## The side that sends -/

section Reading

variable (sys : System W) (fd : Nat) (host : Host)

/-- A piece is not empty, and fits into a record. -/
theorem readAll_piece (room n : Nat) (w : W) :
    ∀ data ∈ (sys.readAll fd room n w).1, data ≠ [] ∧ data.length ≤ room := by
  induction n generalizing w with
  | zero => exact fun _ h => absurd h List.not_mem_nil
  | succ n ih =>
    rw [System.readAll]
    cases hread : sys.read fd room w with
    | mk outcome w' =>
      cases outcome with
      | error errno => exact fun _ h => absurd h List.not_mem_nil
      | ok data =>
        simp only
        by_cases hdata : data = []
        · rw [if_pos hdata]
          exact fun _ h => absurd h List.not_mem_nil
        · rw [if_neg hdata, List.forall_mem_cons]
          exact ⟨⟨hdata, sys.read_le fd room w data (by rw [hread])⟩, ih w'⟩

/-- The records of the loop are those of the pieces, and the type of the record stays. -/
theorem readLoop_eq (n : Nat) (w : W) {record : Record}
    (h : Typed host aftpFileData record) :
    ∃ record', readLoop sys fd n record w =
      (record', (sys.readAll fd (maxBufferSize - 2) n w).2,
        (sys.readAll fd (maxBufferSize - 2) n w).1.map (dataRecord host)) := by
  induction n generalizing w record with
  | zero => exact ⟨record, rfl⟩
  | succ n ih =>
    rw [readLoop, System.readAll, h.position]
    cases sys.read fd (maxBufferSize - 2) w with
    | mk outcome w' =>
      cases outcome with
      | error errno => exact ⟨record, rfl⟩
      | ok data =>
        simp only
        by_cases hdata : data = []
        · rw [if_pos hdata, if_pos hdata]
          exact ⟨record, rfl⟩
        · rw [if_neg hdata, if_neg hdata]
          obtain ⟨record', heq⟩ := ih w' (h.clear_puts data)
          refine ⟨record', ?_⟩
          rw [heq, h.send_puts]
          rfl

/-- The records of a file that has been opened. -/
theorem sendOpenFile_eq (record : Record) (w : W) :
    ∃ record', sendOpenFile host sys fd record w =
      (record', (sys.readFile fd w).2,
        (sys.readFile fd w).1.map (dataRecord host) ++ [completeRecord host]) := by
  obtain ⟨record', heq⟩ := readLoop_eq sys fd host (sys.left fd w + 1) w
    (typed_settype host record aftpFileData)
  refine ⟨asuiterecordSettype host (asuiterecordClear record') aftpFileComplete, ?_⟩
  rw [sendOpenFile, heq, System.readFile]
  have hsend := (typed_settype host record' aftpFileComplete).send_puts []
  rw [show (asuiterecordSettype host (asuiterecordClear record') aftpFileComplete).puts [] =
    asuiterecordSettype host (asuiterecordClear record') aftpFileComplete from rfl] at hsend
  simp only [hsend]
  rfl

end Reading

/-! ## The side that receives -/

section Serving

variable (sys : System W) (garbage : Nat)

theorem received_holds (data : List UInt8) (s : Server W) :
    Holds (s.received data).record data :=
  holds_getAsuiterecord data s.record

theorem serve_eq {rectype : Nat} (data : List UInt8) (hlt : rectype < 256) (s : Server W) :
    serve .little sys garbage (Host.little.short rectype ++ data) s =
      mainSwitch .little sys garbage rectype
        (s.received (Host.little.short rectype ++ data)) := by
  rw [serve, (received_holds _ s).majorCode hlt]

theorem serve_dataRecord (data : List UInt8) (s : Server W) :
    ∃ server responses, server.remote = (s.remote.piece sys data).2 ∧
      Complains .little (s.remote.piece sys data).1 responses ∧
      serve .little sys garbage (dataRecord .little data) s = some (server, responses) := by
  obtain ⟨responses, hcomplains, hserved⟩ := aFileData_served sys
    (received_holds (dataRecord .little data) s)
  have hserve := serve_eq sys garbage data
    (show aftpFileData < 256 by decide) s
  exact ⟨_, responses, by rfl, hcomplains, hserve.trans (congrArg some hserved)⟩

theorem serve_completeRecord (s : Server W) :
    ∃ server response, server.remote = (s.remote.complete sys).2 ∧
      Says .little (s.remote.complete sys).1 response ∧
      serve .little sys garbage (completeRecord .little) s = some (server, [response]) := by
  obtain ⟨response, htold, hserved⟩ := aFileComplete_served sys .little
    (s.received (completeRecord .little))
  have hserve := serve_eq sys garbage []
    (show aftpFileComplete < 256 by decide) s
  exact ⟨_, response, by rfl, htold, hserve.trans (congrArg some hserved)⟩

end Serving

/-! ## Asking for a file -/

/-- What comes first of a file that is sent to the client: the last part of its name, in as many
bytes as the whole name has. -/
def announced (host : Host) (name : List UInt8) (dataType : UInt8) : List UInt8 :=
  message host Asuite.aftpSendFile
    [.append aftpFilespec (Framework.padded (name.length + 1) (gBasename name)),
      .char aftpDataType dataType]

/-- The answer to a request for a file that has been opened, or has not: the file, or an error. -/
def AnswersRequest (host : Host) (sys : System W) (name : List UInt8) (dataType : UInt8) :
    Option Nat × W → List (List UInt8) → Prop
  | (none, _), responses => ∃ response, Says host false response ∧ responses = [response]
  | (some fd, w), responses => responses = announced host name dataType ::
      ((sys.readFile fd w).1.map (dataRecord host) ++ [completeRecord host])

theorem aRequestFile_served (sys : System W) (garbage : Nat) {host : Host} {rectype : Nat}
    {s : Server W} {f g : FileName} {dataType : UInt8}
    (h : Holds s.record (message host rectype [g.param aftpFilespec, f.param aftpNewFilespec,
      .char aftpDataType dataType]))
    (hfits : (message host rectype [g.param aftpFilespec, f.param aftpNewFilespec,
      .char aftpDataType dataType]).length ≤ maxBufferSize) :
    ∃ server responses, aRequestFile host sys garbage s = some (server, responses) ∧
      AnswersRequest host sys g.bytes dataType (sys.requested g.bytes s.world) responses := by
  have hasks : ∀ x ∈ [g.param aftpFilespec, f.param aftpNewFilespec,
      .char aftpDataType dataType], Asks host fileRequestKeys x := by
    simp only [List.forall_mem_cons, List.not_mem_nil, false_implies, implies_true, and_true]
    refine ⟨g.asks host _, f.asks host _, trivial, fun hkey => ?_, List.cons_ne_nil _ _⟩
    exact absurd hkey (show ¬ aftpDataType ∈ fileRequestKeys.names by decide)
  rw [aRequestFile, withNames_eq h (List.cons_ne_nil _ _) hasks hfits]
  have hfirst : aftpFilespec ∈ fileRequestKeys.names := by decide
  have hsecond : aftpNewFilespec ∈ fileRequestKeys.names := by decide
  have hother : ¬ aftpNewFilespec = aftpFilespec := by decide
  have htype : ¬ aftpDataType ∈ fileRequestKeys.names := by decide
  have htype' : aftpDataType ∈ fileRequestKeys.passed := by decide
  have hmemory : Says host false (simpleResponse host rcProgramInternalError 0 aErrOutOfMemory) :=
    ⟨rcProgramInternalError, aErrOutOfMemory, by decide, rfl⟩
  simp only [scanCalls, namesStep, FileName.key_param, FileName.string_param, key_char, hfirst,
    hsecond, hother, htype, htype', if_true, if_false, System.requested, System.mallocs]
  cases sys.malloc s.world with
  | mk done w =>
    cases done with
    | false => exact ⟨_, _, rfl, _, hmemory, rfl⟩
    | true =>
      simp only
      cases sys.malloc w with
      | mk done w' =>
        cases done with
        | false => exact ⟨_, _, rfl, _, hmemory, rfl⟩
        | true =>
          simp only [Option.bind_eq_bind, Option.bind_some]
          cases sys.openRead g.bytes w' with
          | mk opened w'' =>
            cases opened with
            | error errno => exact ⟨_, _, rfl, _, ⟨rcFailInputError, _, by decide, rfl⟩, rfl⟩
            | ok fd =>
              simp only [Except.toOption]
              set head := [Call.append aftpFilespec (Framework.padded (g.bytes.length + 1)
                (gBasename g.bytes)), .char aftpDataType dataType].foldl
                  (fun r x => x.run host r)
                  (asuiterecordSettype host (asuiterecordClear s.record) Asuite.aftpSendFile)
                with hhead
              obtain ⟨record', hfile⟩ := sendOpenFile_eq sys fd host head w''
              have hsend : sendAsuiterecord head = announced host g.bytes dataType :=
                sendAsuiterecord_build ..
              have hdata : UInt8.ofNat (((Call.char aftpDataType dataType).data host).headD
                  0).toNat = dataType := UInt8.ofNat_toNat
              have hrecord : asuiterecordAppendChar host (asuiterecordAppend host
                  (asuiterecordSettype host (asuiterecordClear s.record) Asuite.aftpSendFile)
                  aftpFilespec (gBasename g.bytes) (g.bytes.length + 1)) aftpDataType dataType =
                  head := by
                rw [asuiterecordAppend_eq]
                rfl
              refine ⟨_, _, rfl, ?_⟩
              rw [hdata, hrecord, hfile, hsend, AnswersRequest]

theorem transmit_cons {env : Env V W} {c : Conn V W} {host : Host} {data : List UInt8}
    (rest : List (List UInt8)) (hfits : data.length ≤ maxBufferSize) {served : Served W}
    (h : serve host env.server env.garbage data c.server = some served) :
    c.transmit host env (data :: rest) =
      Conn.transmit host env rest { c with
        server := served.1
        responses := c.responses ++
          if rest = [] ∨ env.halfDuplex = false then served.2 else [] } := by
  rw [Conn.transmit, if_neg (Nat.not_lt.mpr hfits), h]
  rfl

/-- The pieces of a file, once it is open at the server: errors, if any, and the answer to the last
record. -/
theorem transmit_pieces (env : Env V W) {pieces : List (List UInt8)} {c : Conn V W}
    (hpieces : ∀ data ∈ pieces, data.length ≤ maxBufferSize - 2) :
    ∃ c' heard last, c.transmit .little env
        (pieces.map (dataRecord .little) ++ [completeRecord .little]) = some c' ∧
      c'.session = c.session ∧ c'.localWorld = c.localWorld ∧
      c'.server.remote = (c.server.remote.finish env.server pieces).2 ∧
      c'.responses = c.responses ++ heard ++ [last] ∧
      (∀ response ∈ heard, Says .little false response) ∧
      (∃ done, Says .little done last) ∧
      ((c.server.remote.finish env.server pieces).1 = true →
        heard = [] ∧ Says .little true last) := by
  induction pieces generalizing c with
  | nil =>
    obtain ⟨server, response, hremote, htold, hserve⟩ :=
      serve_completeRecord env.server env.garbage c.server
    rw [List.map_nil, List.nil_append,
      transmit_cons _ (by decide : (completeRecord .little).length ≤ maxBufferSize) hserve]
    refine ⟨_, [], response, rfl, rfl, rfl, hremote, ?_, fun _ h => absurd h List.not_mem_nil,
      ⟨_, htold⟩, fun hdone => ⟨rfl, ?_⟩⟩
    · simp only [true_or, if_true, List.append_nil]
    · rw [Remote.finish] at hdone
      rwa [hdone] at htold
  | cons data pieces ih =>
    rw [List.forall_mem_cons] at hpieces
    obtain ⟨server, responses, hremote, hcomplains, hserve⟩ :=
      serve_dataRecord env.server env.garbage data c.server
    have hfits : (dataRecord .little data).length ≤ maxBufferSize := by
      have hmax : maxBufferSize = 32763 := rfl
      rw [dataRecord, List.length_append, Host.length_short]
      omega
    rw [List.map_cons, List.cons_append, transmit_cons _ hfits hserve]
    set kept := if pieces.map (dataRecord .little) ++ [completeRecord .little] = [] ∨
      env.halfDuplex = false then responses else [] with hkept
    have herrors : ∀ response ∈ kept, Says .little false response := by
      rw [hkept]
      split_ifs
      · exact hcomplains.errors
      · exact fun _ h => absurd h List.not_mem_nil
    have hquiet : (c.server.remote.piece env.server data).1 = true → kept = [] := fun hdone => by
      rw [hkept, hcomplains.quiet hdone, ite_self]
    obtain ⟨c', heard, last, htransmit, hsession, hlocal, hfinish, hresponses, hheard, htold,
      hall⟩ := ih (c := { c with server := server, responses := c.responses ++ kept }) hpieces.2
    refine ⟨c', kept ++ heard, last, htransmit, hsession, hlocal, ?_, ?_, ?_, htold, ?_⟩
    · rw [hfinish, Remote.finish, hremote]
    · rw [hresponses, ← List.append_assoc]
    · exact List.forall_mem_append.mpr ⟨herrors, hheard⟩
    · intro hdone
      rw [Remote.finish, Bool.and_eq_true, ← hremote] at hdone
      obtain ⟨rfl, htold⟩ := hall hdone.2
      rw [hquiet hdone.1]
      exact ⟨rfl, htold⟩

end LinuxSna.Asuite.Ftp
