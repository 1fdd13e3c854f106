import LinuxSna.Framework.Run
import LinuxSna.Proof.Asuite.Ftp.Answers
import LinuxSna.Proof.Asuite.Ftp.Pieces

/-!
# Outcomes of the operations of AFTP

What each call returns and where it leads, against what its operation is for.

* `leads_changeDir`, `leads_createDir`, `leads_removeDir`, `leads_rename`, `leads_delete`,
  `leads_sendFile`: one call;
* `outcomes_agree_iff`: the two sides agree on the outcomes of a whole session exactly if each call of it
  meets `Meets`.
-/

namespace LinuxSna.Asuite.Ftp

variable {V W : Type} {env : Env V W} {c : Conn V W}

/-! ## Requests -/

/-- The type of a request, and its parameters. -/
def Operation.request : Operation → Nat × List Call
  | .changeDir d => (Ftp.aftpChangeDir, [d.param aftpFilespec])
  | .createDir d => (Ftp.aftpCreateDir, [d.param aftpFilespec])
  | .removeDir d => (Ftp.aftpRemoveDir, [d.param aftpFilespec])
  | .delete f => (Ftp.aftpDelete, [f.param aftpFilespec])
  | .rename f g => (Ftp.aftpRename, [f.param aftpFilespec, g.param aftpNewFilespec])
  | .sendFile f g => (Asuite.aftpSendFile, [f.param aftpFilespec, g.param aftpNewFilespec,
      .char aftpDataType 0, .char aftpDateMode 0])

/-- The request as it is sent. -/
def Operation.data (op : Operation) : List UInt8 := message .little op.request.1 op.request.2

/-- The request fits into the buffer of a record. -/
def Operation.Fits (op : Operation) : Prop := op.data.length ≤ maxBufferSize

instance (op : Operation) : Decidable op.Fits := inferInstanceAs (Decidable (_ ≤ _))

/-- A record that is sent holds what is sent. -/
theorem holds_run (host : Host) (record : Record) (rectype : Nat) (calls : List Call) :
    Holds (calls.foldl (fun r c => c.run host r)
      (asuiterecordSettype host (asuiterecordClear record) rectype))
      (message host rectype calls) := by
  have hsend := sendAsuiterecord_build host record rectype calls
  have hpos := congrArg List.length hsend
  rw [sendAsuiterecord, Record.length_slice] at hpos
  refine ⟨hpos, ?_⟩
  rw [← hpos]
  exact hsend

/-- The name of a request stands in its record. -/
theorem left_of_holds {record : Record} {rectype : Nat} {key : UInt8} {name : FileName}
    (h : Holds record (message .little rectype [name.param key])) : Left record name 5 := by
  intro i h5 hi
  have hdata : message .little rectype [name.param key] =
      (Host.little.short rectype ++ (Host.little.short (name.param key).len ++ [key])) ++
        (name.bytes ++ [0]) := by
    rw [message, List.flatMap_singleton, Call.bytes, paramBytes,
      ((name.param_faithful key).stored .little).2]
    simp only [List.append_assoc, List.singleton_append]
    rfl
  have hlength : (message .little rectype [name.param key]).length = name.length + 6 := by
    rw [length_message, List.flatMap_singleton, FileName.length_param]
    omega
  have hslice := congrArg (fun l => l.getD i 0) h.slice
  simp only [hlength] at hslice
  rw [List.getD_eq_getElem _ _ (by rw [Record.length_slice]; omega), Record.getElem_slice,
    Nat.zero_add, hdata, List.getD_append_right _ _ _ _ (show 5 ≤ i from h5)] at hslice
  rw [hslice, List.getD_append]
  · rfl
  · show i - 5 < name.bytes.length
    rw [FileName.length] at hi
    omega

/-! ## One exchange -/

theorem transmit_none {host : Host} {data : List UInt8} (rest : List (List UInt8))
    (h : ¬ data.length ≤ maxBufferSize ∨
      serve host env.server env.garbage data c.server = none) :
    c.transmit host env (data :: rest) = none := by
  rw [Conn.transmit]
  by_cases hfits : data.length ≤ maxBufferSize
  · rw [if_neg (Nat.not_lt.mpr hfits), h.resolve_left (not_not.mpr hfits)]
    rfl
  · rw [if_pos (Nat.lt_of_not_le hfits)]

/-- A request that is answered once. -/
theorem exchange_some {host : Host} {rectype : Nat} {names : List (UInt8 × List UInt8 × Nat)}
    {request : Record} (hrequest : Client.nameRequest host rectype names c.session.record = request)
    (hempty : c.responses = []) (hfits : (sendAsuiterecord request).length ≤ maxBufferSize)
    {server : Server W} {response : List UInt8}
    (h : serve host env.server env.garbage (sendAsuiterecord request) c.server =
      some (server, [response])) :
    Client.exchange host env rectype names c =
      some { c with
        session := { c.session with record := getAsuiterecord response request }
        server := server
        responses := [] } := by
  let c' : Conn V W := { c with session := { c.session with record := request } }
  have htransmit := transmit_cons (c := c') [] hfits h
  simp only [Client.exchange, hrequest, Option.bind_eq_bind]
  rw [htransmit]
  simp only [true_or, if_true, c', hempty, List.nil_append, Conn.transmit, Option.bind_some,
    Conn.receive]

theorem exchange_none {host : Host} {rectype : Nat} {names : List (UInt8 × List UInt8 × Nat)}
    {request : Record} (hrequest : Client.nameRequest host rectype names c.session.record = request)
    (h : ¬ (sendAsuiterecord request).length ≤ maxBufferSize ∨
      serve host env.server env.garbage (sendAsuiterecord request) c.server = none) :
    Client.exchange host env rectype names c = none := by
  let c' : Conn V W := { c with session := { c.session with record := request } }
  have htransmit := transmit_none (c := c') [] h
  simp only [Client.exchange, hrequest, Option.bind_eq_bind]
  rw [htransmit]
  rfl

/-- A request with one name, as the client makes it. -/
theorem nameRequest_one (host : Host) (rectype : Nat) (key : UInt8) (name : FileName)
    (record : Record) :
    Client.nameRequest host rectype [(key, name.bytes, name.length)] record =
      [name.param key].foldl (fun r x => x.run host r)
        (asuiterecordSettype host (asuiterecordClear record) rectype) := by
  rw [List.foldl_cons, List.foldl_nil, ← name.append_eq]
  rfl

/-- A request with two names. -/
theorem nameRequest_two (host : Host) (rectype : Nat) (key key' : UInt8) (name name' : FileName)
    (record : Record) :
    Client.nameRequest host rectype
        [(key, name.bytes, name.length), (key', name'.bytes, name'.length)] record =
      [name.param key, name'.param key'].foldl (fun r x => x.run host r)
        (asuiterecordSettype host (asuiterecordClear record) rectype) := by
  simp only [List.foldl_cons, List.foldl_nil, ← FileName.append_eq]
  rfl

/-! ## Requests that are answered once -/

/-- A request that has been made and answered once. -/
structure Exchanged (c : Conn V W) (request : Record) (done : Bool) (remote : Remote W)
    (c' : Conn V W) (response : List UInt8) : Prop where
  told : Says .little done response
  responses : c'.responses = []
  settings : c'.session.toSession = c.session.toSession
  localWorld : c'.localWorld = c.localWorld
  remote : c'.server.remote = remote
  record : c'.session.record = getAsuiterecord response request

variable (env) in
/-- A request with names that is answered once. -/
theorem exchange_served {rectype : Nat} {calls : List Call}
    {names : List (UInt8 × List UInt8 × Nat)} (hlt : rectype < 256)
    (hrequest : Client.nameRequest .little rectype names c.session.record =
      calls.foldl (fun r x => x.run .little r)
        (asuiterecordSettype .little (asuiterecordClear c.session.record) rectype))
    (hempty : c.responses = [])
    (hfits : (message .little rectype calls).length ≤ maxBufferSize) {done : Bool}
    {remote : Remote W}
    (h : ∃ server response, server.remote = remote ∧ Says .little done response ∧
      mainSwitch .little env.server env.garbage rectype
        (c.server.received (message .little rectype calls)) = some (server, [response])) :
    ∃ c' response, Client.exchange .little env rectype names c = some c' ∧
      Exchanged c (calls.foldl (fun r x => x.run .little r)
        (asuiterecordSettype .little (asuiterecordClear c.session.record) rectype)) done remote c'
        response := by
  obtain ⟨server, response, hremote, htold, hserve⟩ := h
  have hsend := sendAsuiterecord_build .little c.session.record rectype calls
  refine ⟨_, response, exchange_some hrequest hempty (by rw [hsend]; exact hfits)
    (by rw [hsend, message, serve_eq _ _ _ hlt]; exact hserve), ?_⟩
  exact ⟨htold, rfl, rfl, rfl, hremote, rfl⟩

/-- A request that does not fit, or that has no answer. -/
theorem exchange_lost {rectype : Nat} {calls : List Call}
    {names : List (UInt8 × List UInt8 × Nat)} (hlt : rectype < 256)
    (hrequest : Client.nameRequest .little rectype names c.session.record =
      calls.foldl (fun r x => x.run .little r)
        (asuiterecordSettype .little (asuiterecordClear c.session.record) rectype))
    (h : ¬ (message .little rectype calls).length ≤ maxBufferSize ∨
      mainSwitch .little env.server env.garbage rectype
        (c.server.received (message .little rectype calls)) = none) :
    Client.exchange .little env rectype names c = none := by
  have hsend := sendAsuiterecord_build .little c.session.record rectype calls
  apply exchange_none hrequest
  rw [hsend, message, serve_eq _ _ _ hlt]
  exact h

/-- A call has ended: no record is left, and the server is where it should be. -/
structure Ended (c : Conn V W) (remote : Remote W) (c' : Conn V W) : Prop where
  responses : c'.responses = []
  settings : c'.session.toSession = c.session.toSession
  localWorld : c'.localWorld = c.localWorld
  remote : c'.server.remote = remote

namespace Exchanged

variable {request : Record} {done : Bool} {remote : Remote W} {c' : Conn V W}
  {response : List UInt8} {switch : Client.Switch}

/-- What a loop over what was received makes of the answer. -/
theorem whole (h : Exchanged c request done remote c' response) (hsees : Sees switch) :
    ∃ c'', Client.readAnswer .little switch (getReceivedLen c'.session.record) c' =
      some (if done then rcOk else rcFailFatal, c'') ∧ Ended c remote c'' := by
  obtain ⟨session, hset, hread⟩ := readAnswer_whole hsees h.told
    (h.record ▸ holds_getAsuiterecord response request)
  exact ⟨_, hread, h.responses, hset.trans h.settings, h.localWorld, h.remote⟩

/-- What a loop that ends with the name makes of the answer. -/
theorem short (h : Exchanged c request done remote c' response) (hsees : Sees switch)
    {name : FileName} (hfits : name.length ≤ maxBufferSize) (hrequest : Left request name 5) :
    ∃ rc c'', Client.readAnswer .little switch name.length c' = some (rc, c'') ∧
      (rc = rcOk ↔ if done then ¬ name.Strays .little else name.length ≤ 6) ∧
      Ended c remote c'' := by
  obtain ⟨rc, session, hrc, hset, hread⟩ := readAnswer_short hsees h.told hfits hrequest h.record
  exact ⟨rc, _, hread, hrc, h.responses, hset.trans h.settings, h.localWorld, h.remote⟩

end Exchanged

/-! ## What each call leads to -/

/-- A call returns, and says that it has succeeded exactly if `seen`. No record is left, and both
ends are where the operation leads. -/
def Leads (env : Env V W) (c : Conn V W) (op : Operation) (seen : Prop) : Prop :=
  ∃ rc c', op.call .little env c = some (rc, c') ∧ c'.responses = [] ∧
    c'.session.toSession = c.session.toSession ∧
    (c'.localWorld, c'.server.remote) = (op.effect env c.localWorld c.server.remote).2 ∧
    (rc = rcOk ↔ seen)

/-- Whether the operation succeeds at the server. -/
def Operation.succeeds (env : Env V W) (c : Conn V W) (op : Operation) : Bool :=
  (op.effect env c.localWorld c.server.remote).1

theorem length_le_of_fits {rectype : Nat} {d : FileName}
    (hfits : (message .little rectype [d.param aftpFilespec]).length ≤ maxBufferSize) :
    d.length ≤ maxBufferSize := by
  rw [length_message, List.flatMap_singleton, FileName.length_param] at hfits
  omega

theorem rc_iff (done : Bool) : (if done then rcOk else rcFailFatal) = rcOk ↔ done = true := by
  cases done with
  | true => exact iff_of_true rfl rfl
  | false => exact iff_of_false (by decide) (by decide)

/-- A loop that does nothing comes to its end. -/
theorem readAnswer_skip {done : Bool} {response : List UInt8} (htold : Says .little done response)
    (h : Holds c.session.record response) :
    Client.readAnswer .little (fun _ _ a => a) (getReceivedLen c.session.record) c =
      some (rcOk, c) := by
  obtain ⟨errcode, index, rfl⟩ : ∃ errcode index,
      response = simpleResponse .little errcode 0 index := by
    cases done with
    | true => exact ⟨0, 0, htold⟩
    | false =>
      obtain ⟨errcode, index, -, heq⟩ := htold
      exact ⟨errcode, index, heq⟩
  have hmajor := htold.majorCode h
  have hlength := length_simpleResponse .little errcode 0 index
  rw [simpleResponse_eq] at h hlength
  have hfits : (message .little Libaftp.aftpSimpleResponse
      (statusCalls errcode 0 index)).length ≤ maxBufferSize := by
    rw [hlength, maxBufferSize]
    split_ifs <;> decide
  have hscan := scan_message
    (fun _ (a : Nat × Ftpsession) => (.inl a : (Nat × Ftpsession) ⊕ Empty))
    (fun _ _ a => .inl a) h (List.cons_ne_nil _ _) (statusCalls_faithful errcode 0 index)
    hfits (fun _ _ _ _ _ => rfl) (rcOk, c.session)
  rw [scanCalls_inl] at hscan
  simp only [Client.readAnswer, hmajor, if_true, hscan, Option.bind_eq_bind, Option.bind_some]
  rfl

section Calls

variable (hempty : c.responses = []) {d f g : FileName}
include hempty

theorem leads_createDir (hfits : (Operation.createDir d).Fits) :
    Leads env c (.createDir d)
      (if (Operation.createDir d).succeeds env c then ¬ d.Strays .little else d.length ≤ 6) := by
  obtain ⟨response, htold, hserve⟩ := withNames_oneName env.server env.server.mkdir
    [(.eexist, aErrFileExists), (.eacces, aErrAccessDenied)]
    (received_holds (message .little Ftp.aftpCreateDir [d.param aftpFilespec]) c.server) hfits
  obtain ⟨c', response, hexchange, he⟩ := exchange_served env (by decide)
    (nameRequest_one .little Ftp.aftpCreateDir aftpFilespec d c.session.record) hempty hfits
    ⟨_, response, rfl, htold, hserve⟩
  obtain ⟨rc, c'', hread, hrc, hended⟩ := he.short
    (sees_answerSwitch .little (fun _ s => s) fun _ _ => rfl) (length_le_of_fits hfits)
    (left_of_holds (holds_run .little c.session.record _ _))
  refine ⟨rc, c'', ?_, hended.responses, hended.settings, ?_, hrc⟩
  · rw [Operation.call, Client.aftpCreateDir, hexchange]
    exact hread
  · rw [hended.localWorld, hended.remote]
    rfl

theorem leads_changeDir (hfits : (Operation.changeDir d).Fits)
    (hmalloc : (env.server.malloc c.server.world).1 = true) :
    Leads env c (.changeDir d)
      (if (Operation.changeDir d).succeeds env c then ¬ d.Strays .little else d.length ≤ 6) := by
  have hserved := aChangeDir_served env.server
    (received_holds (message .little Ftp.aftpChangeDir [d.param aftpFilespec]) c.server) hfits
  rw [if_pos (show (env.server.malloc (c.server.received _).world).1 = true from hmalloc)] at hserved
  obtain ⟨response, record, htold, hserve⟩ := hserved
  obtain ⟨c', response, hexchange, he⟩ := exchange_served env (by decide)
    (nameRequest_one .little Ftp.aftpChangeDir aftpFilespec d c.session.record) hempty hfits
    ⟨_, response, rfl, htold, hserve⟩
  obtain ⟨rc, c'', hread, hrc, hended⟩ := he.short (sees_changeDirSwitch .little)
    (length_le_of_fits hfits) (left_of_holds (holds_run .little c.session.record _ _))
  refine ⟨rc, c'', ?_, hended.responses, hended.settings, ?_, hrc⟩
  · rw [Operation.call, Client.aftpChangeDir, hexchange]
    exact hread
  · rw [hended.localWorld, hended.remote]
    rfl

theorem leads_removeDir (hfits : (Operation.removeDir d).Fits) :
    Leads env c (.removeDir d) ((Operation.removeDir d).succeeds env c = true) := by
  obtain ⟨response, htold, hserve⟩ := withNames_oneName env.server env.server.rmdir
    [(.eexist, aErrFileExists), (.enoent, aErrFileNotFound), (.eperm, aErrAccessDenied),
      (.eacces, aErrAccessDenied)]
    (received_holds (message .little Ftp.aftpRemoveDir [d.param aftpFilespec]) c.server) hfits
  obtain ⟨c', response, hexchange, he⟩ := exchange_served env (by decide)
    (nameRequest_one .little Ftp.aftpRemoveDir aftpFilespec d c.session.record) hempty hfits
    ⟨_, response, rfl, htold, hserve⟩
  obtain ⟨c'', hread, hended⟩ := he.whole
    (sees_answerSwitch .little Client.takeStatus fun _ _ => rfl)
  refine ⟨_, c'', ?_, hended.responses, hended.settings, ?_, rc_iff _⟩
  · rw [Operation.call, Client.aftpRemoveDir, hexchange]
    exact hread
  · rw [hended.localWorld, hended.remote]
    rfl

theorem leads_rename (hfits : (Operation.rename f g).Fits) :
    Leads env c (.rename f g) ((Operation.rename f g).succeeds env c = true) := by
  obtain ⟨response, htold, hserve⟩ := aRename_served env.server
    (received_holds (message .little Ftp.aftpRename
      [f.param aftpFilespec, g.param aftpNewFilespec]) c.server) hfits
  obtain ⟨c', response, hexchange, he⟩ := exchange_served env (by decide)
    (nameRequest_two .little Ftp.aftpRename aftpFilespec aftpNewFilespec f g c.session.record)
    hempty hfits ⟨_, response, rfl, htold, hserve⟩
  obtain ⟨c'', hread, hended⟩ := he.whole
    (sees_answerSwitch .little Client.takeStatus fun _ _ => rfl)
  refine ⟨_, c'', ?_, hended.responses, hended.settings, ?_, rc_iff _⟩
  · rw [Operation.call, Client.aftpRename, hexchange]
    exact hread
  · rw [hended.localWorld, hended.remote]
    rfl

theorem leads_delete (hfits : (Operation.delete f).Fits) :
    Leads env c (.delete f) True := by
  obtain ⟨response, htold, hserve⟩ := withNames_oneName env.server env.server.unlink
    [(.enoent, aErrFileNotFound), (.eperm, aErrAccessDenied), (.eacces, aErrAccessDenied)]
    (received_holds (message .little Ftp.aftpDelete [f.param aftpFilespec]) c.server) hfits
  obtain ⟨c', response, hexchange, he⟩ := exchange_served env (by decide)
    (nameRequest_one .little Ftp.aftpDelete aftpFilespec f c.session.record) hempty hfits
    ⟨_, response, rfl, htold, hserve⟩
  have hread := readAnswer_skip he.told (he.record ▸ holds_getAsuiterecord response _)
  refine ⟨rcOk, c', ?_, he.responses, he.settings, ?_, iff_of_true rfl trivial⟩
  · rw [Operation.call, Client.aftpDelete, hexchange]
    simp only [Option.bind_eq_bind, Option.bind_some, hread]
    rfl
  · rw [he.localWorld, he.remote]
    rfl

end Calls

/-- A call whose request does not fit does not return. -/
theorem call_none {op : Operation} (hfits : ¬ op.Fits)
    (hopen : ∀ f g, op = .sendFile f g → False) : op.call .little env c = none := by
  cases op with
  | changeDir d =>
    rw [Operation.call, Client.aftpChangeDir, exchange_lost (by decide)
      (nameRequest_one .little Ftp.aftpChangeDir aftpFilespec d _) (.inl hfits)]
    rfl
  | createDir d =>
    rw [Operation.call, Client.aftpCreateDir, exchange_lost (by decide)
      (nameRequest_one .little Ftp.aftpCreateDir aftpFilespec d _) (.inl hfits)]
    rfl
  | removeDir d =>
    rw [Operation.call, Client.aftpRemoveDir, exchange_lost (by decide)
      (nameRequest_one .little Ftp.aftpRemoveDir aftpFilespec d _) (.inl hfits)]
    rfl
  | delete f =>
    rw [Operation.call, Client.aftpDelete, exchange_lost (by decide)
      (nameRequest_one .little Ftp.aftpDelete aftpFilespec f _) (.inl hfits)]
    rfl
  | rename f g =>
    rw [Operation.call, Client.aftpRename, exchange_lost (by decide)
      (nameRequest_two .little Ftp.aftpRename aftpFilespec aftpNewFilespec f g _) (.inl hfits)]
    rfl
  | sendFile f g => exact (hopen f g rfl).elim

/-- A change of directory for which there is no memory does not return. -/
theorem changeDir_none {d : FileName} (hfits : (Operation.changeDir d).Fits)
    (hmalloc : ¬ (env.server.malloc c.server.world).1 = true) :
    (Operation.changeDir d).call .little env c = none := by
  have hserved := aChangeDir_served env.server
    (received_holds (message .little Ftp.aftpChangeDir [d.param aftpFilespec]) c.server) hfits
  have hmalloc' : ¬ (env.server.malloc (c.server.received
    (message .little Ftp.aftpChangeDir [d.param aftpFilespec])).world).1 = true := hmalloc
  rw [if_neg hmalloc'] at hserved
  rw [Operation.call, Client.aftpChangeDir, exchange_lost (by decide)
    (nameRequest_one .little Ftp.aftpChangeDir aftpFilespec d _) (.inr hserved)]
  rfl

/-! ## Sending a file -/

section SendFile

variable {f g : FileName} {fd : Nat} {v : V}

variable (env) in
/-- The request of `aftp_send_file` in a session as it is created. -/
theorem holds_sendFileRecord (hcreated : c.session.Created) :
    Holds (sendFileRecord .little env.va c.session.toSession f.bytes f.length g.bytes g.length
      c.session.record) (Operation.sendFile f g).data := by
  have hrecord : sendFileRecord .little env.va c.session.toSession f.bytes f.length g.bytes
      g.length c.session.record =
      (Operation.sendFile f g).request.2.foldl (fun r x => x.run .little r)
        (asuiterecordSettype .little (asuiterecordClear c.session.record)
          Asuite.aftpSendFile) := by
    have hsize (key : UInt8) : sizeBytes .little env.va key 0 = [] := rfl
    have halloc : allocBytes .little 0 = [] := rfl
    rw [sendFileRecord_eq, hcreated, foldl_run, names, f.padded_eq, g.padded_eq]
    simp only [hsize, halloc, Operation.request, List.flatMap_cons, List.flatMap_nil,
      List.append_nil, List.nil_append, List.append_assoc]
    rfl
  rw [hrecord]
  exact holds_run ..

/-- A file that cannot be read is not sent. -/
theorem leads_unread {errno : Errno} (hempty : c.responses = [])
    (hopen : env.client.openRead f.bytes c.localWorld = (.error errno, v)) :
    Leads env c (.sendFile f g) False := by
  refine ⟨rcFailFatal, { c with localWorld := v }, ?_, hempty, rfl, ?_,
    iff_of_false (by decide) id⟩
  · rw [Operation.call, Client.aftpSendFile, hopen]
    rfl
  · rw [Operation.effect, hopen]

variable (env) in
/-- The records of a file: what comes of them at the server, and what is on its way back. -/
theorem transmit_file (hfits : (Operation.sendFile f g).Fits)
    {pieces : List (List UInt8)}
    (hpieces : ∀ data ∈ pieces, data.length ≤ maxBufferSize - 2) (c' : Conn V W)
    (hserver : c'.server = c.server) (hempty : c'.responses = []) :
    ∃ c'' heard last, c'.transmit .little env
        ((Operation.sendFile f g).data ::
          (pieces.map (dataRecord .little) ++ [completeRecord .little])) = some c'' ∧
      c''.session = c'.session ∧ c''.localWorld = c'.localWorld ∧
      c''.server.remote = (c.server.remote.take env.server f.bytes pieces).2 ∧
      c''.responses = heard ++ [last] ∧
      (∀ response ∈ heard, Says .little false response) ∧
      (∃ done, Says .little done last) ∧
      ((c.server.remote.take env.server f.bytes pieces).1 = true →
        heard = [] ∧ Says .little true last) := by
  obtain ⟨responses, hcomplains, hserved⟩ := aSendFile_served env.server
    (received_holds (Operation.sendFile f g).data c.server) hfits
  obtain ⟨server, hremote, hserve⟩ : ∃ server : Server W,
      server.remote = (c.server.remote.openFile env.server f.bytes).2 ∧
      serve .little env.server env.garbage (Operation.sendFile f g).data c'.server =
        some (server, responses) := by
    have hserve := (serve_eq env.server env.garbage _
      (show Asuite.aftpSendFile < 256 by decide) c.server).trans hserved
    rw [hserver]
    exact ⟨_, by rfl, hserve⟩
  set kept := if pieces.map (dataRecord .little) ++ [completeRecord .little] = [] ∨
    env.halfDuplex = false then responses else [] with hkept
  have herrors : ∀ response ∈ kept, Says .little false response := by
    rw [hkept]
    split_ifs
    · exact hcomplains.errors
    · exact fun _ h => absurd h List.not_mem_nil
  obtain ⟨c'', heard, last, htransmit, hsession, hlocal, hfinish, hresponses, hheard, htold,
    hall⟩ := transmit_pieces env
      (c := { c' with server := server, responses := c'.responses ++ kept }) hpieces
  refine ⟨c'', kept ++ heard, last, ?_, hsession, hlocal, ?_, ?_, ?_, htold, ?_⟩
  · rw [transmit_cons _ hfits hserve]
    exact htransmit
  · rw [hfinish, Remote.take, hremote]
  · rw [hresponses, hempty, List.nil_append]
  · exact List.forall_mem_append.mpr ⟨herrors, hheard⟩
  · intro hdone
    rw [Remote.take, Bool.and_eq_true, ← hremote] at hdone
    obtain ⟨rfl, htold⟩ := hall hdone.2
    have hquiet : responses = [] := hcomplains.quiet hdone.1
    rw [hkept, hquiet, ite_self]
    exact ⟨rfl, htold⟩

/-- A file that can be read is sent, if the request fits: the call returns, and both ends are where
the operation leads. If all went well, no record is left. -/
theorem sendFile_returns (hcreated : c.session.Created) (hempty : c.responses = [])
    (hfits : (Operation.sendFile f g).Fits)
    (hopen : env.client.openRead f.bytes c.localWorld = (.ok fd, v)) :
    ∃ c', (Operation.sendFile f g).call .little env c = some (rcOk, c') ∧
      ((Operation.sendFile f g).succeeds env c = true → c'.responses = []) ∧
      c'.session.toSession = c.session.toSession ∧
      (c'.localWorld, c'.server.remote) =
        ((Operation.sendFile f g).effect env c.localWorld c.server.remote).2 := by
  have hholds := holds_sendFileRecord env (f := f) (g := g) hcreated
  set record := sendFileRecord .little env.va c.session.toSession f.bytes f.length g.bytes
    g.length c.session.record with hrecord
  have hsend : sendAsuiterecord record = (Operation.sendFile f g).data := by
    rw [sendAsuiterecord, hholds.position, hholds.slice]
  obtain ⟨record', hfile⟩ := sendOpenFile_eq env.client fd .little record v
  have hpieces : ∀ data ∈ (env.client.readFile fd v).1, data.length ≤ maxBufferSize - 2 :=
    fun data hdata => (readAll_piece env.client fd (maxBufferSize - 2)
      (env.client.left fd v + 1) v data hdata).2
  have heffect : (Operation.sendFile f g).effect env c.localWorld c.server.remote =
      ((c.server.remote.take env.server f.bytes (env.client.readFile fd v).1).1,
        (env.client.readFile fd v).2,
        (c.server.remote.take env.server f.bytes (env.client.readFile fd v).1).2) := by
    rw [Operation.effect, hopen]
  obtain ⟨c', heard, last, htransmit, hsession, hlocal, hremote, hresponses, hheard, htold,
    hall⟩ := transmit_file env hfits hpieces { c with
      session := { c.session with record := record' }
      localWorld := (env.client.readFile fd v).2 } rfl hempty
  -- the client takes the first of what is on its way, which is an answer
  obtain ⟨response, rest, done, hhead, hanswer, hrest⟩ : ∃ response rest done,
      heard ++ [last] = response :: rest ∧ Says .little done response ∧
        (heard = [] → rest = []) := by
    cases heard with
    | nil =>
      obtain ⟨done, htold⟩ := htold
      exact ⟨last, [], done, rfl, htold, fun _ => rfl⟩
    | cons response heard =>
      exact ⟨response, heard ++ [last], false, rfl, hheard _ List.mem_cons_self,
        fun h => absurd h (List.cons_ne_nil _ _)⟩
  have hreceive : c'.receive = some { c' with
      session := { c'.session with record := getAsuiterecord response c'.session.record }
      responses := rest } := by
    rw [Conn.receive, hresponses, hhead]
  have hread := readAnswer_skip (c := { c' with
      session := { c'.session with record := getAsuiterecord response c'.session.record }
      responses := rest }) hanswer (holds_getAsuiterecord response _)
  refine ⟨{ c' with
      session := { c'.session with record := getAsuiterecord response c'.session.record }
      responses := rest }, ?_, ?_, ?_, ?_⟩
  · rw [Operation.call, Client.aftpSendFile, hopen]
    simp only [← hrecord, hfile, hsend, htransmit, hreceive, hread, Option.bind_eq_bind,
      Option.bind_some]
    rfl
  · intro hdone
    rw [Operation.succeeds, heffect] at hdone
    exact hrest (hall hdone).1
  · show c'.session.toSession = c.session.toSession
    rw [hsession]
  · rw [heffect]
    show (c'.localWorld, c'.server.remote) = _
    rw [hlocal, hremote]

end SendFile

/-! ## Sessions -/

/-- Client and server agree on a call: it returns, every record that the server has sent for it has
been received, and it says that it has succeeded exactly if it has. -/
def Agree (env : Env V W) (c : Conn V W) (op : Operation) : Prop :=
  ∃ rc c', op.call .little env c = some (rc, c') ∧ c'.responses = [] ∧
    (rc = rcOk ↔ op.succeeds env c = true)

/-- When they agree. -/
def Operation.Meets (env : Env V W) (c : Conn V W) (op : Operation) : Prop :=
  match op with
  | .changeDir d =>
    op.Fits ∧ (env.server.malloc c.server.world).1 = true ∧
      if op.succeeds env c then ¬ d.Strays .little else 6 < d.length
  | .createDir d => op.Fits ∧ if op.succeeds env c then ¬ d.Strays .little else 6 < d.length
  | .removeDir _ | .rename _ _ => op.Fits
  | .delete _ => op.Fits ∧ op.succeeds env c = true
  | .sendFile f _ =>
    (env.client.openRead f.bytes c.localWorld).1.toOption = none ∨
      op.Fits ∧ op.succeeds env c = true

/-- A session: each call is made where the one before has led. -/
def session (env : Env V W) (c : Conn V W) (op : Operation) : Option (Conn V W) :=
  (op.call .little env c).map Prod.snd

/-- A connection between calls. -/
structure Conn.Ready (c : Conn V W) : Prop where
  responses : c.responses = []
  created : c.session.Created

/-- A call that meets the condition, or not: it does not return, or it keeps the settings of the
session, and both sides agree. -/
def Outcome (env : Env V W) (c : Conn V W) (op : Operation) : Prop :=
  (op.call .little env c = none ∧ ¬ op.Meets env c) ∨
    ∃ rc c', op.call .little env c = some (rc, c') ∧
      c'.session.toSession = c.session.toSession ∧
      (op.Meets env c ↔ c'.responses = [] ∧ (rc = rcOk ↔ op.succeeds env c = true))

theorem Leads.outcome {op : Operation} {seen : Prop} (h : Leads env c op seen)
    (hmeets : op.Meets env c ↔ (seen ↔ op.succeeds env c = true)) : Outcome env c op := by
  obtain ⟨rc, c', hcall, hresponses, hset, -, hrc⟩ := h
  refine .inr ⟨rc, c', hcall, hset, hmeets.trans ?_⟩
  rw [hrc, and_iff_right hresponses]

/-- The loops that end with the name see what has happened, or not. -/
theorem short_iff (done : Bool) (d : FileName) :
    (if done then ¬ d.Strays .little else 6 < d.length) ↔
      ((if done then ¬ d.Strays .little else d.length ≤ 6) ↔ done = true) := by
  cases done with
  | true => exact (iff_true_right rfl).symm
  | false => exact ((iff_false_right Bool.false_ne_true).trans Nat.not_le).symm

/-- A file that can be read is not sent if the request does not fit. -/
theorem sendFile_none {f g : FileName} {fd : Nat} {v : V} (hc : c.session.Created)
    (hfits : ¬ (Operation.sendFile f g).Fits)
    (hopen : env.client.openRead f.bytes c.localWorld = (.ok fd, v)) :
    (Operation.sendFile f g).call .little env c = none := by
  have hholds := holds_sendFileRecord env (f := f) (g := g) hc
  set record := sendFileRecord .little env.va c.session.toSession f.bytes f.length g.bytes
    g.length c.session.record with hrecord
  have hsend : sendAsuiterecord record = (Operation.sendFile f g).data := by
    rw [sendAsuiterecord, hholds.position, hholds.slice]
  obtain ⟨record', hfile⟩ := sendOpenFile_eq env.client fd .little record v
  rw [Operation.call, Client.aftpSendFile, hopen]
  simp only [← hrecord, hfile, hsend, transmit_none _ (.inl hfits), Option.bind_eq_bind,
    Option.bind_none]

/-- What comes of sending a file. -/
theorem outcome_sendFile (hc : c.Ready) (f g : FileName) : Outcome env c (.sendFile f g) := by
  cases hopen : env.client.openRead f.bytes c.localWorld with
  | mk outcome v =>
    cases outcome with
    | error errno =>
      have hunread : (Operation.sendFile f g).succeeds env c = false := by
        rw [Operation.succeeds, Operation.effect, hopen]
      apply (leads_unread hc.responses hopen).outcome
      rw [hunread]
      exact iff_of_true (.inl (by rw [hopen]; rfl)) (iff_of_false id Bool.false_ne_true)
    | ok fd =>
      have hopened : ¬ (env.client.openRead f.bytes c.localWorld).1.toOption = none := by
        rw [hopen]
        exact Option.some_ne_none fd
      by_cases hfits : (Operation.sendFile f g).Fits
      · obtain ⟨c', hcall, hquiet, hset, -⟩ :=
          sendFile_returns (g := g) hc.created hc.responses hfits hopen
        refine .inr ⟨rcOk, c', hcall, hset, ?_, ?_⟩
        · rintro (hnone | ⟨-, hdone⟩)
          · exact absurd hnone hopened
          · exact ⟨hquiet hdone, iff_of_true rfl hdone⟩
        · exact fun h => .inr ⟨hfits, h.2.mp rfl⟩
      · exact .inl ⟨sendFile_none hc.created hfits hopen, fun h =>
          h.elim hopened fun h => hfits h.1⟩

variable (env) in
/-- What comes of a call. -/
theorem outcome (hc : c.Ready) (op : Operation) : Outcome env c op := by
  by_cases hsend : ∃ f g, op = .sendFile f g
  · obtain ⟨f, g, rfl⟩ := hsend
    exact outcome_sendFile hc f g
  by_cases hfits : op.Fits
  · cases op with
    | changeDir d =>
      by_cases hmalloc : (env.server.malloc c.server.world).1 = true
      · apply (leads_changeDir hc.responses hfits hmalloc).outcome
        exact (and_iff_right hfits).trans ((and_iff_right hmalloc).trans (short_iff _ d))
      · exact .inl ⟨changeDir_none hfits hmalloc, fun h => hmalloc h.2.1⟩
    | createDir d =>
      apply (leads_createDir hc.responses hfits).outcome
      exact (and_iff_right hfits).trans (short_iff _ d)
    | removeDir d => exact (leads_removeDir hc.responses hfits).outcome (iff_of_true hfits Iff.rfl)
    | rename f g => exact (leads_rename hc.responses hfits).outcome (iff_of_true hfits Iff.rfl)
    | delete f =>
      apply (leads_delete hc.responses hfits).outcome
      exact (and_iff_right hfits).trans (true_iff _).to_iff.symm
    | sendFile f g => exact absurd ⟨f, g, rfl⟩ hsend
  · refine .inl ⟨call_none hfits fun f g h => hsend ⟨f, g, h⟩, fun h => hfits ?_⟩
    cases op with
    | changeDir d => exact h.1
    | createDir d => exact h.1
    | removeDir d => exact h
    | rename f g => exact h
    | delete f => exact h.1
    | sendFile f g => exact absurd ⟨f, g, rfl⟩ hsend

/-- Both sides agree on a call exactly if it meets the condition. -/
theorem agree_iff_meets (hc : c.Ready) (op : Operation) : Agree env c op ↔ op.Meets env c := by
  obtain ⟨hnone, hmeets⟩ | ⟨rc, c', hcall, -, hmeets⟩ := outcome env hc op
  · refine iff_of_false ?_ hmeets
    rintro ⟨rc, c', hcall, -⟩
    cases hnone.symm.trans hcall
  · rw [hmeets]
    constructor
    · rintro ⟨rc', c'', hcall', h⟩
      cases hcall.symm.trans hcall'
      exact h
    · exact fun h => ⟨rc, c', hcall, h⟩

/-- What such a call leads to is between calls again. -/
theorem ready_of_meets {c' : Conn V W} {op : Operation} (hc : c.Ready) (h : op.Meets env c)
    (hstep : session env c op = some c') : c'.Ready := by
  obtain ⟨-, hmeets⟩ | ⟨rc, c'', hcall, hset, hmeets⟩ := outcome env hc op
  · exact absurd h hmeets
  · rw [session, hcall] at hstep
    cases hstep
    exact ⟨(hmeets.mp h).1, hset.trans hc.created⟩

/-- Client and server agree on the outcomes of a session exactly if every call of it meets the
condition. -/
theorem outcomes_agree_iff (env : Env V W) (hc : c.Ready) (ops : List Operation) :
    Framework.Along (session env) (Agree env) c ops ↔
      Framework.Along (session env) (fun c op => op.Meets env c) c ops := by
  apply Framework.along_iff (I := Conn.Ready)
  · exact fun c op c' hc hmeets hstep => ready_of_meets hc hmeets hstep
  · exact fun c op hc => agree_iff_meets hc op
  · exact hc

/-! ## A server that refuses everything -/

/-- A system on which all calls that may fail do, or none; its files are empty. -/
def System.constant (works : Bool) : System Unit where
  malloc _ := (true, ())
  chdir _ _ := (if works then none else some .eacces, ())
  mkdir _ _ := (if works then none else some .eacces, ())
  rmdir _ _ := (if works then none else some .eacces, ())
  unlink _ _ := (if works then none else some .eacces, ())
  rename _ _ _ := (if works then none else some .eacces, ())
  openWrite _ _ := (if works then .ok 3 else .error .eacces, ())
  openRead _ _ := (if works then .ok 3 else .error .eacces, ())
  read _ _ _ := (.ok [], ())
  write _ data _ := (if works then .ok data.length else .error .other, ())
  close _ _ := (if works then none else some .other, ())
  left _ _ := 0
  read_left _ _ _ _ h hne := absurd (Except.ok.inj h).symm hne
  read_le _ _ _ _ h := (Except.ok.inj h) ▸ Nat.zero_le _
  write_pos _ data _ k h hne := by
    cases works with
    | true => exact Except.ok.inj h ▸ List.length_pos_of_ne_nil hne
    | false => exact absurd h (by simp)
  write_le _ data _ k h := by
    cases works with
    | true => exact Nat.le_of_eq (Except.ok.inj h).symm
    | false => exact absurd h (by simp)

/-- A client whose files can be read, and a server that refuses everything. -/
def refusing : Env Unit Unit where
  client := .constant true
  server := .constant false
  va _ _ := 0
  garbage := 0
  halfDuplex := true

/-- A connection as it begins. -/
def fresh : Conn Unit Unit where
  session :=
    { allocSize := 0, blockSize := 0, dataType := 0, dateMode := 0, recordLength := 0
      record := asuiterecordNew, status := 0, msgCategory := 0, msgIndex := 0, primaryMsg := [] }
  localWorld := ()
  server := { world := (), destFile := some 0, record := asuiterecordNew }
  responses := []

/-- A directory and a file, called `abc`. -/
def abc : FileName := ⟨[97, 98, 99], by decide, by decide⟩

/-- Both sides agree that a directory is not removed. -/
theorem outcomes_agree_iff_removeDir :
    Framework.Along (session refusing) (Agree refusing) fresh [.removeDir abc] ↔
      Framework.Along (session refusing) (fun c op => op.Meets refusing c) fresh
        [.removeDir abc] :=
  outcomes_agree_iff (c := fresh) refusing ⟨rfl, rfl⟩ [.removeDir abc]

/-- A file that could not be deleted is deleted for the client, and one that could not be written
is sent; a directory with a short name that could not be made is made. -/
theorem refused_unseen :
    ¬ Framework.Along (session refusing) (Agree refusing) fresh [.delete abc] ∧
      ¬ Framework.Along (session refusing) (Agree refusing) fresh [.createDir abc] ∧
      ¬ Framework.Along (session refusing) (Agree refusing) fresh [.sendFile abc abc] := by
  have hready : fresh.Ready := ⟨rfl, rfl⟩
  refine ⟨fun h => ?_, fun h => ?_, fun h => ?_⟩
  · have hmeets := (agree_iff_meets hready _).mp h.1
    exact absurd hmeets.2 (by decide)
  · have hmeets := (agree_iff_meets hready _).mp h.1
    exact absurd hmeets.2 (show ¬ 6 < 3 by decide)
  · have hmeets := (agree_iff_meets hready _).mp h.1
    obtain hnone | hdone := hmeets
    · exact absurd hnone (show ¬ some 3 = none by decide)
    · exact absurd hdone.2 (show ¬ false = true by decide)

end LinuxSna.Asuite.Ftp
