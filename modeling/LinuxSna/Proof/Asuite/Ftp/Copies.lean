import LinuxSna.Proof.Asuite.Ftp.Contents
import LinuxSna.Proof.Asuite.Ftp.Outcomes

/-!
# Transfers copy files

What `aftp_send_file` leaves at the server and `aftp_receive_file` at the client, if they say that
all is well.

* `sendFile_copies_iff`, `receiveFile_copies_iff`: each of them copies the file exactly if its
  condition holds;
* `transfers_iff`: both.
-/

namespace LinuxSna.Asuite.Ftp

/-- Two systems of files, of which some calls fail. -/
structure Faults where
  client : Nat → Bool
  server : Nat → Bool
  va : UInt8 → Nat → Nat
  garbage : Nat
  halfDuplex : Bool

/-- The two ends on these systems -/
def Faults.env (faults : Faults) : Env Files Files where
  client := files faults.client
  server := files faults.server
  va := faults.va
  garbage := faults.garbage
  halfDuplex := faults.halfDuplex

variable {faults : Faults} {c : Conn Files Files} {f g : FileName}

/-- One file of `base` has this content in `content`, and the others are as they were. -/
def OneChanged (base content : List UInt8 → Option (List UInt8)) (name x : List UInt8) : Prop :=
  content name = some x ∧ ∀ other, other ≠ name → content other = base other

theorem oneChanged_iff {base content : List UInt8 → Option (List UInt8)} {name x : List UInt8} :
    OneChanged base content name x ↔ content = Function.update base name (some x) := by
  constructor
  · rintro ⟨hname, hothers⟩
    funext other
    by_cases h : other = name
    · rw [h, hname, Function.update_self]
    · rw [hothers other h, Function.update_of_ne h]
  · rintro rfl
    exact ⟨Function.update_self .., fun other h => Function.update_of_ne h ..⟩

/-- What is written to one file does for another exactly if nothing had to be done. -/
theorem update_eq_update_iff {base : List UInt8 → Option (List UInt8)} {name name' x y : List UInt8} :
    Function.update base name (some y) = Function.update base name' (some x) ↔
      if name = name' then y = x else base name = some y ∧ base name' = some x := by
  by_cases h : name = name'
  · rw [if_pos h, h]
    exact (Function.update_injective base name').eq_iff.trans (Option.some.injEq ..).to_iff
  · rw [if_neg h]
    constructor
    · intro heq
      have hname := congrFun heq name
      have hname' := congrFun heq name'
      rw [Function.update_self, Function.update_of_ne h] at hname
      rw [Function.update_self, Function.update_of_ne (Ne.symm h)] at hname'
      exact ⟨hname.symm, hname'⟩
    · rintro ⟨hname, hname'⟩
      rw [← hname, ← hname', Function.update_eq_self, Function.update_eq_self]

theorem eq_update_iff {base : List UInt8 → Option (List UInt8)} {name x : List UInt8} :
    base = Function.update base name (some x) ↔ base name = some x :=
  (eq_comm.trans Function.update_eq_self_iff).trans eq_comm

/-! ## Sending -/

/-- If `aftp_send_file` says that all is well, the server's file has the content of the local file,
and no other has changed. -/
def SendCopies (faults : Faults) (c : Conn Files Files) (f g : FileName) : Prop :=
  ∀ c', Client.aftpSendFile .little faults.env f.bytes f.length g.bytes g.length c =
      some (rcOk, c') →
    ∃ x, c.localWorld.content f.bytes = some x ∧
      OneChanged c.server.world.content c'.server.world.content g.bytes x

/-- The local file cannot be read, or its request does not fit into a record. -/
def Unsent (faults : Faults) (c : Conn Files Files) (f g : FileName) : Prop :=
  ¬ (Operation.sendFile f g).Fits ∨ faults.client c.localWorld.calls = true ∨
    c.localWorld.content f.bytes = none

/-- What the server writes of the local file. -/
def sent (faults : Faults) (c : Conn Files Files) (f : FileName) : List UInt8 :=
  landed faults.server (c.server.world.calls + 3)
    (arriving faults.client (maxBufferSize - 2) ((c.localWorld.held f.bytes).length + 1)
      (c.localWorld.calls + 1) (c.localWorld.held f.bytes))

/-- The server opens the file that is sent. -/
def Opens (faults : Faults) (k : Nat) : Prop :=
  ¬ (faults.server k = true ∨ faults.server (k + 1) = true ∨ faults.server (k + 2) = true)

instance (faults : Faults) (k : Nat) : Decidable (Opens faults k) :=
  inferInstanceAs (Decidable (¬ _))

/-- When `aftp_send_file` copies the file. The server opens it under its local name and does not
truncate it. -/
def SendMeets (faults : Faults) (c : Conn Files Files) (f g : FileName) : Prop :=
  Unsent faults c f g ∨
    if Opens faults c.server.world.calls then
      let left := overlay (sent faults c f) (c.server.world.held f.bytes)
      if f.bytes = g.bytes then left = c.localWorld.held f.bytes
      else c.server.world.content f.bytes = some left ∧
        c.server.world.content g.bytes = some (c.localWorld.held f.bytes)
    else c.server.world.content g.bytes = some (c.localWorld.held f.bytes)

theorem openRead_eq (v : Files) (name : List UInt8) (cf : Nat → Bool) :
    (files cf).openRead name v =
      if cf v.calls then (.error .eacces, v.tick)
      else if (v.content name).isSome then (.ok v.next, v.tick.opening name)
      else (.error .enoent, v.tick) := rfl

/-- Where the server's files are once a file has been sent. -/
theorem sendFile_content (hc : c.Ready) (hclosed : c.server.remote.Closed)
    (hsent : ¬ Unsent faults c f g) :
    ∃ c', Client.aftpSendFile .little faults.env f.bytes f.length g.bytes g.length c =
        some (rcOk, c') ∧
      c'.server.world.content = if Opens faults c.server.world.calls then
        Function.update c.server.world.content f.bytes
          (some (overlay (sent faults c f) (c.server.world.held f.bytes)))
        else c.server.world.content := by
  rw [Unsent, not_or, not_or, not_not] at hsent
  obtain ⟨hfits, hfault, hsome⟩ := hsent
  have hopen : faults.env.client.openRead f.bytes c.localWorld =
      (.ok c.localWorld.next, c.localWorld.tick.opening f.bytes) := by
    show (files faults.client).openRead f.bytes c.localWorld = _
    rw [openRead_eq, if_neg hfault, if_pos (Option.isSome_iff_ne_none.mpr hsome)]
  obtain ⟨c', hcall, -, -, heffect⟩ :=
    sendFile_returns (g := g) hc.created hc.responses hfits hopen
  refine ⟨c', hcall, ?_⟩
  have hremote : c'.server.remote = (c.server.remote.take (files faults.server) f.bytes
      ((files faults.client).readFile c.localWorld.next
        (c.localWorld.tick.opening f.bytes)).1).2 := by
    have h := congrArg Prod.snd heffect
    rw [Operation.effect, hopen] at h
    exact h
  have htake := (take_content faults.server f.bytes
    ((files faults.client).readFile c.localWorld.next
        (c.localWorld.tick.opening f.bytes)).1 hclosed).1
  rw [← hremote, readFile_pieces] at htake
  show c'.server.remote.world.content = _
  refine htake.trans ?_
  by_cases hopens : faults.server c.server.world.calls = true ∨
      faults.server (c.server.world.calls + 1) = true ∨
      faults.server (c.server.world.calls + 2) = true
  · rw [if_neg (show ¬ Opens faults c.server.world.calls from not_not.mpr hopens)]
    exact if_pos hopens
  · rw [if_pos (show Opens faults c.server.world.calls from hopens)]
    exact if_neg hopens

theorem not_returns_of_unsent (hc : c.Ready) (h : Unsent faults c f g) (c' : Conn Files Files) :
    Client.aftpSendFile .little faults.env f.bytes f.length g.bytes g.length c ≠
      some (rcOk, c') := by
  intro hcall
  by_cases hread : faults.client c.localWorld.calls = true ∨ c.localWorld.content f.bytes = none
  · obtain ⟨errno, hopen⟩ : ∃ errno, faults.env.client.openRead f.bytes c.localWorld =
        (.error errno, c.localWorld.tick) := by
      show ∃ errno, (files faults.client).openRead f.bytes c.localWorld = _
      rw [openRead_eq]
      obtain hfault | hnone := hread
      · exact ⟨.eacces, if_pos hfault⟩
      · split_ifs with hfault hsome
        · exact ⟨.eacces, rfl⟩
        · exact absurd hnone (Option.isSome_iff_ne_none.mp hsome)
        · exact ⟨.enoent, rfl⟩
    rw [Client.aftpSendFile, hopen] at hcall
    exact absurd (congrArg Prod.fst (Option.some.inj hcall)) (show ¬ rcFailFatal = rcOk by decide)
  · have hfits := h.resolve_right hread
    rw [not_or] at hread
    have hopen : faults.env.client.openRead f.bytes c.localWorld =
        (.ok c.localWorld.next, c.localWorld.tick.opening f.bytes) := by
      show (files faults.client).openRead f.bytes c.localWorld = _
      rw [openRead_eq, if_neg hread.1, if_pos (Option.isSome_iff_ne_none.mpr hread.2)]
    have hnone : Client.aftpSendFile .little faults.env f.bytes f.length g.bytes g.length c = none :=
      sendFile_none hc.created hfits hopen
    rw [hnone] at hcall
    cases hcall

/-- `aftp_send_file` copies the file exactly if the condition holds. -/
theorem sendFile_copies_iff (hc : c.Ready) (hclosed : c.server.remote.Closed) (f g : FileName) :
    SendCopies faults c f g ↔ SendMeets faults c f g := by
  by_cases hsent : Unsent faults c f g
  · exact iff_of_true (fun c' hcall => absurd hcall (not_returns_of_unsent hc hsent c'))
      (.inl hsent)
  · obtain ⟨c', hcall, hcontent⟩ := sendFile_content hc hclosed hsent
    obtain ⟨x, hx⟩ := Option.ne_none_iff_exists'.mp (not_or.mp (not_or.mp hsent).2).2
    have hheld : c.localWorld.held f.bytes = x := by rw [Files.held, hx, Option.getD_some]
    have hcopies : SendCopies faults c f g ↔
        c'.server.world.content = Function.update c.server.world.content g.bytes (some x) := by
      constructor
      · intro h
        obtain ⟨y, hy, hone⟩ := h c' hcall
        rw [hx] at hy
        rw [Option.some.inj hy]
        exact oneChanged_iff.mp hone
      · intro h c'' hcall'
        cases hcall.symm.trans hcall'
        exact ⟨x, hx, oneChanged_iff.mpr h⟩
    rw [hcopies, hcontent, SendMeets, or_iff_right hsent, hheld]
    by_cases hopens : Opens faults c.server.world.calls
    · rw [if_pos hopens, if_pos hopens]
      exact update_eq_update_iff
    · rw [if_neg hopens, if_neg hopens]
      exact eq_update_iff

/-! ## Receiving -/

/-- The session once it has received a record of a file. -/
def Ftpsession.heard (data : List UInt8) (s : Ftpsession) : Ftpsession :=
  { s with record := getAsuiterecord data (asuiterecordClear s.record) }

section Loop

variable {V : Type} (sys : System V) (fd : Nat) (s : Ftpsession) (v : V)

theorem receiveLoop_data (data : List UInt8) (rest : List (List UInt8)) :
    ∃ s' : Ftpsession, Client.receiveLoop .little sys fd (dataRecord .little data :: rest) s v =
      Client.receiveLoop .little sys fd rest s' (sys.write fd data v).2 := by
  have hholds := holds_getAsuiterecord (dataRecord .little data) (asuiterecordClear s.record)
  refine ⟨s.heard (dataRecord .little data), ?_⟩
  rw [Client.receiveLoop]
  simp only [hholds.majorCode (show aftpFileData < 256 by decide), aftpFileData, hholds.data]
  rfl

theorem receiveLoop_complete (rest : List (List UInt8)) :
    ∃ s' : Ftpsession, Client.receiveLoop .little sys fd (completeRecord .little :: rest) s v =
      some (rcOk, s', (sys.close fd v).2, rest) := by
  have hholds := holds_getAsuiterecord (completeRecord .little) (asuiterecordClear s.record)
  refine ⟨s.heard (completeRecord .little), ?_⟩
  rw [Client.receiveLoop]
  simp only [hholds.majorCode (show aftpFileComplete < 256 by decide), aftpFileComplete]
  rfl

/-- The pieces of a file are written, one after another. -/
theorem receiveLoop_pieces (pieces : List (List UInt8)) :
    ∃ s' : Ftpsession, Client.receiveLoop .little sys fd
        (pieces.map (dataRecord .little) ++ [completeRecord .little]) s v =
      some (rcOk, s',
        (sys.close fd (pieces.foldl (fun v data => (sys.write fd data v).2) v)).2, []) := by
  induction pieces generalizing s v with
  | nil => exact receiveLoop_complete sys fd s v []
  | cons data pieces ih =>
    obtain ⟨s', hstep⟩ := receiveLoop_data sys fd s v data
      (pieces.map (dataRecord .little) ++ [completeRecord .little])
    obtain ⟨s'', hrest⟩ := ih s' (sys.write fd data v).2
    exact ⟨s'', hstep.trans hrest⟩

/-- What comes first of a file is passed over. -/
theorem receiveLoop_announced {name : List UInt8} {dataType : UInt8} (rest : List (List UInt8))
    (hfits : (announced .little name dataType).length ≤ maxBufferSize) :
    ∃ s' : Ftpsession,
      Client.receiveLoop .little sys fd (announced .little name dataType :: rest) s v =
        Client.receiveLoop .little sys fd rest s' v := by
  have hholds := holds_getAsuiterecord (announced .little name dataType)
    (asuiterecordClear s.record)
  have hfaithful : ∀ x ∈ [Call.append aftpFilespec (Framework.padded (name.length + 1)
      (gBasename name)), .char aftpDataType dataType], x.Faithful := by
    simp only [List.forall_mem_cons, List.not_mem_nil, false_implies, implies_true, and_true]
    exact ⟨Framework.zeroTail_padded _ _, trivial⟩
  have hscan := scan_message (fun _ (_ : Unit) => (.inl () : Unit ⊕ Empty))
    (fun _ _ a => .inl a) hholds (List.cons_ne_nil _ _) hfaithful hfits
    (fun _ _ _ _ _ => rfl) ()
  rw [scanCalls_inl] at hscan
  refine ⟨s.heard (announced .little name dataType), ?_⟩
  rw [Client.receiveLoop]
  simp only [hholds.majorCode (show Asuite.aftpSendFile < 256 by decide), Asuite.aftpSendFile,
    hscan, Option.bind_eq_bind, Option.bind_some]
  rfl

/-- An error does not end well. -/
theorem receiveLoop_error {response : List UInt8} (h : Says .little false response)
    (result : Ftpsession × V × List (List UInt8)) :
    Client.receiveLoop .little sys fd [response] s v ≠ some (rcOk, result) := by
  have hholds := holds_getAsuiterecord response (asuiterecordClear s.record)
  intro hcall
  rw [Client.receiveLoop] at hcall
  simp only [h.majorCode hholds, Libaftp.aftpSimpleResponse, Option.bind_eq_bind,
    Option.bind_eq_some_iff] at hcall
  obtain ⟨outcome, -, hcall⟩ := hcall
  cases outcome with
  | inl _ => cases hcall
  | inr _ =>
    have hrc : rcFailInputError = rcOk := congrArg Prod.fst (Option.some.inj hcall)
    exact absurd hrc (by decide)

end Loop

/-- If `aftp_receive_file` says that all is well, the client's file has the content of the server's,
and no other has changed. -/
def ReceiveCopies (faults : Faults) (c : Conn Files Files) (f g : FileName) : Prop :=
  ∀ c', Client.aftpReceiveFile .little faults.env f.bytes f.length g.bytes g.length c =
      some (rcOk, c') →
    ∃ x, c.server.world.content g.bytes = some x ∧
      OneChanged c.localWorld.content c'.localWorld.content f.bytes x

/-- The request for a file -/
def receiveData (f g : FileName) : List UInt8 :=
  message .little aftpRequestFile
    [g.param aftpFilespec, f.param aftpNewFilespec, .char aftpDataType 0]

/-- The request does not fit into a record, or a file cannot be opened. -/
def Unreceived (faults : Faults) (c : Conn Files Files) (f g : FileName) : Prop :=
  ¬ (receiveData f g).length ≤ maxBufferSize ∨ faults.client c.localWorld.calls = true ∨
    ¬ Opens faults c.server.world.calls ∨ c.server.world.content g.bytes = none

/-- What the client writes of the remote file. -/
def received (faults : Faults) (c : Conn Files Files) (g : FileName) : List UInt8 :=
  landed faults.client (c.localWorld.calls + 1)
    (arriving faults.server (maxBufferSize - 2) ((c.server.world.held g.bytes).length + 1)
      (c.server.world.calls + 3) (c.server.world.held g.bytes))

/-- When `aftp_receive_file` copies the file. The client does not truncate it. -/
def ReceiveMeets (faults : Faults) (c : Conn Files Files) (f g : FileName) : Prop :=
  Unreceived faults c f g ∨
    overlay (received faults c g) (c.localWorld.held f.bytes) = c.server.world.held g.bytes

theorem malloc_eq (sf : Nat → Bool) (w : Files) :
    (files sf).malloc w = (!sf w.calls, w.tick) := rfl

variable (faults) in
/-- A file that is asked for is opened, or it is not. -/
theorem requested_eq (w : Files) (name : List UInt8) :
    (Opens faults w.calls → w.content name ≠ none →
      (files faults.server).requested name w =
        (some w.next, w.tick.tick.tick.opening name)) ∧
      (¬ Opens faults w.calls ∨ w.content name = none →
        ((files faults.server).requested name w).1 = none) := by
  rw [System.requested]
  simp only [System.mallocs, malloc_eq, openRead_eq]
  by_cases hfirst : faults.server w.calls = true
  · rw [hfirst]
    exact ⟨fun h => absurd (.inl hfirst) h, fun _ => rfl⟩
  rw [Bool.not_eq_true] at hfirst
  by_cases hsecond : faults.server (w.calls + 1) = true
  · simp only [hfirst, Bool.not_false, show w.tick.calls = w.calls + 1 from rfl, hsecond,
      Bool.not_true]
    exact ⟨fun h => absurd (.inr (.inl hsecond)) h, fun _ => trivial⟩
  rw [Bool.not_eq_true] at hsecond
  simp only [hfirst, Bool.not_false, show w.tick.calls = w.calls + 1 from rfl, hsecond,
    show w.tick.tick.calls = w.calls + 2 from rfl]
  by_cases hthird : faults.server (w.calls + 2) = true
  · rw [if_pos hthird]
    exact ⟨fun h => absurd (.inr (.inr hthird)) h, fun _ => rfl⟩
  · rw [if_neg hthird]
    by_cases hsome : (w.content name).isSome
    · rw [if_pos (show (w.tick.tick.content name).isSome from hsome)]
      refine ⟨fun _ _ => rfl, fun h => ?_⟩
      have hopens : Opens faults w.calls := by
        rw [Opens, hfirst, hsecond]
        simpa using hthird
      exact absurd (h.resolve_left (not_not.mpr hopens)) (Option.isSome_iff_ne_none.mp hsome)
    · rw [if_neg (show ¬ (w.tick.tick.content name).isSome from hsome)]
      exact ⟨fun _ h => absurd (Option.isSome_iff_ne_none.mpr h) hsome, fun _ => rfl⟩

variable (faults f g) in
/-- The request of `aftp_receive_file` in a session as it is created. -/
theorem holds_requestFileRecord (hcreated : c.session.Created) :
    Holds (requestFileRecord .little faults.va c.session.toSession f.bytes f.length g.bytes
      g.length c.session.record) (receiveData f g) := by
  have hrecord : requestFileRecord .little faults.va c.session.toSession f.bytes f.length g.bytes
      g.length c.session.record =
      [g.param aftpFilespec, f.param aftpNewFilespec, .char aftpDataType 0].foldl
        (fun r x => x.run .little r)
        (asuiterecordSettype .little (asuiterecordClear c.session.record) aftpRequestFile) := by
    have hsize (key : UInt8) : sizeBytes .little faults.va key 0 = [] := rfl
    rw [requestFileRecord_eq, hcreated, foldl_run, names, f.padded_eq, g.padded_eq]
    simp only [hsize, List.append_nil]
    rfl
  rw [hrecord]
  exact holds_run ..

theorem openWrite_eq (v : Files) (name : List UInt8) (cf : Nat → Bool) :
    (files cf).openWrite name v =
      if cf v.calls then (.error .eacces, v.tick)
      else (.ok v.next, (v.tick.put name (v.held name)).opening name) := rfl

variable (faults c) in
/-- The request for a file is answered. -/
theorem requestFile_served (hfits : (receiveData f g).length ≤ maxBufferSize) :
    ∃ server responses, serve .little faults.env.server faults.env.garbage (receiveData f g)
        c.server = some (server, responses) ∧
      AnswersRequest .little faults.env.server g.bytes 0
        (faults.env.server.requested g.bytes c.server.world) responses := by
  obtain ⟨server, responses, hserved, hanswers⟩ := aRequestFile_served
    faults.env.server faults.env.garbage
    (received_holds (receiveData f g) c.server) hfits
  exact ⟨server, responses,
    (serve_eq _ _ _ (show aftpRequestFile < 256 by decide) c.server).trans hserved, hanswers⟩

/-- What is announced fits, since the request has named it. -/
theorem announced_fits (hfits : (receiveData f g).length ≤ maxBufferSize) :
    (announced .little g.bytes 0).length ≤ maxBufferSize := by
  have hname : ((Call.append aftpFilespec (Framework.padded (g.bytes.length + 1)
      (gBasename g.bytes))).bytes .little).length = g.bytes.length + 4 := by
    have hfaithful : (Call.append aftpFilespec (Framework.padded (g.bytes.length + 1)
        (gBasename g.bytes))).Faithful := Framework.zeroTail_padded _ _
    rw [Call.length_bytes, (hfaithful.stored .little).2]
    show 3 + (Framework.padded (g.bytes.length + 1) (gBasename g.bytes)).length = _
    rw [Framework.length_padded]
    omega
  have hlength : (announced .little g.bytes 0).length ≤ (receiveData f g).length := by
    rw [announced, receiveData, length_message, length_message]
    simp only [List.flatMap_cons, List.length_append, hname, FileName.length_param,
      FileName.length]
    omega
  exact hlength.trans hfits

/-- What is heard of a request that is sent, where the local file could be opened. -/
theorem receiveFile_eq {v : Files} {fd : Nat} (hc : c.Ready)
    (hfits : (receiveData f g).length ≤ maxBufferSize)
    (hopen : faults.env.client.openWrite f.bytes c.localWorld = (.ok fd, v)) :
    ∃ server responses s, AnswersRequest .little faults.env.server g.bytes 0
        (faults.env.server.requested g.bytes c.server.world) responses ∧
      Client.aftpReceiveFile .little faults.env f.bytes f.length g.bytes g.length c =
        (Client.receiveLoop .little faults.env.client fd responses s v).map
          fun (rc, session, v, responses) =>
            (rc, { c with session, localWorld := v, server, responses }) := by
  have hholds := holds_requestFileRecord faults f g hc.created
  obtain ⟨server, responses, hserve, hresponses⟩ :=
    requestFile_served faults c hfits
  set record := requestFileRecord .little faults.va c.session.toSession f.bytes f.length
    g.bytes g.length c.session.record with hrecord
  have hsend : sendAsuiterecord record = receiveData f g := by
    rw [sendAsuiterecord, hholds.position, hholds.slice]
  refine ⟨server, responses, { c.session with record }, hresponses, ?_⟩
  rw [Client.aftpReceiveFile, hopen]
  simp only [show faults.env.va = faults.va from rfl, ← hrecord, hsend, Conn.transmit,
    if_neg (Nat.not_lt.mpr hfits), hserve, hc.responses, true_or, if_true, List.nil_append,
    Option.bind_eq_bind, Option.bind_some]
  cases Client.receiveLoop .little faults.env.client fd responses { c.session with record } v with
  | none => rfl
  | some result => rfl

/-- Where the client's files are once a file has been received. -/
theorem receiveFile_content (hc : c.Ready) (hreceived : ¬ Unreceived faults c f g) :
    ∃ c', Client.aftpReceiveFile .little faults.env f.bytes f.length g.bytes g.length c =
        some (rcOk, c') ∧
      c'.localWorld.content = Function.update c.localWorld.content f.bytes
        (some (overlay (received faults c g) (c.localWorld.held f.bytes))) := by
  rw [Unreceived, not_or, not_or, not_or, not_not, not_not] at hreceived
  obtain ⟨hfits, hfault, hopens, hsome⟩ := hreceived
  set v := (c.localWorld.tick.put f.bytes (c.localWorld.held f.bytes)).opening f.bytes with hv
  have hopen : faults.env.client.openWrite f.bytes c.localWorld = (.ok c.localWorld.next, v) := by
    show (files faults.client).openWrite f.bytes c.localWorld = _
    rw [openWrite_eq, if_neg hfault]
  obtain ⟨server, responses, s, hresponses, hcall⟩ := receiveFile_eq hc hfits hopen
  have hrequested := (requested_eq faults c.server.world g.bytes).1 hopens hsome
  rw [show faults.env.server.requested g.bytes c.server.world = _ from hrequested,
    AnswersRequest] at hresponses
  have hpieces : (faults.env.server.readFile c.server.world.next
      (c.server.world.tick.tick.tick.opening g.bytes)).1 =
      arriving faults.server (maxBufferSize - 2) ((c.server.world.held g.bytes).length + 1)
        (c.server.world.calls + 3) (c.server.world.held g.bytes) :=
    readFile_pieces faults.server (w := c.server.world.tick.tick) g.bytes
  rw [hpieces] at hresponses
  set pieces := arriving faults.server (maxBufferSize - 2)
    ((c.server.world.held g.bytes).length + 1) (c.server.world.calls + 3)
    (c.server.world.held g.bytes) with hpieces
  obtain ⟨s₁, hfirst⟩ := receiveLoop_announced faults.env.client c.localWorld.next s v
    (pieces.map (dataRecord .little) ++ [completeRecord .little]) (announced_fits hfits)
  obtain ⟨s₂, hrest⟩ := receiveLoop_pieces faults.env.client c.localWorld.next s₁ v pieces
  rw [hresponses, hfirst, hrest] at hcall
  refine ⟨_, hcall, ?_⟩
  have hwriting : Writing c.localWorld.content f.bytes (c.localWorld.held f.bytes) []
      c.localWorld.next v := ⟨Function.update_self .., rfl⟩
  exact hwriting.writes faults.client pieces

/-- Where a file cannot be opened, or the request does not fit, the call does not say that all is
well. -/
theorem not_returns_of_unreceived (hc : c.Ready) (h : Unreceived faults c f g)
    (c' : Conn Files Files) :
    Client.aftpReceiveFile .little faults.env f.bytes f.length g.bytes g.length c ≠
      some (rcOk, c') := by
  intro hcall
  by_cases hfault : faults.client c.localWorld.calls = true
  · have hopen : faults.env.client.openWrite f.bytes c.localWorld =
        (.error .eacces, c.localWorld.tick) := by
      show (files faults.client).openWrite f.bytes c.localWorld = _
      rw [openWrite_eq, if_pos hfault]
    rw [Client.aftpReceiveFile, hopen] at hcall
    exact absurd (congrArg Prod.fst (Option.some.inj hcall)) (show ¬ rcFailFatal = rcOk by decide)
  have hopen : faults.env.client.openWrite f.bytes c.localWorld = (.ok c.localWorld.next,
      (c.localWorld.tick.put f.bytes (c.localWorld.held f.bytes)).opening f.bytes) := by
    show (files faults.client).openWrite f.bytes c.localWorld = _
    rw [openWrite_eq, if_neg hfault]
  by_cases hfits : (receiveData f g).length ≤ maxBufferSize
  · obtain ⟨server, responses, s, hresponses, heq⟩ := receiveFile_eq hc hfits hopen
    have hclosed : ¬ Opens faults c.server.world.calls ∨ c.server.world.content g.bytes = none :=
      (h.resolve_left (not_not.mpr hfits)).resolve_left hfault
    have hrequested := (requested_eq faults c.server.world g.bytes).2 hclosed
    obtain ⟨response, htold, rfl⟩ : ∃ response, Says .little false response ∧
        responses = [response] := by
      cases houtcome : faults.env.server.requested g.bytes c.server.world with
      | mk outcome w =>
        rw [show (files faults.server).requested g.bytes c.server.world = _ from houtcome]
          at hrequested
        obtain rfl : outcome = none := hrequested
        rwa [houtcome] at hresponses
    rw [heq, Option.map_eq_some_iff] at hcall
    obtain ⟨⟨rc, result⟩, hloop, hresult⟩ := hcall
    obtain rfl : rc = rcOk := congrArg Prod.fst hresult
    exact receiveLoop_error _ _ _ _ htold result hloop
  · have hholds := holds_requestFileRecord faults f g hc.created
    set record := requestFileRecord .little faults.va c.session.toSession f.bytes f.length
      g.bytes g.length c.session.record with hrecord
    have hsend : sendAsuiterecord record = receiveData f g := by
      rw [sendAsuiterecord, hholds.position, hholds.slice]
    rw [Client.aftpReceiveFile, hopen] at hcall
    simp only [show faults.env.va = faults.va from rfl, ← hrecord, hsend, Conn.transmit,
      if_pos (Nat.lt_of_not_le hfits), Option.bind_eq_bind, Option.bind_none] at hcall
    cases hcall

/-- `aftp_receive_file` copies the file exactly if the condition holds. -/
theorem receiveFile_copies_iff (hc : c.Ready) (f g : FileName) :
    ReceiveCopies faults c f g ↔ ReceiveMeets faults c f g := by
  by_cases hreceived : Unreceived faults c f g
  · exact iff_of_true (fun c' hcall => absurd hcall (not_returns_of_unreceived hc hreceived c'))
      (.inl hreceived)
  · obtain ⟨c', hcall, hcontent⟩ := receiveFile_content hc hreceived
    have hsome := (not_or.mp (not_or.mp (not_or.mp hreceived).2).2).2
    obtain ⟨x, hx⟩ := Option.ne_none_iff_exists'.mp hsome
    have hheld : c.server.world.held g.bytes = x := by rw [Files.held, hx, Option.getD_some]
    have hcopies : ReceiveCopies faults c f g ↔
        c'.localWorld.content = Function.update c.localWorld.content f.bytes (some x) := by
      constructor
      · intro h
        obtain ⟨y, hy, hone⟩ := h c' hcall
        rw [hx] at hy
        rw [Option.some.inj hy]
        exact oneChanged_iff.mp hone
      · intro h c'' hcall'
        cases hcall.symm.trans hcall'
        exact ⟨x, hx, oneChanged_iff.mpr h⟩
    rw [hcopies, hcontent, ReceiveMeets, or_iff_right hreceived, hheld]
    exact (Function.update_injective _ _).eq_iff.trans (Option.some.injEq ..).to_iff

/-! ## Both -/

/-- A transfer that says that all is well has copied the file, and nothing else, exactly if its
condition holds. -/
theorem transfers_iff (hc : c.Ready) (hclosed : c.server.remote.Closed) (f g : FileName) :
    (SendCopies faults c f g ↔ SendMeets faults c f g) ∧
      (ReceiveCopies faults c f g ↔ ReceiveMeets faults c f g) :=
  ⟨sendFile_copies_iff hc hclosed f g, receiveFile_copies_iff hc f g⟩

/-- No call fails at either end. -/
structure Faults.Quiet (faults : Faults) : Prop where
  client : ∀ k, faults.client k = false
  server : ∀ k, faults.server k = false

theorem Faults.Quiet.opens (h : faults.Quiet) (k : Nat) : Opens faults k := by
  simp [Opens, h.server]

/-- Where no call fails, a file that is sent under its own name is copied exactly if the one that
was there is not longer. -/
theorem sendMeets_quiet (h : faults.Quiet) (hsent : ¬ Unsent faults c f f) :
    SendMeets faults c f f ↔
      (c.server.world.held f.bytes).length ≤ (c.localWorld.held f.bytes).length := by
  have hwhole : sent faults c f = c.localWorld.held f.bytes :=
    landed_arriving h.client h.server (by decide) (Nat.le_succ _)
  rw [SendMeets, or_iff_right hsent, if_pos (h.opens _), if_pos rfl, hwhole]
  exact overlay_eq_iff ..

/-- Where no call fails, a file is received exactly if the one that was there is not longer. -/
theorem receiveMeets_quiet (h : faults.Quiet) (hreceived : ¬ Unreceived faults c f g) :
    ReceiveMeets faults c f g ↔
      (c.localWorld.held f.bytes).length ≤ (c.server.world.held g.bytes).length := by
  have hwhole : received faults c g = c.server.world.held g.bytes :=
    landed_arriving h.server h.client (by decide) (Nat.le_succ _)
  rw [ReceiveMeets, or_iff_right hreceived, hwhole]
  exact overlay_eq_iff ..

/-! ## A file that was longer -/

/-- Two ends where nothing fails. -/
def quiet : Faults where
  client _ := false
  server _ := false
  va _ _ := 0
  garbage := 0
  halfDuplex := true

theorem quiet_quiet : quiet.Quiet := ⟨fun _ => rfl, fun _ => rfl⟩

/-- A file system with one file. -/
def Files.single (name x : List UInt8) : Files where
  content := Function.update (fun _ => none) name (some x)
  table _ := none
  next := 3
  calls := 0

/-- A connection of two ends with a file `abc` each. -/
def between (x y : List UInt8) : Conn Files Files where
  session := fresh.session
  localWorld := .single abc.bytes x
  server := { world := .single abc.bytes y, destFile := some 0, record := asuiterecordNew }
  responses := []

theorem ready_between (x y : List UInt8) : (between x y).Ready := ⟨rfl, rfl⟩

theorem closed_between (x y : List UInt8) : (between x y).server.remote.Closed := fun _ _ => rfl

/-- A file of one byte is sent over a file of two, and received over it. -/
theorem transfers_iff_longer :
    (SendCopies quiet (between [1] [1, 2]) abc abc ↔ SendMeets quiet (between [1] [1, 2]) abc abc) ∧
      (ReceiveCopies quiet (between [1] [1, 2]) abc abc ↔
        ReceiveMeets quiet (between [1] [1, 2]) abc abc) :=
  transfers_iff (ready_between _ _) (closed_between _ _) abc abc

/-- What was longer keeps its end, and a file that is sent under another name is not copied there. -/
theorem longer_kept :
    ¬ SendCopies quiet (between [1] [1, 2]) abc abc ∧
      ¬ ReceiveCopies quiet (between [1, 2] [1]) abc abc ∧
      ¬ SendCopies quiet (between [1] [1]) abc ⟨[120], by decide, by decide⟩ := by
  refine ⟨fun h => ?_, fun h => ?_, fun h => ?_⟩
  · have hsent : ¬ Unsent quiet (between [1] [1, 2]) abc abc := by
      rw [Unsent]
      decide
    have hmeets := (sendFile_copies_iff (ready_between _ _) (closed_between _ _) abc abc).mp h
    rw [sendMeets_quiet quiet_quiet hsent] at hmeets
    exact absurd hmeets (by decide)
  · have hreceived : ¬ Unreceived quiet (between [1, 2] [1]) abc abc := by
      rw [Unreceived]
      decide
    have hmeets := (receiveFile_copies_iff (ready_between _ _) abc abc).mp h
    rw [receiveMeets_quiet quiet_quiet hreceived] at hmeets
    exact absurd hmeets (by decide)
  · have hmeets := (sendFile_copies_iff (ready_between _ _) (closed_between _ _) abc _).mp h
    obtain hunsent | hmeets := hmeets
    · revert hunsent
      rw [Unsent]
      decide
    · rw [if_pos (quiet_quiet.opens _), if_neg (by decide)] at hmeets
      exact absurd hmeets.2 (by decide)

end LinuxSna.Asuite.Ftp
