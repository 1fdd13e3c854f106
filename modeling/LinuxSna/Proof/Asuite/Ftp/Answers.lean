import LinuxSna.Proof.Asuite.Ftp.Served

/-!
# What the client makes of the answers

* `readAnswer_whole`: a loop that goes over what was received sees whether the server has failed;
* `readAnswer_short`: a loop that goes on while `curpos` is less than the length of the name sees a
  failure only if the name is longer than 6, and goes on behind a good answer if it is, in what is
  left of the request.
-/

namespace LinuxSna.Asuite.Ftp

variable {V W : Type}

/-! ## What is left of a name -/

/-- The walk over what is left of a name takes its bytes for lengths and keys, and meets the key of
an error; `n` bounds its steps. The name ends 5 bytes behind the end of the walk. -/
def strays (host : Host) : Nat → List UInt8 → Bool
  | n + 1, a :: b :: key :: rest =>
    let paramLen := host.htons (b.toNat * 2 ^ 8 + a.toNat)
    key = Libaftp.aftpStatusCategoryIndex ||
      (decide (paramLen + 5 < rest.length + 3) &&
        strays host n ((a :: b :: key :: rest).drop paramLen))
  | _, _ => false

/-- A loop that goes on behind the good answer to a request with this name meets the key of an
error in the name. -/
def FileName.Strays (host : Host) (name : FileName) : Prop :=
  6 < name.length ∧ strays host name.length (name.bytes.drop 1) = true

instance (host : Host) (name : FileName) : Decidable (name.Strays host) :=
  inferInstanceAs (Decidable (_ ∧ _))

theorem htons_pos (host : Host) {a : UInt8} (ha : a ≠ 0) (b : UInt8) :
    0 < host.htons (b.toNat * 2 ^ 8 + a.toNat) := by
  have hpos : 0 < a.toNat := Nat.pos_of_ne_zero fun h => ha (UInt8.toNat_inj.mp h)
  have hlt := a.toNat_lt
  have hlt' := b.toNat_lt
  cases host with
  | little =>
    simp only [Host.htons]
    omega
  | big =>
    simp only [Host.htons]
    omega

/-! ## The return code -/

/-- A `switch` that says that the server has failed for the key of an error, and for no other. -/
structure Sees (switch : Client.Switch) : Prop where
  rc (key : UInt8) (c : Nat) (a : Nat × Ftpsession) :
    (switch key c a).1 = if key = Libaftp.aftpStatusCategoryIndex then rcFailFatal else a.1
  settings (key : UInt8) (c : Nat) (a : Nat × Ftpsession) :
    (switch key c a).2.toSession = a.2.toSession

@[simp] theorem takeCategory_rc (host : Host) (c : Nat) (s : Ftpsession) :
    (Client.takeCategory host c s).1 = rcFailFatal := rfl

@[simp] theorem takeCategory_settings (host : Host) (c : Nat) (s : Ftpsession) :
    (Client.takeCategory host c s).2.toSession = s.toSession := rfl

@[simp] theorem setPrimaryMsg_settings (c : Nat) (s : Ftpsession) :
    (Client.setPrimaryMsg c s).toSession = s.toSession := by
  simp only [Client.setPrimaryMsg]

theorem sees_answerSwitch (host : Host) (returnCode : Nat → Ftpsession → Ftpsession)
    (hcode : ∀ c s, (returnCode c s).toSession = s.toSession) :
    Sees (Client.answerSwitch host returnCode) where
  rc key c a := by
    have hother : ¬ Libaftp.aftpStatusReturnCode = Libaftp.aftpStatusCategoryIndex := by decide
    simp only [Client.answerSwitch]
    by_cases hreturn : key = Libaftp.aftpStatusReturnCode
    · rw [if_pos hreturn, hreturn, if_neg hother]
    · rw [if_neg hreturn]
      by_cases hcategory : key = Libaftp.aftpStatusCategoryIndex
      · rw [if_pos hcategory, if_pos hcategory, takeCategory_rc]
      · rw [if_neg hcategory, if_neg hcategory, apply_ite Prod.fst, ite_self]
  settings key c a := by
    simp only [Client.answerSwitch, apply_ite Prod.snd, apply_ite Ftpsession.toSession, hcode,
      takeCategory_settings, setPrimaryMsg_settings, ite_self]

theorem sees_changeDirSwitch (host : Host) : Sees (Client.changeDirSwitch host) where
  rc key c a := by
    simp only [Client.changeDirSwitch]
    by_cases hcategory : key = Libaftp.aftpStatusCategoryIndex
    · rw [if_pos hcategory, if_pos hcategory, takeCategory_rc]
    · rw [if_neg hcategory, if_neg hcategory, apply_ite Prod.fst, ite_self]
  settings key c a := by
    simp only [Client.changeDirSwitch, apply_ite Prod.snd, apply_ite Ftpsession.toSession,
      takeCategory_settings, setPrimaryMsg_settings, ite_self]

section Answers

variable {host : Host} {switch : Client.Switch} {done : Bool} {response : List UInt8}
  {c : Conn V W}

/-- What the loop does for a parameter. -/
def switchStep (switch : Client.Switch) (c : Nat) (x : Call) (a : Nat × Ftpsession) :
    (Nat × Ftpsession) ⊕ Empty := .inl (switch x.key c a)

theorem statusCalls_faithful (errcode category index : Nat) :
    ∀ x ∈ statusCalls errcode category index, x.Faithful := by
  rw [statusCalls, List.forall_mem_cons]
  refine ⟨trivial, ?_⟩
  split_ifs
  · simp only [List.forall_mem_cons, List.not_mem_nil, false_implies, implies_true, and_true]
    exact ⟨trivial, [69, 82, 82, 79, 82], 1, by decide, rfl⟩
  · exact fun x hx => absurd hx List.not_mem_nil

theorem length_simpleResponse (host : Host) (errcode category index : Nat) :
    (simpleResponse host errcode category index).length = if errcode ≠ 0 then 22 else 6 := by
  rw [simpleResponse_eq, length_message, statusCalls]
  split_ifs <;> rfl

/-- The loop over what was received: the return code says whether the server has failed. -/
theorem readAnswer_whole (hsees : Sees switch) (htold : Says .little done response)
    (h : Holds c.session.record response) :
    ∃ session, session.toSession = c.session.toSession ∧
      Client.readAnswer .little switch (getReceivedLen c.session.record) c =
        some (if done then rcOk else rcFailFatal, { c with session }) := by
  obtain ⟨errcode, index, herr, rfl⟩ : ∃ errcode index, (errcode = 0 ↔ done = true) ∧
      response = simpleResponse .little errcode 0 index := by
    cases done with
    | true => exact ⟨0, 0, by simp, htold⟩
    | false =>
      obtain ⟨errcode, index, hne, heq⟩ := htold
      exact ⟨errcode, index, by simp [hne], heq⟩
  have hlength := length_simpleResponse .little errcode 0 index
  rw [simpleResponse_eq] at h hlength
  have hmajor := h.majorCode (by decide)
  have hfits : (message .little Libaftp.aftpSimpleResponse
      (statusCalls errcode 0 index)).length ≤ maxBufferSize := by
    rw [hlength, maxBufferSize]
    split_ifs <;> decide
  have hfaithful := statusCalls_faithful errcode 0 index
  have hscan := scan_message
    (fun curpos (a : Nat × Ftpsession) =>
      (.inl (switch (getKey c.session.record curpos) curpos a) : (Nat × Ftpsession) ⊕ Empty))
    (switchStep switch) h (List.cons_ne_nil _ _) hfaithful hfits
    (fun x hx p a hp => by rw [(hp.faithful (hfaithful x hx)).1, switchStep])
    (rcOk, c.session)
  have hcode : ¬ Libaftp.aftpStatusReturnCode = Libaftp.aftpStatusCategoryIndex := by decide
  have htext : ¬ Libaftp.aftpStatusPrimaryMsg = Libaftp.aftpStatusCategoryIndex := by decide
  simp only [Client.readAnswer, hmajor, if_true, hscan, Option.bind_eq_bind, Option.bind_some]
  rw [statusCalls]
  by_cases herrcode : errcode = 0
  · rw [if_neg (not_not.mpr herrcode), if_pos (herr.mp herrcode)]
    simp only [scanCalls, switchStep, Call.key]
    have hrc : (switch Libaftp.aftpStatusReturnCode 2 (rcOk, c.session)).1 = rcOk := by
      rw [hsees.rc, if_neg hcode]
    exact ⟨_, hsees.settings _ 2 (rcOk, c.session), congrArg some (Prod.ext hrc rfl)⟩
  · rw [if_pos herrcode, if_neg (fun hd => herrcode (herr.mpr hd))]
    simp only [scanCalls, switchStep, Call.key]
    refine ⟨_, ?_, congrArg some (Prod.ext ?_ rfl)⟩
    · rw [hsees.settings, hsees.settings, hsees.settings]
    · rw [hsees.rc, if_neg htext, hsees.rc, if_pos rfl]

/-! ## Loops that end with the name -/

/-- The body of the loop over the parameters of an answer -/
def answerBody (switch : Client.Switch) (record : Record) (curpos : Nat) (a : Nat × Ftpsession) :
    (Nat × Ftpsession) ⊕ Empty :=
  .inl (switch (getKey record curpos) curpos a)

/-- From `c` on, a request with this name stands in the buffer. -/
def Left (record : Record) (name : FileName) (c : Nat) : Prop :=
  ∀ i, c ≤ i → i < name.length + 5 → record.buffer i = name.bytes.getD (i - 5) 0

/-- The loop in what is left of the request comes to its end. -/
theorem scanFrom_strays (host : Host) (hsees : Sees switch) {record : Record} {name : FileName}
    (hfits : name.length ≤ maxBufferSize) {n m pos : Nat} (a : Nat × Ftpsession) (hpos : 5 ≤ pos)
    (hlt : pos < name.length) (hleft : Left record name pos) (hn : name.length - pos < n)
    (hm : name.length - pos < m) :
    ∃ b : Nat × Ftpsession,
      scanFrom host record name.length (answerBody switch record) n pos a = some (.inl b) ∧
      b.1 = (if strays host m (name.bytes.drop (pos - 5)) = true then rcFailFatal else a.1) ∧
      b.2.toSession = a.2.toSession := by
  induction n generalizing m pos a with
  | zero => omega
  | succ n ih =>
    obtain ⟨m, rfl⟩ : ∃ k, m = k + 1 := ⟨m - 1, by omega⟩
    have hlength : (name.bytes.drop (pos - 5)).length = name.length + 5 - pos := by
      rw [List.length_drop, FileName.length] at *
      omega
    obtain ⟨x, y, key, rest, hl⟩ : ∃ x y key rest, name.bytes.drop (pos - 5) =
        x :: y :: key :: rest := by
      rcases hl : name.bytes.drop (pos - 5) with _ | ⟨x, _ | ⟨y, _ | ⟨key, rest⟩⟩⟩
      case cons.cons.cons => exact ⟨x, y, key, rest, rfl⟩
      all_goals
        rw [hl] at hlength
        simp only [List.length_cons, List.length_nil] at hlength
        omega
    have hat : ∀ i, i < 3 → record.buffer (pos + i) = (x :: y :: key :: rest).getD i 0 := by
      intro i hi
      rw [hleft (pos + i) (by omega) (by omega), ← hl, List.getD_eq_getElem?_getD,
        List.getD_eq_getElem?_getD, List.getElem?_drop, show pos + i - 5 = pos - 5 + i by omega]
    have hx : x ≠ 0 := by
      have hmem : x ∈ name.bytes := List.mem_of_mem_drop (by rw [hl]; exact List.mem_cons_self)
      exact ne_of_mem_of_not_mem hmem name.nonzero
    set paramLen := host.htons (y.toNat * 2 ^ 8 + x.toNat) with hparam
    have hlen : getParamLen host record pos = paramLen := by
      rw [getParamLen, hat 1 (by decide), show record.buffer pos = x from hat 0 (by decide)]
      rfl
    have hkey : getKey record pos = key := hat 2 (by decide)
    have hstep := htons_pos host hx y
    have hbound := host.htons_lt (y.toNat * 2 ^ 8 + x.toNat)
    have hmax : maxBufferSize < 2 ^ 15 := by decide
    have htail : (x :: y :: key :: rest).drop paramLen = name.bytes.drop (pos + paramLen - 5) := by
      rw [← hl, List.drop_drop, show pos - 5 + paramLen = pos + paramLen - 5 by omega]
    have hgoes : paramLen + 5 < rest.length + 3 ↔ pos + paramLen < name.length := by
      rw [hl] at hlength
      simp only [List.length_cons] at hlength
      omega
    rw [scanFrom_succ hlen (by omega), answerBody, hkey, hl, strays, htail]
    simp only [← hparam, hgoes]
    by_cases hnext : pos + paramLen < name.length
    · obtain ⟨b, hb, hrc, hset⟩ := ih (m := m) (switch key pos a) (by omega) hnext
        (fun i hi => hleft i (by omega)) (by omega) (by omega)
      refine ⟨b, by rw [if_pos hnext, hb], ?_, by rw [hset, hsees.settings]⟩
      rw [hrc, hsees.rc]
      by_cases hfour : key = Libaftp.aftpStatusCategoryIndex
      · simp [hfour]
      · simp [hfour, hnext]
    · refine ⟨_, by rw [if_neg hnext], ?_, hsees.settings ..⟩
      rw [hsees.rc]
      simp [hnext]

theorem scanFrom_answer {record : Record} {x : Call} {n pos stop : Nat} (a : Nat × Ftpsession)
    (hx : x.Faithful) (h : Stands host record pos x) :
    scanFrom host record stop (answerBody switch record) (n + 1) pos a =
      if pos + (x.bytes host).length < stop then
        scanFrom host record stop (answerBody switch record) n (pos + (x.bytes host).length)
          (switch x.key pos a)
      else some (.inl (switch x.key pos a)) := by
  obtain ⟨hkey, hlen, -⟩ := h.faithful hx
  have hfits := h.fits
  have hmax : maxBufferSize < 2 ^ 32 := by decide
  rw [scanFrom_succ hlen (by omega), answerBody, hkey]

/-- The parameters of an error, where it has been received. -/
theorem stands_error {record : Record} {errcode category index : Nat} (herr : errcode ≠ 0)
    (h : Holds record (simpleResponse host errcode category index)) :
    Stands host record 2 (.char Libaftp.aftpStatusReturnCode (UInt8.ofNat errcode)) ∧
      Stands host record 6 (.twobyte Libaftp.aftpStatusCategoryIndex [category, index]) ∧
      Stands host record 13 (.append Libaftp.aftpStatusPrimaryMsg errorText) := by
  rw [simpleResponse_eq] at h
  have hparams := h.params
  rw [statusCalls, if_pos herr] at hparams
  obtain ⟨hcode, hrest⟩ := Call.slice_cons hparams
  obtain ⟨hcategory, hrest⟩ := Call.slice_cons hrest
  obtain ⟨htext, -⟩ := Call.slice_cons hrest
  exact ⟨⟨hcode, show 2 + 4 ≤ maxBufferSize by decide⟩,
    ⟨hcategory, show 6 + 7 ≤ maxBufferSize by decide⟩,
    ⟨htext, show 13 + 9 ≤ maxBufferSize by decide⟩⟩

/-- A loop that ends with the name, over the answer to a request that has been done. -/
theorem scanFrom_done (hsees : Sees switch) {name : FileName} {record : Record}
    (hfits : name.length ≤ maxBufferSize) (hleft : Left record name 6)
    (h : Holds record (simpleResponse .little 0 0 0)) (s : Ftpsession) :
    ∃ b : Nat × Ftpsession,
      scanFrom .little record name.length (answerBody switch record) (maxBufferSize + 1) 2
        (rcOk, s) = some (.inl b) ∧
      (b.1 = rcOk ↔ ¬ name.Strays .little) ∧ b.2.toSession = s.toSession := by
  have hcode : ¬ Libaftp.aftpStatusReturnCode = Libaftp.aftpStatusCategoryIndex := by decide
  have hdiffer : ¬ rcFailFatal = rcOk := by decide
  have hmax : maxBufferSize = 32763 := rfl
  set a := switch Libaftp.aftpStatusReturnCode 2 (rcOk, s) with ha
  have hrc : a.1 = rcOk := by rw [ha, hsees.rc, if_neg hcode]
  have hset : a.2.toSession = s.toSession := hsees.settings ..
  have hparams := (simpleResponse_eq .little 0 0 0 ▸ h).params
  have hfirst : Stands .little record 2
      (.char Libaftp.aftpStatusReturnCode (UInt8.ofNat 0)) :=
    ⟨(Call.slice_cons hparams).1, show 2 + 4 ≤ maxBufferSize by decide⟩
  have hstep : scanFrom .little record name.length (answerBody switch record)
      (maxBufferSize + 1) 2 (rcOk, s) = if 6 < name.length then
        scanFrom .little record name.length (answerBody switch record) maxBufferSize 6 a
      else some (.inl a) :=
    scanFrom_answer (rcOk, s) (show (Call.char _ _).Faithful from trivial) hfirst
  rw [hstep]
  by_cases hlong : 6 < name.length
  · rw [if_pos hlong]
    obtain ⟨b, hb, hbrc, hbset⟩ := scanFrom_strays .little (n := maxBufferSize)
      (m := name.length) hsees hfits a (by decide) hlong hleft (by omega) (by omega)
    refine ⟨b, hb, ?_, hbset.trans hset⟩
    rw [hbrc, hrc, FileName.Strays, and_iff_right hlong]
    split_ifs with hstrays
    · exact iff_of_false hdiffer (not_not.mpr hstrays)
    · exact iff_of_true rfl hstrays
  · rw [if_neg hlong]
    exact ⟨a, rfl, iff_of_true hrc fun hs => hlong hs.1, hset⟩

/-- The same over an answer with an error: the key of one is behind the name, or met. -/
theorem scanFrom_failed (hsees : Sees switch) {name : FileName} {record : Record}
    (hfits : name.length ≤ maxBufferSize) (hleft : Left record name 22) {errcode index : Nat}
    (herr : errcode ≠ 0) (h : Holds record (simpleResponse .little errcode 0 index))
    (s : Ftpsession) :
    ∃ b : Nat × Ftpsession,
      scanFrom .little record name.length (answerBody switch record) (maxBufferSize + 1) 2
        (rcOk, s) = some (.inl b) ∧
      (b.1 = rcOk ↔ name.length ≤ 6) ∧ b.2.toSession = s.toSession := by
  have hcode : ¬ Libaftp.aftpStatusReturnCode = Libaftp.aftpStatusCategoryIndex := by decide
  have hdiffer : ¬ rcFailFatal = rcOk := by decide
  have hmax : maxBufferSize = 32763 := rfl
  obtain ⟨h2, h6, h13⟩ := stands_error herr h
  have hfaithful := statusCalls_faithful errcode 0 index
  rw [statusCalls, if_pos herr] at hfaithful
  simp only [List.forall_mem_cons] at hfaithful
  obtain ⟨f2, f6, f13, -⟩ := hfaithful
  set a := switch Libaftp.aftpStatusReturnCode 2 (rcOk, s) with ha
  have hrc : a.1 = rcOk := by rw [ha, hsees.rc, if_neg hcode]
  have hset : a.2.toSession = s.toSession := hsees.settings ..
  set a6 := switch Libaftp.aftpStatusCategoryIndex 6 a with ha6
  have hrc6 : a6.1 = rcFailFatal := by rw [ha6, hsees.rc, if_pos rfl]
  have hset6 : a6.2.toSession = s.toSession := (hsees.settings ..).trans hset
  set a13 := switch Libaftp.aftpStatusPrimaryMsg 13 a6 with ha13
  have hrc13 : a13.1 = rcFailFatal := by rw [ha13, hsees.rc, hrc6, ite_self]
  have hset13 : a13.2.toSession = s.toSession := (hsees.settings ..).trans hset6
  have hstep2 : scanFrom .little record name.length (answerBody switch record)
      (maxBufferSize + 1) 2 (rcOk, s) = if 6 < name.length then
        scanFrom .little record name.length (answerBody switch record) (32762 + 1) 6 a
      else some (.inl a) := scanFrom_answer (rcOk, s) f2 h2
  have hstep6 : scanFrom .little record name.length (answerBody switch record) (32762 + 1) 6 a =
      if 13 < name.length then
        scanFrom .little record name.length (answerBody switch record) (32761 + 1) 13 a6
      else some (.inl a6) := scanFrom_answer a f6 h6
  have hstep13 : scanFrom .little record name.length (answerBody switch record) (32761 + 1) 13
      a6 = if 22 < name.length then
        scanFrom .little record name.length (answerBody switch record) 32761 22 a13
      else some (.inl a13) := scanFrom_answer a6 f13 h13
  rw [hstep2]
  by_cases hlt6 : 6 < name.length
  · rw [if_pos hlt6, hstep6]
    have hfails : ∀ b : Nat × Ftpsession, b.1 = rcFailFatal → (b.1 = rcOk ↔ name.length ≤ 6) :=
      fun b hb => iff_of_false (hb ▸ hdiffer) (by omega)
    by_cases hlt13 : 13 < name.length
    · rw [if_pos hlt13, hstep13]
      by_cases hlt22 : 22 < name.length
      · rw [if_pos hlt22]
        obtain ⟨b, hb, hbrc, hbset⟩ := scanFrom_strays .little (n := 32761)
          (m := name.length) hsees hfits a13 (by decide) hlt22 hleft (by omega) (by omega)
        rw [hrc13, ite_self] at hbrc
        exact ⟨b, hb, hfails b hbrc, hbset.trans hset13⟩
      · rw [if_neg hlt22]
        exact ⟨a13, rfl, hfails a13 hrc13, hset13⟩
    · rw [if_neg hlt13]
      exact ⟨a6, rfl, hfails a6 hrc6, hset6⟩
  · rw [if_neg hlt6]
    exact ⟨a, rfl, iff_of_true hrc (Nat.le_of_not_lt hlt6), hset⟩

/-- A loop that ends with the name, from the first parameter of the answer on: the return code says
whether it has met the key of an error, in the answer or behind it. -/
theorem scanFrom_short (hsees : Sees switch) (htold : Says .little done response)
    {name : FileName} {record : Record} (hfits : name.length ≤ maxBufferSize)
    (hleft : ∀ pos, 5 ≤ pos → response.length ≤ pos → Left record name pos)
    (h : Holds record response) {s : Ftpsession} :
    ∃ b : Nat × Ftpsession,
      scanFrom .little record name.length (answerBody switch record) (maxBufferSize + 1) 2
        (rcOk, s) = some (.inl b) ∧
      (b.1 = rcOk ↔ if done then ¬ name.Strays .little else name.length ≤ 6) ∧
      b.2.toSession = s.toSession := by
  cases done with
  | true =>
    obtain rfl : response = simpleResponse .little 0 0 0 := htold
    have hlength := length_simpleResponse .little 0 0 0
    apply scanFrom_done hsees hfits _ h s
    exact hleft 6 (by decide) (by rw [hlength]; decide)
  | false =>
    obtain ⟨errcode, index, herr, rfl⟩ := htold
    have hlength := length_simpleResponse .little errcode 0 index
    rw [if_pos herr] at hlength
    apply scanFrom_failed hsees hfits _ herr h s
    exact hleft 22 (by decide) (by rw [hlength])

/-- The major code of an answer -/
theorem Says.majorCode {record : Record} (htold : Says .little done response)
    (h : Holds record response) : getMajorCode record = Libaftp.aftpSimpleResponse := by
  cases done with
  | true =>
    obtain rfl : response = simpleResponse .little 0 0 0 := htold
    exact (simpleResponse_eq .little 0 0 0 ▸ h).majorCode (by decide)
  | false =>
    obtain ⟨errcode, index, -, rfl⟩ := htold
    exact (simpleResponse_eq .little errcode 0 index ▸ h).majorCode (by decide)

/-- A loop that ends with the name, over an answer that was received into the record of the
request. -/
theorem readAnswer_short (hsees : Sees switch) (htold : Says .little done response)
    {name : FileName} {request : Record} (hfits : name.length ≤ maxBufferSize)
    (hrequest : Left request name 5)
    (hrecord : c.session.record = getAsuiterecord response request) :
    ∃ rc session, (rc = rcOk ↔ if done then ¬ name.Strays .little else name.length ≤ 6) ∧
      session.toSession = c.session.toSession ∧
      Client.readAnswer .little switch name.length c = some (rc, { c with session }) := by
  have hholds : Holds c.session.record response := hrecord ▸ holds_getAsuiterecord response request
  have hleft : ∀ pos, 5 ≤ pos → response.length ≤ pos → Left c.session.record name pos := by
    intro pos h5 hpos i hi hlt
    rw [hrecord, getAsuiterecord_behind response request (by omega)]
    exact hrequest i (by omega) hlt
  obtain ⟨b, hb, hrc, hset⟩ := scanFrom_short hsees htold hfits hleft hholds (s := c.session)
  refine ⟨b.1, b.2, hrc, hset, ?_⟩
  have hloop : scan .little c.session.record name.length
      (fun curpos (a : Nat × Ftpsession) =>
        (.inl (switch (getKey c.session.record curpos) curpos a) :
          (Nat × Ftpsession) ⊕ Empty)) (rcOk, c.session) = some (.inl b) := hb
  simp only [Client.readAnswer, htold.majorCode hholds, if_true, hloop, Option.bind_eq_bind,
    Option.bind_some]
  rfl

end Answers

end LinuxSna.Asuite.Ftp
