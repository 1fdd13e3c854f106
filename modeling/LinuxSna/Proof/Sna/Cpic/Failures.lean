import LinuxSna.Impl.Sna.Cpic.SideInfo
import LinuxSna.Proof.Sna.Cpic.TwoPhase

/-!
# Calls that fail

A Set call copies from the caller's memory straight to the characteristic, so one whose last copy
fails may have changed it; Set_Partner_ID gives up the name that was set before it has the new one.
Initialize_Conversation puts what it makes into lists, and what it takes out of one when it fails
stays in the other. So a Set call that fails changes nothing exactly if it does not come to its copy,
or the copy leaves what was there; and an Initialize_Conversation that fails leaves the lists as they
were exactly if it does not come to make a conversation.

* `failed_set_iff`: a body of each shape first (`KeepsIff`), then the frame;
* `failed_cminit_iff`: by the points at which Initialize_Conversation can fail.
-/

namespace LinuxSna.Cpic

/-! ## The copies -/

/-- A copy to a buffer, which a call makes last -/
structure Copy where
  target : Target
  source : UserBuffer
  length : Nat

/-- If the copy fails, it leaves the bytes that were there. -/
def Copy.Spares (k : Copy) (tp : Tp) : Prop :=
  spoiled (k.target.get tp) k.source k.length = k.target.get tp

instance (k : Copy) (tp : Tp) : Decidable (k.Spares tp) := inferInstanceAs (Decidable (_ = _))

/-- The copy of a call with a length, if that can be read and lies between the bounds -/
def bufferCopy (least most : Nat) (target : Target) (source : UserBuffer) (length : UserValue) :
    Option Copy :=
  match length with
  | none => none
  | some n => if n < least || n > most then none else some ⟨target, source, n⟩

/-- The copy of a call with a length and a format -/
def formattedCopy (formats : List Nat) (target : Target) (source : UserBuffer)
    (length format : UserValue) : Option Copy :=
  match format, length with
  | some f, some n =>
    if f ∉ formats then none else if n < 1 || n > 1024 then none else some ⟨target, source, n⟩
  | _, _ => none

/-- The copy that a call other than Set_Partner_ID comes to -/
def Request.copy : Request → Option Copy
  | cmsaeq source length format => formattedCopy [cmDn, cmIntDigits] .aeQualifier source length format
  | cmsapt source length format => formattedCopy [cmDn, cmOid] .apTitle source length format
  | cmsacn source length => bufferCopy 1 256 .applicationContextName source length
  | cmscsp source length => bufferCopy 0 10 .securityPassword source length
  | cmscsu source length => bufferCopy 0 10 .securityUserId source length
  | cmsid source length => bufferCopy 0 10000 .initData source length
  | cmsld source length => bufferCopy 0 512 .logData source length
  | cmsmn source length => bufferCopy 0 8 .modeName source length
  | cmspln source length => bufferCopy 1 17 .partnerLuName source length
  | cmstpn source length => bufferCopy 1 64 .tpName source length
  | _ => none

/-- The numbers that Set_Partner_ID is given can be read, and are accepted. -/
def PartnerId.Accepted (a : PartnerId) : Prop :=
  (∃ n, a.length = some n ∧ n ≤ 32767) ∧ (∃ t ∈ [0, 1, 2, 3, 4], a.type = some t) ∧
    (∃ s ∈ [0, 1], a.scope = some s) ∧ (∃ d ∈ [0, 1, 2, 3], a.directorySyntax = some d) ∧
    ∃ e ∈ [0, 1], a.directoryEncoding = some e

/-- The call does not come to its last copy, or what that leaves when it fails is what was there. -/
def Request.Spares : Request → Tp → Prop
  | cmspid a, tp => a.Accepted → tp.partnerId = a.alloc.map fun addr => ⟨addr, none⟩
  | req, tp => ∀ k ∈ req.copy, k.Spares tp

/-! ## The bodies -/

/-- A body that fails keeps the characteristics exactly if they have a property. -/
def KeepsIff (body : Body) (P : Tp → Prop) : Prop :=
  ∀ tp, (body tp).1 ≠ cmOk → ((body tp).2 = tp ↔ P tp)

theorem target_put_eq_iff (target : Target) (tp : Tp) (bs : List UInt8) :
    target.put tp bs = tp ↔ bs = target.get tp := by
  constructor
  · intro h
    rw [← target.get_put tp bs, h]
  · intro h
    rw [h, target.put_get]

theorem setValue_keepsIff (values : List Nat) (put : Tp → Nat → Tp) (v : UserValue) :
    KeepsIff (setValue values put v) fun _ => True := by
  intro tp h
  refine iff_of_true ?_ trivial
  unfold setValue at h ⊢
  split
  · rfl
  · split_ifs with hv
    · simp [hv] at h
    · rfl

theorem setBuffer_keepsIff (least most : Nat) (target : Target) (putLength : Tp → Nat → Tp)
    (source : UserBuffer) (length : UserValue) :
    KeepsIff (setBuffer least most target putLength source length) fun tp =>
      ∀ k ∈ bufferCopy least most target source length, k.Spares tp := by
  intro tp h
  cases length with
  | none => exact iff_of_true rfl fun _ hk => (nomatch hk)
  | some n =>
    unfold setBuffer at h ⊢
    unfold bufferCopy
    dsimp only at h ⊢
    by_cases hn : (n < least || n > most) = true
    · rw [if_pos hn, if_pos hn]
      exact iff_of_true rfl fun _ hk => (nomatch hk)
    · rw [if_neg hn] at h
      rw [if_neg hn, if_neg hn]
      cases hu : utok source.bytes n with
      | none => simpa [Copy.Spares] using target_put_eq_iff target tp _
      | some bs =>
        rw [hu] at h
        exact absurd rfl h

theorem setFormatted_keepsIff (formats : List Nat) (target : Target)
    (putLength : Tp → Nat → Nat → Tp) (source : UserBuffer) (length format : UserValue) :
    KeepsIff (setFormatted formats target putLength source length format) fun tp =>
      ∀ k ∈ formattedCopy formats target source length format, k.Spares tp := by
  intro tp h
  unfold setFormatted at h ⊢
  unfold formattedCopy
  cases format with
  | none => exact iff_of_true rfl fun _ hk => (nomatch hk)
  | some f =>
    cases length with
    | none => exact iff_of_true rfl fun _ hk => (nomatch hk)
    | some n =>
      dsimp only at h ⊢
      by_cases hf : f ∉ formats
      · rw [if_pos hf, if_pos hf]
        exact iff_of_true rfl fun _ hk => (nomatch hk)
      · rw [if_neg hf] at h
        rw [if_neg hf, if_neg hf]
        by_cases hn : (n < 1 || n > 1024) = true
        · rw [if_pos hn, if_pos hn]
          exact iff_of_true rfl fun _ hk => (nomatch hk)
        · rw [if_neg hn] at h
          rw [if_neg hn, if_neg hn]
          cases hu : utok source.bytes n with
          | none => simpa [Copy.Spares] using target_put_eq_iff target tp _
          | some bs =>
            rw [hu] at h
            exact absurd rfl h

/-- Set_Partner_ID that is given numbers that are not accepted keeps everything. -/
theorem cmspid_refused {a : PartnerId} (h : ¬ a.Accepted) (tp : Tp) : (cmspid a tp).2 = tp := by
  unfold cmspid
  split
  · rename_i type n scope syn enc ht hl hs hd he
    by_cases hacc : type ∈ [0, 1, 2, 3, 4] ∧ n ≤ 32767 ∧ scope ∈ [0, 1] ∧ syn ∈ [0, 1, 2, 3] ∧
        enc ∈ [0, 1]
    · obtain ⟨ht', hn, hs', hd', he'⟩ := hacc
      exact absurd ⟨⟨n, hl, hn⟩, ⟨type, ht', ht⟩, ⟨scope, hs', hs⟩, ⟨syn, hd', hd⟩, enc, he', he⟩ h
    · split_ifs with ht' hn hs' hd' he'
      all_goals first | rfl | exact absurd ⟨ht', not_lt.mp hn, hs', hd', he'⟩ hacc
  · rfl

/-- The pointer to the name that was set before is lost. -/
theorem cmspid_accepted {a : PartnerId} (h : a.Accepted) (tp : Tp) :
    (cmspid a tp).1 = cmOk ∨
      (cmspid a tp).2 = { tp with partnerId := a.alloc.map fun addr => ⟨addr, none⟩ } := by
  obtain ⟨⟨n, hl, hn⟩, ⟨t, ht, ht'⟩, ⟨s, hs, hs'⟩, ⟨d, hd, hd'⟩, e, he, he'⟩ := h
  unfold cmspid
  rw [hl, ht', hs', hd', he']
  dsimp only
  rw [if_neg (not_not.mpr ht), if_neg (not_lt.mpr hn), if_neg (not_not.mpr hs),
    if_neg (not_not.mpr hd), if_neg (not_not.mpr he)]
  cases a.alloc with
  | none => exact .inr rfl
  | some addr =>
    cases utok a.bytes n with
    | none => exact .inr rfl
    | some bs => exact .inl rfl

theorem cmspid_keepsIff (a : PartnerId) : KeepsIff (cmspid a) (Request.cmspid a).Spares := by
  intro tp h
  show _ ↔ (a.Accepted → tp.partnerId = a.alloc.map fun addr => ⟨addr, none⟩)
  by_cases hacc : a.Accepted
  · obtain hok | he := cmspid_accepted hacc tp
    · exact absurd hok h
    · rw [he]
      constructor
      · intro heq _
        rw [← heq]
      · intro hp
        rw [← hp hacc]
  · exact iff_of_true (cmspid_refused hacc tp) fun hn => absurd hn hacc

/-! ## The calls -/

/-- The Set calls, and those that only return that they are not supported -/
def Request.Sets : Request → Prop
  | cmallc | cmdeal | cmrcv _ _ _ | cmsend _ _ _ => False
  | _ => True

/-- The state of the conversation does not allow the call. -/
def Request.Refused (router : Router) (req : Request) (c : Conversation) : Prop :=
  ∃ call body, req.body router = some (call, body) ∧
    (fsmHd c call cmOk c.tp.dataReceived c.tp.statusReceived c.tp.sendReceiveMode true).1 ≠ 0

theorem setter_conversation (accepts : State → Bool) (i : Input) (c : Conversation)
    (readonly : Bool) : (setter accepts i c readonly).2 = c := by
  unfold setter byState choose
  dsimp only
  split_ifs <;> rfl

/-- The body of a Set call, and its state machine, which keeps the state -/
theorem sets_body (router : Router) {req : Request} (hs : req.Sets) :
    req = .unsupported ∨ ∃ call body accepts, req.body router = some (call, body) ∧
      fsmOf call = setter accepts ∧ KeepsIff body req.Spares := by
  cases req with
  | cmallc | cmdeal | cmrcv | cmsend => exact hs.elim
  | unsupported => exact .inl rfl
  | cmspid a => exact .inr ⟨_, _, _, rfl, rfl, cmspid_keepsIff a⟩
  | cmsaeq | cmsapt => exact .inr ⟨_, _, _, rfl, rfl, setFormatted_keepsIff _ _ _ _ _ _⟩
  | cmsacn | cmscsp | cmscsu | cmsid | cmsld | cmsmn | cmspln | cmstpn =>
    exact .inr ⟨_, _, _, rfl, rfl, setBuffer_keepsIff _ _ _ _ _ _⟩
  | _ =>
    refine .inr ⟨_, _, _, rfl, rfl, fun tp h => ?_⟩
    refine (setValue_keepsIff _ _ _ tp h).trans (iff_of_true trivial ?_)
    exact fun _ hk => (nomatch hk)

/-- A Set call that fails changes nothing exactly if it is refused, or spares what was there. -/
theorem failed_set_iff {router : Router} {req : Request} {c : Conversation} (hs : req.Sets)
    (h : (cpicall router req c).rc ≠ cmOk) :
    (cpicall router req c).conversation = c ↔ req.Refused router c ∨ req.Spares c.tp := by
  obtain rfl | ⟨call, body, accepts, hb, hf, hk⟩ := sets_body router hs
  · exact iff_of_true rfl (.inr fun _ hk => (nomatch hk))
  · have hcall : (cpicall router req c).rc = (guarded call body c).1 ∧
        (cpicall router req c).conversation = (guarded call body c).2 := by
      cases req with
      | cmallc | cmdeal | cmrcv | cmsend => exact hs.elim
      | unsupported => cases hb
      | _ => cases hb; exact ⟨rfl, rfl⟩
    have hc : (guarded call body c).2 = ⟨c.state, (attempt call body c).2⟩ := by
      unfold guarded fsmHd
      rw [hf, setter_conversation]
    rw [hcall.2, hc]
    rw [hcall.1] at h
    by_cases hr : (fsmHd c call cmOk c.tp.dataReceived c.tp.statusReceived c.tp.sendReceiveMode
        true).1 ≠ 0
    · have ha : attempt call body c = (cmProgramStateCheck, c.tp) := if_pos hr
      rw [ha]
      exact iff_of_true rfl (.inl ⟨call, body, hb, hr⟩)
    · have ha : attempt call body c = body c.tp := if_neg hr
      have h : (attempt call body c).1 ≠ cmOk := h
      rw [ha] at h ⊢
      have hn : ¬ req.Refused router c := by
        rintro ⟨call', body', hb', hr'⟩
        rw [hb] at hb'
        cases hb'
        exact hr hr'
      rw [or_iff_right hn, ← hk c.tp h]
      exact ⟨fun he => congrArg Conversation.tp he, fun he => by rw [he]⟩

/-! ## Initialize_Conversation -/

/-- Initialize_Conversation does not come to make a conversation: the name cannot be read, there is no
side information for it, or there is no inode. -/
def Initialization.Early (a : Initialization) (w : Sessions) : Prop :=
  utok a.symDestName cmSdnSize = none ∨
    (∃ name, utok a.symDestName cmSdnSize = some name ∧ name ≠ List.replicate cmSdnSize 32 ∧
      sideInfoGetByName w name = none) ∨
    a.inode = none

theorem length_kfree (addr : Nat) (l : List TpBlock) : (kfree addr l).length = l.length :=
  List.length_map _

/-- What `sna_cpic_create_session` leaves: one more conversation, and one more block if it has made
one. -/
theorem createSession_cases {w w' : Sessions} {side : Option SideInfo} {inode block : Option Nat}
    {made : Option CpicEntry} {err : Int} (h : createSession w side inode block = some (made, err, w')) :
    inode = none ∧ made = none ∧ w' = w ∨
      ∃ i c, inode = some i ∧ made = some c ∧ w'.cpicList = w.cpicList ++ [c] ∧
        (c.sna = none ∧ err < 0 ∧ w'.tpList = w.tpList ∨
          (∃ addr, c.sna = some addr) ∧ err = 0 ∧ w'.tpList.length = w.tpList.length + 1) := by
  cases inode with
  | none =>
    cases h
    exact .inl ⟨rfl, rfl, rfl⟩
  | some i =>
    right
    obtain ⟨⟨sna, w₁⟩, hr, he⟩ := Option.map_eq_some_iff.mp h
    cases he
    refine ⟨i, _, rfl, rfl, ?_⟩
    unfold rmStartTp at hr
    split_ifs at hr
    cases block with
    | none =>
      cases hr
      exact ⟨rfl, .inl ⟨rfl, by decide, rfl⟩⟩
    | some addr =>
      obtain ⟨index, -, he⟩ := Option.map_eq_some_iff.mp hr
      cases he
      exact ⟨rfl, .inr ⟨⟨addr, rfl⟩, rfl, List.length_append⟩⟩

/-- Once it has come to make a conversation, what fails leaves one of the lists longer. -/
theorem cminitNamed_failed {w w' : Sessions} {a : Initialization} {side : Option SideInfo} {rc : Int}
    (h : cminitNamed w a side = some (rc, w')) (hrc : rc ≠ cmOk) :
    w'.cpicList = w.cpicList ∧ w'.tpList = w.tpList ↔ a.inode = none := by
  obtain ⟨⟨made, err, w₁⟩, hc, he⟩ := Option.map_eq_some_iff.mp h
  obtain ⟨hi, rfl, rfl⟩ | ⟨i, c, hi, rfl, hcpic, hcase⟩ := createSession_cases hc
  · cases he
    exact iff_of_true ⟨rfl, rfl⟩ hi
  · rw [hi]
    refine iff_of_false ?_ nofun
    rintro ⟨hl, ht⟩
    dsimp only at he
    obtain ⟨-, herr, -⟩ | ⟨⟨addr, hsna⟩, herr, htp⟩ := hcase
    · rw [if_pos herr] at he
      cases he
      rw [hcpic] at hl
      simpa using congrArg List.length hl
    · have hrel : (releaseSession w₁ c).tpList.length = w.tpList.length + 1 := by
        unfold releaseSession
        rw [hsna]
        exact (length_kfree addr _).trans htp
      have hlen := congrArg List.length ht
      rw [herr, if_neg (by decide)] at he
      split_ifs at he
      · cases he
        omega
      · cases he
        omega
      · cases he
        exact hrc rfl

/-- Initialize_Conversation that fails leaves the lists as they were exactly if it does not come to
make a conversation. -/
theorem failed_cminit_iff {w w' : Sessions} {a : Initialization} {rc : Int}
    (h : cminitCall w a = some (rc, w')) (hrc : rc ≠ cmOk) :
    w'.cpicList = w.cpicList ∧ w'.tpList = w.tpList ↔ a.Early w := by
  unfold cminitCall at h
  unfold Initialization.Early
  cases hn : utok a.symDestName cmSdnSize with
  | none =>
    rw [hn] at h
    cases h
    exact iff_of_true ⟨rfl, rfl⟩ (.inl rfl)
  | some name =>
    rw [hn] at h
    dsimp only at h
    by_cases hb : name = List.replicate cmSdnSize 32
    · rw [if_pos hb] at h
      rw [cminitNamed_failed h hrc]
      constructor
      · exact fun hi => .inr (.inr hi)
      · rintro (hu | ⟨name', hu, hne, -⟩ | hi)
        · cases hu
        · cases hu
          exact absurd hb hne
        · exact hi
    · rw [if_neg hb] at h
      cases hs : sideInfoGetByName w name with
      | none =>
        rw [hs] at h
        cases h
        exact iff_of_true ⟨rfl, rfl⟩ (.inr (.inl ⟨name, rfl, hb, hs⟩))
      | some side =>
        rw [hs] at h
        rw [cminitNamed_failed h hrc]
        constructor
        · exact fun hi => .inr (.inr hi)
        · rintro (hu | ⟨name', hu, -, hs'⟩ | hi)
          · cases hu
          · cases hu
            rw [hs] at hs'
            cases hs'
          · exact hi

/-! ## What fails changes nothing -/

/-- Over every conversation, a Set call that fails changes nothing exactly if it is refused or spares
what was there; and an Initialize_Conversation that fails leaves `cpic_list` and `tp_list` as they
were exactly if it does not come to make a conversation. -/
theorem failed_calls_iff (router : Router) (req : Request) (c : Conversation) (w : Sessions)
    (a : Initialization) :
    (req.Sets → (cpicall router req c).rc ≠ cmOk →
      ((cpicall router req c).conversation = c ↔ req.Refused router c ∨ req.Spares c.tp)) ∧
    (∀ w' rc, cminitCall w a = some (rc, w') → rc ≠ cmOk →
      (w'.cpicList = w.cpicList ∧ w'.tpList = w.tpList ↔ a.Early w)) :=
  ⟨fun hs h => failed_set_iff hs h, fun _ _ h hrc => failed_cminit_iff h hrc⟩

/-- A verb router that is not asked -/
def routerIdle : Router := fun _ _ => ⟨0, 0, 0, 0⟩

/-- A conversation with a mode `M` and a partner's name -/
def namedOne : Conversation :=
  ⟨.initialized, { modeName := [77], modeNameLength := 1, partnerId := some ⟨1, some [80]⟩ }⟩

/-- A partner's name that cannot be read, for which there is a block -/
def unreadable : PartnerId := ⟨some 0, [], some 1, some 0, some 0, some 0, some 2⟩

/-- No side information, no modes and no partner LUs -/
def noSessions : Sessions := ⟨[], [], [], 0, [], []⟩

/-- A blank name; the block and the file as given -/
def blankStart (block : Option Nat) (file : Bool) : Initialization :=
  ⟨List.replicate 8 32, some 1, block, file, true⟩

/-- Set_Mode_Name with a length that is too large, and Initialize_Conversation with a name that cannot
be read -/
theorem failed_calls_spared :
    (cpicall routerIdle (.cmsmn ⟨[], [0]⟩ (some 9)) namedOne).conversation = namedOne ∧
      (∀ rc w', cminitCall noSessions ⟨[], some 1, none, true, true⟩ = some (rc, w') →
        w'.cpicList = [] ∧ w'.tpList = []) := by
  obtain ⟨hset, hinit⟩ := failed_calls_iff routerIdle (.cmsmn ⟨[], [0]⟩ (some 9)) namedOne noSessions
    ⟨[], some 1, none, true, true⟩
  refine ⟨(hset trivial (by decide)).mpr (.inr fun _ hk => (nomatch hk)), fun rc w' h => ?_⟩
  have hrc : rc ≠ cmOk := by
    cases h
    decide
  exact (hinit w' rc h hrc).mpr (.inl rfl)

/-- A Set_Mode_Name that cannot read the name has overwritten the mode; a Set_Partner_ID that cannot
read the name leaves a pointer to a block that is freed; an Initialize_Conversation without memory for
a transaction program leaves its conversation in the list, and one without a file the block that it
has freed. -/
theorem failed_calls_change :
    ((cpicall routerIdle (.cmsmn ⟨[], [0]⟩ (some 1)) namedOne).rc = cmProductSpecificError ∧
      (cpicall routerIdle (.cmsmn ⟨[], [0]⟩ (some 1)) namedOne).conversation.tp.modeName = [0] ∧
      (cpicall routerIdle (.cmspid unreadable) namedOne).rc = cmProductSpecificError ∧
      (cpicall routerIdle (.cmspid unreadable) namedOne).conversation.tp.partnerId = some ⟨2, none⟩) ∧
    ((cminitCall noSessions (blankStart none true)).map fun r =>
        (r.1, r.2.cpicList.map CpicEntry.inode)) = some (cmProductSpecificError, [1]) ∧
      ((cminitCall noSessions (blankStart (some 7) false)).map fun r =>
        (r.1, r.2.tpList.map fun b => (b.addr, b.freed))) = some (cmProductSpecificError, [(7, true)]) := by
  decide

end LinuxSna.Cpic
