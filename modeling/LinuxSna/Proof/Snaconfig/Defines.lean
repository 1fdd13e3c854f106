import LinuxSna.Proof.Snaconfig.Sections

/-!
# The defines of a configuration

The fields of each call against what its section says. Data link controls and modes are defined as
they are written; for the others it is said exactly when they are: the words for numbers stand for
zero (`ZeroAt`, `ScaleZeroAt`), the numbers of a class of service fit an `unsigned short`, those of
nodes a `long`, and a logical unit of this node has no name.
-/

namespace LinuxSna.Snaconfig

open Framework NodeConfig

variable {ns : Ns} {doc : Elements Content} {cs : List Node} {words : Words}

/-! ## Values -/

theorem textOf_fits (h : Written ns doc (Content.Holds ns) cs) (name : String) {f : Form}
    (hd : doc.lookup name.toList = some (.value f)) {t : XmlStr} (ht : textOf cs name = some t) :
    ∃ c ∈ cs, c.name = name.toList ∧ c.children = [.text t] ∧ f.fits t = true := by
  obtain ⟨c, hc, hcontent⟩ := Option.bind_eq_some_iff.mp ht
  obtain ⟨hmem, hname, u, hu, hfits⟩ := holds_of_find h hd hc
  rw [contentOf_text hu] at hcontent
  cases hcontent
  exact ⟨c, hmem, hname, hu, hfits⟩

theorem knows_of_known (h : Written ns doc (Content.Holds ns) cs) (hk : Known words doc cs)
    {name : String} {f : Form} (hd : doc.lookup name.toList = some (.value f)) {t : XmlStr}
    (ht : textOf cs name = some t) : words.knows f t = true := by
  obtain ⟨c, hmem, hname, hchildren, -⟩ := textOf_fits h name hd ht
  exact hk c hmem _ (hname ▸ hd) t (onlyText_eq_some.mpr hchildren)

theorem number_lt (h : Written ns doc (Content.Holds ns) cs) (name : String)
    (hd : doc.lookup name.toList = some (.value .number)) : number cs name < 2 ^ 31 := by
  rw [number]
  cases ht : textOf cs name with
  | none => decide
  | some t =>
    obtain ⟨-, -, -, -, hfits⟩ := textOf_fits h name hd ht
    simp only [Form.fits, isNumber, decide_eq_true_eq] at hfits
    exact hfits.2.2

theorem ulong_number (long : Long) (h : Written ns doc (Content.Holds ns) cs) (name : String)
    (hd : doc.lookup name.toList = some (.value .number)) :
    ulong long (number cs name) = number cs name := by
  have hlt := number_lt h name hd
  have hle := long.le_max
  rw [ulong, Int.emod_eq_of_lt (by omega) (by omega), Int.toNat_natCast]

/-- The topics whose words the source lists -/
def NodeConfig.Topic.listed : Topic → Bool
  | .delay => false
  | .user => false
  | _ => true

theorem word_bounds (words : Words) (topic : Topic) (htopic : topic.listed = true) (cs : List Node)
    (name : String) : 0 ≤ word words topic cs name ∧ word words topic cs name ≤ 3 := by
  have hmeaning : ∀ t n, words.meaning topic t = some n → 0 ≤ n ∧ n ≤ 3 := by
    intro t n hn
    cases topic <;> first
      | exact (Bool.false_ne_true htopic).elim
      | obtain ⟨l, r, hl, -⟩ := List.lookup_eq_some_iff.mp hn
        have hmem : (t, n) ∈ l ++ (t, n) :: r := by simp
        rw [← hl] at hmem
        simp [elements, lenEndNode, appnEndNode, appnNetNode, lsRoleSec, lsRolePri, lsRoleNeg,
          lsDirBoth, lsDirIn, lsDirOut] at hmem
        omega
  rw [word]
  cases hn : (textOf cs name).bind (words.meaning topic) with
  | none => decide
  | some n =>
    obtain ⟨t, -, hn⟩ := Option.bind_eq_some_iff.mp hn
    exact hmeaning t n hn

theorem uchar_word (words : Words) (topic : Topic) (htopic : topic.listed = true) (cs : List Node)
    (name : String) : uchar (word words topic cs name) = (word words topic cs name).toNat := by
  have hbounds := word_bounds words topic htopic cs name
  rw [uchar]
  omega

theorem ushort_word (words : Words) (topic : Topic) (htopic : topic.listed = true) (cs : List Node)
    (name : String) : ushort (word words topic cs name) = (word words topic cs name).toNat := by
  have hbounds := word_bounds words topic htopic cs name
  rw [ushort]
  omega

theorem ushort_eq_iff (n : Nat) : ushort n = n ↔ n < 65536 := by
  rw [ushort]
  omega

/-- A word that is there stands for zero. -/
def ZeroAt (words : Words) (topic : Topic) (cs : List Node) (name : String) : Prop :=
  ∀ t, textOf cs name = some t → words.meaning topic t = some 0

/-- A word that is there in place of a number stands for zero. -/
def ScaleZeroAt (words : Words) (topic : Topic) (cs : List Node) (name : String) : Prop :=
  ∀ t, textOf cs name = some t → isNumber t = true ∨ words.meaning topic t = some 0

theorem word_eq_zero_iff (h : Written ns doc (Content.Holds ns) cs) (hk : Known words doc cs)
    (name : String) {topic : Topic} (hd : doc.lookup name.toList = some (.value (.word topic))) :
    word words topic cs name = 0 ↔ ZeroAt words topic cs name := by
  rw [word, ZeroAt]
  cases ht : textOf cs name with
  | none => simp
  | some t =>
    obtain ⟨n, hn⟩ := Option.isSome_iff_exists.mp (knows_of_known h hk hd ht)
    simp [hn]

theorem scale_eq_iff (h : Written ns doc (Content.Holds ns) cs) (hk : Known words doc cs)
    (name : String) {topic : Topic} (hd : doc.lookup name.toList = some (.value (.scale topic)))
    (htopic : topic.listed = false) :
    scale noWords topic cs name = scale words topic cs name ↔ ScaleZeroAt words topic cs name := by
  have hnone : ∀ t, noWords.meaning topic t = none := by
    intro t
    cases topic <;> first | exact (Bool.false_ne_true htopic.symm).elim | rfl
  rw [scale, scale, ScaleZeroAt]
  cases ht : textOf cs name with
  | none => simp
  | some t =>
    have hknows := knows_of_known h hk hd ht
    cases hnum : isNumber t with
    | true => simp [hnum]
    | false =>
      rw [Words.knows, hnum, Bool.false_or] at hknows
      obtain ⟨n, hn⟩ := Option.isSome_iff_exists.mp hknows
      simp only [Option.bind_some, hnum, Bool.false_eq_true, if_false, hnone, hn, Option.getD_none,
        Option.getD_some, Option.some.injEq, forall_eq', false_or]
      exact eq_comm

/-! ## Calls -/

section Calls

variable (long : Long) {g : GlobalInfo} {global : List Node}

theorem portOf_eq (h : Written ns dlcDoc (Content.Holds ns) cs)
    (hg : g.nodeName = netName global "node_name") :
    portOf long g (readDlc cs) = portDefine global cs := by
  have hbtu : ulong long (number cs "btu") = number cs "btu" := ulong_number long h _ rfl
  have hmia : ulong long (number cs "mia") = number cs "mia" := ulong_number long h _ rfl
  have hmoa : ulong long (number cs "moa") = number cs "moa" := ulong_number long h _ rfl
  rw [portOf, readDlc, portDefine, hg, hbtu, hmia, hmoa]

/-- The fields of a link that are not always kept -/
structure LinkKept (words : Words) (cs : List Node) : Prop where
  nodeId : nodeId cs "plu_node_id" ≤ long.max
  delay : ScaleZeroAt words .delay cs "propagation_delay"
  user1 : ScaleZeroAt words .user cs "user1"
  user2 : ScaleZeroAt words .user cs "user2"
  user3 : ScaleZeroAt words .user cs "user3"

theorem lsOf_eq_iff (h : Written ns linkDoc (Content.Holds ns) cs) (hk : Known words linkDoc cs)
    (hg : g.nodeName = netName global "node_name") :
    lsOf g (readLink long words noWords cs) = lsDefine words global cs ↔ LinkKept long words cs := by
  have hdelay := scale_eq_iff h hk "propagation_delay" rfl rfl
  have huser1 := scale_eq_iff h hk "user1" rfl rfl
  have huser2 := scale_eq_iff h hk "user2" rfl rfl
  have huser3 := scale_eq_iff h hk "user3" rfl rfl
  have hid := @min_eq_left_iff Nat _ (nodeId cs "plu_node_id") long.max
  simp only [lsOf, readLink, lsDefine, NofLs.mk.injEq, hg, true_and, hdelay, huser1, huser2, huser3,
    hid]
  constructor
  · rintro ⟨hid, hdelay, h1, h2, h3⟩
    exact ⟨hid, hdelay, h1, h2, h3⟩
  · rintro ⟨hid, hdelay, h1, h2, h3⟩
    exact ⟨hid, hdelay, h1, h2, h3⟩

/-- The numbers of a class of service -/
def cosNumbers (cs : List Node) : List Nat :=
  number cs "weight" ::
    (["connect", "byte"].flatMap fun kind =>
      [costBound cs "cost" kind "min", costBound cs "cost" kind "max"]) ++
    (["security", "propagation_delay", "effective_capacity", "user1", "user2", "user3",
      "route_resistance", "node_congested"].flatMap fun name =>
      [bound cs name "min", bound cs name "max"])

theorem cosOf_eq_iff (words : Words) (cs : List Node) :
    cosOf (readCos words cs) = cosDefine words cs ↔ ∀ n ∈ cosNumbers cs, n < 65536 := by
  have hpriority := ushort_word words .priority rfl cs "tx_priority"
  have hinvalid := uchar_word words .onOff rfl cs "default_cos_invalid"
  have hnull := uchar_word words .onOff rfl cs "default_cos_null"
  simp only [cosOf, readCos, cosDefine, NofCos.mk.injEq, true_and, hpriority, hinvalid, hnull,
    ushort_eq_iff, cosNumbers, List.flatMap_cons, List.flatMap_nil, List.cons_append, List.nil_append,
    List.forall_mem_cons]
  simp

theorem modeOf_eq (h : Written ns modeDoc (Content.Holds ns) cs)
    (hg : g.nodeName = netName global "node_name") :
    modeOf long g (readMode words cs) = modeDefine words global cs := by
  have hcrypto := uchar_word words .onOff rfl cs "encryption"
  have hauto := uchar_word words .onOff rfl cs "auto_activation"
  simp only [modeOf, readMode, modeDefine, hg, hcrypto, hauto,
    ulong_number long h "tx_pacing" rfl, ulong_number long h "rx_pacing" rfl,
    ulong_number long h "max_tx_ru" rfl, ulong_number long h "max_rx_ru" rfl,
    ulong_number long h "min_conwinners" rfl,
    ulong_number long h "min_conlosers" rfl,
    ulong_number long h "max_sessions" rfl]

/-- Only a logical unit of another node is defined without its name. -/
def LuKept (words : Words) (cs : List Node) : Prop :=
  isRemote words cs = true ∨ textOf cs "name" = none

theorem luOf_eq_iff (h : Written ns luDoc (Content.Holds ns) cs)
    (hg : g.nodeName = netName global "node_name") :
    luOf long g (readLu words cs) = luDefine words global cs ↔ LuKept words cs := by
  have hsync := uchar_word words .onOff rfl cs "syncpoint"
  have hlimit := ulong_number long h "lu_sess_limit" rfl
  have hname : [] = upper cs "name" ↔ textOf cs "name" = none := by
    rw [upper, text]
    cases ht : textOf cs "name" with
    | none => simp
    | some t =>
      obtain ⟨-, -, -, -, hfits⟩ := textOf_fits h "name" rfl ht
      simp only [Form.fits, ne_eq, decide_eq_true_eq] at hfits
      simp [eq_comm, hfits.1]
  rw [luOf, readLu, luDefine, LuKept, isRemote]
  by_cases hwhere : word words .where' cs "where" = 0
  · simp [hwhere, hg, hsync, hlimit, hname]
  · simp [hwhere, hg]

theorem cpicOf_eq (hg : g.nodeName = netName global "node_name")
    (hlen : (text cs "tp_name").length < 64) :
    cpicOf g (readCpic cs) = some (cpicDefine global cs) := by
  rw [cpicOf, readCpic, strcpy, if_pos hlen, Option.map_some, hg, cpicDefine]

/-- The fields of the node that are not always kept -/
structure NodeKept (words : Words) (global : List Node) : Prop where
  nodeId : nodeId global "node_id" ≤ long.max
  luSeg : ZeroAt words .onOff global "lu_seg"
  bindSeg : ZeroAt words .onOff global "bind_seg"

theorem nodeOf_eq_iff (h : Written ns globalDoc (Content.Holds ns) global)
    (hk : Known words globalDoc global) :
    nodeOf long (readGlobal long words global) = nodeDefine words global ↔
      NodeKept long words global := by
  have htype := uchar_word words .nodeType rfl global "node_type"
  have hmax := ulong_number long h "max_lus" rfl
  have hid := @min_eq_left_iff Nat _ (nodeId global "node_id") long.max
  have hseg : ∀ name : String, globalDoc.lookup name.toList = some (.value (.word .onOff)) →
      (ushort 0 = (word words .onOff global name).toNat ↔ ZeroAt words .onOff global name) := by
    intro name hd
    have hbounds := word_bounds words .onOff rfl global name
    have hzero : ushort 0 = 0 := rfl
    rw [← word_eq_zero_iff h hk name hd, hzero]
    omega
  simp only [nodeOf, readGlobal, nodeDefine, NofNode.mk.injEq, true_and, htype, hmax, hid,
    hseg "lu_seg" rfl, hseg "bind_seg" rfl]
  constructor
  · rintro ⟨hid, hlu, hbind⟩
    exact ⟨hid, hlu, hbind⟩
  · rintro ⟨hid, hlu, hbind⟩
    exact ⟨hid, hlu, hbind⟩

end Calls

end LinuxSna.Snaconfig
