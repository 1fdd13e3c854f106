import LinuxSna.Proof.Snaconfig.Elements

/-!
# The sections of a configuration

What `sna_parse_*` read from a section that is written as it should be and has no unknown words:
the values of its elements, except that a word for a number is the number zero, that a node's
number is cut off at `LONG_MAX` and that the name of a logical unit is not read (`parseGlobal_eq`
and the theorems before it). If words are unknown, only one that is looked for in a map without a last
entry has no defined behaviour (`parseLink_isSome_iff`, `parseLu_isSome_iff`).
-/

namespace LinuxSna.Snaconfig

open Framework NodeConfig

/-- All words of a list of elements are known. -/
def Known (words : Words) (doc : Elements Content) (cs : List Node) : Prop :=
  ∀ c ∈ cs, ∀ a ∈ doc.lookup c.name, ∀ t ∈ onlyText c, words.knowsIn a t = true

section Known

variable {ι : Type} {ns : Ns} {doc : Elements Content} {cs : List Node} {words : Words}

theorem value_known (h : Written ns doc (Content.Holds ns) cs) (hk : Known words doc cs)
    (name : String) {wm : WordMap} {topic : Topic} (hmaps : Maps wm topic) (put : Int → ι → ι)
    (hd : doc.lookup name.toList = some (.value (.word topic))) :
    (typesAt wm name put).value (entriesOf cs) = some (word words topic cs name) := by
  apply value_word (Written.hasTexts h) name hmaps put hd
  intro c hc t hname ht
  exact hk c hc _ (hname ▸ hd) t (onlyText_eq_some.mpr ht)

theorem value_bounds (long : Long) (h : Written ns doc (Content.Holds ns) cs) (name : String)
    (put : MinMax → ι → ι) (hd : doc.lookup name.toList = some .range) :
    (minMaxAt long ns name put).value (entriesOf cs) = some (rangeOf cs name) :=
  value_range long h name (a := .range) (fun _ hc => hc) put hd

end Known

section Parse

variable {ns : Ns} (long : Long) {words : Words} {cur : Node}

/-! ## Data link controls and links -/

theorem dlc_fit : Fit (dlcSlots long) (dlcDoc.map Prod.fst) newDlc := by
  apply Fit.of_keys
    ["use_name", "iface", "port", "btu", "mia", "moa"]
    rfl (by decide) (by decide)
  · simp only [dlcSlots, List.pairwise_cons, List.forall_mem_cons, List.Pairwise.nil, and_true]
    repeat' apply And.intro
    all_goals first | exact fun _ _ _ => rfl | simp
  · simp [dlcSlots, newDlc]

/-- A data link control as it is read -/
def readDlc (cs : List Node) : DlcInfo :=
  { useName := text cs "use_name", interface := text cs "iface", port := sap cs "port"
    btu := number cs "btu", mia := number cs "mia", moa := number cs "moa" }

theorem parseDlc_eq (h : Written ns dlcDoc (Content.Holds ns) cur.children) :
    parseDlc long ns cur = some (readDlc cur.children) := by
  have ht := Written.hasTexts h
  rw [parseDlc, inNs_eq h, (dlc_fit long).fillIn_eq h, dlcSlots,
    steps_cons (value_text ht "use_name" _ rfl), steps_cons (value_text ht "iface" _ rfl),
    steps_cons (value_sap ht "port" long _ rfl), steps_cons (value_number ht "btu" long _ rfl),
    steps_cons (value_number ht "mia" long _ rfl), steps_cons (value_number ht "moa" long _ rfl)]
  rfl

theorem link_fit : Fit (linkSlots long) (linkDoc.map Prod.fst) newLink := by
  apply Fit.of_keys
    ["use_name", "role", "direction", "iface", "port", "byteswap", "dstaddr", "dstport",
    "plu_name", "plu_node_id", "retry_on_fail", "retry_times", "autoact", "tg_number",
    "cost_per_byte", "cost_per_connect_time", "effective_capacity", "propagation_delay",
    "security", "user1", "user2", "user3"]
    rfl (by decide) (by decide)
  · simp only [linkSlots, List.pairwise_cons, List.forall_mem_cons, List.Pairwise.nil, and_true]
    repeat' apply And.intro
    all_goals first | exact fun _ _ _ => rfl | simp
  · simp [linkSlots, newLink]

/-- A link as it is read, if the words for numbers are those of `scales` -/
def readLink (words : Words) (scales : Words) (cs : List Node) : LinkInfo :=
  { useName := text cs "use_name", interface := text cs "iface", port := sap cs "port"
    pluName := netName cs "plu_name", pluNodeId := min (nodeId cs "plu_node_id") long.max
    dstaddr := address cs "dstaddr", dstport := sap cs "dstport"
    role := word words .role cs "role", direction := word words .direction cs "direction"
    byteswap := word words .onOff cs "byteswap"
    retryOnFail := word words .onOff cs "retry_on_fail", retryTimes := number cs "retry_times"
    autoact := word words .onOff cs "autoact", tgNumber := number cs "tg_number"
    costPerByte := number cs "cost_per_byte"
    costPerConnectTime := number cs "cost_per_connect_time"
    effectiveCapacity := number cs "effective_capacity"
    propagationDelay := scale scales .delay cs "propagation_delay"
    security := word words .security cs "security", user1 := scale scales .user cs "user1"
    user2 := scale scales .user cs "user2", user3 := scale scales .user cs "user3" }

theorem parseLink_eq (h : Written ns linkDoc (Content.Holds ns) cur.children)
    (hk : Known words linkDoc cur.children) :
    parseLink long ns cur = some (readLink long words noWords cur.children) := by
  have ht := Written.hasTexts h
  rw [parseLink, inNs_eq h, (link_fit long).fillIn_eq h, linkSlots,
    steps_cons (value_text ht "use_name" _ rfl),
    steps_cons (value_known h hk "role" roleTypes_maps _ rfl),
    steps_cons (value_known h hk "direction" directionTypes_maps _ rfl),
    steps_cons (value_text ht "iface" _ rfl), steps_cons (value_sap ht "port" long _ rfl),
    steps_cons (value_known h hk "byteswap" onTypes_maps _ rfl),
    steps_cons (value_address ht "dstaddr" _ rfl), steps_cons (value_sap ht "dstport" long _ rfl),
    steps_cons (value_netName ht "plu_name" _ rfl),
    steps_cons (value_nodeId ht "plu_node_id" long _ rfl),
    steps_cons (value_known h hk "retry_on_fail" onTypes_maps _ rfl),
    steps_cons (value_number ht "retry_times" long _ rfl),
    steps_cons (value_known h hk "autoact" onTypes_maps _ rfl),
    steps_cons (value_number ht "tg_number" long _ rfl),
    steps_cons (value_number ht "cost_per_byte" long _ rfl),
    steps_cons (value_number ht "cost_per_connect_time" long _ rfl),
    steps_cons (value_number ht "effective_capacity" long _ rfl),
    steps_cons (value_scale ht "propagation_delay" long .delay (.inl rfl) _ rfl),
    steps_cons (value_known h hk "security" securityTypes_maps _ rfl),
    steps_cons (value_scale ht "user1" long .user (.inr rfl) _ rfl),
    steps_cons (value_scale ht "user2" long .user (.inr rfl) _ rfl),
    steps_cons (value_scale ht "user3" long .user (.inr rfl) _ rfl)]
  show some (_ : LinkInfo) = _
  simp [readLink, newLink]

/-! ## Logical units -/

theorem lu_fit : Fit (luSlots long) (luDoc.map Prod.fst) newLu := by
  apply Fit.of_keys
    ["use_name", "where", "syncpoint", "lu_sess_limit", "plu_name", "fqcp_name"]
    rfl (by decide) (by decide)
  · simp only [luSlots, List.pairwise_cons, List.forall_mem_cons, List.Pairwise.nil, and_true]
    repeat' apply And.intro
    all_goals first | exact fun _ _ _ => rfl | simp
  · simp [luSlots, newLu]

/-- A logical unit as it is read: the element with the name is not among those that are asked for. -/
def readLu (words : Words) (cs : List Node) : LuInfo :=
  { useName := text cs "use_name", type := word words .where' cs "where"
    pluName := netName cs "plu_name", fqcpName := netName cs "fqcp_name", name := []
    syncpoint := word words .onOff cs "syncpoint", luSessLimit := number cs "lu_sess_limit" }

theorem parseLu_eq (h : Written ns luDoc (Content.Holds ns) cur.children)
    (hk : Known words luDoc cur.children) :
    parseLu long cur = some (readLu words cur.children) := by
  have ht := Written.hasTexts h
  show fillIn nameMatches (luSlots long) (entriesOf cur.children) newLu = _
  rw [(lu_fit long).fillIn_eq h, luSlots, steps_cons (value_text ht "use_name" _ rfl),
    steps_cons (value_known h hk "where" luTypes_maps _ rfl),
    steps_cons (value_known h hk "syncpoint" onTypes_maps _ rfl),
    steps_cons (value_number ht "lu_sess_limit" long _ rfl),
    steps_cons (value_netName ht "plu_name" _ rfl),
    steps_cons (value_netName ht "fqcp_name" _ rfl)]
  rfl

/-! ## Classes of service, modes and side information -/

theorem cos_fit : Fit (cosSlots long ns) (cosDoc.map Prod.fst) newCos := by
  apply Fit.of_keys
    ["name", "weight", "tx_priority", "default_cos_invalid", "default_cos_null", "cost",
    "security", "propagation_delay", "effective_capacity", "route_resistance",
    "node_congested", "user1", "user2", "user3"]
    rfl (by decide) (by decide)
  · simp only [cosSlots, List.pairwise_cons, List.forall_mem_cons, List.Pairwise.nil, and_true]
    repeat' apply And.intro
    all_goals first | exact fun _ _ _ => rfl | simp
  · simp [cosSlots, newCos]

/-- A class of service as it is read -/
def readCos (words : Words) (cs : List Node) : CosInfo :=
  { cosName := upper cs "name", weight := number cs "weight"
    txPriority := word words .priority cs "tx_priority"
    defaultCosInvalid := word words .onOff cs "default_cos_invalid"
    defaultCosNull := word words .onOff cs "default_cos_null"
    minCostPerConnect := costBound cs "cost" "connect" "min"
    maxCostPerConnect := costBound cs "cost" "connect" "max"
    minCostPerByte := costBound cs "cost" "byte" "min"
    maxCostPerByte := costBound cs "cost" "byte" "max"
    minSecurity := bound cs "security" "min", maxSecurity := bound cs "security" "max"
    minPropagationDelay := bound cs "propagation_delay" "min"
    maxPropagationDelay := bound cs "propagation_delay" "max"
    minEffectiveCapacity := bound cs "effective_capacity" "min"
    maxEffectiveCapacity := bound cs "effective_capacity" "max"
    minUser1 := bound cs "user1" "min", maxUser1 := bound cs "user1" "max"
    minUser2 := bound cs "user2" "min", maxUser2 := bound cs "user2" "max"
    minUser3 := bound cs "user3" "min", maxUser3 := bound cs "user3" "max"
    minRouteResistance := bound cs "route_resistance" "min"
    maxRouteResistance := bound cs "route_resistance" "max"
    minNodeCongested := bound cs "node_congested" "min"
    maxNodeCongested := bound cs "node_congested" "max" }

theorem parseCos_eq (h : Written ns cosDoc (Content.Holds ns) cur.children)
    (hk : Known words cosDoc cur.children) :
    parseCos long ns cur = some (readCos words cur.children) := by
  have ht := Written.hasTexts h
  obtain ⟨hcmin, hcmax, hbmin, hbmax⟩ := costOf_bounds cur.children "cost"
  show fillIn nameMatches (cosSlots long ns) (entriesOf cur.children) newCos = _
  rw [(cos_fit long).fillIn_eq h, cosSlots, steps_cons (value_upper ht "name" _ rfl),
    steps_cons (value_number ht "weight" long _ rfl),
    steps_cons (value_known h hk "tx_priority" txTypes_maps _ rfl),
    steps_cons (value_known h hk "default_cos_invalid" onTypes_maps _ rfl),
    steps_cons (value_known h hk "default_cos_null" onTypes_maps _ rfl),
    steps_cons (value_cost long h "cost" _ rfl),
    steps_cons (value_bounds long h "security" _ rfl),
    steps_cons (value_bounds long h "propagation_delay" _ rfl),
    steps_cons (value_bounds long h "effective_capacity" _ rfl),
    steps_cons (value_bounds long h "route_resistance" _ rfl),
    steps_cons (value_bounds long h "node_congested" _ rfl),
    steps_cons (value_bounds long h "user1" _ rfl),
    steps_cons (value_bounds long h "user2" _ rfl),
    steps_cons (value_bounds long h "user3" _ rfl)]
  show some (_ : CosInfo) = _
  simp only [readCos, newCos, hcmin, hcmax, hbmin, hbmax, rangeOf_min, rangeOf_max]

theorem mode_fit : Fit (modeSlots long) (modeDoc.map Prod.fst) newMode := by
  apply Fit.of_keys
    ["name", "cos_name", "plu_name", "encryption", "tx_pacing", "rx_pacing", "max_tx_ru",
    "max_rx_ru", "min_conwinners", "min_conlosers", "max_sessions", "auto_activation"]
    rfl (by decide) (by decide)
  · simp only [modeSlots, List.pairwise_cons, List.forall_mem_cons, List.Pairwise.nil, and_true]
    repeat' apply And.intro
    all_goals first | exact fun _ _ _ => rfl | simp
  · simp [modeSlots, newMode]

/-- A mode as it is read -/
def readMode (words : Words) (cs : List Node) : ModeInfo :=
  { name := upper cs "name", cosName := upper cs "cos_name", pluName := netName cs "plu_name"
    encryption := word words .onOff cs "encryption", txPacing := number cs "tx_pacing"
    rxPacing := number cs "rx_pacing", maxTxRu := number cs "max_tx_ru"
    maxRxRu := number cs "max_rx_ru", maxSessions := number cs "max_sessions"
    minConwinners := number cs "min_conwinners", minConlosers := number cs "min_conlosers"
    autoActivation := word words .onOff cs "auto_activation" }

theorem parseMode_eq (h : Written ns modeDoc (Content.Holds ns) cur.children)
    (hk : Known words modeDoc cur.children) :
    parseMode long cur = some (readMode words cur.children) := by
  have ht := Written.hasTexts h
  show fillIn nameMatches (modeSlots long) (entriesOf cur.children) newMode = _
  rw [(mode_fit long).fillIn_eq h, modeSlots, steps_cons (value_upper ht "name" _ rfl),
    steps_cons (value_upper ht "cos_name" _ rfl),
    steps_cons (value_netName ht "plu_name" _ rfl),
    steps_cons (value_known h hk "encryption" onTypes_maps _ rfl),
    steps_cons (value_number ht "tx_pacing" long _ rfl),
    steps_cons (value_number ht "rx_pacing" long _ rfl),
    steps_cons (value_number ht "max_tx_ru" long _ rfl),
    steps_cons (value_number ht "max_rx_ru" long _ rfl),
    steps_cons (value_number ht "min_conwinners" long _ rfl),
    steps_cons (value_number ht "min_conlosers" long _ rfl),
    steps_cons (value_number ht "max_sessions" long _ rfl),
    steps_cons (value_known h hk "auto_activation" onTypes_maps _ rfl)]
  rfl

theorem cpic_fit : Fit cpicSlots (cpicDoc.map Prod.fst) newCpic := by
  apply Fit.of_keys
    ["sym_dest_name", "mode_name", "plu_name", "tp_name"]
    rfl (by decide) (by decide)
  · simp only [cpicSlots, List.pairwise_cons, List.forall_mem_cons, List.Pairwise.nil, and_true]
    repeat' apply And.intro
    all_goals first | exact fun _ _ _ => rfl | simp
  · simp [cpicSlots, newCpic]

/-- Side information as it is read -/
def readCpic (cs : List Node) : CpicInfo :=
  { symDestName := upper cs "sym_dest_name", modeName := upper cs "mode_name"
    tpName := text cs "tp_name", pluName := netName cs "plu_name" }

theorem parseCpic_eq (h : Written ns cpicDoc (Content.Holds ns) cur.children) :
    parseCpic cur = some (readCpic cur.children) := by
  have ht := Written.hasTexts h
  show fillIn nameMatches cpicSlots (entriesOf cur.children) newCpic = _
  rw [cpic_fit.fillIn_eq h, cpicSlots, steps_cons (value_upper ht "sym_dest_name" _ rfl),
    steps_cons (value_upper ht "mode_name" _ rfl),
    steps_cons (value_netName ht "plu_name" _ rfl),
    steps_cons (value_text ht "tp_name" _ rfl)]
  rfl

/-! ## Global sections -/

theorem global_fit : Fit (globalSlots long) (globalDoc.map Prod.fst) newGlobal := by
  apply Fit.of_keys
    ["debuglevel", "node_name", "node_type", "node_id", "max_lus", "lu_seg", "bind_seg"]
    rfl (by decide) (by decide)
  · simp only [globalSlots, List.pairwise_cons, List.forall_mem_cons, List.Pairwise.nil, and_true]
    repeat' apply And.intro
    all_goals first | exact fun _ _ _ => rfl | simp
  · simp [globalSlots, newGlobal]

/-- A global section as it is read: the words for segmenting are numbers. -/
def readGlobal (words : Words) (cs : List Node) : GlobalInfo :=
  { newGlobal with
    nodeName := netName cs "node_name", nodeId := min (nodeId cs "node_id") long.max
    nodeType := word words .nodeType cs "node_type", debugLevel := text cs "debuglevel"
    maxLus := number cs "max_lus", luSeg := 0, bindSeg := 0 }

theorem parseGlobal_eq (h : Written ns globalDoc (Content.Holds ns) cur.children)
    (hk : Known words globalDoc cur.children) :
    parseGlobal long ns cur = some (readGlobal long words cur.children) := by
  have ht := Written.hasTexts h
  rw [parseGlobal, inNs_eq h, (global_fit long).fillIn_eq h, globalSlots,
    steps_cons (value_text ht "debuglevel" _ rfl),
    steps_cons (value_netName ht "node_name" _ rfl),
    steps_cons (value_known h hk "node_type" nodeTypes_maps _ rfl),
    steps_cons (value_nodeId ht "node_id" long _ rfl),
    steps_cons (value_number ht "max_lus" long _ rfl),
    steps_cons (value_word_int ht "lu_seg" long .onOff _ rfl),
    steps_cons (value_word_int ht "bind_seg" long .onOff _ rfl)]
  rfl

/-! ## Unknown words -/

/-- The word of an element is known. -/
def KnownAt (words : Words) (topic : Topic) (cs : List Node) (name : String) : Prop :=
  ∀ t, textOf cs name = some t → (words.meaning topic t).isSome

variable {ι : Type} {doc : Elements Content} {cs : List Node}

theorem value_ended (h : Written ns doc (Content.Holds ns) cs) (name : String) {wm : WordMap}
    {topic : Topic} (hmaps : Maps wm topic) (hended : wm.ended = true) (put : Int → ι → ι)
    (hd : doc.lookup name.toList = some (.value (.word topic))) :
    ((typesAt wm name put).value (entriesOf cs)).isSome :=
  (value_isSome_iff (Written.hasTexts h) name hmaps noWords put hd).mpr (.inl hended)

theorem value_endless (h : Written ns doc (Content.Holds ns) cs) (name : String) {wm : WordMap}
    {topic : Topic} (hmaps : Maps wm topic) (hended : wm.ended = false) (put : Int → ι → ι)
    (hd : doc.lookup name.toList = some (.value (.word topic))) :
    ((typesAt wm name put).value (entriesOf cs)).isSome ↔ KnownAt words topic cs name := by
  rw [value_isSome_iff (Written.hasTexts h) name hmaps words put hd, hended]
  exact ⟨fun hk => hk.resolve_left Bool.false_ne_true, .inr⟩

theorem isSome_of_value {s : Slot XmlStr Node ι} {entries : List (XmlStr × Node)} {v : s.Val}
    (h : s.value entries = some v) : (s.value entries).isSome := by
  rw [h]
  rfl

theorem parseMode_isSome (h : Written ns modeDoc (Content.Holds ns) cur.children) :
    (parseMode long cur).isSome := by
  have ht := Written.hasTexts h
  show (fillIn nameMatches (modeSlots long) (entriesOf cur.children) newMode).isSome
  rw [(mode_fit long).fillIn_eq h, steps_isSome_iff]
  simp only [modeSlots, List.forall_mem_cons]
  exact ⟨isSome_of_value (value_upper ht "name" _ rfl), isSome_of_value (value_upper ht "cos_name" _ rfl),
    isSome_of_value (value_netName ht "plu_name" _ rfl), value_ended h "encryption" onTypes_maps rfl _ rfl,
    isSome_of_value (value_number ht "tx_pacing" long _ rfl),
    isSome_of_value (value_number ht "rx_pacing" long _ rfl),
    isSome_of_value (value_number ht "max_tx_ru" long _ rfl),
    isSome_of_value (value_number ht "max_rx_ru" long _ rfl),
    isSome_of_value (value_number ht "min_conwinners" long _ rfl),
    isSome_of_value (value_number ht "min_conlosers" long _ rfl),
    isSome_of_value (value_number ht "max_sessions" long _ rfl),
    value_ended h "auto_activation" onTypes_maps rfl _ rfl, fun _ hn => (List.not_mem_nil hn).elim⟩

theorem parseCos_isSome (h : Written ns cosDoc (Content.Holds ns) cur.children) :
    (parseCos long ns cur).isSome := by
  have ht := Written.hasTexts h
  show (fillIn nameMatches (cosSlots long ns) (entriesOf cur.children) newCos).isSome
  rw [(cos_fit long).fillIn_eq h, steps_isSome_iff]
  simp only [cosSlots, List.forall_mem_cons]
  exact ⟨isSome_of_value (value_upper ht "name" _ rfl),
    isSome_of_value (value_number ht "weight" long _ rfl),
    value_ended h "tx_priority" txTypes_maps rfl _ rfl,
    value_ended h "default_cos_invalid" onTypes_maps rfl _ rfl,
    value_ended h "default_cos_null" onTypes_maps rfl _ rfl,
    isSome_of_value (value_cost long h "cost" _ rfl),
    isSome_of_value (value_bounds long h "security" _ rfl),
    isSome_of_value (value_bounds long h "propagation_delay" _ rfl),
    isSome_of_value (value_bounds long h "effective_capacity" _ rfl),
    isSome_of_value (value_bounds long h "route_resistance" _ rfl),
    isSome_of_value (value_bounds long h "node_congested" _ rfl),
    isSome_of_value (value_bounds long h "user1" _ rfl),
    isSome_of_value (value_bounds long h "user2" _ rfl),
    isSome_of_value (value_bounds long h "user3" _ rfl), fun _ hn => (List.not_mem_nil hn).elim⟩

theorem parseLu_isSome_iff (h : Written ns luDoc (Content.Holds ns) cur.children) :
    (parseLu long cur).isSome ↔ KnownAt words .where' cur.children "where" := by
  have ht := Written.hasTexts h
  show (fillIn nameMatches (luSlots long) (entriesOf cur.children) newLu).isSome ↔ _
  rw [(lu_fit long).fillIn_eq h, steps_isSome_iff]
  simp only [luSlots, List.forall_mem_cons]
  constructor
  · intro ⟨_, hwhere, _⟩
    exact (value_endless h "where" luTypes_maps rfl _ rfl).mp hwhere
  · intro hk
    exact ⟨isSome_of_value (value_text ht "use_name" _ rfl),
      (value_endless h "where" luTypes_maps rfl _ rfl).mpr hk,
      value_ended h "syncpoint" onTypes_maps rfl _ rfl,
      isSome_of_value (value_number ht "lu_sess_limit" long _ rfl),
      isSome_of_value (value_netName ht "plu_name" _ rfl),
      isSome_of_value (value_netName ht "fqcp_name" _ rfl), fun _ hn => (List.not_mem_nil hn).elim⟩

theorem parseLink_isSome_iff (h : Written ns linkDoc (Content.Holds ns) cur.children) :
    (parseLink long ns cur).isSome ↔ KnownAt words .role cur.children "role" ∧
      KnownAt words .direction cur.children "direction" ∧
      KnownAt words .security cur.children "security" := by
  have ht := Written.hasTexts h
  rw [parseLink, inNs_eq h, (link_fit long).fillIn_eq h, steps_isSome_iff]
  simp only [linkSlots, List.forall_mem_cons]
  constructor
  · intro ⟨_, hrole, hdir, _, _, _, _, _, _, _, _, _, _, _, _, _, _, _, hsec, _⟩
    exact ⟨(value_endless h "role" roleTypes_maps rfl _ rfl).mp hrole,
      (value_endless h "direction" directionTypes_maps rfl _ rfl).mp hdir,
      (value_endless h "security" securityTypes_maps rfl _ rfl).mp hsec⟩
  · intro ⟨hrole, hdir, hsec⟩
    exact ⟨isSome_of_value (value_text ht "use_name" _ rfl),
      (value_endless h "role" roleTypes_maps rfl _ rfl).mpr hrole,
      (value_endless h "direction" directionTypes_maps rfl _ rfl).mpr hdir,
      isSome_of_value (value_text ht "iface" _ rfl), isSome_of_value (value_sap ht "port" long _ rfl),
      value_ended h "byteswap" onTypes_maps rfl _ rfl,
      isSome_of_value (value_address ht "dstaddr" _ rfl),
      isSome_of_value (value_sap ht "dstport" long _ rfl),
      isSome_of_value (value_netName ht "plu_name" _ rfl),
      isSome_of_value (value_nodeId ht "plu_node_id" long _ rfl),
      value_ended h "retry_on_fail" onTypes_maps rfl _ rfl,
      isSome_of_value (value_number ht "retry_times" long _ rfl),
      value_ended h "autoact" onTypes_maps rfl _ rfl,
      isSome_of_value (value_number ht "tg_number" long _ rfl),
      isSome_of_value (value_number ht "cost_per_byte" long _ rfl),
      isSome_of_value (value_number ht "cost_per_connect_time" long _ rfl),
      isSome_of_value (value_number ht "effective_capacity" long _ rfl),
      isSome_of_value (value_scale ht "propagation_delay" long .delay (.inl rfl) _ rfl),
      (value_endless h "security" securityTypes_maps rfl _ rfl).mpr hsec,
      isSome_of_value (value_scale ht "user1" long .user (.inr rfl) _ rfl),
      isSome_of_value (value_scale ht "user2" long .user (.inr rfl) _ rfl),
      isSome_of_value (value_scale ht "user3" long .user (.inr rfl) _ rfl),
      fun _ hn => (List.not_mem_nil hn).elim⟩

end Parse

end LinuxSna.Snaconfig
