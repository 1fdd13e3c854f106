import LinuxSna.Proof.Snaconfig.Defines

/-!
# Loads of a configuration

* `readSection_known`: a step of the walk through the sections, one case for each kind;
* `readSections_known`: the walk, by induction on the sections;
* `readSections_null_iff`: the walk without a global section;
* `defineAll_eq`: the calls are issued one after the other until one is refused;
* `load_meets_iff`: when a load does what the configuration says.
-/

namespace LinuxSna.Snaconfig

open Framework NodeConfig

/-! ## Kinds -/

/-- A section of one of the kinds, written as it should be -/
def IsSectionOf (ns : Ns) (s : Node) : Prop :=
  s.ns = some ns ∧ ∃ doc, sectionDocs.lookup s.name = some doc ∧
    Written ns doc (Content.Holds ns) s.children

theorem sectionDocs_cases {name : XmlStr} {doc : Elements Content}
    (h : sectionDocs.lookup name = some doc) :
    (name = "global".toList ∧ doc = globalDoc) ∨ (name = "dlc".toList ∧ doc = dlcDoc) ∨
    (name = "link".toList ∧ doc = linkDoc) ∨ (name = "lu".toList ∧ doc = luDoc) ∨
    (name = "cos".toList ∧ doc = cosDoc) ∨ (name = "mode".toList ∧ doc = modeDoc) ∨
    (name = "cpic".toList ∧ doc = cpicDoc) := by
  obtain ⟨l, r, hl, -⟩ := List.lookup_eq_some_iff.mp h
  have hmem : (name, doc) ∈ l ++ (name, doc) :: r := by simp
  rw [← hl] at hmem
  simpa only [sectionDocs, elements, List.map_cons, List.map_nil, List.mem_cons, List.not_mem_nil,
    or_false, Prod.mk.injEq] using hmem

theorem ofKind_append (name : String) (l l' : List Node) :
    ofKind name (l ++ l') = ofKind name l ++ ofKind name l' := by
  rw [ofKind, List.filter_append, List.map_append]
  rfl

theorem ofKind_singleton (name : String) (s : Node) :
    ofKind name [s] = if s.name = name.toList then [s.children] else [] := by
  by_cases h : s.name = name.toList <;> simp [ofKind, h]

section Read

variable (long : Long) {ns : Ns} {words : Words}

/-- The sections of each kind are added at the end of its list. -/
def GlobalInfo.added (g : GlobalInfo) (words : Words) (sections : List Node) : GlobalInfo :=
  { g with
    dlcList := g.dlcList ++ (ofKind "dlc" sections).map readDlc
    linkList := g.linkList ++ (ofKind "link" sections).map (readLink long words noWords)
    luList := g.luList ++ (ofKind "lu" sections).map (readLu words)
    modeList := g.modeList ++ (ofKind "mode" sections).map (readMode words)
    cpicList := g.cpicList ++ (ofKind "cpic" sections).map readCpic
    cosList := g.cosList ++ (ofKind "cos" sections).map (readCos words) }

theorem added_nil (g : GlobalInfo) : g.added long words [] = g := by
  simp [GlobalInfo.added, ofKind]

theorem added_append (g : GlobalInfo) (l l' : List Node) :
    g.added long words (l ++ l') = (g.added long words l).added long words l' := by
  simp only [GlobalInfo.added, ofKind_append, List.map_append, List.append_assoc]

theorem wordsKnown_iff {s : Node} {doc : Elements Content} (h : sectionDocs.lookup s.name = some doc) :
    WordsKnown words s ↔ Known words doc s.children := by
  constructor
  · intro hk
    exact hk doc h
  · intro hk d hd
    rw [Option.mem_def, h] at hd
    cases hd
    exact hk

theorem readSection_known {s : Node} (hs : IsSectionOf ns s) (hk : WordsKnown words s)
    (hname : s.name ≠ "global".toList) (ginfo : Ginfo) :
    readSection long ns ginfo s = ginfo.addTail fun g => g.added long words [s] := by
  obtain ⟨hns, doc, hdoc, hw⟩ := hs
  rw [wordsKnown_iff hdoc] at hk
  unfold readSection isSection
  obtain ⟨hn, rfl⟩ | ⟨hn, rfl⟩ | ⟨hn, rfl⟩ | ⟨hn, rfl⟩ | ⟨hn, rfl⟩ | ⟨hn, rfl⟩ | ⟨hn, rfl⟩ :=
    sectionDocs_cases hdoc
  · exact absurd hn hname
  · simp [hn, hns, GlobalInfo.added, ofKind_singleton, parseDlc_eq long hw]
  · simp [hn, hns, GlobalInfo.added, ofKind_singleton, parseLink_eq long hw hk]
  · simp [hn, hns, GlobalInfo.added, ofKind_singleton, parseLu_eq long hw hk]
  · simp [hn, hns, GlobalInfo.added, ofKind_singleton, parseCos_eq long hw hk]
  · simp [hn, hns, GlobalInfo.added, ofKind_singleton, parseMode_eq long hw hk]
  · simp [hn, hns, GlobalInfo.added, ofKind_singleton, parseCpic_eq hw]

theorem readSections_known {sections : List Node} (hs : ∀ s ∈ sections, IsSectionOf ns s)
    (hk : ∀ s ∈ sections, WordsKnown words s) (hname : ∀ s ∈ sections, s.name ≠ "global".toList)
    {ginfo : Ginfo} (hg : ginfo ≠ .wild ∨ sections ≠ []) :
    sections.foldlM (readSection long ns) ginfo =
      ginfo.addTail fun g => g.added long words sections := by
  induction sections generalizing ginfo with
  | nil =>
    cases ginfo with
    | null => rfl
    | wild => exact absurd (hg.resolve_right fun h => h rfl) fun h => h rfl
    | info g => exact congrArg (some ∘ Ginfo.info) (added_nil long g).symm
  | cons s sections ih =>
    rw [List.forall_mem_cons] at hs hk hname
    rw [List.foldlM_cons, readSection_known long hs.1 hk.1 hname.1]
    cases ginfo with
    | null => exact ih hs.2 hk.2 hname.2 (.inl Ginfo.noConfusion)
    | wild => rfl
    | info g =>
      show sections.foldlM (readSection long ns) (.info (g.added long words [s])) = _
      rw [ih hs.2 hk.2 hname.2 (.inl Ginfo.noConfusion)]
      exact congrArg (some ∘ Ginfo.info) (added_append long g [s] sections).symm

theorem readSection_global {s : Node} (hs : IsSectionOf ns s) (hk : WordsKnown words s)
    (hname : s.name = "global".toList) (ginfo : Ginfo) :
    readSection long ns ginfo s = some (.info (readGlobal long words s.children)) := by
  obtain ⟨hns, doc, hdoc, hw⟩ := hs
  have hd : doc = globalDoc := by
    rw [hname] at hdoc
    exact Option.some.inj hdoc.symm
  subst hd
  rw [wordsKnown_iff hdoc] at hk
  rw [readSection, if_pos (by simp [isSection, hname, hns]), parseGlobal_eq long hw hk]
  rfl

/-! ## Without a global section -/

/-- The words that are looked for in maps without a last entry -/
def EndlessKnown (words : Words) (s : Node) : Prop :=
  (s.name = "link".toList → KnownAt words .role s.children "role" ∧
    KnownAt words .direction s.children "direction" ∧
    KnownAt words .security s.children "security") ∧
  (s.name = "lu".toList → KnownAt words .where' s.children "where")

/-- A section is freed. -/
theorem bind_null_iff {α : Type} {o : Option α} (add : α → GlobalInfo → GlobalInfo) {x : Ginfo} :
    (o.bind fun a => Ginfo.null.addTail (add a)) = some x ↔ x = .null ∧ o.isSome := by
  cases o with
  | none => simp
  | some a => simp [Ginfo.addTail, eq_comm]

theorem readSection_null_iff {s : Node} (hs : IsSectionOf ns s) (hname : s.name ≠ "global".toList)
    {x : Ginfo} :
    readSection long ns .null s = some x ↔ x = .null ∧ EndlessKnown words s := by
  obtain ⟨hns, doc, hdoc, hw⟩ := hs
  unfold readSection isSection EndlessKnown
  obtain ⟨hn, rfl⟩ | ⟨hn, rfl⟩ | ⟨hn, rfl⟩ | ⟨hn, rfl⟩ | ⟨hn, rfl⟩ | ⟨hn, rfl⟩ | ⟨hn, rfl⟩ :=
    sectionDocs_cases hdoc
  · exact absurd hn hname
  · have hdlc : (parseDlc long ns s).isSome := by rw [parseDlc_eq long hw]; rfl
    simp [hn, hns, bind_null_iff, hdlc]
  · have hlink := @parseLink_isSome_iff ns long words s hw
    simp [hn, hns, bind_null_iff, hlink]
  · have hlu := @parseLu_isSome_iff ns long words s hw
    simp [hn, hns, bind_null_iff, hlu]
  · simp [hn, hns, bind_null_iff, parseCos_isSome long hw]
  · simp [hn, hns, bind_null_iff, parseMode_isSome long hw]
  · have hcpic : (parseCpic s).isSome := by rw [parseCpic_eq hw]; rfl
    simp [hn, hns, bind_null_iff, hcpic]

theorem readSections_null_iff {sections : List Node} (hs : ∀ s ∈ sections, IsSectionOf ns s)
    (hname : ∀ s ∈ sections, s.name ≠ "global".toList) {x : Ginfo} :
    sections.foldlM (readSection long ns) .null = some x ↔
      x = .null ∧ ∀ s ∈ sections, EndlessKnown words s := by
  induction sections with
  | nil => simp [eq_comm]
  | cons s sections ih =>
    rw [List.forall_mem_cons] at hs hname
    rw [List.foldlM_cons, List.forall_mem_cons]
    constructor
    · intro h
      obtain ⟨y, hy, hx⟩ := Option.bind_eq_some_iff.mp h
      obtain ⟨rfl, hend⟩ := (readSection_null_iff long hs.1 hname.1).mp hy
      obtain ⟨hnull, hall⟩ := (ih hs.2 hname.2).mp hx
      exact ⟨hnull, hend, hall⟩
    · rintro ⟨hnull, hend, hall⟩
      rw [(readSection_null_iff long hs.1 hname.1).mpr ⟨rfl, hend⟩]
      exact (ih hs.2 hname.2).mpr ⟨hnull, hall⟩

/-- Nothing can be added to a list that is not there. -/
theorem readSection_wild {s : Node} (hs : IsSectionOf ns s) (hname : s.name ≠ "global".toList) :
    readSection long ns .wild s = none := by
  obtain ⟨hns, doc, hdoc, -⟩ := hs
  have hbind : ∀ {α : Type} (o : Option α) (add : α → GlobalInfo → GlobalInfo),
      (o.bind fun a => Ginfo.wild.addTail (add a)) = none := by
    intro α o add
    cases o <;> rfl
  unfold readSection isSection
  obtain ⟨hn, -⟩ | ⟨hn, -⟩ | ⟨hn, -⟩ | ⟨hn, -⟩ | ⟨hn, -⟩ | ⟨hn, -⟩ | ⟨hn, -⟩ :=
    sectionDocs_cases hdoc
  · exact absurd hn hname
  all_goals simp [hn, hns, hbind]

end Read

/-! ## Calls -/

theorem foldlM_define (w : World) (ds : List Define) (before : List Define) :
    ds.foldlM (define w) before =
      if (issued w before ds).2 < 0 then
        .error (.refused (issued w before ds).1 (issued w before ds).2)
      else .ok (issued w before ds).1 := by
  induction ds generalizing before with
  | nil => rfl
  | cons d ds ih =>
    rw [List.foldlM_cons, define, issued]
    by_cases hr : w.answer (before ++ [d]) < 0
    · simp only [if_pos hr]
      rfl
    · simp only [if_neg hr]
      exact ih (before ++ [d])

/-- The answer to the last call is zero if none is refused. -/
theorem issued_answer (w : World) (ds : List Define) (before : List Define) :
    (issued w before ds).2 < 0 ∨ (issued w before ds).2 = 0 := by
  induction ds generalizing before with
  | nil => exact .inr rfl
  | cons d ds ih =>
    rw [issued]
    by_cases hr : w.answer (before ++ [d]) < 0
    · simp only [if_pos hr]
      exact .inl hr
    · simp only [if_neg hr]
      exact ih (before ++ [d])

section Execute

variable (long : Long) (w : World) (g : GlobalInfo)

/-- The calls for a configuration that has been read -/
def plan : List Define :=
  .node (nodeOf long g) ::
    (g.dlcList.map (.port ∘ portOf long g) ++ g.linkList.map (.ls ∘ lsOf g) ++
     g.cosList.map (.cos ∘ cosOf) ++ g.modeList.map (.mode ∘ modeOf long g) ++
     g.luList.map (luOf long g) ++ g.cpicList.filterMap fun i => (cpicOf g i).map .cpic)

/-- The name of the transaction program fits the call. -/
def CpicFits (i : CpicInfo) : Prop := i.tpName.length < 64

theorem cpicOf_isSome_iff (i : CpicInfo) : (cpicOf g i).isSome ↔ CpicFits i := by
  rw [cpicOf, Option.isSome_map, strcpy, CpicFits]
  by_cases h : i.tpName.length < 64 <;> simp [h]

theorem foldlM_defineCpic {l : List CpicInfo} (h : ∀ i ∈ l, CpicFits i) (before : List Define) :
    l.foldlM (defineCpic w g) before =
      (l.filterMap fun i => (cpicOf g i).map .cpic).foldlM (define w) before := by
  induction l generalizing before with
  | nil => rfl
  | cons i l ih =>
    rw [List.forall_mem_cons] at h
    obtain ⟨n, hn⟩ := Option.isSome_iff_exists.mp ((cpicOf_isSome_iff g i).mpr h.1)
    rw [List.foldlM_cons, defineCpic, hn, List.filterMap_cons, hn]
    show (define w before (.cpic n)).bind _ = (define w before (.cpic n)).bind _
    congr 1
    funext before
    exact ih h.2 before

theorem defineAll_eq (h : ∀ i ∈ g.cpicList, CpicFits i) :
    defineAll long w g = (plan long g).foldlM (define w) [] := by
  rw [plan, List.foldlM_cons]
  simp only [List.foldlM_append, List.foldlM_map, bind_assoc]
  rw [defineAll]
  simp only [foldlM_defineCpic w g h]
  rfl

theorem execute_eq (h : ∀ i ∈ g.cpicList, CpicFits i) :
    executeConfigInfo long w (.info g) = some
      (if w.opens then
        ⟨some g.debugLevel, (issued w [] (plan long g)).1, (issued w [] (plan long g)).2⟩
      else ⟨none, [], -1⟩) := by
  rw [executeConfigInfo, defineAll_eq long w g h, foldlM_define]
  cases w.opens with
  | false => rfl
  | true =>
    rcases issued_answer w (plan long g) [] with hr | hr
    · simp only [if_true, if_pos hr]
    · simp only [if_true, hr, lt_irrefl, if_false]

end Execute

/-- The file can be written and the kernel accepts every call. -/
def accepting : World := ⟨true, fun _ => 0⟩

theorem issued_accepting (ds before : List Define) :
    issued accepting before ds = (before ++ ds, 0) := by
  induction ds generalizing before with
  | nil => rw [issued, List.append_nil]
  | cons d ds ih =>
    rw [issued]
    show issued accepting (before ++ [d]) ds = _
    rw [ih, List.append_assoc]
    rfl

theorem foldlM_accepting {α : Type} (f : α → Define) (l : List α) (before : List Define) :
    l.foldlM (fun d i => define accepting d (f i)) before = .ok (before ++ l.map f) := by
  rw [← List.foldlM_map, foldlM_define, issued_accepting]
  rfl

/-- A name that does not fit is copied over the end of its array. -/
theorem execute_undefined (long : Long) (g : GlobalInfo) (h : ∃ i ∈ g.cpicList, ¬CpicFits i) :
    executeConfigInfo long accepting (.info g) = none := by
  have hlast : ∀ (l : List CpicInfo) (before : List Define), (∃ i ∈ l, ¬CpicFits i) →
      l.foldlM (defineCpic accepting g) before = .error .undefined := by
    intro l
    induction l with
    | nil => simp
    | cons i l ih =>
      intro before hbad
      rw [List.foldlM_cons, defineCpic]
      by_cases hi : CpicFits i
      · obtain ⟨n, hn⟩ := Option.isSome_iff_exists.mp ((cpicOf_isSome_iff g i).mpr hi)
        rw [hn]
        show l.foldlM (defineCpic accepting g) (before ++ [.cpic n]) = _
        apply ih
        obtain ⟨j, hj, hbad⟩ := hbad
        rcases List.mem_cons.mp hj with rfl | hj
        · exact absurd hi hbad
        · exact ⟨j, hj, hbad⟩
      · have hn : cpicOf g i = none := by
          rw [← Option.not_isSome_iff_eq_none, cpicOf_isSome_iff]
          exact hi
        rw [hn]
        rfl
  have hall : defineAll long accepting g = .error .undefined := by
    rw [defineAll]
    simp only [foldlM_accepting, bind, Except.bind]
    exact hlast _ _ h
  rw [executeConfigInfo, hall]
  rfl

/-! ## Calls and sections -/

theorem append_eq_iff {α : Type} {a b a' b' : List α} (h : a.length = a'.length) :
    a ++ b = a' ++ b' ↔ a = a' ∧ b = b' := by
  constructor
  · intro heq
    exact List.append_inj heq h
  · rintro ⟨rfl, rfl⟩
    rfl

theorem ofKind_written {ns : Ns} {words : Words} {sections : List Node} {name : String}
    {doc : Elements Content} (hs : ∀ s ∈ sections, IsSectionOf ns s)
    (hk : ∀ s ∈ sections, WordsKnown words s)
    (hd : sectionDocs.lookup name.toList = some doc) :
    ∀ cs ∈ ofKind name sections, Written ns doc (Content.Holds ns) cs ∧ Known words doc cs := by
  intro cs hcs
  obtain ⟨s, hmem, rfl⟩ := List.mem_map.mp hcs
  obtain ⟨hs', hname⟩ := List.mem_filter.mp hmem
  obtain ⟨-, d, hdoc, hw⟩ := hs s hs'
  have hdoc' : sectionDocs.lookup s.name = some doc := by
    rw [of_decide_eq_true hname]
    exact hd
  rw [hdoc] at hdoc'
  cases hdoc'
  exact ⟨hw, (wordsKnown_iff hdoc).mp (hk s hs')⟩

section Plan

variable (long : Long) {ns : Ns} {words : Words} {global : List Node} {sections : List Node}

section Kinds

variable {g : GlobalInfo} (hs : ∀ s ∈ sections, IsSectionOf ns s)
  (hk : ∀ s ∈ sections, WordsKnown words s) (hname : g.nodeName = netName global "node_name")

include hs hk hname

theorem ports_eq : ((ofKind "dlc" sections).map readDlc).map (Define.port ∘ portOf long g) =
    (ofKind "dlc" sections).map (Define.port ∘ portDefine global) := by
  rw [List.map_map]
  apply List.map_congr_left
  intro cs hcs
  exact congrArg Define.port (portOf_eq long (ofKind_written hs hk rfl cs hcs).1 hname)

theorem links_eq_iff :
    ((ofKind "link" sections).map (readLink long words noWords)).map (Define.ls ∘ lsOf g) =
      (ofKind "link" sections).map (Define.ls ∘ lsDefine words global) ↔
    ∀ cs ∈ ofKind "link" sections, LinkKept long words cs := by
  rw [List.map_map, List.map_inj_left]
  apply forall₂_congr
  intro cs hcs
  obtain ⟨hw, hkn⟩ := ofKind_written hs hk rfl cs hcs
  rw [← lsOf_eq_iff long hw hkn hname]
  exact Define.ls.injEq .. ▸ Iff.rfl

theorem modes_eq :
    ((ofKind "mode" sections).map (readMode words)).map (Define.mode ∘ modeOf long g) =
    (ofKind "mode" sections).map (Define.mode ∘ modeDefine words global) := by
  rw [List.map_map]
  apply List.map_congr_left
  intro cs hcs
  exact congrArg Define.mode (modeOf_eq long (ofKind_written hs hk rfl cs hcs).1 hname)

theorem units_eq_iff : ((ofKind "lu" sections).map (readLu words)).map (luOf long g) =
      (ofKind "lu" sections).map (luDefine words global) ↔
    ∀ cs ∈ ofKind "lu" sections, LuKept words cs := by
  rw [List.map_map, List.map_inj_left]
  apply forall₂_congr
  intro cs hcs
  exact luOf_eq_iff long (ofKind_written hs hk rfl cs hcs).1 hname

end Kinds

theorem classes_eq_iff (words : Words) (sections : List Node) :
    ((ofKind "cos" sections).map (readCos words)).map (Define.cos ∘ cosOf) =
      (ofKind "cos" sections).map (Define.cos ∘ cosDefine words) ↔
    ∀ cs ∈ ofKind "cos" sections, ∀ n ∈ cosNumbers cs, n < 65536 := by
  rw [List.map_map, List.map_inj_left]
  apply forall₂_congr
  intro cs _
  rw [← cosOf_eq_iff words cs]
  exact Define.cos.injEq .. ▸ Iff.rfl

theorem programs_eq {g : GlobalInfo} (hname : g.nodeName = netName global "node_name")
    (hfits : ∀ cs ∈ ofKind "cpic" sections, (text cs "tp_name").length < 64) :
    (((ofKind "cpic" sections).map readCpic).filterMap fun i => (cpicOf g i).map Define.cpic) =
      (ofKind "cpic" sections).map (Define.cpic ∘ cpicDefine global) := by
  rw [List.filterMap_map, ← List.filterMap_eq_map]
  apply List.filterMap_congr
  intro cs hcs
  show (cpicOf g (readCpic cs)).map Define.cpic = _
  rw [cpicOf_eq hname (hfits cs hcs)]
  rfl

/-- The calls for what has been read are those that the sections call for, if their values are
kept. -/
theorem plan_eq_iff (hg : Written ns globalDoc (Content.Holds ns) global)
    (hgk : Known words globalDoc global) (hs : ∀ s ∈ sections, IsSectionOf ns s)
    (hk : ∀ s ∈ sections, WordsKnown words s)
    (hfits : ∀ cs ∈ ofKind "cpic" sections, (text cs "tp_name").length < 64) :
    plan long ((readGlobal long words global).added long words sections) =
        defines words global sections ↔
      NodeKept long words global ∧ (∀ cs ∈ ofKind "link" sections, LinkKept long words cs) ∧
      (∀ cs ∈ ofKind "cos" sections, ∀ n ∈ cosNumbers cs, n < 65536) ∧
      ∀ cs ∈ ofKind "lu" sections, LuKept words cs := by
  have hname : ((readGlobal long words global).added long words sections).nodeName =
      netName global "node_name" := rfl
  rw [← nodeOf_eq_iff long hg hgk, ← links_eq_iff long hs hk hname, ← classes_eq_iff words sections,
    ← units_eq_iff long hs hk hname, plan, defines, List.cons_eq_cons, Define.node.injEq,
    ← ports_eq long hs hk hname, ← modes_eq long hs hk hname, ← programs_eq hname hfits]
  have hadded : ∀ g : GlobalInfo, g = (readGlobal long words global).added long words sections →
      g.dlcList = (ofKind "dlc" sections).map readDlc ∧
      g.linkList = (ofKind "link" sections).map (readLink long words noWords) ∧
      g.cosList = (ofKind "cos" sections).map (readCos words) ∧
      g.modeList = (ofKind "mode" sections).map (readMode words) ∧
      g.luList = (ofKind "lu" sections).map (readLu words) ∧
      g.cpicList = (ofKind "cpic" sections).map readCpic := by
    rintro g rfl
    exact ⟨rfl, rfl, rfl, rfl, rfl, rfl⟩
  obtain ⟨hdlc, hlink, hcos, hmode, hlu, hcpic⟩ := hadded _ rfl
  rw [hdlc, hlink, hcos, hmode, hlu, hcpic, append_eq_iff (by simp), append_eq_iff (by simp),
    append_eq_iff (by simp), append_eq_iff (by simp), append_eq_iff (by simp)]
  simp only [true_and, and_true, and_assoc]
  exact Iff.rfl

/-- Each section that is not global is of one of the other kinds. -/
theorem kinds_length (hs : ∀ s ∈ sections, IsSectionOf ns s)
    (hname : ∀ s ∈ sections, s.name ≠ "global".toList) :
    (defines words global sections).length = sections.length + 1 := by
  have hlength : (defines words global sections).length =
      (ofKind "dlc" sections).length + (ofKind "link" sections).length +
      (ofKind "cos" sections).length + (ofKind "mode" sections).length +
      (ofKind "lu" sections).length + (ofKind "cpic" sections).length + 1 := by
    simp [defines, Nat.add_assoc]
  rw [hlength]
  clear hlength
  induction sections with
  | nil => rfl
  | cons s sections ih =>
    rw [List.forall_mem_cons] at hs hname
    obtain ⟨⟨-, doc, hdoc, -⟩, hs⟩ := hs
    have hrest := ih hs hname.2
    have hcons : ∀ name : String, (ofKind name (s :: sections)).length =
        (if s.name = name.toList then 1 else 0) + (ofKind name sections).length := by
      intro name
      rw [show s :: sections = [s] ++ sections from rfl, ofKind_append, ofKind_singleton,
        List.length_append]
      by_cases h : s.name = name.toList <;> simp [h]
    rw [List.length_cons]
    simp only [hcons]
    obtain ⟨hn, -⟩ | ⟨hn, -⟩ | ⟨hn, -⟩ | ⟨hn, -⟩ | ⟨hn, -⟩ | ⟨hn, -⟩ | ⟨hn, -⟩ :=
      sectionDocs_cases hdoc
    · exact absurd hn hname.1
    all_goals
      simp [hn]
      omega

end Plan

/-! ## Documents -/

/-- When a configuration with a global section is carried out -/
structure GlobalKept (long : Long) (words : Words) (global : List Node) (sections : List Node) :
    Prop where
  first : ∃ s rest, sections = s :: rest ∧ s.name = "global".toList
  known : ∀ s ∈ sections, WordsKnown words s
  node : NodeKept long words global
  links : ∀ cs ∈ ofKind "link" sections, LinkKept long words cs
  classes : ∀ cs ∈ ofKind "cos" sections, ∀ n ∈ cosNumbers cs, n < 65536
  units : ∀ cs ∈ ofKind "lu" sections, LuKept words cs
  programs : ∀ cs ∈ ofKind "cpic" sections, (text cs "tp_name").length < 64

/-- When a load does what the configuration says -/
def Kept (long : Long) (words : Words) (null : Bool) (sections : List Node) : Prop :=
  match ofKind "global" sections with
  | [] => null = true ∧ ∀ s ∈ sections, EndlessKnown words s
  | global :: _ => GlobalKept long words global sections

section Load

variable (long : Long) {ns : Ns} {words : Words} {sections : List Node}

theorem load_eq {doc : XmlDoc} (h : IsConfig doc ns sections) (w : World) (null : Bool) :
    load long w null (some doc) =
      (sections.foldlM (readSection long ns) (unassigned null)).bind (executeConfigInfo long w) := by
  obtain ⟨rootNs, rest, hroot⟩ := h.root
  have hread : readConfigFile long null (some doc) =
      (sections.foldlM (readSection long ns) (unassigned null)).map fun g => (0, some g) := by
    simp [readConfigFile, hroot, h.href, Node.name, Node.ns, Node.children, isBlankNode]
  rw [load, hread]
  cases sections.foldlM (readSection long ns) (unassigned null) <;> rfl

/-- A global section, and what stands before and after it -/
theorem split_global {global : List Node} {rest : List (List Node)}
    (hle : (sections.filter (·.name = "global".toList)).length ≤ 1)
    (h : ofKind "global" sections = global :: rest) :
    ∃ before s after, sections = before ++ s :: after ∧ s.name = "global".toList ∧
      s.children = global ∧ (∀ s ∈ before, s.name ≠ "global".toList) ∧
      ∀ s ∈ after, s.name ≠ "global".toList := by
  obtain ⟨s, l, hfilter, hs, -⟩ := List.map_eq_cons_iff.mp h
  rw [hfilter] at hle
  have hl : l = [] := List.length_eq_zero_iff.mp (Nat.le_zero.mp (Nat.le_of_succ_le_succ hle))
  obtain ⟨before, after, hsplit, hbefore, hname, hafter⟩ := List.filter_eq_cons_iff.mp hfilter
  rw [hl, List.filter_eq_nil_iff] at hafter
  exact ⟨before, s, after, hsplit, of_decide_eq_true hname, hs,
    fun s hs hglobal => hbefore s hs (decide_eq_true hglobal),
    fun s hs hglobal => hafter s hs (decide_eq_true hglobal)⟩

theorem ofKind_global_nil (h : ofKind "global" sections = []) :
    ∀ s ∈ sections, s.name ≠ "global".toList := by
  intro s hs hname
  have hfilter : sections.filter (·.name = "global".toList) = [] := List.map_eq_nil_iff.mp h
  rw [List.filter_eq_nil_iff] at hfilter
  exact hfilter s hs (decide_eq_true hname)

/-- `ginfo` points to what a global section has given. -/
def Ginfo.IsInfo (x : Ginfo) : Prop := ∃ g, x = .info g

theorem isInfo_addTail {α : Type} {o : Option α} {g : GlobalInfo} {add : α → GlobalInfo → GlobalInfo}
    {x : Ginfo} (h : (o.bind fun a => (Ginfo.info g).addTail (add a)) = some x) : x.IsInfo := by
  obtain ⟨a, -, ha⟩ := Option.bind_eq_some_iff.mp h
  exact ⟨_, (Option.some.inj ha).symm⟩

theorem isInfo_map {o : Option GlobalInfo} {x : Ginfo} (h : o.map .info = some x) : x.IsInfo := by
  obtain ⟨g, -, rfl⟩ := Option.map_eq_some_iff.mp h
  exact ⟨g, rfl⟩

theorem readSection_isInfo {s : Node} {ginfo x : Ginfo} (hg : ginfo.IsInfo)
    (h : readSection long ns ginfo s = some x) : x.IsInfo := by
  obtain ⟨g, rfl⟩ := hg
  unfold readSection at h
  split_ifs at h
  · exact isInfo_map h
  · exact isInfo_addTail h
  · exact isInfo_addTail h
  · exact isInfo_addTail h
  · exact isInfo_addTail h
  · exact isInfo_addTail h
  · exact isInfo_addTail h
  · exact ⟨g, (Option.some.inj h).symm⟩

theorem readSections_isInfo {l : List Node} {ginfo x : Ginfo} (hg : ginfo.IsInfo)
    (h : l.foldlM (readSection long ns) ginfo = some x) : x.IsInfo := by
  induction l generalizing ginfo with
  | nil =>
    cases h
    exact hg
  | cons s l ih =>
    obtain ⟨y, hy, hx⟩ := Option.bind_eq_some_iff.mp h
    exact ih (readSection_isInfo long hg hy) hx

/-- A load with a global section is not rejected. -/
theorem not_rejected {doc : XmlDoc} (h : IsConfig doc ns sections) (null : Bool)
    {global : List Node} {rest : List (List Node)} (hglobal : ofKind "global" sections = global :: rest)
    {o : Outcome} (ho : load long accepting null (some doc) = some o) : o.debugLevel ≠ none := by
  obtain ⟨before, s, after, rfl, hname, -, -, -⟩ := split_global h.sections.global_le hglobal
  rw [load_eq long h] at ho
  obtain ⟨x, hx, ho⟩ := Option.bind_eq_some_iff.mp ho
  rw [List.foldlM_append] at hx
  obtain ⟨y, -, hy⟩ := Option.bind_eq_some_iff.mp hx
  obtain ⟨z, hz, hx⟩ := Option.bind_eq_some_iff.mp hy
  have hns := (h.sections.each s (by simp)).1
  rw [readSection, if_pos (by simp [isSection, hname, hns])] at hz
  obtain ⟨g, rfl⟩ := readSections_isInfo long (isInfo_map hz) hx
  rw [executeConfigInfo, if_pos (show accepting.opens = true from rfl)] at ho
  split at ho
  · cases ho
    exact Option.some_ne_none _
  · cases ho
    exact Option.some_ne_none _
  · cases ho

/-- What the walk gives if all words are known. -/
theorem readSections_eq {before after : List Node} {s : Node} (hname : s.name = "global".toList)
    (hs : ∀ t ∈ before ++ s :: after, IsSectionOf ns t)
    (hk : ∀ t ∈ before ++ s :: after, WordsKnown words t)
    (hafter : ∀ s ∈ after, s.name ≠ "global".toList) (ginfo : Ginfo) :
    (s :: after).foldlM (readSection long ns) ginfo =
      some (.info ((readGlobal long words s.children).added long words after)) := by
  have hmem : ∀ t ∈ after, t ∈ before ++ s :: after := fun t ht => by simp [ht]
  rw [List.foldlM_cons, readSection_global long (hs s (by simp)) (hk s (by simp)) hname]
  show after.foldlM (readSection long ns) (.info _) = _
  exact readSections_known long (fun t ht => hs t (hmem t ht)) (fun t ht => hk t (hmem t ht)) hafter
    (.inl Ginfo.noConfusion)

/-- Without a global section -/
theorem load_none_iff {doc : XmlDoc} (h : IsConfig doc ns sections) (null : Bool)
    (hglobal : ofKind "global" sections = []) :
    (∀ w, ∃ ret < 0, load long w null (some doc) = some ⟨none, [], ret⟩) ↔
      null = true ∧ ∀ s ∈ sections, EndlessKnown words s := by
  have hname := ofKind_global_nil hglobal
  constructor
  · intro hmeets
    obtain ⟨ret, -, hload⟩ := hmeets accepting
    rw [load_eq long h] at hload
    obtain ⟨x, hx, hexec⟩ := Option.bind_eq_some_iff.mp hload
    cases null with
    | true => exact ⟨rfl, ((readSections_null_iff long h.sections.each hname).mp hx).2⟩
    | false =>
      cases sections with
      | nil =>
        cases hx
        cases hexec
      | cons s sections =>
        have hwild := readSection_wild long (h.sections.each s (by simp)) (hname s (by simp))
        rw [List.foldlM_cons, unassigned, if_neg Bool.false_ne_true, hwild] at hx
        cases hx
  · rintro ⟨rfl, hend⟩ w
    have hread := (readSections_null_iff long h.sections.each hname).mpr ⟨rfl, hend⟩
    refine ⟨-einval, by decide, ?_⟩
    rw [load_eq long h, unassigned, if_pos rfl, hread]
    rfl

/-- What stands before the global section is lost, if anything is defined at all. -/
theorem load_after {doc : XmlDoc} (h : IsConfig doc ns sections) (null : Bool)
    {before after : List Node} {s : Node} (hsplit : sections = before ++ s :: after)
    (hname : s.name = "global".toList)
    (hafter : ∀ s ∈ after, s.name ≠ "global".toList) (hk : ∀ s ∈ sections, WordsKnown words s)
    {w : World} {o : Outcome} (ho : load long w null (some doc) = some o) :
    executeConfigInfo long w (.info ((readGlobal long words s.children).added long words after)) =
      some o := by
  subst hsplit
  have hs := h.sections.each
  have hmem : ∀ t ∈ before, t ∈ before ++ s :: after := fun t ht => by simp [ht]
  rw [load_eq long h, List.foldlM_append] at ho
  obtain ⟨x, hx, hexec⟩ := Option.bind_eq_some_iff.mp ho
  obtain ⟨y, -, hx⟩ := Option.bind_eq_some_iff.mp hx
  rw [readSections_eq long hname hs hk hafter] at hx
  cases hx
  exact hexec

/-- There is nothing before the global section, or nothing is done to it. -/
theorem load_of_first {doc : XmlDoc} (null : Bool) {after : List Node} {s : Node}
    (h : IsConfig doc ns (s :: after)) (hname : s.name = "global".toList)
    (hafter : ∀ s ∈ after, s.name ≠ "global".toList) (hk : ∀ t ∈ s :: after, WordsKnown words t)
    (w : World) :
    load long w null (some doc) =
      executeConfigInfo long w
        (.info ((readGlobal long words s.children).added long words after)) := by
  rw [load_eq long h, @readSections_eq long ns words [] after s hname h.sections.each hk hafter]
  rfl

theorem added_fits {global : List Node} {after : List Node} :
    (∀ i ∈ ((readGlobal long words global).added long words after).cpicList, CpicFits i) ↔
      ∀ cs ∈ ofKind "cpic" after, (text cs "tp_name").length < 64 := by
  show (∀ i ∈ (ofKind "cpic" after).map readCpic, CpicFits i) ↔ _
  simp only [List.forall_mem_map]
  exact Iff.rfl

theorem plan_length {global : List Node} {after : List Node}
    (hs : ∀ s ∈ after, IsSectionOf ns s) (hname : ∀ s ∈ after, s.name ≠ "global".toList)
    (hfits : ∀ cs ∈ ofKind "cpic" after, (text cs "tp_name").length < 64) :
    (plan long ((readGlobal long words global).added long words after)).length =
      after.length + 1 := by
  have hprograms := programs_eq
    (g := (readGlobal long words global).added long words after) rfl hfits
  rw [← @kinds_length ns words global after hs hname, plan, defines, ← hprograms]
  simp [GlobalInfo.added, readGlobal, newGlobal]

theorem ofKind_skip {name : String} {s : Node} (h : s.name ≠ name.toList) (l l' : List Node) :
    ofKind name (l ++ s :: l') = ofKind name (l ++ l') := by
  rw [show s :: l' = [s] ++ l' from rfl, ofKind_append, ofKind_append, ofKind_append,
    ofKind_singleton, if_neg h, List.nil_append]

/-- The global section is not of one of the other kinds. -/
theorem ofKind_skip_global {name : String} {s : Node} (hname : s.name = "global".toList)
    (h : "global".toList ≠ name.toList) (l l' : List Node) :
    ofKind name (l ++ s :: l') = ofKind name (l ++ l') :=
  ofKind_skip (by rwa [hname]) l l'

theorem defines_skip {global : List Node} {s : Node} (hname : s.name = "global".toList)
    (l l' : List Node) :
    defines words global (l ++ s :: l') = defines words global (l ++ l') := by
  simp only [defines]
  rw [ofKind_skip_global hname (by decide), ofKind_skip_global hname (by decide),
    ofKind_skip_global hname (by decide), ofKind_skip_global hname (by decide),
    ofKind_skip_global hname (by decide), ofKind_skip_global hname (by decide)]

/-- The elements of a global section -/
theorem written_global {sections : List Node} (hs : ∀ s ∈ sections, IsSectionOf ns s) {s : Node}
    (hmem : s ∈ sections) (hname : s.name = "global".toList) :
    Written ns globalDoc (Content.Holds ns) s.children := by
  obtain ⟨-, d, hd, hw⟩ := hs s hmem
  rw [hname] at hd
  cases hd
  exact hw

theorem known_global (hk : ∀ s ∈ sections, WordsKnown words s) {s : Node} (hmem : s ∈ sections)
    (hname : s.name = "global".toList) : Known words globalDoc s.children :=
  (wordsKnown_iff (by rw [hname]; rfl)).mp (hk s hmem)

/-- What a load has to do when there is a global section -/
def Demand (words : Words) (w : World) (global : List Node) (sections : List Node)
    (o : Option Outcome) : Prop :=
  ((∀ s ∈ sections, WordsKnown words s) → o = some (carriedOut words w global sections)) ∧
  ((∃ s ∈ sections, ¬WordsKnown words s) → ∃ ret < 0, o = some ⟨none, [], ret⟩)

section Split

variable {doc : XmlDoc} (null : Bool) {before after : List Node} {s : Node}
  (hname : s.name = "global".toList) (hbefore : ∀ s ∈ before, s.name ≠ "global".toList)
  (hafter : ∀ s ∈ after, s.name ≠ "global".toList)

include hname hbefore hafter

/-- The calls for what stands after the global section are those for all sections only if nothing
stands before it. -/
theorem before_eq_nil (hs : ∀ t ∈ before ++ s :: after, IsSectionOf ns t)
    (hfits : ∀ cs ∈ ofKind "cpic" after, (text cs "tp_name").length < 64)
    (hplan : plan long ((readGlobal long words s.children).added long words after) =
      defines words s.children (before ++ s :: after)) : before = [] := by
  have hall : ∀ t ∈ before ++ after, IsSectionOf ns t ∧ t.name ≠ "global".toList := by
    intro t ht
    rcases List.mem_append.mp ht with ht | ht
    · exact ⟨hs t (by simp [ht]), hbefore t ht⟩
    · exact ⟨hs t (by simp [ht]), hafter t ht⟩
  have hlength := congrArg List.length hplan
  rw [plan_length long (fun t ht => hs t (by simp [ht])) hafter hfits, defines_skip hname,
    kinds_length (fun t ht => (hall t ht).1) (fun t ht => (hall t ht).2), List.length_append] at hlength
  exact List.length_eq_zero_iff.mp (by omega)

theorem kept_of_meets (h : IsConfig doc ns (before ++ s :: after))
    {rest : List (List Node)} (hglobal : ofKind "global" (before ++ s :: after) = s.children :: rest)
    (hmeets : ∀ w, Demand words w s.children (before ++ s :: after)
      (load long w null (some doc))) :
    GlobalKept long words s.children (before ++ s :: after) := by
  have hs := h.sections.each
  have hk : ∀ t ∈ before ++ s :: after, WordsKnown words t := by
    by_contra hunknown
    simp only [not_forall, exists_prop] at hunknown
    obtain ⟨ret, -, hload⟩ := (hmeets accepting).2 hunknown
    exact not_rejected long h null hglobal hload rfl
  have hexec := load_after long h null rfl hname hafter hk ((hmeets accepting).1 hk)
  have hfits : ∀ cs ∈ ofKind "cpic" after, (text cs "tp_name").length < 64 := by
    rw [← added_fits long]
    by_contra hbad
    simp only [not_forall, exists_prop] at hbad
    rw [execute_undefined long _ hbad] at hexec
    cases hexec
  have hopens : accepting.opens = true := rfl
  rw [execute_eq long accepting _ ((added_fits long).mpr hfits), carriedOut, if_pos hopens,
    if_pos hopens, issued_accepting, issued_accepting, Option.some.injEq, Outcome.mk.injEq] at hexec
  have hplan := hexec.2.1
  have hnil := before_eq_nil long hname hbefore hafter hs hfits hplan
  subst hnil
  rw [List.nil_append, List.nil_append, defines_skip hname [] after] at hplan
  have hkept := (plan_eq_iff long (written_global hs (by simp) hname)
    (known_global hk (by simp) hname) (fun t ht => hs t (by simp [ht]))
    (fun t ht => hk t (by simp [ht])) hfits).mp hplan
  have hskip : ∀ {name : String}, "global".toList ≠ name.toList →
      ofKind name ([] ++ s :: after) = ofKind name after :=
    fun hne => ofKind_skip_global hname hne [] after
  exact {
    first := ⟨s, after, rfl, hname⟩
    known := hk
    node := hkept.1
    links := by rw [hskip (by decide)]; exact hkept.2.1
    classes := by rw [hskip (by decide)]; exact hkept.2.2.1
    units := by rw [hskip (by decide)]; exact hkept.2.2.2
    programs := by rw [hskip (by decide)]; exact hfits }

theorem meets_of_kept (h : IsConfig doc ns (before ++ s :: after))
    (hkept : GlobalKept long words s.children (before ++ s :: after)) (w : World) :
    Demand words w s.children (before ++ s :: after) (load long w null (some doc)) := by
  have hnil : before = [] := by
    obtain ⟨t, l, hfirst, ht⟩ := hkept.first
    cases before with
    | nil => rfl
    | cons u before =>
      rw [List.cons_append, List.cons_eq_cons] at hfirst
      exact absurd (hfirst.1 ▸ ht) (hbefore u List.mem_cons_self)
  subst hnil
  rw [List.nil_append] at h hkept ⊢
  have hs := h.sections.each
  have hk := hkept.known
  have hskip : ∀ {name : String}, "global".toList ≠ name.toList →
      ofKind name (s :: after) = ofKind name after :=
    fun hne => ofKind_skip_global hname hne [] after
  have hfits : ∀ cs ∈ ofKind "cpic" after, (text cs "tp_name").length < 64 := by
    rw [← hskip (by decide)]
    exact hkept.programs
  have hplan := (plan_eq_iff long (written_global hs List.mem_cons_self hname)
    (known_global hk List.mem_cons_self hname) (fun t ht => hs t (List.mem_cons_of_mem s ht))
    (fun t ht => hk t (List.mem_cons_of_mem s ht)) hfits).mpr
    ⟨hkept.node, by rw [← hskip (by decide)]; exact hkept.links,
      by rw [← hskip (by decide)]; exact hkept.classes,
      by rw [← hskip (by decide)]; exact hkept.units⟩
  refine ⟨fun _ => ?_, fun ⟨t, ht, hunknown⟩ => absurd (hk t ht) hunknown⟩
  rw [load_of_first long null h hname hafter hk, execute_eq long w _ ((added_fits long).mpr hfits),
    carriedOut, hplan, show s :: after = [] ++ s :: after from rfl, defines_skip hname]
  rfl

end Split

/-- A load does what the configuration says for every answer of the kernel exactly if the values are
kept. -/
theorem load_meets_iff {doc : XmlDoc} (h : IsConfig doc ns sections) (words : Words) (null : Bool) :
    (∀ w, Meets words w sections (load long w null (some doc))) ↔
      Kept long words null sections := by
  unfold Meets Kept
  cases hglobal : ofKind "global" sections with
  | nil => exact load_none_iff long h null hglobal
  | cons global rest =>
    obtain ⟨before, s, after, rfl, hname, rfl, hbefore, hafter⟩ :=
      split_global h.sections.global_le hglobal
    exact ⟨kept_of_meets long null hname hbefore hafter h hglobal,
      meets_of_kept long null hname hbefore hafter h⟩

end Load

/-! ## Examples -/

/-- `LONG_MAX` where a `long` has 32 bits -/
def long32 : Long := ⟨2147483647, le_rfl⟩

def sna : Ns := ⟨0, pathSnacfgXmlHref⟩

def element (name : String) (children : List Node) : Node :=
  .element name.toList (some sna) children

def leaf (name value : String) : Node := element name [.text value.toList]

def document (sections : List Node) : XmlDoc :=
  ⟨some (element "Helping" [element "node" sections]), [sna]⟩

theorem isConfig_document {sections : List Node} (h : AreSections sna sections) :
    IsConfig (document sections) sna sections :=
  ⟨rfl, ⟨some sna, [], rfl⟩, h⟩

/-- A node without segmenting, its data link control, a partner and a program there -/
def plain : List Node :=
  [element "global"
    [leaf "debuglevel" "0", leaf "node_name" "lnxsna.ehead", leaf "node_type" "appn",
     leaf "node_id" "05DFFFFF", leaf "max_lus" "1000", leaf "lu_seg" "off", leaf "bind_seg" "off"],
   element "dlc"
    [leaf "use_name" "dlc_sna1", leaf "type" "llc2", leaf "iface" "eth0", leaf "port" "0x04",
     leaf "btu" "1000", leaf "mia" "10", leaf "moa" "10"],
   element "lu"
    [leaf "use_name" "lu_winnt", leaf "where" "remote", leaf "plu_name" "lnxsna.ibm",
     leaf "fqcp_name" "lnxsna.ibm"],
   element "cpic"
    [leaf "sym_dest_name" "APING", leaf "mode_name" "#INTER", leaf "plu_name" "lnxsna.ibm",
     leaf "tp_name" "APINGD"]]

theorem areSections_plain : AreSections sna plain := by decide

theorem kept_plain (null : Bool) : Kept long32 noWords null plain where
  first := ⟨_, _, rfl, rfl⟩
  known := by decide
  node :=
    { nodeId := by decide
      luSeg := fun _ h => by
        cases h
        rfl
      bindSeg := fun _ h => by
        cases h
        rfl }
  links := fun _ h => (List.not_mem_nil h).elim
  classes := fun _ h => (List.not_mem_nil h).elim
  units := by
    intro cs hcs
    cases List.mem_singleton.mp hcs
    exact .inl rfl
  programs := by decide

theorem load_meets_iff_plain : IsConfig (document plain) sna plain ∧
    ∀ w, Meets noWords w plain (load long32 w false (some (document plain))) :=
  ⟨isConfig_document areSections_plain,
    (load_meets_iff long32 (isConfig_document areSections_plain) noWords false).mpr
      (kept_plain false)⟩

/-- A node with segmenting, and a logical unit with a name -/
def segmenting : List Node :=
  [element "global"
    [leaf "debuglevel" "0", leaf "node_name" "lnxsna.ehead", leaf "node_type" "appn",
     leaf "node_id" "05DFFFFF", leaf "max_lus" "1000", leaf "lu_seg" "on", leaf "bind_seg" "on"],
   element "lu"
    [leaf "use_name" "lu_ehead", leaf "where" "local", leaf "name" "ehead",
     leaf "syncpoint" "on", leaf "lu_sess_limit" "1000"]]

/-- It is defined without segmenting, and the logical unit without its name. -/
theorem segmenting_changed : IsConfig (document segmenting) sna segmenting ∧
    (∀ s ∈ segmenting, WordsKnown noWords s) ∧
    (load long32 accepting true (some (document segmenting))).map Outcome.defines = some
      [.node ⟨⟨"LNXSNA  ".toList, "EHEAD   ".toList⟩, 0x05DFFFFF, 2, 1000, 0, 0⟩,
       .localLu ⟨"lu_ehead".toList, ⟨"LNXSNA  ".toList, "EHEAD   ".toList⟩, [], 1, 1000⟩] ∧
    (ofKind "global" segmenting).map (defines noWords · segmenting) =
      [[.node ⟨⟨"LNXSNA  ".toList, "EHEAD   ".toList⟩, 0x05DFFFFF, 2, 1000, 1, 1⟩,
        .localLu ⟨"lu_ehead".toList, ⟨"LNXSNA  ".toList, "EHEAD   ".toList⟩, "EHEAD".toList, 1,
          1000⟩]] ∧
    ¬Meets noWords accepting segmenting (load long32 accepting true (some (document segmenting))) := by
  have hknown : ∀ s ∈ segmenting, WordsKnown noWords s := by decide
  refine ⟨isConfig_document (by decide), hknown, by decide, by decide, ?_⟩
  intro h
  have heq := congrArg (Option.map Outcome.defines) (h.1 hknown)
  exact absurd heq (by decide)

end LinuxSna.Snaconfig
