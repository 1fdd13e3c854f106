import LinuxSna.Proof.Sna.DefaultClasses
import LinuxSna.Proof.Sna.Nof
import LinuxSna.Spec.NodeOperator

/-!
# Defining a node

What the creators return is not looked at, they look for the name in the network alone, and the entry of the
topology is there before the entry of the node.

* `nodeDefine_lists`: what other components see of a definition;
* `law_iff`: which definitions are all or nothing;
* `nodeDefine_along_iff`: and which sequences of them.
-/

namespace LinuxSna.Nodes

open Framework (Along modifyFirst newIndex)
open Cs (Netid)
open Nof (sameNetid sameName enomem eexist)

variable {s s' : State} {start : NofNode} {e : DefineEnv}

/-! ## Creators -/

theorem neg_enomem : -enomem < 0 := by decide

theorem neg_eexist : -eexist < 0 := by decide

theorem sameNetid_refl (netid : Netid) : sameNetid netid netid = true :=
  (Nof.sameNetid_iff netid netid).mpr ⟨rfl, rfl⟩

theorem find?_eq_none_iff {α : Type} {p : α → Bool} {l : List α} :
    l.find? p = none ↔ ∀ a ∈ l, p a = false := by
  simp

/-- A client is added exactly if there is memory and the name is new. -/
theorem createClient_spec (netid : Netid) (alloc : Bool) (clients : List Netid) :
    if alloc = true ∧ ∀ c ∈ clients, sameName c netid = false then
      createClient netid alloc clients = (0, clients ++ [netid])
    else (createClient netid alloc clients).1 < 0 := by
  rw [createClient]
  cases hfind : clients.find? (sameName · netid) with
  | some c =>
    rw [if_neg fun h => Option.some_ne_none c (hfind.symm.trans (find?_eq_none_iff.mpr h.2))]
    exact neg_eexist
  | none =>
    cases alloc with
    | true =>
      rw [if_pos ⟨rfl, find?_eq_none_iff.mp hfind⟩]
      rfl
    | false =>
      rw [if_neg fun h => Bool.noConfusion h.1]
      exact neg_enomem

/-- So is the entry of configuration services, with a number. -/
theorem csCreate_spec (start : NofNode) (alloc : Bool) (csList : List CsCb) (i : UInt32) :
    if alloc = true ∧ ∀ c ∈ csList, sameName c.netid start.netid = false then
      csCreate start alloc csList i = (newIndex (csList.map (·.index)) (csList.length + 1) i).map fun i =>
        (0, csList ++ [⟨⟨i, start.netid, false⟩, start.nodeid⟩], i)
    else ∃ r, csCreate start alloc csList i = some (r, csList, i) ∧ r < 0 := by
  rw [csCreate, csGetByName]
  cases hfind : csList.find? (sameName ·.netid start.netid) with
  | some c =>
    rw [if_neg fun h => Option.some_ne_none c (hfind.symm.trans (find?_eq_none_iff.mpr h.2))]
    exact ⟨-eexist, rfl, neg_eexist⟩
  | none =>
    cases alloc with
    | true =>
      rw [if_pos ⟨rfl, find?_eq_none_iff.mp hfind⟩]
      rfl
    | false =>
      rw [if_neg fun h => Bool.noConfusion h.1]
      exact ⟨-enomem, rfl, neg_enomem⟩

/-- The entry of the topology is set, or a new one. -/
theorem tdmDefineNodeChars_spec (start : NofNode) (now : Timeval) (alloc : Bool) (nodeList : List TdmNodeCb) :
    if tdmNodeGetByNetid nodeList start.netid = none ∧ alloc = false then
      tdmDefineNodeChars start now alloc nodeList = (-enomem, nodeList)
    else (tdmDefineNodeChars start now alloc nodeList).1 = 0 ∧
      (∃ node ∈ (tdmDefineNodeChars start now alloc nodeList).2, sameNetid node.netid start.netid) ∧
      ((tdmDefineNodeChars start now alloc nodeList).2 = nodeList ↔
        ∃ node, tdmNodeGetByNetid nodeList start.netid = some node ∧ node.setChars start now = node) := by
  rw [tdmDefineNodeChars]
  cases hfind : tdmNodeGetByNetid nodeList start.netid with
  | some node =>
    rw [if_neg fun h => Option.some_ne_none _ h.1]
    have hset : (modifyFirst (sameNetid ·.netid start.netid) (TdmNodeCb.setChars start now) nodeList).find?
        (sameNetid ·.netid start.netid) = some (node.setChars start now) :=
      (Framework.find?_modifyFirst (f := TdmNodeCb.setChars start now) fun _ => rfl).trans
        (congrArg (Option.map (TdmNodeCb.setChars start now)) hfind)
    have hname := List.find?_some hset
    refine ⟨rfl, ⟨_, List.mem_of_find?_eq_some hset, hname⟩, ?_⟩
    rw [Framework.modifyFirst_eq_self_iff hfind]
    constructor
    · exact fun h => ⟨node, rfl, h⟩
    · rintro ⟨node', hnode, h⟩
      cases hnode
      exact h
  | none =>
    cases alloc with
    | true =>
      rw [if_neg fun h => Bool.noConfusion h.2]
      refine ⟨rfl, ⟨_, List.mem_append_right _ List.mem_cons_self, sameNetid_refl start.netid⟩, ?_⟩
      constructor
      · intro h
        have hlen := congrArg List.length h
        rw [if_pos rfl, List.length_append] at hlen
        exact absurd hlen (Nat.succ_ne_self _)
      · rintro ⟨node, hnode, -⟩
        cases hnode
    | false =>
      rw [if_pos ⟨rfl, rfl⟩]
      rfl

/-! ## The branches of a definition -/

theorem nodeDefine_defined (h : (nofGetByNetid s.nofList start.netid).isSome) :
    nodeDefine s start e = some (-eexist, s) := by
  obtain ⟨nof, hnof⟩ := Option.isSome_iff_exists.mp h
  rw [nodeDefine, hnof]

theorem nodeDefine_noTdm (hn : nofGetByNetid s.nofList start.netid = none)
    (h : tdmNodeGetByNetid s.nodeList start.netid = none ∧ e.tdm = false) :
    nodeDefine s start e = some (-enomem, s) := by
  have htdm := tdmDefineNodeChars_spec start e.now e.tdm s.nodeList
  rw [if_pos h] at htdm
  rw [nodeDefine, hn]
  dsimp only
  rw [htdm, if_pos neg_enomem]

theorem nodeDefine_noNof (hn : nofGetByNetid s.nofList start.netid = none)
    (ht : (tdmDefineNodeChars start e.now e.tdm s.nodeList).1 = 0) (h : e.nof = false) :
    nodeDefine s start e =
      some (-enomem, { s with nodeList := (tdmDefineNodeChars start e.now e.tdm s.nodeList).2 }) := by
  rw [nodeDefine, hn]
  dsimp only
  rw [ht, if_neg (lt_irrefl 0), h]
  rfl

/-- With an entry for the node, 0 is returned whatever the creators return. -/
theorem nodeDefine_create (hn : nofGetByNetid s.nofList start.netid = none)
    (ht : (tdmDefineNodeChars start e.now e.tdm s.nodeList).1 = 0) (h : e.nof = true) {cosm : Cosm.Table}
    (hcosm : Cosm.initDefaultCos e.cos s.cosm = some cosm) :
    nodeDefine s start e = (csCreate start e.cs s.csList s.csSystemIndex).map fun cs => (0,
      { s with
        nodeList := (tdmDefineNodeChars start e.now e.tdm s.nodeList).2
        nofList := s.nofList ++ [newNof start]
        ssClients := (ssCreate start e.ss s.ssClients).2
        dsClients := (dsCreate start e.ds s.dsClients).2
        csList := cs.2.1
        csSystemIndex := cs.2.2
        cosm := cosm }) := by
  rw [nodeDefine, hn]
  dsimp only
  rw [ht, if_neg (lt_irrefl 0), h, create]
  cases csCreate start e.cs s.csList s.csSystemIndex with
  | none => rfl
  | some cs =>
    dsimp only
    rw [Option.bind_some, trsCreate, hcosm]
    rfl

/-! ## What other components see -/

theorem nofGetByNetid_lists (s : State) (netid : Netid) :
    Nof.nofGetByNetid s.lists netid = (nofGetByNetid s.nofList netid).map (·.toNofCb) :=
  List.find?_map

theorem tdmDefineNodeChars_lists (s : State) (start : NofNode) (now : Timeval) (alloc : Bool) :
    Nof.tdmDefineNodeChars s.lists start.netid alloc =
      ((tdmDefineNodeChars start now alloc s.nodeList).1,
        { s with nodeList := (tdmDefineNodeChars start now alloc s.nodeList).2 }.lists) := by
  have hfind : Nof.tdmNodeGetByNetid s.lists start.netid =
      (tdmNodeGetByNetid s.nodeList start.netid).map (·.toTdmNodeCb) := List.find?_map
  rw [Nof.tdmDefineNodeChars, hfind, tdmDefineNodeChars]
  cases tdmNodeGetByNetid s.nodeList start.netid with
  | some node =>
    have hmap : (modifyFirst (sameNetid ·.netid start.netid) (TdmNodeCb.setChars start now) s.nodeList).map
        (·.toTdmNodeCb) = s.nodeList.map (·.toTdmNodeCb) := Framework.map_modifyFirst fun _ => rfl
    rw [State.lists, State.lists, hmap]
    rfl
  | none =>
    cases alloc with
    | true =>
      rw [State.lists, State.lists]
      dsimp only
      rw [if_pos rfl, if_pos rfl, List.map_append]
      rfl
    | false => rfl

theorem createClient_lists (netid : Netid) (alloc : Bool) (clients : List Netid) :
    Nof.createClient clients netid alloc = (createClient netid alloc clients).2 := by
  rw [Nof.createClient, createClient]
  cases clients.find? (sameName · netid) with
  | some c => rfl
  | none => cases alloc <;> rfl

theorem csCreate_lists (l : Nof.Lists) {csList : List CsCb} (hl : l.csList = csList.map (·.toCsCb))
    (start : NofNode) (alloc : Bool) :
    Nof.csCreate l start.netid alloc = (csCreate start alloc csList l.csSystemIndex).map fun r =>
      { l with csList := r.2.1.map (·.toCsCb), csSystemIndex := r.2.2 } := by
  have hfind : Nof.csGetByName l start.netid = (csGetByName csList start.netid).map (·.toCsCb) := by
    rw [Nof.csGetByName, hl]
    exact List.find?_map
  have hindex : l.csList.map (·.index) = csList.map (·.index) := by
    rw [hl, List.map_map]
    rfl
  have hlen : l.csList.length = csList.length := by rw [hl, List.length_map]
  rw [Nof.csCreate, hfind, hindex, hlen, csCreate]
  cases csGetByName csList start.netid with
  | some c =>
    show some l = some { l with csList := csList.map (·.toCsCb) }
    rw [← hl]
  | none =>
    cases alloc with
    | true =>
      show Option.map _ _ = Option.map _ (Option.map _ _)
      rw [Option.map_map, hl]
      refine congrArg (Option.map · _) (funext fun i => ?_)
      rw [Function.comp_apply, List.map_append]
      rfl
    | false =>
      show some l = some { l with csList := csList.map (·.toCsCb) }
      rw [← hl]

/-- A definition is one as the other components see it: they do not look at the classes of service. -/
theorem nodeDefine_lists (hwf : s.cosm.Wf) : (nodeDefine s start e).map (fun r => (r.1, r.2.lists)) =
    Nof.nodeDefine s.lists start.netid e.toDefineEnv := by
  obtain ⟨cosm, hcosm, -⟩ := Cosm.initDefaultCos_spec hwf e.cos
  have hspec := tdmDefineNodeChars_spec start e.now e.tdm s.nodeList
  rw [Nof.nodeDefine, nofGetByNetid_lists, tdmDefineNodeChars_lists s start e.now e.tdm, Option.isSome_map]
  dsimp only
  cases hn : nofGetByNetid s.nofList start.netid with
  | some nof =>
    rw [nodeDefine_defined (by rw [hn]; rfl)]
    rfl
  | none =>
    rw [Option.isSome_none, if_neg Bool.false_ne_true]
    by_cases htdm : tdmNodeGetByNetid s.nodeList start.netid = none ∧ e.tdm = false
    · rw [if_pos htdm] at hspec
      rw [nodeDefine_noTdm hn htdm, hspec, if_pos neg_enomem]
      rfl
    rw [if_neg htdm] at hspec
    rw [hspec.1, if_neg (lt_irrefl 0)]
    cases hnof : e.nof with
    | false =>
      rw [nodeDefine_noNof hn hspec.1 hnof]
      rfl
    | true =>
      rw [nodeDefine_create hn hspec.1 hnof hcosm, createClient_lists, createClient_lists,
        csCreate_lists _ rfl start, Option.map_map, if_neg (by decide), Option.map_map]
      refine congrArg (Option.map · _) (funext fun cs => Prod.ext rfl ?_)
      show State.lists _ = _
      rw [State.lists]
      dsimp only
      rw [List.map_append]
      rfl

/-! ## All or nothing -/

/-- There is memory for everything, nothing has the name of the node in any network, and configuration
services have a number left. -/
structure Supplied (s : State) (start : NofNode) (e : DefineEnv) : Prop where
  nof : e.nof = true
  tdm : ¬(tdmNodeGetByNetid s.nodeList start.netid = none ∧ e.tdm = false)
  ss : e.ss = true ∧ ∀ c ∈ s.ssClients, sameName c start.netid = false
  ds : e.ds = true ∧ ∀ c ∈ s.dsClients, sameName c start.netid = false
  cs : e.cs = true ∧ ∀ c ∈ s.csList, sameName c.netid start.netid = false
  number : ∃ i ≠ 0, i ∉ s.csList.map (·.index)
  cos : Cosm.EnoughForDefaults e.cos s.cosm.classes

/-- The node is defined already, or there is no memory for its entry in the topology, or its entry there is
already as it is set and there is no memory for the node, or there is all that is needed. -/
def Good (s : State) (c : Call) : Prop :=
  (nofGetByNetid s.nofList c.start.netid).isSome ∨
  (tdmNodeGetByNetid s.nodeList c.start.netid = none ∧ c.env.tdm = false) ∨
  (c.env.nof = false ∧ ∃ node, tdmNodeGetByNetid s.nodeList c.start.netid = some node ∧
    node.setChars c.start c.env.now = node) ∨
  Supplied s c.start c.env

theorem Supplied.number_isSome (h : Supplied s start e) : ∃ i,
    newIndex (s.csList.map (·.index)) (s.csList.length + 1) s.csSystemIndex = some i := by
  refine Option.ne_none_iff_exists'.mp fun hnone => ?_
  have hlen : s.csList.length = (s.csList.map (·.index)).length := (List.length_map _).symm
  rw [hlen, Framework.newIndex_eq_none_iff] at hnone
  obtain ⟨i, hi, hmem⟩ := h.number
  exact hmem (hnone i hi)

/-- With all that is needed, no creator fails and every component gets its entry. -/
theorem Supplied.create (h : Supplied s start e) (hwf : s.cosm.Wf)
    (hn : nofGetByNetid s.nofList start.netid = none) :
    ¬Fails s start e ∧ ∃ s', nodeDefine s start e = some (0, s') ∧ Defined s' start.netid := by
  have htdm := tdmDefineNodeChars_spec start e.now e.tdm s.nodeList
  have hss := createClient_spec start.netid e.ss s.ssClients
  have hds := createClient_spec start.netid e.ds s.dsClients
  have hcs := csCreate_spec start e.cs s.csList s.csSystemIndex
  rw [if_neg h.tdm] at htdm
  rw [if_pos h.ss] at hss
  rw [if_pos h.ds] at hds
  rw [if_pos h.cs] at hcs
  obtain ⟨i, hi⟩ := h.number_isSome
  rw [hi, Option.map_some] at hcs
  have hmade := (Cosm.defaultsMade_iff hwf).mpr h.cos
  obtain ⟨cosm, hcosm, -⟩ := Cosm.initDefaultCos_spec hwf e.cos
  constructor
  · rintro (hf | hf | hf | hf | hf | ⟨r, hr, hf⟩ | hf)
    · rw [hn] at hf
      cases hf
    · exact Bool.false_ne_true (hf.symm.trans h.nof)
    · exact hf.ne htdm.1
    · exact hf.ne (congrArg Prod.fst hss)
    · exact hf.ne (congrArg Prod.fst hds)
    · cases hcs.symm.trans hr
      exact lt_irrefl 0 hf
    · exact hf hmade
  · rw [nodeDefine_create hn htdm.1 h.nof hcosm, ssCreate, dsCreate, hss, hds, hcs]
    refine ⟨_, rfl, ⟨?_, htdm.2.1, ?_, ?_, ?_, fun cos hcos => hmade.has hwf hcosm hcos⟩⟩
    · exact ⟨_, List.mem_append_right _ List.mem_cons_self, sameNetid_refl start.netid⟩
    · exact ⟨_, List.mem_append_right _ List.mem_cons_self, sameNetid_refl start.netid⟩
    · exact ⟨_, List.mem_append_right _ List.mem_cons_self, sameNetid_refl start.netid⟩
    · exact ⟨_, List.mem_append_right _ List.mem_cons_self, sameNetid_refl start.netid⟩

/-- A creator that has no memory or finds the name fails, and so does one that has no number left. -/
theorem supplied_of_create (hwf : s.cosm.Wf) (hnof : e.nof = true)
    (htdm : ¬(tdmNodeGetByNetid s.nodeList start.netid = none ∧ e.tdm = false)) (hf : ¬Fails s start e)
    {r : Int × List CsCb × UInt32} (hr : csCreate start e.cs s.csList s.csSystemIndex = some r) :
    Supplied s start e := by
  have hss := createClient_spec start.netid e.ss s.ssClients
  have hds := createClient_spec start.netid e.ds s.dsClients
  have hcs := csCreate_spec start e.cs s.csList s.csSystemIndex
  have hname : e.cs = true ∧ ∀ c ∈ s.csList, sameName c.netid start.netid = false := by
    by_contra hname
    rw [if_neg hname] at hcs
    obtain ⟨r, hr, hneg⟩ := hcs
    exact hf (.cs _ hr hneg)
  refine ⟨hnof, htdm, ?_, ?_, hname, ?_, ?_⟩
  · by_contra hname
    rw [if_neg hname] at hss
    exact hf (.ss hss)
  · by_contra hname
    rw [if_neg hname] at hds
    exact hf (.ds hds)
  · rw [if_pos hname, hr] at hcs
    obtain ⟨i, hi, -⟩ := Option.map_eq_some_iff.mp hcs.symm
    exact ⟨i, Framework.newIndex_ne_zero hi, Framework.newIndex_notMem hi⟩
  · rw [← Cosm.defaultsMade_iff hwf]
    by_contra hcos
    exact hf (.cos hcos)

/-- What a definition leaves when it returns an error, before the creators. -/
theorem law_of_error {r : Int} (hd : nodeDefine s start e = some (r, s')) (hr : r < 0) :
    Law s ⟨start, e⟩ ↔ s' = s := by
  constructor
  · rintro ⟨r₂, s₂, hd₂, -, hsame, -⟩
    cases hd.symm.trans hd₂
    exact hsame hr
  · exact fun hsame => ⟨r, s', hd, fun _ => hr, fun _ => hsame, fun h0 => absurd h0 hr.ne⟩

theorem law_iff (hwf : s.cosm.Wf) (c : Call) : Law s c ↔ Good s c := by
  obtain ⟨start, e⟩ := c
  rw [Good]
  cases hn : nofGetByNetid s.nofList start.netid with
  | some nof =>
    have hsome : (nofGetByNetid s.nofList start.netid).isSome := by
      rw [hn]
      rfl
    exact iff_of_true ((law_of_error (nodeDefine_defined hsome) neg_eexist).mpr rfl) (.inl rfl)
  | none =>
    by_cases htdm : tdmNodeGetByNetid s.nodeList start.netid = none ∧ e.tdm = false
    · exact iff_of_true ((law_of_error (nodeDefine_noTdm hn htdm) neg_enomem).mpr rfl) (.inr (.inl htdm))
    have hspec := tdmDefineNodeChars_spec start e.now e.tdm s.nodeList
    rw [if_neg htdm] at hspec
    cases hnof : e.nof with
    | false =>
      -- the entry of the topology has been set
      rw [law_of_error (nodeDefine_noNof hn hspec.1 hnof) neg_enomem]
      have hsame : { s with nodeList := (tdmDefineNodeChars start e.now e.tdm s.nodeList).2 } = s ↔
          (tdmDefineNodeChars start e.now e.tdm s.nodeList).2 = s.nodeList := by
        constructor
        · exact fun h => congrArg State.nodeList h
        · intro h
          rw [h]
      rw [hsame, hspec.2.2]
      constructor
      · exact fun h => .inr (.inr (.inl ⟨rfl, h⟩))
      · rintro (h | h | h | h)
        · cases h
        · exact absurd h htdm
        · exact h.2
        · exact absurd (hnof.symm.trans h.nof) Bool.false_ne_true
    | true =>
      constructor
      · rintro ⟨r, s', hd, hfail, -, -⟩
        obtain ⟨cosm, hcosm, -⟩ := Cosm.initDefaultCos_spec hwf e.cos
        rw [nodeDefine_create hn hspec.1 hnof hcosm] at hd
        obtain ⟨cs, hcs, hr⟩ := Option.map_eq_some_iff.mp hd
        obtain ⟨rfl, -⟩ := Prod.mk.inj hr
        exact .inr (.inr (.inr (supplied_of_create hwf hnof htdm (fun hf => lt_irrefl 0 (hfail hf)) hcs)))
      · rintro (h | h | h | h)
        · cases h
        · exact absurd h htdm
        · cases h.1
        · obtain ⟨hf, s', hd, hdefined⟩ := h.create hwf hn
          exact ⟨0, s', hd, fun h => absurd h hf, fun h => absurd h (lt_irrefl 0), fun _ => hdefined⟩

/-! ## Sequences -/

/-- The classes of service stay as they are, or get the default ones. -/
theorem wf_step (hwf : s.cosm.Wf) {c : Call} (hs : step s c = some s') : s'.cosm.Wf := by
  obtain ⟨⟨r, s₂⟩, hd, rfl⟩ := Option.map_eq_some_iff.mp hs
  show s₂.cosm.Wf
  rw [nodeDefine] at hd
  split at hd
  · cases hd
    exact hwf
  · dsimp only at hd
    split_ifs at hd
    · cases hd
      exact hwf
    · cases hd
      exact hwf
    · obtain ⟨s₃, hcreate, hr⟩ := Option.map_eq_some_iff.mp hd
      obtain ⟨-, rfl⟩ := Prod.mk.inj hr
      obtain ⟨cs, -, hcreate⟩ := Option.bind_eq_some_iff.mp hcreate
      obtain ⟨trs, htrs, rfl⟩ := Option.map_eq_some_iff.mp hcreate
      obtain ⟨cosm, hcosm, rfl⟩ := Option.map_eq_some_iff.mp htrs
      obtain ⟨cosm', hcosm', hwf'⟩ := Cosm.initDefaultCos_spec hwf c.env.cos
      cases hcosm.symm.trans hcosm'
      exact hwf'

/-- Every definition of a sequence is all or nothing exactly if every one of them is good. -/
theorem nodeDefine_along_iff (hwf : s.cosm.Wf) (calls : List Call) :
    Along step Law s calls ↔ Along step Good s calls :=
  Framework.along_iff (I := fun s => s.cosm.Wf) (fun _ _ _ h _ hs => wf_step h hs)
    (fun _ c h => law_iff h c) hwf

/-- Before any node is defined -/
def State.empty : State where
  nofList := []
  csList := []
  csSystemIndex := 0
  dsClients := []
  ssClients := []
  nodeList := []
  cosm := .empty
  portList := []
  asmList := []
  pcList := []
  localLuList := []
  remoteLuList := []
  modeList := []

/-- A definition with memory for everything -/
def withMemory (netid : Netid) : Call :=
  ⟨{ netid := netid }, { tdm := true, nof := true, ss := true, ds := true, cs := true }⟩

/-- After a node is defined, with the classes of service there are then -/
def withNetA (cosm : Cosm.Table) : State :=
  { State.empty with
    nofList := [newNof { netid := Nof.netA }]
    csList := [⟨⟨1, Nof.netA, false⟩, 0⟩]
    csSystemIndex := 1
    dsClients := [Nof.netA]
    ssClients := [Nof.netA]
    nodeList := [newTdmNode { netid := Nof.netA } {}]
    cosm := cosm }

/-- `"OTH"` and `"A"` -/
def otherA : Netid := ⟨[0x4F, 0x54, 0x48, 0, 0, 0, 0, 0, 0], [0x41, 0, 0, 0, 0, 0, 0, 0, 0]⟩

theorem nodeDefine_along_iff_netA : Along step Law State.empty [withMemory Nof.netA] ↔
    Along step Good State.empty [withMemory Nof.netA] :=
  nodeDefine_along_iff Cosm.wf_empty _

/-- The second node has the name of the first, in another network. -/
theorem otherA_not_everywhere :
    ¬Along step Law State.empty [withMemory Nof.netA, withMemory otherA] := by
  rintro ⟨-, h⟩
  obtain ⟨cosm, hcosm, hwf⟩ :=
    Cosm.initDefaultCos_spec (t := State.empty.cosm) Cosm.wf_empty (withMemory Nof.netA).env.cos
  obtain ⟨cosm', hcosm', -⟩ :=
    Cosm.initDefaultCos_spec (t := (withNetA cosm).cosm) hwf (withMemory otherA).env.cos
  have hnetA : step State.empty (withMemory Nof.netA) = some (withNetA cosm) := by
    rw [step, nodeDefine_create ?_ ?_ ?_ hcosm]
    · rfl
    · decide
    · decide
    · rfl
  obtain ⟨⟨r, s', hd, hfail, -⟩, -⟩ := h _ hnetA
  have hss : (ssCreate (withMemory otherA).start true [Nof.netA]).1 < 0 := by decide
  have hneg : r < 0 := hfail (.ss hss)
  rw [nodeDefine_create ?_ ?_ ?_ hcosm'] at hd
  · obtain ⟨cs, -, hr⟩ := Option.map_eq_some_iff.mp hd
    exact hneg.ne (congrArg Prod.fst hr).symm
  · rfl
  · rfl
  · rfl

end LinuxSna.Nodes
