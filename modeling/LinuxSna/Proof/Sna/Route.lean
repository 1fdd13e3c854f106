import LinuxSna.Framework.Run
import LinuxSna.Framework.Table
import LinuxSna.Impl.Sna.Route
import LinuxSna.Proof.Sna.Cs.Activation
import LinuxSna.Proof.Sna.Cs.Exchange
import LinuxSna.Proof.Sna.Nof

/-!
# The link that an init signal gets

The links of a node are kept under their transmission group numbers, and an init signal
gets the one in front for its own node, whoever its partner is: the last that was activated
under the number of the first (`tdmRequestTgVectors_latest`).

* `step_cases`: what a step does to the link stations and the topology;
* `init_routed`: init signals are led to their remote names, and links keep out of each
  other's way, in the runs in which the links of a node have different numbers and sessions are
  asked for with the partner of the first one.
-/

namespace LinuxSna.Route

open Framework
open Nof Cs

/-! ## The transmission groups of a node -/

def tgList (l : Lists) (n : Netid) : List TgCb := ((tdmNodeGetByNetid l n).map (·.tgList)).getD []

theorem tdmRequestTgVectors_eq (l : Lists) (n : Netid) :
    tdmRequestTgVectors l n = (tgList l n).head? := by
  unfold tdmRequestTgVectors tgList
  cases tdmNodeGetByNetid l n <;> rfl

theorem sameNetid_congr {m n : Netid} (h : sameNetid m n = true) (a : Netid) :
    sameNetid a m = sameNetid a n := by
  obtain ⟨h₁, h₂⟩ := (sameNetid_iff m n).mp h
  rw [Bool.eq_iff_iff, sameNetid_iff, sameNetid_iff, h₁, h₂]

theorem tgList_setTgList {l : Lists} {m : Netid} (hm : (tdmNodeGetByNetid l m).isSome)
    (t : List TgCb) (n : Netid) :
    tgList (setTgList l m t) n = if sameNetid m n then t else tgList l n := by
  unfold tgList
  have hnode : tdmNodeGetByNetid (setTgList l m t) n =
      if sameNetid m n then (tdmNodeGetByNetid l n).map ({ · with tgList := t })
      else tdmNodeGetByNetid l n := by
    unfold tdmNodeGetByNetid setTgList
    split
    · rename_i h
      have hp : (fun node : TdmNodeCb => sameNetid node.netid n) = (sameNetid ·.netid m) :=
        funext fun node => (sameNetid_congr h node.netid).symm
      rw [hp]
      exact find?_modifyFirst fun _ => rfl
    · rename_i h
      apply find?_modifyFirst_of_not
      intro node hnode
      rw [sameNetid_of hnode]
      exact ⟨eq_false_of_ne_true h, eq_false_of_ne_true h⟩
  rw [hnode]
  split
  · rename_i h
    have hsome : (tdmNodeGetByNetid l n).isSome := by
      unfold tdmNodeGetByNetid at hm ⊢
      rwa [funext fun node : TdmNodeCb => (sameNetid_congr h node.netid).symm]
    obtain ⟨node, hn⟩ := Option.isSome_iff_exists.mp hsome
    rw [hn]
    rfl
  · rfl

/-- An update that succeeds puts the transmission group under its number; one that does
not changes nothing. -/
theorem tgUpdate_spec (l : Lists) (name : Netid) (u : TgUpdate) (alloc : Bool) :
    (tgUpdate l name u alloc).1 = 0 ∧ (tdmNodeGetByNetid l name).isSome ∧
        (tgUpdate l name u alloc).2 =
          setTgList l name (put TgCb.tgNumber u.tg (tgList l name)) ∨
      (tgUpdate l name u alloc).1 ≠ 0 ∧ (tgUpdate l name u alloc).2 = l := by
  unfold tgUpdate tgList
  cases hnode : tdmNodeGetByNetid l name with
  | none => exact .inr ⟨nofun, rfl⟩
  | some node =>
    dsimp only
    cases htg : tgGetByNumber node u.tgNumber with
    | none =>
      cases alloc with
      | false => exact .inr ⟨nofun, rfl⟩
      | true =>
        refine .inl ⟨rfl, rfl, ?_⟩
        have hnot : u.tg.tgNumber ∉ node.tgList.map TgCb.tgNumber := find_eq_none.mp htg
        show setTgList l name (node.tgList ++ [u.tg]) = setTgList l name (put _ _ node.tgList)
        rw [put_of_notMem hnot]
    | some tg =>
      refine .inl ⟨rfl, rfl, ?_⟩
      have hmem : u.tg.tgNumber ∈ node.tgList.map TgCb.tgNumber := by
        have hk : TgCb.tgNumber tg = u.tg.tgNumber := key_of_find htg
        rw [← hk]
        exact List.mem_map_of_mem (mem_of_find htg)
      show setTgList l name (modifyFirst (·.tgNumber = u.tg.tgNumber) (fun _ => u.tg) node.tgList) =
        setTgList l name (put _ _ node.tgList)
      rw [put_of_mem hmem, modifyFirst_key]

/-! ## The link stations -/

/-- What stays of a link station whatever happens: its port, its number, its node and
its partner. -/
def identity (ls : Ls) : UInt32 × UInt32 × Netid × Netid :=
  (ls.portIndex, ls.index, ls.netid, ls.pluName)

theorem station_setStation {l : Lists} {p i : UInt32} {ls : Ls} (hi : ls.index = i)
    (p' i' : UInt32) : station (setStation l p i ls) p' i' =
      if p' = p ∧ i' = i then (station l p i).map fun _ => ls else station l p' i' := by
  have hfind : find PortCb.index p' (setStation l p i ls).portList =
      if p' = p then (find PortCb.index p' l.portList).map fun port =>
        { port with lsList := update Ls.index i (fun _ => ls) port.lsList }
      else find PortCb.index p' l.portList := find_update fun _ h => h
  unfold station
  rw [hfind]
  by_cases hp : p' = p
  · rw [if_pos hp, hp]
    cases find PortCb.index p l.portList with
    | none => simp
    | some port =>
      have hls : find Ls.index i' (update Ls.index i (fun _ => ls) port.lsList) =
          if i' = i then (find Ls.index i' port.lsList).map fun _ => ls
          else find Ls.index i' port.lsList := find_update fun _ _ => hi
      show find Ls.index i' (update Ls.index i (fun _ => ls) port.lsList) = _
      rw [hls]
      by_cases hi' : i' = i
      · rw [if_pos hi', if_pos ⟨rfl, hi'⟩, hi']
        rfl
      · rw [if_neg hi', if_neg fun h => hi' h.2]
        rfl
  · rw [if_neg hp, if_neg fun h => hp h.1]

theorem index_of_station {l : Lists} {p i : UInt32} {ls : Ls} (h : station l p i = some ls) :
    ls.index = i := by
  obtain ⟨port, -, h⟩ := Option.bind_eq_some_iff.mp h
  exact key_of_find h

/-- A link station that is replaced by one of the same link. -/
theorem identity_setStation {l : Lists} {p i : UInt32} {ls ls' : Ls} (h : station l p i = some ls)
    (he : identity ls' = identity ls) (p' i' : UInt32) :
    (station (setStation l p i ls') p' i').map identity = (station l p' i').map identity := by
  have hi : ls'.index = i := by
    have h₂ : ls'.index = ls.index := congrArg (fun x => x.2.1) he
    rw [h₂, index_of_station h]
  rw [station_setStation hi]
  split
  · rename_i hpi
    rw [hpi.1, hpi.2, h]
    exact congrArg some he
  · rfl

/-! ## Path control instances -/

/-- What a handler has done to the path control instances for its link station: nothing,
a new one for it, or its own is gone. -/
inductive PcChange (ls ls' : Ls) : Prop where
  | same : ls'.pcIndex = ls.pcIndex → ls'.pcList = ls.pcList → PcChange ls ls'
  | new : ls'.pcIndex ≠ 0 → pcGetByIndex ls.pcList ls'.pcIndex = none →
      ls'.pcList = ls.pcList ++ [⟨ls'.pcIndex, ls.portIndex, ls.index⟩] → PcChange ls ls'
  | gone : ls'.pcIndex = 0 → ls'.pcList = ls.pcList.eraseP (·.index = ls.pcIndex) → PcChange ls ls'

theorem xidInputActive_pcs (env : Env) (ls : Ls) :
    identity (xidInputActive env ls).2 = identity ls ∧ PcChange ls (xidInputActive env ls).2 := by
  by_cases hx : ls.xidState = .active
  · unfold xidInputActive
    rw [if_pos hx]
    exact ⟨rfl, .same rfl rfl⟩
  · obtain ⟨odai, ho⟩ := xidInputActive_of_ne env hx
    obtain ⟨pcIndex, pcSystemIndex, pcList, asmList, hact, hpc⟩ := activations_eq env
      { ls with xidState := .active, state := .active, odai := odai }
    rw [ho, hact]
    refine ⟨rfl, ?_⟩
    rcases hpc with ⟨hi, hl⟩ | ⟨⟨hne, hnone⟩, hl⟩
    · exact .same hi hl
    · exact .new hne hnone hl

/-- The station is the one it was, with the same path control instance. -/
def Untouched (ls ls' : Ls) : Prop :=
  identity ls' = identity ls ∧ ls'.pcIndex = ls.pcIndex ∧ ls'.pcList = ls.pcList

theorem kept_untouched (ls : Ls) : Kept (Untouched ls) where
  after _ h := h
  state _ h := h
  direction _ h := h
  renegotiate _ _ _ h := h

theorem xidInputReset_pcs (b : Buffers) (ls : Ls) :
    identity (xidInputReset b ls) = identity ls ∧ PcChange ls (xidInputReset b ls) := by
  obtain ⟨s, i, t, hr⟩ := xidInputReset_eq b ls
  have hu : Untouched (ls.cleared s i t) (xidInputReset b ls) := by
    rw [hr]
    split
    · unfold connectOutWith
      dsimp only
      split
      case h_1 | h_2 => split_ifs <;> exact ⟨rfl, rfl, rfl⟩
      case h_3 | h_4 => exact (kept_untouched _).inputBegin b ⟨rfl, rfl, rfl⟩
      case h_5 | h_6 => exact ⟨rfl, rfl, rfl⟩
    · exact ⟨rfl, rfl, rfl⟩
  exact ⟨hu.1, .gone hu.2.1 hu.2.2⟩

/-- Nobody has the number 0, and who has a number has the path control instance. -/
structure Owners (s : State) : Prop where
  port (p i ls) : station s.lists p i = some ls → ls.portIndex = p
  zero : pcGetByIndex s.lists.pcList 0 = none
  own (p i ls) : station s.lists p i = some ls → ls.pcIndex ≠ 0 →
    pcGetByIndex s.lists.pcList ls.pcIndex = some ⟨ls.pcIndex, p, i⟩

theorem port_of_identity {l l' : Lists}
    (h : ∀ p i, (station l' p i).map identity = (station l p i).map identity)
    (hp : ∀ p i ls, station l p i = some ls → ls.portIndex = p) (p i : UInt32) (ls' : Ls)
    (hs : station l' p i = some ls') : ls'.portIndex = p := by
  have hm := h p i
  rw [hs] at hm
  obtain ⟨ls, hls, he⟩ := Option.map_eq_some_iff.mp hm.symm
  rw [← hp p i ls hls]
  exact congrArg (·.1) he.symm

theorem Owners.giveBack {s : State} (h : Owners s) {p i : UInt32} {ls ls' : Ls}
    (hs : station s.lists p i = some ls) (he : identity ls' = identity ls)
    (hc : PcChange (s.lend ls) ls') : Owners (s.giveBack p i ls') := by
  have hi : ls'.index = i := by
    have h₂ : ls'.index = ls.index := congrArg (fun x => x.2.1) he
    rw [h₂, index_of_station hs]
  have hport : (s.lend ls).portIndex = p := h.port p i ls hs
  have hindex : ls.index = i := index_of_station hs
  refine ⟨port_of_identity (identity_setStation hs he) h.port, ?_, ?_⟩
  · show pcGetByIndex ls'.pcList 0 = none
    cases hc with
    | same _ hl => rw [hl]; exact h.zero
    | new hne _ hl =>
      rw [hl, pcGetByIndex, List.find?_append, Option.or_eq_none_iff]
      exact ⟨h.zero, List.find?_eq_none.mpr (by simpa using hne)⟩
    | gone _ hl =>
      rw [hl, pcGetByIndex, List.find?_eq_none]
      intro pc hpc
      exact List.find?_eq_none.mp h.zero pc (List.mem_of_mem_eraseP hpc)
  · intro p' i' ls'' hs'' hne
    show pcGetByIndex ls'.pcList _ = _
    have hst : station (s.giveBack p i ls').lists p' i' =
        if p' = p ∧ i' = i then (station s.lists p i).map fun _ => ls'
        else station s.lists p' i' := station_setStation hi p' i'
    rw [hst] at hs''
    split at hs''
    · rename_i hpi
      obtain ⟨rfl, rfl⟩ := hpi
      rw [hs] at hs''
      obtain rfl := Option.some.inj hs''
      cases hc with
      | same hix hl =>
        have hix : ls'.pcIndex = ls.pcIndex := hix
        rw [hl, hix]
        exact h.own p' i' ls hs (hix ▸ hne)
      | new _ hnone hl =>
        rw [hl, hport, show (s.lend ls).index = i' from hindex, pcGetByIndex, List.find?_append]
        have hnone : List.find? (fun pc : PcCb => pc.index = ls'.pcIndex) (s.lend ls).pcList = none :=
          hnone
        rw [hnone]
        simp
      | gone hz _ => exact absurd hz hne
    · rename_i hpi
      have hown := h.own p' i' ls'' hs'' hne
      cases hc with
      | same _ hl => rw [hl]; exact hown
      | new _ _ hl =>
        rw [hl]
        exact find_append_of_find hown _
      | gone _ hl =>
        rw [hl]
        have hother : ls''.pcIndex ≠ ls.pcIndex := by
          intro heq
          have hls := h.own p i ls hs (heq ▸ hne)
          rw [← heq, hown] at hls
          injection Option.some.inj hls with _ h₁ h₂
          exact hpi ⟨h₁, h₂⟩
        exact (find_eraseP_of_ne hother).trans hown

/-! ## The exchange of XIDs -/

theorem kept_sameLink (ls : Ls) : Kept (SameLink ls) where
  after _ h := h
  state _ h := h
  direction _ h := h
  renegotiate _ _ _ h := h

/-- What the exchange of XIDs does to a link station is an exchange or a reset, for all inputs
but those by which the link is activated or reset anyway. -/
theorem xidDoit_exchanges (env : Env) (ls : Ls) (h₁ : ls.xidInput ≠ some .setmode)
    (h₂ : ls.xidInput ≠ some .active) (h₃ : ls.xidInput ≠ some .reset) :
    SameLink ls (xidDoit env ls) ∨
      ∃ ls', SameLink ls ls' ∧ xidDoit env ls = xidInputReset env.reset ls' := by
  have hself : SameLink ls ls := ⟨rfl, rfl, rfl, rfl, rfl, Iff.rfl⟩
  have hk := kept_sameLink ls
  have hresend : SameLink ls (xidOutputResend env ls) ∨
      ∃ ls', SameLink ls ls' ∧ xidOutputResend env ls = xidInputReset env.reset ls' := by
    unfold xidOutputResend
    split
    · exact .inl hself
    · split_ifs
      · exact .inl hself
      · exact .inl hself
      · exact .inr ⟨{ ls with xidInput := some .reset, xidFailed := true }, hself, rfl⟩
      · exact .inl hself
  -- the handlers do what `xid_output_resend` does, or keep the link
  let Q (x : Ls) : Prop := SameLink ls x ∨ ∃ ls', SameLink ls ls' ∧ x = xidInputReset env.reset ls'
  have hkept : ∀ x, SameLink ls x → Q x := fun x hx => .inl hx
  unfold xidDoit
  split
  · exact .inl (hk.inputBegin env.own hself)
  · exact hk.inputNull hkept env hself fun _ => hresend
  · exact hk.inputPn hkept env hself fun _ => hresend
  · exact hk.inputNeg hkept env hself fun _ => hresend
  · exact .inl (hk.inputPri env hself)
  · exact .inl (hk.inputSec env hself)
  · rename_i hx
    exact absurd hx h₁
  · rename_i hx
    exact absurd hx h₂
  · rename_i hx
    exact absurd hx h₃
  · exact .inl hself

/-! ## What the topology knows -/

/-- The transmission groups that have been recorded for a node, in their order. -/
def recorded (updates : List (Netid × TgUpdate)) (n : Netid) : List TgCb :=
  (updates.filter (sameNetid ·.1 n)).map (·.2.tg)

/-- The tables are those that the updates have filled, and what has been recorded is a link
station of the node with its partner. -/
structure Known (s : State) : Prop where
  filled (n) : tgList s.lists n = fill TgCb.tgNumber (recorded s.updates n)
  known : ∀ u ∈ s.updates, (station s.lists u.2.portIndex u.2.lsIndex).map identity =
    some (u.2.portIndex, u.2.lsIndex, u.1, u.2.pluName)

theorem Known.of_identity {s s' : State} (h : Known s) (hn : s'.lists.nodeList = s.lists.nodeList)
    (hu : s'.updates = s.updates)
    (hi : ∀ p i, (station s'.lists p i).map identity = (station s.lists p i).map identity) :
    Known s' := by
  refine ⟨fun n => ?_, fun u hmem => ?_⟩
  · have ht : tgList s'.lists n = tgList s.lists n := by
      unfold tgList tdmNodeGetByNetid
      rw [hn]
    rw [ht, hu, h.filled n]
  · rw [hi]
    exact h.known u (hu ▸ hmem)

/-- A link station is recorded, or nothing happens. -/
theorem tgActivate_spec (s : State) (ls : Ls) (dlcIndex : UInt32) (alloc : TgAlloc) :
    (∃ tgs, (tdmNodeGetByNetid s.lists ls.netid).isSome ∧
        tgs = put TgCb.tgNumber (lsTgUpdate ls dlcIndex).tg (tgList s.lists ls.netid) ∧
        s.tgActivate ls dlcIndex alloc = { s with
          lists := setTgList s.lists ls.netid tgs
          updates := s.updates ++ [(ls.netid, lsTgUpdate ls dlcIndex)] }) ∨
      s.tgActivate ls dlcIndex alloc = s := by
  unfold State.tgActivate csTgActivate
  cases alloc.update with
  | false => exact .inr rfl
  | true =>
    rcases tgUpdate_spec s.lists ls.netid (lsTgUpdate ls dlcIndex) alloc.tg with
      ⟨hz, hsome, hl⟩ | ⟨hz, hl⟩
    · refine .inl ⟨_, hsome, rfl, ?_⟩
      simp only [Bool.not_true, Bool.false_eq_true, ↓reduceIte, hz, hl]
    · refine .inr ?_
      simp only [Bool.not_true, Bool.false_eq_true, ↓reduceIte, hz, hl]

theorem recorded_concat (updates : List (Netid × TgUpdate)) (m : Netid) (u : TgUpdate) (n : Netid) :
    recorded (updates ++ [(m, u)]) n =
      recorded updates n ++ if sameNetid m n then [u.tg] else [] := by
  unfold recorded
  rw [List.filter_append, List.map_append, List.filter_singleton]
  by_cases h : sameNetid m n = true
  · simp [h]
  · simp [h]

theorem tgList_congr (l : Lists) {m n : Netid} (h : sameNetid m n = true) :
    tgList l m = tgList l n := by
  unfold tgList tdmNodeGetByNetid
  rw [funext fun node : TdmNodeCb => sameNetid_congr h node.netid]

theorem Known.tgActivate {s : State} (h : Known s) {ls : Ls} (dlcIndex : UInt32) (alloc : TgAlloc)
    (hs : station s.lists ls.portIndex ls.index = some ls) :
    Known (s.tgActivate ls dlcIndex alloc) := by
  rcases tgActivate_spec s ls dlcIndex alloc with ⟨tgs, hsome, rfl, hr⟩ | hr
  · rw [hr]
    refine ⟨fun n => ?_, ?_⟩
    · show tgList (setTgList s.lists ls.netid _) n = fill _ (recorded (s.updates ++ [_]) n)
      rw [tgList_setTgList hsome, recorded_concat]
      by_cases hn : sameNetid ls.netid n = true
      · rw [if_pos hn, if_pos hn, fill_concat, tgList_congr s.lists hn, h.filled n]
      · rw [if_neg hn, if_neg hn, List.append_nil, h.filled n]
    · intro u hu
      rcases List.mem_append.mp hu with hu | hu
      · exact h.known u hu
      · rw [List.mem_singleton.mp hu]
        show (station s.lists ls.portIndex ls.index).map identity = _
        rw [hs]
        rfl
  · rw [hr]
    exact h

/-! ## Every step -/

structure Sound (s : State) : Prop where
  owners : Owners s
  known : Known s

theorem station_giveBack {s : State} {p i : UInt32} {ls ls' : Ls}
    (hs : station s.lists p i = some ls) (he : identity ls' = identity ls) :
    station (s.giveBack p i ls').lists p i = some ls' := by
  have hi : ls'.index = i := by
    have h₂ : ls'.index = ls.index := congrArg (fun x => x.2.1) he
    rw [h₂, index_of_station hs]
  have hst : station (s.giveBack p i ls').lists p i =
      if p = p ∧ i = i then (station s.lists p i).map fun _ => ls' else station s.lists p i :=
    station_setStation hi p i
  rw [hst, if_pos ⟨rfl, rfl⟩, hs]
  rfl

theorem Sound.giveBack {s : State} (h : Sound s) {p i : UInt32} {ls ls' : Ls}
    (hs : station s.lists p i = some ls) (he : identity ls' = identity ls)
    (hc : PcChange (s.lend ls) ls') : Sound (s.giveBack p i ls') :=
  ⟨h.owners.giveBack hs he hc, h.known.of_identity rfl rfl (identity_setStation hs he)⟩

/-- What the topology has been told changes nothing else. -/
theorem tgActivate_lists (s : State) (ls : Ls) (dlcIndex : UInt32) (alloc : TgAlloc) :
    ∃ nodeList updates, s.tgActivate ls dlcIndex alloc =
      { s with lists := { s.lists with nodeList := nodeList }, updates := updates } := by
  rcases tgActivate_spec s ls dlcIndex alloc with ⟨tgs, -, -, hr⟩ | hr
  · exact ⟨_, _, hr⟩
  · exact ⟨_, _, hr⟩

theorem Sound.tgActivate {s : State} (h : Sound s) {ls : Ls} (dlcIndex : UInt32) (alloc : TgAlloc)
    (hs : station s.lists ls.portIndex ls.index = some ls) :
    Sound (s.tgActivate ls dlcIndex alloc) := by
  refine ⟨?_, h.known.tgActivate dlcIndex alloc hs⟩
  obtain ⟨nodeList, updates, hr⟩ := tgActivate_lists s ls dlcIndex alloc
  rw [hr]
  exact ⟨h.owners.port, h.owners.zero, h.owners.own⟩

/-- A link station after an activation: the same link under the same number. -/
theorem activated (s : State) (env : Env) (ls : Ls) :
    let ls' := (xidInputActive env (s.lend ls)).2
    identity ls' = identity ls ∧ ls'.effectiveTg = ls.effectiveTg ∧ PcChange (s.lend ls) ls' := by
  obtain ⟨he, hc⟩ := xidInputActive_pcs env (s.lend ls)
  refine ⟨he, ?_, hc⟩
  by_cases hx : ls.xidState = .active
  · unfold xidInputActive
    rw [if_pos (show (s.lend ls).xidState = .active from hx)]
    rfl
  · obtain ⟨odai, ho⟩ := xidInputActive_of_ne env (show (s.lend ls).xidState ≠ .active from hx)
    obtain ⟨_, _, _, _, hact, -⟩ := activations_eq env
      { s.lend ls with xidState := .active, state := .active, odai := odai }
    rw [ho, hact]
    rfl

/-- A link station is activated, and then recorded or not. -/
theorem activate_shape (s : State) (p i d : UInt32) (env : Env) (alloc : TgAlloc) (ls : Ls) :
    ∃ ls', identity ls' = identity ls ∧ ls'.effectiveTg = ls.effectiveTg ∧
      PcChange (s.lend ls) ls' ∧
      (activate s p i d env alloc ls = s.giveBack p i ls' ∨
        activate s p i d env alloc ls = (s.giveBack p i ls').tgActivate ls' d alloc) := by
  obtain ⟨he, htg, hc⟩ := activated s { env with tg := true } ls
  refine ⟨_, he, htg, hc, ?_⟩
  unfold activate
  dsimp only
  split
  · exact .inr rfl
  · exact .inl rfl

/-- What a step can do. -/
theorem step_cases {s s' : State} {e : Event} (hs : step s e = some s') :
    (∃ p i ls ls', station s.lists p i = some ls ∧ identity ls' = identity ls ∧
        PcChange (s.lend ls) ls' ∧ s' = s.giveBack p i ls') ∨
      (∃ p i d env alloc ls, e = .activate p i d env alloc ∧ station s.lists p i = some ls ∧
        s' = activate s p i d env alloc ls) ∨
      ∃ sleeping, s' = { s with sleeping := sleeping } ∧
        ∀ w ∈ sleeping, w ∈ s.sleeping ∨
          e = .initSig w.init ∧ ssProcInitSig s.lists w.init = .sleeps w.portIndex w.lsIndex := by
  cases e with
  | exchange p i ls' =>
    simp only [step] at hs
    split at hs
    · cases hs
    · rename_i ls hls
      split at hs
      · rename_i hsame
        obtain ⟨h₁, h₂, h₃, h₄, hpc, -⟩ := hsame
        have he : identity (s.lend ls') = identity ls := by
          show (ls'.portIndex, ls'.index, ls'.netid, ls'.pluName) = _
          rw [h₁, h₂, h₃, h₄]
          rfl
        exact .inl ⟨p, i, ls, s.lend ls', hls, he, .same hpc rfl, (Option.some.inj hs).symm⟩
      · cases hs
  | activate p i d env alloc =>
    obtain ⟨ls, hls, h⟩ := Option.map_eq_some_iff.mp hs
    exact .inr (.inl ⟨p, i, d, env, alloc, ls, rfl, hls, h.symm⟩)
  | reset p i b =>
    obtain ⟨ls, hls, h⟩ := Option.map_eq_some_iff.mp hs
    obtain ⟨he, hc⟩ := xidInputReset_pcs b (s.lend ls)
    exact .inl ⟨p, i, ls, _, hls, he, hc, h.symm⟩
  | initSig init =>
    refine .inr (.inr ?_)
    simp only [step] at hs
    split at hs
    · rename_i p i ho
      refine ⟨_, (Option.some.inj hs).symm, fun w hw => ?_⟩
      rcases List.mem_append.mp hw with hw | hw
      · exact .inl hw
      · obtain rfl := List.mem_singleton.mp hw
        exact .inr ⟨rfl, ho⟩
    all_goals exact ⟨s.sleeping, (Option.some.inj hs).symm, fun w hw => .inl hw⟩
  | wake w =>
    simp only [step] at hs
    split at hs
    · exact .inr (.inr ⟨_, (Option.some.inj hs).symm, fun w' hw => .inl (List.mem_of_mem_erase hw)⟩)
    · cases hs

theorem Sound.activate {s : State} (h : Sound s) {p i : UInt32} {ls : Ls}
    (hls : station s.lists p i = some ls) (d : UInt32) (env : Env) (alloc : TgAlloc) :
    Sound (activate s p i d env alloc ls) := by
  obtain ⟨ls', he, -, hc, hr⟩ := activate_shape s p i d env alloc ls
  have hg := h.giveBack hls he hc
  rcases hr with hr | hr
  · rw [hr]
    exact hg
  · rw [hr]
    refine hg.tgActivate d alloc ?_
    have hp : ls'.portIndex = p := (congrArg (·.1) he).trans (h.owners.port p i ls hls)
    have hi : ls'.index = i := (congrArg (·.2.1) he).trans (index_of_station hls)
    rw [hp, hi]
    exact station_giveBack hls he

theorem Sound.step {s s' : State} (h : Sound s) {e : Event} (hs : step s e = some s') :
    Sound s' := by
  rcases step_cases hs with ⟨p, i, ls, ls', hls, he, hc, rfl⟩ |
    ⟨p, i, d, env, alloc, ls, -, hls, rfl⟩ | ⟨sleeping, rfl, -⟩
  · exact h.giveBack hls he hc
  · exact h.activate hls d env alloc
  · exact ⟨⟨h.owners.port, h.owners.zero, h.owners.own⟩, ⟨h.known.filled, h.known.known⟩⟩

/-- A step leaves the link stations where they are, with their nodes and partners. -/
theorem identity_step {s s' : State} {e : Event} (hs : step s e = some s') (p i : UInt32) :
    (station s'.lists p i).map identity = (station s.lists p i).map identity := by
  rcases step_cases hs with ⟨p', i', ls, ls', hls, he, -, rfl⟩ |
    ⟨p', i', d, env, alloc, ls, -, hls, rfl⟩ | ⟨sleeping, rfl, -⟩
  · exact identity_setStation hls he p i
  · obtain ⟨ls', he, -, -, hr⟩ := activate_shape s p' i' d env alloc ls
    obtain ⟨_, _, ht⟩ := tgActivate_lists (s.giveBack p' i' ls') ls' d alloc
    rcases hr with hr | hr
    · rw [hr]
      exact identity_setStation hls he p i
    · rw [hr, ht]
      exact identity_setStation hls he p i
  · rfl

/-! ## What is wanted of a step, and when it comes -/

/-- The partner of a link station is `remote`. -/
def PartnerIs (l : Lists) (p i : UInt32) (remote : Netid) : Prop :=
  ∃ ls, station l p i = some ls ∧ sameNetid ls.pluName remote = true

/-- What comes of an init signal leads to `remote`: the path control index is one of a link
station that has it for its partner, and so has the link station that is connected. -/
def Reaches (l : Lists) (remote : Netid) : Outcome → Prop
  | .cinitRsp pcIndex =>
    ∃ pc, pcGetByIndex l.pcList pcIndex = some pc ∧ PartnerIs l pc.portIndex pc.lsIndex remote
  | .sleeps p i => PartnerIs l p i remote
  | .noRoute | .negRsp => True

/-- The transmission groups of the other links are still there, and what was in front of
its node is still in front. -/
def KeepsOthers (l l' : Lists) (p i : UInt32) : Prop :=
  ∀ n tg, (tg.portIndex, tg.lsIndex) ≠ (p, i) →
    (tg ∈ tgList l n → tg ∈ tgList l' n) ∧
      (tdmRequestTgVectors l n = some tg → tdmRequestTgVectors l' n = some tg)

/-- An init signal is led to its remote name; the activation of a link leaves the other
links of its node and the routes over them as they are. -/
def Right (s : State) (e : Event) : Prop :=
  match e with
  | .activate p i _ _ _ => ∀ s', step s e = some s' → KeepsOthers s.lists s'.lists p i
  | .initSig init => Reaches s.lists init.remoteName (ssProcInitSig s.lists init)
  | .wake w => w ∈ s.sleeping → Reaches s.lists w.init.remoteName (wokenUp s.lists w)
  | .exchange .. | .reset .. => True

/-- The first link of a node that was activated. -/
def firstUpdate (s : State) (n : Netid) : Option (Netid × TgUpdate) :=
  s.updates.find? (sameNetid ·.1 n)

/-- No other link of its node has been activated under the number of a link station. -/
def Alone (s : State) (p i : UInt32) (ls : Ls) : Prop :=
  ∀ u ∈ s.updates, sameNetid u.1 ls.netid = true → u.2.tgNumber = UInt8.ofNat ls.effectiveTg →
    u.2.portIndex = p ∧ u.2.lsIndex = i

instance (s : State) (p i : UInt32) (ls : Ls) : Decidable (Alone s p i ls) :=
  List.decidableBAll (fun u : Netid × TgUpdate => sameNetid u.1 ls.netid = true →
    u.2.tgNumber = UInt8.ofNat ls.effectiveTg → u.2.portIndex = p ∧ u.2.lsIndex = i) s.updates

/-- A link is activated under a number under which no other link of its node has been; the
remote name of an init signal is the partner of the first link of its local node that was
activated; and a link station that is active has a path control instance. -/
def Meets (s : State) : Event → Prop
  | .activate p i _ _ _ => ∀ ls ∈ station s.lists p i, Alone s p i ls
  | .initSig init => ∀ u ∈ firstUpdate s init.localName,
    sameNetid u.2.pluName init.remoteName = true ∧
      ∀ ls ∈ station s.lists u.2.portIndex u.2.lsIndex, ls.state = .active → ls.pcIndex ≠ 0
  | .wake w => w ∈ s.sleeping → ∀ ls ∈ station s.lists w.portIndex w.lsIndex,
    ls.state = .active → ls.llcSk = true → ls.pcIndex ≠ 0
  | .exchange .. | .reset .. => True

instance Meets.decidable (s : State) : ∀ e, Decidable (Meets s e)
  | .activate p i _ _ _ => inferInstanceAs (Decidable (∀ ls ∈ station s.lists p i, Alone s p i ls))
  | .initSig init => inferInstanceAs (Decidable (∀ u ∈ firstUpdate s init.localName, _ ∧
      ∀ ls ∈ station s.lists u.2.portIndex u.2.lsIndex, ls.state = .active → ls.pcIndex ≠ 0))
  | .wake w => inferInstanceAs (Decidable (w ∈ s.sleeping →
      ∀ ls ∈ station s.lists w.portIndex w.lsIndex,
        ls.state = .active → ls.llcSk = true → ls.pcIndex ≠ 0))
  | .exchange .. | .reset .. => .isTrue trivial

/-- An activation gets as far as the topology. -/
def Recorded (s : State) : Event → Prop
  | .activate p i d env alloc => ∀ ls, station s.lists p i = some ls →
    (activate s p i d env alloc ls).updates ≠ s.updates
  | .exchange .. | .reset .. | .initSig _ | .wake _ => True

/-! ## The link in front -/

/-- No two links of a node have been activated under one number. -/
def Apart (s : State) : Prop :=
  ∀ u ∈ s.updates, ∀ v ∈ s.updates, sameNetid u.1 v.1 = true → u.2.tgNumber = v.2.tgNumber →
    (u.2.portIndex, u.2.lsIndex) = (v.2.portIndex, v.2.lsIndex)

theorem mem_recorded {updates : List (Netid × TgUpdate)} {n : Netid} {tg : TgCb} :
    tg ∈ recorded updates n ↔ ∃ u ∈ updates, sameNetid u.1 n = true ∧ u.2.tg = tg := by
  simp only [recorded, List.mem_map, List.mem_filter, and_assoc]

theorem sameNetid_of_common {a b n : Netid} (ha : sameNetid a n = true) (hb : sameNetid b n = true) :
    sameNetid a b = true := by
  obtain ⟨h₁, h₂⟩ := (sameNetid_iff a n).mp ha
  obtain ⟨h₃, h₄⟩ := (sameNetid_iff b n).mp hb
  exact (sameNetid_iff a b).mpr ⟨h₁.trans h₃.symm, h₂.trans h₄.symm⟩

/-- What stands in front for a node is the last link that was activated under the number of
the first. -/
theorem tdmRequestTgVectors_latest {s : State} (h : Known s) (n : Netid) :
    tdmRequestTgVectors s.lists n = (firstUpdate s n).bind fun u =>
      find TgCb.tgNumber u.2.tgNumber (recorded s.updates n).reverse := by
  have hhead : (recorded s.updates n).head? = (firstUpdate s n).map (·.2.tg) := by
    unfold recorded firstUpdate
    rw [List.head?_map, List.head?_filter]
  rw [tdmRequestTgVectors_eq, h.filled n, head?_fill, hhead, Option.bind_map]
  rfl

/-- While no two links have one number, it is the first link of the node. -/
theorem tdmRequestTgVectors_first {s : State} (h : Known s) (ha : Apart s) {n : Netid}
    {u : Netid × TgUpdate} (hu : firstUpdate s n = some u) :
    ∃ tg, tdmRequestTgVectors s.lists n = some tg ∧
      (tg.portIndex, tg.lsIndex) = (u.2.portIndex, u.2.lsIndex) := by
  have hmem : u ∈ s.updates := List.mem_of_find?_eq_some hu
  have hnode : sameNetid u.1 n = true :=
    List.find?_some (p := fun v : Netid × TgUpdate => sameNetid v.1 n) hu
  have hrec : u.2.tg ∈ (recorded s.updates n).reverse :=
    List.mem_reverse.mpr (mem_recorded.mpr ⟨u, hmem, hnode, rfl⟩)
  have hsome : (find TgCb.tgNumber u.2.tg.tgNumber (recorded s.updates n).reverse).isSome :=
    find_isSome_of_mem hrec
  obtain ⟨tg, htg⟩ := Option.isSome_iff_exists.mp hsome
  refine ⟨tg, ?_, ?_⟩
  · rw [tdmRequestTgVectors_latest h, hu]
    exact htg
  · obtain ⟨v, hv, hvn, rfl⟩ := mem_recorded.mp (List.mem_reverse.mp (mem_of_find htg))
    have hnum : TgCb.tgNumber v.2.tg = u.2.tgNumber := key_of_find htg
    exact ha v hv u hmem (sameNetid_of_common hvn hnode) hnum

/-- The link station in front is connected or found active, whatever the remote name. -/
theorem ssProcInitSig_first {s : State} (h : Known s) (ha : Apart s) {init : InitSignal}
    {u : Netid × TgUpdate} (hu : firstUpdate s init.localName = some u) :
    ∃ ls, station s.lists u.2.portIndex u.2.lsIndex = some ls ∧ ls.pluName = u.2.pluName ∧
      ssProcInitSig s.lists init =
        if ls.state = .active then .cinitRsp ls.pcIndex
        else .sleeps u.2.portIndex u.2.lsIndex := by
  obtain ⟨tg, htg, hlink⟩ := tdmRequestTgVectors_first h ha hu
  obtain ⟨ls, hls, he⟩ := Option.map_eq_some_iff.mp (h.known u (List.mem_of_find?_eq_some hu))
  refine ⟨ls, hls, congrArg (·.2.2.2) he, ?_⟩
  obtain ⟨h₁, h₂⟩ := Prod.mk.inj hlink
  unfold ssProcInitSig csActivateRoute
  rw [htg]
  dsimp only
  rw [h₁, h₂, hls]

theorem ssProcInitSig_none {s : State} (h : Known s) {init : InitSignal}
    (hu : firstUpdate s init.localName = none) : ssProcInitSig s.lists init = .noRoute := by
  unfold ssProcInitSig
  rw [tdmRequestTgVectors_latest h, hu]
  rfl

/-! ## Init signals -/

theorem partnerIs_iff {l : Lists} {p i : UInt32} {ls : Ls} (hs : station l p i = some ls)
    (remote : Netid) : PartnerIs l p i remote ↔ sameNetid ls.pluName remote = true := by
  unfold PartnerIs
  rw [hs]
  simp

theorem reaches_cinitRsp {s : State} (h : Owners s) {p i : UInt32} {ls : Ls}
    (hs : station s.lists p i = some ls) (remote : Netid) :
    Reaches s.lists remote (.cinitRsp ls.pcIndex) ↔
      ls.pcIndex ≠ 0 ∧ sameNetid ls.pluName remote = true := by
  constructor
  · rintro ⟨pc, hpc, hp⟩
    have hne : ls.pcIndex ≠ 0 := by
      intro hz
      rw [hz, h.zero] at hpc
      cases hpc
    refine ⟨hne, ?_⟩
    rw [h.own p i ls hs hne] at hpc
    obtain rfl := Option.some.inj hpc
    exact (partnerIs_iff hs remote).mp hp
  · rintro ⟨hne, hp⟩
    exact ⟨_, h.own p i ls hs hne, (partnerIs_iff hs remote).mpr hp⟩

/-- What holds while all steps meet the condition. -/
structure Apt (s : State) : Prop where
  sound : Sound s
  apart : Apart s
  sleeping : ∀ w ∈ s.sleeping, PartnerIs s.lists w.portIndex w.lsIndex w.init.remoteName

theorem initSig_iff {s : State} (h : Apt s) (init : InitSignal) :
    Right s (.initSig init) ↔ Meets s (.initSig init) := by
  show Reaches _ _ _ ↔ ∀ u ∈ firstUpdate s init.localName, _
  cases hu : firstUpdate s init.localName with
  | none =>
    rw [ssProcInitSig_none h.sound.known hu]
    exact ⟨fun _ => nofun, fun _ => trivial⟩
  | some u =>
    obtain ⟨ls, hls, hplu, ho⟩ := ssProcInitSig_first h.sound.known h.apart hu
    rw [ho]
    simp only [Option.mem_def, Option.some.injEq, forall_eq', hls]
    by_cases ha : ls.state = .active
    · rw [if_pos ha, reaches_cinitRsp h.sound.owners hls, hplu, and_comm]
      simp [ha]
    · rw [if_neg ha]
      show PartnerIs _ _ _ _ ↔ _
      rw [partnerIs_iff hls, hplu]
      simp [ha]

theorem wake_iff {s : State} (h : Apt s) (w : Sleeper) : Right s (.wake w) ↔ Meets s (.wake w) := by
  apply forall_congr'
  intro hw
  obtain ⟨ls, hls, hplu⟩ := h.sleeping w hw
  unfold wokenUp
  rw [hls]
  simp only [Option.mem_def, Option.some.injEq, forall_eq']
  by_cases ha : ls.state = .active ∧ ls.llcSk = true
  · rw [if_pos ha, reaches_cinitRsp h.sound.owners hls]
    simp [ha.1, ha.2, hplu]
  · rw [if_neg ha]
    exact iff_of_true trivial fun h₁ h₂ => absurd ⟨h₁, h₂⟩ ha

/-! ## Activations -/

/-- An activation leaves the topology alone, or records the link station. -/
theorem activate_cases {s : State} (h : Sound s) {p i : UInt32} {ls : Ls}
    (hls : station s.lists p i = some ls) (d : UInt32) (env : Env) (alloc : TgAlloc) :
    (∃ u, u = (ls.netid, ⟨ls.pluName, UInt8.ofNat ls.effectiveTg, i, p, d⟩) ∧
        (activate s p i d env alloc ls).updates = s.updates ++ [u]) ∨
      (activate s p i d env alloc ls).lists.nodeList = s.lists.nodeList ∧
        (activate s p i d env alloc ls).updates = s.updates := by
  obtain ⟨ls', he, htg, -, hr⟩ := activate_shape s p i d env alloc ls
  rcases hr with hr | hr
  · rw [hr]
    exact .inr ⟨rfl, rfl⟩
  · rw [hr]
    rcases tgActivate_spec (s.giveBack p i ls') ls' d alloc with ⟨tgs, -, -, ht⟩ | ht
    · refine .inl ⟨_, rfl, ?_⟩
      have hu : (ls'.netid, lsTgUpdate ls' d) =
          (ls.netid, ⟨ls.pluName, UInt8.ofNat ls.effectiveTg, i, p, d⟩) := by
        have hp := h.owners.port p i ls hls
        have hi := index_of_station hls
        obtain ⟨h₁, h₂, h₃, h₄⟩ : ls'.portIndex = ls.portIndex ∧ ls'.index = ls.index ∧
            ls'.netid = ls.netid ∧ ls'.pluName = ls.pluName := by
          simpa only [identity, Prod.mk.injEq] using he
        unfold lsTgUpdate
        rw [h₁, h₂, h₃, h₄, htg, hp, hi]
      rw [ht, hu]
      rfl
    · rw [ht]
      exact .inr ⟨rfl, rfl⟩

section Activate

variable {s : State} (h : Apt s) {p i d : UInt32} {env : Env} {alloc : TgAlloc} {ls : Ls}
  (hls : station s.lists p i = some ls)
include h hls

theorem keepsOthers_of_alone (ha : Alone s p i ls) :
    KeepsOthers s.lists (activate s p i d env alloc ls).lists p i := by
  have hsound := h.sound.activate hls d env alloc
  intro n tg hlink
  rcases activate_cases h.sound hls d env alloc with ⟨u, rfl, hu⟩ | ⟨hn, -⟩
  · rw [tdmRequestTgVectors_eq, tdmRequestTgVectors_eq, hsound.known.filled n, hu, recorded_concat,
      h.sound.known.filled n]
    by_cases hsame : sameNetid ls.netid n = true
    · rw [if_pos hsame, fill_concat]
      -- what has the number of the link is the link
      have hne : tg ∈ fill TgCb.tgNumber (recorded s.updates n) →
          tg.tgNumber ≠ UInt8.ofNat ls.effectiveTg := by
        intro hmem hnum
        obtain ⟨v, hv, hvn, rfl⟩ := mem_recorded.mp (mem_of_mem_fill hmem)
        obtain ⟨h₁, h₂⟩ := ha v hv (sameNetid_of_common hvn hsame) hnum
        exact hlink (Prod.ext h₁ h₂)
      constructor
      · intro hmem
        exact mem_put_of_ne hmem (hne hmem)
      · intro hhead
        exact head?_put_of_ne hhead (hne (List.mem_of_head? hhead))
    · rw [if_neg hsame, List.append_nil]
      exact ⟨id, id⟩
  · have ht : tgList (activate s p i d env alloc ls).lists n = tgList s.lists n := by
      unfold tgList tdmNodeGetByNetid
      rw [hn]
    rw [tdmRequestTgVectors_eq, tdmRequestTgVectors_eq, ht]
    exact ⟨id, id⟩

/-- A link that is recorded under the number of another one takes its place. -/
theorem alone_of_keepsOthers
    (hk : KeepsOthers s.lists (activate s p i d env alloc ls).lists p i)
    (hr : (activate s p i d env alloc ls).updates ≠ s.updates) : Alone s p i ls := by
  have hsound := h.sound.activate hls d env alloc
  rcases activate_cases h.sound hls d env alloc with ⟨u, rfl, hu⟩ | ⟨-, hu⟩
  · intro v hv hvn hnum
    have hmem : v.2.tg ∈ recorded s.updates ls.netid := mem_recorded.mpr ⟨v, hv, hvn, rfl⟩
    obtain ⟨tg, htg, hkey⟩ : ∃ tg ∈ fill TgCb.tgNumber (recorded s.updates ls.netid),
        tg.tgNumber = v.2.tgNumber := exists_mem_fill hmem
    obtain ⟨w, hw, hwn, rfl⟩ := mem_recorded.mp (mem_of_mem_fill htg)
    have hlink := h.apart w hw v hv (sameNetid_of_common hwn hvn) hkey
    by_contra hne
    have hkept := (hk ls.netid w.2.tg fun hpi => hne (Prod.mk.inj (hlink.symm.trans hpi))).1
      (by rw [h.sound.known.filled]; exact htg)
    rw [hsound.known.filled, hu, recorded_concat, if_pos ((sameNetid_iff _ _).mpr ⟨rfl, rfl⟩),
      fill_concat] at hkept
    have hnew : w.2.tg = _ := eq_of_mem_put nodup_fill hkept (hkey.trans hnum).symm
    exact hne (Prod.mk.inj (hlink.symm.trans (congrArg (fun t => (t.portIndex, t.lsIndex)) hnew)))
  · exact absurd hu hr

end Activate

theorem activate_iff {s : State} (h : Apt s) {p i d : UInt32} {env : Env} {alloc : TgAlloc}
    (hr : Recorded s (.activate p i d env alloc)) :
    Right s (.activate p i d env alloc) ↔ Meets s (.activate p i d env alloc) := by
  cases hls : station s.lists p i with
  | none => simp [Right, Meets, step, hls]
  | some ls =>
    have hR : Right s (.activate p i d env alloc) ↔
        KeepsOthers s.lists (activate s p i d env alloc ls).lists p i := by
      simp [Right, step, hls]
    have hM : Meets s (.activate p i d env alloc) ↔ Alone s p i ls := by
      simp only [Meets, hls, Option.mem_def, Option.some.injEq, forall_eq']
    rw [hR, hM]
    exact ⟨fun hk => alone_of_keepsOthers h hls hk (hr ls hls), fun ha => keepsOthers_of_alone h hls ha⟩

theorem right_of_meets {s : State} (h : Apt s) {e : Event} (hm : Meets s e) : Right s e := by
  cases e with
  | exchange | reset => trivial
  | activate p i d env alloc =>
    intro s' hs
    obtain ⟨ls, hls, rfl⟩ := Option.map_eq_some_iff.mp hs
    exact keepsOthers_of_alone h hls (hm ls hls)
  | initSig init => exact (initSig_iff h init).mpr hm
  | wake w => exact (wake_iff h w).mpr hm

theorem right_iff {s : State} (h : Apt s) {e : Event} (hr : Recorded s e) : Right s e ↔ Meets s e := by
  cases e with
  | exchange | reset => exact Iff.rfl
  | activate p i d env alloc => exact activate_iff h hr
  | initSig init => exact initSig_iff h init
  | wake w => exact wake_iff h w

/-! ## Runs -/

theorem PartnerIs.of_identity {l l' : Lists} {p i : UInt32} {remote : Netid}
    (h : (station l' p i).map identity = (station l p i).map identity)
    (hp : PartnerIs l p i remote) : PartnerIs l' p i remote := by
  obtain ⟨ls, hls, hr⟩ := hp
  rw [hls] at h
  obtain ⟨ls', hls', he⟩ := Option.map_eq_some_iff.mp h
  have hplu : ls'.pluName = ls.pluName := congrArg (·.2.2.2) he
  exact ⟨ls', hls', hplu ▸ hr⟩

/-- A link that is recorded under a number of its own leaves the links apart. -/
theorem Apart.concat {s : State} (h : Apart s) {n plu : Netid} {k : UInt8} {p i d : UInt32}
    (ha : ∀ u ∈ s.updates, sameNetid u.1 n = true → u.2.tgNumber = k →
      u.2.portIndex = p ∧ u.2.lsIndex = i) {s' : State}
    (hu : s'.updates = s.updates ++ [(n, ⟨plu, k, i, p, d⟩)]) : Apart s' := by
  intro u hmu v hmv hnode hnum
  rw [hu, List.mem_append, List.mem_singleton] at hmu hmv
  rcases hmu with hmu | rfl
  · rcases hmv with hmv | rfl
    · exact h u hmu v hmv hnode hnum
    · obtain ⟨h₁, h₂⟩ := ha u hmu hnode hnum
      exact Prod.ext h₁ h₂
  · rcases hmv with hmv | rfl
    · have hnode : sameNetid v.1 n = true :=
        (sameNetid_iff v.1 n).mpr (((sameNetid_iff n v.1).mp hnode).imp Eq.symm Eq.symm)
      obtain ⟨h₁, h₂⟩ := ha v hmv hnode hnum.symm
      exact Prod.ext h₁.symm h₂.symm
    · rfl

theorem Apt.step {s s' : State} (h : Apt s) {e : Event} (hm : Meets s e)
    (hs : step s e = some s') : Apt s' := by
  have hpartner : ∀ w ∈ s.sleeping, PartnerIs s'.lists w.portIndex w.lsIndex w.init.remoteName :=
    fun w hw => (h.sleeping w hw).of_identity (identity_step hs w.portIndex w.lsIndex)
  have hsound := h.sound.step hs
  rcases step_cases hs with ⟨p, i, ls, ls', -, -, -, rfl⟩ |
    ⟨p, i, d, env, alloc, ls, rfl, hls, rfl⟩ | ⟨sleeping, rfl, hsl⟩
  · exact ⟨hsound, h.apart, hpartner⟩
  · have hsleeping : (activate s p i d env alloc ls).sleeping = s.sleeping := by
      obtain ⟨ls', -, -, -, hr⟩ := activate_shape s p i d env alloc ls
      obtain ⟨_, _, ht⟩ := tgActivate_lists (s.giveBack p i ls') ls' d alloc
      rcases hr with hr | hr
      · rw [hr]
        rfl
      · rw [hr, ht]
        rfl
    refine ⟨hsound, ?_, hsleeping ▸ hpartner⟩
    rcases activate_cases h.sound hls d env alloc with ⟨u, rfl, hu⟩ | ⟨-, hu⟩
    · exact h.apart.concat (hm ls hls) hu
    · intro u hmu v hmv
      rw [hu] at hmu hmv
      exact h.apart u hmu v hmv
  · refine ⟨hsound, h.apart, fun w hw => ?_⟩
    rcases hsl w hw with hw | ⟨rfl, ho⟩
    · exact h.sleeping w hw
    · have hright := (initSig_iff h w.init).mpr hm
      unfold Right at hright
      dsimp only at hright
      rw [ho] at hright
      exact hright

/-- Nodes whose links have not been activated, and their link stations. -/
structure Initial (s : State) : Prop where
  tgList : ∀ node ∈ s.lists.nodeList, node.tgList = []
  updates : s.updates = []
  sleeping : s.sleeping = []
  pcList : s.lists.pcList = []
  port : ∀ port ∈ s.lists.portList, ∀ ls ∈ port.lsList, ls.portIndex = port.index
  pcIndex : ∀ port ∈ s.lists.portList, ∀ ls ∈ port.lsList, ls.pcIndex = 0

theorem Initial.apt {s : State} (h : Initial s) : Apt s := by
  have hmem : ∀ p i ls, station s.lists p i = some ls →
      ∃ port ∈ s.lists.portList, port.index = p ∧ ls ∈ port.lsList := fun p i ls hls => by
    obtain ⟨port, hp, hl⟩ := Option.bind_eq_some_iff.mp hls
    exact ⟨port, mem_of_find hp, key_of_find hp, mem_of_find hl⟩
  refine ⟨⟨⟨?_, ?_, ?_⟩, ⟨?_, ?_⟩⟩, ?_, ?_⟩
  · intro p i ls hls
    obtain ⟨port, hp, rfl, hl⟩ := hmem p i ls hls
    exact h.port port hp ls hl
  · rw [h.pcList]
    rfl
  · intro p i ls hls hne
    obtain ⟨port, hp, -, hl⟩ := hmem p i ls hls
    exact absurd (h.pcIndex port hp ls hl) hne
  · intro n
    rw [h.updates]
    show Route.tgList s.lists n = []
    unfold Route.tgList
    cases hnode : tdmNodeGetByNetid s.lists n with
    | none => rfl
    | some node => exact h.tgList node (List.mem_of_find?_eq_some hnode)
  · rw [h.updates]
    exact nofun
  · intro u hu
    rw [h.updates] at hu
    cases hu
  · rw [h.sleeping]
    exact nofun

/-- In every run whose steps meet the condition all init signals are led to their remote
names, and no activation touches another link; and in a run in which every activation gets as
far as the topology, no other steps are right. -/
theorem init_routed (s : State) (h : Initial s) (es : List Event) :
    (Along step Meets s es → Along step Right s es) ∧
      (Along step Recorded s es → Along step Right s es → Along step Meets s es) := by
  constructor
  · exact fun hm => along_of_invariant (fun _ _ _ ha hm hs => Apt.step ha hm hs)
      (fun _ _ ha hm => right_of_meets ha hm) h.apt hm
  · intro hr hright
    have hiff : Along step (fun s e => Recorded s e ∧ Right s e) s es ↔
        Along step (fun s e => Recorded s e ∧ Meets s e) s es :=
      along_iff (fun _ _ _ ha hm hs => Apt.step ha hm.2 hs)
        (fun _ _ ha => and_congr_right fun hr => right_iff ha hr) h.apt
    exact (along_and.mp (hiff.mp (along_and.mpr ⟨hr, hright⟩))).2

/-! ## Two links of a node -/

/-- `NET.C` -/
def netC : Netid := ⟨[0x4E, 0x45, 0x54, 0, 0, 0, 0, 0, 0], [0x43, 0, 0, 0, 0, 0, 0, 0, 0]⟩

/-- A link station of `NET.A` that has exchanged its XIDs with a partner, under the
transmission group number 0 of which both are content. -/
def linkTo (partner : Netid) (index : UInt32) : Ls :=
  { defineLs ⟨.neg, .dirBoth, true, 3, 0, Nof.netA, partner⟩ 1 false 1 index with
    state := .activated, running := true, xidState := .sPriRSec, llcSk := true }

/-- `NET.A`, with a link to `NET.B` and one to `NET.C` -/
def twoLinks : State where
  lists := { noNodes with
    portList := [⟨1, Nof.netA, true, [linkTo Nof.netB 1, linkTo netC 2]⟩]
    nodeList := [⟨Nof.netA, []⟩] }
  pcSystemIndex := 0
  sleeping := []
  updates := []

theorem initial_twoLinks : Initial twoLinks :=
  ⟨by decide, rfl, rfl, rfl, by decide, by decide⟩

theorem init_routed_one : Along step Right twoLinks
    [.activate 1 1 1 {} ⟨true, true⟩, .initSig ⟨7, Nof.netA, Nof.netB⟩] :=
  (init_routed twoLinks initial_twoLinks _).1 (by decide +kernel)

/-- Both links are activated, and a session is asked for with `NET.B`. -/
def askForB : List Event :=
  [.activate 1 1 1 {} ⟨true, true⟩, .activate 1 2 1 {} ⟨true, true⟩, .initSig ⟨7, Nof.netA, Nof.netB⟩]

/-- The link to `NET.C` has taken the place of the one to `NET.B`, and the session is routed
over it. -/
theorem askForB_misrouted : Initial twoLinks ∧ ¬ Along step Right twoLinks askForB ∧
    (run step twoLinks (askForB.take 2)).map (fun s =>
      (tgList s.lists Nof.netA, ssProcInitSig s.lists ⟨7, Nof.netA, Nof.netB⟩)) =
      some ([⟨0, 2, 1, 1⟩], .cinitRsp 2) := by
  refine ⟨initial_twoLinks, fun h => ?_, by decide +kernel⟩
  obtain ⟨s, hs, hout⟩ : ∃ s, run step twoLinks (askForB.take 2) = some s ∧
      ssProcInitSig s.lists ⟨7, Nof.netA, Nof.netB⟩ = .cinitRsp 2 ∧
      pcGetByIndex s.lists.pcList 2 = some ⟨2, 1, 2⟩ ∧
      (station s.lists 1 2).map (·.pluName) = some netC := ⟨_, rfl, by decide +kernel⟩
  obtain ⟨s₁, hs₁, hs⟩ := run_cons.mp hs
  obtain ⟨s₂, hs₂, hs⟩ := run_cons.mp hs
  cases hs
  have hright := ((h.2 s₁ hs₁).2 _ hs₂).1
  unfold Right at hright
  dsimp only at hright
  rw [hout.1] at hright
  obtain ⟨pc, hpc, ls, hls, hplu⟩ := hright
  rw [hout.2.1] at hpc
  obtain rfl := Option.some.inj hpc
  have hC : ls.pluName = netC := by
    have hm := hout.2.2
    rw [hls] at hm
    exact Option.some.inj hm
  rw [hC] at hplu
  exact absurd hplu (by decide)

end LinuxSna.Route
