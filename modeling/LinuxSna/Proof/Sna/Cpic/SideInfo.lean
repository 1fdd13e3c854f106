import LinuxSna.Framework.Table
import LinuxSna.Spec.SideInfo

/-!
# Names in the side information table

An entry keeps its name with blanks behind it, and `strncmp` with a name that ends before the eighth
character never finds it: only names of 8 characters are found by registering and unregistering
(`sideInfoByName_eq`). Initialize_Conversation asks with the blanks (`found_of_tidy`).

* `right_of_clear`, `not_right`: a call by call comparison;
* `sane_iff`: over all sequences of calls.
-/

namespace LinuxSna.Cpic

open Framework

variable {t t' : SideTable} {d : Naming} {e : SideEntry} {c : SideCall}

/-! ## Names in buffers -/

/-- What `sna_cpic_register_side_info` leaves in an entry -/
structure SideEntry.Tidy (e : SideEntry) : Prop where
  length : e.name.length = 8
  plain : 0 ∉ e.name
  ne_blank : e.name ≠ blankName

theorem takeWhile_plain {s : List UInt8} (h : 0 ∉ s) : s.takeWhile (· ≠ 0) = s := by
  rw [List.takeWhile_eq_self_iff]
  intro b hb
  exact decide_eq_true (ne_of_mem_of_not_mem hb h)

theorem padded_plain {n : Nat} {s : List UInt8} (h : 0 ∉ s) (hn : s.length ≤ n) :
    padded n s = s ++ List.replicate (n - s.length) 0 := by
  unfold padded
  rw [List.take_of_length_le hn, takeWhile_plain h]

theorem padded_name (h : e.Tidy) : padded 8 e.symDestName = e.name := by
  have htake : (e.symDestName.take 8).takeWhile (· ≠ 0) = e.name := takeWhile_plain h.plain
  unfold padded
  simp only [htake, h.length, Nat.sub_self, List.replicate_zero, List.append_nil]

theorem named_iff (h : e.Tidy) (name : List UInt8) :
    SideEntry.named name e = true ↔ e.name = padded 8 name := by
  unfold SideEntry.named
  rw [decide_eq_true_iff, strncmp_eq_zero_iff, padded_name h]

theorem named_name (h : e.Tidy) {f : SideEntry} (hf : f.Tidy) :
    SideEntry.named e.name f = true ↔ f.name = e.name := by
  rw [named_iff hf, padded_plain h.plain h.length.le, h.length, Nat.sub_self,
    List.replicate_zero, List.append_nil]

/-- A shorter name is not the name of an entry, with whatever blanks. -/
theorem named_naming (h : e.Tidy) :
    SideEntry.named d.side.symDestName e = true ↔
      d.side.symDestName.length = 8 ∧ e.name = d.name := by
  rw [named_iff h, padded_plain d.plain d.le, Naming.name, padName]
  by_cases h8 : d.side.symDestName.length = 8
  · rw [and_iff_right h8, h8]
    rfl
  · refine iff_of_false (fun heq => h.plain ?_) fun h' => h8 h'.1
    have hle := d.le
    rw [heq]
    exact List.mem_append_right _ (List.mem_replicate.mpr ⟨by omega, rfl⟩)

theorem name_of (d : Naming) (index : UInt32) : (SideEntry.of d.side index).name = d.name := by
  have hle := d.le
  have hlen : strlen (padded resourceNameLen d.side.symDestName) = d.side.symDestName.length := by
    rw [padded_plain d.plain (hle.trans (by decide)), strlen,
      List.takeWhile_append_of_pos fun b hb => decide_eq_true (ne_of_mem_of_not_mem hb d.plain)]
    simp
  show (blankPadded (padded resourceNameLen d.side.symDestName)).take 8 = padName d.side.symDestName
  unfold blankPadded
  rw [hlen, padded_plain d.plain (hle.trans (by decide)), List.take_left' rfl,
    List.take_left' (by rw [List.length_append, List.length_replicate]; omega)]
  rfl

theorem tidy_of (hd : d.name ≠ blankName) (index : UInt32) : (SideEntry.of d.side index).Tidy := by
  have hle := d.le
  refine ⟨?_, ?_, ?_⟩
  · rw [name_of, Naming.name, padName, List.length_append, List.length_replicate]
    omega
  · rw [name_of, Naming.name, padName, List.mem_append, not_or]
    exact ⟨d.plain, fun hm => absurd (List.eq_of_mem_replicate hm) (by decide)⟩
  · rwa [name_of]

/-! ## The table -/

structure SideTable.Tidy (t : SideTable) : Prop where
  nodup : (t.sideList.map SideEntry.name).Nodup
  tidy : ∀ e ∈ t.sideList, e.Tidy

theorem sideInfoByName_eq (h : t.Tidy) (d : Naming) :
    sideInfoByName t d.side.symDestName =
      if d.side.symDestName.length = 8 then find SideEntry.name d.name t.sideList else none := by
  unfold sideInfoByName
  by_cases h8 : d.side.symDestName.length = 8
  · rw [if_pos h8]
    apply List.find?_congr
    intro e he
    rw [Bool.eq_iff_iff, named_naming (h.tidy e he), and_iff_right h8, decide_eq_true_iff]
  · rw [if_neg h8, List.find?_eq_none]
    intro e he hn
    exact h8 ((named_naming (h.tidy e he)).mp hn).1

theorem present_iff {name : List UInt8} :
    t.Present name ↔ name ∈ t.sideList.map SideEntry.name := by
  rw [List.mem_map]
  rfl

theorem found_of_tidy (h : t.Tidy) : t.Sane where
  nodup := h.nodup
  found e he w a hw hname := by
    have hte := h.tidy e he
    have hfind : sideInfoByName t e.name = some e := by
      rw [← find_of_mem h.nodup he]
      apply List.find?_congr
      intro f hf
      rw [Bool.eq_iff_iff, named_name hte (h.tidy f hf), decide_eq_true_iff]
    have hget : sideInfoGetByName w e.name = some e.sideInfo := by
      unfold sideInfoGetByName
      rw [hw, SideTable.view, List.find?_map, Option.map_map]
      exact congrArg (Option.map _) hfind
    unfold cminitCall
    simp only [hname, hget]
    exact if_neg hte.ne_blank

/-- Initialize_Conversation looks nothing up for a name of blanks. -/
theorem not_sane_of_blank (he : e ∈ t.sideList) (hb : e.name = blankName) : ¬ t.Sane := by
  intro h
  have hfound := h.found e he ⟨t.view, [], [], 0, [[]], []⟩ ⟨blankName, some 0, some 0, true, true⟩ rfl
    (by rw [hb]; rfl)
  have hnone : cminitCall ⟨t.view, [], [], 0, [[]], []⟩ ⟨blankName, some 0, some 0, true, true⟩ =
      none := rfl
  rw [hnone] at hfound
  exact absurd hfound nofun

/-! ## Calls -/

theorem enomem_ne : -enomem ≠ -eexist := by decide

theorem zero_ne_eexist : (0 : Int) ≠ -eexist := by decide

theorem enoent_ne : -enoent ≠ 0 := by decide

theorem sideInfoByName_absent (h : t.Tidy) (ha : ¬ t.Present d.name) :
    sideInfoByName t d.side.symDestName = none := by
  rw [sideInfoByName_eq h]
  split
  · exact find_eq_none.mpr (mt present_iff.mpr ha)
  · rfl

theorem exists_of_present (h : t.Tidy) (h8 : d.side.symDestName.length = 8)
    (hp : t.Present d.name) : ∃ e, sideInfoByName t d.side.symDestName = some e := by
  obtain ⟨e, he, hn⟩ := hp
  rw [sideInfoByName_eq h, if_pos h8, ← hn, find_of_mem h.nodup he]
  exact ⟨e, rfl⟩

theorem right_of_clear (h : t.Tidy) (hc : t.Clear c) : t.Right c := by
  cases c with
  | register d alloc =>
    intro hp
    obtain ⟨e, he⟩ := exists_of_present h (hc.1.resolve_right (not_not.mpr hp)) hp
    rw [registerSideInfo, he]
  | unregister d =>
    intro hp
    have h8 := Or.resolve_right hc (not_not.mpr hp)
    obtain ⟨e, he⟩ := exists_of_present h h8 hp
    have hmem : e ∈ t.sideList := List.mem_of_find?_eq_some he
    have hnamed : SideEntry.named d.side.symDestName e = true := List.find?_some he
    obtain ⟨f, before, after, -, hf, hsplit, herase⟩ := List.exists_of_eraseP hmem hnamed
    have hft := h.tidy f (hsplit ▸ List.mem_append_right _ List.mem_cons_self)
    refine ⟨before, f, after, hsplit, ((named_naming hft).mp hf).2, ?_⟩
    rw [unregisterSideInfo, he, herase]

/-- With a shorter name the entry is not found, so that it is registered again or stays. -/
theorem not_right (h : t.Tidy) {d : Naming} (h8 : d.side.symDestName.length ≠ 8)
    (hp : t.Present d.name) (alloc : Bool) :
    ¬ t.Right (.register d alloc) ∧ ¬ t.Right (.unregister d) := by
  have hnone : sideInfoByName t d.side.symDestName = none := by
    rw [sideInfoByName_eq h, if_neg h8]
  constructor
  · intro hr
    have heq := hr hp
    rw [registerSideInfo, hnone] at heq
    cases alloc with
    | false => exact absurd (congrArg Prod.fst (Option.some.inj heq)) enomem_ne
    | true =>
      obtain ⟨i, -, hi⟩ := Option.map_eq_some_iff.mp heq
      exact absurd (congrArg Prod.fst hi) zero_ne_eexist
  · intro hr
    obtain ⟨before, e, after, -, -, heq⟩ := hr hp
    rw [unregisterSideInfo, hnone] at heq
    exact absurd (congrArg Prod.fst heq) enoent_ne

/-- The table after a call that goes through -/
theorem step_cases (h : t.step c = some t') :
    t' = t ∨ (∃ d index, c = .register d true ∧ sideInfoByName t d.side.symDestName = none ∧
      t' = ⟨t.sideList ++ [.of d.side index], index⟩) ∨
    ∃ name, t' = { t with sideList := t.sideList.eraseP (SideEntry.named name) } := by
  cases c with
  | register d alloc =>
    obtain ⟨r, hr, rfl⟩ := Option.map_eq_some_iff.mp h
    unfold registerSideInfo at hr
    cases hf : sideInfoByName t d.side.symDestName with
    | some e =>
      simp only [hf, Option.some.injEq] at hr
      exact .inl (by rw [← hr])
    | none =>
      cases alloc with
      | false =>
        simp only [hf, Bool.not_false, if_true, Option.some.injEq] at hr
        exact .inl (by rw [← hr])
      | true =>
        simp only [hf, Bool.not_true, Bool.false_eq_true, if_false, Option.map_eq_some_iff] at hr
        obtain ⟨index, -, rfl⟩ := hr
        exact .inr (.inl ⟨d, index, rfl, hf, rfl⟩)
  | unregister d =>
    obtain rfl := Option.some.inj h
    unfold unregisterSideInfo
    split
    · exact .inr (.inr ⟨d.side.symDestName, rfl⟩)
    · exact .inl rfl

theorem tidy_step (h : t.Tidy) (hc : t.Clear c) (hs : t.step c = some t') : t'.Tidy := by
  rcases step_cases hs with rfl | ⟨d, index, rfl, hf, rfl⟩ | ⟨name, rfl⟩
  · exact h
  · have habsent : ¬ t.Present d.name := by
      intro hp
      obtain ⟨e, he⟩ := exists_of_present h (hc.1.resolve_right (not_not.mpr hp)) hp
      rw [hf] at he
      exact absurd he nofun
    constructor
    · apply nodup_map_append h.nodup
      rw [name_of]
      exact mt present_iff.mpr habsent
    · intro e he
      rcases List.mem_append.mp he with he | he
      · exact h.tidy e he
      · rw [List.mem_singleton.mp he]
        exact tidy_of (hc.2 rfl) index
  · have hsub : (t.sideList.eraseP (SideEntry.named name)).Sublist t.sideList :=
      List.eraseP_sublist
    exact ⟨h.nodup.sublist (hsub.map _), fun e he => h.tidy e (hsub.subset he)⟩

theorem bad_step (h : t.Tidy) (hc : ¬ t.Clear c) (hs : t.step c = some t') :
    ¬ (t.Right c ∧ t'.Sane) := by
  rintro ⟨hr, hsane⟩
  cases c with
  | register d alloc =>
    by_cases hclear : d.side.symDestName.length = 8 ∨ ¬ t.Present d.name
    · have hb : alloc = true ∧ d.name = blankName := by
        by_contra hb
        exact hc ⟨hclear, fun ha hn => hb ⟨ha, hn⟩⟩
      obtain ⟨rfl, hb⟩ := hb
      have habsent : ¬ t.Present d.name := by
        rintro ⟨e, he, hn⟩
        exact (h.tidy e he).ne_blank (hn.trans hb)
      have hf := sideInfoByName_absent h habsent
      simp only [SideTable.step, registerSideInfo, hf, Bool.not_true, Bool.false_eq_true, if_false,
        Option.map_map, Option.map_eq_some_iff] at hs
      obtain ⟨index, -, rfl⟩ := hs
      refine not_sane_of_blank (e := .of d.side index) ?_ ((name_of d index).trans hb) hsane
      exact List.mem_append_right _ (List.mem_singleton_self _)
    · rw [not_or, not_not] at hclear
      exact (not_right h hclear.1 hclear.2 alloc).1 hr
  | unregister d =>
    rw [SideTable.Clear, not_or, not_not] at hc
    exact (not_right h hc.1 hc.2 true).2 hr

theorem tidy_empty : SideTable.empty.Tidy := ⟨List.nodup_nil, fun _ he => absurd he List.not_mem_nil⟩

/-- A sequence of calls keeps one entry for a name, refuses a name that is there, takes out what it
should, and leaves what Initialize_Conversation finds, exactly if each call has a name of 8 characters
or one that is not in the table, and no name of blanks is registered. -/
theorem sane_iff {cs : List SideCall} (h : run SideTable.step .empty cs = some t) :
    Along SideTable.step SideTable.Right .empty cs ∧ Always SideTable.step SideTable.Sane .empty cs ↔
      Along SideTable.step SideTable.Clear .empty cs :=
  along_always_iff (fun _ => found_of_tidy)
    (fun _ _ _ ht hc hs => ⟨right_of_clear ht hc, tidy_step ht hc hs⟩)
    (fun _ _ _ ht hc hs => bad_step ht hc hs) tidy_empty h

/-- A name of 8 characters -/
def namingEight : Naming where
  side := ⟨⟨[], []⟩, ⟨[], []⟩, [65, 66, 67, 68, 69, 70, 71, 72], [], [], 0, 0, [], []⟩
  plain := by decide
  pos := by decide
  le := by decide

/-- AFTPD -/
def namingFive : Naming where
  side := ⟨⟨[], []⟩, ⟨[], []⟩, [65, 70, 84, 80, 68], [], [], 0, 0, [], []⟩
  plain := by decide
  pos := by decide
  le := by decide

theorem sane_iff_eight :
    Along SideTable.step SideTable.Right .empty [.register namingEight true, .unregister namingEight] ∧
      Always SideTable.step SideTable.Sane .empty
        [.register namingEight true, .unregister namingEight] ↔
    Along SideTable.step SideTable.Clear .empty [.register namingEight true, .unregister namingEight] :=
  sane_iff (t := ⟨[], 1⟩) (by decide)

/-- AFTPD is registered twice and cannot be taken out. -/
theorem short_name_registered_twice :
    ∃ t, run SideTable.step .empty [.register namingFive true, .register namingFive true] = some t ∧
      t.sideList.map SideEntry.name = [namingFive.name, namingFive.name] ∧
      unregisterSideInfo t namingFive.side = (-enoent, t) :=
  ⟨⟨[.of namingFive.side 1, .of namingFive.side 2], 2⟩, by decide, by decide, by decide⟩

end LinuxSna.Cpic
