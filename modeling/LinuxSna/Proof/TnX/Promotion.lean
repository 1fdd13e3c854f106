import LinuxSna.Proof.TnX.ConfigScopes
import LinuxSna.Spec.ConfigFile

/-!
# Promoting variables

`tnX_config_promote` walks the list of variables to which `tnX_config_set` appends. Every variable is
visited once, those that were appended included, and a visit writes one name only, which is shorter:
so the walk ends (`promotePass_shorter`). What a name holds after some visits is what the variable
under the prefix held when it was visited (`Walk.step`, by the visit).

`promoted_iff` is read off the walk that has ended: upwards through the names that have the prefix
once more (`Unmixed.seen_eq`).
-/

namespace LinuxSna.TnX

open Framework ConfigFile

variable {cell : List (List UInt8) → List UInt8} {pre name n : List UInt8} {c c' : Config}

/-! ## Names under a prefix -/

theorem under_injective : Function.Injective (under pre) := by
  intro a b h
  exact (List.cons.inj (List.append_cancel_left h)).2

theorem length_under : (under pre name).length = pre.length + (name.length + 1) := by
  rw [under, List.length_append, List.length_cons]

theorem under_ne : under pre name ≠ name := by
  intro h
  have := congrArg List.length h
  rw [length_under] at this
  omega

theorem behindPrefix_under : behindPrefix pre (under pre name) = some name := by
  unfold behindPrefix
  have hlen : pre.length ≤ (under pre name).length + 2 := by
    rw [length_under]
    omega
  rw [if_pos ⟨hlen, by simp [under], by simp [under]⟩]
  simp [under, List.drop_append]

theorem eq_under_of_behindPrefix (h : behindPrefix pre n = some name) : n = under pre name := by
  unfold behindPrefix at h
  split at h
  · rename_i hn
    obtain ⟨-, htake, hdot⟩ := hn
    obtain ⟨hlt, hget⟩ := List.getElem?_eq_some_iff.mp hdot
    have hdrop : n.drop pre.length = dot :: n.drop (pre.length + 1) := by
      rw [List.drop_eq_getElem_cons hlt, hget]
    calc n = n.take pre.length ++ n.drop pre.length := (List.take_append_drop ..).symm
      _ = pre ++ dot :: n.drop (pre.length + 1) := by rw [htake, hdrop]
      _ = under pre name := by rw [← Option.some.inj h, under]
  · exact absurd h nofun

/-! ## Strings given to a store of strings -/

theorem configGet_ne_none : configGet c name ≠ none ↔ name ∈ c.map ConfigStr.name := by
  unfold configGet configGetStr
  rw [ne_eq, Option.map_eq_none_iff, find_eq_none, not_not]

theorem configGet_eq_none : configGet c name = none ↔ name ∉ c.map ConfigStr.name := by
  rw [← configGet_ne_none, not_not]

theorem StringStore.get (h : StringStore c) {value : ConfigValue}
    (hg : configGet c name = some value) : ∃ s, value = .string s := by
  obtain ⟨a, ha, rfl⟩ := Option.map_eq_some_iff.mp hg
  exact h.string a (mem_of_find ha)

theorem StringStore.get_of_mem (h : StringStore c) {a : ConfigStr} (ha : a ∈ c) :
    configGet c a.name = some a.value := by
  unfold configGet configGetStr
  rw [find_of_mem h.nodup ha, Option.map_some]

/-- A string is written over, or appended. -/
theorem StringStore.names_putString (h : StringStore c) (name value : List UInt8) :
    (putString c name value).map ConfigStr.name = c.map ConfigStr.name ∧
        name ∈ c.map ConfigStr.name ∨
      (putString c name value).map ConfigStr.name = c.map ConfigStr.name ++ [name] ∧
        name ∉ c.map ConfigStr.name := by
  unfold putString
  split
  · rename_i old hg
    have hm : name ∈ c.map ConfigStr.name := configGet_ne_none.mp (by rw [hg]; exact nofun)
    exact .inl ⟨map_key_update fun _ _ => rfl, hm⟩
  · rename_i hg
    refine .inr ⟨List.map_append, configGet_eq_none.mp ?_⟩
    by_contra hne
    obtain ⟨value, hv⟩ := Option.ne_none_iff_exists'.mp hne
    obtain ⟨s, rfl⟩ := h.get hv
    exact hg s hv

theorem StringStore.put (h : StringStore c) (name value : List UInt8) :
    StringStore (putString c name value) := by
  constructor
  · rcases h.names_putString name value with ⟨heq, -⟩ | ⟨heq, hm⟩
    · rw [heq]
      exact h.nodup
    · rw [heq]
      exact List.nodup_append.mpr ⟨h.nodup, List.nodup_singleton _, by
        intro a ha b hb hab
        rw [List.mem_singleton.mp hb] at hab
        exact hm (hab ▸ ha)⟩
  · intro s hs
    unfold putString at hs
    split at hs
    · rcases mem_update hs with hs | ⟨a, -, rfl⟩
      · exact h.string s hs
      · exact ⟨value, rfl⟩
    · rcases List.mem_append.mp hs with hs | hs
      · exact h.string s hs
      · rw [List.mem_singleton.mp hs]
        exact ⟨value, rfl⟩

theorem StringStore.get_putString (h : StringStore c) (name value path : List UInt8) :
    configGet (putString c name value) path =
      if name = path then some (.string value) else configGet c path := by
  rw [configGet_putString]
  split
  · split
    · rename_i items hg
      obtain ⟨s, hs⟩ := h.get hg
      exact absurd hs nofun
    · rfl
  · rfl

/-! ## The walk -/

/-- Where the variable stands in the list, or how long the list is -/
def place (c : Config) (name : List UInt8) : Nat := (c.map ConfigStr.name).idxOf name

/-- Appending a name does not move another one in front of a variable of the list. -/
theorem place_lt_congr {y : List UInt8}
    (h : c'.map ConfigStr.name = c.map ConfigStr.name ∨
      c'.map ConfigStr.name = c.map ConfigStr.name ++ [y]) (n : List UInt8) {k : Nat}
    (hk : k ≤ c.length) : place c' n < k ↔ place c n < k := by
  unfold place
  rcases h with h | h
  · rw [h]
  · rw [h, List.idxOf_append]
    split
    · rfl
    · rename_i hn
      have hlen := List.idxOf_of_notMem hn
      rw [List.length_map] at hlen ⊢
      omega

theorem place_lt_length : place c n < c.length ↔ n ∈ c.map ConfigStr.name := by
  rw [place, ← List.length_map ConfigStr.name, List.idxOf_lt_length_iff]

theorem place_eq_iff {c₁ : Config} (h : StringStore c₁) {data : ConfigStr} {i : Nat}
    (hd : c₁[i]? = some data) : place c₁ n = i ↔ n = data.name := by
  obtain ⟨hi, hget⟩ := List.getElem?_eq_some_iff.mp hd
  have hi' : i < (c₁.map ConfigStr.name).length := by rwa [List.length_map]
  have hname : (c₁.map ConfigStr.name)[i] = data.name := by rw [List.getElem_map, hget]
  unfold place
  constructor
  · rintro rfl
    rw [← hname, List.getElem_idxOf]
  · rintro rfl
    rw [← hname, h.nodup.idxOf_getElem]

/-- After some visits, `seen` being what a variable held when it was visited: the visit to the
variable under the prefix is the one that writes a name. -/
structure Walk (pre : List UInt8) (c : Config) (t : Config × Nat)
    (seen : List UInt8 → Option ConfigValue) : Prop where
  store : StringStore t.1
  iter_le : t.2 ≤ t.1.length
  grown : c.map ConfigStr.name <+: t.1.map ConfigStr.name
  held : ∀ n, configGet t.1 n =
    if place t.1 (under pre n) < t.2 then seen (under pre n) else configGet c n
  visited : ∀ n, place t.1 n < t.2 → seen n =
    if place t.1 (under pre n) < place t.1 n then seen (under pre n) else configGet c n
  appended : ∀ n ∈ t.1.map ConfigStr.name, n ∉ c.map ConfigStr.name →
    place t.1 (under pre n) < t.2 ∧ place t.1 (under pre n) < place t.1 n

theorem Walk.start (h : StringStore c) : Walk pre c (c, 0) fun _ => none where
  store := h
  iter_le := Nat.zero_le _
  grown := List.prefix_rfl
  held n := by rw [if_neg (Nat.not_lt_zero _)]
  visited n hn := absurd hn (Nat.not_lt_zero _)
  appended n hn hnc := absurd hn hnc

/-- What a visit to `data` does to the list: the names stay, or one that is shorter is appended. -/
structure Visit (pre : List UInt8) (data : ConfigStr) (c c' : Config) : Prop where
  store : StringStore c'
  names : c'.map ConfigStr.name = c.map ConfigStr.name ∨ ∃ y, data.name = under pre y ∧
    y ∉ c.map ConfigStr.name ∧ c'.map ConfigStr.name = c.map ConfigStr.name ++ [y]
  get : ∀ n, configGet c' n = if under pre n = data.name then some data.value else configGet c n

theorem promotePass_visit {c₁ : Config} (h : StringStore c₁) {data : ConfigStr} {i : Nat}
    (hd : c₁[i]? = some data) :
    ∃ c₂, promotePass cell pre (c₁, i) = .inl (c₂, i + 1) ∧ Visit pre data c₁ c₂ := by
  unfold promotePass
  simp only [hd]
  cases hb : behindPrefix pre data.name with
  | none =>
    refine ⟨c₁, rfl, h, .inl rfl, fun n => ?_⟩
    have hne : under pre n ≠ data.name := by
      intro hn
      rw [← hn, behindPrefix_under] at hb
      exact absurd hb nofun
    rw [if_neg hne]
  | some y =>
    obtain ⟨v, hv⟩ := h.string data (List.mem_of_getElem? hd)
    have hname := eq_under_of_behindPrefix hb
    simp only [hv, configSet_string]
    refine ⟨putString c₁ y v, rfl, h.put y v, ?_, fun n => ?_⟩
    · rcases h.names_putString y v with ⟨hn, -⟩ | ⟨hn, hy⟩
      · exact .inl hn
      · exact .inr ⟨y, hname, hy, hn⟩
    · rw [h.get_putString, hname, hv]
      by_cases hn : y = n
      · rw [if_pos hn, if_pos (congrArg (under pre) hn.symm)]
      · rw [if_neg hn, if_neg fun hu => hn (under_injective hu).symm]

theorem Visit.place_lt {data : ConfigStr} (hv : Visit pre data c c') (n : List UInt8) {k : Nat}
    (hk : k ≤ c.length) : place c' n < k ↔ place c n < k := by
  rcases hv.names with hn | ⟨y, -, -, hn⟩
  · exact place_lt_congr (.inl hn : _ ∨ _ = _ ++ [[]]) n hk
  · exact place_lt_congr (.inr hn) n hk

theorem Visit.length_le {data : ConfigStr} (hv : Visit pre data c c') : c.length ≤ c'.length := by
  rcases hv.names with hn | ⟨y, -, -, hn⟩
  · have hlen := congrArg List.length hn
    rw [List.length_map, List.length_map] at hlen
    exact hlen.ge
  · have hlen := congrArg List.length hn
    rw [List.length_append, List.length_map, List.length_map] at hlen
    exact hlen ▸ Nat.le_add_right _ _

/-- A variable that was visited does not move. -/
theorem Visit.place_eq {data : ConfigStr} (hv : Visit pre data c c') {n : List UInt8}
    (hn : place c n < c.length) : place c' n = place c n := by
  have h₁ := @Visit.place_lt pre c c' data hv n (place c n) (by omega)
  have h₂ := hv.place_lt n (k := place c n + 1) (by omega)
  omega

section Step

variable {c₁ c₂ : Config} {i : Nat} {seen : List UInt8 → Option ConfigValue} {data : ConfigStr}

/-- What a name holds after the visit -/
theorem Walk.held_step (h : Walk pre c (c₁, i) seen) (hd : c₁[i]? = some data)
    (hv : Visit pre data c₁ c₂) (n : List UInt8) :
    configGet c₂ n = if place c₂ (under pre n) < i + 1 then
      Function.update seen data.name (some data.value) (under pre n) else configGet c n := by
  have hi : i + 1 ≤ c₁.length := (List.getElem?_eq_some_iff.mp hd).1
  have hstore : StringStore c₁ := h.store
  have hnow := place_eq_iff (n := under pre n) hstore hd
  have hseen := hv.place_lt (under pre n) hi
  rw [hv.get]
  by_cases hn : under pre n = data.name
  · have hlt : place c₂ (under pre n) < i + 1 := by
      rw [hseen, hnow.mpr hn]
      exact Nat.lt_succ_self i
    rw [if_pos hn, if_pos hlt, hn, Function.update_self]
  · have hlt : place c₂ (under pre n) < i + 1 ↔ place c₁ (under pre n) < i := by
      have := mt hnow.mp hn
      rw [hseen]
      omega
    rw [if_neg hn, Function.update_of_ne hn, if_congr hlt rfl rfl]
    exact h.held n

/-- What a variable held when it was visited -/
theorem Walk.visited_step (h : Walk pre c (c₁, i) seen) (hd : c₁[i]? = some data)
    (hv : Visit pre data c₁ c₂) {n : List UInt8} (hn : place c₂ n < i + 1) :
    Function.update seen data.name (some data.value) n =
      if place c₂ (under pre n) < place c₂ n then
        Function.update seen data.name (some data.value) (under pre n) else configGet c n := by
  have hi : i + 1 ≤ c₁.length := (List.getElem?_eq_some_iff.mp hd).1
  have hstore : StringStore c₁ := h.store
  have hnow {n : List UInt8} : place c₁ n = i ↔ n = data.name := place_eq_iff hstore hd
  have hn₁ : place c₁ n < i + 1 := (hv.place_lt n hi).mp hn
  have hlt : place c₂ (under pre n) < place c₂ n ↔ place c₁ (under pre n) < place c₁ n := by
    rw [hv.place_eq (n := n) (by omega)]
    exact hv.place_lt _ (by omega)
  rw [if_congr hlt rfl rfl]
  by_cases hname : n = data.name
  · have hget : configGet c₁ data.name = some data.value :=
      h.store.get_of_mem (List.mem_of_getElem? hd)
    have hself := h.held data.name
    rw [hget] at hself
    rw [hnow.mpr hname, hname, Function.update_self, Function.update_of_ne under_ne, hself]
  · have hbefore : place c₁ n < i := by
      have := mt hnow.mp hname
      omega
    rw [Function.update_of_ne hname, h.visited n hbefore]
    split
    · rename_i hu
      have hother : under pre n ≠ data.name := by
        intro hname'
        exact absurd (hnow.mpr hname') (Nat.ne_of_lt (Nat.lt_trans hu hbefore))
      rw [Function.update_of_ne hother]
    · rfl

/-- A name that is appended comes behind the variable under the prefix. -/
theorem Walk.appended_step (h : Walk pre c (c₁, i) seen) (hd : c₁[i]? = some data)
    (hv : Visit pre data c₁ c₂) {n : List UInt8} (hn : n ∈ c₂.map ConfigStr.name)
    (hnc : n ∉ c.map ConfigStr.name) :
    place c₂ (under pre n) < i + 1 ∧ place c₂ (under pre n) < place c₂ n := by
  have hi : i + 1 ≤ c₁.length := (List.getElem?_eq_some_iff.mp hd).1
  have hseen := hv.place_lt (under pre n) hi
  by_cases hm : n ∈ c₁.map ConfigStr.name
  · obtain ⟨hu, hlt⟩ : place c₁ (under pre n) < i ∧ place c₁ (under pre n) < place c₁ n :=
      h.appended n hm hnc
    have hlen := place_lt_length.mpr hm
    have hplace := hv.place_eq hlen
    have hlt' := hv.place_lt (under pre n) (k := place c₁ n) (by omega)
    omega
  · rcases hv.names with hnames | ⟨y, hy, -, hnames⟩
    · exact absurd (hnames ▸ hn) hm
    · rw [hnames] at hn
      obtain rfl : n = y := by
        rcases List.mem_append.mp hn with hn | hn
        · exact absurd hn hm
        · exact List.mem_singleton.mp hn
      have hstore : StringStore c₁ := h.store
      have hlt := (place_eq_iff hstore hd).mpr hy.symm
      have hlen := place_lt_length.not.mpr hm
      have hbehind := hv.place_lt n (k := c₁.length) le_rfl
      omega

theorem Walk.step (h : Walk pre c (c₁, i) seen) (hd : c₁[i]? = some data)
    (hv : Visit pre data c₁ c₂) :
    Walk pre c (c₂, i + 1) (Function.update seen data.name (some data.value)) where
  store := hv.store
  iter_le := Nat.le_trans (List.getElem?_eq_some_iff.mp hd).1 hv.length_le
  grown := by
    rcases hv.names with hn | ⟨y, -, -, hn⟩
    · exact hn ▸ h.grown
    · exact hn ▸ h.grown.trans (List.prefix_append ..)
  held := h.held_step hd hv
  visited _ hn := h.visited_step hd hv hn
  appended _ hn hnc := h.appended_step hd hv hn hnc

end Step

/-! ## The end of the walk -/

/-- The characters of the names to be visited -/
def unvisited (t : Config × Nat) : Nat :=
  (((t.1.map ConfigStr.name).drop t.2).map fun n => n.length + 1).sum

theorem promotePass_shorter {c₁ c₂ : Config} {i : Nat} {data : ConfigStr} (hd : c₁[i]? = some data)
    (hv : Visit pre data c₁ c₂) : unvisited (c₂, i + 1) < unvisited (c₁, i) := by
  obtain ⟨hi, hget⟩ := List.getElem?_eq_some_iff.mp hd
  have hi' : i < (c₁.map ConfigStr.name).length := by rwa [List.length_map]
  have hdrop : (c₁.map ConfigStr.name).drop i =
      data.name :: (c₁.map ConfigStr.name).drop (i + 1) := by
    rw [List.drop_eq_getElem_cons hi', List.getElem_map, hget]
  show (((c₂.map ConfigStr.name).drop (i + 1)).map fun n => n.length + 1).sum <
    (((c₁.map ConfigStr.name).drop i).map fun n => n.length + 1).sum
  rw [hdrop, List.map_cons, List.sum_cons]
  rcases hv.names with hn | ⟨y, hy, -, hn⟩
  · rw [hn]
    omega
  · rw [hn, List.drop_append_of_le_length (show i + 1 ≤ _ from hi'), List.map_append,
      List.sum_append, hy, length_under]
    simp only [List.map_cons, List.map_nil, List.sum_cons, List.sum_nil]
    omega

/-- The walk comes to the end of the list, and no null pointer is read. -/
theorem configPromote_ends (h : StringStore c) :
    ∃ n c' seen, configPromote cell c pre n = some (some c') ∧ Walk pre c (c', c'.length) seen := by
  have hpass : ∀ t t', (∃ seen, Walk pre c t seen) → promotePass cell pre t = .inl t' →
      (∃ seen, Walk pre c t' seen) ∧ unvisited t' < unvisited t := by
    rintro ⟨c₁, i⟩ t' ⟨seen, hw⟩ ht
    cases hd : c₁[i]? with
    | none => simp [promotePass, hd] at ht
    | some data =>
      obtain ⟨c₂, hpass, hv⟩ := @promotePass_visit cell pre _ hw.store _ _ hd
      obtain rfl := Sum.inl.inj (hpass.symm.trans ht)
      exact ⟨⟨_, hw.step hd hv⟩, promotePass_shorter hd hv⟩
  obtain ⟨r, hr⟩ := loop_ends hpass ⟨_, Walk.start h⟩ (Nat.lt_succ_self _)
  obtain ⟨k, ⟨c', i⟩, hk, hlast⟩ := loop_last hr
  obtain ⟨seen, hw⟩ := before_invariant (fun t t' ht hp => (hpass t t' ht hp).1)
    ⟨_, Walk.start h⟩ hk
  cases hd : c'[i]? with
  | none =>
    have hi : i = c'.length := Nat.le_antisymm hw.iter_le (List.getElem?_eq_none_iff.mp hd)
    simp only [promotePass, hd, Sum.inr.injEq] at hlast
    subst hlast hi
    exact ⟨_, c', seen, hr, hw⟩
  | some data =>
    obtain ⟨c₂, hpass, -⟩ := @promotePass_visit cell pre _ hw.store _ _ hd
    exact absurd (hpass.symm.trans hlast) nofun

/-! ## What it promotes -/

variable {seen : List UInt8 → Option ConfigValue}

theorem Walk.place_eq (h : Walk pre c (c', c'.length) seen) (hn : n ∈ c.map ConfigStr.name) :
    place c' n = place c n := by
  obtain ⟨added, hadded⟩ := h.grown
  unfold place
  rw [show c'.map ConfigStr.name = c.map ConfigStr.name ++ added from hadded.symm,
    List.idxOf_append, if_pos hn]

/-- What is visited before a variable that was there was there as well. -/
theorem Walk.mem_of_place_lt (h : Walk pre c (c', c'.length) seen) {m : List UInt8}
    (hn : n ∈ c.map ConfigStr.name) (hm : place c' m < place c' n) :
    m ∈ c.map ConfigStr.name := by
  obtain ⟨added, hadded⟩ := h.grown
  rw [h.place_eq hn] at hm
  by_contra hmc
  unfold place at hm
  rw [show c'.map ConfigStr.name = c.map ConfigStr.name ++ added from hadded.symm,
    List.idxOf_append, if_neg hmc] at hm
  have := List.idxOf_lt_length_iff.mpr hn
  omega

theorem Walk.held_end (h : Walk pre c (c', c'.length) seen) (n : List UInt8) :
    configGet c' n =
      if under pre n ∈ c'.map ConfigStr.name then seen (under pre n) else configGet c n := by
  rw [h.held n]
  exact if_congr place_lt_length rfl rfl

theorem Walk.seen_of_appended (h : Walk pre c (c', c'.length) seen)
    (hn : n ∈ c'.map ConfigStr.name) (hnc : n ∉ c.map ConfigStr.name) :
    seen n = seen (under pre n) := by
  rw [h.visited n (place_lt_length.mpr hn), if_pos (h.appended n hn hnc).2]

/-- The names without the prefix are those that are appended, by induction on their places. -/
theorem Walk.under_mem (h : Walk pre c (c', c'.length) seen) (hU : Unmixed pre c)
    (hn : n ∈ c'.map ConfigStr.name) (hnc : n ∉ c.map ConfigStr.name) :
    under pre n ∈ c.map ConfigStr.name := by
  induction hk : place c' n using Nat.strong_induction_on generalizing n with
  | _ k ih =>
    by_contra huc
    obtain ⟨hu, hlt⟩ := h.appended n hn hnc
    have huu := ih _ (hk ▸ hlt) (place_lt_length.mp hu) huc rfl
    obtain ⟨v, hv⟩ := Option.ne_none_iff_exists'.mp (configGet_ne_none.mpr huu)
    have hmixed := hU n v hv
    rw [configGet_eq_none.mpr huc] at hmixed
    exact hnc (configGet_ne_none.mp (by rw [hmixed]; exact nofun))

/-- A variable under the prefix is visited with the value that it had, by induction on its place. -/
theorem Walk.seen_eq (h : Walk pre c (c', c'.length) seen) (hU : Unmixed pre c)
    (hn : under pre n ∈ c.map ConfigStr.name) : seen (under pre n) = configGet c (under pre n) := by
  induction hk : place c' (under pre n) using Nat.strong_induction_on generalizing n with
  | _ k ih =>
    have hn' := h.grown.subset hn
    rw [h.visited _ (place_lt_length.mpr hn')]
    by_cases hlt : place c' (under pre (under pre n)) < place c' (under pre n)
    · have hm := h.mem_of_place_lt hn hlt
      obtain ⟨v, hv⟩ := Option.ne_none_iff_exists'.mp (configGet_ne_none.mpr hm)
      obtain ⟨w, hw⟩ := Option.ne_none_iff_exists'.mp (configGet_ne_none.mpr hn)
      have hmixed := hU n v hv
      rw [hw] at hmixed
      rw [if_pos hlt, ih _ (hk ▸ hlt) hm rfl, hv, hw]
      rcases hmixed with hahead | heq
      · rw [h.place_eq hn, h.place_eq hm] at hlt
        exact absurd hahead (Nat.lt_asymm hlt)
      · rw [heq]
    · rw [if_neg hlt]

theorem Walk.promoted (h : Walk pre c (c', c'.length) seen) (hU : Unmixed pre c) :
    Promoted pre c c' where
  lifted name value hg := by
    have hm := configGet_ne_none.mp (hg ▸ Option.some_ne_none value)
    rw [h.held_end, if_pos (h.grown.subset hm), h.seen_eq hU hm, hg]
  kept name hg := by
    rw [h.held_end]
    split
    · rename_i hm
      have huc := configGet_eq_none.mp hg
      have huu := h.under_mem hU hm huc
      obtain ⟨v, hv⟩ := Option.ne_none_iff_exists'.mp (configGet_ne_none.mpr huu)
      have hmixed := hU name v hv
      rw [hg] at hmixed
      rw [h.seen_of_appended hm huc, h.seen_eq hU huu, hv, hmixed]
    · rfl

theorem Walk.unmixed (h : Walk pre c (c', c'.length) seen) (hP : Promoted pre c c') :
    Unmixed pre c := by
  intro name v hv
  have huu := configGet_ne_none.mp (hv ▸ Option.some_ne_none v)
  have hval : seen (under pre (under pre name)) = some v := by
    rw [← hP.lifted _ v hv, h.held_end, if_pos (h.grown.subset huu)]
  cases hu : configGet c (under pre name) with
  | some old =>
    have hm := configGet_ne_none.mp (hu ▸ Option.some_ne_none old)
    have hm' := h.grown.subset hm
    have hold := hP.lifted name old hu
    rw [h.held_end, if_pos hm', h.visited _ (place_lt_length.mpr hm')] at hold
    by_cases hlt : place c' (under pre (under pre name)) < place c' (under pre name)
    · rw [if_pos hlt, hval] at hold
      exact .inr (Option.some.inj hold).symm
    · refine .inl ?_
      have hne : place c (under pre name) ≠ place c (under pre (under pre name)) :=
        fun heq => under_ne ((List.idxOf_inj hm).mp heq).symm
      rw [h.place_eq hm, h.place_eq huu] at hlt
      exact Nat.lt_of_le_of_ne (Nat.le_of_not_lt hlt) hne
  | none =>
    have huc := configGet_eq_none.mp hu
    have hm' : under pre name ∈ c'.map ConfigStr.name := by
      apply configGet_ne_none.mp
      rw [hP.lifted _ v hv]
      exact nofun
    have hkept := hP.kept name hu
    rw [h.held_end, if_pos hm', h.seen_of_appended hm' huc, hval] at hkept
    exact hkept.symm

/-- `tnX_config_promote` copies the variables under a prefix to the names without it, and leaves the
other names as they were, exactly if no variable that has the prefix twice gets in the way. -/
theorem promotes_iff (h : StringStore c) :
    (∃ n c', configPromote cell c pre n = some (some c') ∧ Promoted pre c c') ↔ Unmixed pre c := by
  obtain ⟨n, c', seen, hn, hw⟩ := @configPromote_ends cell pre c h
  constructor
  · rintro ⟨m, c'', hm, hP⟩
    obtain rfl := Option.some.inj (loop_unique hm hn)
    exact hw.unmixed hP
  · intro hU
    exact ⟨n, c', hn, hw.promoted hU⟩

/-- `a.x` is 1 and `x` is 0. -/
theorem promotes_iff_plain :
    (∃ n c', configPromote List.flatten
        [⟨[97, 46, 120], .string [49]⟩, ⟨[120], .string [48]⟩] [97] n = some (some c') ∧
      Promoted [97] [⟨[97, 46, 120], .string [49]⟩, ⟨[120], .string [48]⟩] c') ↔
    Unmixed [97] [⟨[97, 46, 120], .string [49]⟩, ⟨[120], .string [48]⟩] :=
  promotes_iff ⟨by decide, by simp⟩

/-- `a.a.x` is 1 and `a.x`, behind it, is 2: it is 1 when it is visited, and that is what `x` gets. -/
theorem promoted_twice :
    StringStore [⟨[97, 46, 97, 46, 120], .string [49]⟩, ⟨[97, 46, 120], .string [50]⟩] ∧
    ∃ c', configPromote List.flatten
        [⟨[97, 46, 97, 46, 120], .string [49]⟩, ⟨[97, 46, 120], .string [50]⟩] [97] 4 =
          some (some c') ∧
      ¬ Promoted [97] [⟨[97, 46, 97, 46, 120], .string [49]⟩, ⟨[97, 46, 120], .string [50]⟩] c' := by
  refine ⟨⟨by decide, by simp⟩, _, rfl, fun hP => ?_⟩
  exact absurd (hP.lifted [120] (.string [50]) (by decide)) (by decide)

end LinuxSna.TnX
