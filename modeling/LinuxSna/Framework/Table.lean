import LinuxSna.Framework.Sweep

/-!
# Tables of records

A list of records, each with a key, of which the first with a key counts; and
the numbers that new records get.

* `find_update`: an update that keeps the keys changes what is found for its key
  only;
* `countP_update_of_agree`: and how many records have a property by that of its record;
* `newIndex_notMem`: a new number is not in use;
* `newIndex_eq_none_iff`: and there is none only if all are.

A record is put into a table: over the first record that has its key, or at the end if
there is none. `find_fill` and `head?_fill` say what a table holds that was filled so, one
record after the other: under a key the last record put there, and in front the last one
under the key of the first.
-/

namespace Framework

variable {α κ β : Type*} [DecidableEq κ] (key : α → κ)

/-- The first record with a key. -/
def find (k : κ) (l : List α) : Option α := l.find? (key · = k)

/-- The first record with a key is updated. -/
def update (k : κ) (f : α → α) : List α → List α
  | [] => []
  | a :: l => if key a = k then f a :: l else a :: update k f l

variable {key} {k k' : κ} {f : α → α} {a b : α} {l : List α}

/-! ## Finding -/

theorem find_cons : find key k (a :: l) = if key a = k then some a else find key k l := by
  unfold find
  by_cases h : key a = k
  · rw [if_pos h, List.find?_cons_of_pos (by simpa using h)]
  · rw [if_neg h, List.find?_cons_of_neg (by simpa using h)]

@[simp] theorem find_cons_self : find key (key a) (a :: l) = some a := by
  rw [find_cons, if_pos rfl]

theorem find_cons_ne (h : key a ≠ k) : find key k (a :: l) = find key k l := by
  rw [find_cons, if_neg h]

theorem mem_of_find (h : find key k l = some a) : a ∈ l := List.mem_of_find?_eq_some h

theorem key_of_find (h : find key k l = some a) : key a = k := by
  simpa using List.find?_some h

theorem find_eq_none : find key k l = none ↔ k ∉ l.map key := by
  simp [find]

/-- Whether there is a record depends on the keys. -/
theorem isSome_find_congr {l' : List α} (h : l'.map key = l.map key) :
    (find key k l').isSome = (find key k l).isSome := by
  rw [Bool.eq_iff_iff, Option.isSome_iff_ne_none, Option.isSome_iff_ne_none, ne_eq, ne_eq,
    find_eq_none, find_eq_none, h]

theorem find_isSome_of_mem (ha : a ∈ l) : (find key (key a) l).isSome := by
  rw [Option.isSome_iff_ne_none, ne_eq, find_eq_none, not_not]
  exact List.mem_map_of_mem ha

theorem find_of_mem (hn : (l.map key).Nodup) (ha : a ∈ l) : find key (key a) l = some a := by
  induction l with
  | nil => exact absurd ha List.not_mem_nil
  | cons b l ih =>
    rw [List.map_cons, List.nodup_cons] at hn
    rcases List.mem_cons.mp ha with rfl | ha
    · exact find_cons_self
    · rw [find_cons_ne fun hb : key b = key a => hn.1 (hb ▸ List.mem_map_of_mem ha)]
      exact ih hn.2 ha

/-- Taking another record off does not matter. -/
theorem find_eraseP_of_ne (h : k' ≠ k) : find key k' (l.eraseP (key · = k)) = find key k' l := by
  induction l with
  | nil => rfl
  | cons a l ih =>
    by_cases ha : key a = k
    · rw [List.eraseP_cons_of_pos (by simpa using ha), find_cons_ne fun ha' => h (ha'.symm.trans ha)]
    · rw [List.eraseP_cons_of_neg (by simpa using ha), find_cons, find_cons, ih]

omit [DecidableEq κ] in
theorem eraseP_congr {p q : α → Bool} (h : ∀ a ∈ l, p a = q a) : l.eraseP p = l.eraseP q := by
  induction l with
  | nil => rfl
  | cons a l ih =>
    rw [List.eraseP_cons, List.eraseP_cons, h a List.mem_cons_self,
      ih fun b hb => h b (List.mem_cons_of_mem a hb)]

omit [DecidableEq κ] in
/-- A record with a new key is added. -/
theorem nodup_map_append (hn : (l.map key).Nodup) (ha : key a ∉ l.map key) :
    ((l ++ [a]).map key).Nodup := by
  rw [List.map_append]
  exact List.nodup_append_comm.mpr (List.nodup_cons.mpr ⟨ha, hn⟩)

/-! ## Updating -/

theorem update_append (h : k ∉ l.map key) (l' : List α) :
    update key k f (l ++ l') = l ++ update key k f l' := by
  induction l with
  | nil => rfl
  | cons a l ih =>
    rw [List.map_cons, List.mem_cons, not_or] at h
    rw [List.cons_append, update, if_neg (Ne.symm h.1), ih h.2, List.cons_append]

theorem find_append_of_find (h : find key k l = some a) (l' : List α) :
    find key k (l ++ l') = some a := by
  unfold find at h ⊢
  rw [List.find?_append, h]
  rfl

theorem find_append_of_not_mem (h : k ∉ l.map key) (l' : List α) :
    find key k (l ++ l') = find key k l' := by
  have h := find_eq_none.mpr h
  unfold find at h ⊢
  rw [List.find?_append, h]
  rfl

theorem map_update (g : α → β) (hf : ∀ a, g (f a) = g a) : (update key k f l).map g = l.map g := by
  induction l with
  | nil => rfl
  | cons a l ih =>
    rw [update]
    split
    · rw [List.map_cons, List.map_cons, hf]
    · rw [List.map_cons, List.map_cons, ih]

/-- The same if the record updated is known. -/
theorem map_update_of_find {g : α → β} (h : find key k l = some a) (hg : g (f a) = g a) :
    (update key k f l).map g = l.map g := by
  induction l with
  | nil => rfl
  | cons b l ih =>
    rw [find_cons] at h
    rw [update]
    by_cases hb : key b = k
    · rw [if_pos hb] at h ⊢
      obtain rfl := Option.some.inj h
      rw [List.map_cons, List.map_cons, hg]
    · rw [if_neg hb] at h ⊢
      rw [List.map_cons, List.map_cons, ih h]

/-- The keys stay if the record updated keeps its own. -/
theorem map_key_update (hf : ∀ a, key a = k → key (f a) = k) :
    (update key k f l).map key = l.map key := by
  induction l with
  | nil => rfl
  | cons a l ih =>
    rw [update]
    by_cases ha : key a = k
    · rw [if_pos ha, List.map_cons, List.map_cons, hf a ha, ha]
    · rw [if_neg ha, List.map_cons, List.map_cons, ih]

theorem find_update (hf : ∀ a, key a = k → key (f a) = k) :
    find key k' (update key k f l) =
      if k' = k then (find key k' l).map f else find key k' l := by
  induction l with
  | nil => simp [update, find]
  | cons a l ih =>
    rw [update]
    by_cases ha : key a = k
    · rw [if_pos ha, find_cons, hf a ha]
      by_cases hk : k = k'
      · rw [if_pos hk, if_pos hk.symm, ← hk, ← ha, find_cons_self, Option.map_some]
      · rw [if_neg hk, if_neg (Ne.symm hk), find_cons_ne fun h => hk (ha.symm.trans h)]
    · rw [if_neg ha, find_cons, ih]
      by_cases hk : k' = k
      · have hne : key a ≠ k' := fun h => ha (h.trans hk)
        rw [if_pos hk, if_pos hk, if_neg hne, find_cons_ne hne]
      · rw [if_neg hk, if_neg hk, find_cons]

theorem find_update_self (hf : ∀ a, key a = k → key (f a) = k) (h : find key k l = some a) :
    find key k (update key k f l) = some (f a) := by
  rw [find_update hf, if_pos rfl, h, Option.map_some]

/-- The same if the key to update is read from the record found. -/
theorem find_update_of_find (hf : ∀ a, key a = k → key (f a) = k) (h : find key k l = some a) :
    find key k' (update key (key a) f l) = if k' = k then some (f a) else find key k' l := by
  rw [key_of_find h, find_update hf]
  by_cases hk : k' = k
  · rw [if_pos hk, if_pos hk, hk, h, Option.map_some]
  · rw [if_neg hk, if_neg hk]

/-- What the update leaves of a record can be read before or after it. -/
theorem map_find_update {g : α → β} (hf : ∀ a, key a = k → key (f a) = k)
    (hg : ∀ a, g (f a) = g a) : (find key k' (update key k f l)).map g = (find key k' l).map g := by
  rw [find_update hf]
  split
  · rw [Option.map_map]
    exact congrArg (Option.map · _) (funext hg)
  · rfl

/-- A record of the updated table is the updated one, or it was there. -/
theorem mem_update (h : b ∈ update key k f l) :
    b ∈ l ∨ ∃ a, find key k l = some a ∧ b = f a := by
  induction l with
  | nil => exact absurd h List.not_mem_nil
  | cons a l ih =>
    rw [update] at h
    by_cases ha : key a = k
    · rw [if_pos ha] at h
      rcases List.mem_cons.mp h with rfl | h
      · exact .inr ⟨a, by rw [find_cons, if_pos ha], rfl⟩
      · exact .inl (List.mem_cons_of_mem a h)
    · rw [if_neg ha] at h
      rcases List.mem_cons.mp h with rfl | h
      · exact .inl List.mem_cons_self
      · rcases ih h with h | ⟨c, hc, rfl⟩
        · exact .inl (List.mem_cons_of_mem a h)
        · exact .inr ⟨c, by rw [find_cons_ne ha, hc], rfl⟩

/-- The second of two updates of a record sees what the first has left. -/
theorem update_update (g : α → α) (hf : ∀ a, key a = k → key (f a) = k) :
    update key k g (update key k f l) = update key k (g ∘ f) l := by
  induction l with
  | nil => rfl
  | cons a l ih =>
    rw [update, update]
    by_cases ha : key a = k
    · rw [if_pos ha, if_pos ha, update, if_pos (hf a ha)]
      rfl
    · rw [if_neg ha, if_neg ha, update, if_neg ha, ih]

/-- What was written first is written over. -/
theorem update_update_const (h : key a = k) :
    update key k (fun _ => b) (update key k (fun _ => a) l) = update key k (fun _ => b) l :=
  update_update _ fun _ _ => h

/-- The table stays as it is exactly if the record does. -/
theorem update_eq_self_iff (h : find key k l = some a) : update key k f l = l ↔ f a = a := by
  induction l with
  | nil => exact absurd h nofun
  | cons b l ih =>
    rw [find_cons] at h
    rw [update]
    by_cases hb : key b = k
    · rw [if_pos hb] at h ⊢
      obtain rfl := Option.some.inj h
      rw [List.cons.injEq, and_iff_left rfl]
    · rw [if_neg hb] at h ⊢
      rw [List.cons.injEq, and_iff_right rfl, ih h]

/-- How many records have a property if it is another one after the update, but for the
record updated only: that one may gain or lose it. -/
theorem countP_update_of_agree {p q : α → Bool} (h : find key k l = some a)
    (hn : (l.map key).Nodup) (hpq : ∀ c ∈ l, key c ≠ k → q c = p c) :
    (update key k (fun _ => b) l).countP q + (p a).toNat = l.countP p + (q b).toNat := by
  induction l with
  | nil => exact absurd h nofun
  | cons c l ih =>
    rw [find_cons] at h
    rw [List.map_cons, List.nodup_cons] at hn
    rw [update]
    by_cases hc : key c = k
    · rw [if_pos hc] at h ⊢
      obtain rfl := Option.some.inj h
      have hl : l.countP q = l.countP p := by
        apply List.countP_congr
        intro d hd
        rw [hpq d (List.mem_cons_of_mem _ hd) fun hk => hn.1 ?_]
        rw [hc, ← hk]
        exact List.mem_map_of_mem hd
      rw [List.countP_cons, List.countP_cons, hl]
      cases p c <;> cases q b <;> simp
    · rw [if_neg hc] at h ⊢
      rw [List.countP_cons, List.countP_cons, hpq c List.mem_cons_self hc]
      have := ih h hn.2 fun d hd => hpq d (List.mem_cons_of_mem _ hd)
      omega

/-- What the records hold, if the one updated gets something more. -/
theorem flatMap_update_perm {g : α → List β} {c : β} (h : find key k l = some a)
    (hg : (g (f a)).Perm (c :: g a)) :
    ((update key k f l).flatMap g).Perm (c :: l.flatMap g) := by
  induction l with
  | nil => exact absurd h nofun
  | cons b l ih =>
    rw [find_cons] at h
    rw [update]
    by_cases hb : key b = k
    · rw [if_pos hb] at h ⊢
      obtain rfl := Option.some.inj h
      exact hg.append_right _
    · rw [if_neg hb] at h ⊢
      exact ((ih h).append_left (g b)).trans List.perm_middle

/-- The same if something is taken from it. -/
theorem flatMap_update_sublist {g : α → List β} (hg : ∀ a, (g (f a)).Sublist (g a)) :
    ((update key k f l).flatMap g).Sublist (l.flatMap g) := by
  induction l with
  | nil => exact .slnil
  | cons a l ih =>
    rw [update]
    split
    · exact (hg a).append (List.Sublist.refl _)
    · exact (List.Sublist.refl (g a)).append ih

/-- A change to all records that leaves those with another key as they are is one to the record
updated. -/
theorem map_update_comp {g : α → α} (h : find key k l = some a) (hn : (l.map key).Nodup)
    (hg : ∀ a ∈ l, key a ≠ k → g a = a) : (update key k f l).map g = update key k (g ∘ f) l := by
  induction l with
  | nil => exact absurd h nofun
  | cons b l ih =>
    rw [find_cons] at h
    rw [List.map_cons, List.nodup_cons] at hn
    have hg' : ∀ c ∈ l, key c ≠ k → g c = c := fun c hc => hg c (List.mem_cons_of_mem b hc)
    rw [update, update]
    by_cases hb : key b = k
    · have hl : l.map g = l := by
        refine (List.map_congr_left fun c hc => ?_).trans l.map_id
        apply hg' c hc
        intro hk
        apply hn.1
        rw [hb, ← hk]
        exact List.mem_map_of_mem hc
      rw [if_pos hb, if_pos hb, List.map_cons, hl]
      rfl
    · rw [if_neg hb] at h
      rw [if_neg hb, if_neg hb, List.map_cons, hg b List.mem_cons_self hb, ih h hn.2 hg']

/-- An updated record that is then taken off -/
theorem eraseP_update (hf : ∀ a, key a = k → key (f a) = k) :
    (update key k f l).eraseP (key · = k) = l.eraseP (key · = k) := by
  induction l with
  | nil => rfl
  | cons a l ih =>
    rw [update]
    by_cases ha : key a = k
    · rw [if_pos ha, List.eraseP_cons_of_pos (by simpa using hf a ha),
        List.eraseP_cons_of_pos (by simpa using ha)]
    · rw [if_neg ha, List.eraseP_cons_of_neg (by simpa using ha),
        List.eraseP_cons_of_neg (by simpa using ha), ih]

/-! ## New numbers -/

/-- The next number after `c` that is not 0 and not in use, found in so many
passes. -/
def newIndex (used : List UInt32) : ℕ → UInt32 → Option UInt32
  | 0, _ => none
  | n + 1, c =>
    let i := if c + 1 = 0 then 1 else c + 1
    if i ∈ used then newIndex used n i else some i

variable {used : List UInt32} {n : ℕ} {c i : UInt32}

theorem newIndex_spec (h : newIndex used n c = some i) : i ∉ used ∧ i ≠ 0 := by
  induction n generalizing c with
  | zero => exact absurd h nofun
  | succ n ih =>
    rw [newIndex] at h
    by_cases hu : (if c + 1 = 0 then 1 else c + 1) ∈ used
    · simp only [hu, ↓reduceIte] at h
      exact ih h
    · simp only [hu, ↓reduceIte, Option.some.injEq] at h
      refine ⟨h ▸ hu, h ▸ ?_⟩
      split
      · decide
      · assumption

/-- The numbers that were looked at were all in use. -/
theorem mem_of_newIndex_eq_none (h : newIndex used n c = none) {k : ℕ} (hk : k < n) :
    UInt32.ofNat ((c.toNat + k) % (2 ^ 32 - 1) + 1) ∈ used := by
  induction n generalizing c k with
  | zero => exact absurd hk (Nat.not_lt_zero k)
  | succ n ih =>
    rw [newIndex] at h
    have hc : c.toNat < 2 ^ 32 := c.toNat_lt
    have hnext : (if c + 1 = 0 then 1 else c + 1) = UInt32.ofNat (c.toNat % (2 ^ 32 - 1) + 1) := by
      rw [← UInt32.toNat_inj]
      split
      · rename_i h0
        have h0 := congrArg UInt32.toNat h0
        rw [UInt32.toNat_add] at h0
        have h0 : (c.toNat + 1) % 2 ^ 32 = 0 := h0
        rw [UInt32.toNat_ofNat']
        show 1 = _
        omega
      · rename_i h0
        have h0 : c.toNat + 1 ≠ 2 ^ 32 := fun he => h0 (by
          rw [← UInt32.toNat_inj, UInt32.toNat_add]
          show (c.toNat + 1) % 2 ^ 32 = 0
          omega)
        rw [UInt32.toNat_ofNat', UInt32.toNat_add]
        show (c.toNat + 1) % 2 ^ 32 = _
        omega
    rw [hnext] at h
    split at h
    · rename_i hu
      cases k with
      | zero => exact hu
      | succ k =>
        have hi : (UInt32.ofNat (c.toNat % (2 ^ 32 - 1) + 1)).toNat = c.toNat % (2 ^ 32 - 1) + 1 := by
          rw [UInt32.toNat_ofNat']
          omega
        have hmem := ih h (Nat.lt_of_succ_lt_succ hk)
        rw [hi, Nat.add_right_comm, Nat.add_assoc, Nat.mod_add_mod] at hmem
        exact hmem
    · cases h

/-- With a pass more than there are numbers in use, one is found if there is one. -/
theorem newIndex_eq_none_iff : newIndex used (used.length + 1) c = none ↔ ∀ i ≠ 0, i ∈ used := by
  constructor
  · intro h i hi
    have hpos : i.toNat ≠ 0 := fun h0 => hi (UInt32.toNat_inj.mp h0)
    have hlt : i.toNat < 2 ^ 32 := i.toNat_lt
    by_cases hlen : used.length + 1 < 2 ^ 32
    · -- different numbers, and more than there are
      exfalso
      have hinj : Set.InjOn (fun k => UInt32.ofNat ((c.toNat + k) % (2 ^ 32 - 1) + 1))
          (Finset.range (used.length + 1)) := by
        intro k hk k' hk' he
        rw [Finset.coe_range, Set.mem_Iio] at hk hk'
        have he := congrArg UInt32.toNat he
        simp only [UInt32.toNat_ofNat'] at he
        omega
      have hsub : (Finset.range (used.length + 1)).image
          (fun k => UInt32.ofNat ((c.toNat + k) % (2 ^ 32 - 1) + 1)) ⊆ used.toFinset := by
        intro j hj
        obtain ⟨k, hk, rfl⟩ := Finset.mem_image.mp hj
        exact List.mem_toFinset.mpr (mem_of_newIndex_eq_none h (Finset.mem_range.mp hk))
      have hcard := (Finset.card_le_card hsub).trans used.toFinset_card_le
      rw [Finset.card_image_of_injOn hinj, Finset.card_range] at hcard
      omega
    · have hmem := mem_of_newIndex_eq_none h
        (k := (i.toNat - 1 + (2 ^ 32 - 1) - c.toNat % (2 ^ 32 - 1)) % (2 ^ 32 - 1)) (by omega)
      have hi : (c.toNat + (i.toNat - 1 + (2 ^ 32 - 1) - c.toNat % (2 ^ 32 - 1)) % (2 ^ 32 - 1)) %
          (2 ^ 32 - 1) + 1 = i.toNat := by
        omega
      rwa [hi, UInt32.ofNat_toNat] at hmem
  · intro h
    cases hn : newIndex used (used.length + 1) c with
    | none => rfl
    | some i => exact absurd (h i (newIndex_spec hn).2) (newIndex_spec hn).1

theorem newIndex_notMem (h : newIndex used n c = some i) : i ∉ used := (newIndex_spec h).1

theorem newIndex_ne_zero (h : newIndex used n c = some i) : i ≠ 0 := (newIndex_spec h).2

end Framework

namespace Framework

variable {α κ : Type*} [DecidableEq κ] (key : α → κ)

/-- The first record with the key of `a` is overwritten, or `a` is appended. -/
def put (a : α) : List α → List α
  | [] => [a]
  | b :: l => if key b = key a then a :: l else b :: put a l

/-- A table filled with one record after the other. -/
def fill (as : List α) : List α := as.foldl (fun l a => put key a l) []

variable {key} {k : κ} {a b : α} {l as : List α}

theorem put_of_notMem (h : key a ∉ l.map key) : put key a l = l ++ [a] := by
  induction l with
  | nil => rfl
  | cons b l ih =>
    rw [List.map_cons, List.mem_cons, not_or] at h
    rw [put, if_neg (Ne.symm h.1), ih h.2, List.cons_append]

theorem put_of_mem (h : key a ∈ l.map key) : put key a l = update key (key a) (fun _ => a) l := by
  induction l with
  | nil => exact absurd h List.not_mem_nil
  | cons b l ih =>
    rw [put, update]
    by_cases hb : key b = key a
    · rw [if_pos hb, if_pos hb]
    · rw [List.map_cons, List.mem_cons] at h
      rw [if_neg hb, if_neg hb, ih (h.resolve_left (Ne.symm hb))]

theorem find_put : find key k (put key a l) = if key a = k then some a else find key k l := by
  induction l with
  | nil =>
    rw [put, find_cons]
  | cons b l ih =>
    rw [put]
    by_cases hb : key b = key a
    · rw [if_pos hb, find_cons, find_cons, hb]
      split <;> rfl
    · rw [if_neg hb, find_cons, find_cons, ih]
      by_cases ha : key a = k
      · rw [if_neg fun hk => hb (hk.trans ha.symm), if_pos ha, if_pos ha]
      · rw [if_neg ha, if_neg ha]

theorem mem_of_mem_put (hb : b ∈ put key a l) : b = a ∨ b ∈ l := by
  induction l with
  | nil => exact .inl (List.mem_singleton.mp hb)
  | cons c l ih =>
    rw [put] at hb
    split at hb
    · rcases List.mem_cons.mp hb with rfl | hb
      · exact .inl rfl
      · exact .inr (List.mem_cons_of_mem c hb)
    · rcases List.mem_cons.mp hb with rfl | hb
      · exact .inr List.mem_cons_self
      · exact (ih hb).imp_right (List.mem_cons_of_mem c)

theorem mem_put_of_ne (hb : b ∈ l) (h : key b ≠ key a) : b ∈ put key a l := by
  induction l with
  | nil => exact absurd hb List.not_mem_nil
  | cons c l ih =>
    rw [put]
    split
    · rename_i hc
      refine List.mem_cons_of_mem _ ((List.mem_cons.mp hb).resolve_left ?_)
      rintro rfl
      exact h hc
    · rcases List.mem_cons.mp hb with rfl | hb
      · exact List.mem_cons_self
      · exact List.mem_cons_of_mem _ (ih hb)

theorem map_key_put : (put key a l).map key =
    if key a ∈ l.map key then l.map key else l.map key ++ [key a] := by
  by_cases h : key a ∈ l.map key
  · rw [if_pos h, put_of_mem h]
    exact map_key_update fun _ _ => rfl
  · rw [if_neg h, put_of_notMem h, List.map_append, List.map_singleton]

theorem head?_put_of_ne (h : l.head? = some b) (hb : key b ≠ key a) :
    (put key a l).head? = some b := by
  cases l with
  | nil => cases h
  | cons c l =>
    obtain rfl := Option.some.inj h
    rw [put, if_neg hb]
    rfl

theorem nodup_put (h : (l.map key).Nodup) : ((put key a l).map key).Nodup := by
  rw [map_key_put]
  split
  · exact h
  · rename_i ha
    exact List.nodup_append.mpr ⟨h, List.nodup_singleton _, fun b hb c hc hbc =>
      ha (by rwa [← List.mem_singleton.mp hc, ← hbc])⟩

theorem modifyFirst_key (f : α → α) : modifyFirst (key · = k) f l = update key k f l := by
  induction l with
  | nil => rfl
  | cons a l ih =>
    rw [modifyFirst, update, ih]
    by_cases ha : key a = k
    · rw [if_pos ha, if_pos (decide_eq_true ha)]
    · rw [if_neg ha, if_neg (by simpa using ha)]

/-- The record that was put is the only one with its key. -/
theorem eq_of_mem_put (hn : (l.map key).Nodup) (hb : b ∈ put key a l) (h : key a = key b) :
    b = a := by
  have hf := find_of_mem (nodup_put hn) hb
  rw [find_put, if_pos h] at hf
  exact (Option.some.inj hf).symm

/-! ## What a table holds -/

theorem fill_concat : fill key (as ++ [a]) = put key a (fill key as) := List.foldl_concat ..

theorem nodup_fill : ((fill key as).map key).Nodup := by
  induction as using List.reverseRecOn with
  | nil => exact List.nodup_nil
  | append_singleton as a ih =>
    rw [fill_concat]
    exact nodup_put ih

/-- Under a key there is the last record that was put there. -/
theorem find_fill : find key k (fill key as) = find key k as.reverse := by
  induction as using List.reverseRecOn with
  | nil => rfl
  | append_singleton as a ih =>
    rw [fill_concat, find_put, ih, List.reverse_concat, find_cons]

theorem mem_fill : a ∈ fill key as ↔ find key (key a) as.reverse = some a := by
  rw [← find_fill]
  exact ⟨find_of_mem nodup_fill, mem_of_find⟩

theorem mem_of_mem_fill (h : a ∈ fill key as) : a ∈ as :=
  List.mem_reverse.mp (mem_of_find (mem_fill.mp h))

theorem exists_mem_fill (h : a ∈ as) : ∃ b ∈ fill key as, key b = key a := by
  have hs : (find key (key a) as.reverse).isSome :=
    find_isSome_of_mem (List.mem_reverse.mpr h)
  obtain ⟨b, hb⟩ := Option.isSome_iff_exists.mp hs
  refine ⟨b, ?_, key_of_find hb⟩
  rw [mem_fill, key_of_find hb]
  exact hb

/-- The keys stand in the order in which they came. -/
theorem map_key_head?_fill : (fill key as).head?.map key = as.head?.map key := by
  induction as using List.reverseRecOn with
  | nil => rfl
  | append_singleton as a ih =>
    rw [fill_concat, ← List.head?_map, map_key_put]
    cases as with
    | nil => rfl
    | cons b as =>
      rw [← List.head?_map] at ih
      split
      · exact ih
      · rw [List.head?_append, ih]
        rfl

/-- In front there is the last record that was put under the key of the first one. -/
theorem head?_fill : (fill key as).head? = as.head?.bind fun a => find key (key a) as.reverse := by
  have hk : (fill key as).head?.map key = as.head?.map key := map_key_head?_fill
  cases has : as.head? with
  | none =>
    rw [has] at hk
    exact Option.map_eq_none_iff.mp hk
  | some a =>
    rw [has] at hk
    obtain ⟨b, hb, hba⟩ := Option.map_eq_some_iff.mp hk
    have hf : find key (key b) (fill key as) = some b := by
      obtain ⟨l, hl⟩ := List.head?_eq_some_iff.mp hb
      rw [hl]
      exact find_cons_self
    rw [hb, Option.bind_some, ← hba, ← find_fill, hf]

end Framework
