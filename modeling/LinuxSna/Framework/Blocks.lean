import Mathlib

/-!
# Blocks of a region, and lists of them

A region of addresses that is cut into blocks, of which some are linked into lists, each block to the
next of its list and the last one to 0.

* `Packed.split`, `Packed.grow`: a block is cut in two, or put behind the others;
* `Packed.existsUnique`: each address of the region is in one block;
* `Linked.insert`, `Linked.remove`: a block is put into a list, or taken out of it;
* `Linked.unique`: there is one list from a block on;
* `members_update`: what is on the lists when one of them changes.
-/

namespace Framework

/-! ## The region -/

/-- Blocks with these extents fill the addresses from `a` to `b`. -/
structure Packed (ext : ℕ → ℕ) (a b : ℕ) (M : Multiset ℕ) : Prop where
  nodup : M.Nodup
  bounds {o : ℕ} : o ∈ M → a ≤ o ∧ o + ext o ≤ b
  sep {o p : ℕ} : o ∈ M → p ∈ M → o ≠ p → o + ext o ≤ p ∨ p + ext p ≤ o
  total : a + (M.map ext).sum = b

namespace Packed

variable {ext ext' : ℕ → ℕ} {a b n o : ℕ} {M : Multiset ℕ}

theorem empty (ext : ℕ → ℕ) (a : ℕ) : Packed ext a a 0 where
  nodup := Multiset.nodup_zero
  bounds ho := absurd ho (Multiset.notMem_zero _)
  sep ho := absurd ho (Multiset.notMem_zero _)
  total := by rw [Multiset.map_zero, Multiset.sum_zero, Nat.add_zero]

theorem congr (hp : Packed ext a b M) (h : ∀ o ∈ M, ext' o = ext o) : Packed ext' a b M where
  nodup := hp.nodup
  bounds ho := by
    rw [h _ ho]
    exact hp.bounds ho
  sep ho hq hne := by
    rw [h _ ho, h _ hq]
    exact hp.sep ho hq hne
  total := by
    rw [Multiset.map_congr rfl h]
    exact hp.total

/-- A block is cut in two. -/
theorem split (hp : Packed ext a b M) (ho : o ∈ M) (hn : 0 < n) (hlt : n < ext o)
    (hsame : ∀ p ∈ M, p ≠ o → ext' p = ext p) (hfront : ext' o = n)
    (hback : ext' (o + n) = ext o - n) : Packed ext' a b ((o + n) ::ₘ M) := by
  obtain ⟨hle, hge⟩ := hp.bounds ho
  -- no other block begins inside
  have hnew : o + n ∉ M := fun hmem => by
    have := hp.sep ho hmem (by omega)
    omega
  have hfar : ∀ p ∈ M, p ≠ o → p + ext' p ≤ o ∨ o + ext o ≤ p := fun p hmem hne => by
    rw [hsame p hmem hne]
    exact hp.sep hmem ho hne
  refine ⟨Multiset.nodup_cons.mpr ⟨hnew, hp.nodup⟩, fun {p} hmem => ?_, fun {p q} hin hin' hne => ?_, ?_⟩
  · rcases Multiset.mem_cons.mp hmem with rfl | hmem
    · omega
    · by_cases hpo : p = o
      · subst hpo
        omega
      · rw [hsame p hmem hpo]
        exact hp.bounds hmem
  · rcases Multiset.mem_cons.mp hin with rfl | hmem <;> rcases Multiset.mem_cons.mp hin' with rfl | hq
    · exact absurd rfl hne
    · by_cases hqo : q = o
      · subst hqo
        omega
      · have := hfar q hq hqo
        omega
    · by_cases hpo : p = o
      · subst hpo
        omega
      · have := hfar p hmem hpo
        omega
    · by_cases hpo : p = o
      · subst hpo
        have := hfar q hq hne.symm
        omega
      · by_cases hqo : q = o
        · subst hqo
          have := hfar p hmem hpo
          omega
        · rw [hsame p hmem hpo, hsame q hq hqo]
          exact hp.sep hmem hq hne
  · obtain ⟨N, rfl⟩ := Multiset.exists_cons_of_mem ho
    have hN : ∀ p ∈ N, ext' p = ext p := fun p hmem =>
      hsame p (Multiset.mem_cons_of_mem hmem) (ne_of_mem_of_not_mem hmem
        (Multiset.nodup_cons.mp hp.nodup).1)
    have htotal := hp.total
    rw [Multiset.map_cons, Multiset.sum_cons] at htotal ⊢
    rw [Multiset.map_cons, Multiset.sum_cons, Multiset.map_congr rfl hN]
    omega

variable (hpos : ∀ o, 0 < ext o)
include hpos

theorem notMem_end (hp : Packed ext a b M) : b ∉ M := fun hmem => by
  have := (hp.bounds hmem).2
  have := hpos b
  omega

/-- A block is put behind the others. -/
theorem grow (hp : Packed ext a b M) (hsame : ∀ p ∈ M, ext' p = ext p) (hlast : ext' b = n) :
    Packed ext' a (b + n) (b ::ₘ M) := by
  refine ⟨Multiset.nodup_cons.mpr ⟨hp.notMem_end hpos, hp.nodup⟩, fun {p} hmem => ?_,
    fun {p q} hin hin' hne => ?_, ?_⟩
  · have htotal := hp.total
    rcases Multiset.mem_cons.mp hmem with rfl | hmem
    · omega
    · have := hp.bounds hmem
      rw [hsame p hmem]
      omega
  · rcases Multiset.mem_cons.mp hin with rfl | hmem <;> rcases Multiset.mem_cons.mp hin' with rfl | hq
    · exact absurd rfl hne
    · rw [hsame q hq]
      exact .inr (hp.bounds hq).2
    · rw [hsame p hmem]
      exact .inl (hp.bounds hmem).2
    · rw [hsame p hmem, hsame q hq]
      exact hp.sep hmem hq hne
  · rw [Multiset.map_cons, Multiset.sum_cons, hlast, Multiset.map_congr rfl hsame]
    have htotal := hp.total
    omega

theorem card_le (hp : Packed ext a b M) : M.card ≤ b := by
  have hcard : ∀ N : Multiset ℕ, N.card ≤ (N.map ext).sum := fun N => by
    induction N using Multiset.induction with
    | empty => exact Nat.zero_le _
    | cons o N ih =>
      have := hpos o
      rw [Multiset.card_cons, Multiset.map_cons, Multiset.sum_cons]
      omega
  have := hcard M
  have := hp.total
  omega

omit hpos in
/-- Each address of the region is in one block. -/
theorem existsUnique (hp : Packed ext a b M) {x : ℕ} (hx : a ≤ x ∧ x < b) :
    ∃! o, o ∈ M ∧ o ≤ x ∧ x < o + ext o := by
  classical
  have hdisjoint : Set.PairwiseDisjoint (M.toFinset : Set ℕ) fun o => Finset.Ico o (o + ext o) := by
    intro o ho p hmem hne
    refine Finset.disjoint_left.mpr fun y hy hy' => ?_
    rw [Finset.mem_Ico] at hy hy'
    have := hp.sep (Multiset.mem_toFinset.mp ho) (Multiset.mem_toFinset.mp hmem) hne
    omega
  have hsub : M.toFinset.biUnion (fun o => Finset.Ico o (o + ext o)) ⊆ Finset.Ico a b := by
    intro y hy
    obtain ⟨o, ho, hy⟩ := Finset.mem_biUnion.mp hy
    have := hp.bounds (Multiset.mem_toFinset.mp ho)
    rw [Finset.mem_Ico] at hy ⊢
    omega
  -- the blocks together have as many addresses as the region
  have hcard : (M.toFinset.biUnion fun o => Finset.Ico o (o + ext o)).card = b - a := by
    rw [Finset.card_biUnion hdisjoint]
    simp only [Nat.card_Ico, Nat.add_sub_cancel_left]
    rw [Finset.sum, Multiset.toFinset_val, hp.nodup.dedup]
    have htotal := hp.total
    show (M.map ext).sum = b - a
    omega
  have hall := Finset.eq_of_subset_of_card_le hsub (by rw [hcard, Nat.card_Ico])
  have hmem : x ∈ M.toFinset.biUnion fun o => Finset.Ico o (o + ext o) := by
    rw [hall, Finset.mem_Ico]
    exact hx
  obtain ⟨o, ho, hox⟩ := Finset.mem_biUnion.mp hmem
  rw [Finset.mem_Ico] at hox
  refine ⟨o, ⟨Multiset.mem_toFinset.mp ho, hox⟩, fun p hpx => ?_⟩
  by_contra hne
  have := hp.sep hpx.1 (Multiset.mem_toFinset.mp ho) hne
  omega

end Packed

/-! ## Lists of blocks -/

/-- From `p` on, each block is linked to the next, and the last one to 0. -/
def Linked (next : ℕ → ℕ) : ℕ → List ℕ → Prop
  | p, [] => p = 0
  | p, o :: l => p = o ∧ o ≠ 0 ∧ Linked next (next o) l

namespace Linked

variable {next next' : ℕ → ℕ} {p o q a : ℕ} {l l' l₁ l₂ : List ℕ}

theorem congr (h : Linked next p l) (hsame : ∀ o ∈ l, next' o = next o) : Linked next' p l := by
  induction l generalizing p with
  | nil => exact h
  | cons o l ih =>
    rw [List.forall_mem_cons] at hsame
    obtain ⟨hp, ho, h⟩ := h
    refine ⟨hp, ho, ?_⟩
    rw [hsame.1]
    exact ih h hsame.2

theorem eq_zero_or_mem (h : Linked next p l) : p = 0 ∨ p ∈ l := by
  cases l with
  | nil => exact .inl h
  | cons o l => exact .inr (h.1 ▸ List.mem_cons_self)

theorem next_eq_zero_or_mem (h : Linked next p l) (ho : o ∈ l) : next o = 0 ∨ next o ∈ l := by
  induction l generalizing p with
  | nil => exact absurd ho List.not_mem_nil
  | cons q l ih =>
    rcases List.mem_cons.mp ho with rfl | ho
    · exact h.2.2.eq_zero_or_mem.imp_right (List.mem_cons_of_mem _)
    · exact (ih h.2.2 ho).imp_right (List.mem_cons_of_mem _)

/-- There is one list from a block on. -/
theorem unique (h : Linked next p l) (h' : Linked next p l') : l = l' := by
  induction l generalizing p l' with
  | nil =>
    cases l' with
    | nil => rfl
    | cons o l' => exact absurd (h'.1.symm.trans h) h'.2.1
  | cons o l ih =>
    cases l' with
    | nil => exact absurd (h.1.symm.trans h') h.2.1
    | cons o' l' =>
      obtain rfl : o = o' := h.1.symm.trans h'.1
      rw [ih h.2.2 h'.2.2]

/-- What comes behind a block of a list -/
theorem tail (h : Linked next p (l₁ ++ o :: l₂)) : Linked next (next o) l₂ := by
  induction l₁ generalizing p with
  | nil => exact h.2.2
  | cons q l₁ ih => exact ih h.2.2

/-- The block behind `a` is taken out. -/
theorem remove (h : Linked next p (l₁ ++ a :: o :: l₂)) (hn : (l₁ ++ a :: o :: l₂).Nodup) :
    Linked (Function.update next a (next o)) p (l₁ ++ a :: l₂) := by
  induction l₁ generalizing p with
  | nil =>
    obtain ⟨hp, ha, -, -, h⟩ := h
    refine ⟨hp, ha, ?_⟩
    rw [Function.update_self]
    refine h.congr fun q hq => Function.update_of_ne ?_ _ _
    rintro rfl
    exact (List.nodup_cons.mp hn).1 (List.mem_cons_of_mem _ hq)
  | cons q l₁ ih =>
    obtain ⟨hq, hn⟩ := List.nodup_cons.mp hn
    refine ⟨h.1, h.2.1, ?_⟩
    rw [Function.update_of_ne]
    · exact ih h.2.2 hn
    · rintro rfl
      exact hq (List.mem_append_right _ List.mem_cons_self)

/-- A block is put behind `o`. -/
theorem insert (h : Linked next p (l₁ ++ o :: l₂)) (hn : (l₁ ++ o :: l₂).Nodup) (hq : q ≠ 0)
    (hnew : q ∉ l₁ ++ o :: l₂) :
    Linked (Function.update (Function.update next o q) q (next o)) p (l₁ ++ o :: q :: l₂) := by
  induction l₁ generalizing p with
  | nil =>
    obtain ⟨hp, ho, h⟩ := h
    have hoq : o ≠ q := fun hoq => hnew (hoq ▸ List.mem_cons_self)
    refine ⟨hp, ho, ?_, hq, ?_⟩
    · rw [Function.update_of_ne hoq, Function.update_self]
    · rw [Function.update_self]
      refine h.congr fun r hr => ?_
      rw [Function.update_of_ne (ne_of_mem_of_not_mem (List.mem_cons_of_mem _ hr) hnew),
        Function.update_of_ne (ne_of_mem_of_not_mem hr (List.nodup_cons.mp hn).1)]
  | cons r l₁ ih =>
    obtain ⟨hr, hn⟩ := List.nodup_cons.mp hn
    refine ⟨h.1, h.2.1, ?_⟩
    have hrq : r ≠ q := fun hrq => hnew (hrq ▸ List.mem_cons_self)
    have hro : r ≠ o := fun hro => hr (hro ▸ List.mem_append_right _ List.mem_cons_self)
    rw [Function.update_of_ne hrq, Function.update_of_ne hro]
    exact ih h.2.2 hn fun hmem => hnew (List.mem_cons_of_mem _ hmem)

end Linked

/-- All blocks: those on the lists, and those that are on none -/
def members (n : ℕ) (loose : List ℕ) (l : ℕ → List ℕ) : Multiset ℕ :=
  ↑loose + ∑ i ∈ Finset.range n, (l i : Multiset ℕ)

section

variable {n i j o : ℕ} {loose : List ℕ} {l : ℕ → List ℕ} {x : List ℕ}

theorem mem_members : o ∈ members n loose l ↔ o ∈ loose ∨ ∃ i < n, o ∈ l i := by
  simp [members, Multiset.mem_sum]

theorem mem_members_of_mem (hi : i < n) (ho : o ∈ l i) : o ∈ members n loose l :=
  mem_members.mpr (.inr ⟨i, hi, ho⟩)

/-- One of the lists changes. -/
theorem members_update (hi : i < n) :
    members n loose (Function.update l i x) + ↑(l i) = members n loose l + ↑x := by
  have hmem := Finset.mem_range.mpr hi
  rw [members, members, ← Finset.add_sum_erase _ _ hmem,
    ← Finset.add_sum_erase _ (fun i => (l i : Multiset ℕ)) hmem, Function.update_self,
    Finset.sum_congr rfl fun j hj => by rw [Function.update_of_ne (Finset.ne_of_mem_erase hj)]]
  abel

theorem members_cons : members n (o :: loose) l = o ::ₘ members n loose l := by
  rw [members, members, ← Multiset.cons_coe, Multiset.cons_add]

/-- A block goes off a list. -/
theorem members_take (hi : i < n) {l₁ l₂ : List ℕ} (hl : l i = l₁ ++ o :: l₂) :
    members n (o :: loose) (Function.update l i (l₁ ++ l₂)) = members n loose l := by
  have hupdate : members n loose (Function.update l i (l₁ ++ l₂)) + ↑(l i) =
      members n loose l + ↑(l₁ ++ l₂) := members_update hi
  have hli : (l i : Multiset ℕ) = {o} + ↑(l₁ ++ l₂) := by
    rw [hl, Multiset.singleton_add, Multiset.cons_coe]
    exact Multiset.coe_eq_coe.mpr List.perm_middle
  rw [hli, ← add_assoc] at hupdate
  rw [members_cons, ← Multiset.singleton_add, add_comm]
  exact add_right_cancel hupdate

/-- A block is put into a list. -/
theorem members_insert (hi : i < n) {l₁ l₂ : List ℕ} (hl : l i = l₁ ++ l₂) :
    members n loose (Function.update l i (l₁ ++ o :: l₂)) = o ::ₘ members n loose l := by
  have hupdate : members n loose (Function.update l i (l₁ ++ o :: l₂)) + ↑(l i) =
      members n loose l + ↑(l₁ ++ o :: l₂) := members_update hi
  have hli : (↑(l₁ ++ o :: l₂) : Multiset ℕ) = {o} + ↑(l i) := by
    rw [hl, Multiset.singleton_add, Multiset.cons_coe]
    exact Multiset.coe_eq_coe.mpr List.perm_middle
  rw [hli, ← add_assoc] at hupdate
  rw [← Multiset.singleton_add, add_comm]
  exact add_right_cancel hupdate

/-- A block goes to the front of a list. -/
theorem members_push (hi : i < n) :
    members n loose (Function.update l i (o :: l i)) = members n (o :: loose) l := by
  rw [members_cons]
  exact members_insert hi (show l i = [] ++ l i from rfl)

variable (hn : (members n loose l).Nodup)
include hn

theorem nodup_of_members (hi : i < n) : (l i).Nodup := by
  have hle : (l i : Multiset ℕ) ≤ members n loose l :=
    le_trans (Finset.single_le_sum (f := fun i => (l i : Multiset ℕ)) (fun _ _ => Multiset.zero_le _)
      (Finset.mem_range.mpr hi)) (Multiset.le_add_left _ _)
  exact Multiset.coe_nodup.mp (Multiset.nodup_of_le hle hn)

theorem notMem_loose (hi : i < n) (ho : o ∈ l i) : o ∉ loose := by
  rw [members, Multiset.nodup_add] at hn
  intro hmem
  refine Multiset.disjoint_left.mp hn.2.2 (Multiset.mem_coe.mpr hmem) ?_
  exact Multiset.mem_sum.mpr ⟨i, Finset.mem_range.mpr hi, ho⟩

theorem notMem_other (hi : i < n) (hj : j < n) (hne : i ≠ j) (ho : o ∈ l i) : o ∉ l j := by
  have hij : (l i : Multiset ℕ) + ↑(l j) ≤ members n loose l := by
    have hsub : ({i, j} : Finset ℕ) ⊆ Finset.range n := by
      intro k hk
      rw [Finset.mem_insert, Finset.mem_singleton] at hk
      rcases hk with rfl | rfl <;> exact Finset.mem_range.mpr ‹_›
    rw [← Finset.sum_pair hne (f := fun i => (l i : Multiset ℕ))]
    exact le_trans (Finset.sum_le_sum_of_subset hsub) (Multiset.le_add_left _ _)
  have hnodup := Multiset.nodup_add.mp (Multiset.nodup_of_le hij hn)
  exact fun hmem => Multiset.disjoint_left.mp hnodup.2.2 ho hmem

end

end Framework
