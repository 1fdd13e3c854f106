import Mathlib

/-!
# Taking entries off a list

What is left when the first entry with a property, or with a key, is taken off a list,
against a filter of the list.

* `eraseP_modifyFirst`: it does not matter how that entry was changed before;
* `eraseP_eq_filter_iff`: the first entry with a property was the only one to go;
* `filter_flatMap_eq_iff`: the parts went with the wholes;
* `eraseP_key_eq_filter`: with different keys, the entries with the key went.
-/

namespace Framework

variable {α β κ : Type*} [DecidableEq κ] {p q : α → Bool} {l : List α}

theorem filter_eq_filter_iff : l.filter p = l.filter q ↔ ∀ a ∈ l, p a = q a := by
  refine ⟨fun h a ha => ?_, List.filter_congr⟩
  have hmem : a ∈ l.filter p ↔ a ∈ l.filter q := by rw [h]
  rw [List.mem_filter, List.mem_filter, and_iff_right ha, and_iff_right ha] at hmem
  exact Bool.eq_iff_iff.mpr hmem

/-- The same for what is to go. -/
theorem filter_not_eq_filter_not_iff :
    (l.filter fun a => !p a) = (l.filter fun a => !q a) ↔ ∀ a ∈ l, q a = p a := by
  rw [filter_eq_filter_iff]
  exact forall₂_congr fun a _ => by rw [Bool.not_inj_iff, eq_comm]

/-- Everything has gone exactly if everything was to go. -/
theorem nil_eq_filter_not_iff : [] = l.filter (fun a => !q a) ↔ ∀ a ∈ l, q a = true := by
  rw [eq_comm, List.filter_eq_nil_iff]
  simp

/-- The first entry with a property was the one to go exactly if it was and there
was no other. -/
theorem eraseP_eq_filter_iff :
    l.eraseP p = l.filter (fun a => !q a) ↔ l.filter q = (l.find? p).toList := by
  induction l with
  | nil => simp
  | cons a l ih =>
    by_cases hp : p a = true
    · rw [List.eraseP_cons_of_pos hp, List.find?_cons_of_pos hp, Option.toList_some]
      by_cases hq : q a = true
      · rw [List.filter_cons_of_neg (by simp [hq]), List.filter_cons_of_pos hq, List.cons.injEq,
          and_iff_right rfl, eq_comm, List.filter_eq_self, List.filter_eq_nil_iff]
        simp
      · rw [List.filter_cons_of_pos (by simp [hq]), List.filter_cons_of_neg hq]
        refine iff_of_false (fun h => ?_) fun h => ?_
        · -- nothing else was to go, but the list has become shorter
          have hnone := congrArg (List.filter q) h
          rw [List.filter_cons_of_neg hq, List.filter_filter] at hnone
          have hall : l.filter (fun a => !q a) = l := by
            rw [List.filter_eq_self]
            simpa using hnone
          rw [hall] at h
          have hlen := congrArg List.length h
          rw [List.length_cons] at hlen
          omega
        · have ha : a ∈ l.filter q := by rw [h]; exact List.mem_singleton_self a
          exact hq (List.mem_filter.mp ha).2
    · rw [List.eraseP_cons_of_neg hp, List.find?_cons_of_neg hp]
      by_cases hq : q a = true
      · rw [List.filter_cons_of_neg (by simp [hq]), List.filter_cons_of_pos hq]
        refine iff_of_false (fun h => ?_) fun h => ?_
        · have ha : a ∈ l.filter fun a => !q a := by rw [← h]; exact List.mem_cons_self
          simp [hq] at ha
        · have ha : a ∈ (l.find? p).toList := by rw [← h]; exact List.mem_cons_self
          exact hp (List.find?_some (Option.mem_toList.mp ha))
      · rw [List.filter_cons_of_pos (by simp [hq]), List.filter_cons_of_neg hq, List.cons.injEq,
          and_iff_right rfl, ih]

/-- Parts of wholes: those that were to go have gone exactly if each was to go if its
whole was. -/
theorem filter_flatMap_eq_iff {f : α → List β} {q : β → Bool} :
    (l.filter (fun a => !p a)).flatMap f = (l.flatMap f).filter (fun b => !q b) ↔
      ∀ a ∈ l, ∀ b ∈ f a, q b = p a := by
  constructor
  · intro h
    have hkept : ∀ a ∈ l, p a = false → ∀ b ∈ f a, q b = false := fun a ha hp b hb => by
      have hb : b ∈ (l.filter fun a => !p a).flatMap f :=
        List.mem_flatMap.mpr ⟨a, List.mem_filter.mpr ⟨ha, by simp [hp]⟩, hb⟩
      rw [h, List.mem_filter] at hb
      simpa using hb.2
    have hself : ((l.filter fun a => !p a).flatMap f).filter (fun b => !q b) =
        (l.filter fun a => !p a).flatMap f := by
      rw [h, List.filter_filter]
      simp
    -- so nothing is left of the wholes that went
    have hlen := (((List.filter_append_perm p l).flatMap_right f).filter fun b => !q b).length_eq
    rw [List.flatMap_append, List.filter_append, List.length_append, hself, ← h,
      Nat.add_eq_right, List.length_eq_zero_iff, List.filter_eq_nil_iff] at hlen
    intro a ha b hb
    cases hp : p a with
    | false => exact hkept a ha hp b hb
    | true =>
      have hb : b ∈ (l.filter p).flatMap f :=
        List.mem_flatMap.mpr ⟨a, List.mem_filter.mpr ⟨ha, hp⟩, hb⟩
      simpa using hlen b hb
  · intro h
    induction l with
    | nil => rfl
    | cons a l ih =>
      rw [List.forall_mem_cons] at h
      rw [List.flatMap_cons, List.filter_append, ← ih h.2]
      by_cases hp : p a = true
      · have hnil : (f a).filter (fun b => !q b) = [] :=
          List.filter_eq_nil_iff.mpr fun b hb => by simp [h.1 b hb, hp]
        rw [List.filter_cons_of_neg (by simp [hp]), hnil, List.nil_append]
      · have hself : (f a).filter (fun b => !q b) = f a :=
          List.filter_eq_self.mpr fun b hb => by simp [h.1 b hb, hp]
        rw [List.filter_cons_of_pos (by simp [hp]), List.flatMap_cons, hself]

theorem eraseP_key_eq_filter {key : α → κ} (h : (l.map key).Nodup) (i : κ) :
    l.eraseP (key · = i) = l.filter (key · ≠ i) := by
  induction l with
  | nil => rfl
  | cons a l ih =>
    rw [List.map_cons, List.nodup_cons] at h
    by_cases ha : key a = i
    · have hl : ∀ b ∈ l, key b ≠ i := fun b hb hi => h.1 (ha.trans hi.symm ▸ List.mem_map_of_mem hb)
      rw [List.eraseP_cons_of_pos (by simpa using ha), List.filter_cons_of_neg (by simpa using ha),
        eq_comm, List.filter_eq_self]
      simpa using hl
    · rw [List.eraseP_cons_of_neg (by simpa using ha), List.filter_cons_of_pos (by simpa using ha),
        ih h.2]

/-- The first entry with a property is changed. -/
def modifyFirst (p : α → Bool) (f : α → α) : List α → List α
  | [] => []
  | a :: l => if p a then f a :: l else a :: modifyFirst p f l

theorem eraseP_modifyFirst {f : α → α} (h : ∀ a, p (f a) = p a) :
    (modifyFirst p f l).eraseP p = l.eraseP p := by
  induction l with
  | nil => rfl
  | cons a l ih =>
    rw [modifyFirst]
    by_cases ha : p a = true
    · rw [if_pos ha, List.eraseP_cons_of_pos ((h a).trans ha), List.eraseP_cons_of_pos ha]
    · rw [if_neg ha, List.eraseP_cons_of_neg ha, List.eraseP_cons_of_neg ha, ih]

theorem find?_modifyFirst {f : α → α} (h : ∀ a, p (f a) = p a) :
    (modifyFirst p f l).find? p = (l.find? p).map f := by
  induction l with
  | nil => rfl
  | cons a l ih =>
    rw [modifyFirst]
    by_cases ha : p a = true
    · rw [if_pos ha, List.find?_cons_of_pos ((h a).trans ha), List.find?_cons_of_pos ha]
      rfl
    · rw [if_neg ha, List.find?_cons_of_neg ha, List.find?_cons_of_neg ha, ih]

theorem map_modifyFirst {f : α → α} {g : α → β} (h : ∀ a, g (f a) = g a) :
    (modifyFirst p f l).map g = l.map g := by
  induction l with
  | nil => rfl
  | cons a l ih =>
    rw [modifyFirst]
    by_cases ha : p a = true
    · rw [if_pos ha, List.map_cons, List.map_cons, h]
    · rw [if_neg ha, List.map_cons, List.map_cons, ih]

/-- The list is as before exactly if the entry is. -/
theorem modifyFirst_eq_self_iff {f : α → α} {a : α} (h : l.find? p = some a) :
    modifyFirst p f l = l ↔ f a = a := by
  induction l with
  | nil => cases h
  | cons b l ih =>
    rw [modifyFirst]
    by_cases hb : p b = true
    · rw [List.find?_cons_of_pos hb] at h
      obtain rfl := Option.some.inj h
      rw [if_pos hb, List.cons.injEq, and_iff_left rfl]
    · rw [List.find?_cons_of_neg hb] at h
      rw [if_neg hb, List.cons.injEq, and_iff_right rfl, ih h]

/-- A search for something else. -/
theorem find?_modifyFirst_of_not {f : α → α} (h : ∀ a, p a = true → q a = false ∧ q (f a) = false) :
    (modifyFirst p f l).find? q = l.find? q := by
  induction l with
  | nil => rfl
  | cons a l ih =>
    rw [modifyFirst]
    by_cases ha : p a = true
    · obtain ⟨h₁, h₂⟩ := h a ha
      rw [if_pos ha, List.find?_cons_of_neg (by simp [h₂]), List.find?_cons_of_neg (by simp [h₁])]
    · rw [if_neg ha, List.find?_cons, List.find?_cons, ih]

end Framework
