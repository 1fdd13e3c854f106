import Mathlib

/-!
# Records filled from keyed entries

A record is filled by going over a list of entries: an entry is read into every slot
whose key it hits, and reading may fail. If no key occurs twice, the slots do not touch
one another and an entry hits the slot of its own key alone, the order of the entries does
not matter (`fillIn_eq`): what a slot gets is read off the entry of its key, if there is one.

* `pass_comm`: a slot commutes with going over the others, by induction on them;
* `pass_lookups`: going over an entry and then over the slots, by induction on the slots;
* `fillIn_lookups`: the whole list, by induction on the entries;
* `steps_isSome_iff`: it fails if and only if reading some slot's entry does.
-/

namespace Framework

/-- A slot of the record `ι`: what is read for it and where that is put. -/
structure Slot (κ ν ι : Type) where
  key : κ
  Val : Type
  /-- What there is if nothing has been read. -/
  blank : Val
  read : ν → Option Val
  put : Val → ι → ι

variable {κ ν ι : Type}

namespace Slot

/-- The slots do not touch one another. -/
def Commute (s t : Slot κ ν ι) : Prop := ∀ v w r, s.put v (t.put w r) = t.put w (s.put v r)

/-- The value read for a slot from the entries -/
def value [BEq κ] (s : Slot κ ν ι) (entries : List (κ × ν)) : Option s.Val :=
  match entries.lookup s.key with
  | none => some s.blank
  | some v => s.read v

/-- An entry's value is put into a slot. -/
def enter (s : Slot κ ν ι) (v : ν) (r : ι) : Option ι := (s.read v).map (s.put · r)

/-- The value of a slot's key is put into it, if there is one. -/
def look [BEq κ] (entries : List (κ × ν)) (r : ι) (s : Slot κ ν ι) : Option ι :=
  match entries.lookup s.key with
  | none => some r
  | some v => s.enter v r

/-- What has been read for a slot is put into it. -/
def step [BEq κ] (entries : List (κ × ν)) (r : ι) (s : Slot κ ν ι) : Option ι :=
  (s.value entries).map (s.put · r)

end Slot

/-- An entry is put into every slot that it hits. -/
def pass (hit : κ → κ → Bool) (slots : List (Slot κ ν ι)) (e : κ × ν) (r : ι) : Option ι :=
  slots.foldlM (fun r s => if hit e.1 s.key then s.enter e.2 r else some r) r

/-- A record is filled from the entries. -/
def fillIn (hit : κ → κ → Bool) (slots : List (Slot κ ν ι)) (entries : List (κ × ν)) (r : ι) :
    Option ι :=
  entries.foldlM (fun r e => pass hit slots e r) r

/-! ## Order -/

theorem enter_comm {s t : Slot κ ν ι} (h : s.Commute t) (v w : ν) (r : ι) :
    (s.enter v r).bind (t.enter w) = (t.enter w r).bind (s.enter v) := by
  unfold Slot.enter
  cases hs : s.read v with
  | none => cases t.read w <;> rfl
  | some x =>
    cases ht : t.read w with
    | none => rfl
    | some y => exact congrArg some (h x y r).symm

theorem pass_comm (hit : κ → κ → Bool) {s : Slot κ ν ι} {slots : List (Slot κ ν ι)}
    (h : ∀ t ∈ slots, s.Commute t) (e : κ × ν) (v : ν) (r : ι) :
    (pass hit slots e r).bind (s.enter v) = (s.enter v r).bind (pass hit slots e) := by
  induction slots generalizing r with
  | nil =>
    show s.enter v r = (s.enter v r).bind some
    rw [Option.bind_fun_some]
  | cons t slots ih =>
    have iht := ih fun t' ht => h t' (List.mem_cons_of_mem t ht)
    show ((if hit e.1 t.key then t.enter e.2 r else some r).bind (pass hit slots e)).bind _ =
      (s.enter v r).bind fun r =>
        (if hit e.1 t.key then t.enter e.2 r else some r).bind (pass hit slots e)
    by_cases ht : hit e.1 t.key
    · simp only [if_pos ht]
      calc ((t.enter e.2 r).bind (pass hit slots e)).bind (s.enter v)
          = (t.enter e.2 r).bind fun r => (pass hit slots e r).bind (s.enter v) :=
            Option.bind_assoc ..
        _ = (t.enter e.2 r).bind fun r => (s.enter v r).bind (pass hit slots e) := by
            simp only [iht]
        _ = ((t.enter e.2 r).bind (s.enter v)).bind (pass hit slots e) :=
            (Option.bind_assoc ..).symm
        _ = ((s.enter v r).bind (t.enter e.2)).bind (pass hit slots e) := by
            rw [enter_comm (h t List.mem_cons_self)]
        _ = (s.enter v r).bind fun r => (t.enter e.2 r).bind (pass hit slots e) :=
            Option.bind_assoc ..
    · simp only [if_neg ht, Option.bind_some]
      exact iht r

/-- An entry that hits no slot changes nothing. -/
theorem pass_miss (hit : κ → κ → Bool) {slots : List (Slot κ ν ι)} {e : κ × ν}
    (h : ∀ s ∈ slots, ¬hit e.1 s.key) (r : ι) : pass hit slots e r = some r := by
  induction slots generalizing r with
  | nil => rfl
  | cons s slots ih =>
    show (if hit e.1 s.key then s.enter e.2 r else some r).bind (pass hit slots e) = some r
    rw [if_neg (h s List.mem_cons_self), Option.bind_some]
    exact ih (fun t ht => h t (List.mem_cons_of_mem s ht)) r

/-! ## Reading -/

section Steps

variable [BEq κ] {slots : List (Slot κ ν ι)} {entries : List (κ × ν)}

/-- A slot that has not been touched is looked up as it is read. -/
theorem look_eq_step {s : Slot κ ν ι} {r : ι} (h : s.put s.blank r = r) :
    Slot.look entries r s = Slot.step entries r s := by
  unfold Slot.look Slot.step Slot.value
  cases entries.lookup s.key with
  | none => exact congrArg some h.symm
  | some v => rfl

/-- What a slot is filled with leaves the other slots untouched. -/
theorem step_blank {s t : Slot κ ν ι} (h : s.Commute t) {r r' : ι} (ht : t.put t.blank r = r)
    (hr : Slot.step entries r s = some r') : t.put t.blank r' = r' := by
  obtain ⟨v, -, rfl⟩ := Option.map_eq_some_iff.mp hr
  rw [← h, ht]

theorem lookups_steps (hcomm : slots.Pairwise Slot.Commute) {r : ι}
    (hblank : ∀ s ∈ slots, s.put s.blank r = r) :
    slots.foldlM (Slot.look entries) r = slots.foldlM (Slot.step entries) r := by
  induction slots generalizing r with
  | nil => rfl
  | cons s slots ih =>
    obtain ⟨hs, hcomm⟩ := List.pairwise_cons.mp hcomm
    show (Slot.look entries r s).bind _ = (Slot.step entries r s).bind _
    rw [look_eq_step (hblank s List.mem_cons_self)]
    apply Option.bind_congr
    intro r' hr
    apply ih hcomm
    intro t ht
    exact step_blank (hs t ht) (hblank t (List.mem_cons_of_mem s ht)) hr

/-- A record is filled unless a slot cannot be read. -/
theorem steps_isSome_iff (r : ι) :
    (slots.foldlM (Slot.step entries) r).isSome ↔ ∀ s ∈ slots, (s.value entries).isSome := by
  induction slots generalizing r with
  | nil => simp
  | cons s slots ih =>
    rw [List.forall_mem_cons]
    show ((Slot.step entries r s).bind _).isSome ↔ _
    unfold Slot.step
    cases hs : s.value entries with
    | none => simp
    | some v =>
      simp only [Option.map_some, Option.bind_some, Option.isSome_some, true_and]
      exact ih (s.put v r)

end Steps

/-! ## Filling -/

section Entries

variable [BEq κ] [LawfulBEq κ] (hit : κ → κ → Bool) {slots : List (Slot κ ν ι)}

theorem pass_lookups {e : κ × ν} {entries : List (κ × ν)}
    (hhit : ∀ s ∈ slots, hit e.1 s.key = true ↔ e.1 = s.key)
    (hfresh : entries.lookup e.1 = none) (hkeys : (slots.map Slot.key).Nodup)
    (hcomm : slots.Pairwise Slot.Commute) (r : ι) :
    (pass hit slots e r).bind (fun r => slots.foldlM (Slot.look entries) r) =
      slots.foldlM (Slot.look (e :: entries)) r := by
  induction slots generalizing r with
  | nil => rfl
  | cons s slots ih =>
    rw [List.map_cons, List.nodup_cons] at hkeys
    obtain ⟨hs, hcomm⟩ := List.pairwise_cons.mp hcomm
    have hrest := ih (fun t ht => hhit t (List.mem_cons_of_mem s ht)) hkeys.2 hcomm
    have hmem := hhit s List.mem_cons_self
    have hpass : pass hit (s :: slots) e r =
        (if hit e.1 s.key then s.enter e.2 r else some r).bind (pass hit slots e) := rfl
    rw [hpass]
    show _ = (Slot.look (e :: entries) r s).bind fun r =>
      slots.foldlM (Slot.look (e :: entries)) r
    by_cases he : e.1 = s.key
    · have hmiss : ∀ t ∈ slots, ¬hit e.1 t.key := by
        intro t ht hk
        rw [hhit t (List.mem_cons_of_mem s ht)] at hk
        exact hkeys.1 (List.mem_map.mpr ⟨t, ht, by rw [← hk, he]⟩)
      have hlook : Slot.look (e :: entries) r s = s.enter e.2 r := by
        simp [Slot.look, List.lookup, he]
      have hnone : ∀ r, Slot.look entries r s = some r := by
        intro r
        rw [Slot.look, ← he, hfresh]
      rw [if_pos (hmem.mpr he), hlook, Option.bind_assoc]
      apply Option.bind_congr
      intro r' _
      rw [← hrest r', pass_miss hit hmiss, Option.bind_some, Option.bind_some]
      show (Slot.look entries r' s).bind _ = _
      rw [hnone, Option.bind_some]
    · have hlook : ∀ r, Slot.look (e :: entries) r s = Slot.look entries r s := by
        intro r
        have hb : (s.key == e.1) = false := beq_false_of_ne (Ne.symm he)
        simp [Slot.look, List.lookup, hb]
      rw [if_neg fun h => he (hmem.mp h), Option.bind_some, hlook]
      simp only [← hrest]
      show (pass hit slots e r).bind (fun r => (Slot.look entries r s).bind fun r =>
        slots.foldlM (Slot.look entries) r) = _
      unfold Slot.look
      cases entries.lookup s.key with
      | none => simp only [Option.bind_some]
      | some v =>
        simp only []
        rw [← Option.bind_assoc, ← Option.bind_assoc, pass_comm hit hs]

variable {entries : List (κ × ν)}

theorem fillIn_lookups (hhit : ∀ e ∈ entries, ∀ s ∈ slots, hit e.1 s.key = true ↔ e.1 = s.key)
    (honce : (entries.map Prod.fst).Nodup) (hkeys : (slots.map Slot.key).Nodup)
    (hcomm : slots.Pairwise Slot.Commute) (r : ι) :
    fillIn hit slots entries r = slots.foldlM (Slot.look entries) r := by
  induction entries generalizing r with
  | nil =>
    have hnone : ∀ (slots : List (Slot κ ν ι)) (r : ι),
        slots.foldlM (Slot.look ([] : List (κ × ν))) r = some r := by
      intro slots
      induction slots with
      | nil => exact fun r => rfl
      | cons s slots ih => exact ih
    rw [hnone]
    rfl
  | cons e entries ih =>
    rw [List.map_cons, List.nodup_cons] at honce
    have hfresh : entries.lookup e.1 = none := by
      rw [List.lookup_eq_none_iff]
      intro p hp
      simp only [ne_eq, bne_iff_ne]
      intro he
      exact honce.1 (List.mem_map.mpr ⟨p, hp, he.symm⟩)
    rw [← pass_lookups hit (hhit e List.mem_cons_self) hfresh hkeys hcomm]
    show (pass hit slots e r).bind (fillIn hit slots entries) = _
    apply Option.bind_congr
    intro r' _
    exact ih (fun e' he => hhit e' (List.mem_cons_of_mem e he)) honce.2 r'

/-- The slots are filled one by one, each from the entry of its key. -/
theorem fillIn_eq (hhit : ∀ e ∈ entries, ∀ s ∈ slots, hit e.1 s.key = true ↔ e.1 = s.key)
    (honce : (entries.map Prod.fst).Nodup) (hkeys : (slots.map Slot.key).Nodup)
    (hcomm : slots.Pairwise Slot.Commute) {r : ι} (hblank : ∀ s ∈ slots, s.put s.blank r = r) :
    fillIn hit slots entries r = slots.foldlM (Slot.step entries) r := by
  rw [fillIn_lookups hit hhit honce hkeys hcomm, lookups_steps hcomm hblank]

end Entries

end Framework
