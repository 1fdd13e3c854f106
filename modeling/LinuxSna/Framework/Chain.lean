import LinuxSna.Framework.Table

/-!
# Allocated memory and linked rows

Blocks by their addresses. A block that has been freed has an address that may be given out again.
Then singly linked rows in allocated memory, as loops find them that begin at a pointer and go on with
the `next` of each row.

* `Heap.get_fresh`: nothing is allocated where memory is given out;
* `Heap.get_put_self`, `Heap.get_put_ne`: storing changes what stands at one address;
* `Chain.search_eq`: a loop finds the first row that there is;
* `Chain.frame`: rows stay linked if memory changes elsewhere;
* `putRow_spec`: storing a row under its key changes what is found for that key only;
* `Owns.putRow`: and it changes no other chain;
* `Owns.freeAll_none`, `Owns.freeAll_row`: a loop that frees each row before it reads where to go on gets to
  its end only if there are none.
-/

namespace Framework

/-- The blocks that are allocated, by their addresses. -/
structure Heap (α : Type*) where
  cells : List (Option α)

namespace Heap

variable {α : Type*} (h : Heap α) (p : Nat)

/-- Nothing is allocated. -/
def empty : Heap α := ⟨[]⟩

/-- What stands at an address, if it is allocated. -/
def get : Option α := h.cells[p]?.join

/-- The block at an address is stored, or freed. -/
def put (x : Option α) : Heap α :=
  if p < h.cells.length then ⟨h.cells.set p x⟩ else ⟨h.cells ++ [x]⟩

/-- An address that can be given out: the one that the system has in mind, if it has been freed, or
else a new one. -/
def fresh (hint : Nat) : Nat :=
  if hint < h.cells.length ∧ h.get hint = none then hint else h.cells.length

variable {h p} {q : Nat} {x : Option α}

@[simp] theorem get_empty : (empty : Heap α).get p = none := rfl

theorem get_eq_none_of_le (hp : h.cells.length ≤ p) : h.get p = none := by
  rw [get, List.getElem?_eq_none hp]
  rfl

theorem fresh_le (hint : Nat) : h.fresh hint ≤ h.cells.length := by
  rw [fresh]
  split_ifs with hfree
  · exact Nat.le_of_lt hfree.1
  · exact Nat.le_refl _

theorem get_fresh (hint : Nat) : h.get (h.fresh hint) = none := by
  rw [fresh]
  split_ifs with hfree
  · exact hfree.2
  · exact get_eq_none_of_le (Nat.le_refl _)

theorem get_put_self (hp : p ≤ h.cells.length) : (h.put p x).get p = x := by
  rw [put]
  split_ifs with hlt
  · rw [get, List.getElem?_set_self hlt]
    rfl
  · obtain rfl : p = h.cells.length := by omega
    rw [get, List.getElem?_concat_length]
    rfl

theorem get_put_ne (hp : p ≤ h.cells.length) (hq : q ≠ p) : (h.put p x).get q = h.get q := by
  rw [put]
  split_ifs with hlt
  · rw [get, get, List.getElem?_set_ne hq.symm]
  · obtain rfl : p = h.cells.length := by omega
    rw [get, get, List.getElem?_append]
    split_ifs with hql
    · rfl
    · rw [List.getElem?_eq_none (by rw [List.length_singleton]; omega),
        List.getElem?_eq_none (Nat.not_lt.mp hql)]

/-- What is allocated has an address below the others. -/
theorem le_of_get (hget : h.get p ≠ none) : p ≤ h.cells.length := by
  by_contra hlt
  exact hget (get_eq_none_of_le (Nat.le_of_not_le hlt))

end Heap

end Framework

namespace Framework

/-- A row with a pointer to the next -/
structure Link (α : Type*) where
  row : α
  next : Option Nat

variable {α κ : Type*}

/-- Each row is freed, and then it is read where the next one is. -/
def freeAll : Nat → Option Nat → Heap (Link α) → Option (Heap (Link α))
  | _, none, h => some h
  | 0, some _, _ => none
  | fuel + 1, some p, h => ((h.put p none).get p).bind fun l => freeAll fuel l.next (h.put p none)

variable (h : Heap (Link α))

/-- The rows from a pointer on, with their addresses -/
inductive Chain : Option Nat → List (Nat × α) → Prop
  | nil : Chain none []
  | cons {p : Nat} {a : α} {next : Option Nat} {rows : List (Nat × α)} :
      h.get p = some ⟨a, next⟩ → Chain next rows → p ∉ rows.map Prod.fst → Chain (some p) ((p, a) :: rows)

/-- Where the first row is that meets `q`. `none` is where memory is read that is not allocated, or where
`fuel` rows are not enough. -/
def search (q : α → Bool) : Nat → Option Nat → Option (Option Nat)
  | _, none => some none
  | 0, some _ => none
  | fuel + 1, some p => (h.get p).bind fun l => if q l.row then some (some p) else search q fuel l.next

/-- The rows of a heap are no more than its cells. -/
def rowFuel : Nat := h.cells.length

variable [DecidableEq κ] (key : α → κ)

/-- A row is stored over the one that was found, or in a new block in front. `mem` is whether there is memory
for it, and `hint` where. `some none` is when it runs out. -/
def storeRow (mem : Bool) (hint : Nat) (start : Option Nat) (a : α) (found : Option Nat) :
    Option (Option (Heap (Link α) × Option Nat)) :=
  match found with
  | some p => (h.get p).map fun l => some (h.put p (some { l with row := a }), start)
  | none =>
    some (if mem then some (h.put (h.fresh hint) (some ⟨a, start⟩), some (h.fresh hint)) else none)

/-- A row is stored under its key. -/
def putRow (mem : Bool) (hint : Nat) (start : Option Nat) (a : α) :
    Option (Option (Heap (Link α) × Option Nat)) :=
  (search h (fun b => key b = key a) (rowFuel h) start).bind (storeRow h mem hint start a)

/-- The row with a key -/
def rowAt (k : κ) (start : Option Nat) : Option α :=
  ((search h (fun b => key b = k) (rowFuel h) start).join.bind h.get).map Link.row

variable {h key} {h' : Heap (Link α)} {k : κ} {a : α} {p : Nat} {start next : Option Nat}
  {rows rows' : List (Nat × α)}

namespace Chain

theorem get_of_mem (hc : Chain h start rows) (hp : (p, a) ∈ rows) :
    ∃ next, h.get p = some ⟨a, next⟩ := by
  induction hc with
  | nil => exact absurd hp List.not_mem_nil
  | cons hget _ _ ih =>
    rcases List.mem_cons.mp hp with heq | hp
    · cases heq
      exact ⟨_, hget⟩
    · exact ih hp

theorem get_ne_none (hc : Chain h start rows) (hp : p ∈ rows.map Prod.fst) : h.get p ≠ none := by
  obtain ⟨⟨_, a⟩, hmem, rfl⟩ := List.mem_map.mp hp
  obtain ⟨next, hget⟩ := hc.get_of_mem hmem
  rw [hget]
  exact Option.some_ne_none _

theorem nodup (hc : Chain h start rows) : (rows.map Prod.fst).Nodup := by
  induction hc with
  | nil => exact List.nodup_nil
  | cons _ _ hnew ih => exact List.nodup_cons.mpr ⟨hnew, ih⟩

/-- There is a cell for each row. -/
theorem length_le (hc : Chain h start rows) : rows.length ≤ rowFuel h := by
  have hsub : rows.map Prod.fst ⊆ List.range h.cells.length := by
    intro p hp
    rw [List.mem_range]
    by_contra hle
    exact hc.get_ne_none hp (Heap.get_eq_none_of_le (Nat.le_of_not_lt hle))
  have hle := (hc.nodup.subperm hsub).length_le
  rwa [List.length_map, List.length_range] at hle

/-- What stands elsewhere does not matter. -/
theorem frame (hc : Chain h start rows) (hsame : ∀ p ∈ rows.map Prod.fst, h'.get p = h.get p) :
    Chain h' start rows := by
  induction hc with
  | nil => exact .nil
  | cons hget _ hnew ih =>
    rw [List.map_cons, List.forall_mem_cons] at hsame
    exact .cons (hsame.1.trans hget) (ih hsame.2) hnew

theorem search_eq (hc : Chain h start rows) (q : α → Bool) {fuel : Nat} (hfuel : rows.length ≤ fuel) :
    search h q fuel start = some ((rows.find? fun r => q r.2).map Prod.fst) := by
  induction hc generalizing fuel with
  | nil => cases fuel <;> rfl
  | @cons p a next rows hget _ _ ih =>
    obtain ⟨fuel, rfl⟩ := Nat.exists_eq_succ_of_ne_zero (Nat.ne_of_gt (Nat.lt_of_lt_of_le
      (Nat.succ_pos rows.length) hfuel))
    rw [search, hget, Option.bind_some, List.find?_cons, ih (Nat.le_of_succ_le_succ hfuel)]
    cases q a <;> rfl

/-- A row is written over where it stands. -/
theorem update (hc : Chain h start rows) {b : α}
    (hfind : find (fun r => key r.2) k rows = some (p, b)) (hget : h.get p = some ⟨b, next⟩) :
    Chain (h.put p (some ⟨a, next⟩)) start
      (update (fun r => key r.2) k (fun r => (r.1, a)) rows) := by
  have hle : p ≤ h.cells.length := Heap.le_of_get (by rw [hget]; exact Option.some_ne_none _)
  have hkeep : ∀ rows : List (Nat × α), (Framework.update (fun r => key r.2) k (fun r => (r.1, a)) rows).map
      Prod.fst = rows.map Prod.fst := fun rows => map_update Prod.fst fun _ => rfl
  induction hc with
  | nil => cases hfind
  | @cons p' a' next' rows hget' htail hnew ih =>
    rw [find_cons] at hfind
    rw [Framework.update]
    by_cases hkey : key a' = k
    · rw [if_pos hkey] at hfind ⊢
      cases hfind
      cases hget.symm.trans hget'
      refine .cons (Heap.get_put_self hle) (htail.frame fun q hq => ?_) hnew
      exact Heap.get_put_ne hle (ne_of_mem_of_not_mem hq hnew)
    · rw [if_neg hkey] at hfind ⊢
      have hp : p ∈ rows.map Prod.fst := List.mem_map_of_mem (mem_of_find hfind)
      refine .cons ?_ (ih hfind) ?_
      · rw [Heap.get_put_ne hle (ne_of_mem_of_not_mem hp hnew).symm, hget']
      · rw [hkeep]
        exact hnew

/-- A row is put in front. -/
theorem push (hc : Chain h start rows) {p : Nat} (hp : p ≤ h.cells.length) (hfree : h.get p = none) (a : α) :
    Chain (h.put p (some ⟨a, start⟩)) (some p) ((p, a) :: rows) := by
  have hnew : p ∉ rows.map Prod.fst := fun hmem => hc.get_ne_none hmem hfree
  refine .cons (Heap.get_put_self hp) (hc.frame fun q hq => ?_) hnew
  exact Heap.get_put_ne hp (ne_of_mem_of_not_mem hq hnew)

/-- Freeing one row after the other comes to an end if there is none. -/
theorem freeAll_eq (hc : Chain h start rows) (fuel : Nat) :
    freeAll fuel start h = if rows = [] then some h else none := by
  cases hc with
  | nil => cases fuel <;> rfl
  | @cons p a next rows hget htail hnew =>
    rw [if_neg (List.cons_ne_nil _ _)]
    cases fuel with
    | zero => rfl
    | succ fuel =>
      have hle : p ≤ h.cells.length := Heap.le_of_get (by rw [hget]; exact Option.some_ne_none _)
      rw [freeAll, Heap.get_put_self hle]
      rfl

end Chain

/-- The first row with a key -/
abbrev rowOf (key : α → κ) (k : κ) (rows : List (Nat × α)) : Option α :=
  (find (fun r => key r.2) k rows).map Prod.snd

theorem Chain.search_key (hc : Chain h start rows) (k : κ) :
    search h (fun b => key b = k) (rowFuel h) start =
      some ((find (fun r => key r.2) k rows).map Prod.fst) := hc.search_eq _ hc.length_le

theorem Chain.rowAt_eq (hc : Chain h start rows) (k : κ) : rowAt h key k start = rowOf key k rows := by
  rw [rowAt, hc.search_key, rowOf]
  cases hfind : find (fun r => key r.2) k rows with
  | none => rfl
  | some r =>
    obtain ⟨p, a⟩ := r
    obtain ⟨next, hget⟩ := hc.get_of_mem (mem_of_find hfind)
    show (h.get p).map Link.row = some a
    rw [hget]
    rfl

/-- What is there after a row was stored -/
structure Stored (h : Heap (Link α)) (key : α → κ) (rows : List (Nat × α)) (a : α) (h' : Heap (Link α))
    (start' : Option Nat) (rows' : List (Nat × α)) : Prop where
  chain : Chain h' start' rows'
  row (k : κ) : rowOf key k rows' = if k = key a then some a else rowOf key k rows
  elsewhere (q : Nat) : q ∉ rows.map Prod.fst → h.get q ≠ none → h'.get q = h.get q
  addresses (q : Nat) : q ∈ rows'.map Prod.fst → q ∈ rows.map Prod.fst ∨ h.get q = none
  keys : (rows.map fun r => key r.2).Nodup → (rows'.map fun r => key r.2).Nodup

variable (key) in
theorem putRow_spec (hc : Chain h start rows) (mem : Bool) (hint : Nat) (a : α) :
    if mem = false ∧ rowOf key (key a) rows = none then putRow h key mem hint start a = some none
    else ∃ h' start' rows', putRow h key mem hint start a = some (some (h', start')) ∧
      Stored h key rows a h' start' rows' := by
  cases hfind : find (fun r => key r.2) (key a) rows with
  | none =>
    have hnone : rowOf key (key a) rows = none := by
      rw [rowOf, hfind]
      rfl
    rw [putRow, hc.search_key, hfind, Option.bind_some, Option.map_none, storeRow]
    cases mem with
    | false =>
      rw [if_pos ⟨rfl, hnone⟩]
      rfl
    | true =>
      rw [if_neg fun hmem => Bool.noConfusion hmem.1]
      refine ⟨_, _, (h.fresh hint, a) :: rows, rfl, hc.push (Heap.fresh_le hint) (Heap.get_fresh hint) a,
        fun k => ?_, fun q _ hq => ?_, fun q hq => ?_, fun hn => ?_⟩
      · rw [rowOf, find_cons]
        by_cases hk : k = key a
        · rw [if_pos hk, if_pos hk.symm]
          rfl
        · rw [if_neg hk, if_neg (Ne.symm hk)]
      · refine Heap.get_put_ne (Heap.fresh_le hint) ?_
        rintro rfl
        exact hq (Heap.get_fresh hint)
      · rcases List.mem_cons.mp hq with rfl | hq
        · exact .inr (Heap.get_fresh hint)
        · exact .inl hq
      · exact List.nodup_cons.mpr ⟨find_eq_none.mp hfind, hn⟩
  | some r =>
    obtain ⟨p, b⟩ := r
    obtain ⟨next, hget⟩ := hc.get_of_mem (mem_of_find hfind)
    have hle : p ≤ h.cells.length := Heap.le_of_get (by rw [hget]; exact Option.some_ne_none _)
    have hp : p ∈ rows.map Prod.fst := List.mem_map_of_mem (mem_of_find hfind)
    have hput : putRow h key mem hint start a = some (some (h.put p (some ⟨a, next⟩), start)) := by
      rw [putRow, hc.search_key, hfind, Option.bind_some, Option.map_some, storeRow, hget]
      rfl
    have hkeep : ∀ r : Nat × α, key r.2 = key a → key (r.1, a).2 = key a := fun _ _ => rfl
    rw [if_neg fun hmem => by rw [rowOf, hfind] at hmem; cases hmem.2]
    refine ⟨_, _, _, hput, hc.update hfind hget, fun k => ?_, fun q hq _ => ?_, fun q hq => ?_,
      fun hn => ?_⟩
    · rw [rowOf, find_update (f := fun r => (r.1, a)) hkeep]
      by_cases hk : k = key a
      · rw [if_pos hk, if_pos hk, hk, hfind]
        rfl
      · rw [if_neg hk, if_neg hk]
    · exact Heap.get_put_ne hle (ne_of_mem_of_not_mem hp hq).symm
    · rw [map_update (f := fun r => (r.1, a)) Prod.fst fun _ => rfl] at hq
      exact .inl hq
    · rw [map_key_update (f := fun r => (r.1, a)) hkeep]
      exact hn

/-! ## Several chains -/

variable {ω : Type*} {owner owner' : Nat → ω} {o o' : ω}

/-- From a pointer on there are rows with different keys, in blocks that belong to `o`. -/
def Owns (h : Heap (Link α)) (key : α → κ) (owner : Nat → ω) (o : ω) (start : Option Nat) : Prop :=
  ∃ rows, Chain h start rows ∧ (∀ p ∈ rows.map Prod.fst, owner p = o) ∧
    (rows.map fun r => key r.2).Nodup

omit [DecidableEq κ] in
theorem owns_none : Owns h key owner o none :=
  ⟨[], .nil, fun _ hp => absurd hp List.not_mem_nil, List.nodup_nil⟩

@[simp] theorem rowAt_none : rowAt h key k none = none := by
  have hc : Chain h none [] := .nil
  exact hc.rowAt_eq k

/-- What is there after one of the owners has stored a row -/
structure RowPut (h : Heap (Link α)) (key : α → κ) (owner : Nat → ω) (o : ω) (start : Option Nat) (a : α)
    (h' : Heap (Link α)) (start' : Option Nat) (owner' : Nat → ω) : Prop where
  owns : Owns h' key owner' o start'
  row (k : κ) : rowAt h' key k start' = if k = key a then some a else rowAt h key k start
  others {o' : ω} {s : Option Nat} : o' ≠ o → Owns h key owner o' s →
    Owns h' key owner' o' s ∧ ∀ k, rowAt h' key k s = rowAt h key k s

namespace RowPut

variable {a : α} (hst : RowPut h key owner o start a h' start' owner')
include hst

/-- All rows of the owner -/
theorem rowAt_eq : (fun k => rowAt h' key k start') =
    Function.update (fun k => rowAt h key k start) (key a) (some a) := by
  funext k
  rw [Function.update_apply, hst.row]

/-- And of another -/
theorem rowAt_other {s : Option Nat} (hne : o' ≠ o) (ho : Owns h key owner o' s) :
    (fun k => rowAt h' key k s) = fun k => rowAt h key k s :=
  funext (hst.others hne ho).2

end RowPut

theorem Owns.putRow (ho : Owns h key owner o start) (mem : Bool) (hint : Nat) (a : α) :
    if mem = false ∧ rowAt h key (key a) start = none then putRow h key mem hint start a = some none
    else ∃ h' start' owner', Framework.putRow h key mem hint start a = some (some (h', start')) ∧
      RowPut h key owner o start a h' start' owner' := by
  classical
  obtain ⟨rows, hc, howner, hkeys⟩ := ho
  have hspec := putRow_spec key hc mem hint a
  rw [← hc.rowAt_eq] at hspec
  split
  · rename_i hout
    rw [if_pos hout] at hspec
    exact hspec
  · rename_i hin
    rw [if_neg hin] at hspec
    obtain ⟨h', start', rows', hput, hst⟩ := hspec
    -- a block that was free belongs to the one that it is given to
    refine ⟨h', start', fun p => if h.get p = none then o else owner p, hput, ?_, fun k => ?_, ?_⟩
    · refine ⟨rows', hst.chain, fun p hp => ?_, hst.keys hkeys⟩
      by_cases hget : h.get p = none
      · exact if_pos hget
      · exact (if_neg hget).trans (howner p ((hst.addresses p hp).resolve_right hget))
    · rw [hst.chain.rowAt_eq, hst.row, hc.rowAt_eq]
    · rintro o' s hne ⟨rows₂, hc₂, howner₂, hkeys₂⟩
      have hframe : Chain h' s rows₂ := by
        refine hc₂.frame fun p hp => hst.elsewhere p (fun hmem => hne ?_) (hc₂.get_ne_none hp)
        rw [← howner₂ p hp, howner p hmem]
      refine ⟨⟨rows₂, hframe, fun p hp => ?_, hkeys₂⟩, fun k => ?_⟩
      · exact (if_neg (hc₂.get_ne_none hp)).trans (howner₂ p hp)
      · rw [hframe.rowAt_eq, hc₂.rowAt_eq]

/-- Without rows there is nothing to free. -/
theorem Owns.freeAll_none (ho : Owns h key owner o start) (hnone : ∀ k, rowAt h key k start = none)
    (fuel : Nat) : freeAll fuel start h = some h := by
  obtain ⟨rows, hc, -, -⟩ := ho
  rw [hc.freeAll_eq, if_pos]
  cases hc with
  | nil => rfl
  | @cons p a next rows hget htail hnew =>
    have hrow := hnone (key a)
    rw [(Chain.cons hget htail hnew).rowAt_eq, rowOf, find_cons, if_pos rfl] at hrow
    cases hrow

/-- With a row, it is read after it was freed. -/
theorem Owns.freeAll_row (ho : Owns h key owner o start) (hrow : rowAt h key k start ≠ none)
    (fuel : Nat) : freeAll fuel start h = none := by
  obtain ⟨rows, hc, -, -⟩ := ho
  rw [hc.freeAll_eq, if_neg]
  rintro rfl
  rw [hc.rowAt_eq] at hrow
  exact hrow rfl

end Framework
