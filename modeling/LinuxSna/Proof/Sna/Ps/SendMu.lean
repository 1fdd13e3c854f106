import LinuxSna.Impl.Sna.Ps.Send
import LinuxSna.Proof.Sna.Ps.Buffer

/-!
# The MUs of Send_Data, as buffers

* `pass_cases`: what a pass does;
* `sendDataBufferManagement_conversation`: with the buffers for what they hold, this is the buffer
  management of a conversation, which ends (`Buffers.sendDataBufferManagement_ends`).
-/

namespace LinuxSna.Ps

open Framework

variable {s s' : Buffers} {t u : Cutting} {data : List UInt8} {force : Bool} {i : Nat}

/-! ## Buffers -/

/-- The pointer is to a buffer that was allocated. -/
def Buffers.InUse (s : Buffers) (mu : Option Nat) : Prop := ∀ i, mu = some i → i < s.bufs.length

theorem bytes_append (hi : i < s.bufs.length) (bufs : List (List UInt8)) :
    { s with bufs := s.bufs ++ bufs }.bytes i = s.bytes i := by
  simp only [Buffers.bytes, List.getD_eq_getElem?_getD, List.getElem?_append_left hi]

@[simp] theorem skbPut_bytes (hi : i < s.bufs.length) :
    (s.skbPut i data).bytes i = s.bytes i ++ data := by
  simp [Buffers.bytes, Buffers.skbPut, hi]

theorem skbPut_bytes_of_ne {j : Nat} (hne : j ≠ i) : (s.skbPut i data).bytes j = s.bytes j := by
  simp [Buffers.bytes, Buffers.skbPut, hne.symm]

@[simp] theorem skbPut_bufs_length : (s.skbPut i data).bufs.length = s.bufs.length :=
  List.length_set

@[simp] theorem skbPut_txMaxBtu : (s.skbPut i data).txMaxBtu = s.txMaxBtu := rfl

@[simp] theorem skbPut_sendMu : (s.skbPut i data).sendMu = s.sendMu := rfl

@[simp] theorem skbPut_down : (s.skbPut i data).down = s.down := rfl

@[simp] theorem skbPut_allocs : (s.skbPut i data).allocs = s.allocs := rfl

/-- The procedure has an MU to fill, or asks for memory. -/
theorem takeMu_cases (t : Cutting) :
    (∃ i, t.mu = some i ∧ t.takeMu = (some i, t.s)) ∨
    (t.mu = none ∧ t.s.allocs.headD true = true ∧ t.takeMu =
      (some t.s.bufs.length, { t.s with bufs := t.s.bufs ++ [[]], allocs := t.s.allocs.tail })) ∨
    (t.mu = none ∧ t.s.allocs.headD true = false ∧
      t.takeMu = (none, { t.s with allocs := t.s.allocs.tail })) := by
  rw [Cutting.takeMu]
  cases hmu : t.mu with
  | some i => exact .inl ⟨i, rfl, rfl⟩
  | none =>
    right
    simp only [Buffers.createAndInitLimitedMu, true_and]
    by_cases halloc : t.s.allocs.headD true = true
    · exact .inl ⟨halloc, if_pos halloc⟩
    · exact .inr ⟨Bool.eq_false_iff.mpr halloc, if_neg halloc⟩

theorem takeMu_inUse {mu : Option Nat} (hm : t.s.InUse t.mu) (h : t.takeMu = (mu, s)) :
    s.InUse mu := by
  obtain ⟨i, hmu, htake⟩ | ⟨-, -, htake⟩ | ⟨-, -, htake⟩ := takeMu_cases t <;> rw [htake] at h <;>
    cases h
  · exact hmu ▸ hm
  · intro i hi
    obtain rfl := Option.some.inj hi
    simp
  · exact fun i hi => absurd hi (by simp)

/-! ## As a conversation -/

/-- The MU that a pointer stands for -/
def Buffers.psMu (s : Buffers) (i : Nat) : PsMu := ⟨.recSendData, s.bytes i⟩

/-- A conversation with the buffers for what they hold -/
def Buffers.conversation (s : Buffers) (c : Conversation) : Conversation :=
  { c with
    rcb.txMaxBtu := s.txMaxBtu
    rcb.sendMu := s.sendMu.map s.psMu
    allocs := s.allocs
    toHs := c.toHs ++ s.down.map fun o => .data (o.map fun p => ⟨.recSendData, p.2⟩) }

@[simp] theorem psMu_data : (s.psMu i).data = s.bytes i := rfl

def Cutting.filling (t : Cutting) (c : Conversation) : Filling :=
  { c := t.s.conversation c
    data := t.data
    mu := t.mu.map t.s.psMu
    held := decide (t.s.sendMu = t.mu) && t.mu.isSome }

/-- What a pointer stands for does not depend on a buffer that was allocated after it. -/
theorem psMu_create {mu : Option Nat} (hmu : s.InUse mu) (allocs : List Bool) :
    mu.map { s with bufs := s.bufs ++ [[]], allocs := allocs }.psMu = mu.map s.psMu :=
  Option.map_congr fun i hi => congrArg (PsMu.mk _) (bytes_append (hmu i hi) _)

/-- The data are put where `send_mu` points to if it is the same buffer. -/
theorem psMu_skbPut (hi : i < s.bufs.length) (mu : Option Nat) :
    mu.map (s.skbPut i data).psMu =
      if mu = some i then some { s.psMu i with data := s.bytes i ++ data } else mu.map s.psMu := by
  by_cases hmu : mu = some i
  · rw [if_pos hmu, hmu, Option.map_some, Buffers.psMu, skbPut_bytes hi]
    rfl
  · rw [if_neg hmu]
    refine Option.map_congr fun j hj => congrArg (PsMu.mk _) (skbPut_bytes_of_ne fun hij => ?_)
    exact hmu (hij ▸ hj)

theorem fillMu_filling {c : Conversation} (hi : i < s.bufs.length) :
    fillMu (s.psMu i) (Cutting.filling ⟨s, data, some i⟩ c) = (s.fillMu data i).filling c := by
  rw [fillMu, Buffers.fillMu]
  by_cases hfull : (s.bytes i).length ≥ s.txMaxBtu
  · refine (if_pos hfull).trans ?_
    rw [if_pos hfull]
    have htoHs (f : Option (Nat × List UInt8) → ToHs) :
        c.toHs ++ s.down.map f ++ [f (some (i, s.bytes i))] =
          c.toHs ++ (s.down ++ [some (i, s.bytes i)]).map f := by
      rw [List.map_append, List.append_assoc]
      rfl
    simp only [Cutting.filling, Buffers.conversation, Buffers.hsTxPsMuData, Option.map_some,
      ← htoHs, Option.isSome_none, Bool.and_false, Option.map_none]
    rfl
  · refine (if_neg hfull).trans ?_
    rw [if_neg hfull]
    have hroom : s.txMaxBtu - (s.bytes i).length = s.room i := rfl
    by_cases hheld : s.sendMu = some i <;>
      simp [Cutting.filling, Buffers.conversation, Filling.put, psMu_skbPut hi, hroom, hheld]

theorem finish_filling {c : Conversation} :
    endFilling force (t.filling c) = (t.finish force).s.conversation c := by
  rw [endFilling, Cutting.finish]
  cases force with
  | false =>
    rfl
  | true =>
    simp only [Cutting.filling, Buffers.conversation, Buffers.hsTxPsMuData, if_true,
      List.map_append, List.append_assoc, List.map_singleton, Option.map_map, Option.map_none]
    rfl

theorem createAndInitLimitedMu_conversation {c : Conversation} (hs : s.InUse s.sendMu) :
    createAndInitLimitedMu (s.conversation c) =
      (s.createAndInitLimitedMu.1.map s.createAndInitLimitedMu.2.psMu,
        s.createAndInitLimitedMu.2.conversation c) := by
  rw [Ps.createAndInitLimitedMu, Buffers.createAndInitLimitedMu]
  by_cases halloc : s.allocs.headD true = true
  · have hnew : { s with bufs := s.bufs ++ [[]], allocs := s.allocs.tail }.psMu s.bufs.length =
        ⟨.recSendData, []⟩ := by
      simp [Buffers.psMu, Buffers.bytes]
    have hconv : { s with bufs := s.bufs ++ [[]], allocs := s.allocs.tail }.conversation c =
        (allocSkb (s.conversation c)).2 := by
      simp only [Buffers.conversation, psMu_create hs, allocSkb]
    rw [if_pos halloc, if_pos (show (allocSkb (s.conversation c)).1 = true from halloc),
      Option.map_some, hnew, hconv]
  · rw [if_neg halloc, if_neg (show ¬ (allocSkb (s.conversation c)).1 = true from halloc)]
    rfl

theorem takeMu_filling {c : Conversation} (hs : t.s.InUse t.s.sendMu) :
    takeMu (t.filling c) =
      (t.takeMu.1.map fun i =>
        (t.takeMu.2.psMu i, Cutting.filling ⟨t.takeMu.2, t.data, some i⟩ c),
        t.takeMu.2.conversation c) := by
  obtain ⟨s, data, mu⟩ := t
  cases mu with
  | some i => rfl
  | none =>
    have hcreate := @createAndInitLimitedMu_conversation s c hs
    rw [Cutting.takeMu]
    rw [Buffers.createAndInitLimitedMu] at hcreate ⊢
    by_cases halloc : s.allocs.headD true = true
    · have hne : s.sendMu ≠ some s.bufs.length := fun h => absurd (hs _ h) (Nat.lt_irrefl _)
      rw [if_pos halloc] at hcreate ⊢
      have hheld : (decide (s.sendMu = some s.bufs.length) && true) = false := by
        rw [decide_eq_false hne]
        rfl
      simp only [takeMu, Cutting.filling, Option.map_none, hcreate, Option.map_some, hheld,
        Option.isSome_some]
    · rw [if_neg halloc] at hcreate ⊢
      simp only [takeMu, Cutting.filling, Option.map_none, hcreate]

theorem fillPass_filling {c : Conversation} (hm : t.s.InUse t.mu) (hs : t.s.InUse t.s.sendMu) :
    fillPass force (t.filling c) =
      (t.pass force).map (Cutting.filling · c) fun r => (r.1, r.2.s.conversation c) := by
  have htake := @takeMu_filling t c hs
  rw [fillPass, Cutting.pass]
  cases hmu : t.takeMu with
  | mk mu s' =>
    rw [hmu] at htake
    rw [htake]
    cases mu with
    | none => rfl
    | some i =>
      have hi := takeMu_inUse hm hmu i rfl
      simp only [Option.map_some, fillMu_filling hi]
      by_cases hdata : (s'.fillMu t.data i).data = []
      · have hend : ((s'.fillMu t.data i).filling c).data = [] := hdata
        rw [if_neg (not_not.mpr hdata), if_neg (not_not.mpr hend), finish_filling]
        rfl
      · have hmore : ((s'.fillMu t.data i).filling c).data ≠ [] := hdata
        rw [if_pos hdata, if_pos hmore]
        rfl

theorem fillMu_bufs_length : (s.fillMu data i).s.bufs.length = s.bufs.length := by
  rw [Buffers.fillMu]
  split
  · rfl
  · exact skbPut_bufs_length

theorem fillMu_sendMu : (s.fillMu data i).s.sendMu = s.sendMu := by
  rw [Buffers.fillMu]
  split <;> rfl

theorem fillMu_mu : (s.fillMu data i).mu = none ∨ (s.fillMu data i).mu = some i := by
  rw [Buffers.fillMu]
  split
  · exact .inl rfl
  · exact .inr rfl

/-- What a pass does -/
theorem pass_cases (force : Bool) (t : Cutting) :
    (t.mu = none ∧ t.s.allocs.headD true = false ∧
      t.pass force = .inr (false, { t with s := { t.s with allocs := t.s.allocs.tail } })) ∨
    ∃ i s', t.takeMu = (some i, s') ∧ t.pass force =
      if (s'.fillMu t.data i).data ≠ [] then .inl (s'.fillMu t.data i)
      else .inr (true, (s'.fillMu t.data i).finish force) := by
  obtain ⟨i, hmu, h⟩ | ⟨hmu, halloc, h⟩ | ⟨hmu, halloc, h⟩ := takeMu_cases t
  · exact .inr ⟨i, _, h, by rw [Cutting.pass, h]⟩
  · exact .inr ⟨_, _, h, by rw [Cutting.pass, h]⟩
  · exact .inl ⟨hmu, halloc, by rw [Cutting.pass, h]⟩

theorem pass_inUse (h : t.s.InUse t.mu ∧ t.s.InUse t.s.sendMu) (hp : t.pass force = .inl u) :
    u.s.InUse u.mu ∧ u.s.InUse u.s.sendMu := by
  obtain ⟨-, -, hpass⟩ | ⟨i, s', htake, hpass⟩ := pass_cases force t
  · rw [hpass] at hp
    cases hp
  · rw [hpass] at hp
    split at hp
    · obtain rfl := Sum.inl.inj hp
      have hi := takeMu_inUse h.1 htake i rfl
      constructor
      · intro j hj
        rw [fillMu_bufs_length]
        obtain hmu | hmu := @fillMu_mu s' t.data i
        · rw [hmu] at hj
          cases hj
        · rw [hmu] at hj
          obtain rfl := Option.some.inj hj
          exact hi
      · intro j hj
        rw [fillMu_bufs_length]
        rw [fillMu_sendMu] at hj
        obtain ⟨_, -, hs'⟩ | ⟨-, -, hs'⟩ | ⟨-, -, hs'⟩ := takeMu_cases t <;>
          rw [htake, Prod.mk.injEq] at hs' <;> obtain ⟨-, rfl⟩ := hs'
        · exact h.2 j hj
        · rw [List.length_append]
          exact Nat.lt_add_right _ (h.2 j hj)
        · exact h.2 j hj
    · cases hp

/-- With the buffers for what they hold, this is the buffer management of a conversation. -/
theorem sendDataBufferManagement_conversation (hs : s.InUse s.sendMu) (c : Conversation)
    (data : List UInt8) (force : Bool) :
    Ps.sendDataBufferManagement (s.conversation c) data force =
      (s.sendDataBufferManagement data force).map fun r =>
        (r.1, r.2.s.conversation { c with handed := c.handed ++ [data] }) := by
  have hbegin : beginFilling (s.conversation c) data =
      Cutting.filling ⟨s, data, s.sendMu⟩ { c with handed := c.handed ++ [data] } := by
    simp [beginFilling, Cutting.filling, Buffers.conversation]
  rw [Ps.sendDataBufferManagement, Buffers.sendDataBufferManagement, hbegin]
  exact loop_map (I := fun t : Cutting => t.s.InUse t.mu ∧ t.s.InUse t.s.sendMu)
    (fun t u ht hu => pass_inUse ht hu) (fun t ht => fillPass_filling ht.1 ht.2) ⟨hs, hs⟩

theorem Buffers.sendDataBufferManagement_ends (hs : s.InUse s.sendMu) (htx : 0 < s.txMaxBtu)
    (data : List UInt8) (force : Bool) : ∃ r, s.sendDataBufferManagement data force = some r := by
  obtain ⟨r, hr⟩ := (@Ps.sendDataBufferManagement_ends (s.conversation {}) data force).mpr (.inl htx)
  rw [sendDataBufferManagement_conversation hs] at hr
  obtain ⟨r', hr', -⟩ := Option.map_eq_some_iff.mp hr
  exact ⟨r', hr'⟩

end LinuxSna.Ps
