import LinuxSna.Impl.Sna.Ps.Send
import LinuxSna.Proof.Sna.Ps.Fsm

/-!
# A buffer of Send_Data

The two loops that a buffer goes through: the check of its logical records, and the
cutting into MUs for the half-session.

* `validateLogicalRecords_ends`: the check ends;
* `sendDataBufferManagement_ends`: the cutting ends unless the MUs have no room, with
  memory for every one of them;
* `sendDataBufferManagement_handed`: the buffer management is handed one buffer;
* `sendDataBufferManagement_data`: it hands on data, and nothing else.
-/

namespace LinuxSna.Ps

open Framework (loop loop_ends loop_never loop_succ_inr loop_last before_invariant)

/-! ## The check of the logical records -/

theorem startTx_some {slack : UInt8} {data : List UInt8} {l l' : LlTx} {offset : Nat}
    (h : startTx slack data l offset = some l') :
    l.state ≠ .none ∧ l' = l ∨ l.state = .none ∧ l'.state = .incomplete ∧
      2 ≤ l'.recSize - l'.recBytes := by
  rw [startTx] at h
  split at h
  · rename_i hnone
    split at h
    · cases h
    · split at h
      · cases h
      · rename_i hsize
        obtain rfl := Option.some.inj h
        exact Or.inr ⟨hnone, rfl, by simp only [LlTx.start]; omega⟩
  · rename_i hnone
    exact Or.inl ⟨hnone, (Option.some.inj h).symm⟩

/-- Where the buffer goes on behind a record, that record has been gone through. -/
theorem countTx_incomplete {data : List UInt8} {l : LlTx} {offset : Nat}
    (hs : l.state = .incomplete) (h : data.length > (countTx data l offset).2) :
    countTx data l offset = ({ l with state := .complete }, offset + (l.recSize - l.recBytes)) := by
  rw [countTx, if_pos hs] at h ⊢
  split at h
  · exact absurd h (Nat.lt_irrefl _)
  · rename_i hend
    rw [dif_neg hend]

/-- Each pass gets further in the buffer. -/
theorem validatePass_measure {slack : UInt8} {data : List UInt8} {t u : LlTx × Nat}
    (h : validatePass slack data t = .inl u) : validateMeasure data u < validateMeasure data t := by
  rw [validatePass] at h
  split at h
  · cases h
  · rename_i l hstart
    dsimp only at h
    split at h
    · rename_i hlt
      obtain rfl := Sum.inl.inj h
      by_cases hs : l.state = .incomplete
      · have hcount := countTx_incomplete hs hlt
        rw [hcount] at hlt ⊢
        simp only [validateMeasure, endTx, if_true]
        obtain ⟨hnone, rfl⟩ | ⟨hnone, -, hleft⟩ := startTx_some hstart
        · rw [if_neg hnone]
          omega
        · rw [if_pos hnone]
          dsimp only at hlt
          omega
      · obtain ⟨hnone, rfl⟩ | ⟨-, hinc, -⟩ := startTx_some hstart
        · have hcomplete : t.1.state = .complete := by
            cases hstate : t.1.state with
            | none => exact absurd hstate hnone
            | incomplete => exact absurd hstate hs
            | complete => rfl
          simp only [validateMeasure, countTx, if_neg hs, endTx, if_pos hcomplete, if_true,
            if_neg hnone]
          omega
        · exact absurd hinc hs
    · cases h

/-- The check of the logical records ends. -/
theorem validateLogicalRecords_ends (slack : UInt8) (l : LlTx) (data : List UInt8) :
    ∃ r, validateLogicalRecords slack l data = some r :=
  loop_ends (I := fun _ => True) (fun _ _ _ h => ⟨trivial, validatePass_measure h⟩) trivial
    (Nat.lt_succ_self _)

/-! ## The buffer management -/

theorem takeMu_some {t u : Filling} {mu : PsMu} {c : Conversation}
    (h : takeMu t = (some (mu, u), c)) :
    u.data = t.data ∧ u.c.rcb.txMaxBtu = t.c.rcb.txMaxBtu ∧
      (t.mu = some mu ∧ u.c.allocs = t.c.allocs ∨
        t.mu = none ∧ mu.data = [] ∧ t.c.allocs.headD true = true ∧
          u.c.allocs = t.c.allocs.tail) := by
  rw [takeMu] at h
  split at h
  · rename_i mu' hmu
    cases h
    exact ⟨rfl, rfl, Or.inl ⟨hmu, rfl⟩⟩
  · rename_i hmu
    rw [createAndInitLimitedMu, allocSkb] at h
    by_cases halloc : t.c.allocs.headD true = true
    · rw [if_pos halloc] at h
      cases h
      exact ⟨rfl, rfl, Or.inr ⟨hmu, rfl, halloc, rfl⟩⟩
    · rw [if_neg halloc] at h
      cases h

theorem takeMu_none {t : Filling} {c : Conversation} (h : takeMu t = (none, c)) :
    t.mu = none ∧ t.c.allocs.headD true = false := by
  rw [takeMu] at h
  split at h
  · cases h
  · rename_i hmu
    rw [createAndInitLimitedMu, allocSkb] at h
    by_cases halloc : t.c.allocs.headD true = true
    · rw [if_pos halloc] at h
      cases h
    · exact ⟨hmu, by simpa using halloc⟩

/-- How a pass goes on: an MU that is full has been passed down, or data have been
moved to one that was not. -/
theorem fillPass_inl {force : Bool} {t v : Filling} (h : fillPass force t = .inl v) :
    ∃ mu u c, takeMu t = (some (mu, u), c) ∧ v.data ≠ [] ∧
      v.c.rcb.txMaxBtu = t.c.rcb.txMaxBtu ∧ v.c.allocs = u.c.allocs ∧
      (mu.data.length ≥ t.c.rcb.txMaxBtu ∧ v.mu = none ∧ v.data = t.data ∨
        mu.data.length < t.c.rcb.txMaxBtu ∧
          v.data = t.data.drop (t.c.rcb.txMaxBtu - mu.data.length)) := by
  rw [fillPass] at h
  split at h
  · cases h
  · rename_i mu u c htake
    obtain ⟨hdata, htx, -⟩ := takeMu_some htake
    dsimp only at h
    split at h
    · rename_i hne
      obtain rfl := Sum.inl.inj h
      refine ⟨mu, u, c, htake, hne, ?_⟩
      rw [fillMu]
      split
      · rename_i hfull
        exact ⟨htx, rfl, Or.inl ⟨htx ▸ hfull, rfl, hdata⟩⟩
      · rename_i hroom
        refine ⟨htx, rfl, Or.inr ⟨by omega, ?_⟩⟩
        rw [← htx, ← hdata]
    · cases h

/-- The MU that is filled is full. -/
def Filling.full (t : Filling) : Nat :=
  match t.mu with
  | some mu => if mu.data.length ≥ t.c.rcb.txMaxBtu then 1 else 0
  | none => 0

theorem full_le (t : Filling) : t.full ≤ 1 := by
  rw [Filling.full]
  split
  · split <;> decide
  · decide

/-- An MU that has room takes some of the data. -/
theorem fillPass_measure {force : Bool} {t v : Filling} (htx : 0 < t.c.rcb.txMaxBtu)
    (h : fillPass force t = .inl v) :
    0 < v.c.rcb.txMaxBtu ∧ 2 * v.data.length + v.full < 2 * t.data.length + t.full := by
  obtain ⟨mu, u, c, htake, hne, htx', -, hmove⟩ := fillPass_inl h
  have hle := full_le v
  refine ⟨htx' ▸ htx, ?_⟩
  obtain ⟨hfull, hnone, hdata⟩ | ⟨hroom, hdata⟩ := hmove
  · obtain ⟨-, -, ⟨hmu, -⟩ | ⟨-, hnil, -⟩⟩ := takeMu_some htake
    · have hv : v.full = 0 := by rw [Filling.full, hnone]
      have ht : t.full = 1 := by
        rw [Filling.full, hmu]
        exact if_pos hfull
      rw [hdata, hv, ht]
      omega
    · rw [hnil, List.length_nil] at hfull
      omega
  · have hpos := List.length_pos_iff.mpr hne
    rw [hdata, List.length_drop] at hpos ⊢
    omega

/-- Without room in the MUs each pass takes memory for a new one. -/
theorem fillPass_allocs {force : Bool} {t v : Filling}
    (ht : t.c.rcb.txMaxBtu = 0 ∧ false ∈ t.c.allocs) (h : fillPass force t = .inl v) :
    (v.c.rcb.txMaxBtu = 0 ∧ false ∈ v.c.allocs) ∧
      v.c.allocs.length + (if v.mu.isSome then 1 else 0) <
        t.c.allocs.length + if t.mu.isSome then 1 else 0 := by
  obtain ⟨htx, hmem⟩ := ht
  obtain ⟨mu, u, c, htake, hne, htx', halloc, ⟨-, hnone, -⟩ | ⟨hroom, -⟩⟩ := fillPass_inl h
  · rw [htx', halloc, hnone]
    obtain ⟨-, -, ⟨hmu, hsame⟩ | ⟨hmu, -, hhead, htail⟩⟩ := takeMu_some htake
    · rw [hsame, hmu]
      exact ⟨⟨htx, hmem⟩, by simp⟩
    · rw [htail, hmu]
      cases hallocs : t.c.allocs with
      | nil => simp [hallocs] at hmem
      | cons a as =>
        rw [hallocs, List.headD_cons] at hhead
        rw [hallocs, hhead] at hmem
        exact ⟨⟨htx, by simpa using hmem⟩, by simp⟩
  · omega

/-- With memory for every MU, and none of them with room, it never ends. -/
theorem fillPass_never {force : Bool} {t : Filling}
    (ht : t.c.rcb.txMaxBtu = 0 ∧ t.data ≠ [] ∧ false ∉ t.c.allocs) :
    ∃ v, fillPass force t = .inl v ∧
      v.c.rcb.txMaxBtu = 0 ∧ v.data ≠ [] ∧ false ∉ v.c.allocs := by
  obtain ⟨htx, hne, hmem⟩ := ht
  cases htake : takeMu t with
  | mk taken c =>
    cases taken with
    | none =>
      obtain ⟨-, hhead⟩ := takeMu_none htake
      cases hallocs : t.c.allocs with
      | nil => simp [hallocs] at hhead
      | cons a as =>
        rw [hallocs, List.headD_cons] at hhead
        exact absurd (by simp [hallocs, hhead]) hmem
    | some r =>
      obtain ⟨mu, u⟩ := r
      obtain ⟨hdata, htx', halloc⟩ := takeMu_some htake
      have hpass : fillPass force t = .inl (fillMu mu u) := by
        rw [fillPass, htake]
        apply if_pos
        rw [fillMu, if_pos (by omega)]
        exact hdata ▸ hne
      obtain ⟨mu', u', c', htake', hne', htx'', halloc', -⟩ := fillPass_inl hpass
      rw [htake] at htake'
      cases htake'
      refine ⟨_, hpass, htx''.trans htx, hne', ?_⟩
      rw [halloc']
      obtain ⟨-, hsame⟩ | ⟨-, -, -, htail⟩ := halloc
      · exact hsame ▸ hmem
      · exact htail ▸ fun h => hmem (List.mem_of_mem_tail h)

/-- Without data there is one pass. -/
theorem fillPass_nil (force : Bool) {t : Filling} (ht : t.data = []) :
    ∃ r, fillPass force t = .inr r := by
  cases h : fillPass force t with
  | inr r => exact ⟨r, rfl⟩
  | inl v =>
    obtain ⟨mu, u, c, -, hne, -, -, ⟨-, -, hdata⟩ | ⟨-, hdata⟩⟩ := fillPass_inl h
    · exact absurd (hdata.trans ht) hne
    · rw [ht, List.drop_nil] at hdata
      exact absurd hdata hne

/-- Whether the loop over a buffer ends. -/
def FillEnds (c : Conversation) (data : List UInt8) : Prop :=
  0 < c.rcb.txMaxBtu ∨ data = [] ∨ false ∈ c.allocs

/-- The loop over a buffer ends unless it goes on without room in the MUs and with
memory for every one of them; the passes that the model makes are enough. -/
theorem sendDataBufferManagement_ends {c : Conversation} {data : List UInt8} {force : Bool} :
    (∃ r, sendDataBufferManagement c data force = some r) ↔ FillEnds c data := by
  constructor
  · rintro ⟨r, hr⟩
    by_contra hends
    obtain ⟨htx, hne, hmem⟩ : c.rcb.txMaxBtu = 0 ∧ data ≠ [] ∧ false ∉ c.allocs := by
      simpa [FillEnds] using hends
    have hnever : sendDataBufferManagement c data force = none :=
      loop_never (I := fun t : Filling => t.c.rcb.txMaxBtu = 0 ∧ t.data ≠ [] ∧ false ∉ t.c.allocs)
        (fun _ => fillPass_never) ⟨htx, hne, hmem⟩ _
    rw [hnever] at hr
    cases hr
  · intro hends
    have hsome : (if (beginFilling c data).mu.isSome then 1 else 0) ≤ 1 := by split <;> decide
    obtain htx | rfl | hmem := hends
    · exact loop_ends (I := fun t => 0 < t.c.rcb.txMaxBtu) (fun _ _ => fillPass_measure) htx
        (by have := full_le (beginFilling c data); simp only [beginFilling] at this ⊢; omega)
    · obtain ⟨r, hr⟩ := fillPass_nil force (t := beginFilling c []) rfl
      exact ⟨r, loop_succ_inr hr⟩
    · by_cases htx : c.rcb.txMaxBtu = 0
      · exact loop_ends (I := fun t => t.c.rcb.txMaxBtu = 0 ∧ false ∈ t.c.allocs)
          (fun _ _ => fillPass_allocs) ⟨htx, hmem⟩
          (by simp only [beginFilling] at hsome ⊢; omega)
      · exact loop_ends (I := fun t => 0 < t.c.rcb.txMaxBtu) (fun _ _ => fillPass_measure)
          (Nat.pos_of_ne_zero htx)
          (by have := full_le (beginFilling c data); simp only [beginFilling] at this ⊢; omega)

/-! ## What is handed on -/

/-- What the buffer management may change of the conversation -/
def Fills (c c' : Conversation) : Prop :=
  ∃ allocs toHs sendMu, c' = { c with allocs := allocs, toHs := toHs, rcb.sendMu := sendMu }

theorem Fills.refl (c : Conversation) : Fills c c := ⟨_, _, _, rfl⟩

theorem Fills.trans {c c' c'' : Conversation} (h : Fills c c') (h' : Fills c' c'') :
    Fills c c'' := by
  obtain ⟨allocs, toHs, sendMu, rfl⟩ := h
  obtain ⟨allocs', toHs', sendMu', rfl⟩ := h'
  exact ⟨allocs', toHs', sendMu', rfl⟩

theorem takeMu_fills {t : Filling} :
    Fills t.c (takeMu t).2 ∧ ∀ mu u, (takeMu t).1 = some (mu, u) → Fills t.c u.c := by
  have halloc := createAndInitLimitedMu_snd t.c
  rw [takeMu]
  split
  · exact ⟨Fills.refl _, fun mu u h => by cases h; exact Fills.refl _⟩
  · split
    · rename_i h
      rw [h] at halloc
      subst halloc
      exact ⟨⟨_, _, _, rfl⟩, fun mu u h => by cases h⟩
    · rename_i h
      rw [h] at halloc
      subst halloc
      exact ⟨⟨_, _, _, rfl⟩, fun mu u h => by cases h; exact ⟨_, _, _, rfl⟩⟩

theorem fillMu_fills (mu : PsMu) (t : Filling) : Fills t.c (fillMu mu t).c := by
  rw [fillMu]
  split <;> exact ⟨_, _, _, rfl⟩

theorem endFilling_fills (force : Bool) (t : Filling) : Fills t.c (endFilling force t) := by
  rw [endFilling]
  split <;> exact ⟨_, _, _, rfl⟩

theorem fillPass_fills {force : Bool} {t : Filling} :
    (∀ u, fillPass force t = .inl u → Fills t.c u.c) ∧
      ∀ r, fillPass force t = .inr r → Fills t.c r.2 := by
  obtain ⟨hnone, hsome⟩ := takeMu_fills (t := t)
  rw [fillPass]
  split
  · rename_i h
    rw [h] at hnone
    exact ⟨fun u hu => (by cases hu), fun r hr => by cases hr; exact hnone⟩
  · rename_i mu u c h
    have hu := (hsome mu u (by rw [h])).trans (fillMu_fills mu u)
    dsimp only
    split
    · refine ⟨fun v hv => ?_, fun r hr => by cases hr⟩
      cases hv
      exact hu
    · refine ⟨fun v hv => (by cases hv), fun r hr => ?_⟩
      cases hr
      exact hu.trans (endFilling_fills force _)

theorem sendDataBufferManagement_fills {c : Conversation} {data : List UInt8} {force : Bool}
    {r : Bool × Conversation} (h : sendDataBufferManagement c data force = some r) :
    Fills { c with handed := c.handed ++ [data] } r.2 := by
  obtain ⟨k, t, hk, ht⟩ := loop_last h
  have hfills := before_invariant
    (I := fun t : Filling => Fills { c with handed := c.handed ++ [data] } t.c)
    (fun t u ht hu => ht.trans (fillPass_fills.1 u hu)) (Fills.refl _) hk
  exact hfills.trans (fillPass_fills.2 r ht)

/-- The buffer management is handed one buffer. -/
theorem sendDataBufferManagement_handed {c : Conversation} {data : List UInt8} {force : Bool}
    {r : Bool × Conversation} (h : sendDataBufferManagement c data force = some r) :
    r.2.handed = c.handed ++ [data] := by
  obtain ⟨_, _, _, heq⟩ := sendDataBufferManagement_fills h
  rw [heq]

/-- What the half-session is given of data. -/
def IsData (o : ToHs) : Prop := ∃ mu : PsMu, o = .data (some mu) ∧ mu.type = .recSendData

/-- The buffer management works on data alone, and has added nothing else to what the
half-session was given. -/
structure OnlyData (toHs : List ToHs) (t : Filling) : Prop where
  mu : ∀ mu, t.mu = some mu → mu.type = .recSendData
  sendMu : ∀ mu, t.c.rcb.sendMu = some mu → mu.type = .recSendData
  toHs : ∃ l, t.c.toHs = toHs ++ l ∧ ∀ o ∈ l, IsData o

theorem OnlyData.takeMu {toHs : List ToHs} {t : Filling} (h : OnlyData toHs t) :
    (∀ mu, (takeMu t).2.rcb.sendMu = some mu → mu.type = .recSendData) ∧
      (∃ l, (Ps.takeMu t).2.toHs = toHs ++ l ∧ ∀ o ∈ l, IsData o) ∧
      ∀ mu u, (Ps.takeMu t).1 = some (mu, u) → mu.type = .recSendData ∧ OnlyData toHs u := by
  have halloc := createAndInitLimitedMu_snd t.c
  rw [Ps.takeMu]
  split
  · rename_i mu hmu
    exact ⟨h.sendMu, h.toHs, fun _ _ hu => by cases hu; exact ⟨h.mu mu hmu, h⟩⟩
  · split
    · rename_i c hc
      rw [hc] at halloc
      subst halloc
      exact ⟨h.sendMu, h.toHs, fun _ _ hu => by cases hu⟩
    · rename_i mu c hc
      have htype : mu.type = .recSendData := by
        rw [createAndInitLimitedMu] at hc
        split at hc
        · cases hc
          rfl
        · cases hc
      rw [hc] at halloc
      subst halloc
      refine ⟨h.sendMu, h.toHs, fun _ _ hu => ?_⟩
      cases hu
      exact ⟨htype, fun _ hm => by cases hm; exact htype, h.sendMu, h.toHs⟩

theorem OnlyData.fillMu {toHs : List ToHs} {t : Filling} {mu : PsMu} (h : OnlyData toHs t)
    (hmu : mu.type = .recSendData) : OnlyData toHs (fillMu mu t) := by
  obtain ⟨l, hl, hdata⟩ := h.toHs
  rw [Ps.fillMu]
  split
  · refine ⟨fun _ hm => (by cases hm), h.sendMu, l ++ [.data (some mu)], ?_, fun o ho => ?_⟩
    · show t.c.toHs ++ _ = _
      rw [hl, List.append_assoc]
    · obtain ho | ho := List.mem_append.mp ho
      · exact hdata o ho
      · exact ⟨mu, List.mem_singleton.mp ho, hmu⟩
  · refine ⟨fun _ hm => by cases hm; exact hmu, fun _ hm => ?_, l, hl, hdata⟩
    by_cases hheld : t.held = true
    · rw [Filling.put, if_pos hheld] at hm
      cases hm
      exact hmu
    · rw [Filling.put, if_neg hheld] at hm
      exact h.sendMu _ hm

/-- The buffer management hands on data, and nothing else. -/
theorem sendDataBufferManagement_data {c : Conversation} {data : List UInt8}
    {r : Bool × Conversation} (hc : ∀ mu, c.rcb.sendMu = some mu → mu.type = .recSendData)
    (h : sendDataBufferManagement c data false = some r) :
    (∀ mu, r.2.rcb.sendMu = some mu → mu.type = .recSendData) ∧
      ∃ l, r.2.toHs = c.toHs ++ l ∧ ∀ o ∈ l, IsData o := by
  obtain ⟨k, t, hk, ht⟩ := loop_last h
  have hpass {t : Filling} (h : OnlyData c.toHs t) :
      (∀ u, fillPass false t = .inl u → OnlyData c.toHs u) ∧
        ∀ r, fillPass false t = .inr r →
          (∀ mu, r.2.rcb.sendMu = some mu → mu.type = .recSendData) ∧
            ∃ l, r.2.toHs = c.toHs ++ l ∧ ∀ o ∈ l, IsData o := by
    obtain ⟨hsend, htoHs, hsome⟩ := h.takeMu
    rw [fillPass]
    split
    · rename_i htake
      rw [htake] at hsend htoHs
      exact ⟨fun _ hv => (by cases hv), fun _ hr => by cases hr; exact ⟨hsend, htoHs⟩⟩
    · rename_i mu u c' htake
      obtain ⟨hmu, hu⟩ := hsome mu u (by rw [htake])
      have hfill := hu.fillMu hmu
      dsimp only
      split
      · exact ⟨fun _ hv => (by cases hv; exact hfill), fun _ hr => by cases hr⟩
      · exact ⟨fun _ hv => (by cases hv), fun _ hr => by cases hr; exact ⟨hfill.mu, hfill.toHs⟩⟩
  exact (hpass (before_invariant (I := OnlyData c.toHs) (fun t u ht hu => (hpass ht).1 u hu)
    ⟨hc, hc, [], (List.append_nil _).symm, fun o ho => absurd ho List.not_mem_nil⟩ hk)).2 r ht

end LinuxSna.Ps
