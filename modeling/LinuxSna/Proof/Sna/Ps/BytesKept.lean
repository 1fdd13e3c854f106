import LinuxSna.Framework.Run
import LinuxSna.Proof.Sna.Ps.SendMu

/-!
# The bytes that are sent

What was given to `sna_ps_conv_send_data_buffer_management` has been passed down or is in the MU
that `send_mu` points to. Two calls break this: one without data that forces out an MU that is full,
and one for which memory runs out after the MU of an earlier call was passed down, since `send_mu`
is written at the end alone.

* `Within.fillMu`, `Within.runsOut`: what a pass keeps;
* `call_spec`: what a call leaves;
* `bytes_kept_iff`: a sequence of calls.
-/

namespace LinuxSna.Ps

open Framework

variable {s s' : Buffers} {t u : Cutting} {data given : List UInt8} {mu : Option Nat}
  {force : Bool} {i : Nat}

/-- The MUs that were passed down -/
def Buffers.passed (s : Buffers) : List Nat := s.down.filterMap fun o => o.map Prod.fst

def Buffers.payloads (s : Buffers) : List (List UInt8) := s.down.map fun o => o.elim [] Prod.snd

/-- What the MU holds -/
def Buffers.pending (s : Buffers) (mu : Option Nat) : List UInt8 := mu.elim [] s.bytes

/-- With the MU that is filled, nothing of what was given is lost or there twice. -/
structure Buffers.Keeps (s : Buffers) (mu : Option Nat) (given : List UInt8) : Prop where
  bytes : s.payloads.flatten ++ s.pending mu = given
  short : ∀ p, some p ∈ s.down → p.2.length ≤ s.txMaxBtu
  null : none ∉ s.down
  once : s.passed.Nodup
  fresh : ∀ i, mu = some i → i ∉ s.passed

structure Buffers.Sound (s : Buffers) (mu : Option Nat) (given : List UInt8) : Prop
    extends s.Keeps mu given where
  inUse : s.InUse mu
  old : ∀ i ∈ s.passed, i < s.bufs.length
  fits : ∀ i, mu = some i → (s.bytes i).length ≤ s.txMaxBtu

/-- Neither the memory that is left nor `send_mu` matters. -/
theorem Buffers.Sound.congr (h : s.Sound mu given) (htx : s'.txMaxBtu = s.txMaxBtu)
    (hbufs : s'.bufs = s.bufs) (hdown : s'.down = s.down) : s'.Sound mu given := by
  obtain ⟨tx, sendMu, bufs, down, allocs⟩ := s
  obtain ⟨tx', sendMu', bufs', down', allocs'⟩ := s'
  obtain rfl : tx' = tx := htx
  obtain rfl : bufs' = bufs := hbufs
  obtain rfl : down' = down := hdown
  exact ⟨⟨h.bytes, h.short, h.null, h.once, h.fresh⟩, h.inUse, h.old, h.fits⟩

theorem passed_hsTxPsMuData : (s.hsTxPsMuData (some i)).passed = s.passed ++ [i] := by
  simp [Buffers.passed, Buffers.hsTxPsMuData]

/-- A new MU -/
theorem Buffers.Sound.create (h : s.Sound none given) (allocs : List Bool) :
    { s with bufs := s.bufs ++ [[]], allocs := allocs }.Sound (some s.bufs.length) given := by
  have hnew : { s with bufs := s.bufs ++ [[]], allocs := allocs }.bytes s.bufs.length = [] := by
    simp [Buffers.bytes]
  refine ⟨⟨?_, h.short, h.null, h.once, ?_⟩, ?_, ?_, ?_⟩
  · show s.payloads.flatten ++ _ = given
    rw [pending, Option.elim_some, hnew]
    exact h.bytes
  · intro i hi hmem
    obtain rfl := Option.some.inj hi
    exact absurd (h.old _ hmem) (Nat.lt_irrefl _)
  · intro i hi
    obtain rfl := Option.some.inj hi
    simp
  · intro i hi
    rw [List.length_append]
    exact Nat.lt_add_right _ (h.old i hi)
  · intro i hi
    obtain rfl := Option.some.inj hi
    rw [hnew]
    exact Nat.zero_le _

/-- An MU that is passed down -/
theorem Buffers.Sound.tx (h : s.Sound (some i) given) :
    (s.hsTxPsMuData (some i)).Sound none given := by
  refine ⟨⟨?_, ?_, ?_, ?_, fun j hj => (by cases hj)⟩, fun j hj => (by cases hj), ?_,
    fun j hj => by cases hj⟩
  · rw [← h.bytes]
    simp [payloads, hsTxPsMuData, pending]
  · intro p hp
    obtain hp | hp := List.mem_append.mp hp
    · exact h.short p hp
    · obtain rfl := Option.some.inj (List.mem_singleton.mp hp)
      exact h.fits i rfl
  · intro hnone
    obtain hnone | hnone := List.mem_append.mp hnone
    · exact h.null hnone
    · cases List.mem_singleton.mp hnone
  · rw [passed_hsTxPsMuData]
    exact List.nodup_append.mpr ⟨h.once, by simp, fun a ha b hb hab =>
      h.fresh i rfl (List.mem_singleton.mp hb ▸ hab ▸ ha)⟩
  · intro j hj
    rw [passed_hsTxPsMuData] at hj
    obtain hj | hj := List.mem_append.mp hj
    · exact h.old j hj
    · exact List.mem_singleton.mp hj ▸ h.inUse i rfl

/-- Data that are put into an MU with room for them -/
theorem Buffers.Sound.put (h : s.Sound (some i) given) (hdata : data.length ≤ s.room i) :
    (s.skbPut i data).Sound (some i) (given ++ data) := by
  have hi := h.inUse i rfl
  have hfits := h.fits i rfl
  refine ⟨⟨?_, h.short, h.null, h.once, h.fresh⟩, ?_, ?_, ?_⟩
  · show s.payloads.flatten ++ _ = _
    rw [pending, Option.elim_some, skbPut_bytes hi, ← List.append_assoc, ← h.bytes]
    rfl
  · intro j hj
    rw [skbPut_bufs_length]
    exact h.inUse j hj
  · intro j hj
    rw [skbPut_bufs_length]
    exact h.old j hj
  · intro j hj
    obtain rfl := Option.some.inj hj
    rw [skbPut_bytes hi, List.length_append, skbPut_txMaxBtu]
    rw [room] at hdata
    omega

/-- The MU that is filled, or passed down -/
theorem Buffers.Sound.fillMu (h : s.Sound (some i) given) (data : List UInt8) :
    ∃ moved, moved ++ (s.fillMu data i).data = data ∧
      (s.fillMu data i).s.Sound (s.fillMu data i).mu (given ++ moved) := by
  rw [Buffers.fillMu]
  split
  · refine ⟨[], rfl, ?_⟩
    rw [List.append_nil]
    exact h.tx
  · refine ⟨data.take (s.room i), List.take_append_drop _ _, h.put ?_⟩
    rw [List.length_take]
    exact Nat.min_le_left _ _

theorem Buffers.Sound.takeMu (h : t.s.Sound t.mu given) (htake : t.takeMu = (some i, s)) :
    s.Sound (some i) given := by
  obtain ⟨j, hmu, ht⟩ | ⟨hmu, -, ht⟩ | ⟨-, -, ht⟩ := takeMu_cases t <;> rw [htake] at ht <;> cases ht
  · exact hmu ▸ h
  · rw [hmu] at h
    exact h.create _

/-! ## Passes -/

/-- What the passes keep of a call with some data -/
structure Going (s₀ : Buffers) (given data₀ : List UInt8) (t : Cutting) : Prop where
  sound : ∃ moved, moved ++ t.data = data₀ ∧ t.s.Sound t.mu (given ++ moved)
  sendMu : t.s.sendMu = s₀.sendMu
  tx : t.s.txMaxBtu = s₀.txMaxBtu
  /-- The MU of an earlier call is filled, or was passed down. -/
  earlier : ∀ i, s₀.sendMu = some i → t.mu = some i ∨ i ∈ t.s.passed

/-- How many MUs so many bytes take -/
def musFor (tx n : Nat) : Nat := (n + tx - 1) / tx

/-- How many MUs a call asks for. -/
def Cutting.need (t : Cutting) : Nat :=
  match t.mu with
  | some i => musFor t.s.txMaxBtu (t.data.length - t.s.room i)
  | none => max 1 (musFor t.s.txMaxBtu t.data.length)

/-- Memory runs out. -/
def Cutting.Short (t : Cutting) : Prop := false ∈ t.s.allocs.take t.need

theorem musFor_zero {tx : Nat} (h : 0 < tx) : musFor tx 0 = 0 :=
  Nat.div_eq_of_lt (by omega)

theorem musFor_pos {tx n : Nat} (h : 0 < tx) (hn : 0 < n) :
    musFor tx n = musFor tx (n - tx) + 1 := by
  have hsub : n + tx - 1 = (n - 1) + tx := by omega
  rw [musFor, musFor, hsub, Nat.add_div_right _ h, Nat.succ_inj]
  by_cases hle : n ≤ tx
  · rw [Nat.div_eq_of_lt (by omega), Nat.div_eq_of_lt (by omega)]
  · congr 1
    omega

theorem fillMu_txMaxBtu : (s.fillMu data i).s.txMaxBtu = s.txMaxBtu := by
  rw [Buffers.fillMu]
  split <;> rfl

theorem fillMu_allocs : (s.fillMu data i).s.allocs = s.allocs := by
  rw [Buffers.fillMu]
  split <;> rfl

/-- No MU is given up but for data that are left. -/
theorem fillMu_need (hi : i < s.bufs.length) (htx : 0 < s.txMaxBtu) :
    musFor s.txMaxBtu (data.length - s.room i) =
      if (s.fillMu data i).data = [] then 0 else (s.fillMu data i).need := by
  rw [Buffers.fillMu, Buffers.room]
  by_cases hfull : (s.bytes i).length ≥ s.txMaxBtu
  · rw [if_pos hfull, Nat.sub_eq_zero_of_le hfull, Nat.sub_zero]
    dsimp only [Cutting.need]
    split
    · rename_i hnil
      rw [hnil]
      exact musFor_zero htx
    · rename_i hne
      have hpos := musFor_pos htx (List.length_pos_iff.mpr hne)
      exact (Nat.max_eq_right (by omega)).symm
  · rw [if_neg hfull]
    dsimp only [Cutting.need]
    rw [← Buffers.room, skbPut_txMaxBtu, List.length_drop]
    split
    · rename_i hnil
      have hle := List.drop_eq_nil_iff.mp hnil
      rw [Nat.sub_eq_zero_of_le hle, musFor_zero htx]
    · rename_i hne
      have hlt : s.room i < data.length := by
        by_contra hle
        exact hne (List.drop_eq_nil_iff.mpr (by omega))
      have hroom : (s.skbPut i (data.take (s.room i))).room i = 0 := by
        rw [Buffers.room, skbPut_bytes hi, List.length_append, List.length_take, skbPut_txMaxBtu,
          Nat.min_eq_left (by omega), Buffers.room]
        omega
      rw [hroom, Nat.sub_zero]

/-- A call asks for an MU, and gets it, or works on. -/
theorem takeMu_short (htx : 0 < t.s.txMaxBtu) (htake : t.takeMu = (some i, s)) :
    t.Short ↔ false ∈ s.allocs.take (musFor s.txMaxBtu (t.data.length - s.room i)) := by
  rw [Cutting.Short, Cutting.need]
  obtain ⟨j, hmu, ht⟩ | ⟨hmu, halloc, ht⟩ | ⟨-, -, ht⟩ := takeMu_cases t <;> rw [htake] at ht <;>
    cases ht <;> rw [hmu]
  have hroom : { t.s with bufs := t.s.bufs ++ [[]], allocs := t.s.allocs.tail }.room
      t.s.bufs.length = t.s.txMaxBtu := by
    simp [Buffers.room, Buffers.bytes]
  rw [hroom]
  have hneed : max 1 (musFor t.s.txMaxBtu t.data.length) =
      musFor t.s.txMaxBtu (t.data.length - t.s.txMaxBtu) + 1 := by
    by_cases hpos : 0 < t.data.length
    · rw [musFor_pos htx hpos]
      exact Nat.max_eq_right (by omega)
    · rw [Nat.eq_zero_of_not_pos hpos, Nat.zero_sub, musFor_zero htx]
      rfl
  dsimp only
  rw [hneed]
  cases hallocs : t.s.allocs with
  | nil => simp
  | cons a as =>
    rw [hallocs, List.headD_cons] at halloc
    rw [List.take_succ_cons, halloc, List.tail_cons]
    simp

/-- What asking for an MU leaves as it is -/
theorem takeMu_same (htake : t.takeMu = (mu, s)) :
    s.sendMu = t.s.sendMu ∧ s.txMaxBtu = t.s.txMaxBtu ∧ s.down = t.s.down := by
  obtain ⟨j, -, ht⟩ | ⟨-, -, ht⟩ | ⟨-, -, ht⟩ := takeMu_cases t <;> rw [htake] at ht <;> cases ht <;>
    exact ⟨rfl, rfl, rfl⟩

/-- The MU that was to be filled is filled, or was passed down. -/
theorem fillMu_passed :
    (s.fillMu data i).mu = some i ∧ (s.fillMu data i).s.passed = s.passed ∨
      (s.fillMu data i).mu = none ∧ (s.fillMu data i).s.passed = s.passed ++ [i] := by
  rw [Buffers.fillMu]
  split
  · exact .inr ⟨rfl, passed_hsTxPsMuData⟩
  · exact .inl ⟨rfl, rfl⟩

theorem fillMu_none_iff : (s.fillMu data i).mu = none ↔ s.txMaxBtu ≤ (s.bytes i).length := by
  rw [Buffers.fillMu]
  split
  · rename_i hfull
    exact iff_of_true rfl hfull
  · rename_i hfull
    exact iff_of_false (by simp) hfull

variable {s₀ : Buffers} {data₀ : List UInt8}

/-- What a pass keeps -/
theorem Going.fillMu (h : Going s₀ given data₀ t) (htake : t.takeMu = (some i, s)) :
    Going s₀ given data₀ (s.fillMu t.data i) := by
  obtain ⟨moved, hmoved, hs⟩ := h.sound
  obtain ⟨hsend, htx, hdown⟩ := takeMu_same htake
  have hpassed : s.passed = t.s.passed := by rw [Buffers.passed, hdown, Buffers.passed]
  refine ⟨?_, ?_, ?_, ?_⟩
  · obtain ⟨moved', hmoved', hs'⟩ := (hs.takeMu htake).fillMu t.data
    refine ⟨moved ++ moved', ?_, ?_⟩
    · rw [List.append_assoc, hmoved', hmoved]
    · rw [← List.append_assoc]
      exact hs'
  · rw [fillMu_sendMu, hsend, h.sendMu]
  · rw [fillMu_txMaxBtu, htx, h.tx]
  · intro j hj
    have hmem : j = i ∨ j ∈ s.passed := by
      obtain hmu | hmem := h.earlier j hj
      · obtain ⟨_, hmu', ht⟩ | ⟨hmu', -⟩ | ⟨hmu', -⟩ := takeMu_cases t <;> rw [hmu] at hmu' <;>
          cases hmu'
        rw [htake] at ht
        cases ht
        exact .inl rfl
      · exact .inr (hpassed ▸ hmem)
    obtain ⟨hmu, hp⟩ | ⟨hmu, hp⟩ := @fillMu_passed s t.data i <;> rw [hmu, hp]
    · exact hmem.imp (fun hji => congrArg some hji.symm) id
    · right
      rw [List.mem_append, List.mem_singleton]
      exact hmem.symm

/-- What the loop keeps: the same memory is enough, and data are left but before the first pass. -/
structure Within (s₀ : Buffers) (given data₀ : List UInt8) (t : Cutting) : Prop
    extends Going s₀ given data₀ t where
  short : t.Short ↔ (Cutting.mk s₀ data₀ s₀.sendMu).Short
  first : t.data = [] → t = ⟨s₀, data₀, s₀.sendMu⟩

/-- What a call leaves where memory runs out -/
structure RunsOut (s₀ : Buffers) (given data₀ : List UInt8) (t : Cutting) : Prop where
  sound : ∃ moved, moved ++ t.data = data₀ ∧ t.s.Sound none (given ++ moved)
  sendMu : t.s.sendMu = s₀.sendMu
  tx : t.s.txMaxBtu = s₀.txMaxBtu
  earlier : ∀ i, s₀.sendMu = some i → i ∈ t.s.passed

/-- What a call leaves that ends, before the MU is forced out or written back -/
structure Ends (s₀ : Buffers) (given data₀ : List UInt8) (t : Cutting) : Prop where
  sound : t.s.Sound t.mu (given ++ data₀)
  tx : t.s.txMaxBtu = s₀.txMaxBtu
  none_iff : t.mu = none ↔
    data₀ = [] ∧ ∃ i, s₀.sendMu = some i ∧ s₀.txMaxBtu ≤ (s₀.bytes i).length

theorem Within.runsOut (h : Within s₀ given data₀ t) (hmu : t.mu = none)
    (halloc : t.s.allocs.headD true = false) :
    (Cutting.mk s₀ data₀ s₀.sendMu).Short ∧
      RunsOut s₀ given data₀ { t with s := { t.s with allocs := t.s.allocs.tail } } := by
  constructor
  · rw [← h.short, Cutting.Short, Cutting.need, hmu]
    cases hallocs : t.s.allocs with
    | nil => simp [hallocs] at halloc
    | cons a as =>
      rw [hallocs, List.headD_cons] at halloc
      obtain ⟨n, hn⟩ : ∃ n, max 1 (musFor t.s.txMaxBtu t.data.length) = n + 1 :=
        ⟨_, (Nat.sub_add_cancel (Nat.le_max_left 1 _)).symm⟩
      dsimp only
      rw [hn, List.take_succ_cons, halloc]
      exact List.mem_cons_self
  · obtain ⟨moved, hmoved, hs⟩ := h.sound
    refine ⟨⟨moved, hmoved, ?_⟩, h.sendMu, h.tx, fun i hi => ?_⟩
    · exact (hmu ▸ hs).congr rfl rfl rfl
    · obtain hsome | hmem := h.earlier i hi
      · exact absurd (hmu.symm.trans hsome) (by simp)
      · exact hmem

theorem Within.fillMu (h : Within s₀ given data₀ t) (htx : 0 < s₀.txMaxBtu)
    (htake : t.takeMu = (some i, s)) :
    ((s.fillMu t.data i).data ≠ [] → Within s₀ given data₀ (s.fillMu t.data i)) ∧
      ((s.fillMu t.data i).data = [] →
        ¬ (Cutting.mk s₀ data₀ s₀.sendMu).Short ∧ Ends s₀ given data₀ (s.fillMu t.data i)) := by
  have hgoing := h.toGoing.fillMu htake
  obtain ⟨-, htxs, -⟩ := takeMu_same htake
  obtain ⟨moved, hmoved, hs⟩ := h.sound
  have hi := (hs.takeMu htake).inUse i rfl
  have hpos : 0 < s.txMaxBtu := htxs ▸ h.tx ▸ htx
  have hshort := (takeMu_short (htxs ▸ hpos) htake).symm.trans h.short
  have hneed := @fillMu_need s t.data i hi hpos
  constructor
  · intro hne
    rw [hneed, if_neg hne, ← fillMu_allocs] at hshort
    exact ⟨hgoing, hshort, fun hnil => absurd hnil hne⟩
  · intro hnil
    rw [hneed, if_pos hnil, List.take_zero] at hshort
    refine ⟨fun hsh => absurd (hshort.mpr hsh) List.not_mem_nil, ?_, hgoing.tx, ?_⟩
    · obtain ⟨moved', hmoved', hs'⟩ := hgoing.sound
      rw [hnil, List.append_nil] at hmoved'
      exact hmoved' ▸ hs'
    · rw [fillMu_none_iff]
      constructor
      · intro hfull
        have hdata : t.data = [] := by
          rw [Buffers.fillMu, if_pos hfull] at hnil
          exact hnil
        have hstart := h.first hdata
        rw [hstart] at htake hdata
        obtain ⟨j, hmu, ht⟩ | ⟨-, -, ht⟩ | ⟨-, -, ht⟩ := takeMu_cases ⟨s₀, data₀, s₀.sendMu⟩ <;>
          rw [htake] at ht <;> cases ht
        · exact ⟨hdata, i, hmu, hfull⟩
        · simp only [Buffers.bytes, List.getD_eq_getElem?_getD, List.getElem?_concat_length] at hfull
          exact absurd (Nat.le_zero.mp hfull) (Nat.ne_of_gt htx)
      · rintro ⟨rfl, j, hj, hfull⟩
        rw [h.first (List.append_eq_nil_iff.mp hmoved).2, Cutting.takeMu, hj] at htake
        cases htake
        exact hfull

/-! ## Calls -/

/-- What a call leaves -/
theorem call_spec (hs : s₀.Sound s₀.sendMu given) (htx : 0 < s₀.txMaxBtu) (data₀ : List UInt8)
    (force : Bool) :
    ∃ r, s₀.sendDataBufferManagement data₀ force = some r ∧
      (r.1 = false ∧ (Cutting.mk s₀ data₀ s₀.sendMu).Short ∧ RunsOut s₀ given data₀ r.2 ∨
        r.1 = true ∧ ¬ (Cutting.mk s₀ data₀ s₀.sendMu).Short ∧
          ∃ t, r.2 = t.finish force ∧ Ends s₀ given data₀ t) := by
  obtain ⟨r, hr⟩ := Buffers.sendDataBufferManagement_ends hs.inUse htx data₀ force
  have hstart : Within s₀ given data₀ ⟨s₀, data₀, s₀.sendMu⟩ :=
    ⟨⟨⟨[], rfl, by rwa [List.append_nil]⟩, rfl, rfl, fun i hi => .inl hi⟩, Iff.rfl, fun _ => rfl⟩
  obtain ⟨k, t, hk, ht⟩ := loop_last hr
  have hstep : ∀ t u, Within s₀ given data₀ t → t.pass force = .inl u →
      Within s₀ given data₀ u := by
    intro t u hin hu
    obtain ⟨-, -, hp⟩ | ⟨i, s, htake, hp⟩ := pass_cases force t <;> rw [hp] at hu
    · cases hu
    · split at hu
      · rename_i hne
        obtain rfl := Sum.inl.inj hu
        exact (hin.fillMu htx htake).1 hne
      · cases hu
  have hin := before_invariant hstep hstart hk
  refine ⟨r, hr, ?_⟩
  obtain ⟨hmu, halloc, hp⟩ | ⟨i, s, htake, hp⟩ := pass_cases force t <;> rw [hp] at ht
  · obtain rfl := Sum.inr.inj ht
    obtain ⟨hshort, hout⟩ := hin.runsOut hmu halloc
    exact .inl ⟨rfl, hshort, hout⟩
  · split at ht
    · cases ht
    · rename_i hnil
      obtain rfl := Sum.inr.inj ht
      obtain ⟨hshort, hends⟩ := (hin.fillMu htx htake).2 (not_not.mp hnil)
      exact .inr ⟨rfl, hshort, _, rfl, hends⟩

/-- The MU is written back, or forced out. -/
theorem finish_sound (h : t.s.Sound t.mu given) (hmu : force = true → t.mu ≠ none) :
    (t.finish force).s.Sound (t.finish force).s.sendMu given := by
  cases force with
  | false => exact h.congr rfl rfl rfl
  | true =>
    obtain ⟨i, hi⟩ := Option.ne_none_iff_exists'.mp (hmu rfl)
    rw [hi] at h
    rw [Cutting.finish, if_pos rfl, hi]
    exact h.tx.congr rfl rfl rfl

theorem finish_none (hmu : t.mu = none) : none ∈ (t.finish true).s.down := by
  rw [Cutting.finish, if_pos rfl, hmu]
  exact List.mem_append_right _ List.mem_cons_self

/-- The control block with the buffers, and what was given of the buffers so far -/
structure Calling where
  s : Buffers
  given : List UInt8 := []
  deriving DecidableEq

/-- A call, and whether it forces the MU out. Where memory runs out, what was not copied is not
given. -/
def Calling.step (t : Calling) (e : List UInt8 × Bool) : Option Calling :=
  (t.s.sendDataBufferManagement e.1 e.2).map fun r =>
    { s := r.2.s
      given := t.given ++ if r.1 then e.1 else e.1.take (e.1.length - r.2.data.length) }

def Calling.Kept (t : Calling) : Prop := t.s.Keeps t.s.sendMu t.given

/-- The MU that `send_mu` points to is not forced out without data when it is full, and there is
memory for the MUs that the call asks for behind it. -/
structure Calling.Safe (t : Calling) (e : List UInt8 × Bool) : Prop where
  full : e.1 = [] → e.2 = true → ∀ i, t.s.sendMu = some i →
    (t.s.bytes i).length < t.s.txMaxBtu
  memory : ∀ i, t.s.sendMu = some i →
    false ∉ t.s.allocs.take (musFor t.s.txMaxBtu (e.1.length - t.s.room i))

theorem short_iff (hi : s₀.sendMu = some i) :
    (Cutting.mk s₀ data₀ s₀.sendMu).Short ↔
      false ∈ s₀.allocs.take (musFor s₀.txMaxBtu (data₀.length - s₀.room i)) := by
  rw [Cutting.Short, Cutting.need]
  simp only [hi]

theorem step_runsOut {t : Calling} {e : List UInt8 × Bool} {r : Cutting}
    (hshort : (Cutting.mk t.s e.1 t.s.sendMu).Short) (h : RunsOut t.s t.given e.1 r) :
    (t.Safe e → r.s.Sound r.s.sendMu (t.given ++ e.1.take (e.1.length - r.data.length))) ∧
      (¬ t.Safe e → ∀ given, ¬ r.s.Keeps r.s.sendMu given) := by
  obtain ⟨moved, hmoved, hs⟩ := h.sound
  have htake : e.1.take (e.1.length - r.data.length) = moved := by
    rw [← hmoved, List.length_append, Nat.add_sub_cancel, List.take_left']
    rfl
  cases hmu : t.s.sendMu with
  | none =>
    constructor
    · intro _
      rw [h.sendMu, hmu, htake]
      exact hs
    · intro hn
      refine absurd ⟨fun _ _ i hi => ?_, fun i hi => ?_⟩ hn <;>
        exact absurd (hmu.symm.trans hi) (by simp)
  | some i =>
    constructor
    · intro hsafe
      exact absurd ((short_iff hmu).mp hshort) (hsafe.memory i hmu)
    · intro _ given hkept
      exact hkept.fresh i (h.sendMu.trans hmu) (h.earlier i hmu)

theorem step_ends {t : Calling} {e : List UInt8 × Bool} {r : Cutting}
    (hshort : ¬ (Cutting.mk t.s e.1 t.s.sendMu).Short) (h : Ends t.s t.given e.1 r) :
    (t.Safe e → (r.finish e.2).s.Sound (r.finish e.2).s.sendMu (t.given ++ e.1)) ∧
      (¬ t.Safe e → ∀ given, ¬ (r.finish e.2).s.Keeps (r.finish e.2).s.sendMu given) := by
  constructor
  · intro hsafe
    refine finish_sound h.sound fun hforce hnone => ?_
    obtain ⟨hnil, i, hi, hfull⟩ := h.none_iff.mp hnone
    exact absurd (hsafe.full hnil hforce i hi) (by omega)
  · intro hn given hkept
    apply hn
    refine ⟨fun hnil hforce i hi => ?_, fun i hi hmem => hshort ((short_iff hi).mpr hmem)⟩
    by_contra hfull
    have hnone := h.none_iff.mpr ⟨hnil, i, hi, by omega⟩
    rw [hforce] at hkept
    exact hkept.null (finish_none hnone)

/-- What a call does -/
theorem step_spec {t : Calling} (hs : t.s.Sound t.s.sendMu t.given) (htx : 0 < t.s.txMaxBtu)
    (e : List UInt8 × Bool) :
    ∃ t', t.step e = some t' ∧ t'.s.txMaxBtu = t.s.txMaxBtu ∧
      (t.Safe e → t'.s.Sound t'.s.sendMu t'.given) ∧ (¬ t.Safe e → ¬ t'.Kept) := by
  obtain ⟨⟨ok, r⟩, hr, ⟨hok, hshort, hout⟩ | ⟨hok, hshort, u, hu, hends⟩⟩ :=
    call_spec hs htx e.1 e.2
  · obtain rfl : ok = false := hok
    obtain ⟨hsafe, hbad⟩ := step_runsOut hshort hout
    refine ⟨⟨r.s, t.given ++ e.1.take (e.1.length - r.data.length)⟩, ?_, hout.tx, hsafe,
      fun hn => hbad hn _⟩
    rw [Calling.step, hr]
    rfl
  · obtain rfl : ok = true := hok
    obtain rfl : r = u.finish e.2 := hu
    obtain ⟨hsafe, hbad⟩ := step_ends hshort hends
    refine ⟨⟨(u.finish e.2).s, t.given ++ e.1⟩, ?_, ?_, hsafe, fun hn => hbad hn _⟩
    · rw [Calling.step, hr]
      rfl
    · rw [← hends.tx, Cutting.finish]
      split <;> rfl

theorem fresh_sound (tx : Nat) (allocs : List Bool) :
    ({ txMaxBtu := tx, allocs := allocs } : Buffers).Sound none [] :=
  ⟨⟨rfl, fun p hp => (by cases hp), by simp, by simp [Buffers.passed], fun i hi => by cases hi⟩,
    fun i hi => (by cases hi), by simp [Buffers.passed], fun i hi => by cases hi⟩

/-- In every sequence of calls all the bytes are kept in every state, if and only if no call forces
out a full MU without data, and none runs out of memory behind the MU of an earlier one. -/
theorem bytes_kept_iff {tx : Nat} (htx : 0 < tx) (allocs : List Bool)
    (es : List (List UInt8 × Bool)) :
    Always Calling.step Calling.Kept ⟨{ txMaxBtu := tx, allocs := allocs }, []⟩ es ↔
      Along Calling.step Calling.Safe ⟨{ txMaxBtu := tx, allocs := allocs }, []⟩ es := by
  refine always_iff (I := fun t => t.s.Sound t.s.sendMu t.given ∧ 0 < t.s.txMaxBtu)
    (fun t ht => ht.1.toKeeps) ?_ ?_ ⟨fresh_sound tx allocs, htx⟩
  · rintro t e t' ⟨hs, hpos⟩ hsafe hstep
    obtain ⟨u, hu, htx', hsound, -⟩ := step_spec hs hpos e
    obtain rfl := Option.some.inj (hstep.symm.trans hu)
    exact ⟨hsound hsafe, htx' ▸ hpos⟩
  · rintro t e ⟨hs, hpos⟩ hn
    obtain ⟨u, hu, -, -, hbad⟩ := step_spec hs hpos e
    exact ⟨u, hu, hbad hn⟩

/-- 3 bytes in MUs of 2, with memory for the second of them -/
theorem bytes_kept_iff_three :
    Always Calling.step Calling.Kept ⟨{ txMaxBtu := 2, allocs := [true, true, false] }, []⟩
      [([1], false), ([2, 3], true)] := by
  have hfirst : Calling.step ⟨{ txMaxBtu := 2, allocs := [true, true, false] }, []⟩ ([1], false) =
      some ⟨⟨2, some 0, [[1]], [], [true, false]⟩, [1]⟩ := by decide
  refine (bytes_kept_iff (by decide) _ _).mpr ⟨⟨fun _ _ i hi => ?_, fun i hi => ?_⟩, ?_⟩
  · cases hi
  · cases hi
  · intro t ht
    obtain rfl := Option.some.inj (hfirst.symm.trans ht)
    refine ⟨⟨fun hnil => ?_, fun i hi => ?_⟩, fun _ _ => trivial⟩
    · cases hnil
    · obtain rfl := Option.some.inj hi
      decide

/-- MUs of 2: the second cannot be had, and `send_mu` still points to the first. And MUs of 1: a full
one is forced out without data, and another, which is none. -/
theorem passed_twice :
    run Calling.step ⟨{ txMaxBtu := 2, allocs := [true, false] }, []⟩
        [([1], false), ([2, 3], false)] =
      some ⟨⟨2, some 0, [[1, 2]], [some (0, [1, 2])], []⟩, [1, 2]⟩ ∧
      run Calling.step ⟨{ txMaxBtu := 1 }, []⟩ [([1], false), ([], true)] =
        some ⟨⟨1, none, [[1]], [some (0, [1]), none], []⟩, [1]⟩ ∧
      ¬ Always Calling.step Calling.Kept ⟨{ txMaxBtu := 2, allocs := [true, false] }, []⟩
        [([1], false), ([2, 3], false)] ∧
      ¬ Always Calling.step Calling.Kept ⟨{ txMaxBtu := 1 }, []⟩ [([1], false), ([], true)] := by
  have hmemory : run Calling.step ⟨{ txMaxBtu := 2, allocs := [true, false] }, []⟩
      [([1], false), ([2, 3], false)] =
        some ⟨⟨2, some 0, [[1, 2]], [some (0, [1, 2])], []⟩, [1, 2]⟩ := by decide
  have hforce : run Calling.step ⟨{ txMaxBtu := 1 }, []⟩ [([1], false), ([], true)] =
      some ⟨⟨1, none, [[1]], [some (0, [1]), none], []⟩, [1]⟩ := by decide
  refine ⟨hmemory, hforce, fun h => ?_, fun h => ?_⟩
  · exact (h.run hmemory).fresh 0 rfl (by decide)
  · exact (h.run hforce).null (by decide)

end LinuxSna.Ps
