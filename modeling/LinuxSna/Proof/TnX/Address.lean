import LinuxSna.Spec.ConfigFile

/-!
# The address filter

The numbers of an entry are read back one by one (`scanNumber_decimal`), so that `buildAddr` gives
the address and the mask of the entry (`buildAddr_text`). The bytes of both are turned round in the
same way, and so are those of the client: what is compared are leading bits (`admits_iff`), which
are all of them where the count of the shift is 32.
-/

namespace LinuxSna.TnX

open Framework

variable {m : Machine} {v : Nat} {s rest : List UInt8} {b : UInt8}

/-! ## Numbers -/

theorem digitValue_digit {d : Nat} (h : d < 10) : digitValue (UInt8.ofNat (48 + d)) = d := by
  interval_cases d <;> decide

theorem isdigit_digit {d : Nat} (h : d < 10) : isdigit (UInt8.ofNat (48 + d)) = true := by
  interval_cases d <;> decide

theorem digit_ne_zero {d : Nat} (h : d < 10) (h0 : d ≠ 0) : UInt8.ofNat (48 + d) ≠ 48 := by
  interval_cases d <;> first | exact absurd rfl h0 | decide

theorem decimal_zero : decimal 0 = [48] := rfl

theorem decimal_of_ne_zero (h : v ≠ 0) :
    decimal v = (Nat.digits 10 v).reverse.map fun d => UInt8.ofNat (48 + d) := if_neg h

/-- The first digit of a number that is not 0 -/
theorem digits_reverse_cons (h : v ≠ 0) :
    ∃ d ds, (Nat.digits 10 v).reverse = d :: ds ∧ d ≠ 0 := by
  have hne : Nat.digits 10 v ≠ [] := Nat.digits_ne_nil_iff_ne_zero.mpr h
  refine ⟨(Nat.digits 10 v).getLast hne, (Nat.digits 10 v).dropLast.reverse, ?_,
    Nat.getLast_digit_ne_zero 10 h⟩
  rw [← List.reverse_concat, List.dropLast_append_getLast hne]

theorem isdigit_of_mem_decimal (h : b ∈ decimal v) : isdigit b = true := by
  by_cases hv : v = 0
  · rw [hv, decimal_zero, List.mem_singleton] at h
    rw [h]
    decide
  · rw [decimal_of_ne_zero hv, List.mem_map] at h
    obtain ⟨d, hd, rfl⟩ := h
    exact isdigit_digit (Nat.digits_lt_base (by decide) (List.mem_reverse.mp hd))

theorem decimal_ne_nil : decimal v ≠ [] := by
  by_cases hv : v = 0
  · rw [hv, decimal_zero]
    decide
  · obtain ⟨d, ds, hd, -⟩ := digits_reverse_cons hv
    rw [decimal_of_ne_zero hv, hd]
    exact List.cons_ne_nil _ _

theorem numberBase_of_ne (h : b ≠ 48) : numberBase (b :: s) = (10, b :: s) := by
  unfold numberBase
  split
  · rename_i heq
    exact absurd (List.cons.inj heq).1 h
  · rename_i heq
    exact absurd (List.cons.inj heq).1 h
  · rfl

/-- What stands behind a number is no digit. -/
theorem numberBase_zero (h : ∀ b ∈ rest.head?, digitValue b = 36) :
    numberBase (48 :: rest) = (8, 48 :: rest) := by
  unfold numberBase
  split
  · rename_i x b s heq
    obtain ⟨-, rfl⟩ := List.cons.inj heq
    have hx := h x rfl
    have hmark : isHexMark x = false := by
      simp only [isHexMark, decide_eq_false_iff_not]
      rintro (rfl | rfl)
      · exact absurd hx (by decide)
      · exact absurd hx (by decide)
    simp [hmark]
  · rename_i heq
    rw [(List.cons.inj heq).2]
  · rename_i hno
    exact absurd rfl (hno rest)

theorem scanNumber_decimal (v : Nat) (h : ∀ b ∈ rest.head?, digitValue b = 36) :
    scanNumber (decimal v ++ rest) = (v, rest) := by
  have hstop : ∀ base ≤ 36, rest.takeWhile (fun b => digitValue b < base) = [] ∧
      rest.dropWhile (fun b => digitValue b < base) = rest := by
    intro base hbase
    cases rest with
    | nil => exact ⟨rfl, rfl⟩
    | cons b s =>
      have hb : ¬ digitValue b < base := by
        rw [h b rfl]
        omega
      simp [hb]
  by_cases hv : v = 0
  · obtain ⟨htake, hdrop⟩ := hstop 8 (by decide)
    have h0 : digitValue 48 < 8 := by decide
    subst hv
    unfold scanNumber
    rw [decimal_zero, List.singleton_append, numberBase_zero h]
    simp [h0, htake, hdrop]
    decide
  · obtain ⟨htake, hdrop⟩ := hstop 10 (by decide)
    obtain ⟨d, ds, hd, hne⟩ := digits_reverse_cons hv
    have hlt : ∀ e ∈ d :: ds, e < 10 := by
      intro e he
      rw [← hd] at he
      exact Nat.digits_lt_base (by decide) (List.mem_reverse.mp he)
    have hall : ∀ b ∈ (d :: ds).map fun d => UInt8.ofNat (48 + d),
        decide (digitValue b < 10) = true := by
      intro b hb
      obtain ⟨e, he, rfl⟩ := List.mem_map.mp hb
      rw [digitValue_digit (hlt e he)]
      exact decide_eq_true (hlt e he)
    have hvals : ((d :: ds).map fun d => UInt8.ofNat (48 + d)).map digitValue = d :: ds := by
      rw [List.map_map]
      conv_rhs => rw [← List.map_id (d :: ds)]
      exact List.map_congr_left fun e he => digitValue_digit (hlt e he)
    have hfold : (d :: ds).foldl (fun n d => n * 10 + d) 0 = v := by
      rw [← hd, List.foldl_reverse]
      conv_rhs => rw [← Nat.ofDigits_digits 10 v, Nat.ofDigits_eq_foldr]
      congr 1
      funext d n
      simp only [Nat.cast_id]
      omega
    have hbase : numberBase (decimal v ++ rest) = (10, decimal v ++ rest) := by
      rw [decimal_of_ne_zero hv, hd, List.map_cons, List.cons_append]
      exact numberBase_of_ne (digit_ne_zero (hlt d List.mem_cons_self) hne)
    unfold scanNumber
    rw [hbase, decimal_of_ne_zero hv, hd]
    simp only
    rw [List.takeWhile_append_of_pos hall, List.dropWhile_append_of_pos hall, htake, hdrop,
      List.append_nil, hvals, hfold]

theorem skipSpace_decimal : skipSpace (decimal v ++ rest) = decimal v ++ rest := by
  obtain ⟨b, s, hs⟩ := List.exists_cons_of_ne_nil (@decimal_ne_nil v)
  have hb : isdigit b = true := isdigit_of_mem_decimal (hs ▸ List.mem_cons_self)
  have hspace : isspace b = false := by
    simp only [isdigit, isspace, decide_eq_true_eq, decide_eq_false_iff_not, UInt8.le_iff_toNat_le,
      ← UInt8.toNat_inj] at hb ⊢
    simp only [UInt8.reduceToNat] at hb ⊢
    omega
  rw [hs, List.cons_append, skipSpace, List.dropWhile_cons_of_neg (by simp [hspace])]

theorem strtol_decimal (h : v ≤ 32) : strtol m (decimal v) = ((v : Int), []) := by
  obtain ⟨b, s, hs⟩ := List.exists_cons_of_ne_nil (@decimal_ne_nil v)
  have hb : isdigit b = true := isdigit_of_mem_decimal (hs ▸ List.mem_cons_self)
  have hminus : b ≠ minus := by rintro rfl; exact absurd hb (by decide)
  have hplus : b ≠ plus := by rintro rfl; exact absurd hb (by decide)
  have hskip := @skipSpace_decimal v []
  have hscan := @scanNumber_decimal [] v nofun
  rw [List.append_nil] at hskip hscan
  have hmax : (v : Int) ≤ 2 ^ (m.longBits - 1) - 1 := by
    have hpow : 2 ^ 31 ≤ 2 ^ (m.longBits - 1) :=
      Nat.pow_le_pow_right (by decide) (Nat.le_sub_one_of_lt m.le_longBits)
    have hcast : ((2 ^ (m.longBits - 1) : Nat) : Int) = 2 ^ (m.longBits - 1) := by push_cast; rfl
    omega
  unfold strtol
  rw [hskip]
  simp only [hs, List.head?_cons, Option.some.injEq, hminus, hplus, or_self, if_false]
  rw [← hs, hscan, if_neg (Ne.symm decimal_ne_nil)]
  simp only [min_eq_left hmax]

/-! ## Entries -/

theorem addressNumbers_dot (more word : Nat) (h : v < 256) (cp : List UInt8) :
    addressNumbers (more + 1) word (decimal v ++ dot :: cp) =
      addressNumbers more (word * 256 + v) cp := by
  have hscan := @scanNumber_decimal (dot :: cp) v fun b hb => by
    cases hb
    decide
  obtain ⟨b, s, hs⟩ := List.exists_cons_of_ne_nil (@decimal_ne_nil v)
  have hb : isdigit b = true := isdigit_of_mem_decimal (hs ▸ List.mem_cons_self)
  have hdigit : ((decimal v ++ dot :: cp).head?.map isdigit).getD false = true := by
    rw [hs, List.cons_append, List.head?_cons, Option.map_some, hb, Option.getD_some]
  rw [addressNumbers, if_pos hdigit, hscan]
  simp [h]

theorem addressNumbers_last (word : Nat) (h : v < 256) :
    addressNumbers 0 word (decimal v) = some (word * 256 + v) := by
  have hscan := @scanNumber_decimal [] v nofun
  obtain ⟨b, s, hs⟩ := List.exists_cons_of_ne_nil (@decimal_ne_nil v)
  have hb : isdigit b = true := isdigit_of_mem_decimal (hs ▸ List.mem_cons_self)
  have hdigit : ((decimal v).head?.map isdigit).getD false = true := by
    rw [hs, List.head?_cons, Option.map_some, hb, Option.getD_some]
  rw [List.append_nil] at hscan
  rw [addressNumbers, if_pos hdigit, hscan]
  simp [h]

theorem inetAton_quad (e : Listed) : inetAton m e.quad = some (htonl m e.address) := by
  unfold inetAton Listed.quad
  rw [addressNumbers_dot 2 0 e.a.toNat_lt, addressNumbers_dot 1 _ e.b.toNat_lt,
    addressNumbers_dot 0 _ e.c.toNat_lt, addressNumbers_last _ e.d.toNat_lt, Nat.zero_mul,
    Nat.zero_add, Option.map_some, Listed.address]

theorem slash_notMem_quad (e : Listed) : slash ∉ e.quad := by
  have hdigit : ∀ v, slash ∉ decimal v := by
    intro v h
    exact absurd (isdigit_of_mem_decimal h) (by decide)
  have hdot : slash ≠ dot := by decide
  simp [Listed.quad, hdigit, hdot]

theorem count_toNat (h : v ≤ 32) :
    (32 - BitVec.ofInt m.longBits (v : Int)).toNat = 32 - v := by
  have hpow : 2 ^ 32 ≤ 2 ^ m.longBits := Nat.pow_le_pow_right (by decide) m.le_longBits
  have h32 : (32 : BitVec m.longBits).toNat = 32 := by
    show 32 % 2 ^ m.longBits = 32
    exact Nat.mod_eq_of_lt (by omega)
  have hv : (BitVec.ofInt m.longBits (v : Int)).toNat = v := by
    rw [BitVec.ofInt_natCast, BitVec.toNat_ofNat]
    exact Nat.mod_eq_of_lt (by omega)
  have hle : BitVec.ofInt m.longBits (v : Int) ≤ 32 := by
    rw [BitVec.le_def, hv, h32]
    exact h
  rw [BitVec.toNat_sub_of_le hle, hv, h32]

/-- A shift by 32 leaves all the ones. -/
theorem shiftedOnes_eq (h : v ≤ 32) :
    shiftedOnes (32 - v) = leading 32 (if v = 0 then 32 else v) := by
  unfold shiftedOnes leading
  by_cases hv : v = 0
  · rw [if_pos hv, hv]
  · rw [if_neg hv, Nat.mod_eq_of_lt (by omega)]

theorem buildAddr_text (e : Listed) :
    buildAddr m e.text = some ⟨clientWord m e.address,
      clientWord m (leading 32 (if e.n = 0 then 32 else e.n))⟩ := by
  have hmem : slash ∈ e.text := List.mem_append_right _ List.mem_cons_self
  have hquad : ∀ b ∈ e.quad, decide (b ≠ slash) = true := by
    intro b hb
    exact decide_eq_true (ne_of_mem_of_not_mem hb (slash_notMem_quad e))
  have htake : e.text.takeWhile (· ≠ slash) = e.quad := by
    rw [Listed.text, List.takeWhile_append_of_pos hquad, List.takeWhile_cons_of_neg (by simp),
      List.append_nil]
  have hdrop : (e.text.dropWhile (· ≠ slash)).tail = decimal e.n := by
    rw [Listed.text, List.dropWhile_append_of_pos hquad, List.dropWhile_cons_of_neg (by simp),
      List.tail_cons]
  unfold buildAddr
  rw [if_pos hmem, htake, hdrop, inetAton_quad, strtol_decimal e.le]
  simp only [if_true, count_toNat e.le, shiftedOnes_eq e.le]
  rfl

/-! ## Clients -/

theorem htonl_and (x y : BitVec 32) : htonl m (x &&& y) = htonl m x &&& htonl m y := by
  unfold htonl
  split
  · rfl
  · exact byteSwap_and x y

theorem htonl_injective : Function.Injective (htonl m) := by
  intro x y h
  unfold htonl at h
  split at h
  · exact h
  · exact byteSwap_injective h

theorem masked_iff (x y mask : BitVec 32) :
    clientWord m x &&& clientWord m mask = clientWord m y &&& clientWord m mask ↔
      x &&& mask = y &&& mask := by
  unfold clientWord
  rw [and_setWidth_eq_iff m.le_longBits, ← htonl_and, ← htonl_and]
  exact htonl_injective.eq_iff

/-- The whole address is compared where `n` is 0. -/
theorem admits_iff (e : Listed) (client : BitVec 32) :
    clientWord m e.address &&& clientWord m (leading 32 (if e.n = 0 then 32 else e.n)) =
        clientWord m client &&& clientWord m (leading 32 (if e.n = 0 then 32 else e.n)) ↔
      if e.n = 0 then client = e.address else e.Agrees client := by
  have hle := e.le
  rw [masked_iff]
  by_cases hn : e.n = 0
  · rw [if_pos hn, if_pos hn, and_leading_eq_iff le_rfl, ← eq_iff_getMsbD, eq_comm]
  · rw [if_neg hn, if_neg hn, and_leading_eq_iff hle]
    exact forall₂_congr fun i _ => eq_comm

theorem buildAddrList_texts {entries : List Listed} (h : entries ≠ []) :
    buildAddrList m (entries.map Listed.text) = entries.map fun e => ⟨clientWord m e.address,
      clientWord m (leading 32 (if e.n = 0 then 32 else e.n))⟩ := by
  have hne : entries.map Listed.text ≠ [] := by rwa [ne_eq, List.map_eq_nil_iff]
  have hall : ∀ es : List Listed, (es.map Listed.text).mapM (buildAddr m) =
      some (es.map fun e => ⟨clientWord m e.address,
        clientWord m (leading 32 (if e.n = 0 then 32 else e.n))⟩) := by
    intro es
    induction es with
    | nil => rfl
    | cons e es ih => simp [List.mapM_cons, buildAddr_text, ih]
  rw [buildAddrList, if_neg hne, hall, Option.getD_some]

theorem validClient_eq_one {addrlist : List (ClientAddr m)} {client : BitVec m.longBits} :
    validClient addrlist client = 1 ↔
      ∃ data ∈ addrlist, data.address &&& data.mask = client &&& data.mask := by
  unfold validClient
  split
  · rename_i h
    simpa using h
  · rename_i h
    simpa using h

/-- What lets a client in -/
theorem validClient_entries {entries : List Listed} (h : entries ≠ []) (client : BitVec 32) :
    validClient (buildAddrList m (entries.map Listed.text)) (clientWord m client) = 1 ↔
      ∃ e ∈ entries, if e.n = 0 then client = e.address else e.Agrees client := by
  rw [validClient_eq_one, buildAddrList_texts h]
  simp only [List.mem_map, exists_exists_and_eq_and, admits_iff]

theorem validClient_nil (client : BitVec 32) :
    validClient (buildAddrList m []) (clientWord m client) = 1 ↔ client = loopback := by
  rw [validClient_eq_one, buildAddrList, if_pos rfl]
  simp only [List.mem_singleton, exists_eq_left, clientWord]
  rw [and_setWidth_eq_iff m.le_longBits, BitVec.and_allOnes, BitVec.and_allOnes,
    htonl_injective.eq_iff, eq_comm]
  rfl

/-- `tnX_valid_client` lets a client in exactly if it agrees with an entry on its first bits. A list
without entries stands for the host itself. -/
theorem validClient_iff {entries : List Listed} {client : BitVec 32}
    (h : Decided entries client) :
    validClient (buildAddrList m (entries.map Listed.text)) (clientWord m client) = 1 ↔
      if entries = [] then client = loopback else ∃ e ∈ entries, e.Agrees client := by
  by_cases hne : entries = []
  · rw [if_pos hne, hne]
    exact validClient_nil client
  · rw [if_neg hne, validClient_entries hne]
    constructor
    · rintro ⟨e, he, hadmits⟩
      refine ⟨e, he, ?_⟩
      by_cases hn : e.n = 0
      · intro i hi
        omega
      · rwa [if_neg hn] at hadmits
    · rintro ⟨e, he, hagrees⟩
      by_cases hn : e.n = 0
      · exact h ⟨e, he, hn⟩
      · exact ⟨e, he, by rwa [if_neg hn]⟩

/-- 10.0.0.0/8 and 10.1.2.3 -/
theorem validClient_iff_net :
    validClient (buildAddrList ⟨64, by decide, false⟩
        (List.map Listed.text [⟨10, 0, 0, 0, 8, by decide⟩]))
      (clientWord ⟨64, by decide, false⟩ 0x0A010203) = 1 ↔
      if [(⟨10, 0, 0, 0, 8, by decide⟩ : Listed)] = [] then (0x0A010203 : BitVec 32) = loopback
      else ∃ e ∈ [(⟨10, 0, 0, 0, 8, by decide⟩ : Listed)], e.Agrees 0x0A010203 :=
  validClient_iff (by simp [Decided])

/-- With nothing listed 127.0.0.1 is let in, and with 0.0.0.0/0 listed 10.1.2.3 is not. -/
theorem validClient_edges :
    (validClient (buildAddrList ⟨64, by decide, false⟩ (List.map Listed.text []))
        (clientWord ⟨64, by decide, false⟩ loopback) = 1 ∧
      ¬ ∃ e ∈ ([] : List Listed), e.Agrees loopback) ∧
    (validClient (buildAddrList ⟨64, by decide, false⟩
        (List.map Listed.text [⟨0, 0, 0, 0, 0, by decide⟩]))
        (clientWord ⟨64, by decide, false⟩ 0x0A010203) ≠ 1 ∧
      ∃ e ∈ [(⟨0, 0, 0, 0, 0, by decide⟩ : Listed)], e.Agrees 0x0A010203) := by
  refine ⟨⟨by decide, by simp⟩, ?_, ?_⟩
  · rw [ne_eq, validClient_entries (List.cons_ne_nil _ _)]
    simp [Listed.address]
  · exact ⟨_, List.mem_singleton_self _, fun i hi => absurd hi (Nat.not_lt_zero i)⟩

end LinuxSna.TnX
