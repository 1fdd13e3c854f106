import LinuxSna.Spec.NodeConfig

/-!
# The words of a configuration: forms

What the functions of `sna_xwords.c` read from a text of the form that is asked for.

* `digits_eq`: the loop over the digits gives the number, by induction from the last of them;
* `atoi_number`, `strtol_sap`, `strtol_hex`: numbers, by what stands in front of the digits;
* `atoi_word`: a word is no number, so that `atoi` gives zero;
* `charToNetid_eq`, `charToEther_eq`: names and addresses;
* `mapWord_eq`: a word that is in the map.
-/

namespace LinuxSna.Snaconfig

open NodeConfig

/-! ## Digits -/

theorem mem_hexDigits {c : Char} (h : isHex c = true) : c ∈ "0123456789abcdefABCDEF".toList := by
  have hc : c = Char.ofNat c.toNat := (Char.ofNat_toNat c).symm
  simp only [isHex, isDecimal, Char.le_def, UInt32.le_iff_toNat_le, Bool.or_eq_true,
    decide_eq_true_eq] at h
  have hn : c.toNat = c.val.toNat := rfl
  rw [hc]
  obtain (⟨h1, h2⟩ | ⟨h1, h2⟩) | ⟨h1, h2⟩ := h
  · replace h1 : 48 ≤ c.toNat := h1
    replace h2 : c.toNat ≤ 57 := h2
    interval_cases c.toNat <;> decide
  · replace h1 : 97 ≤ c.toNat := h1
    replace h2 : c.toNat ≤ 102 := h2
    interval_cases c.toNat <;> decide
  · replace h1 : 65 ≤ c.toNat := h1
    replace h2 : c.toNat ≤ 70 := h2
    interval_cases c.toNat <;> decide

/-- What is computed for each of the hexadecimal digits -/
theorem forall_hex {p : Char → Bool} (h : "0123456789abcdefABCDEF".toList.all p = true) {c : Char}
    (hc : isHex c = true) : p c = true :=
  List.all_eq_true.mp h c (mem_hexDigits hc)

theorem digitVal_hex {c : Char} (h : isHex c = true) :
    digitVal c = "0123456789abcdef".toList.idxOf c.toLower ∧ digitVal c < 16 := by
  have hc := @forall_hex (fun c => decide (digitVal c = "0123456789abcdef".toList.idxOf c.toLower ∧
    digitVal c < 16)) (by decide) c h
  exact of_decide_eq_true hc

theorem isHex_of_isDecimal {c : Char} (h : isDecimal c = true) : isHex c = true := by
  simp [isHex, h]

theorem digitVal_lt_ten {c : Char} (h : isDecimal c = true) : digitVal c < 10 := by
  have hc := @forall_hex (fun c => decide (isDecimal c = true → digitVal c < 10)) (by decide) c
    (isHex_of_isDecimal h)
  exact of_decide_eq_true hc h

/-- A digit is none of the characters that may stand in front of a number. -/
theorem plain_of_isHex {c : Char} (h : isHex c = true) :
    isSpace c = false ∧ c ≠ '-' ∧ c ≠ '+' ∧ c ≠ 'x' ∧ c ≠ 'X' ∧ c ≠ ':' := by
  have hc := @forall_hex (fun c => decide (isSpace c = false ∧ c ≠ '-' ∧ c ≠ '+' ∧ c ≠ 'x' ∧
    c ≠ 'X' ∧ c ≠ ':')) (by decide) c h
  exact of_decide_eq_true hc

theorem foldl_digits (base : Nat) (l : List Nat) :
    l.foldl (fun n d => n * base + d) 0 = Nat.ofDigits base l.reverse := by
  induction l using List.reverseRecOn with
  | nil => rfl
  | append_singleton l d ih =>
    rw [List.foldl_append, List.reverse_append, ih]
    show Nat.ofDigits base l.reverse * base + d = Nat.ofDigits base (d :: l.reverse)
    rw [Nat.ofDigits_cons, Nat.mul_comm, Nat.add_comm]

theorem digits_eq {base : Nat} {t : XmlStr} (hhex : ∀ c ∈ t, isHex c = true)
    (hlt : ∀ c ∈ t, digitVal c < base) : digits base t = inBase base t := by
  have hall : (t.map digitVal).takeWhile (· < base) = t.map digitVal := by
    rw [List.takeWhile_eq_self_iff]
    intro d hd
    obtain ⟨c, hc, rfl⟩ := List.mem_map.mp hd
    exact decide_eq_true (hlt c hc)
  rw [digits, hall, foldl_digits, inBase, ← List.map_reverse]
  congr 1
  apply List.map_congr_left
  intro c hc
  exact (digitVal_hex (hhex c (List.mem_reverse.mp hc))).1

/-! ## Numbers -/

/-- A text that begins with a digit has no blanks and no sign. -/
theorem strtol_eq (long : Long) {c : Char} (h : isHex c = true) (s : XmlStr) (base : Nat) :
    strtol long (c :: s) base =
      (min (digits (radix base (c :: s)).1 (radix base (c :: s)).2) long.max : Nat) := by
  obtain ⟨hsp, hm, hp, -⟩ := plain_of_isHex h
  have hdrop : (c :: s).dropWhile isSpace = c :: s := by simp [hsp]
  simp [strtol, hdrop, hm, hp]

theorem atoi_number (long : Long) {t : XmlStr} (h : isNumber t = true) :
    atoi long t = (inBase 10 t : Int) := by
  simp only [isNumber, ne_eq, decide_eq_true_eq, List.all_eq_true] at h
  obtain ⟨hne, hall, hlt⟩ := h
  obtain ⟨c, s, rfl⟩ := List.exists_cons_of_ne_nil hne
  have hdigits : digits 10 (c :: s) = inBase 10 (c :: s) :=
    digits_eq (fun c hc => isHex_of_isDecimal (hall c hc)) fun c hc => digitVal_lt_ten (hall c hc)
  have hle := long.le_max
  rw [atoi, strtol_eq long (isHex_of_isDecimal (hall c List.mem_cons_self))]
  show ((min (digits 10 (c :: s)) long.max : Nat) : Int).bmod 4294967296 = _
  rw [hdigits, Nat.min_eq_left (by omega)]
  exact Int.bmod_eq_of_le (by omega) (by omega)

theorem atoi_word (long : Long) {t : XmlStr} (h : isWord t = true) : atoi long t = 0 := by
  simp only [isWord, ne_eq, decide_eq_true_eq, List.all_eq_true] at h
  obtain ⟨hne, hall⟩ := h
  obtain ⟨c, s, rfl⟩ := List.exists_cons_of_ne_nil hne
  have hc := hall c List.mem_cons_self
  simp only [isLetter, Char.le_def, UInt32.le_iff_toNat_le, decide_eq_true_eq] at hc
  obtain ⟨h1, h2⟩ := hc
  replace h1 : 97 ≤ c.toNat := h1
  replace h2 : c.toNat ≤ 122 := h2
  have hplain : isSpace c = false ∧ c ≠ '-' ∧ c ≠ '+' ∧ 10 ≤ digitVal c := by
    rw [← Char.ofNat_toNat c]
    interval_cases c.toNat <;> decide
  obtain ⟨hsp, hm, hp, hd⟩ := hplain
  have hdrop : (c :: s).dropWhile isSpace = c :: s := by simp [hsp]
  have hnone : digits 10 (c :: s) = 0 := by
    simp [digits, Nat.not_lt.mpr hd]
  simp [atoi, strtol, hdrop, hm, hp, radix, hnone]

theorem strtol_sap (long : Long) {t : XmlStr} (h : Form.sap.fits t = true) :
    uchar (strtol long t 0) = inBase 16 (t.drop 2) := by
  simp only [Form.fits, ne_eq, decide_eq_true_eq, List.all_eq_true] at h
  obtain ⟨hx, -, hall, hlt⟩ := h
  obtain ⟨c, s, rfl⟩ : ∃ c s, t = c :: s := by
    cases t with
    | nil => cases hx
    | cons c s => exact ⟨c, s, rfl⟩
  have hc : c = '0' := by cases s <;> simp_all
  have hradix : radix 0 (c :: s) = (16, (c :: s).drop 2) := by simp [radix, hx]
  have hdigits : digits 16 ((c :: s).drop 2) = inBase 16 ((c :: s).drop 2) :=
    digits_eq hall fun c hc => (digitVal_hex (hall c hc)).2
  have hle := long.le_max
  rw [strtol_eq long (by rw [hc]; decide), hradix]
  show uchar (min (digits 16 ((c :: s).drop 2)) long.max : Nat) = _
  rw [hdigits, Nat.min_eq_left (by omega), uchar]
  omega

theorem strtol_hex (long : Long) {t : XmlStr} (hne : t ≠ []) (hall : ∀ c ∈ t, isHex c = true) :
    strtol long t 16 = (min (inBase 16 t) long.max : Nat) := by
  obtain ⟨c, s, rfl⟩ := List.exists_cons_of_ne_nil hne
  have hradix : radix 16 (c :: s) = (16, c :: s) := by
    have hx : ∀ d, (c :: s).take 2 = ['0', d] → d ∈ c :: s := by
      intro d hd
      have hmem : d ∈ (c :: s).take 2 := by rw [hd]; simp
      exact List.mem_of_mem_take hmem
    rw [radix, if_pos (Or.inr rfl), if_neg, if_pos rfl]
    rintro (h | h)
    · exact (plain_of_isHex (hall 'x' (hx 'x' h))).2.2.2.1 rfl
    · exact (plain_of_isHex (hall 'X' (hx 'X' h))).2.2.2.2.1 rfl
  have hdigits : digits 16 (c :: s) = inBase 16 (c :: s) :=
    digits_eq hall fun c hc => (digitVal_hex (hall c hc)).2
  rw [strtol_eq long (hall c List.mem_cons_self), hradix, hdigits]

theorem inBase_hex_lt {t : XmlStr} (hall : ∀ c ∈ t, isHex c = true) :
    inBase 16 t < 16 ^ t.length := by
  have hlt := @Nat.ofDigits_lt_base_pow_length 16
    (t.reverse.map fun c => "0123456789abcdef".toList.idxOf c.toLower) (by omega) (by
      intro d hd
      obtain ⟨c, hc, rfl⟩ := List.mem_map.mp hd
      have hex := digitVal_hex (hall c (List.mem_reverse.mp hc))
      rw [← hex.1]
      exact hex.2)
  rwa [List.length_map, List.length_reverse] at hlt

theorem charToNodeid_eq (long : Long) {t : XmlStr} (h : Form.nodeId.fits t = true) :
    charToNodeid long t = some (min (inBase 16 t) long.max) := by
  simp only [Form.fits, ne_eq, decide_eq_true_eq, List.all_eq_true] at h
  obtain ⟨hne, hlen, hall⟩ := h
  have hlt := inBase_hex_lt hall
  have hpow : 16 ^ t.length ≤ 16 ^ 8 := Nat.pow_le_pow_right (by omega) hlen
  have hle := Nat.min_le_left (inBase 16 t) long.max
  rw [charToNodeid, strcpy, if_pos (by omega), Option.map_some, strtol_hex long hne hall, u32]
  congr 1
  omega

/-! ## Names and addresses -/

theorem netidName_eq (s : XmlStr) : netidName s = padded s := by
  rw [netidName, padded, List.rightpad, List.length_map]

theorem charToNetid_eq {t : XmlStr} (h : Form.netName.fits t = true) :
    charToNetid t = some ⟨padded (netPart t), padded (namePart t)⟩ := by
  simp only [Form.fits, ne_eq, decide_eq_true_eq] at h
  obtain ⟨hdot, -, hnet, hnetlen, -, hnamelen⟩ := h
  have hsplit : netPart t ++ t.dropWhile (· ≠ '.') = t := List.takeWhile_append_dropWhile
  have hname : (t.dropWhile (· ≠ '.')).drop 1 = namePart t := by rw [List.drop_one]; rfl
  have hlen : t.length < 40 := by
    have h1 := congrArg List.length hsplit
    have h2 := congrArg List.length hname
    rw [List.length_append] at h1
    rw [List.length_drop] at h2
    omega
  have htoken : t.dropWhile (· = '.') = t := by
    cases t with
    | nil => rfl
    | cons c s =>
      have hc : c ≠ '.' := by
        rintro rfl
        exact hnet rfl
      simp [hc]
  have hnet' : t.takeWhile (· ≠ '.') = netPart t := rfl
  simp only [charToNetid, strcpy, if_pos hlen, Option.bind_eq_bind, Option.bind_some, htoken,
    hnet', hname, networkNameLen, resourceNameLen]
  simp [hdot, hnet, Nat.lt_succ_of_le hnamelen, Nat.lt_succ_of_le hnetlen, netidName_eq]

theorem hexVal_eq {c : Char} (h : isHex c = true) : hexVal c = some (digitVal c) := by
  rw [hexVal, if_pos (digitVal_hex h).2]

theorem skipColon_eq {t : XmlStr} (hall : ∀ c ∈ t, isHex c = true) : skipColon t = t := by
  unfold skipColon
  split
  · exact absurd rfl (plain_of_isHex (hall ':' List.mem_cons_self)).2.2.2.2.2
  · rfl

theorem charToEther_eq (n : Nat) {t : XmlStr} (hlen : t.length = 2 * n)
    (hall : ∀ c ∈ t, isHex c = true) : charToEther n t = bytes t := by
  induction n generalizing t with
  | zero =>
    rw [List.length_eq_zero_iff.mp hlen]
    rfl
  | succ n ih =>
    obtain ⟨high, low, s, rfl⟩ : ∃ high low s, t = high :: low :: s := by
      match t, hlen with
      | high :: low :: s, _ => exact ⟨high, low, s, rfl⟩
    have hrest : ∀ c ∈ s, isHex c = true := fun c hc =>
      hall c (List.mem_cons_of_mem high (List.mem_cons_of_mem low hc))
    have hhigh := hall high List.mem_cons_self
    have hlow := hall low (List.mem_cons_of_mem high List.mem_cons_self)
    have hbyte : digitVal high * 16 + digitVal low = inBase 16 [high, low] := by
      rw [(digitVal_hex hhigh).1, (digitVal_hex hlow).1]
      simp [inBase, Nat.ofDigits_cons]
      omega
    simp only [List.length_cons] at hlen
    simp only [charToEther, hexVal_eq hhigh, hexVal_eq hlow, skipColon_eq hrest, bytes, hbyte,
      ih (by omega) hrest]

/-! ## Words -/

/-- The map for the words of a topic, as the elements about it are read -/
def Maps (wm : WordMap) (topic : Topic) : Prop :=
  ∀ (words : Words) (t : XmlStr), wm.words.lookup t = words.meaning topic t

theorem onTypes_maps : Maps onTypes .onOff := fun _ _ => rfl

theorem luTypes_maps : Maps luTypes .where' := fun _ _ => rfl

theorem txTypes_maps : Maps txTypes .priority := fun _ _ => rfl

theorem securityTypes_maps : Maps securityTypes .security := fun _ _ => rfl

theorem lookup_swap {α β : Type} [BEq α] [LawfulBEq α] (t a b : α) (x y : β)
    (h : a ≠ b) (l : List (α × β)) :
    ((a, x) :: (b, y) :: l).lookup t = ((b, y) :: (a, x) :: l).lookup t := by
  by_cases ha : t = a
  · subst ha
    simp [List.lookup, beq_false_of_ne h]
  · by_cases hb : t = b
    · subst hb
      simp [List.lookup, beq_false_of_ne ha]
    · have ha' : (t == a) = false := beq_false_of_ne ha
      have hb' : (t == b) = false := beq_false_of_ne hb
      simp [List.lookup, ha', hb']

theorem lookup_cons_congr {α β : Type} [BEq α] {t : α} {l l' : List (α × β)} (e : α × β)
    (h : l.lookup t = l'.lookup t) : (e :: l).lookup t = (e :: l').lookup t := by
  rw [List.lookup_cons, List.lookup_cons, h]

theorem lookup_reverse_three {α β : Type} [BEq α] [LawfulBEq α] (t : α) {a b c : α} (x y z : β)
    (hab : a ≠ b) (hac : a ≠ c) (hbc : b ≠ c) :
    [(a, x), (b, y), (c, z)].lookup t = [(c, z), (b, y), (a, x)].lookup t :=
  calc [(a, x), (b, y), (c, z)].lookup t
      = [(b, y), (a, x), (c, z)].lookup t := lookup_swap t a b x y hab _
    _ = [(b, y), (c, z), (a, x)].lookup t :=
        lookup_cons_congr _ (lookup_swap t a c x z hac [])
    _ = [(c, z), (b, y), (a, x)].lookup t := lookup_swap t b c y z hbc _

theorem nodeTypes_maps : Maps nodeTypes .nodeType := fun _ t =>
  lookup_reverse_three t appnNetNode appnEndNode lenEndNode (by decide) (by decide) (by decide)

theorem roleTypes_maps : Maps roleTypes .role := fun _ t =>
  lookup_reverse_three t lsRoleNeg lsRolePri lsRoleSec (by decide) (by decide) (by decide)

theorem directionTypes_maps : Maps directionTypes .direction := by
  intro _ t
  show List.lookup t [("in".toList, lsDirIn), ("out".toList, lsDirOut), ("both".toList, lsDirBoth)] =
    List.lookup t [("both".toList, lsDirBoth), ("in".toList, lsDirIn), ("out".toList, lsDirOut)]
  rw [lookup_cons_congr _ (lookup_swap t "out".toList "both".toList lsDirOut lsDirBoth (by decide) [])]
  exact lookup_swap t "in".toList "both".toList lsDirIn lsDirBoth (by decide) _

theorem mapWord_known {wm : WordMap} {topic : Topic} (h : Maps wm topic) {words : Words} {t : XmlStr}
    {n : Int} (hn : words.meaning topic t = some n) : mapWord wm t = some n := by
  rw [mapWord, h words, hn]

/-- A map without a last entry is left for a word that is not in it. -/
theorem mapWord_isSome_iff {wm : WordMap} {topic : Topic} (h : Maps wm topic) (words : Words)
    (t : XmlStr) : (mapWord wm t).isSome ↔ wm.ended ∨ (words.meaning topic t).isSome := by
  rw [mapWord, h words]
  cases words.meaning topic t <;> cases wm.ended <;> simp

end LinuxSna.Snaconfig
