import LinuxSna.Impl.Snaconfig.Xwords
import LinuxSna.Proof.Snaconfig.Texts

/-!
# Names and node ids as they are printed

What comes back of a name that is read and printed, and of a node id that is printed and read.

* `prNetid_eq`: by how many blanks its two parts have left, what the kernel and `snaconfig` print of a name;
* `charToNodeid_prNodeid`: of a node id, the block number alone is read back;
* `round_trip_iff`: which names and which node ids survive.
-/

namespace LinuxSna.Snaconfig

open NodeConfig

/-! ## Node ids -/

theorem hexDigit_spec {d : Nat} (h : d < 16) :
    isHex (hexDigit d) = true ∧ digitVal (hexDigit d) = d := by
  interval_cases d <;> decide

theorem hexDigits_spec (w n : Nat) :
    (∀ c ∈ hexDigits w n, isHex c = true) ∧
      ((hexDigits w n).map digitVal).foldl (fun m d => m * 16 + d) 0 = n % 16 ^ w := by
  induction w generalizing n with
  | zero => exact ⟨fun c hc => absurd hc List.not_mem_nil, (Nat.mod_one n).symm⟩
  | succ w ih =>
    obtain ⟨hhex, hfold⟩ := ih (n / 16)
    obtain ⟨hd, hval⟩ := hexDigit_spec (Nat.mod_lt n (by decide : 16 > 0))
    constructor
    · intro c hc
      rcases List.mem_append.mp hc with hc | hc
      · exact hhex c hc
      · rw [List.mem_singleton.mp hc]
        exact hd
    · rw [hexDigits, List.map_append, List.foldl_append, hfold]
      show n / 16 % 16 ^ w * 16 + digitVal (hexDigit (n % 16)) = n % 16 ^ (w + 1)
      rw [hval, Nat.pow_succ', Nat.mod_mul]
      omega

/-- A dot ends the digits. -/
theorem digits_hexDigits (w n : Nat) (s : XmlStr) :
    digits 16 (hexDigits w n ++ '.' :: s) = n % 16 ^ w := by
  obtain ⟨hhex, hfold⟩ := hexDigits_spec w n
  have hlt : ∀ d ∈ (hexDigits w n).map digitVal, decide (d < 16) = true := by
    intro d hd
    obtain ⟨c, hc, rfl⟩ := List.mem_map.mp hd
    exact decide_eq_true (digitVal_hex (hhex c hc)).2
  have hdot : (digitVal '.' :: s.map digitVal).takeWhile (· < 16) = [] := rfl
  rw [digits, List.map_append, List.takeWhile_append_of_pos hlt, List.map_cons, hdot,
    List.append_nil, hfold]

theorem toNat_xidGetBlockNum (nodeid : UInt32) :
    (xidGetBlockNum nodeid).toNat = nodeid.toNat / 2 ^ 20 := by
  have hlt : nodeid.toNat < 2 ^ 32 := nodeid.toNat_lt
  have hmask : (0xFFF : UInt32).toNat = 2 ^ 12 - 1 := rfl
  rw [xidGetBlockNum, UInt32.toNat_and, hmask, Nat.and_two_pow_sub_one_eq_mod, UInt32.toNat_shiftRight]
  show nodeid.toNat >>> 20 % 2 ^ 12 = _
  rw [Nat.shiftRight_eq_div_pow]
  omega

/-- Reading stops at the dot behind the block number. -/
theorem charToNodeid_prNodeid (long : Long) (nodeid : UInt32) :
    charToNodeid long (prNodeid nodeid) = some (nodeid.toNat / 2 ^ 20) := by
  have hlt : nodeid.toNat < 2 ^ 32 := nodeid.toNat_lt
  have hle := long.le_max
  have hb := toNat_xidGetBlockNum nodeid
  generalize hn : (xidGetBlockNum nodeid).toNat = n at hb
  generalize hs : hexDigits 5 (xidGetPuNum nodeid).toNat = s
  have hlen : s.length = 5 := by
    rw [← hs]
    rfl
  have hp : prNodeid nodeid = hexDigits 3 n ++ '.' :: s := by rw [prNodeid, hn, hs]
  have hthree : hexDigits 3 n =
      [hexDigit (n / 16 / 16 % 16), hexDigit (n / 16 % 16), hexDigit (n % 16)] := rfl
  have hsecond := plain_of_isHex (hexDigit_spec (Nat.mod_lt (n / 16) (by decide : 16 > 0))).1
  have hradix : radix 16 (hexDigits 3 n ++ '.' :: s) = (16, hexDigits 3 n ++ '.' :: s) := by
    rw [radix, if_pos (.inr rfl), if_neg, if_pos rfl]
    rw [hthree]
    rintro (h | h)
    · exact hsecond.2.2.2.1 (List.cons.inj (List.cons.inj h).2).1
    · exact hsecond.2.2.2.2.1 (List.cons.inj (List.cons.inj h).2).1
  have hstrtol : strtol long (hexDigits 3 n ++ '.' :: s) 16 = (n : Int) := by
    have hfirst := (hexDigit_spec (Nat.mod_lt (n / 16 / 16) (by decide : 16 > 0))).1
    have h := strtol_eq long hfirst
      ([hexDigit (n / 16 % 16), hexDigit (n % 16)] ++ '.' :: s) 16
    rw [← List.cons_append, ← hthree, hradix, digits_hexDigits] at h
    rw [h]
    congr 1
    omega
  have hshort : (hexDigits 3 n ++ '.' :: s).length < 40 := by
    simp only [hthree, List.length_append, List.length_cons, List.length_nil, hlen]
    decide
  rw [hp, charToNodeid, strcpy, if_pos hshort, Option.map_some, hstrtol, u32, hb]
  congr 1
  omega

/-! ## Names -/

/-- A character that a name in upper case may have -/
def IsUpper (c : Char) : Prop := c.toUpper = c ∧ c ≠ ' ' ∧ c ≠ '.' ∧ c ≠ nul

instance : DecidablePred IsUpper := fun _ => inferInstanceAs (Decidable (_ ∧ _))

/-- One to eight characters -/
def IsPart (s : XmlStr) : Prop := s ≠ [] ∧ s.length ≤ 8 ∧ ∀ c ∈ s, IsUpper c

namespace IsPart

variable {s : XmlStr}

theorem padded_eq (h : IsPart s) : padded s = s ++ List.replicate (8 - s.length) ' ' := by
  have hup : s.map Char.toUpper = s := by
    refine (List.map_congr_left fun c hc => ?_).trans s.map_id
    exact (h.2.2 c hc).1
  rw [padded, hup, List.rightpad]

theorem length_padded (h : IsPart s) : (padded s).length = 8 := by
  have hle := h.2.1
  rw [h.padded_eq, List.length_append, List.length_replicate]
  omega

theorem no_blank (h : IsPart s) : ' ' ∉ s := fun hc => (h.2.2 _ hc).2.1 rfl

theorem no_dot (h : IsPart s) : '.' ∉ s := fun hc => (h.2.2 _ hc).2.2.1 rfl

theorem no_nul (h : IsPart s) : nul ∉ s := fun hc => (h.2.2 _ hc).2.2.2 rfl

end IsPart

/-- A network-qualified name -/
structure QualifiedName where
  net : XmlStr
  name : XmlStr
  net_part : IsPart net
  name_part : IsPart name

namespace QualifiedName

variable (t u : QualifiedName)

def text : XmlStr := t.net ++ '.' :: t.name

/-- The netid that `sna_char_to_netid` makes of it -/
def netid : Netid := ⟨padded t.net, padded t.name⟩

end QualifiedName

/-! ### Reading up to a character -/

theorem takeWhile_ne {c : Char} {s : XmlStr} (h : c ∉ s) (l : XmlStr) :
    (s ++ l).takeWhile (· ≠ c) = s ++ l.takeWhile (· ≠ c) :=
  List.takeWhile_append_of_pos fun _ hd => decide_eq_true (ne_of_mem_of_not_mem hd h)

theorem takeWhile_ne_cons {c : Char} {s : XmlStr} (h : c ∉ s) (l : XmlStr) :
    (s ++ c :: l).takeWhile (· ≠ c) = s := by
  rw [takeWhile_ne h, List.takeWhile_cons_of_neg (by simp), List.append_nil]

theorem takeWhile_ne_self {c : Char} {s : XmlStr} (h : c ∉ s) : s.takeWhile (· ≠ c) = s := by
  have hs := takeWhile_ne h []
  rw [List.append_nil, List.takeWhile_nil, List.append_nil] at hs
  exact hs

theorem blankFrom_cons (a : XmlStr) {s : XmlStr} (h : ' ' ∉ s) (l : XmlStr) :
    blankFrom (a ++ (s ++ ' ' :: l)) a.length = some (a.length + s.length) := by
  have hs : s.findIdx? (· = ' ') = none :=
    List.findIdx?_eq_none_iff.mpr fun c hc => decide_eq_false (ne_of_mem_of_not_mem hc h)
  rw [blankFrom, List.drop_left, List.findIdx?_append, hs, List.findIdx?_cons,
    if_pos (decide_eq_true rfl)]
  simp only [Option.none_or, Option.map_some, Nat.zero_add]

theorem blankFrom_none (a : XmlStr) {s : XmlStr} (h : ' ' ∉ s) : blankFrom (a ++ s) a.length = none := by
  have hs : s.findIdx? (· = ' ') = none :=
    List.findIdx?_eq_none_iff.mpr fun c hc => decide_eq_false (ne_of_mem_of_not_mem hc h)
  rw [blankFrom, List.drop_left, hs]
  rfl

theorem set_cons (a s l : XmlStr) (b c : Char) :
    (a ++ (s ++ b :: l)).set (a.length + s.length) c = a ++ (s ++ c :: l) := by
  rw [List.set_append_right _ _ (Nat.le_add_right ..), Nat.add_sub_cancel_left,
    List.set_append_right _ _ (Nat.le_refl _), Nat.sub_self]
  rfl

theorem stringAt_cons (a : XmlStr) {s : XmlStr} (h : nul ∉ s) (l : XmlStr) :
    stringAt (a ++ (s ++ nul :: l)) a.length = s := by
  rw [stringAt, List.drop_left, takeWhile_ne_cons h]

namespace QualifiedName

variable (t u : QualifiedName)

/-! ### Reading -/

theorem netPart_text : netPart t.text = t.net := takeWhile_ne_cons t.net_part.no_dot t.name

theorem namePart_text : namePart t.text = t.name := by
  have hsplit : netPart t.text ++ t.text.dropWhile (· ≠ '.') = t.text :=
    List.takeWhile_append_dropWhile
  rw [netPart_text] at hsplit
  rw [namePart, List.append_cancel_left hsplit]
  rfl

theorem charToNetid_text : charToNetid t.text = some t.netid := by
  have hfits : Form.netName.fits t.text = true := by
    simp only [Form.fits, netPart_text, namePart_text, decide_eq_true_eq]
    exact ⟨List.mem_append_right _ List.mem_cons_self, t.name_part.no_dot, t.net_part.1,
      t.net_part.2.1, t.name_part.1, t.name_part.2.1⟩
  rw [charToNetid_eq hfits, netPart_text, namePart_text]
  rfl

theorem text_eq_iff :
    t.text = u.text ↔ t.netid.net.take 8 = u.netid.net.take 8 ∧
      t.netid.name.take 8 = u.netid.name.take 8 := by
  have htake : ∀ {s : XmlStr}, IsPart s → (padded s).take 8 = padded s := fun h =>
    List.take_of_length_le (Nat.le_of_eq h.length_padded)
  have hinj : ∀ {s s' : XmlStr}, IsPart s → IsPart s' → padded s = padded s' → s = s' := by
    intro s s' h h' heq
    have hs : ∀ {s : XmlStr}, IsPart s → (padded s).takeWhile (· ≠ ' ') = s := fun h => by
      rw [h.padded_eq, takeWhile_ne h.no_blank, List.takeWhile_replicate]
      exact List.append_nil _
    rw [← hs h, heq, hs h']
  simp only [netid, htake t.net_part, htake u.net_part, htake t.name_part, htake u.name_part]
  constructor
  · intro h
    rw [← netPart_text, ← namePart_text, h, netPart_text, namePart_text]
    exact ⟨rfl, rfl⟩
  · rintro ⟨hnet, hname⟩
    rw [text, text, hinj t.net_part u.net_part hnet, hinj t.name_part u.name_part hname]

/-! ### Printing -/

theorem chars_netid : t.netid.chars =
    (t.net ++ List.replicate (8 - t.net.length) ' ' ++ [nul]) ++
      (t.name ++ (List.replicate (8 - t.name.length) ' ' ++ [nul])) := by
  have hpad : ∀ {s : XmlStr}, IsPart s → (padded s).rightpad 9 nul = padded s ++ [nul] := by
    intro s h
    rw [List.rightpad, h.length_padded]
    rfl
  rw [Netid.chars, netid, hpad t.net_part, hpad t.name_part, t.net_part.padded_eq,
    t.name_part.padded_eq, List.append_assoc t.name]

theorem length_net_field :
    (t.net ++ List.replicate (8 - t.net.length) ' ' ++ [nul]).length = 9 := by
  have hle := t.net_part.2.1
  rw [List.length_append, List.length_append, List.length_replicate, List.length_singleton]
  omega

/-- A name ends at its first blank, or with the eight characters. -/
theorem netidLen_field {s : XmlStr} (h : IsPart s) :
    netidLen (s ++ (List.replicate (8 - s.length) ' ' ++ [nul])) = s.length := by
  have hlen := h.length_padded
  rw [h.padded_eq] at hlen
  rw [netidLen, ← List.append_assoc, List.take_left' hlen, takeWhile_ne h.no_blank,
    List.takeWhile_replicate]
  exact congrArg List.length (List.append_nil s)

theorem netidToChar_netid : netidToChar t.netid = (t.text.length, t.text) := by
  have hnul : nul ∉ t.text := by
    intro h
    rcases List.mem_append.mp h with h | h
    · exact t.net_part.no_nul h
    · rcases List.mem_cons.mp h with h | h
      · exact absurd h (by decide)
      · exact t.name_part.no_nul h
  have hlen : t.text.length = t.net.length + 1 + t.name.length := by
    rw [text, List.length_append, List.length_cons]
    omega
  simp only [netidToChar, chars_netid, List.take_left' t.length_net_field,
    List.drop_left' t.length_net_field]
  rw [List.append_assoc t.net, netidLen_field t.net_part, netidLen_field t.name_part,
    List.take_left, List.take_left, hlen]
  exact Prod.ext rfl (takeWhile_ne_self hnul)

/-- The text has room in the buffer. -/
theorem strcpy_text : strcpy 20 (t.net ++ '.' :: t.name) = some t.text := by
  have hnet := t.net_part.2.1
  have hname := t.name_part.2.1
  rw [strcpy, if_pos, text]
  rw [List.length_append, List.length_cons]
  omega

/-- What the two loops leave, where both find a blank. The first has looked from the start on, and may have
found its blank in either of the arrays. -/
theorem prNetid_eq {n : Netid} {s l b u r : XmlStr} (hchars : n.chars = s ++ ' ' :: l)
    (hs : ' ' ∉ s) (hsplit : s ++ nul :: l = b ++ (u ++ ' ' :: r)) (hb : b.length = 9)
    (hu : ' ' ∉ u) :
    prNetid true n = strcpy 20 (stringAt (b ++ (u ++ nul :: r)) 0 ++ '.' ::
      stringAt (b ++ (u ++ nul :: r)) 9) := by
  have hfirst := blankFrom_cons [] hs l
  have hset := set_cons [] s l ' ' nul
  have hsecond := blankFrom_cons b hu r
  have hset' := set_cons b u r ' ' nul
  rw [List.length_nil, Nat.zero_add, List.nil_append] at hfirst hset
  rw [hb] at hsecond hset'
  simp only [prNetid, hchars, hfirst, hset, List.nil_append, hsplit, hsecond, hset', Bool.not_true,
    Bool.false_eq_true, if_false, Option.bind_eq_bind, Option.bind_some]

theorem prNetid_none {n : Netid} {s l b u : XmlStr} (hchars : n.chars = s ++ ' ' :: l)
    (hs : ' ' ∉ s) (hsplit : s ++ nul :: l = b ++ u) (hb : b.length = 9) (hu : ' ' ∉ u) :
    prNetid true n = none := by
  have hfirst := blankFrom_cons [] hs l
  have hset := set_cons [] s l ' ' nul
  have hsecond := blankFrom_none b hu
  rw [List.length_nil, Nat.zero_add, List.nil_append] at hfirst hset
  rw [hb] at hsecond
  simp only [prNetid, hchars, hfirst, hset, List.nil_append, hsplit, hsecond, Bool.not_true,
    Bool.false_eq_true, if_false, Option.bind_eq_bind, Option.bind_some, Option.bind_none]

/-- The texts that they leave are those of the parts. -/
theorem strcpy_parts {b p q : XmlStr} (hb : b.length = 9) (hnet : b = t.net ++ nul :: q) (l : XmlStr)
    (hp : p = t.name ++ nul :: l) :
    strcpy 20 (stringAt (b ++ p) 0 ++ '.' :: stringAt (b ++ p) 9) = some t.text := by
  have hfirst := stringAt_cons [] t.net_part.no_nul (q ++ p)
  have hsecond := stringAt_cons b t.name_part.no_nul l
  rw [List.length_nil, List.nil_append, ← List.cons_append, ← List.append_assoc, ← hnet] at hfirst
  rw [hb, ← hp] at hsecond
  rw [hfirst, hsecond]
  exact t.strcpy_text

/-- Where both parts leave a blank, each loop ends in its own array. -/
theorem prNetid_short (hnet : t.net.length < 8) (hname : t.name.length < 8) :
    prNetid true t.netid = some t.text := by
  obtain ⟨k, hk⟩ : ∃ k, 8 - t.net.length = k + 1 := ⟨7 - t.net.length, by omega⟩
  obtain ⟨m, hm⟩ : ∃ m, 8 - t.name.length = m + 1 := ⟨7 - t.name.length, by omega⟩
  let b := t.net ++ nul :: (List.replicate k ' ' ++ [nul])
  let l := List.replicate m ' ' ++ [nul]
  have hb : b.length = 9 := by
    simp [b]
    omega
  have hchars : t.netid.chars =
      t.net ++ ' ' :: (List.replicate k ' ' ++ [nul] ++ (t.name ++ ' ' :: l)) := by
    simp [chars_netid, hk, hm, List.replicate_succ, l]
  rw [prNetid_eq hchars t.net_part.no_blank (b := b) (u := t.name) (r := l) (by simp [b]) hb
    t.name_part.no_blank]
  exact t.strcpy_parts hb rfl l rfl

/-- Without a blank in the name, the second loop leaves the structure, if the first has not. -/
theorem prNetid_long (hname : t.name.length = 8) : prNetid true t.netid = none := by
  have hnul : ' ' ∉ t.name ++ [nul] := by
    simp [t.name_part.no_blank, show ' ' ≠ nul by decide]
  by_cases hnet : t.net.length = 8
  · have hall : ' ' ∉ t.netid.chars := by
      simp [chars_netid, hnet, hname, t.net_part.no_blank, t.name_part.no_blank,
        show ' ' ≠ nul by decide]
    have hfirst := blankFrom_none [] hall
    rw [List.nil_append, List.length_nil] at hfirst
    simp only [prNetid, hfirst, Bool.not_true, Bool.false_eq_true, if_false, Option.bind_eq_bind,
      Option.bind_none]
  · have hle := t.net_part.2.1
    obtain ⟨k, hk⟩ : ∃ k, 8 - t.net.length = k + 1 := ⟨7 - t.net.length, by omega⟩
    let b := t.net ++ nul :: (List.replicate k ' ' ++ [nul])
    have hb : b.length = 9 := by
      simp [b]
      omega
    have hchars : t.netid.chars =
        t.net ++ ' ' :: (List.replicate k ' ' ++ [nul] ++ (t.name ++ [nul])) := by
      simp [chars_netid, hk, hname, List.replicate_succ]
    exact prNetid_none hchars t.net_part.no_blank (b := b) (by simp [b]) hb hnul

/-- A network of eight characters takes the first loop to the end of the name. -/
theorem prNetid_across (hnet : t.net.length = 8) (hname : t.name.length < 8) :
    prNetid true t.netid = if t.name.length = 7 then none else some t.text := by
  obtain ⟨m, hm⟩ : ∃ m, 8 - t.name.length = m + 1 := ⟨7 - t.name.length, by omega⟩
  let b := t.net ++ [nul]
  have hb : b.length = 9 := by simp [b, hnet]
  have hs : ' ' ∉ t.net ++ nul :: t.name := by
    simp [t.net_part.no_blank, t.name_part.no_blank, show ' ' ≠ nul by decide]
  have hnul : ' ' ∉ t.name ++ [nul] := by
    simp [t.name_part.no_blank, show ' ' ≠ nul by decide]
  have hchars : t.netid.chars =
      t.net ++ nul :: t.name ++ ' ' :: (List.replicate m ' ' ++ [nul]) := by
    simp [chars_netid, hnet, hm, List.replicate_succ]
  split
  · have hm0 : m = 0 := by omega
    subst hm0
    have hs' : ' ' ∉ t.name ++ [nul] ++ [nul] := by
      simp [t.name_part.no_blank, show ' ' ≠ nul by decide]
    exact prNetid_none hchars hs (b := b) (by simp [b]) hb hs'
  · obtain ⟨j, rfl⟩ : ∃ j, m = j + 1 := ⟨m - 1, by omega⟩
    let l := List.replicate j ' ' ++ [nul]
    rw [prNetid_eq hchars hs (b := b) (u := t.name ++ [nul]) (r := l)
      (by simp [b, l, List.replicate_succ]) hb hnul]
    exact t.strcpy_parts hb rfl (nul :: l) (by simp)

/-- What `sna_pr_netid` prints is the name exactly if there is memory and a blank for each of the loops. -/
theorem prNetid_netid_iff (alloc : Bool) : prNetid alloc t.netid = some t.text ↔
    alloc = true ∧ t.name.length < 8 ∧ ¬(t.net.length = 8 ∧ t.name.length = 7) := by
  have hnet := t.net_part.2.1
  have hname := t.name_part.2.1
  cases alloc with
  | false =>
    have hne : t.text ≠ [] := List.append_ne_nil_of_right_ne_nil _ (List.cons_ne_nil _ _)
    constructor
    · intro h
      exact absurd (Option.some.inj h).symm hne
    · rintro ⟨h, -⟩
      cases h
  | true =>
    by_cases hlong : t.name.length = 8
    · rw [t.prNetid_long hlong]
      constructor
      · intro h
        cases h
      · rintro ⟨-, hlt, -⟩
        omega
    · by_cases hfull : t.net.length = 8
      · rw [t.prNetid_across hfull (by omega)]
        split
        · rename_i hseven
          constructor
          · intro h
            cases h
          · rintro ⟨-, -, hne⟩
            exact absurd ⟨hfull, hseven⟩ hne
        · rename_i hseven
          exact iff_of_true rfl ⟨rfl, by omega, fun h => hseven h.2⟩
      · exact iff_of_true (t.prNetid_short (by omega) (by omega)) ⟨rfl, by omega, fun h => hfull h.1⟩

/-- What is read of a name is printed as the name, by both functions. `alloc` is whether there is memory for
the text of `sna_pr_netid`, which takes it only in the kernel. -/
def Survives (alloc : Bool) : Prop :=
  ∃ n, charToNetid t.text = some n ∧ netidToChar n = (t.text.length, t.text) ∧
    prNetid alloc n = some t.text

end QualifiedName

/-- A name is printed as it was read if `sna_pr_netid` has a blank to stop at in each of its loops; the texts
are equal as the netids are; and of the node ids, zero is read as it was printed. -/
theorem round_trip_iff (alloc : Bool) (t u : QualifiedName) (long : Long) (nodeid : UInt32) :
    (t.Survives alloc ↔
      alloc = true ∧ t.name.length < 8 ∧ ¬(t.net.length = 8 ∧ t.name.length = 7)) ∧
    (∃ n m, charToNetid t.text = some n ∧ charToNetid u.text = some m ∧
      (t.text = u.text ↔ n.net.take 8 = m.net.take 8 ∧ n.name.take 8 = m.name.take 8)) ∧
    (charToNodeid long (prNodeid nodeid) = some nodeid.toNat ↔ nodeid = 0) := by
  refine ⟨?_, ?_, ?_⟩
  · rw [← t.prNetid_netid_iff alloc]
    constructor
    · rintro ⟨n, hn, -, hprint⟩
      rw [t.charToNetid_text] at hn
      rw [Option.some.inj hn]
      exact hprint
    · exact fun h => ⟨t.netid, t.charToNetid_text, t.netidToChar_netid, h⟩
  · exact ⟨t.netid, u.netid, t.charToNetid_text, u.charToNetid_text, t.text_eq_iff u⟩
  · have hzero : nodeid = 0 ↔ nodeid.toNat = 0 := UInt32.toNat_inj.symm
    rw [charToNodeid_prNodeid, Option.some_inj, hzero]
    omega

def appnNodename : QualifiedName where
  net := ['A', 'P', 'P', 'N']
  name := ['N', 'O', 'D', 'E', 'N', 'A', 'M', 'E']
  net_part := ⟨by decide, by decide, List.forall_iff_forall_mem.mp (by decide)⟩
  name_part := ⟨by decide, by decide, List.forall_iff_forall_mem.mp (by decide)⟩

/-- A name of eight characters, and a node id with a block number -/
theorem nodename_and_5d : ¬appnNodename.Survives true ∧
    ∀ long, charToNodeid long (prNodeid 0x05D00001) ≠ some 0x05D00001 := by
  constructor
  · rintro ⟨n, hn, -, hprint⟩
    rw [appnNodename.charToNetid_text] at hn
    rw [← Option.some.inj hn, appnNodename.prNetid_long rfl] at hprint
    cases hprint
  · intro long
    rw [charToNodeid_prNodeid]
    decide

end LinuxSna.Snaconfig
