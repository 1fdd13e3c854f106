import LinuxSna.Impl.Sna.Ps.Fmh5
import LinuxSna.Spec.Attach

/-!
# The Attach header in its buffer

The buffer is asked for with room for 60 bytes beyond the fixed part, but the TH is reserved out of
them: 54 are left, of which 22 are not names.

* `put_put`, `put_write`: what is put one after the other is put at once;
* `buildFmh5_eq`: the FMH-5 is put at once;
* `fmh5_fits_iff`.
-/

namespace LinuxSna.Ps

open Cs (Netid nameLen netidToChar)
open Ebcdic (atoe atoeStrncpy fatoeStrncpy)
open Framework (strncpy padded)
open Link (DlcCb)

variable {α : Type}

/-! ## What is put -/

theorem put_put (skb : SkBuff) (a b : List UInt8) (k : SkBuff → Option α) :
    ((skb.put a).bind fun skb => (skb.put b).bind k) = (skb.put (a ++ b)).bind k := by
  unfold SkBuff.put
  rw [List.length_append]
  split_ifs with ha hab hab
  · have hb : skb.head + (skb.data ++ a).length + b.length ≤ skb.size := by
      rw [List.length_append]
      omega
    rw [Option.bind_some, if_pos hb, List.append_assoc]
  · have hb : ¬ skb.head + (skb.data ++ a).length + b.length ≤ skb.size := by
      rw [List.length_append]
      omega
    rw [Option.bind_some, if_neg hb]
  · omega
  · rfl

/-- The first of the bytes that are put can be written later. -/
theorem put_write (skb : SkBuff) (x y : UInt8) (a : List UInt8) (k : SkBuff → Option α) :
    ((skb.put (x :: a)).bind fun s => k (s.write skb.data.length y)) = (skb.put (y :: a)).bind k := by
  unfold SkBuff.put
  rw [List.length_cons, List.length_cons]
  split_ifs
  · simp only [Option.bind_some, SkBuff.write, List.set_append_right _ _ le_rfl, Nat.sub_self,
      List.set_cons_zero]
  · rfl

theorem length_atoeStrncpy (n : Nat) (dest src : List UInt8) :
    (atoeStrncpy n dest src).length = dest.length := by
  fun_induction atoeStrncpy n dest src with
  | case1 n _ dest s src ih =>
    rw [List.length_cons, List.length_cons]
    split_ifs
    · rfl
    · rw [ih]
  | case2 => rfl

/-! ## The header -/

/-- The length of the network-qualified name of the partner -/
def luNameLen (n : Netid) : Nat := nameLen n.net + 1 + nameLen n.name

theorem nameLen_le (name : List UInt8) : nameLen name ≤ 8 :=
  (List.takeWhile_sublist _).length_le.trans (List.length_take_le 8 name)

theorem luNameLen_le (n : Netid) : luNameLen n ≤ 17 := by
  have hnet := nameLen_le n.net
  have hname := nameLen_le n.name
  unfold luNameLen
  omega

/-- What the FMH-5 is meant to be -/
def attachHeader (tp : AttachTp) (netidPlu : Netid) (attachSqn : UInt32) (stack : Stack) :
    AttachHeader where
  fixed := (fmh5Fixed tp.conversationType).tail
  tpName := (atoeStrncpy tp.tpNameLength.toNat stack.eTpName.toList tp.tpName.toList).take
    tp.tpNameLength.toNat
  security := []
  luName := ((netidToChar netidPlu stack.nameFlat.toList).take (luNameLen netidPlu)).map atoe
  luw := luwBytes tp.luwSec tp.luwUsec ++ be16 tp.luwSeq
  correlator := []
  sequence := [0, 0, 0, 0] ++ be32 attachSqn

variable {tp : AttachTp} {netidPlu : Netid} {attachSqn : UInt32} {stack : Stack} {skb : SkBuff}

theorem length_tpName (hn : tp.tpNameLength.toNat ≤ 64) :
    (attachHeader tp netidPlu attachSqn stack).tpName.length = tp.tpNameLength.toNat := by
  show (List.take _ _).length = _
  rw [List.length_take, length_atoeStrncpy, Vector.length_toList]
  omega

/-- `strncpy` to the offset that the bytes before end at -/
theorem length_strncpy_ge {c : List UInt8} {offset : Nat} (h : offset ≤ c.length) (n : Nat)
    (src : List UInt8) : offset + n ≤ (strncpy c offset n src).length := by
  rw [strncpy, List.length_append, List.length_append, List.length_take, Framework.length_padded]
  omega

theorem lt_length_netidToChar (n : Netid) (c : List UInt8) :
    luNameLen n < (netidToChar n c).length := by
  have hnet := length_strncpy_ge (Nat.zero_le c.length) (nameLen n.net) n.net
  rw [Nat.zero_add] at hnet
  have hdot := length_strncpy_ge hnet 1 [0x2E]
  have hname := length_strncpy_ge hdot (nameLen n.name) n.name
  exact length_strncpy_ge hname 1 []

theorem length_luName :
    (attachHeader tp netidPlu attachSqn stack).luName.length = luNameLen netidPlu := by
  show (List.map _ (List.take _ _)).length = _
  rw [List.length_map, List.length_take]
  exact Nat.min_eq_left (lt_length_netidToChar netidPlu _).le

theorem take_fatoeStrncpy {n : Nat} {l : List UInt8} (h : n ≤ l.length) :
    (fatoeStrncpy n l).take n = (l.take n).map atoe := by
  rw [fatoeStrncpy]
  apply List.take_left'
  rw [List.length_map, List.length_take, Nat.min_eq_left h]

theorem length_bytes (hn : tp.tpNameLength.toNat ≤ 64) :
    (attachHeader tp netidPlu attachSqn stack).bytes.length =
      tp.tpNameLength.toNat + luNameLen netidPlu + 31 := by
  have hbody := (attachHeader tp netidPlu attachSqn stack).length_body
  rw [length_tpName hn, length_luName] at hbody
  show (attachHeader tp netidPlu attachSqn stack).body.length + 1 = _
  rw [hbody]
  show 8 + tp.tpNameLength.toNat + 0 + luNameLen netidPlu + 8 + 0 + 8 + 6 + 1 = _
  omega

/-! ## The parts -/

/-- A field of which the length is written last -/
theorem put_field (skb : SkBuff) (l : List UInt8) (n : Nat) :
    ((skb.put (0 :: l)).bind fun s => some (n, s.write skb.data.length (.ofNat l.length))) =
      (skb.put (field l)).bind fun skb => some (n, skb) :=
  put_write skb 0 (.ofNat l.length) l fun skb => some (n, skb)

theorem fmh5AppendTpName_eq (netidPlu : Netid) (attachSqn : UInt32) (skb : SkBuff)
    (hn : tp.tpNameLength.toNat ≤ 64) :
    fmh5AppendTpName tp stack.eTpName skb =
      (skb.put (field (attachHeader tp netidPlu attachSqn stack).tpName)).bind
        fun skb => some (tp.tpNameLength.toNat + 1, skb) := by
  have hlen : UInt8.ofNat (attachHeader tp netidPlu attachSqn stack).tpName.length =
      tp.tpNameLength := by
    rw [length_tpName hn]
    exact UInt8.ofNat_toNat
  have hput := put_field skb (attachHeader tp netidPlu attachSqn stack).tpName
    (tp.tpNameLength.toNat + 1)
  rw [hlen] at hput
  rw [← hput]
  simp only [fmh5AppendTpName, Option.bind_eq_bind, Option.pure_def, put_put, List.cons_append,
    List.nil_append]
  rfl

theorem fmh5AppendLuw_eq (attachSqn : UInt32) (skb : SkBuff) :
    fmh5AppendLuw tp netidPlu stack.nameFlat skb =
      (skb.put (field (field (attachHeader tp netidPlu attachSqn stack).luName ++
        (attachHeader tp netidPlu attachSqn stack).luw))).bind
        fun skb => some (luNameLen netidPlu + 10, skb) := by
  have hlen : (UInt8.ofNat (nameLen netidPlu.net + 1 + nameLen netidPlu.name)).toNat =
      luNameLen netidPlu :=
    UInt8.toNat_ofNat_of_lt ((luNameLen_le netidPlu).trans_lt (by decide))
  have hname : List.take (luNameLen netidPlu) (fatoeStrncpy (luNameLen netidPlu)
      (netidToChar netidPlu stack.nameFlat.toList)) =
        (attachHeader tp netidPlu attachSqn stack).luName :=
    take_fatoeStrncpy (lt_length_netidToChar netidPlu _).le
  have hunit : (field (attachHeader tp netidPlu attachSqn stack).luName ++
      (attachHeader tp netidPlu attachSqn stack).luw).length = luNameLen netidPlu + 9 := by
    rw [List.length_append, length_field, length_luName]
    rfl
  have hput := put_field skb (field (attachHeader tp netidPlu attachSqn stack).luName ++
    (attachHeader tp netidPlu attachSqn stack).luw) (luNameLen netidPlu + 10)
  rw [hunit] at hput
  simp only [fmh5AppendLuw, Option.bind_eq_bind, Option.pure_def, put_put, List.cons_append,
    List.nil_append, hlen, hname]
  rw [← hput, field, length_luName,
    show 1 + 1 + luNameLen netidPlu + 6 + 2 = luNameLen netidPlu + 10 by omega]
  rfl

theorem fmh5AppendAttachSnf_eq (tp : AttachTp) (netidPlu : Netid) (stack : Stack)
    (attachSqn : UInt32) (skb : SkBuff) :
    fmh5AppendAttachSnf attachSqn skb =
      (skb.put (field (attachHeader tp netidPlu attachSqn stack).sequence)).bind
        fun skb => some (9, skb) := by
  simp only [fmh5AppendAttachSnf, Option.bind_eq_bind, Option.pure_def, put_put]
  exact put_field skb (attachHeader tp netidPlu attachSqn stack).sequence 9

/-! ## The whole -/

/-- The buffer before the FMH-5 -/
def fmh5Buffer (minLen : Int) : SkBuff := { size := minLen + 72, head := minLen + 9 }

theorem buildFmh5_eq (hn : tp.tpNameLength.toNat ≤ 64) (minLen : Int) :
    buildFmh5 minLen tp netidPlu attachSqn stack =
      (fmh5Buffer minLen).put (attachHeader tp netidPlu attachSqn stack).bytes := by
  have hbuffer : ((({ size := minLen + rhLen + fmh5Len + 60 } : SkBuff).reserve minLen).reserve
      fid2Len).reserve rhLen = fmh5Buffer minLen := by
    show SkBuff.mk _ _ _ = SkBuff.mk _ _ _
    congr 1
    · show minLen + 3 + 9 + 60 = minLen + 72
      omega
    · show 0 + minLen + 6 + 3 = minLen + 9
      omega
  have hlen : (attachHeader tp netidPlu attachSqn stack).bytes.length =
      tp.tpNameLength.toNat + luNameLen netidPlu + 31 := length_bytes hn
  rw [buildFmh5, hbuffer]
  simp only [fmh5AppendTpName_eq netidPlu attachSqn _ hn, fmh5AppendLuw_eq attachSqn,
    fmh5AppendAttachSnf_eq tp netidPlu stack attachSqn, fmh5AppendSecurity, fmh5AppendCnvCorrelator,
    Option.bind_eq_bind, Option.pure_def, Option.bind_assoc, Option.bind_some, put_put]
  set h := attachHeader tp netidPlu attachSqn stack
  have hbody : fmh5Fixed tp.conversationType ++ (field h.tpName ++ ([0] ++
      (field (field h.luName ++ h.luw) ++ ([0] ++ field h.sequence)))) = 0 :: h.body := by
    show _ = (0 :: h.fixed) ++ field h.tpName ++ [0] ++ field (field h.luName ++ h.luw) ++ [0] ++
      field h.sequence
    simp only [List.append_assoc]
    rfl
  have hwrite := put_write (fmh5Buffer minLen) 0 (.ofNat (h.body.length + 1)) h.body some
  rw [Option.bind_fun_some] at hwrite
  rw [hbody, show fmh5Len + (tp.tpNameLength.toNat + 1) + 1 + (luNameLen netidPlu + 10) + 1 + 9 =
    h.body.length + 1 by rw [show h.body.length + 1 = _ from hlen, fmh5Len]; omega]
  exact hwrite

/-- The buffer has room for 63 bytes. -/
theorem put_fmh5Buffer (minLen : Int) (bytes : List UInt8) :
    (fmh5Buffer minLen).put bytes =
      if bytes.length ≤ 63 then some { fmh5Buffer minLen with data := bytes } else none := by
  have hroom : minLen + 9 + ([] : List UInt8).length + bytes.length ≤ minLen + 72 ↔
      bytes.length ≤ 63 := by
    rw [List.length_nil]
    omega
  show (if minLen + 9 + ([] : List UInt8).length + bytes.length ≤ minLen + 72 then _ else none) = _
  simp only [hroom]
  rfl

/-- The FMH-5 is in the memory of its buffer. Whoever goes by its lengths gets the names, and no byte
is left. -/
structure Fit (tp : AttachTp) (netidPlu : Netid) (skb : SkBuff) : Prop where
  fits : skb.head + skb.data.length ≤ skb.size
  reads : ∃ h, AttachHeader.read skb.data = some h ∧ h.tpName.length = tp.tpNameLength.toNat ∧
    h.luName.length = luNameLen netidPlu

/-- The FMH-5 gets into its buffer if the two names together have at most 32 characters. -/
theorem fmh5_fits_iff (dlc : Option DlcCb) (port : Option PortType) (tp : AttachTp)
    (netidPlu : Netid) (attachSqn : UInt32) (stack : Stack)
    (hn : 1 ≤ tp.tpNameLength.toNat ∧ tp.tpNameLength.toNat ≤ 64) :
    (∃ skb, buildFmh5 (dlcDataMinLen dlc port) tp netidPlu attachSqn stack = some skb ∧
        Fit tp netidPlu skb) ↔ tp.tpNameLength.toNat + luNameLen netidPlu ≤ 32 := by
  have hlen : (attachHeader tp netidPlu attachSqn stack).bytes.length =
      tp.tpNameLength.toNat + luNameLen netidPlu + 31 := length_bytes hn.2
  rw [buildFmh5_eq hn.2, put_fmh5Buffer, hlen]
  constructor
  · rintro ⟨skb, hput, -⟩
    split_ifs at hput
    omega
  · intro h
    rw [if_pos (by omega)]
    refine ⟨_, rfl, ?_, ?_⟩
    · show dlcDataMinLen dlc port + 9 + (attachHeader tp netidPlu attachSqn stack).bytes.length ≤
        dlcDataMinLen dlc port + 72
      rw [hlen]
      omega
    · refine ⟨attachHeader tp netidPlu attachSqn stack, ?_, length_tpName hn.2, length_luName⟩
      exact AttachHeader.read_bytes rfl (by rw [hlen]; omega)

/-- A program of 16 characters and a partner of 17 -/
def longTp (n : UInt8) : AttachTp :=
  { tpName := Vector.replicate 65 0x41, tpNameLength := n, conversationType := .mapped,
    luwSec := 0, luwUsec := 0, luwSeq := 0 }

def longPartner : Netid := ⟨List.replicate 8 0x42 ++ [0], List.replicate 8 0x43 ++ [0]⟩

def clearStack : Stack := ⟨Vector.replicate 64 0, Vector.replicate 17 0⟩

theorem fmh5_of_33_characters_overflows :
    ¬ ∃ skb, buildFmh5 (dlcDataMinLen (some ⟨.ether, 1500, 14⟩) (some .llc)) (longTp 16) longPartner 1
      clearStack = some skb ∧ Fit (longTp 16) longPartner skb := by
  rintro ⟨skb, hbuild, -⟩
  have hnone : buildFmh5 (dlcDataMinLen (some ⟨.ether, 1500, 14⟩) (some .llc)) (longTp 16) longPartner
      1 clearStack = none := by decide
  rw [hnone] at hbuild
  cases hbuild

theorem fmh5_of_32_characters_fits :
    ∃ skb, buildFmh5 (dlcDataMinLen (some ⟨.ether, 1500, 14⟩) (some .llc)) (longTp 15) longPartner 1
      clearStack = some skb ∧ Fit (longTp 15) longPartner skb :=
  (fmh5_fits_iff (some ⟨.ether, 1500, 14⟩) (some .llc) (longTp 15) longPartner 1 clearStack
    (by decide)).mpr (by decide)

end LinuxSna.Ps
