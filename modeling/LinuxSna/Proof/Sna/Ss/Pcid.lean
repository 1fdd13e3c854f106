import LinuxSna.Framework.Run
import LinuxSna.Impl.Sna.Ss.Pcid
import LinuxSna.Proof.Sna.Ss.Division

/-!
# When identifiers are different

The counter is added to the hash of a name and the clock to the other, so names whose hashes are apart
by what the counter and the clock have gone on get the same identifier.

* `updatePcid_inj`: an identifier tells both hashes;
* `assigned_eq`: what a sequence of calls assigns;
* `pcids_nodup_iff`: when all of it is different;
* `nodup_of_same_hash`: names with one first hash get different identifiers.
-/

namespace LinuxSna.Ss

open Cs (htonl)
open Framework (run run_cons)

variable {post : UInt8 → Option UInt8}

/-! ## Numbers in memory -/

/-- The bits of a number in network byte order -/
theorem getElem_htonl (x : UInt32) {i : ℕ} (h : i < 32) :
    (htonl x).toBitVec[i] = x.toBitVec[8 * (3 - i / 8) + i % 8] := by
  interval_cases i <;> simp [htonl]

theorem htonl_htonl (x : UInt32) : htonl (htonl x) = x := by
  apply UInt32.toBitVec_inj.mp
  ext i hi
  rw [getElem_htonl _ hi, getElem_htonl _ (by omega)]
  congr 1
  omega

theorem htonl_inj {x y : UInt32} : htonl x = htonl y ↔ x = y :=
  (Function.LeftInverse.injective htonl_htonl).eq_iff

theorem image_inj {x y : UInt32} (h : image x = image y) : x = y := by
  have hx := x.toNat_lt
  have hy := y.toNat_lt
  simp only [image, List.cons.injEq, and_true, ← UInt8.toNat_inj, UInt32.toNat_toUInt8,
    UInt32.toNat_shiftRight, Nat.shiftRight_eq_div_pow] at h
  apply UInt32.toNat_inj.mp
  simp at h
  omega

theorem length_image (x : UInt32) : (image x).length = 4 := rfl

/-- An identifier tells both hashes. -/
theorem updatePcid_inj {a b a' b' : UInt32} :
    updatePcid a b = updatePcid a' b' ↔ a = a' ∧ b = b' := by
  constructor
  · intro h
    rw [updatePcid, updatePcid] at h
    obtain ⟨h₁, h₂⟩ := List.append_inj h (by rw [length_image, length_image])
    have ha := htonl_inj.mp (image_inj h₁)
    have hb := htonl_inj.mp (image_inj h₂)
    exact ⟨ha, (UInt32.add_left_inj 1).mp hb⟩
  · rintro ⟨rfl, rfl⟩
    rfl

/-! ## What is assigned -/

/-- The hashes of the name of a call that succeeds -/
def hashes (post : UInt8 → Option UInt8) (c : Call) : UInt32 × UInt32 :=
  (nameHashes post c).getD (0, 0)

/-- What a call gets that finds the counter at `id` -/
def pcid (post : UInt8 → Option UInt8) (id : UInt32) (c : Call) : List UInt8 :=
  updatePcid ((hashes post c).1 + htonl id) ((hashes post c).2 + c.tvSec)

theorem assignPcid_eq {s s' : Pcids} {c : Call} (h : assignPcid post s c = some s') :
    s' = ⟨s.systemId + 1, s.assigned ++ [pcid post s.systemId c]⟩ := by
  simp only [assignPcid, generatePcid, Option.map_map, Option.map_eq_some_iff,
    Function.comp_apply] at h
  obtain ⟨k, hk, rfl⟩ := h
  simp only [pcid, hashes, hk, Option.getD_some]

theorem assigned_eq {s s' : Pcids} {cs : List Call} (h : run (assignPcid post) s cs = some s') :
    s'.assigned = s.assigned ++ cs.mapIdx fun i c => pcid post (s.systemId + .ofNat i) c := by
  induction cs generalizing s with
  | nil =>
    obtain rfl := Option.some.inj h
    simp
  | cons c cs ih =>
    obtain ⟨t, ht, hr⟩ := run_cons.mp h
    obtain rfl := assignPcid_eq ht
    rw [ih hr, List.mapIdx_cons, List.append_assoc, List.singleton_append]
    have hid (i : ℕ) : s.systemId + UInt32.ofNat (i + 1) = s.systemId + 1 + .ofNat i := by
      rw [UInt32.ofNat_add, UInt32.add_comm (.ofNat i), UInt32.add_assoc]
      rfl
    have h0 : s.systemId + UInt32.ofNat 0 = s.systemId := UInt32.add_zero _
    simp only [hid, h0]

/-- The hashes of two names are apart by what the counter and the clock have gone on between the
calls, which are the `i`-th and the `j`-th. -/
def Clash (post : UInt8 → Option UInt8) (i : ℕ) (c : Call) (j : ℕ) (d : Call) : Prop :=
  (hashes post c).1 - (hashes post d).1 = htonl (1 + .ofNat j) - htonl (1 + .ofNat i) ∧
    (hashes post c).2 - (hashes post d).2 = d.tvSec - c.tvSec

theorem add_eq_add_iff_sub_eq_sub (a b c d : UInt32) : a + b = c + d ↔ a - c = d - b := by
  constructor <;> intro h <;> grind

theorem pcid_eq_iff {i j : ℕ} {c d : Call} :
    pcid post (1 + .ofNat i) c = pcid post (1 + .ofNat j) d ↔ Clash post i c j d := by
  rw [pcid, pcid, updatePcid_inj, add_eq_add_iff_sub_eq_sub, add_eq_add_iff_sub_eq_sub, Clash]

instance (i : ℕ) (c : Call) (j : ℕ) (d : Call) : Decidable (Clash post i c j d) :=
  inferInstanceAs (Decidable (_ ∧ _))

/-- The identifiers assigned are different exactly if no two calls clash. -/
theorem pcids_nodup_iff {cs : List Call} {s : Pcids}
    (h : run (assignPcid post) {} cs = some s) :
    s.assigned.Nodup ↔ ∀ j (hj : j < cs.length) i (hi : i < j), ¬ Clash post i cs[i] j cs[j] := by
  rw [assigned_eq h, List.nil_append, List.nodup_iff_pairwise_ne, List.pairwise_iff_getElem]
  simp only [List.length_mapIdx, List.getElem_mapIdx, ne_eq, pcid_eq_iff]
  constructor
  · intro hall j hj i hi
    apply hall i j (by omega) hj hi
  · intro hall i j _ hj hi
    exact hall j hj i hi

/-- A call of a process for `11111111` in the network `net` -/
def callFor (net : Name) (tvSec : UInt32) : Call where
  net := net
  name := ⟨List.replicate 8 0x31, by decide, by decide⟩
  pnet := .replicate 8 0
  pname := .replicate 8 0
  tvSec := tvSec
  fuel := 64

/-- `@@@@@A@@` -/
def netA : Name := ⟨[0x40, 0x40, 0x40, 0x40, 0x40, 0x41, 0x40, 0x40], by decide, by decide⟩

/-- `@@@@@J@@` -/
def netJ : Name := ⟨[0x40, 0x40, 0x40, 0x40, 0x40, 0x4A, 0x40, 0x40], by decide, by decide⟩

theorem pcids_of_one_time :
    ∃ s, run (assignPcid undefinedPost) {} [callFor netA 7, callFor netA 7, callFor netJ 7] = some s ∧
      s.assigned.Nodup := by
  obtain ⟨s, h⟩ := Option.isSome_iff_exists.mp (show (run (assignPcid undefinedPost) {}
    [callFor netA 7, callFor netA 7, callFor netJ 7]).isSome by decide +kernel)
  exact ⟨s, h, (pcids_nodup_iff h).mpr (by decide +kernel)⟩

/-- 2²² seconds lie between the calls for two networks. -/
theorem pcid_of_two_names :
    ∃ s, run (assignPcid undefinedPost) {} [callFor netA 0, callFor netJ 0x400000] = some s ∧
      ¬ s.assigned.Nodup :=
  ⟨⟨3, [[0xC4, 0xDB, 0, 0, 0, 0xF6, 0, 1], [0xC4, 0xDB, 0, 0, 0, 0xF6, 0, 1]]⟩,
    by decide +kernel, by decide⟩

/-- Names with one first hash, as one name has, do not clash in fewer than 2³² calls. -/
theorem nodup_of_same_hash {cs : List Call} {s : Pcids}
    (h : run (assignPcid post) {} cs = some s) (hlen : cs.length < 2 ^ 32)
    (hsame : ∀ c ∈ cs, ∀ d ∈ cs, (hashes post c).1 = (hashes post d).1) : s.assigned.Nodup := by
  rw [assigned_eq h, List.nil_append, List.nodup_iff_pairwise_ne, List.pairwise_iff_getElem]
  simp only [List.length_mapIdx, List.getElem_mapIdx]
  intro i j hi hj hij he
  have hc := (updatePcid_inj.mp he).1
  rw [hsame _ (List.getElem_mem hi) _ (List.getElem_mem hj)] at hc
  have hid := htonl_inj.mp ((UInt32.add_right_inj _).mp hc)
  have := congrArg UInt32.toNat ((UInt32.add_right_inj _).mp hid)
  rw [UInt32.toNat_ofNat_of_lt' (hi.trans hlen), UInt32.toNat_ofNat_of_lt' (hj.trans hlen)] at this
  omega

end LinuxSna.Ss
