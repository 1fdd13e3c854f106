import LinuxSna.Proof.Sna.Tc.Flow

/-!
# Sequence numbers

The sender numbers every MU, the receiver expects the next number after those
it has counted, and it does not count every MU. Both count in 16 bits, and the
receiver adds 1 after that.

* `rx_counts`: what a whole BIU does to the count of the receiver;
* `sequence_numbers`: the runs in which no request is refused for its number.
-/

namespace LinuxSna.Tc

open Hs Framework

variable {hs : Hs} {m : Mu}

/-- An MU that arrives as a whole BIU, with what happens meanwhile. -/
structure Transfer where
  mu : Mu
  env : RxEnv
  whole : mu.mpf = .wholeBiu

/-- A half-session that sends and its partner. -/
structure Session where
  sender : Hs
  receiver : Hs

/-- The sender stamps an MU, and the partner receives it. -/
def Session.step (s : Session) (t : Transfer) : Option Session :=
  let stamped := s.sender.stamp t.mu
  (s.receiver.rx stamped.2 t.env).map fun r => ⟨stamped.1, r.hs⟩

/-- A request whose number `sna_tc_rx_biu_chk` gets to test. -/
def tested (hs : Hs) (m : Mu) : Bool :=
  m.rri = .req && m.efi = .norm && m.data.length ≤ hs.maxRxRuSize.toNat && biuFormatChk m = 0

/-- The number of the MU makes the partner refuse it. -/
def Refused (s : Session) (t : Transfer) : Prop :=
  tested s.receiver t.mu = true ∧ s.receiver.sqnRefused (s.sender.stamp t.mu).2 = true

instance (s : Session) (t : Transfer) : Decidable (Refused s t) :=
  inferInstanceAs (Decidable (_ ∧ _))

/-- A request that has to be in cipher and is not. -/
def unciphered (hs : Hs) (m : Mu) : Bool :=
  m.rri = .req && hs.crypto && m.ru = .fmd && (!m.edi || m.data.length % 8 ≠ 0)

/-- The partner counts the MU, if it does not refuse it for its number: it is
of the normal flow, well formed, not too long, no pacing response, and not in
cipher. -/
def counted (hs : Hs) (m : Mu) : Bool :=
  m.efi = .norm && m.data.length ≤ hs.maxRxRuSize.toNat && biuFormatChk m = 0 &&
    !unciphered hs m && !m.isPacingRsp && !isEncrypted m

/-- How many of the MUs are not counted. -/
def uncounted (hs : Hs) (ts : List Transfer) : Nat := ts.countP fun t => !counted hs t.mu

/-! ## One MU -/

theorem atDone_counter {hs' : Hs} {copied : Bool} (h : atDone hs m copied = some hs') :
    hs'.sqnRcvCnt = hs.sqnRcvCnt ∧ hs'.maxRxRuSize = hs.maxRxRuSize ∧ hs'.crypto = hs.crypto := by
  obtain ⟨rpc, nws, rx, outstanding, rfl⟩ := atDone_eq h
  exact ⟨rfl, rfl, rfl⟩

/-- A pacing response counts for nothing. -/
theorem rxPacingRsp_counter (hs : Hs) (he : m.efi = .norm) (copied : Bool) (ack pc : Option Int) :
    (hs.rxPacingRsp m copied ack pc).hs.sqnRcvCnt = hs.sqnRcvCnt ∧
      (hs.rxPacingRsp m copied ack pc).hs.maxRxRuSize = hs.maxRxRuSize ∧
      (hs.rxPacingRsp m copied ack pc).hs.crypto = hs.crypto := by
  obtain ⟨-, h, -⟩ | ⟨hs', err, hd, h, -⟩ := rxPacingRsp_cases hs he copied ack pc
  · rw [h]; exact ⟨rfl, rfl, rfl⟩
  · have hc := atDone_counter hd
    rw [h]
    obtain ⟨h, -⟩ | ⟨r, rest, -, -, h⟩ := sendNext_cases hs' err pc <;> rw [h] <;> exact hc

/-- The receiver checks as before. -/
structure SameChecks (hs hs' : Hs) : Prop where
  max : hs'.maxRxRuSize = hs.maxRxRuSize
  crypto : hs'.crypto = hs.crypto

theorem SameChecks.counted {hs' : Hs} (h : SameChecks hs hs') : counted hs' m = counted hs m := by
  simp only [Tc.counted, unciphered, h.max, h.crypto]

theorem SameChecks.tested {hs' : Hs} (h : SameChecks hs hs') : tested hs' m = tested hs m := by
  simp only [Tc.tested, h.max]

theorem biuFormatChk_cases (m : Mu) : biuFormatChk m = -einval ∨ biuFormatChk m = 0 := by
  unfold biuFormatChk
  split_ifs <;> simp

/-- The checks of a BIU. -/
theorem rxBiuChk_neg (he : m.efi = .norm) :
    hs.rxBiuChk m < 0 ↔ biuFormatChk m ≠ 0 ∨
      m.rri = .req ∧ hs.sqnRefused m = true ∨ unciphered hs m = true := by
  rw [rxBiuChk]
  rcases biuFormatChk_cases m with hf | hf
  · rw [hf, if_pos (by decide)]
    exact iff_of_true (by decide) (.inl (by decide))
  · simp only [hf, he, and_true, ne_eq, not_true_eq_false, false_or, Int.lt_irrefl, if_false]
    cases hr : m.rri with
    | rsp => simp [unciphered, hr]
    | req =>
      cases hq : hs.sqnRefused m with
      | true => simp [einval]
      | false =>
        simp only [unciphered, hr, if_true, Bool.false_eq_true, if_false, and_false, false_or]
        by_cases hc : hs.crypto = true ∧ m.ru = .fmd
        · cases hd : m.edi <;> by_cases hl : m.data.length % 8 = 0 <;> simp [hc, hl, einval]
        · rw [if_neg hc]
          refine iff_of_false (by decide) fun h => hc ?_
          simp only [Bool.and_eq_true, decide_eq_true_eq] at h
          exact ⟨h.1.1.2, h.1.2⟩

theorem counted_eq_true : counted hs m = true ↔
    m.efi = .norm ∧ m.data.length ≤ hs.maxRxRuSize.toNat ∧ biuFormatChk m = 0 ∧
      unciphered hs m = false ∧ m.isPacingRsp = false ∧ isEncrypted m = false := by
  simp only [counted, Bool.and_eq_true, decide_eq_true_eq, Bool.not_eq_true', and_assoc]

/-- A BIU that is not too long, on the normal flow. -/
theorem rxBiu_counts (hs : Hs) (he : m.efi = .norm)
    (hlen : m.data.length ≤ hs.maxRxRuSize.toNat) (e : RxEnv) :
    SameChecks hs (hs.rxBiu m e).hs ∧
      (hs.rxBiu m e).hs.sqnRcvCnt =
        if counted hs m = true ∧ ¬ (tested hs m = true ∧ hs.sqnRefused m = true) then
          hs.sqnRcvCnt + 1
        else hs.sqnRcvCnt := by
  have hsame : SameChecks hs hs := ⟨rfl, rfl⟩
  rw [rxBiu]
  split
  · -- the checks refuse it
    rename_i hn
    refine ⟨hsame, (if_neg fun hc => ?_).symm⟩
    obtain ⟨hc, ht⟩ := hc
    obtain ⟨-, -, hf, hu, -, -⟩ := counted_eq_true.mp hc
    rcases (rxBiuChk_neg he).mp hn with hf' | ⟨hr, hq⟩ | hu'
    · exact hf' hf
    · exact ht ⟨by simp [tested, hr, he, hlen, hf], hq⟩
    · rw [hu] at hu'; cases hu'
  · rename_i hn
    split
    · rename_i hp
      obtain ⟨hc, hm, hcr⟩ := rxPacingRsp_counter hs he e.copied e.ack e.pc
      refine ⟨⟨hm, hcr⟩, hc.trans (if_neg fun h => ?_).symm⟩
      rw [(counted_eq_true.mp h.1).2.2.2.2.1] at hp
      cases hp
    · rename_i hp
      split
      · rename_i hd
        refine ⟨hsame, (if_neg fun h => ?_).symm⟩
        rw [(counted_eq_true.mp h.1).2.2.2.2.2] at hd
        cases hd
      · rename_i hd
        rw [rxBiuChk_neg he, not_or, not_not] at hn
        refine ⟨⟨rfl, rfl⟩, (if_pos ⟨?_, ?_⟩).symm⟩
        · have hu : unciphered hs m = false := by simpa using fun h => hn.2 (.inr h)
          exact counted_eq_true.mpr ⟨he, hlen, hn.1, hu, by simpa using hp, by simpa using hd⟩
        · rintro ⟨ht, hq⟩
          simp only [tested, Bool.and_eq_true, decide_eq_true_eq] at ht
          exact hn.2 (.inl ⟨ht.1.1.1, hq⟩)

theorem rx_counts (hs : Hs) (hw : m.mpf = .wholeBiu) (e : RxEnv) :
    ∃ r, hs.rx m e = some r ∧ SameChecks hs r.hs ∧
      r.hs.sqnRcvCnt =
        if counted hs m = true ∧ ¬ (tested hs m = true ∧ hs.sqnRefused m = true) then
          hs.sqnRcvCnt + 1
        else hs.sqnRcvCnt := by
  have hsame : SameChecks hs hs := ⟨rfl, rfl⟩
  have hchk : hs.rxSegmentChk m = 0 := by simp [rxSegmentChk, hw]
  by_cases he : m.efi = .norm
  · by_cases hlen : m.data.length ≤ hs.maxRxRuSize.toNat
    · have hrx : hs.rx m e = some (hs.rxBiu m e) := by
        simp [rx, hchk, he, hw, Hs.segment, Nat.not_lt.mpr hlen]
      exact ⟨_, hrx, rxBiu_counts hs he hlen e⟩
    · have hrx : hs.rx m e = some ⟨0, hs, [], none⟩ := by
        simp [rx, hchk, he, hw, Hs.segment, Nat.not_le.mp hlen]
      exact ⟨_, hrx, hsame, (if_neg fun h => hlen (counted_eq_true.mp h.1).2.1).symm⟩
  · have hrx : hs.rx m e = some ⟨e.dfc, hs, [], some m⟩ := by simp [rx, hchk, he]
    exact ⟨_, hrx, hsame, (if_neg fun h => he (counted_eq_true.mp h.1).1).symm⟩

/-! ## Runs -/

/-- After `n` MUs, of which the receiver, which began as `hs`, has not counted
`u`. -/
structure Numbered (hs : Hs) (s : Session) (n u : Nat) : Prop where
  sent : s.sender.sqnTxCnt = UInt16.ofNat n
  received : s.receiver.sqnRcvCnt = UInt16.ofNat (n - u)
  le : u ≤ n
  checks : SameChecks hs s.receiver

/-- The two counts go together while no MU is left out, but for the MU whose
number wraps round to 0. -/
theorem not_refused_iff {s : Session} {n u : Nat} (h : Numbered hs s n u) (t : Transfer) :
    ¬ Refused s t ↔ (tested hs t.mu = true → u % 65536 = 0 ∧ (n + 1) % 65536 ≠ 0) := by
  have hsnf : (s.sender.stamp t.mu).2.snf.toNat = (n + 1) % 65536 := by
    show (s.sender.sqnTxCnt + 1).toNat = _
    rw [h.sent, show (1 : UInt16) = UInt16.ofNat 1 from rfl, ← UInt16.ofNat_add,
      UInt16.toNat_ofNat']
  have hrcv : s.receiver.sqnRcvCnt.toNat = (n - u) % 65536 := by
    rw [h.received, UInt16.toNat_ofNat']
  rw [Refused, h.checks.tested, not_and]
  apply forall_congr'
  intro ht
  simp only [tested, Bool.and_eq_true, decide_eq_true_eq] at ht
  have hq : s.receiver.sqnRefused (s.sender.stamp t.mu).2 = true ↔
      (n + 1) % 65536 ≠ (n - u) % 65536 + 1 := by
    rw [← hsnf, ← hrcv]
    simp [sqnRefused, stamp, ht.1.1.1, ht.1.1.2]
  have := h.le
  rw [hq]
  omega

theorem numbered_step {s s' : Session} {n u : Nat} {t : Transfer} (h : Numbered hs s n u)
    (hr : ¬ Refused s t) (hs' : Session.step s t = some s') :
    Numbered hs s' (n + 1) (u + if counted hs t.mu = true then 0 else 1) := by
  obtain ⟨r, hrx, hsame, hcnt⟩ :=
    rx_counts s.receiver (m := (s.sender.stamp t.mu).2) t.whole t.env
  obtain rfl : ⟨(s.sender.stamp t.mu).1, r.hs⟩ = s' := by
    simpa only [Session.step, hrx, Option.map_some, Option.some.injEq] using hs'
  have hc : counted s.receiver (s.sender.stamp t.mu).2 = counted hs t.mu :=
    (h.checks.counted (m := (s.sender.stamp t.mu).2)).trans rfl
  have hcnt : r.hs.sqnRcvCnt =
      if counted hs t.mu = true then s.receiver.sqnRcvCnt + 1 else s.receiver.sqnRcvCnt := by
    rw [hcnt, hc]
    simp only [show ¬ (tested s.receiver (s.sender.stamp t.mu).2 = true ∧
      s.receiver.sqnRefused (s.sender.stamp t.mu).2 = true) from hr, not_false_eq_true, and_true]
  have hle := h.le
  refine ⟨?_, ?_, by split <;> omega, ⟨hsame.max.trans h.checks.max, hsame.crypto.trans h.checks.crypto⟩⟩
  · show s.sender.sqnTxCnt + 1 = _
    rw [h.sent, UInt16.ofNat_add]; rfl
  · show r.hs.sqnRcvCnt = _
    rw [hcnt, h.received]
    split
    · rw [show n + 1 - (u + 0) = n - u + 1 by omega, UInt16.ofNat_add]; rfl
    · rw [show n + 1 - (u + 1) = n - u by omega]

/-- A whole BIU never stops the kernel. -/
theorem step_total (s : Session) (t : Transfer) : ∃ s', Session.step s t = some s' := by
  obtain ⟨r, hrx, -⟩ := rx_counts s.receiver (m := (s.sender.stamp t.mu).2) t.whole t.env
  exact ⟨_, by rw [Session.step, hrx]; rfl⟩

theorem uncounted_cons (t : Transfer) (ts : List Transfer) :
    uncounted hs (t :: ts) = (if counted hs t.mu = true then 0 else 1) + uncounted hs ts := by
  rw [uncounted, List.countP_cons, Nat.add_comm]
  cases counted hs t.mu <;> rfl

theorem along_not_refused {s : Session} {n u : Nat} (h : Numbered hs s n u) (ts : List Transfer) :
    Along Session.step (fun s t => ¬ Refused s t) s ts ↔
      ∀ i t, ts[i]? = some t → tested hs t.mu = true →
        (u + uncounted hs (ts.take i)) % 65536 = 0 ∧ (n + i + 1) % 65536 ≠ 0 := by
  induction ts generalizing s n u with
  | nil => exact iff_of_true trivial (by simp)
  | cons t ts ih =>
    have htail : (∀ i t', (t :: ts)[i + 1]? = some t' → tested hs t'.mu = true →
        (u + uncounted hs ((t :: ts).take (i + 1))) % 65536 = 0 ∧ (n + (i + 1) + 1) % 65536 ≠ 0) ↔
        ∀ i t', ts[i]? = some t' → tested hs t'.mu = true →
          ((u + if counted hs t.mu = true then 0 else 1) + uncounted hs (ts.take i)) % 65536 = 0 ∧
            ((n + 1) + i + 1) % 65536 ≠ 0 := by
      refine forall_congr' fun i => forall_congr' fun t' => ?_
      rw [List.getElem?_cons_succ, List.take_succ_cons, uncounted_cons, ← Nat.add_assoc,
        show n + (i + 1) + 1 = n + 1 + i + 1 by omega]
    have hhead : ¬ Refused s t ↔ (tested hs t.mu = true →
        (u + uncounted hs ((t :: ts).take 0)) % 65536 = 0 ∧ (n + 0 + 1) % 65536 ≠ 0) :=
      not_refused_iff h t
    constructor
    · rintro ⟨hr, hrest⟩ i t' hi ht
      cases i with
      | zero =>
        cases hi
        exact hhead.mp hr ht
      | succ i =>
        obtain ⟨s', hs'⟩ := step_total s t
        exact htail.mpr ((ih (numbered_step h hr hs')).mp (hrest s' hs')) i t' hi ht
    · intro hall
      have hr := hhead.mpr (hall 0 t rfl)
      exact ⟨hr, fun s' hs' =>
        (ih (numbered_step h hr hs')).mpr (htail.mp fun i t' => hall (i + 1) t')⟩

/-- For every two BINDs, and whatever is sent: no request is refused for its
number exactly if each that gets to the test follows a multiple of 65536 MUs that
are not counted, and is not itself a multiple of 65536. -/
theorem sequence_numbers (sendType : HsType) (sendBind : Bind) (type : HsType) (bind : Bind)
    (ts : List Transfer) :
    Along Session.step (fun s t => ¬ Refused s t) ⟨init sendType sendBind, init type bind⟩ ts ↔
      ∀ i t, ts[i]? = some t → tested (init type bind) t.mu = true →
        uncounted (init type bind) (ts.take i) % 65536 = 0 ∧ (i + 1) % 65536 ≠ 0 := by
  have h : Numbered (init type bind) ⟨init sendType sendBind, init type bind⟩ 0 0 :=
    ⟨rfl, rfl, Nat.le_refl 0, rfl, rfl⟩
  simpa only [Nat.zero_add] using along_not_refused h ts

/-- An MU that arrives while nothing fails. -/
def transfer (mu : Mu) (h : mu.mpf = .wholeBiu) : Transfer :=
  ⟨mu, ⟨2000, some 0, true, some 0, some 0, 0⟩, h⟩

/-- A request of the expedited flow uses up a number that the receiver does not
expect, and the next one of the normal flow is refused. -/
theorem sequence_numbers_expedited :
    ¬ Along Session.step (fun s t => ¬ Refused s t)
      ⟨init .fsp (adaptiveBind 1), init .bidder (adaptiveBind 1)⟩
      [transfer { request .wholeBiu [1, 2, 3, 4] with efi := .exp } rfl,
        transfer (request .wholeBiu [1, 2, 3, 4]) rfl] := by
  decide

end LinuxSna.Tc
