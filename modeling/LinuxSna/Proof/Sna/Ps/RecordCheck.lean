import LinuxSna.Proof.Sna.Ps.Buffer
import LinuxSna.Spec.Records

/-!
# The logical records that are sent

`sna_ps_conv_validate_logical_records` asks whether a record goes on beyond the buffer by the size
of all of the buffer, although a record may begin behind its first byte. So the place in a record is
right after a buffer unless a record begins behind the first byte and goes on beyond the last. The
LL fields that are in the buffer are found all the same.

* `check_start`: the loop at the start of a record, by induction on what is left of the buffer;
* `validate_spec`: a buffer from wherever the one before it has ended;
* `records_checked_iff`: a sequence of buffers.
-/

namespace LinuxSna.Ps

open Framework Spec

variable {slack : UInt8} {data : List UInt8} {l : LlTx} {p q : Place}

/-- The fields denote the place. -/
def LlTx.At (l : LlTx) : Place → Prop
  | .start => l = {}
  | .ll _ => False
  | .within size done => l.state = .incomplete ∧ l.recSize = size ∧ l.recBytes = done

/-- An LL field that is looked at is in the buffer. -/
def InBounds (data : List UInt8) (t : LlTx × Nat) : Prop :=
  t.1.state = .none → 2 ≤ data.length → t.2 + 1 < data.length

/-- What the check of a buffer gives where it should come to a place, or to none -/
def Checked (length : Nat) (r : Rc × LlTx) : Option Place → Prop
  | none => r = (acRcProgramParameterCheck, {})
  | some .start => r = (acRcOk, {})
  | some (.ll _) => False
  | some (.within size done) => r.1 = acRcOk ∧ (r.2.At (.within size done) ↔ length ≤ done)

/-! ## Passes -/

theorem validatePass_bad {offset : Nat} (hlen : 2 ≤ data.length)
    (hbad : llSizeAt slack data offset < 2 ∨ llSizeAt slack data offset > 32767) :
    validatePass slack data ({}, offset) = .inr (acRcProgramParameterCheck, {}) := by
  have hstart : startTx slack data {} offset = none := by
    rw [startTx, if_pos rfl, if_neg (by omega), if_pos hbad]
  unfold validatePass
  rw [hstart]

theorem startTx_good {offset : Nat} (hlen : 2 ≤ data.length)
    (hgood : ¬ (llSizeAt slack data offset < 2 ∨ llSizeAt slack data offset > 32767)) :
    startTx slack data {} offset =
      some (.start (llSizeAt slack data offset) (llSizeAt_lt slack data offset)) := by
  rw [startTx, if_pos rfl, if_neg (by omega), if_neg hgood]

/-- A record that is in the buffer to its end, as it seems -/
theorem validatePass_ends {l l' : LlTx} {offset : Nat}
    (hstart : startTx slack data l offset = some l') (hinc : l'.state = .incomplete)
    (hfits : l'.recSize ≤ data.length + l'.recBytes) :
    validatePass slack data (l, offset) =
      if data.length > offset + (l'.recSize - l'.recBytes) then
        .inl ({}, offset + (l'.recSize - l'.recBytes))
      else .inr (acRcOk, {}) := by
  have hcount : countTx data l' offset =
      ({ l' with state := .complete }, offset + (l'.recSize - l'.recBytes)) := by
    rw [countTx, if_pos hinc, dif_neg (by omega)]
  unfold validatePass
  simp only [hstart, hcount]
  rfl

/-- A record that goes on -/
theorem validatePass_goes_on {l l' : LlTx} {offset : Nat}
    (hstart : startTx slack data l offset = some l') (hinc : l'.state = .incomplete)
    (hlong : data.length + l'.recBytes < l'.recSize) :
    validatePass slack data (l, offset) = .inr (acRcOk, l'.count data.length hlong) := by
  have hcount : countTx data l' offset = (l'.count data.length hlong, data.length) := by
    rw [countTx, if_pos hinc, dif_pos hlong]
  have hne : (l'.count data.length hlong).state ≠ .complete := by
    show l'.state ≠ .complete
    rw [hinc]
    decide
  unfold validatePass
  simp only [hstart, hcount, gt_iff_lt, Nat.lt_irrefl, if_false, endTx, if_neg hne]

/-! ## Buffers -/

theorem llSizeAt_eq {offset : Nat} {a b : UInt8} {rest : List UInt8}
    (h : data.drop offset = a :: b :: rest) :
    llSizeAt slack data offset = a.toNat * 2 ^ 8 + b.toNat := by
  have ha : data.getD offset slack = a := by
    rw [List.getD_eq_getElem?_getD, ← Nat.add_zero offset, ← List.getElem?_drop, h]
    rfl
  have hb : data.getD (offset + 1) slack = b := by
    rw [List.getD_eq_getElem?_getD, ← List.getElem?_drop, h]
    rfl
  rw [llSizeAt, ha, hb]

theorem length_of_drop {offset : Nat} {a b : UInt8} {rest : List UInt8}
    (hdrop : data.drop offset = a :: b :: rest) : rest.length + 2 = data.length - offset := by
  rw [← List.length_drop, hdrop, List.length_cons, List.length_cons]

/-- A record that begins and is in the buffer to its end, as it seems by the size of all of it -/
theorem validatePass_seems {offset : Nat} (hlen : 2 ≤ data.length)
    (hgood : ¬ (llSizeAt slack data offset < 2 ∨ llSizeAt slack data offset > 32767))
    (hfits : llSizeAt slack data offset ≤ data.length) :
    validatePass slack data ({}, offset) =
      if data.length > offset + llSizeAt slack data offset then
        .inl ({}, offset + llSizeAt slack data offset)
      else .inr (acRcOk, {}) :=
  validatePass_ends (startTx_good hlen hgood) rfl hfits

/-- A record that goes on beyond the buffer, whatever the code takes it for -/
theorem validatePass_long {offset : Nat} {a b : UInt8} {rest : List UInt8}
    (hdrop : data.drop offset = a :: b :: rest)
    (hgood : ¬ (llSizeAt slack data offset < 2 ∨ llSizeAt slack data offset > 32767))
    (hlong : rest.length + 2 < llSizeAt slack data offset) :
    ∃ r, validatePass slack data ({}, offset) = .inr r ∧
      Checked data.length r (some (.within (llSizeAt slack data offset) (rest.length + 2))) := by
  have hrest := length_of_drop hdrop
  by_cases hseen : data.length < llSizeAt slack data offset
  · have hstart := startTx_good (by omega) hgood
    refine ⟨_, validatePass_goes_on hstart rfl hseen, rfl, ?_⟩
    constructor
    · rintro ⟨-, -, hbytes⟩
      have : 0 + data.length = rest.length + 2 := hbytes
      omega
    · intro hle
      refine ⟨rfl, rfl, ?_⟩
      show 0 + data.length = rest.length + 2
      omega
  · have hpass := validatePass_seems (by omega) hgood (by omega)
    rw [if_neg (by omega)] at hpass
    refine ⟨_, hpass, rfl, ?_⟩
    exact iff_of_false (fun hat => absurd hat.1 (by decide)) (by omega)

/-- A record that is in the buffer to its end -/
theorem validatePass_fits {offset : Nat} {a b : UInt8} {rest : List UInt8}
    (hdrop : data.drop offset = a :: b :: rest)
    (hgood : ¬ (llSizeAt slack data offset < 2 ∨ llSizeAt slack data offset > 32767))
    (hfits : llSizeAt slack data offset ≤ rest.length + 2) :
    validatePass slack data ({}, offset) =
        (if data.length > offset + llSizeAt slack data offset then
          .inl ({}, offset + llSizeAt slack data offset)
        else .inr (acRcOk, {})) ∧
      rest.drop (llSizeAt slack data offset - 2) =
        data.drop (offset + llSizeAt slack data offset) := by
  have hrest := length_of_drop hdrop
  constructor
  · exact validatePass_seems (by omega) hgood (by omega)
  · obtain ⟨j, hj⟩ : ∃ j, llSizeAt slack data offset = j + 2 :=
      ⟨llSizeAt slack data offset - 2, by omega⟩
    rw [← List.drop_drop, hdrop, hj]
    rfl

/-- At the start of a record, with some of the buffer left -/
theorem check_start {offset : Nat} (ho : offset < data.length)
    (hll : ∀ b, place (data.drop offset) ≠ some (.ll b)) :
    ∃ n r, loop (validatePass slack data) n ({}, offset) = some r ∧
      Passes (validatePass slack data) (InBounds data) ({}, offset) ∧
      Checked data.length r (place (data.drop offset)) := by
  induction hk : data.length - offset using Nat.strongRecOn generalizing offset with
  | ind k ih =>
    match hdrop : data.drop offset with
    | [] => exact absurd (List.drop_eq_nil_iff.mp hdrop) (by omega)
    | [b] => exact absurd (by rw [hdrop]; rfl) (hll b)
    | a :: b :: rest =>
      have hrest := length_of_drop hdrop
      have hin : InBounds data ({}, offset) := by
        intro _ _
        show offset + 1 < data.length
        omega
      have hsize := @llSizeAt_eq slack data offset a b rest hdrop
      rw [place_cons, ← hsize]
      by_cases hbad : llSizeAt slack data offset < 2 ∨ llSizeAt slack data offset > 32767
      · have hpass := validatePass_bad (by omega) hbad
        rw [if_pos hbad]
        exact ⟨1, _, loop_succ_inr hpass, (passes_inr hpass).mpr hin, rfl⟩
      · rw [if_neg hbad]
        by_cases hlong : rest.length + 2 < llSizeAt slack data offset
        · obtain ⟨r, hpass, hchecked⟩ := validatePass_long hdrop hbad hlong
          rw [if_pos hlong]
          exact ⟨1, r, loop_succ_inr hpass, (passes_inr hpass).mpr hin, hchecked⟩
        · obtain ⟨hpass, hnext⟩ := validatePass_fits hdrop hbad (by omega)
          rw [if_neg hlong, hnext]
          by_cases hmore : data.length > offset + llSizeAt slack data offset
          · rw [if_pos hmore] at hpass
            have hll' : ∀ b, place (data.drop (offset + llSizeAt slack data offset)) ≠
                some (.ll b) := by
              intro c hc
              apply hll c
              rw [hdrop, place_cons, ← hsize, if_neg hbad, if_neg hlong, hnext, hc]
            obtain ⟨n, r, hr, hpasses, hchecked⟩ := ih _ (by omega) hmore hll' rfl
            exact ⟨n + 1, r, (loop_succ_inl hpass).trans hr, (passes_inl hpass).mpr ⟨hin, hpasses⟩,
              hchecked⟩
          · rw [if_neg hmore] at hpass
            rw [List.drop_eq_nil_of_le (by omega)]
            exact ⟨1, _, loop_succ_inr hpass, (passes_inr hpass).mpr hin, rfl⟩

/-- A buffer from wherever the one before it has ended -/
theorem validate_spec {sent : List UInt8} (hp : place sent = some p) (hat : l.At p)
    (hne : data ≠ []) (hll : WholeLl (sent ++ data)) :
    ∃ r, validateLogicalRecords slack l data = some r ∧
      Passes (validatePass slack data) (InBounds data) (l, 0) ∧
      Checked data.length r (place (sent ++ data)) := by
  obtain ⟨r, hr⟩ := validateLogicalRecords_ends slack l data
  suffices h : ∃ n r, loop (validatePass slack data) n (l, 0) = some r ∧
      Passes (validatePass slack data) (InBounds data) (l, 0) ∧
      Checked data.length r (place (sent ++ data)) by
    obtain ⟨n, r', hr', hpasses, hchecked⟩ := h
    obtain rfl := loop_unique hr' hr
    exact ⟨r', hr, hpasses, hchecked⟩
  have hpos := List.length_pos_iff.mpr hne
  have hon : place (sent ++ data) = run Place.next p data := by
    rw [place, run_place_append, ← place, hp, Option.bind_some]
  rw [WholeLl, hon] at hll
  rw [hon]
  cases p with
  | ll b => exact hat.elim
  | start =>
    obtain rfl : l = {} := hat
    exact check_start hpos hll
  | within size done =>
    obtain ⟨hinc, rfl, rfl⟩ := hat
    obtain ⟨-, hlt, -⟩ := place_within hp
    have hstart : startTx slack data l 0 = some l := by
      rw [startTx, if_neg (by rw [hinc]; decide)]
    have hin : InBounds data (l, 0) := fun hnone => absurd (hinc.symm.trans hnone) (by decide)
    by_cases hlong : data.length + l.recBytes < l.recSize
    · have hpass := validatePass_goes_on hstart hinc hlong
      rw [run_within_lt (by omega)]
      refine ⟨1, _, loop_succ_inr hpass, (passes_inr hpass).mpr hin, rfl, ?_⟩
      exact iff_of_true ⟨hinc, rfl, rfl⟩ (by omega)
    · have hpass := validatePass_ends hstart hinc (by omega)
      rw [Nat.zero_add] at hpass
      rw [run_within hlt (by omega)] at hll ⊢
      by_cases hmore : data.length > l.recSize - l.recBytes
      · rw [if_pos hmore] at hpass
        obtain ⟨n, r', hr', hpasses, hchecked⟩ :=
          @check_start slack data (l.recSize - l.recBytes) hmore hll
        exact ⟨n + 1, r', (loop_succ_inl hpass).trans hr', (passes_inl hpass).mpr ⟨hin, hpasses⟩,
          hchecked⟩
      · rw [if_neg hmore] at hpass
        rw [List.drop_eq_nil_of_le (by omega)]
        exact ⟨1, _, loop_succ_inr hpass, (passes_inr hpass).mpr hin, rfl⟩

/-! ## Sequences of buffers -/

/-- The position, and the bytes of the buffers that were accepted -/
structure Checking where
  l : LlTx := {}
  sent : List UInt8 := []

/-- A buffer is checked, with what stands behind it. Only what is accepted is sent. -/
def Checking.step (s : Checking) (e : UInt8 × List UInt8) : Option Checking :=
  (validateLogicalRecords e.1 s.l e.2).map fun r =>
    { l := r.2, sent := if r.1 = acRcOk then s.sent ++ e.2 else s.sent }

/-- A buffer that is not empty and does not end in an LL field -/
def NoCut (s : Checking) (e : UInt8 × List UInt8) : Prop := e.2 ≠ [] ∧ WholeLl (s.sent ++ e.2)

def Accepts (s : Checking) (e : UInt8 × List UInt8) : Prop :=
  ∃ l, validateLogicalRecords e.1 s.l e.2 = some (acRcOk, l)

/-- What the check of a buffer should give -/
structure RightResult (s : Checking) (e : UInt8 × List UInt8) (r : Rc × LlTx) : Prop where
  accepts : r.1 = acRcOk ↔ Valid (s.sent ++ e.2)
  position : r.1 = acRcOk → ∃ p, place (s.sent ++ e.2) = some p ∧ r.2.At p
  rejects : r.1 ≠ acRcOk → r.2 = s.l
  reads : Passes (validatePass e.1 e.2) (InBounds e.2) (s.l, 0)

def Right (s : Checking) (e : UInt8 × List UInt8) : Prop :=
  ∃ r, validateLogicalRecords e.1 s.l e.2 = some r ∧ RightResult s e r

/-- A record that goes on beyond the buffer has not begun behind its first byte, and a buffer that
is not valid begins with a record. -/
structure Clear (s : Checking) (e : UInt8 × List UInt8) : Prop where
  goes_on : ∀ size done, place (s.sent ++ e.2) = some (.within size done) → e.2.length ≤ done
  invalid : ¬ Valid (s.sent ++ e.2) → place s.sent = some .start

/-- The fields denote the place after what was sent. -/
def OnPlace (s : Checking) : Prop := ∃ p, place s.sent = some p ∧ s.l.At p

variable {s s' : Checking} {e : UInt8 × List UInt8} {es : List (UInt8 × List UInt8)}

theorem right_iff_result {r : Rc × LlTx} (hr : validateLogicalRecords e.1 s.l e.2 = some r) :
    Right s e ↔ RightResult s e r := by
  constructor
  · rintro ⟨r', hr', h⟩
    obtain rfl := Option.some.inj (hr.symm.trans hr')
    exact h
  · exact fun h => ⟨r, hr, h⟩

/-- A rejected buffer leaves the fields as they were only where they are those of the start of a
record. -/
theorem rejected_iff (hp : place s.sent = some p) (hat : s.l.At p) :
    ({} : LlTx) = s.l ↔ place s.sent = some .start := by
  rw [hp, Option.some.injEq]
  match p with
  | .start => exact iff_of_true (Eq.symm hat) rfl
  | .ll b => exact hat.elim
  | .within size done =>
    refine iff_of_false (fun hl => ?_) nofun
    exact absurd hat.1 (by rw [← hl]; decide)

theorem right_iff_clear (hs : OnPlace s) (hn : NoCut s e) : Right s e ↔ Clear s e := by
  obtain ⟨p, hp, hat⟩ := hs
  obtain ⟨r, hr, hreads, hchecked⟩ := @validate_spec e.1 e.2 s.l p s.sent hp hat hn.1 hn.2
  have hvalid := valid_iff hn.2
  rw [right_iff_result hr]
  match hplace : place (s.sent ++ e.2) with
  | none =>
    rw [hplace] at hchecked hvalid
    obtain rfl : r = (acRcProgramParameterCheck, {}) := hchecked
    have hbad : ¬ Valid (s.sent ++ e.2) := fun hv => hvalid.mp hv rfl
    constructor
    · intro h
      refine ⟨fun size done hw => absurd (hplace.symm.trans hw) (by simp), fun _ => ?_⟩
      exact (rejected_iff hp hat).mp (h.rejects (by decide))
    · intro h
      exact ⟨iff_of_false (by decide) hbad, fun hok => absurd hok (by decide),
        fun _ => (rejected_iff hp hat).mpr (h.invalid hbad), hreads⟩
  | some .start =>
    rw [hplace] at hchecked hvalid
    obtain rfl : r = (acRcOk, {}) := hchecked
    have hgood : Valid (s.sent ++ e.2) := hvalid.mpr (by simp)
    refine iff_of_true ⟨iff_of_true rfl hgood, fun _ => ⟨.start, hplace, rfl⟩,
      fun hne => absurd rfl hne, hreads⟩ ⟨fun size done hw => ?_, fun hbad => absurd hgood hbad⟩
    exact absurd (hplace.symm.trans hw) (by simp)
  | some (.ll b) => exact absurd hplace (hn.2 b)
  | some (.within size done) =>
    rw [hplace] at hchecked hvalid
    obtain ⟨hok, hiff⟩ := hchecked
    have hgood : Valid (s.sent ++ e.2) := hvalid.mpr (by simp)
    constructor
    · intro h
      refine ⟨fun size' done' hw => ?_, fun hbad => absurd hgood hbad⟩
      obtain ⟨q, hq, hatq⟩ := h.position hok
      obtain rfl := Option.some.inj (hplace.symm.trans hq)
      cases Option.some.inj (hplace.symm.trans hw)
      exact hiff.mp hatq
    · intro h
      exact ⟨iff_of_true hok hgood, fun _ => ⟨_, hplace, hiff.mpr (h.goes_on size done hplace)⟩,
        fun hne => absurd hok hne, hreads⟩

theorem OnPlace.step (hs : OnPlace s) (h : Right s e) (h' : s.step e = some s') : OnPlace s' := by
  obtain ⟨r, hr, hright⟩ := h
  rw [Checking.step, hr, Option.map_some, Option.some.injEq] at h'
  subst h'
  by_cases hok : r.1 = acRcOk
  · simp only [OnPlace, if_pos hok]
    exact hright.position hok
  · simp only [OnPlace, if_neg hok, hright.rejects hok]
    exact hs

/-- Where every step is right, all the buffers are accepted if the whole of them is valid. -/
theorem accepted_iff (hv : Valid s.sent) (h : Along Checking.step Right s es) :
    Along Checking.step Accepts s es ↔ Valid (s.sent ++ (es.map Prod.snd).flatten) := by
  induction es generalizing s with
  | nil =>
    rw [List.map_nil, List.flatten_nil, List.append_nil]
    exact iff_of_true trivial hv
  | cons e es ih =>
    obtain ⟨⟨r, hr, hright⟩, hrest⟩ := h
    rw [List.map_cons, List.flatten_cons, ← List.append_assoc]
    have hstep : s.step e = some ⟨r.2, if r.1 = acRcOk then s.sent ++ e.2 else s.sent⟩ := by
      rw [Checking.step, hr, Option.map_some]
    by_cases hok : r.1 = acRcOk
    · rw [if_pos hok] at hstep
      have ih' := ih (hright.accepts.mp hok) (hrest _ hstep)
      rw [← ih']
      constructor
      · intro ha
        exact ha.2 _ hstep
      · intro ha
        refine ⟨⟨r.2, by rw [hr, ← hok]⟩, fun t ht => ?_⟩
        obtain rfl := Option.some.inj (hstep.symm.trans ht)
        exact ha
    · apply iff_of_false
      · rintro ⟨⟨l, hl⟩, -⟩
        exact hok (congrArg Prod.fst (Option.some.inj (hr.symm.trans hl)))
      · intro hwhole
        exact hok (hright.accepts.mpr (valid_of_append hwhole))

/-- The check of a sequence of buffers that do not cut an LL field is right, with what it accepts
exactly the valid sequences, if and only if no record that goes on beyond a buffer has begun behind
its first byte, and no buffer that is rejected begins within a record. -/
theorem records_checked_iff (h : Along Checking.step NoCut {} es) :
    (Along Checking.step Right {} es ∧
      (Along Checking.step Accepts {} es ↔ Valid (es.map Prod.snd).flatten)) ↔
      Along Checking.step Clear {} es := by
  have hstart : OnPlace {} := ⟨.start, rfl, rfl⟩
  have hiff : Along Checking.step Right {} es ↔ Along Checking.step Clear {} es := by
    have hboth : Along Checking.step (fun s e => NoCut s e ∧ Right s e) {} es ↔
        Along Checking.step (fun s e => NoCut s e ∧ Clear s e) {} es :=
      along_iff (I := OnPlace)
        (fun s e s' hs hG h' => hs.step ((right_iff_clear hs hG.1).mpr hG.2) h')
        (fun s e hs => and_congr_right fun hn => right_iff_clear hs hn) hstart
    rw [along_and, along_and, and_iff_right h, and_iff_right h] at hboth
    exact hboth
  rw [← hiff]
  exact and_iff_left_of_imp fun hright => accepted_iff ⟨[], List.prefix_rfl⟩ hright

/-- A record in a buffer of its own, and the first two bytes of the next -/
theorem records_checked_iff_two :
    Along Checking.step Right {} [(0, [0, 4, 1, 2]), (0, [0, 3])] ∧
      (Along Checking.step Accepts {} [(0, [0, 4, 1, 2]), (0, [0, 3])] ↔
        Valid [0, 4, 1, 2, 0, 3]) := by
  have hcheck : validateLogicalRecords 0 {} [0, 4, 1, 2] = some (acRcOk, {}) := by
    decide +kernel
  have hfirst : Checking.step {} (0, [0, 4, 1, 2]) = some ⟨{}, [0, 4, 1, 2]⟩ := by
    rw [Checking.step, hcheck]
    rfl
  have hplace : place [0, 4, 1, 2] = some .start := by decide
  have hplace' : place [0, 4, 1, 2, 0, 3] = some (.within 3 2) := by decide
  refine (records_checked_iff ?_).mpr ?_
  · refine ⟨⟨by decide, fun b hb => ?_⟩, fun t ht => ?_⟩
    · exact absurd (hplace.symm.trans hb) (by simp)
    · obtain rfl := Option.some.inj (hfirst.symm.trans ht)
      refine ⟨⟨by decide, fun b hb => ?_⟩, fun _ _ => trivial⟩
      exact absurd (hplace'.symm.trans hb) (by simp)
  · refine ⟨⟨fun size done hw => ?_, fun _ => rfl⟩, fun t ht => ?_⟩
    · exact absurd (hplace.symm.trans hw) (by simp)
    · obtain rfl := Option.some.inj (hfirst.symm.trans ht)
      refine ⟨⟨fun size done hw => ?_, fun _ => hplace⟩, fun _ _ => trivial⟩
      cases hplace'.symm.trans hw
      decide

/-- A record of 4 bytes and 3 bytes of a record of 6: the code is at the start of a record. -/
theorem second_record_forgotten :
    Along Checking.step NoCut {} [(0, [0, 4, 170, 187, 0, 6, 204])] ∧
      place [0, 4, 170, 187, 0, 6, 204] = some (.within 6 3) ∧
      validateLogicalRecords 0 {} [0, 4, 170, 187, 0, 6, 204] = some (acRcOk, {}) ∧
      ¬ Along Checking.step Right {} [(0, [0, 4, 170, 187, 0, 6, 204])] := by
  have hplace : place [0, 4, 170, 187, 0, 6, 204] = some (.within 6 3) := by decide
  have hcheck : validateLogicalRecords 0 {} [0, 4, 170, 187, 0, 6, 204] = some (acRcOk, {}) := by
    decide +kernel
  refine ⟨⟨⟨by decide, fun b hb => ?_⟩, fun _ _ => trivial⟩, hplace, hcheck, ?_⟩
  · exact absurd (hplace.symm.trans hb) (by simp)
  · rintro ⟨⟨r, hr, hright⟩, -⟩
    obtain rfl := Option.some.inj (hcheck.symm.trans hr)
    obtain ⟨p, hp, hat⟩ := hright.position rfl
    obtain rfl := Option.some.inj (hplace.symm.trans hp)
    exact absurd hat.1 (by decide)

end LinuxSna.Ps
