import LinuxSna.Proof.Sna.Dfc.Enforcement
import LinuxSna.Proof.Sna.Ps.Buffer

/-!
# What is passed on is sent

Data wait in two buffers, the one of the conversation and the one of the half-session, and
only one type of record sends what is in them.

* `Whole.attach`, `Whole.data`, `Whole.flush`: what a record that fits does;
* `Whole.step`: what has been sent and what waits is what has been passed on;
* `not_correct`: the other types of record leave an MU in `hs->send_mu`;
* `along_correct_iff`: the sequences of records for which the path sends everything.
-/

namespace LinuxSna.Dfc.Traffic

open Framework (Along loop_succ_inr run)
open Hs (Mu)
open Ps (Conversation CtrlType PsMu)

variable {st st' : Traffic} {e : SendEnv} {ev : ConvRecord × SendEnv}

/-! ## What waits -/

/-- What is in `hs->send_mu` -/
def hsData (st : Traffic) : List UInt8 := st.sender.sendMu.elim [] (·.mu.data)

/-- What is in `rcb->send_mu` -/
def rcbData (st : Traffic) : List UInt8 := st.c.rcb.sendMu.elim [] (·.data)

/-- The MU that a record is put into. -/
def target (st : Traffic) (e : SendEnv) : Option SendMu :=
  st.sender.sendMu <|> createAndInitMu st.c.rcb.txMaxBtu e

/-- All that has been passed on has been sent, once and in order, and nothing waits. -/
structure Delivered (st : Traffic) : Prop where
  hs : st.sender.sendMu = none
  rcb : st.c.rcb.sendMu = none
  given : st.given.flatMap (·.data) = st.passed

/-- No MU has more bytes than its buffer was asked for. -/
structure Bounded (st : Traffic) : Prop where
  given : ∀ m ∈ st.given, m.data.length ≤ st.c.rcb.txMaxBtu
  hs : st.hsData.length ≤ st.c.rcb.txMaxBtu

/-- After a record no MU has too many bytes; and if it is one with which data are to be sent,
they have been. -/
def Correct (st : Traffic) (ev : ConvRecord × SendEnv) : Prop :=
  ∃ st', st.step ev = some st' ∧ (∀ type h, ev.1 = .control type h → st'.Delivered) ∧ st'.Bounded

/-- The one type of record that sends. -/
def Flushes (r : ConvRecord) : Prop := ∀ type h, r = .control type h → type = .prepareToRcvFlush

/-- There is memory for a record, and room for it in the one MU that what waits will be sent
in; and an Attach does not overtake data. -/
def Fits (st : Traffic) : ConvRecord × SendEnv → Prop
  | (.attach fmh5, e) =>
    st.rcbData = [] ∧ st.hsData.length + fmh5.length ≤ st.c.rcb.txMaxBtu ∧
      ∃ b, st.target e = some b ∧ fmh5.length ≤ b.room
  | (.data bytes, _) =>
    st.rcbData.length < st.c.rcb.txMaxBtu ∧
      st.hsData.length + st.rcbData.length + bytes.length ≤ st.c.rcb.txMaxBtu ∧
      (st.c.rcb.sendMu = none → st.c.allocs.headD true = true)
  | (.control _ _, e) => ∃ b, st.target e = some b ∧ st.rcbData.length ≤ b.room

/-- What has been sent and what waits is what has been passed on, and it has room in one
MU. -/
structure Whole (st : Traffic) : Prop where
  passed : st.given.flatMap (·.data) ++ st.hsData ++ st.rcbData = st.passed
  given : ∀ m ∈ st.given, m.data.length ≤ st.c.rcb.txMaxBtu
  waiting : st.hsData.length + st.rcbData.length ≤ st.c.rcb.txMaxBtu

/-- Nothing has been passed on, and nothing waits. -/
structure Begins (st : Traffic) : Prop where
  hs : st.sender.sendMu = none
  rcb : st.c.rcb.sendMu = none
  passed : st.passed = []
  given : st.given = []

theorem Begins.whole (h : st.Begins) : st.Whole where
  passed := by rw [hsData, rcbData, h.hs, h.rcb, h.passed, h.given]; rfl
  given := by simp [h.given]
  waiting := by simp [hsData, rcbData, h.hs, h.rcb]

theorem Whole.bounded (h : st.Whole) : st.Bounded := ⟨h.given, by have := h.waiting; omega⟩

/-! ## One record -/

/-- A new MU has no data, and one that is there has what waits. -/
theorem target_data {b : SendMu} (h : st.target e = some b) : b.mu.data = st.hsData := by
  unfold target at h
  unfold hsData
  cases hs : st.sender.sendMu with
  | some b' =>
    rw [hs] at h
    cases h
    rfl
  | none =>
    rw [hs] at h
    obtain ⟨slack, -, rfl⟩ := Option.map_eq_some_iff.mp (show createAndInitMu _ e = some b from h)
    rfl

theorem setRh_data (chain : ChainSendState) (r : PsToHs) (m : Mu) :
    (setRh chain r m).data = m.data := by
  unfold setRh setType
  split <;> rfl

theorem put_eq {b : SendMu} {bytes : List UInt8} (h : bytes.length ≤ b.room) :
    ∃ b', b.put bytes = some b' ∧ b'.mu.data = b.mu.data ++ bytes ∧
      b'.room = b.room - bytes.length :=
  ⟨_, if_pos h, rfl, rfl⟩

/-- A record of another type than the one that flushes waits in `hs->send_mu`. -/
theorem txData_keeps {r : PsToHs} (ht : r.type ≠ .prepareToRcvFlush) {b : SendMu}
    (hb : st.target e = some b) (hroom : r.data.length ≤ b.room) :
    ∃ t b', st.txData r e = some { st with sender := t } ∧ t.sendMu = some b' ∧
      b'.mu.data = st.hsData ++ r.data := by
  have hd : { b with mu := setRh st.sender.hs.dfc.chainSendState r b.mu }.mu.data = st.hsData :=
    (setRh_data _ r b.mu).trans (target_data hb)
  obtain ⟨b', hput, hdata, -⟩ :=
    put_eq (b := { b with mu := setRh st.sender.hs.dfc.chainSendState r b.mu }) hroom
  refine ⟨.of st.sender.hs (some b'), b', ?_, rfl, hdata.trans (by rw [hd])⟩
  unfold txData sendFmdMu
  rw [show (st.sender.sendMu <|> createAndInitMu st.c.rcb.txMaxBtu e) = some b from hb]
  dsimp only
  rw [hput, Option.bind_some, if_neg ht, Option.map_some, Option.toList_none, List.append_nil]

/-- The MU that a record sends when it flushes: what waits in `hs->send_mu`, and then what waits
in `rcb->send_mu`. -/
def flushedMu (st : Traffic) (r : PsToHs) (b : SendMu) : Mu :=
  (st.sender.hs.tc.stamp
    { setRh st.sender.hs.dfc.chainSendState r b.mu with
      data := st.hsData ++ r.data ++ st.rcbData }).2

theorem txData_flush {r : PsToHs} (ht : r.type = .prepareToRcvFlush) {b : SendMu}
    (hb : st.target e = some b) (hroom : r.data.length + st.rcbData.length ≤ b.room) :
    ∃ t, st.txData r e = some
        { st with
          sender := t
          c.rcb.sendMu := none
          given := st.given ++ [st.flushedMu r b] } ∧
      t.sendMu = none := by
  have hd : (setRh st.sender.hs.dfc.chainSendState r b.mu).data = st.hsData :=
    (setRh_data _ r b.mu).trans (target_data hb)
  have hput : SendMu.put { b with mu := setRh st.sender.hs.dfc.chainSendState r b.mu } r.data =
      some ⟨{ setRh st.sender.hs.dfc.chainSendState r b.mu with data := st.hsData ++ r.data },
        b.room - r.data.length⟩ := by
    rw [SendMu.put, if_pos (show r.data.length ≤ b.room by omega), hd]
  have hput' : SendMu.put
      ⟨{ setRh st.sender.hs.dfc.chainSendState r b.mu with data := st.hsData ++ r.data },
        b.room - r.data.length⟩ st.rcbData =
      some ⟨{ setRh st.sender.hs.dfc.chainSendState r b.mu with
          data := st.hsData ++ r.data ++ st.rcbData },
        b.room - r.data.length - st.rcbData.length⟩ :=
    if_pos (by simp only; omega)
  refine ⟨.of (sendFsms st.sender.hs (SendMu.skb ⟨{ setRh st.sender.hs.dfc.chainSendState r b.mu with
    data := st.hsData ++ r.data ++ st.rcbData }, 0⟩) e.tx).hs none, ?_, rfl⟩
  unfold txData sendFmdMu flushMu
  rw [show (st.sender.sendMu <|> createAndInitMu st.c.rcb.txMaxBtu e) = some b from hb]
  dsimp only
  rw [hput, Option.bind_some, if_pos ht, ← rcbData, hput']
  rfl

/-- The MU that data are moved to has what waits. -/
theorem takeMu_data {c : Conversation} (bytes : List UInt8)
    (halloc : c.rcb.sendMu = none → c.allocs.headD true = true) :
    ∃ mu t c', Ps.takeMu (Ps.beginFilling c bytes) = (some (mu, t), c') ∧
      mu.data = c.rcb.sendMu.elim [] (·.data) ∧ t.data = bytes ∧ t.c.toHs = c.toHs ∧
      t.c.rcb.txMaxBtu = c.rcb.txMaxBtu := by
  unfold Ps.takeMu Ps.beginFilling
  cases hmu : c.rcb.sendMu with
  | some mu => exact ⟨mu, _, _, rfl, rfl, rfl, rfl, rfl⟩
  | none =>
    dsimp only
    rw [Ps.createAndInitLimitedMu, Ps.allocSkb, halloc hmu]
    exact ⟨_, _, _, rfl, rfl, rfl, rfl, rfl⟩

/-- Data that do not fill the buffer of the conversation wait in it. -/
theorem sendDataBufferManagement_fits {c : Conversation} {bytes : List UInt8}
    (hlt : (c.rcb.sendMu.elim [] (·.data)).length < c.rcb.txMaxBtu)
    (hfit : (c.rcb.sendMu.elim [] (·.data)).length + bytes.length ≤ c.rcb.txMaxBtu)
    (halloc : c.rcb.sendMu = none → c.allocs.headD true = true) :
    ∃ c' mu, Ps.sendDataBufferManagement c bytes false = some (true, c') ∧ c'.toHs = c.toHs ∧
      c'.rcb.txMaxBtu = c.rcb.txMaxBtu ∧ c'.rcb.sendMu = some mu ∧
      mu.data = c.rcb.sendMu.elim [] (·.data) ++ bytes := by
  obtain ⟨mu, t, c', htake, hmu, hdata, htoHs, hmax⟩ := takeMu_data bytes halloc
  have hall : bytes.length ≤ t.c.rcb.txMaxBtu - mu.data.length := by
    rw [hmax, hmu]
    omega
  have hroom : ¬ mu.data.length ≥ t.c.rcb.txMaxBtu := by
    rw [hmax, hmu]
    omega
  have hpass : Ps.fillPass false (Ps.beginFilling c bytes) =
      .inr (true, Ps.endFilling false (Ps.fillMu mu t)) := by
    unfold Ps.fillPass
    rw [htake]
    dsimp only
    rw [if_neg]
    rw [Ps.fillMu, if_neg hroom, hdata]
    exact not_not.mpr (List.drop_eq_nil_of_le hall)
  refine ⟨_, { mu with data := mu.data ++ bytes }, loop_succ_inr hpass, ?_⟩
  rw [Ps.fillMu, if_neg hroom, hdata, List.take_of_length_le hall, ← hmu]
  exact ⟨htoHs, hmax, rfl, rfl⟩

/-! ## A sequence of records -/

/-- An Attach waits in `hs->send_mu`, where nothing that has been passed on comes after it. -/
theorem Whole.attach (h : st.Whole) {fmh5 : List UInt8} (hfit : st.Fits (.attach fmh5, e)) :
    ∃ st', st.step (.attach fmh5, e) = some st' ∧ st'.Whole := by
  obtain ⟨hrcb, hlen, b, hb, hroom⟩ := hfit
  have hb' : Traffic.target { st with passed := st.passed ++ fmh5 } e = some b := hb
  obtain ⟨t, b', hstep, ht, hdata⟩ :=
    txData_keeps (r := ⟨.recAllocate, true, fmh5⟩) nofun hb' hroom
  have hhs : t.sendMu.elim [] (·.mu.data) = st.hsData ++ fmh5 := by rw [ht]; exact hdata
  refine ⟨_, hstep, ⟨?_, h.given, ?_⟩⟩
  · show st.given.flatMap (·.data) ++ t.sendMu.elim [] (·.mu.data) ++ st.rcbData = st.passed ++ fmh5
    rw [hhs, hrcb, ← h.passed, hrcb, List.append_nil, List.append_nil, List.append_assoc]
  · show (t.sendMu.elim [] (·.mu.data)).length + st.rcbData.length ≤ st.c.rcb.txMaxBtu
    rw [hhs, hrcb, List.length_append, List.length_nil]
    omega

/-- Data wait in `rcb->send_mu`. -/
theorem Whole.data (h : st.Whole) {bytes : List UInt8} (hfit : st.Fits (.data bytes, e)) :
    ∃ st', st.step (.data bytes, e) = some st' ∧ st'.Whole := by
  obtain ⟨hlt, hlen, halloc⟩ := hfit
  have hsum : st.rcbData.length + bytes.length ≤ st.c.rcb.txMaxBtu := by omega
  obtain ⟨c', mu, hman, htoHs, hmax, hmu, hdata⟩ :=
    sendDataBufferManagement_fits (c := st.c) hlt hsum halloc
  have hrcb : c'.rcb.sendMu.elim [] (·.data) = st.rcbData ++ bytes := by rw [hmu]; exact hdata
  refine ⟨{ st with c := c', passed := st.passed ++ bytes }, ?_, ⟨?_, ?_, ?_⟩⟩
  · show (Ps.sendDataBufferManagement st.c bytes false).bind _ = _
    rw [hman, Option.bind_some, htoHs, List.drop_length]
    rfl
  · show st.given.flatMap (·.data) ++ st.hsData ++ c'.rcb.sendMu.elim [] (·.data) = st.passed ++ bytes
    rw [hrcb, ← h.passed]
    simp only [List.append_assoc]
  · show ∀ m ∈ st.given, m.data.length ≤ c'.rcb.txMaxBtu
    rw [hmax]
    exact h.given
  · show st.hsData.length + (c'.rcb.sendMu.elim [] (·.data)).length ≤ c'.rcb.txMaxBtu
    rw [hrcb, hmax, List.length_append]
    omega

/-- The record that flushes sends everything. -/
theorem Whole.flush (h : st.Whole) {type : CtrlType} {hs : type ∈ sendingTypes}
    (ht : type = .prepareToRcvFlush) (hfit : st.Fits (.control type hs, e)) :
    ∃ st', st.step (.control type hs, e) = some st' ∧ st'.Whole ∧ st'.Delivered := by
  obtain ⟨b, hb, hroom⟩ := hfit
  obtain ⟨t, hstep, hsent⟩ :=
    txData_flush (r := ⟨type, false, []⟩) ht hb (by rw [List.length_nil]; omega)
  generalize hm : st.flushedMu ⟨type, false, []⟩ b = m at hstep
  have hdata : m.data = st.hsData ++ [] ++ st.rcbData := by rw [← hm]; rfl
  have hall : (st.given ++ [m]).flatMap (·.data) = st.passed := by
    rw [List.flatMap_append, List.flatMap_singleton, hdata, ← h.passed, List.append_nil,
      List.append_assoc]
  refine ⟨_, hstep, ⟨?_, ?_, ?_⟩, hsent, rfl, hall⟩
  · show (st.given ++ [m]).flatMap (·.data) ++ t.sendMu.elim [] (·.mu.data) ++ [] = st.passed
    rw [hall, hsent]
    exact (List.append_nil _).trans (List.append_nil _)
  · show ∀ m' ∈ st.given ++ [m], m'.data.length ≤ st.c.rcb.txMaxBtu
    intro m' hm
    obtain hm | hm := List.mem_append.mp hm
    · exact h.given m' hm
    · rw [List.mem_singleton.mp hm, hdata, List.append_nil, List.length_append]
      exact h.waiting
  · show (t.sendMu.elim [] (·.mu.data)).length + 0 ≤ st.c.rcb.txMaxBtu
    rw [hsent]
    exact Nat.zero_le _

/-- A record that fits, and is of the right type if data are to be sent with it, does what it
should. -/
theorem Whole.step (h : st.Whole) (hfit : st.Fits ev) (hf : Flushes ev.1) :
    ∃ st', st.step ev = some st' ∧ st'.Whole ∧ st.Correct ev := by
  obtain ⟨r, e⟩ := ev
  cases r with
  | attach fmh5 =>
    obtain ⟨st', hstep, hw⟩ := h.attach hfit
    exact ⟨st', hstep, hw, st', hstep, nofun, hw.bounded⟩
  | data bytes =>
    obtain ⟨st', hstep, hw⟩ := h.data hfit
    exact ⟨st', hstep, hw, st', hstep, nofun, hw.bounded⟩
  | control type hs =>
    obtain ⟨st', hstep, hw, hd⟩ := h.flush (hf type hs rfl) hfit
    exact ⟨st', hstep, hw, st', hstep, fun _ _ _ => hd, hw.bounded⟩

/-- With every other type an MU stays in `hs->send_mu`. -/
theorem not_correct {type : CtrlType} {hs : type ∈ sendingTypes} (ht : type ≠ .prepareToRcvFlush)
    (hfit : st.Fits (.control type hs, e)) : ¬ st.Correct (.control type hs, e) := by
  rintro ⟨st', hst', hd, -⟩
  obtain ⟨b, hb, -⟩ := hfit
  obtain ⟨t, b', hstep, hsome, -⟩ :=
    txData_keeps (r := ⟨type, false, []⟩) ht hb (Nat.zero_le _)
  obtain rfl := Option.some.inj (hstep.symm.trans hst')
  exact Option.some_ne_none b' (hsome.symm.trans (hd type hs rfl).hs)

theorem correct_iff (h : st.Whole) (hfit : st.Fits ev) : st.Correct ev ↔ Flushes ev.1 := by
  constructor
  · rintro hc type hs htype
    obtain ⟨r, e⟩ := ev
    obtain rfl : r = _ := htype
    by_contra ht
    exact not_correct ht hfit hc
  · intro hf
    obtain ⟨-, -, -, hc⟩ := h.step hfit hf
    exact hc

/-- Where the records fit, the send path works exactly if every record with which data are to be
sent is a Prepare_To_Receive with flush. -/
theorem along_correct_iff (h : st.Begins) {evs : List (ConvRecord × SendEnv)}
    (hfit : Along step Fits st evs) :
    Along step Correct st evs ↔ ∀ ev ∈ evs, Flushes ev.1 := by
  suffices hw : ∀ {st : Traffic}, st.Whole → Along step Fits st evs →
      (Along step Correct st evs ↔ ∀ ev ∈ evs, Flushes ev.1) from hw h.whole hfit
  clear h hfit
  induction evs with
  | nil => exact fun _ _ => ⟨fun _ _ hm => absurd hm (List.not_mem_nil), fun _ => trivial⟩
  | cons ev evs ih =>
    intro st h hfit
    rw [Along, correct_iff h hfit.1, List.forall_mem_cons]
    apply and_congr_right
    intro hf
    obtain ⟨st', hstep, hw, -⟩ := h.step hfit.1 hf
    have hnext := ih hw (hfit.2 st' hstep)
    exact ⟨fun ha => hnext.mp (ha st' hstep), fun hall u hu =>
      Option.some.inj (hstep.symm.trans hu) ▸ hnext.mpr hall⟩

/-- A conversation of a new session, with 99 bytes in a BTU -/
def opening : Traffic := ⟨opened .fsp, { rcb.txMaxBtu := 99 }, [], []⟩

theorem opening_begins : opening.Begins := ⟨rfl, rfl, rfl, rfl⟩

/-- There is memory, and the data link has a header of 17 bytes. -/
def plainEnv : SendEnv := ⟨some 0, 17, .taken 0⟩

/-- An Attach, a record of three bytes, and one with which they are to be sent. -/
def greeting (type : CtrlType) (h : type ∈ sendingTypes) : List (ConvRecord × SendEnv) :=
  [(.attach [4, 5, 2, 0xFF], plainEnv), (.data [0, 3, 0xC1], plainEnv), (.control type h, plainEnv)]

theorem greeting_fits (type : CtrlType) (h : type ∈ sendingTypes) :
    Along step Fits opening (greeting type h) := by
  refine ⟨⟨rfl, by decide, _, rfl, by decide⟩, fun _ h1 => ?_⟩
  cases h1
  refine ⟨⟨by decide, by decide, fun _ => rfl⟩, fun _ h2 => ?_⟩
  cases h2
  exact ⟨⟨_, rfl, by decide⟩, fun _ _ => trivial⟩

theorem along_correct_iff_greeting :
    let evs := greeting .prepareToRcvFlush (by decide)
    Along step Correct opening evs ↔ ∀ ev ∈ evs, Flushes ev.1 :=
  along_correct_iff opening_begins (greeting_fits _ _)

/-- After a Flush the Attach and the data still wait; and with more data than a buffer has room
for, the kernel stops. -/
theorem greeting_waits :
    ¬ (∀ st : Traffic, st.Begins → ∀ evs, Along step Fits st evs → Along step Correct st evs) ∧
      (run step opening (greeting .recFlush (by decide))).map
        (fun st => (st.given, st.hsData, st.rcbData)) =
          some ([], [4, 5, 2, 0xFF], [0, 3, 0xC1]) ∧
      (opening.step (.data (List.replicate 110 0), plainEnv)).isNone := by
  refine ⟨fun h => ?_, by decide, by decide⟩
  have hfits := greeting_fits .recFlush (by decide)
  have hc := h opening opening_begins _ hfits
  exact not_correct (by decide) ((hfits.2 _ rfl).2 _ rfl).1 ((hc.2 _ rfl).2 _ rfl).1

end LinuxSna.Dfc.Traffic
