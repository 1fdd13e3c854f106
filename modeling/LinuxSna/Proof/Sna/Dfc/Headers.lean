import LinuxSna.Proof.Sna.Dfc.Reachable
import LinuxSna.Proof.Sna.Dfc.SendPath

/-!
# What is sent against the format checks

The headers that `sna_dfc_send_fmd_mu` builds are those that
`sna_dfc_format_error_req_fmd` accepts, unless a Deallocate has left its mark on the MU; and
one of the rules of the check, that on BBI and QRI, is not the one that it should be.

* `formatErrorReqFmd_eq`: the check as a table of rules;
* `agreement_iff`: the requests for which the rule on BBI and QRI does what it should;
* `Built`: what is true of every MU that is filled;
* `passes_iff`: the MUs that are accepted when they are sent;
* `accepts_iff`: the sequences of records for which all MUs are.
-/

namespace LinuxSna.Dfc

open Framework (Along)
open Hs (HsType Mu Skb)
open Ps (CtrlType PsMu)

/-! ## The rules of the check -/

/-- A rule: whether it is broken, and the sense code then. -/
abbrev Rule := Bool × UInt32

/-- The sense code of the first rule that is broken -/
def firstSense (rules : List Rule) : Option UInt32 := (rules.find? (·.1)).map (·.2)

theorem firstSense_cons (r : Rule) (rules : List Rule) :
    firstSense (r :: rules) = if r.1 then some r.2 else firstSense rules := by
  unfold firstSense
  rw [List.find?_cons]
  cases r.1 <;> rfl

theorem firstSense_of_none {rules rest : List Rule} (h : ∀ r ∈ rules, r.1 = false) :
    firstSense (rules ++ rest) = firstSense rest := by
  induction rules with
  | nil => rfl
  | cons r rules ih =>
    have hr := h r List.mem_cons_self
    rw [List.cons_append, firstSense_cons, hr, if_neg nofun]
    exact ih fun r' hr' => h r' (List.mem_cons_of_mem r hr')

/-- The rules that come before the one on BBI and QRI. -/
def rulesBefore (s : Skb) : List Rule :=
  let rh := rhOf s.toMu
  [(s.efi = .exp, 0x40110000),
   (rh.rqd = false ∧ rh.rqe = false, 0x40140000),
   (rh.rqd ∧ s.eci = false, 0x40070000),
   (s.bbi ∧ s.bci = false, 0x40030000),
   (s.bbi ∧ s.ru = .fmd ∧ ¬ (s.fi ∧ s.fmhType = fmhType5), 0x40003000),
   (s.csi, 0x40100000),
   (s.ebi, 0x40040000),
   (s.cdi ∧ s.eci = false, 0x40090000),
   (s.cdi ∧ rh.rqd1, 0x40090000),
   (s.cebi ∧ s.eci = false, 0x40040000)]

/-- The rule on BBI and QRI, as the code has it -/
def bciRule (s : Skb) : Rule :=
  (s.bci ∧ (s.bbi ∧ s.qri = false ∨ s.bbi ∨ s.qri), 0x40180000)

/-- The rules that come after it. -/
def rulesAfter (type : HsType) (s : Skb) : List Rule :=
  let rh := rhOf s.toMu
  let fmh := s.fi ∧ s.ru = .fmd ∧ s.fmhType ≠ fmhType5 ∧ s.fmhType ≠ fmhType7
  [(s.cebi ∧ s.cdi, 0x40090000),
   (s.cebi ∧ (rh.rqe2 ∨ rh.rqe3), 0x40040000),
   (s.cebi = false ∧ s.cdi = false ∧ s.eci ∧ rh.rqe, 0x40190000),
   (s.fi ∧ s.cebi = false ∧ rh.rqd1, 0x40190000),
   (s.bbi ∧ s.cebi ∧ rh.rqe1 ∧ type = .fsp, 0x40040000),
   (fmh ∧ s.fmhType ≠ fmhType12, 0x10084001),
   (fmh ∧ s.fmhType = fmhType12 ∧ s.eci ∧ s.cebi = false, 0x080F6051)]

theorem fmhSense (p q r : Prop) [Decidable p] [Decidable q] [Decidable r] (a b : UInt32) :
    (if p then if q then if r then some a else none else some b else none) =
      if p ∧ ¬ q then some b else if p ∧ q ∧ r then some a else none := by
  by_cases hp : p <;> by_cases hq : q <;> by_cases hr : r <;> simp [hp, hq, hr]

/-- The check reports the first rule that is broken. -/
theorem formatErrorReqFmd_eq (type : HsType) (s : Skb) :
    formatErrorReqFmd type s = firstSense (rulesBefore s ++ bciRule s :: rulesAfter type s) := by
  unfold formatErrorReqFmd rulesBefore bciRule rulesAfter
  simp only [List.cons_append, List.nil_append, firstSense_cons, decide_eq_true_eq]
  rw [fmhSense]
  rfl

/-- No other rule is broken. -/
def OnlyBci (type : HsType) (s : Skb) : Prop :=
  ∀ r ∈ rulesBefore s ++ rulesAfter type s, r.1 = false

instance (type : HsType) (s : Skb) : Decidable (OnlyBci type s) :=
  List.decidableBAll (fun r : Rule => r.1 = false) (rulesBefore s ++ rulesAfter type s)

/-- A request that begins a chain and breaks no other rule is accepted if its BBI and QRI agree,
and refused for them if they differ. -/
def Agreement (type : HsType) (s : Skb) : Prop :=
  s.bci = true → OnlyBci type s →
    (s.bbi = s.qri → formatErrorReqFmd type s = none) ∧
      (s.bbi ≠ s.qri → formatErrorReqFmd type s = some 0x40180000)

/-- The one rule decides about a request that breaks no other. -/
theorem formatErrorReqFmd_of_onlyBci {type : HsType} {s : Skb} (h : OnlyBci type s) :
    formatErrorReqFmd type s = if (bciRule s).1 then some 0x40180000 else none := by
  have hbefore := fun r hr => h r (List.mem_append_left _ hr)
  have hafter := fun r hr => h r (List.mem_append_right _ hr)
  rw [formatErrorReqFmd_eq, firstSense_of_none hbefore, firstSense_cons]
  rw [← List.append_nil (rulesAfter type s), firstSense_of_none hafter]
  rfl

/-- The rule does what it should unless BBI and QRI are both set. -/
theorem agreement_iff (type : HsType) (s : Skb) :
    Agreement type s ↔
      ¬ (s.bci = true ∧ OnlyBci type s ∧ s.bbi = true ∧ s.qri = true) := by
  constructor
  · rintro h ⟨hbci, honly, hbbi, hqri⟩
    have hnone := (h hbci honly).1 (hbbi.trans hqri.symm)
    rw [formatErrorReqFmd_of_onlyBci honly, bciRule, hbci, hbbi, hqri] at hnone
    cases hnone
  · intro h hbci honly
    rw [formatErrorReqFmd_of_onlyBci honly, bciRule, hbci]
    cases hbbi : s.bbi <;> cases hqri : s.qri
    · exact ⟨fun _ => rfl, fun hne => absurd rfl hne⟩
    · exact ⟨fun heq => (by cases heq), fun _ => rfl⟩
    · exact ⟨fun heq => (by cases heq), fun _ => rfl⟩
    · exact absurd ⟨hbci, honly, hbbi, hqri⟩ h

/-! ## What is built -/

/-- What no record sets in an MU. -/
structure Built (m : Mu) : Prop where
  fmd : IsFmd m
  bbi : m.bbi = false
  ebi : m.ebi = false
  csi : m.csi = false
  qri : m.qri = false

theorem built_newMu : Built newMu := ⟨isFmd_newMu, rfl, rfl, rfl, rfl⟩

theorem Built.setRh {m : Mu} (h : Built m) (chain : ChainSendState) (r : PsToHs) :
    Built (setRh chain r m) := by
  refine ⟨h.fmd.setRh chain r, ?_, ?_, ?_, ?_⟩ <;> unfold Dfc.setRh setType
  · split <;> exact h.bbi
  · split <;> exact h.ebi
  · split <;> exact h.csi
  · split <;> exact h.qri

theorem Built.put {b b' : SendMu} {bytes : List UInt8} (h : Built b.mu)
    (hb : b.put bytes = some b') : Built b'.mu := by
  have hf := h.fmd.put hb
  unfold SendMu.put at hb
  split_ifs at hb
  cases hb
  exact ⟨hf, h.2, h.3, h.4, h.5⟩

/-- A partner that gets the MU accepts it, whatever comes after it in memory. -/
def Passes (m : Mu) : Prop :=
  ∀ type (s : Skb), s.toMu = m → s.pushed = false → formatErrorReqFmd type s = none

/-- The bytes begin with an FMH-5 or FMH-7. -/
def BeginsWithFmh (bytes : List UInt8) : Prop :=
  ∃ b, bytes[1]? = some b ∧ (b % 0x80 = fmhType5 ∨ b % 0x80 = fmhType7)

/-- The MU is flushed as a Prepare_To_Receive. -/
structure Flushed (m : Mu) : Prop where
  built : Built m
  dr1i : m.dr1i = true
  dr2i : m.dr2i = false
  rti : m.rti = true
  eci : m.eci = true
  cdi : m.cdi = true

/-- What is left of the check of an MU that is flushed. -/
theorem Flushed.formatErrorReqFmd_eq {s : Skb} (h : Flushed s.toMu) (type : HsType) :
    formatErrorReqFmd type s =
      if s.cebi then some 0x40090000
      else if s.fi ∧ s.fmhType ≠ fmhType5 ∧ s.fmhType ≠ fmhType7 then
        if s.fmhType = fmhType12 then some 0x080F6051 else some 0x10084001
      else none := by
  unfold formatErrorReqFmd
  simp only [Rh.rqd, Rh.rqe, Rh.rqd1, Rh.rqd2, Rh.rqd3, Rh.rqe1, Rh.rqe2, Rh.rqe3, rhOf, h.dr1i,
    h.dr2i, h.rti, h.eci, h.cdi, h.built.fmd.efi, h.built.fmd.ru, h.built.bbi, h.built.ebi,
    h.built.csi, h.built.qri]
  cases hc : s.cebi <;> simp

/-- The second byte of an RU that has one -/
theorem fmhType_of_getElem? {s : Skb} {b : UInt8} (hp : s.pushed = false)
    (h : s.data[1]? = some b) : s.fmhType = b % 0x80 := by
  obtain ⟨hlt, -⟩ := List.getElem?_eq_some_iff.mp h
  rw [Skb.fmhType, Skb.byte, hp, if_neg nofun, List.nil_append, List.getD_eq_getElem?_getD,
    List.getElem?_append_left hlt, h, Option.getD_some]

/-- An MU that is flushed is accepted if no Deallocate has marked it, and if it begins with the
FMH that it is said to have. -/
theorem passes_iff {m : Mu} (h : Flushed m) :
    Passes m ↔ m.cebi = false ∧ (m.fi = true → BeginsWithFmh m.data) := by
  constructor
  · intro hp
    have hs := hp .fsp { m with beyond := [], addr := 0 } rfl rfl
    rw [Flushed.formatErrorReqFmd_eq (s := { m with beyond := [], addr := 0 }) h] at hs
    split_ifs at hs with hc hf
    refine ⟨Bool.eq_false_iff.mpr hc, fun hfi => ?_⟩
    have htype : Skb.fmhType { m with beyond := [], addr := 0 } = fmhType5 ∨
        Skb.fmhType { m with beyond := [], addr := 0 } = fmhType7 := by
      by_contra hn
      exact hf ⟨hfi, not_or.mp hn⟩
    cases hb : m.data[1]? with
    | some b =>
      rw [fmhType_of_getElem? rfl (s := { m with beyond := [], addr := 0 }) hb] at htype
      exact ⟨b, hb, htype⟩
    | none =>
      have hzero : Skb.fmhType { m with beyond := [], addr := 0 } = 0 := by
        rw [Skb.fmhType, Skb.byte, if_neg nofun, List.nil_append, List.append_nil,
          List.getD_eq_getElem?_getD, hb]
        rfl
      rw [hzero] at htype
      exact absurd htype (by decide)
  · rintro ⟨hc, hf⟩ type s rfl hp
    rw [Flushed.formatErrorReqFmd_eq h, hc, if_neg nofun, if_neg]
    rintro ⟨hfi, h5, h7⟩
    obtain ⟨b, hb, htype⟩ := hf hfi
    rw [fmhType_of_getElem? hp hb] at h5 h7
    exact htype.elim h5 h7

/-! ## A sequence of records -/

namespace Traffic

variable {st st' : Traffic} {e : SendEnv} {ev : ConvRecord × SendEnv}

/-- The two buffers hold what records have put into them. -/
structure Held (st : Traffic) : Prop where
  hs : ∀ b, st.sender.sendMu = some b → Built b.mu
  rcb : ∀ mu, st.c.rcb.sendMu = some mu → mu.type = .recSendData

/-- A partner accepts the MUs that are sent because of a record. -/
def Accepted (st : Traffic) (ev : ConvRecord × SendEnv) : Prop :=
  ∀ st', st.step ev = some st' → ∀ m ∈ st'.given.drop st.given.length, Passes m

/-- Where the record that flushes can, no Deallocate waits, and what waits begins with an FMH if
it is marked so. -/
def Unmarked (st : Traffic) (ev : ConvRecord × SendEnv) : Prop :=
  ∀ h, ev.1 = .control .prepareToRcvFlush h → ∀ b, st.target ev.2 = some b →
    st.rcbData.length ≤ b.room →
      b.mu.cebi = false ∧ (b.mu.fi = true → BeginsWithFmh (st.hsData ++ st.rcbData))

theorem Held.target (h : st.Held) {b : SendMu} (hb : st.target e = some b) : Built b.mu := by
  unfold Traffic.target at hb
  cases hs : st.sender.sendMu with
  | some b' =>
    rw [hs] at hb
    cases hb
    exact h.hs b hs
  | none =>
    rw [hs] at hb
    obtain ⟨slack, -, rfl⟩ := Option.map_eq_some_iff.mp (show createAndInitMu _ e = some b from hb)
    exact built_newMu

/-- A record that does not flush gives nothing to transmission control. -/
theorem Held.txData {r : PsToHs} (h : st.Held) (ht : r.type ≠ .prepareToRcvFlush)
    (hst : st.txData r e = some st') : st'.Held ∧ st'.given = st.given := by
  unfold Traffic.txData sendFmdMu at hst
  obtain ⟨d, hd, rfl⟩ := Option.map_eq_some_iff.mp hst
  cases hb : st.sender.sendMu <|> createAndInitMu st.c.rcb.txMaxBtu e with
  | none =>
    rw [hb] at hd
    cases hd
    exact ⟨⟨h.hs, h.rcb⟩, List.append_nil _⟩
  | some b =>
    rw [hb] at hd
    obtain ⟨b', hput, hd⟩ := Option.bind_eq_some_iff.mp hd
    rw [if_neg ht] at hd
    cases hd
    have hbuilt := (h.target hb).setRh st.sender.hs.dfc.chainSendState r
    refine ⟨⟨fun b'' hb'' => ?_, h.rcb⟩, List.append_nil _⟩
    cases hb''
    exact Built.put (b := { b with mu := _ }) hbuilt hput

/-- What the buffer management hands on waits. -/
theorem Held.txMu {l : List Ps.ToHs} (hl : ∀ o ∈ l, Ps.IsData o) (h : st.Held)
    (hst : l.foldlM (Traffic.txMu e) st = some st') : st'.Held ∧ st'.given = st.given := by
  induction l generalizing st with
  | nil =>
    cases hst
    exact ⟨h, rfl⟩
  | cons o l ih =>
    rw [List.foldlM_cons] at hst
    obtain ⟨mu, rfl, htype⟩ := hl o List.mem_cons_self
    obtain ⟨u, hu, hst⟩ := Option.bind_eq_some_iff.mp hst
    have hne : (PsToHs.ofMu mu).type ≠ .prepareToRcvFlush := by
      rw [PsToHs.ofMu, htype]
      exact nofun
    obtain ⟨hheld, hgiven⟩ := h.txData hne hu
    obtain ⟨hheld', hgiven'⟩ := ih (fun o ho => hl o (List.mem_cons_of_mem _ ho)) hheld hst
    exact ⟨hheld', hgiven'.trans hgiven⟩

theorem Held.data {bytes : List UInt8} (h : st.Held) (hst : st.step (.data bytes, e) = some st') :
    st'.Held ∧ st'.given = st.given := by
  obtain ⟨r, hr, hst⟩ := Option.bind_eq_some_iff.mp hst
  obtain ⟨hrcb, l, hl, hdata⟩ := Ps.sendDataBufferManagement_data h.rcb hr
  rw [hl, List.drop_left] at hst
  have hmoved : Traffic.Held { st with c := r.2, passed := st.passed ++ bytes } := ⟨h.hs, hrcb⟩
  obtain ⟨hheld, hgiven⟩ := hmoved.txMu hdata hst
  exact ⟨hheld, hgiven⟩

/-- The MU that is sent is a Prepare_To_Receive with what waits. -/
theorem Held.flushedMu (h : st.Held) {b : SendMu} (hb : st.target e = some b) :
    Flushed (st.flushedMu ⟨.prepareToRcvFlush, false, []⟩ b) := by
  obtain ⟨⟨hefi, hrri, hru⟩, hbbi, hebi, hcsi, hqri⟩ :=
    (h.target hb).setRh st.sender.hs.dfc.chainSendState ⟨.prepareToRcvFlush, false, []⟩
  exact ⟨⟨⟨hefi, hrri, hru⟩, hbbi, hebi, hcsi, hqri⟩, rfl, rfl, rfl, rfl, rfl⟩

/-- A record that flushes sends one MU, if there is memory for it; and with too much in
`rcb->send_mu` the kernel stops. -/
theorem Held.flush (h : st.Held) {hs : CtrlType.prepareToRcvFlush ∈ sendingTypes}
    (hst : st.step (.control .prepareToRcvFlush hs, e) = some st') :
    st'.Held ∧
      (st.target e = none ∧ st'.given = st.given ∨
        ∃ b, st.target e = some b ∧ st.rcbData.length ≤ b.room ∧
          st'.given = st.given ++ [st.flushedMu ⟨.prepareToRcvFlush, false, []⟩ b]) := by
  cases hb : st.target e with
  | none =>
    obtain ⟨d, hd, rfl⟩ := Option.map_eq_some_iff.mp hst
    unfold sendFmdMu at hd
    rw [show (st.sender.sendMu <|> createAndInitMu st.c.rcb.txMaxBtu e) = none from hb] at hd
    cases hd
    exact ⟨⟨h.hs, h.rcb⟩, .inl ⟨rfl, List.append_nil _⟩⟩
  | some b =>
    by_cases hroom : st.rcbData.length ≤ b.room
    · obtain ⟨t, hstep, hsent⟩ := txData_flush (r := ⟨.prepareToRcvFlush, false, []⟩) rfl hb
        (by rw [List.length_nil]; omega)
      obtain rfl := Option.some.inj (hstep.symm.trans hst)
      refine ⟨⟨fun b' hb' => ?_, fun mu hmu => ?_⟩, .inr ⟨b, rfl, hroom, rfl⟩⟩
      · rw [show t.sendMu = some b' from hb'] at hsent
        cases hsent
      · cases hmu
    · obtain ⟨d, hd, rfl⟩ := Option.map_eq_some_iff.mp hst
      unfold sendFmdMu flushMu at hd
      rw [show (st.sender.sendMu <|> createAndInitMu st.c.rcb.txMaxBtu e) = some b from hb] at hd
      obtain ⟨b', hput, hd⟩ := Option.bind_eq_some_iff.mp hd
      rw [if_pos rfl] at hd
      obtain ⟨b'', hput', -⟩ := Option.map_eq_some_iff.mp hd
      unfold SendMu.put at hput hput'
      split_ifs at hput hput' with _ hroom'
      cases hput
      exact absurd hroom' hroom

/-- The buffers hold what records have put into them, after any record. -/
theorem Held.step (h : st.Held) (hst : st.step ev = some st') :
    st'.Held ∧ ((∀ hs, ev.1 ≠ .control .prepareToRcvFlush hs) → st'.given = st.given) := by
  obtain ⟨r, e⟩ := ev
  cases r with
  | attach fmh5 =>
    have hmoved : Traffic.Held { st with passed := st.passed ++ fmh5 } := ⟨h.hs, h.rcb⟩
    obtain ⟨hheld, hgiven⟩ :=
      hmoved.txData (show CtrlType.recAllocate ≠ .prepareToRcvFlush by decide) hst
    exact ⟨hheld, fun _ => hgiven⟩
  | data bytes =>
    obtain ⟨hheld, hgiven⟩ := h.data hst
    exact ⟨hheld, fun _ => hgiven⟩
  | control type hs =>
    by_cases ht : type = .prepareToRcvFlush
    · subst ht
      exact ⟨(h.flush hst).1, fun hne => absurd rfl (hne hs)⟩
    · obtain ⟨hheld, hgiven⟩ := h.txData (r := ⟨type, false, []⟩) ht hst
      exact ⟨hheld, fun _ => hgiven⟩

theorem Begins.held (h : st.Begins) : st.Held where
  hs b hb := by rw [h.hs] at hb; cases hb
  rcb mu hmu := by rw [h.rcb] at hmu; cases hmu

/-- What is sent because of a record is accepted unless a mark is wrong. -/
theorem accepted_iff (h : st.Held) : st.Accepted ev ↔ st.Unmarked ev := by
  obtain ⟨r, e⟩ := ev
  constructor
  · rintro ha hs rfl b hb hroom
    obtain ⟨t, hstep, -⟩ := txData_flush (r := ⟨.prepareToRcvFlush, false, []⟩) rfl hb
      (by rw [List.length_nil]; omega)
    have hp := ha _ hstep (st.flushedMu ⟨.prepareToRcvFlush, false, []⟩ b) (by simp)
    obtain ⟨hcebi, hfi⟩ := (passes_iff (h.flushedMu hb)).mp hp
    refine ⟨hcebi, fun hmark => ?_⟩
    have hdata : (st.flushedMu ⟨.prepareToRcvFlush, false, []⟩ b).data =
        st.hsData ++ st.rcbData := congrArg (· ++ st.rcbData) (List.append_nil st.hsData)
    rw [← hdata]
    exact hfi ((Bool.or_false _).trans hmark)
  · intro hu st' hst m hm
    by_cases hr : ∃ hs, r = .control .prepareToRcvFlush hs
    · obtain ⟨hs, rfl⟩ := hr
      obtain ⟨-, ⟨-, hgiven⟩ | ⟨b, hb, hroom, hgiven⟩⟩ := h.flush hst
      · rw [hgiven, List.drop_length] at hm
        cases hm
      · rw [hgiven, List.drop_left, List.mem_singleton] at hm
        obtain rfl := hm
        obtain ⟨hcebi, hfi⟩ := hu hs rfl b hb hroom
        refine (passes_iff (h.flushedMu hb)).mpr ⟨hcebi, fun hmark => ?_⟩
        have hdata : (st.flushedMu ⟨.prepareToRcvFlush, false, []⟩ b).data =
            st.hsData ++ st.rcbData := congrArg (· ++ st.rcbData) (List.append_nil st.hsData)
        rw [hdata]
        exact hfi ((Bool.or_false _).symm.trans hmark)
    · rw [(h.step hst).2 fun hs hc => hr ⟨hs, hc⟩, List.drop_length] at hm
      cases hm

end Traffic

/-- The MUs of a sequence of records are all accepted exactly if no mark is wrong when one is
sent; and the rule on BBI and QRI does what it should unless both are set. -/
theorem accepts_iff {st : Traffic} (h : st.Begins) (evs : List (ConvRecord × SendEnv)) :
    (Along Traffic.step Traffic.Accepted st evs ↔ Along Traffic.step Traffic.Unmarked st evs) ∧
      ∀ type s, Agreement type s ↔
        ¬ (s.bci = true ∧ OnlyBci type s ∧ s.bbi = true ∧ s.qri = true) :=
  ⟨Framework.along_iff (I := Traffic.Held) (fun _ _ _ hh _ hst => (hh.step hst).1)
    (fun _ _ hh => Traffic.accepted_iff hh) h.held, agreement_iff⟩

theorem accepts_iff_greeting :
    let evs := Traffic.greeting .prepareToRcvFlush (by decide)
    (Along Traffic.step Traffic.Accepted Traffic.opening evs ↔
        Along Traffic.step Traffic.Unmarked Traffic.opening evs) ∧
      ∀ type s, Agreement type s ↔
        ¬ (s.bci = true ∧ OnlyBci type s ∧ s.bbi = true ∧ s.qri = true) :=
  accepts_iff Traffic.opening_begins (Traffic.greeting .prepareToRcvFlush (by decide))

/-- A Deallocate that waits, and then a Prepare_To_Receive. -/
def endThenTurn : List (ConvRecord × SendEnv) :=
  [(.control .deallocateFlush (by decide), Traffic.plainEnv),
   (.control .prepareToRcvFlush (by decide), Traffic.plainEnv)]

/-- An Attach that begins a bracket, and changes the direction -/
def bracketBegin : Skb :=
  { newMu with
    fi := true, bci := true, eci := true, qri := true, bbi := true, cdi := true
    data := [4, 5, 2, 0xFF], beyond := [], addr := 0 }

/-- The MU with the mark of the Deallocate is refused, and so is the Attach for its BBI and QRI,
which agree. -/
theorem bracketBegin_refused :
    ¬ (∀ st : Traffic, st.Begins → ∀ evs, Along Traffic.step Traffic.Accepted st evs) ∧
      ¬ (∀ type s, Agreement type s) ∧
      formatErrorReqFmd .bidder bracketBegin = some 0x40180000 := by
  refine ⟨fun h => ?_, fun h => ?_, by decide⟩
  · have hc := ((h _ Traffic.opening_begins endThenTurn).2 _ rfl).1 _ rfl _ (List.mem_singleton_self _)
    exact absurd (hc .bidder (Hs.Skb.mk _ [] 0 false) rfl rfl) (by decide)
  · exact absurd ((h .bidder bracketBegin (by decide) (by decide)).1 (by decide)) (by decide)

end LinuxSna.Dfc
