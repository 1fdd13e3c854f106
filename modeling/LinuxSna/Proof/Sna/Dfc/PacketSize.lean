import LinuxSna.Proof.Sna.Dfc.Headers

/-!
# The size of packets

The limit of a link is the size that the buffers are asked for, at both levels: `rcb->send_mu` is
filled up to it with data, and `hs->send_mu`, whose headers and whose reserve for the data link come
off it, is filled as far as the buffer goes, which is as far as the memory goes that the kernel has
given beyond what it was asked for. Then both are sent in one packet.

* `txData_txMaxBtu`, `sendDataBufferManagement_txMaxBtu`: the limit stays what it is;
* `out_given`: what comes to path control is what data flow control has given, by its length;
* `inLimit_iff`, `along_inLimit_iff`: the packets are within the limit exactly if what waits is, with
  the headers, whenever it is flushed;
* `along_hasRoom`: it always is if the kernel gives no more than the data link reserves.
-/

namespace LinuxSna.Dfc

open Framework (Along before_invariant loop_last run)
open Hs (Mu)
open Ps (CtrlType PsMu)

/-! ## Packets -/

/-- The length of an MU on a link, with its TH and RH -/
def packetLen (m : Mu) : Nat := (m.th ++ m.rhBytes ++ m.data).length

theorem packetLen_eq (m : Mu) : packetLen m = headersLen + m.data.length := by
  simp [packetLen, Mu.th, Mu.rhBytes, headersLen]
  omega

theorem sendToPc_data {tc : Hs} {m m' : Mu} {pc : Option Int} (h : m' ∈ (tc.sendToPc m pc).mus) :
    m'.data = m.data := by
  unfold Hs.sendToPc at h
  split at h
  · cases h
  · split at h
    · rw [List.mem_singleton.mp h, Hs.sendPacing]
      split <;> rfl
    · rw [List.mem_singleton.mp h]

theorem sendMu_data {tc : Hs} {m m' : Mu} {pc : Option Int} (h : m' ∈ (tc.sendMu m pc).mus) :
    m'.data = m.data := by
  unfold Hs.sendMu at h
  split at h
  · split at h
    · split_ifs at h
      · cases h
      · cases h
      · exact sendToPc_data h
    · split_ifs at h
      · exact sendToPc_data h
      · cases h
  · exact sendToPc_data h

/-- What comes to path control at once is as long as what transmission control has been given. -/
theorem out_given {t : Sender} {r : PsToHs} {txMaxBtu : Nat} {rcbSendMu : Option PsMu} {e : SendEnv}
    {d : FmdDone} (h : sendFmdMu t r txMaxBtu rcbSendMu e = some d) {m : Mu} (hm : .pc m ∈ d.out) :
    ∃ m' ∈ d.given, packetLen m = packetLen m' := by
  unfold sendFmdMu at h
  split at h
  · cases h
    cases hm
  · obtain ⟨b, -, h⟩ := Option.bind_eq_some_iff.mp h
    split_ifs at h
    · obtain ⟨b', -, rfl⟩ := Option.map_eq_some_iff.mp h
      refine ⟨_, rfl, ?_⟩
      obtain ⟨m', hm', he⟩ := List.mem_map.mp (show .pc m ∈ List.map Out.pc _ from hm)
      cases he
      rw [packetLen_eq, packetLen_eq, sendMu_data hm']
      rfl
    · cases h
      cases hm

/-! ## The limit is kept -/

theorem takeMu_txMaxBtu (t : Ps.Filling) :
    (Ps.takeMu t).2.rcb.txMaxBtu = t.c.rcb.txMaxBtu := by
  have halloc := Ps.createAndInitLimitedMu_snd t.c
  unfold Ps.takeMu
  split
  · rfl
  · split
    · rename_i c hc
      rw [hc] at halloc
      subst halloc
      rfl
    · rename_i mu c hc
      rw [hc] at halloc
      subst halloc
      rfl

theorem fillPass_txMaxBtu (t : Ps.Filling) :
    (∀ u, Ps.fillPass false t = .inl u → u.c.rcb.txMaxBtu = t.c.rcb.txMaxBtu) ∧
      ∀ r, Ps.fillPass false t = .inr r → r.2.rcb.txMaxBtu = t.c.rcb.txMaxBtu := by
  have htake := takeMu_txMaxBtu t
  have hfill (mu : PsMu) (u : Ps.Filling) :
      (Ps.fillMu mu u).c.rcb.txMaxBtu = u.c.rcb.txMaxBtu := by
    unfold Ps.fillMu
    split <;> rfl
  unfold Ps.fillPass
  split
  · rename_i c hc
    rw [hc] at htake
    exact ⟨fun _ h => (by cases h), fun _ h => by cases h; exact htake⟩
  · rename_i mu u c hc
    have hu := (Ps.takeMu_some hc).2.1
    dsimp only
    split
    · exact ⟨fun _ h => (by cases h; exact (hfill mu u).trans hu), fun _ h => by cases h⟩
    · exact ⟨fun _ h => (by cases h), fun _ h => by cases h; exact (hfill mu u).trans hu⟩

theorem sendDataBufferManagement_txMaxBtu {c : Ps.Conversation} {data : List UInt8}
    {r : Bool × Ps.Conversation} (h : Ps.sendDataBufferManagement c data false = some r) :
    r.2.rcb.txMaxBtu = c.rcb.txMaxBtu := by
  obtain ⟨k, t, hk, ht⟩ := loop_last h
  rw [(fillPass_txMaxBtu t).2 r ht]
  exact before_invariant (I := fun t => t.c.rcb.txMaxBtu = c.rcb.txMaxBtu)
    (fun t u ht hu => ((fillPass_txMaxBtu t).1 u hu).trans ht) rfl hk

namespace Traffic

variable {st st' : Traffic} {e : SendEnv} {ev : ConvRecord × SendEnv}

theorem txData_txMaxBtu {r : PsToHs} (h : st.txData r e = some st') :
    st'.c.rcb.txMaxBtu = st.c.rcb.txMaxBtu := by
  obtain ⟨d, -, rfl⟩ := Option.map_eq_some_iff.mp h
  rfl

/-! ## A sequence of records -/

/-- The packets that are sent because of a record have at most so many bytes. -/
def InLimit (max : Nat) (st : Traffic) (ev : ConvRecord × SendEnv) : Prop :=
  ∀ st', st.step ev = some st' → ∀ m ∈ st'.given.drop st.given.length, packetLen m ≤ max

/-- Where the record that flushes can, what waits in both buffers has, with the headers, at most so
many bytes. -/
def HasRoom (max : Nat) (st : Traffic) (ev : ConvRecord × SendEnv) : Prop :=
  ∀ h, ev.1 = .control .prepareToRcvFlush h → ∀ b, st.target ev.2 = some b →
    st.rcbData.length ≤ b.room → headersLen + (st.hsData.length + st.rcbData.length) ≤ max

theorem packetLen_flushedMu (st : Traffic) (b : SendMu) :
    packetLen (st.flushedMu ⟨.prepareToRcvFlush, false, []⟩ b) =
      headersLen + (st.hsData.length + st.rcbData.length) := by
  have hdata : (st.flushedMu ⟨.prepareToRcvFlush, false, []⟩ b).data = st.hsData ++ [] ++ st.rcbData :=
    rfl
  rw [packetLen_eq, hdata, List.append_nil, List.length_append]

theorem inLimit_iff (max : Nat) (h : st.Held) : st.InLimit max ev ↔ st.HasRoom max ev := by
  obtain ⟨r, e⟩ := ev
  constructor
  · rintro hl hs rfl b hb hroom
    obtain ⟨t, hstep, -⟩ := txData_flush (r := ⟨.prepareToRcvFlush, false, []⟩) rfl hb
      (by rw [List.length_nil]; omega)
    rw [← packetLen_flushedMu st b]
    exact hl _ hstep _ (by simp)
  · intro hr st' hst m hm
    by_cases hf : ∃ hs, r = .control .prepareToRcvFlush hs
    · obtain ⟨hs, rfl⟩ := hf
      obtain ⟨-, ⟨-, hgiven⟩ | ⟨b, hb, hroom, hgiven⟩⟩ := h.flush hst
      · rw [hgiven, List.drop_length] at hm
        cases hm
      · rw [hgiven, List.drop_left, List.mem_singleton] at hm
        rw [hm, packetLen_flushedMu]
        exact hr hs rfl b hb hroom
    · rw [(h.step hst).2 fun hs hc => hf ⟨hs, hc⟩, List.drop_length] at hm
      cases hm

/-- Over every sequence of records, the packets that are sent are within the limit exactly if what
waits has room in it whenever it is flushed; and what comes to path control is as long as what data
flow control has given. -/
theorem along_inLimit_iff (h : st.Held) (evs : List (ConvRecord × SendEnv)) :
    (Along step (InLimit st.c.rcb.txMaxBtu) st evs ↔ Along step (HasRoom st.c.rcb.txMaxBtu) st evs) ∧
      ∀ t r txMaxBtu rcbSendMu e d, sendFmdMu t r txMaxBtu rcbSendMu e = some d →
        ∀ m, .pc m ∈ d.out → ∃ m' ∈ d.given, packetLen m = packetLen m' :=
  ⟨Framework.along_iff (I := Traffic.Held) (fun _ _ _ hh _ hst => (hh.step hst).1)
    (fun _ _ hh => inLimit_iff _ hh) h, fun _ _ _ _ _ _ hd _ hm => out_given hd hm⟩

/-! ## Memory -/

/-- The kernel gives no more beyond what it is asked for than the data link reserves. -/
def Tight (ev : ConvRecord × SendEnv) : Prop :=
  ∀ slack, ev.2.alloc = some slack → slack ≤ ev.2.reserve

/-- The buffer of the half-session has no more room than there is in the limit. -/
structure Roomy (max : Nat) (st : Traffic) : Prop where
  txMaxBtu : st.c.rcb.txMaxBtu = max
  hs : ∀ b, st.sender.sendMu = some b → headersLen + b.mu.data.length + b.room ≤ max

variable {max : Nat}

theorem Roomy.target (h : st.Roomy max) (hmax : headersLen ≤ max)
    (he : ∀ slack, e.alloc = some slack → slack ≤ e.reserve) {b : SendMu}
    (hb : st.target e = some b) : headersLen + b.mu.data.length + b.room ≤ max := by
  unfold Traffic.target at hb
  cases hs : st.sender.sendMu with
  | some b' =>
    rw [hs] at hb
    cases hb
    exact h.hs b hs
  | none =>
    rw [hs] at hb
    obtain ⟨slack, hslack, rfl⟩ := Option.map_eq_some_iff.mp (show createAndInitMu _ e = some b from hb)
    have hle := he slack hslack
    show headersLen + 0 + (st.c.rcb.txMaxBtu + slack - (e.reserve + headersLen)) ≤ max
    rw [h.txMaxBtu]
    omega

theorem put_room {b b' : SendMu} {bytes : List UInt8} (h : b.put bytes = some b') :
    b'.mu.data.length + b'.room = b.mu.data.length + b.room := by
  unfold SendMu.put at h
  split_ifs at h with hroom
  cases h
  show (b.mu.data ++ bytes).length + (b.room - bytes.length) = _
  rw [List.length_append]
  omega

theorem Roomy.txData {r : PsToHs} (h : st.Roomy max) (hmax : headersLen ≤ max)
    (he : ∀ slack, e.alloc = some slack → slack ≤ e.reserve) (hst : st.txData r e = some st') :
    st'.Roomy max := by
  refine ⟨(txData_txMaxBtu hst).trans h.txMaxBtu, ?_⟩
  unfold Traffic.txData sendFmdMu at hst
  obtain ⟨d, hd, rfl⟩ := Option.map_eq_some_iff.mp hst
  cases hb : st.sender.sendMu <|> createAndInitMu st.c.rcb.txMaxBtu e with
  | none =>
    rw [hb] at hd
    cases hd
    exact h.hs
  | some b =>
    rw [hb] at hd
    obtain ⟨b', hput, hd⟩ := Option.bind_eq_some_iff.mp hd
    split_ifs at hd
    · obtain ⟨b'', -, rfl⟩ := Option.map_eq_some_iff.mp hd
      exact fun _ hb'' => by cases hb''
    · cases hd
      intro b'' hb''
      cases hb''
      have htarget := h.target hmax he hb
      have hroom : b'.mu.data.length + b'.room = b.mu.data.length + b.room := by
        rw [put_room hput, setRh_data]
      omega

theorem Roomy.txMu {l : List Ps.ToHs} (h : st.Roomy max) (hmax : headersLen ≤ max)
    (he : ∀ slack, e.alloc = some slack → slack ≤ e.reserve)
    (hst : l.foldlM (Traffic.txMu e) st = some st') : st'.Roomy max := by
  induction l generalizing st with
  | nil =>
    cases hst
    exact h
  | cons o l ih =>
    rw [List.foldlM_cons] at hst
    obtain ⟨u, hu, hst⟩ := Option.bind_eq_some_iff.mp hst
    refine ih ?_ hst
    cases o with
    | data mu =>
      cases mu with
      | none => cases hu
      | some mu => exact h.txData hmax he hu
    | req mu =>
      cases hu
      exact h

theorem Roomy.step (h : st.Roomy max) (hmax : headersLen ≤ max) (he : Tight ev)
    (hst : st.step ev = some st') : st'.Roomy max := by
  obtain ⟨r, e⟩ := ev
  cases r with
  | attach fmh5 =>
    have hmoved : Roomy max { st with passed := st.passed ++ fmh5 } := ⟨h.txMaxBtu, h.hs⟩
    exact hmoved.txData hmax he hst
  | data bytes =>
    obtain ⟨r, hr, hst⟩ := Option.bind_eq_some_iff.mp hst
    have hmoved : Roomy max { st with c := r.2, passed := st.passed ++ bytes } :=
      ⟨(sendDataBufferManagement_txMaxBtu hr).trans h.txMaxBtu, h.hs⟩
    exact hmoved.txMu hmax he hst
  | control type hs => exact h.txData hmax he hst

/-- Where the kernel gives no more than the data link reserves, no packet exceeds the limit: a record
that does not fit stops the kernel. -/
theorem along_hasRoom (h : st.Begins) (hmax : headersLen ≤ st.c.rcb.txMaxBtu)
    {evs : List (ConvRecord × SendEnv)} (he : ∀ ev ∈ evs, Tight ev) :
    Along step (HasRoom st.c.rcb.txMaxBtu) st evs := by
  have hbegin : st.Roomy st.c.rcb.txMaxBtu := ⟨rfl, fun b hb => by rw [h.hs] at hb; cases hb⟩
  refine Framework.along_of_invariant (I := Roomy st.c.rcb.txMaxBtu) (G := fun _ ev => Tight ev)
    (fun _ _ _ hh ht hst => hh.step hmax ht hst) (fun s ev hh ht => ?_) hbegin ?_
  · intro _ _ b hb hroom
    have htarget := hh.target hmax ht hb
    rw [target_data hb] at htarget
    omega
  · clear hbegin h hmax
    generalize st = s
    induction evs generalizing s with
    | nil => trivial
    | cons ev evs ih =>
      rw [List.forall_mem_cons] at he
      exact ⟨he.1, fun s' _ => ih he.2 s'⟩

/-- A conversation of a new session, with 265 bytes in a BTU -/
def opening265 : Traffic := ⟨opened .fsp, { rcb.txMaxBtu := 265 }, [], []⟩

/-- The kernel rounds the buffer up to 288 bytes, and the data link has a header of 17. -/
def roundedEnv : SendEnv := ⟨some 23, 17, .taken 0⟩

/-- Data that fill the buffer of the conversation, and the record that flushes them -/
def filled : List (ConvRecord × SendEnv) :=
  [(.data (List.replicate 262 0), roundedEnv),
   (.control .prepareToRcvFlush prepareToRcvFlush_sends, roundedEnv)]

theorem opening265_begins : opening265.Begins := ⟨rfl, rfl, rfl, rfl⟩

theorem along_inLimit_iff_opening265 :
    (Along step (InLimit 265) opening265 filled ↔ Along step (HasRoom 265) opening265 filled) ∧
      ∀ t r txMaxBtu rcbSendMu e d, sendFmdMu t r txMaxBtu rcbSendMu e = some d →
        ∀ m, .pc m ∈ d.out → ∃ m' ∈ d.given, packetLen m = packetLen m' :=
  along_inLimit_iff opening265_begins.held filled

set_option maxRecDepth 4000 in
/-- The packet has six bytes too many. -/
theorem filled_too_long :
    (run step opening265 filled).map (fun st => st.given.map packetLen) = some [271] ∧
      ((opening265.step (.data (List.replicate 262 0), roundedEnv)).bind fun st =>
        sendFmdMu st.sender ⟨.prepareToRcvFlush, false, []⟩ 265 st.c.rcb.sendMu roundedEnv).map
          (fun d => d.out.map fun
            | .pc m => packetLen m
            | _ => 0) = some [271] ∧
      ¬ ∀ st : Traffic, st.Begins → headersLen ≤ st.c.rcb.txMaxBtu →
        ∀ evs, Along step (InLimit st.c.rcb.txMaxBtu) st evs := by
  refine ⟨by decide, by decide, fun h => ?_⟩
  have hall := h opening265 opening265_begins (by decide) filled
  have hin := (hall.2 _ rfl).1 _ rfl
  exact absurd hin (by decide)

end Traffic

end LinuxSna.Dfc
