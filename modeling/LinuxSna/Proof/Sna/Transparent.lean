import LinuxSna.Impl.Sna.Pc
import LinuxSna.Proof.Sna.Consumed
import LinuxSna.Proof.Sna.Dfc.SendPath

/-!
# From data flow control to data flow control

An MU of one half-session goes through transmission control and path control, over the link,
and through path control and transmission control again. The receiving side has pulled off
the RH when it counts its bytes: an RU of fewer than four bytes, and a response without an RU,
is too short for it.

* `conforming_given`: what data flow control hands to transmission control;
* `rxMu_of_dfcInput`: the MU that data flow control is given is processed by it;
* `arrives_iff`: the MUs that get there.
-/

namespace LinuxSna.Pc

open Asm (AsmCb Lfsid)
open Dfc (FmdDone PsToHs SendEnv SendMu Sender)
open Hs (Efi HsCb Mpf Mu Rri RuCategory Skb bit flag)
open Sm (Lists)

/-!
## What path control makes of a packet

* `rxMuChkErr_bytes`: an MU with its TH and its RH before it is a packet that path control
  takes, for that MU;
* `lfsidOf_eq`: the address space of an LFSID that is found is found too;
* `step_bindRsp`: a packet with a RSP(BIND) is the event of session activation.
-/

/-! ## Headers -/

/-- The first byte of a TH, bit by bit. -/
theorem bits_th (mpf : Mpf) (odai : Bool) (efi : Efi) :
    let t := 0x20 + mpf.code * 4 + flag odai 2 + flag (efi = .exp) 1
    t / 16 = 0x2 ∧ .ofBits (bit t 3) (bit t 2) = mpf ∧ bit t 1 = odai ∧
      (if bit t 0 then Efi.exp else .norm) = efi := by
  cases mpf <;> cases odai <;> cases efi <;> decide

/-- The first byte of a RH. -/
theorem bits_rh0 (rri : Rri) (ru : RuCategory) (fi sdi bci eci : Bool) :
    let r := flag (rri = .rsp) 0x80 + ru.code * 0x20 + flag fi 0x08 + flag sdi 0x04 +
      flag bci 0x02 + flag eci 0x01
    (if bit r 7 then Rri.rsp else .req) = rri ∧ .ofBits (bit r 6) (bit r 5) = ru ∧
      bit r 3 = fi ∧ bit r 2 = sdi ∧ bit r 1 = bci ∧ bit r 0 = eci := by
  cases rri <;> cases ru <;> cases fi <;> cases sdi <;> cases bci <;> cases eci <;> decide

/-- The second byte of a RH. -/
theorem bits_rh1 (dr1i llci dr2i rti rlwi qri pi : Bool) :
    let r := flag dr1i 0x80 + flag llci 0x40 + flag dr2i 0x20 + flag rti 0x10 + flag rlwi 0x04 +
      flag qri 0x02 + flag pi 0x01
    bit r 7 = dr1i ∧ bit r 6 = llci ∧ bit r 5 = dr2i ∧ bit r 4 = rti ∧ bit r 2 = rlwi ∧
      bit r 1 = qri ∧ bit r 0 = pi := by
  cases dr1i <;> cases llci <;> cases dr2i <;> cases rti <;> cases rlwi <;> cases qri <;> cases pi <;>
    decide

/-- The third byte of a RH. -/
theorem bits_rh2 (bbi ebi cdi csi edi pdi cebi : Bool) :
    let r := flag bbi 0x80 + flag ebi 0x40 + flag cdi 0x20 + flag csi 0x08 + flag edi 0x04 +
      flag pdi 0x02 + flag cebi 0x01
    bit r 7 = bbi ∧ bit r 6 = ebi ∧ bit r 5 = cdi ∧ bit r 3 = csi ∧ bit r 2 = edi ∧
      bit r 1 = pdi ∧ bit r 0 = cebi := by
  cases bbi <;> cases ebi <;> cases cdi <;> cases csi <;> cases edi <;> cases pdi <;> cases cebi <;>
    decide

/-- A sequence number in two bytes. -/
theorem bytes_snf (snf : UInt16) :
    (snf / 256).toUInt8.toUInt16 * 256 + snf.toUInt8.toUInt16 = snf := by
  have h := snf.toNat_lt
  apply UInt16.toNat.inj
  simp only [UInt16.toNat_add, UInt16.toNat_mul, UInt8.toNat_toUInt16, UInt16.toNat_toUInt8,
    UInt16.toNat_div, UInt16.reduceToNat]
  omega

/-- What is sent with its headers is what path control takes. -/
theorem rxMuChkErr_bytes (m : Mu) : rxMuChkErr (m.th ++ m.rhBytes ++ m.data) = some m := by
  obtain ⟨hf, hmpf, hodai, hefi⟩ := bits_th m.mpf m.odai m.efi
  obtain ⟨hrri, hru, hfi, hsdi, hbci, heci⟩ := bits_rh0 m.rri m.ru m.fi m.sdi m.bci m.eci
  obtain ⟨h1, h2, h3, h4, h5, h6, h7⟩ := bits_rh1 m.dr1i m.llci m.dr2i m.rti m.rlwi m.qri m.pi
  obtain ⟨g1, g2, g3, g4, g5, g6, g7⟩ := bits_rh2 m.bbi m.ebi m.cdi m.csi m.edi m.pdi m.cebi
  unfold Mu.th Mu.rhBytes
  simp only [List.cons_append, List.nil_append, rxMuChkErr]
  rw [if_pos hf]
  unfold Mu.ofHeaders
  rw [hmpf, hodai, hefi, bytes_snf, hrri, hru, hfi, hsdi, hbci, heci, h1, h2, h3, h4, h5, h6, h7, g1,
    g2, g3, g4, g5, g6, g7]

/-! ## LFSIDs -/

/-- The comparison that looks for the address space holds for the LFSID itself. -/
theorem getByLfsid_isSome {asmList : List AsmCb} {odai sidh sidl : UInt8} {as : AsmCb} {k : Nat}
    (h : Asm.lfsidGetBySidhl asmList odai sidh sidl = some (as, k)) :
    (Asm.getByLfsid asmList (as.lfsid k)).isSome := by
  induction asmList with
  | nil => exact absurd h nofun
  | cons a asmList ih =>
    rw [Asm.lfsidGetBySidhl] at h
    rw [Asm.getByLfsid, List.find?_isSome] at ih ⊢
    cases hk : a.blkList.findIdx? fun l => l.odai = odai && l.sidh = sidh && l.sidl = sidl with
    | none =>
      rw [hk] at h
      obtain ⟨a', ha', hp⟩ := ih h
      exact ⟨a', List.mem_cons_of_mem a ha', hp⟩
    | some k' =>
      rw [hk] at h
      obtain ⟨rfl, rfl⟩ := Prod.mk.inj (Option.some.inj h)
      obtain ⟨hlt, -, -⟩ := List.findIdx?_eq_some_iff_getElem.mp hk
      have hmem : a.lfsid k' ∈ a.blkList := by
        unfold AsmCb.lfsid
        rw [List.getD_eq_getElem?_getD, List.getElem?_eq_getElem hlt]
        exact List.getElem_mem hlt
      exact ⟨a, List.mem_cons_self, List.any_eq_true.mpr ⟨_, hmem, by simp⟩⟩

/-- The address space is never missing. -/
theorem lfsidOf_eq (l : Lists) (m : Mu) :
    lfsidOf l m =
      (Asm.rxMuMapLfsid l.asmList (if m.odai then 1 else 0) m.daf m.oaf).map fun r =>
        r.1.lfsid r.2 := by
  unfold lfsidOf
  cases h : Asm.rxMuMapLfsid l.asmList (if m.odai then 1 else 0) m.daf m.oaf with
  | none => rfl
  | some r =>
    obtain ⟨a, ha⟩ := Option.isSome_iff_exists.mp (getByLfsid_isSome h)
    rw [Option.bind_some, ha]
    rfl

/-! ## RSP(BIND) -/

/-- What session activation is told of a RSP(BIND) is what the packet says. -/
theorem step_bindRsp (l : Lists) {skb : List UInt8} {m : Mu} {e : RxEnv}
    (hm : rxMuChkErr skb = some m) (hu : m.ru = .sc) (hr : m.rri = .rsp)
    (hb : (e.skb m).byte 0 = ruRcBind) (hc : e.ctrl = true) :
    step l (.received skb e) =
      Sm.step l (.bindRsp (if m.odai then 1 else 0) m.daf m.oaf ⟨m.rti, bindOf (e.skb m)⟩ e.copied) := by
  have hx : rxMu l skb e =
      (lfsidOf l m).elim (some ⟨l, .free⟩) fun lf => route l lf m e := by
    unfold rxMu
    rw [hm, hc]
    dsimp only [Bool.not_true]
    cases lfsidOf l m <;> rfl
  have ha (lf : Lfsid) :
      (asmRx l lf (e.skb m) e.copied).lists =
        (Sm.procBindRsp l lf ⟨m.rti, bindOf (e.skb m)⟩ e.copied).lists := by
    have hr' : (e.skb m).rri = .rsp := hr
    unfold asmRx
    rw [if_pos hb, hr']
    rfl
  unfold step Sm.step
  dsimp only
  rw [hx, lfsidOf_eq]
  cases Asm.rxMuMapLfsid l.asmList (if m.odai then 1 else 0) m.daf m.oaf with
  | none => rfl
  | some r =>
    rw [Option.map_some]
    unfold route
    rw [hu]
    exact congrArg some (ha (r.1.lfsid r.2))

variable {a hs : HsCb} {l : Lists} {m : Mu} {e : RxEnv} {pc : Int}

/-! ## The MUs of data flow control -/

/-- A whole BIU as data flow control hands it to transmission control: a request has an RU,
and a response, which is positive, has none. -/
structure Conforming (m : Mu) : Prop where
  mpf : m.mpf = .wholeBiu
  efi : m.efi = .norm
  ru : m.ru = .fmd ∨ m.ru = .dfc
  sdi : m.sdi = false
  edi : m.edi = false
  request : m.rri = .req → m.data ≠ []
  response : m.rri = .rsp → m.data = [] ∧ m.pi = false ∧ m.qri = false

/-- The headers that no record changes. -/
structure Headed (m : Mu) : Prop where
  mpf : m.mpf = .wholeBiu
  efi : m.efi = .norm
  rri : m.rri = .req
  ru : m.ru = .fmd
  sdi : m.sdi = false
  edi : m.edi = false

theorem headed_newMu : Headed Dfc.newMu := ⟨rfl, rfl, rfl, rfl, rfl, rfl⟩

theorem Headed.setRh (h : Headed m) (chain : Dfc.ChainSendState) (r : PsToHs) :
    Headed (Dfc.setRh chain r m) := by
  unfold Dfc.setRh Dfc.setType
  split <;> exact ⟨h.1, h.2, h.3, h.4, h.5, h.6⟩

theorem Headed.put {b b' : SendMu} {bytes : List UInt8} (h : Headed b.mu)
    (hb : b.put bytes = some b') : Headed b'.mu := by
  unfold SendMu.put at hb
  split_ifs at hb
  cases hb
  exact ⟨h.1, h.2, h.3, h.4, h.5, h.6⟩

theorem Headed.conforming (h : Headed m) (hdata : m.data ≠ []) : Conforming m where
  mpf := h.mpf
  efi := h.efi
  ru := .inl h.ru
  sdi := h.sdi
  edi := h.edi
  request _ := hdata
  response hr := by rw [h.rri] at hr; cases hr

/-- What a record makes data flow control send is a whole BIU with headers of its own. -/
theorem conforming_given {t : Sender} {r : PsToHs} {txMaxBtu : Nat} {rcbSendMu : Option Ps.PsMu}
    {e : SendEnv} {d : FmdDone} (ht : ∀ b, t.sendMu = some b → Headed b.mu)
    (hd : Dfc.sendFmdMu t r txMaxBtu rcbSendMu e = some d) :
    (∀ b, d.sender.sendMu = some b → Headed b.mu) ∧
      ∀ m, d.given = some m → m.data ≠ [] → Conforming m := by
  unfold Dfc.sendFmdMu at hd
  cases hb : t.sendMu <|> Dfc.createAndInitMu txMaxBtu e with
  | none =>
    rw [hb] at hd
    cases hd
    exact ⟨ht, fun m hm => by cases hm⟩
  | some b =>
    have hhead : Headed b.mu := by
      cases hs : t.sendMu with
      | some b' =>
        rw [hs] at hb
        cases hb
        exact ht b hs
      | none =>
        rw [hs] at hb
        obtain ⟨slack, -, rfl⟩ :=
          Option.map_eq_some_iff.mp (show Dfc.createAndInitMu txMaxBtu e = some b from hb)
        exact headed_newMu
    rw [hb] at hd
    obtain ⟨b', hput, hd⟩ := Option.bind_eq_some_iff.mp hd
    have hput' : Headed b'.mu :=
      Headed.put (b := { b with mu := _ }) (hhead.setRh t.hs.dfc.chainSendState r) hput
    split_ifs at hd
    · obtain ⟨b'', hpull, rfl⟩ := Option.map_eq_some_iff.mp hd
      have hpull' := hput'.put hpull
      refine ⟨fun b hb => (by cases hb), fun m hm hdata => ?_⟩
      cases hm
      exact Headed.conforming ⟨hpull'.1, hpull'.2, hpull'.3, hpull'.4, hpull'.5, hpull'.6⟩ hdata
    · cases hd
      exact ⟨fun b hb => by cases hb; exact hput', fun m hm => by cases hm⟩

/-! ## The receiving side -/

/-- The half-session for which a packet makes `sna_dfc_rx` run, and the MU that it is given. -/
def dfcInput (l : Lists) (skb : List UInt8) (e : RxEnv) : Option (HsCb × Mu) :=
  (rxMuChkErr skb).bind fun m =>
    (lfsidOf l m).bind fun lf =>
      if e.ctrl = true ∧ (m.ru = .fmd ∨ m.ru = .dfc) then
        (hsGetByLfsid l lf).bind fun hs =>
          ((hs.tc.rx m e.tc).bind (·.dfc)).map fun biu => (hs, biu)
      else none

/-- What data flow control is given by a packet it processes. -/
theorem rxMu_of_dfcInput {skb : List UInt8} {biu : Mu} (h : dfcInput l skb e = some (hs, biu)) :
    ∃ tc fate,
      let d := Dfc.rx { hs with tc := tc } biu (e.dfc (conversationOf l hs).isSome)
      rxMu l skb e = some
        ⟨d.out.foldl (queueRecord · (conversationOf l hs)) (l.setHs d.hs), fate⟩ := by
  unfold dfcInput at h
  obtain ⟨m, hm, h⟩ := Option.bind_eq_some_iff.mp h
  obtain ⟨lf, hlf, h⟩ := Option.bind_eq_some_iff.mp h
  split_ifs at h with hru
  obtain ⟨hs', hhs, h⟩ := Option.bind_eq_some_iff.mp h
  obtain ⟨biu', hbiu, heq⟩ := Option.map_eq_some_iff.mp h
  obtain ⟨r, hr, hdfc⟩ := Option.bind_eq_some_iff.mp hbiu
  cases heq
  have hroute : rxMu l skb e = hsRx l lf m e := by
    unfold rxMu
    rw [hm]
    dsimp only
    rw [hlf]
    dsimp only
    rw [if_pos hru.1, route]
    obtain hfmd | hd := hru.2
    · rw [hfmd]
    · rw [hd]
  obtain ⟨fate, htc⟩ : ∃ fate, tcRx hs m e (conversationOf l hs).isSome = some
      { Dfc.rx { hs with tc := r.hs } biu (e.dfc (conversationOf l hs).isSome) with
        fate := fate } := by
    unfold tcRx
    rw [hr, Option.map_some]
    dsimp only
    rw [hdfc]
    exact ⟨_, rfl⟩
  refine ⟨r.hs, fate, ?_⟩
  rw [hroute, hsRx, hhs]
  dsimp only
  rw [htc, Option.map_some]

/-- The bytes that `sna_tc_rx_biu_chk` wants of an RU without sense data. The RH is counted, which
has been pulled off. -/
def shortest (m : Mu) : Nat := (if m.ru ≠ .dfc then 1 else 0) + 3

/-- The receive checks that are not about the form of the headers. -/
structure Accepts (tc : Hs) (m : Mu) : Prop where
  le : shortest m ≤ m.data.length
  ge : m.data.length ≤ tc.maxRxRuSize.toNat
  snf : m.rri = .req → m.snf.toNat = tc.sqnRcvCnt.toNat + 1
  plain : m.rri = .req → m.ru = .fmd → tc.crypto = false

theorem biuFormatChk_eq (hru : m.ru = .fmd ∨ m.ru = .dfc) (hsdi : m.sdi = false) :
    Hs.biuFormatChk m = if m.data.length < shortest m then -Hs.einval else 0 := by
  unfold Hs.biuFormatChk shortest
  rw [hsdi, if_neg (by tauto)]
  simp

theorem not_rxBiuChk_iff {tc : Hs} (h : Conforming m) :
    ¬ tc.rxBiuChk m < 0 ↔
      shortest m ≤ m.data.length ∧ (m.rri = .req → m.snf.toNat = tc.sqnRcvCnt.toNat + 1) ∧
        (m.rri = .req → m.ru = .fmd → tc.crypto = false) := by
  have hneg : -Hs.einval < 0 := by decide
  have hpos : 0 < Hs.einval := by decide
  unfold Hs.rxBiuChk Hs.sqnRefused
  rw [biuFormatChk_eq h.ru h.sdi, h.efi, h.edi]
  by_cases hlen : m.data.length < shortest m
  · rw [if_pos hlen, if_pos hneg]
    exact ⟨fun hn => absurd hneg hn, fun hle => absurd hlen (Nat.not_lt.mpr hle.1)⟩
  · rw [if_neg hlen, if_neg (Int.lt_irrefl 0)]
    cases hr : m.rri with
    | rsp => simpa using Nat.not_lt.mp hlen
    | req =>
      by_cases hsnf : m.snf.toNat = tc.sqnRcvCnt.toNat + 1
      · by_cases hcrypto : tc.crypto = true ∧ m.ru = .fmd
        · simp [hsnf, hcrypto, hpos]
        · have hplain : m.ru = .fmd → tc.crypto = false := fun hfmd =>
            Bool.eq_false_iff.mpr fun hc => hcrypto ⟨hc, hfmd⟩
          simpa [hsnf, hcrypto, Nat.not_lt.mp hlen] using hplain
      · simp [hsnf, hpos]

/-- What transmission control gives to data flow control of a conforming MU. -/
theorem rx_dfc (tc : Hs) (h : Conforming m) (e : Hs.RxEnv) :
    (Accepts tc m → (tc.rx m e).bind (·.dfc) = some m) ∧
      (¬ Accepts tc m → (tc.rx m e).bind (·.dfc) = none) := by
  have hchk : ¬ tc.rxSegmentChk m < 0 := by
    unfold Hs.rxSegmentChk
    rw [h.mpf]
    simp
  have hrsp : ¬ m.isPacingRsp = true := by
    unfold Mu.isPacingRsp
    cases hr : m.rri with
    | req => simp
    | rsp => simp [(h.response hr).2.1]
  have henc : ¬ Hs.isEncrypted m = true := by simp [Hs.isEncrypted, h.edi]
  by_cases hlong : m.data.length > tc.maxRxRuSize.toNat
  · have hb : m.mpf ≠ .bbiu := by rw [h.mpf]; nofun
    rw [rx_norm hchk h.efi, paced_of_ne hb, Hs.segment, if_pos hlong]
    exact ⟨fun ha => absurd ha.ge (Nat.not_le.mpr hlong), fun _ => rfl⟩
  · rw [rx_whole hchk h.efi (Nat.not_lt.mp hlong) h.mpf, Option.bind_some]
    unfold Hs.rxBiu
    by_cases hbiu : tc.rxBiuChk m < 0
    · rw [if_pos hbiu]
      refine ⟨fun ha => absurd hbiu ((not_rxBiuChk_iff h).mpr ⟨ha.le, ha.snf, ha.plain⟩), fun _ => rfl⟩
    · obtain ⟨hle, hsnf, hplain⟩ := (not_rxBiuChk_iff h).mp hbiu
      rw [if_neg hbiu, if_neg hrsp, if_neg henc]
      exact ⟨fun _ => rfl, fun hn => absurd ⟨hle, Nat.not_lt.mp hlong, hsnf, hplain⟩ hn⟩

/-! ## The whole way -/

/-- With credit: nothing waits for pacing, and a pacing response is not needed first. -/
structure Credit (tc : Hs) : Prop where
  queue : tc.writeQueue.mus = []
  credit : tc.txPacing.type ≠ .none → 0 < tc.txPacing.credit

/-- The LFSID of the one half-session is, with the address turned round, that of the other. -/
def Linked (a : HsCb) (l : Lists) (hs : HsCb) : Prop :=
  ∃ as k,
    Asm.rxMuMapLfsid l.asmList (if bit a.lfsid.odai 0 then 1 else 0) a.lfsid.sidl a.lfsid.sidh =
      some (as, k) ∧
    hsGetByLfsid l (as.lfsid k) = some hs

/-- The MUs are the same but for the address of the session and the bits of pacing. -/
def SameMu (m m' : Mu) : Prop :=
  { m' with odai := m.odai, daf := m.daf, oaf := m.oaf, pi := m.pi, rlwi := m.rlwi } = m

/-- Path control sends the MU, and what it sends makes the other side give the MU to data flow
control. -/
def Arrives (a : HsCb) (m : Mu) (pc : Int) (l : Lists) (hs : HsCb) (e : RxEnv) : Prop :=
  ∃ sent biu, (a.tc.sendMu m (some pc)).mus = [sent] ∧
    dfcInput l (txMu sent a.lfsid) e = some (hs, biu) ∧ SameMu m biu

/-- The sending side gives it to path control unless it would have to be enciphered. -/
theorem sendMu_conforming (h : Conforming m) {tc : Hs} (hc : Credit tc) (pc : Int) :
    (tc.sendMu m (some pc)).mus =
      if m.rri = .req ∧ tc.crypto = true ∧ m.ru = .fmd then [] else [m] := by
  have hto (tc : Hs) : (tc.sendToPc m (some pc)).mus = [m] := by
    unfold Hs.sendToPc
    dsimp only
    rw [if_neg]
    rintro ⟨hm, -⟩
    rw [h.mpf] at hm
    cases hm
  unfold Hs.sendMu
  rw [dif_pos h.efi]
  cases hr : m.rri with
  | req =>
    dsimp only
    by_cases hcrypto : tc.crypto = true ∧ m.ru = .fmd
    · rw [if_pos hcrypto, if_pos ⟨rfl, hcrypto⟩]
    · have hqueue : ¬ (tc.txPacing.type ≠ .none ∧
          (tc.writeQueue.mus ≠ [] ∨ m.mpf = .bbiu ∧ tc.txPacing.credit = 0)) := by
        rintro ⟨-, hq | ⟨hm, -⟩⟩
        · exact hq hc.queue
        · rw [h.mpf] at hm
          cases hm
      rw [if_neg hcrypto, if_neg hqueue, hto, if_neg fun hh => hcrypto hh.2]
  | rsp =>
    dsimp only
    rw [if_pos (.inr (.inr (h.response hr).2.2)), hto, if_neg]
    rintro ⟨hrr, -⟩
    cases hrr

theorem Conforming.addressed (h : Conforming m) (lf : Lfsid) : Conforming (txMuMapLfsid m lf) :=
  ⟨h.1, h.2, h.3, h.4, h.5, h.6, h.7⟩

/-- What path control sends to the other side is given to transmission control there. -/
theorem dfcInput_txMu (h : Conforming m) (hl : Linked a l hs) (hctrl : e.ctrl = true) :
    dfcInput l (txMu m a.lfsid) e =
      ((hs.tc.rx (txMuMapLfsid m a.lfsid) e.tc).bind (·.dfc)).map fun biu => (hs, biu) := by
  obtain ⟨as, k, hmap, hhs⟩ := hl
  have hlf : lfsidOf l (txMuMapLfsid m a.lfsid) = some (as.lfsid k) := by
    rw [lfsidOf_eq]
    exact congrArg (Option.map fun r => r.1.lfsid r.2) hmap
  unfold dfcInput txMu
  dsimp only
  rw [rxMuChkErr_bytes, Option.bind_some, hlf, Option.bind_some,
    if_pos ⟨hctrl, (h.addressed a.lfsid).ru⟩, hhs, Option.bind_some]

/-- The number after one of 16 bits, as integers. -/
theorem snf_iff {n c : UInt16} (h : n = c + 1) : n.toNat = c.toNat + 1 ↔ c ≠ 0xFFFF := by
  subst h
  have hlt := c.toNat_lt
  rw [UInt16.toNat_add, ← UInt16.toNat_inj.ne]
  simp only [UInt16.reduceToNat]
  omega

/-- What the receiving side takes of conforming MUs, in the order of their numbers. -/
theorem accepts_addressed (h : Conforming m) (lf : Lfsid)
    (hsnf : m.rri = .req → m.snf = hs.tc.sqnRcvCnt + 1) :
    Accepts hs.tc (txMuMapLfsid m lf) ↔
      m.rri = .req ∧ shortest m ≤ m.data.length ∧ m.data.length ≤ hs.tc.maxRxRuSize.toNat ∧
        hs.tc.sqnRcvCnt ≠ 0xFFFF ∧ (m.ru = .fmd → hs.tc.crypto = false) := by
  constructor
  · rintro ⟨hle, hge, hnum, hplain⟩
    cases hr : m.rri with
    | req => exact ⟨rfl, hle, hge, (snf_iff (hsnf hr)).mp (hnum hr), hplain hr⟩
    | rsp =>
      have hthree : 3 ≤ shortest m := Nat.le_add_left 3 _
      rw [show (txMuMapLfsid m lf).data = [] from (h.response hr).1] at hle
      exact absurd (hthree.trans hle) (by decide)
  · rintro ⟨hr, hle, hge, hnum, hplain⟩
    exact ⟨hle, hge, fun _ => (snf_iff (hsnf hr)).mpr hnum, fun _ => hplain⟩

/-- A conforming MU gets to data flow control exactly if it is a request whose RU is neither
shorter than the four bytes that the check counts, nor longer than the receiving side takes; and
its number has 16 bits, and nothing would have to be enciphered. -/
theorem arrives_iff (h : Conforming m) (hc : Credit a.tc) (hl : Linked a l hs)
    (hctrl : e.ctrl = true) (hsnf : m.rri = .req → m.snf = hs.tc.sqnRcvCnt + 1) :
    Arrives a m pc l hs e ↔
      m.rri = .req ∧ shortest m ≤ m.data.length ∧ m.data.length ≤ hs.tc.maxRxRuSize.toNat ∧
        hs.tc.sqnRcvCnt ≠ 0xFFFF ∧
        (m.ru = .fmd → a.tc.crypto = false ∧ hs.tc.crypto = false) := by
  have hacc := accepts_addressed h a.lfsid hsnf
  obtain ⟨hyes, hno⟩ := rx_dfc hs.tc (h.addressed a.lfsid) e.tc
  unfold Arrives
  rw [sendMu_conforming h hc]
  constructor
  · rintro ⟨sent, biu, hsent, hdfc, -⟩
    split_ifs at hsent with hcrypto
    obtain rfl := List.singleton_inj.mp hsent
    rw [dfcInput_txMu h hl hctrl] at hdfc
    have ha : Accepts hs.tc (txMuMapLfsid m a.lfsid) := by
      by_contra hn
      rw [hno hn] at hdfc
      cases hdfc
    obtain ⟨hr, hle, hge, hnum, hplain⟩ := hacc.mp ha
    exact ⟨hr, hle, hge, hnum, fun hfmd =>
      ⟨Bool.eq_false_iff.mpr fun hk => hcrypto ⟨hr, hk, hfmd⟩, hplain hfmd⟩⟩
  · rintro ⟨hr, hle, hge, hnum, hplain⟩
    have ha := hacc.mpr ⟨hr, hle, hge, hnum, fun hfmd => (hplain hfmd).2⟩
    refine ⟨m, txMuMapLfsid m a.lfsid, if_neg ?_, ?_, rfl⟩
    · rintro ⟨-, hk, hfmd⟩
      rw [(hplain hfmd).1] at hk
      cases hk
    · rw [dfcInput_txMu h hl hctrl, hyes ha]
      rfl

/-- The other side of a new session -/
def otherSide : Lists :=
  { Sm.oneProgram with
    hsList := [(Dfc.opened .bidder).hs], asmList := [⟨1, 0, 1, [⟨true, 1, 0, 1, 1⟩]⟩] }

/-- The first request of the session, with an RU -/
def firstRequest (data : List UInt8) : Mu := { Dfc.newMu with snf := 1, data := data }

/-- A positive response -/
def firstRsp : Mu :=
  { Dfc.newMu with snf := 1, rri := .rsp, bci := true, eci := true, rti := false }

theorem conforming_firstRequest {data : List UInt8} (h : data ≠ []) :
    Conforming (firstRequest data) :=
  ⟨rfl, rfl, .inl rfl, rfl, rfl, fun _ => h, nofun⟩

theorem credit_opened : Credit (Dfc.opened .fsp).hs.tc := ⟨rfl, fun h => absurd rfl h⟩

theorem linked_opened : Linked (Dfc.opened .fsp).hs otherSide (Dfc.opened .bidder).hs :=
  ⟨⟨1, 0, 1, [⟨true, 1, 0, 1, 1⟩]⟩, 0, rfl, rfl⟩

theorem arrives_iff_fourBytes :
    let m := firstRequest [0, 4, 0xC1, 0xC2]
    let a := (Dfc.opened .fsp).hs
    let hs := (Dfc.opened .bidder).hs
    Arrives a m 0 otherSide hs plentyEnv ↔
      m.rri = .req ∧ shortest m ≤ m.data.length ∧ m.data.length ≤ hs.tc.maxRxRuSize.toNat ∧
        hs.tc.sqnRcvCnt ≠ 0xFFFF ∧
        (m.ru = .fmd → a.tc.crypto = false ∧ hs.tc.crypto = false) :=
  arrives_iff (conforming_firstRequest (by decide)) credit_opened linked_opened rfl fun _ => rfl

/-- A record with one byte of data, and a response, are refused. -/
theorem threeBytes_refused :
    ¬ (∀ a m pc l hs e, Conforming m → Credit a.tc → Linked a l hs → e.ctrl = true →
        (m.rri = .req → m.snf = hs.tc.sqnRcvCnt + 1) →
        m.data.length ≤ hs.tc.maxRxRuSize.toNat → Arrives a m pc l hs e) ∧
      ∀ m ∈ [firstRequest [0, 3, 0xC1], firstRsp],
        (dfcInput otherSide (txMu m (Dfc.opened .fsp).hs.lfsid) plentyEnv).isNone := by
  have hnone : ∀ m ∈ [firstRequest [0, 3, 0xC1], firstRsp],
      (dfcInput otherSide (txMu m (Dfc.opened .fsp).hs.lfsid) plentyEnv).isNone := by decide
  refine ⟨fun h => ?_, hnone⟩
  obtain ⟨sent, biu, hsent, hdfc, -⟩ :=
    h (Dfc.opened .fsp).hs (firstRequest [0, 3, 0xC1]) 0 otherSide (Dfc.opened .bidder).hs plentyEnv
      (conforming_firstRequest (by decide)) credit_opened linked_opened rfl (fun _ => rfl) (by decide)
  obtain rfl := List.singleton_inj.mp hsent
  have hrefused := hnone _ List.mem_cons_self
  rw [hdfc] at hrefused
  cases hrefused

end LinuxSna.Pc
