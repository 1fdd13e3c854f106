import LinuxSna.Framework.Words
import LinuxSna.Proof.Sna.Dfc.Enforcement
import LinuxSna.Proof.Sna.Dfc.Reachable

/-!
# Responses and their requests

A response is put into the headers of a new request, before what is in the buffer: the flow,
the category and the other bits of the request are lost, its data are not, and its number
is the next one of the sender. The other half-session knows of no request that it waits for a
response to, so that it takes every response to FMD for a stray one.

* `sendRspMuOf_given`: what is given to transmission control;
* `corresponds_iff`: when it goes with the request;
* `not_acceptedBy`: no half-session accepts it.

The two checks of the sense data of negative responses compare the address of the data with the codes that
they allow, so what the response holds makes no difference to them.

* `formatErrorNormRsp_eq`: what the format check records for a negative response;
* `invalidSenseCode_iff`: the state check allows a set of addresses;
* `sense_checked_iff`: when both decide as the sense data demand.
-/

namespace LinuxSna.Dfc

open Framework (value)
open Hs (HsCb HsType Mu Skb)

/-! ## The response and its request -/

section Correlation

variable {hs : HsCb} {s s' : Skb} {alloc expedite negative : Bool} {sense : UInt32} {tx : TxPath}
  {d : Done} {m : Mu}

/-- What the RU of a response holds: the sense data of a negative one, and the request code if
the request is not of FMD. -/
def rspData (req : Skb) (negative : Bool) (sense : UInt32) : List UInt8 :=
  (if negative then senseBytes sense else []) ++ if req.ru = .fmd then [] else req.data.take 1

/-- The response goes with the request: it is on the same flow and has the same number, category,
form of response and QRI, and its RU holds nothing else. -/
structure Corresponds (req : Skb) (negative : Bool) (sense : UInt32) (m : Mu) : Prop where
  rri : m.rri = .rsp
  efi : m.efi = req.efi
  snf : m.snf = req.snf
  ru : m.ru = req.ru
  dr1i : m.dr1i = req.dr1i
  dr2i : m.dr2i = req.dr2i
  qri : m.qri = req.qri
  data : m.data = rspData req negative sense

/-- `sna_dfc_rx` finds the response in the buffer neither malformed nor stray. -/
def AcceptedBy (hs : HsCb) (s : Skb) : Prop :=
  (checked hs s).dfc.sense = 0 ∧ isStray (checked hs s).dfc s = false

/-- The MU that `sna_tc_send_mu` is given -/
theorem sendRspMuOf_given
    (h : sendRspMuOf hs (some s) alloc expedite negative sense tx = some (d, some m)) :
    m = { (rspMuOf s negative sense).toMu with snf := hs.tc.sqnTxCnt + 1 } := by
  unfold sendRspMuOf at h
  dsimp only at h
  split_ifs at h
  · exact (Option.some.inj (Prod.mk.inj (Option.some.inj h)).2).symm
  · exact nomatch (Prod.mk.inj (Option.some.inj h)).2

/-- Without the buffer of the request, no response is made. -/
theorem sendRspMuOf_none :
    sendRspMuOf hs none alloc expedite negative sense tx ≠ some (d, some m) := by
  unfold sendRspMuOf
  dsimp only
  split_ifs
  · exact nofun
  · exact fun h => nomatch (Prod.mk.inj (Option.some.inj h)).2

/-- The headers of a response are the same for every request. -/
theorem rspMuOf_headers (s : Skb) (negative : Bool) (sense : UInt32) :
    let r := rspMuOf s negative sense
    r.rri = .rsp ∧ r.efi = .norm ∧ r.ru = .fmd ∧ r.dr1i = true ∧ r.dr2i = false ∧ r.qri = false ∧
      r.data = s.data ++ if negative then senseBytes sense else [] := by
  cases negative with
  | true => exact ⟨rfl, rfl, rfl, rfl, rfl, rfl, rfl⟩
  | false => exact ⟨rfl, rfl, rfl, rfl, rfl, rfl, (List.append_nil _).symm⟩

/-- The response goes with a request of FMD on the normal flow, without data and QRI and with
the form of response 1, that has the number which is next. -/
theorem corresponds_iff
    (h : sendRspMuOf hs (some s) alloc expedite negative sense tx = some (d, some m)) :
    Corresponds s negative sense m ↔
      s.efi = .norm ∧ s.snf = hs.tc.sqnTxCnt + 1 ∧ s.ru = .fmd ∧ s.dr1i = true ∧ s.dr2i = false ∧
        s.qri = false ∧ s.data = [] := by
  obtain ⟨hr, he, hu, h₁, h₂, hq, hd⟩ := rspMuOf_headers s negative sense
  rw [sendRspMuOf_given h]
  have hdata (hf : s.ru = .fmd) :
      (rspMuOf s negative sense).data = rspData s negative sense ↔ s.data = [] := by
    rw [hd, rspData, if_pos hf, List.append_nil]
    exact List.append_left_eq_self
  constructor
  · rintro ⟨-, he', hs', hu', h₁', h₂', hq', hd'⟩
    have hf : s.ru = .fmd := hu'.symm.trans hu
    exact ⟨he'.symm.trans he, hs'.symm, hf, h₁'.symm.trans h₁, h₂'.symm.trans h₂,
      hq'.symm.trans hq, (hdata hf).mp hd'⟩
  · rintro ⟨he', hs', hu', h₁', h₂', hq', hd'⟩
    exact ⟨hr, he.trans he'.symm, hs'.symm, hu.trans hu'.symm, h₁.trans h₁'.symm,
      h₂.trans h₂'.symm, hq.trans hq'.symm, (hdata hu').mpr hd'⟩

/-- A response to FMD is stray wherever no response is waited for. -/
theorem isStray_of_fmd {d : DfcState} (hd : d.sigRqOutstanding = false) (hu : s.ru = .fmd) :
    isStray d s = true := by
  unfold isStray
  rw [hd, hu]
  simp only [Bool.and_false, Bool.false_and, Bool.false_or, Bool.not_false, Bool.true_or,
    Bool.and_true, decide_true, Bool.or_true]

/-- No half-session accepts a response. -/
theorem not_acceptedBy {t : Sender} (ht : t.Reachable)
    (h : sendRspMuOf hs (some s) alloc expedite negative sense tx = some (d, some m))
    (hm : s'.toMu = m) : ¬ AcceptedBy t.hs s' := by
  rintro ⟨-, hy⟩
  have hu : s'.ru = .fmd := by
    show s'.toMu.ru = .fmd
    rw [hm, sendRspMuOf_given h]
    exact (rspMuOf_headers s negative sense).2.2.1
  exact nomatch hy.symm.trans (isStray_of_fmd (ht.tame.dfc.checked s').sig hu)

/-- A response that goes with its request and is accepted by the other half-session: none is,
whatever the request, with its buffer or without. What of it goes with the request is
known. -/
theorem response_not_correlated {t : Sender} (ht : t.Reachable) (hs : HsCb) (req : Option Skb)
    (alloc expedite negative : Bool) (sense : UInt32) (tx : TxPath) (d : Done) (m : Mu)
    (h : sendRspMuOf hs req alloc expedite negative sense tx = some (d, some m)) :
    ∃ s, req = some s ∧
      (Corresponds s negative sense m ↔
        s.efi = .norm ∧ s.snf = hs.tc.sqnTxCnt + 1 ∧ s.ru = .fmd ∧ s.dr1i = true ∧
          s.dr2i = false ∧ s.qri = false ∧ s.data = []) ∧
      ∀ s' : Skb, s'.toMu = m → ¬ (Corresponds s negative sense m ∧ AcceptedBy t.hs s') := by
  cases req with
  | none => exact absurd h sendRspMuOf_none
  | some s =>
    exact ⟨s, rfl, corresponds_iff h, fun s' hm hc => not_acceptedBy ht h hm hc.2⟩

/-- The response to the end of a chain, as it is sent first. -/
def answerMu : Mu := { (rspMu chainEnd).toMu with snf := 1 }

theorem response_not_correlated_chainEnd :
    ¬ (Corresponds chainEnd false 0 answerMu ∧
      AcceptedBy (opened .fsp).hs { answerMu with beyond := [], addr := 0 }) := by
  obtain ⟨s, hs, -, h⟩ := response_not_correlated (opened_reachable .fsp) (opened .bidder).hs
    (some chainEnd) true true false 0 (.taken 0) _ _ rfl
  cases hs
  exact h _ rfl

/-- A chain of one element, which asks for a definite response -/
def element : Skb := { chainEnd with bci := true }

/-- The response to it -/
def elementRsp : Mu := { (rspMu element).toMu with snf := 1 }

/-- A half-session that has just been initialised answers the element: the response has the data of
the request, and whatever half-session sent that takes it for stray. -/
theorem elementRsp_not_correlated :
    ¬ (∀ (t : Sender), t.Reachable → ∀ hs s alloc expedite negative sense tx d m,
        sendRspMuOf hs (some s) alloc expedite negative sense tx = some (d, some m) →
          ∀ s' : Skb, s'.toMu = m → Corresponds s negative sense m ∧ AcceptedBy t.hs s') ∧
      (rxSkb (opened .bidder).hs element plentyEnv).out =
        [.ps (.mu ⟨[0, 3, 0xC1], .notEndOfData, false, by decide⟩), .pc elementRsp] ∧
      elementRsp.data = element.data ∧
      ∀ t : Sender, t.Reachable →
        isStray (checked t.hs { elementRsp with beyond := [], addr := 0 }).dfc
          { elementRsp with beyond := [], addr := 0 } = true := by
  refine ⟨fun h => ?_, by decide, rfl, fun t ht => isStray_of_fmd (ht.tame.dfc.checked _).sig rfl⟩
  have hc := h (opened .fsp) (opened_reachable .fsp) (opened .bidder).hs element true false false 0
    (.taken 0) _ elementRsp rfl { elementRsp with beyond := [], addr := 0 } rfl
  exact nomatch hc.1.data

end Correlation

/-! ## Sense data -/

section SenseData

variable {d : DfcState} {type : HsType} {s : Skb}

/-- The first 4 bytes of the RU -/
def senseData (s : Skb) : UInt32 := .ofNat (value (s.data.take 4).reverse)

/-- The header of a negative response is valid. -/
def HeaderValid (s : Skb) : Prop := s.bci ∧ s.eci ∧ s.sdi ∧ (s.ru = .dfc → s.fi)

instance (s : Skb) : Decidable (HeaderValid s) := inferInstanceAs (Decidable (_ ∧ _))

/-- The sense codes that are allowed for what is owed; `none` if there is no restriction -/
def allowedCodes (d : DfcState) (type : HsType) : Option (List UInt32) :=
  match d.bbRspState, type with
  | .posOwed, .fsp => some [0x08460000, 0x088B0000]
  | .posOwed, .bidder => some [0x08130000, 0x08140000]
  | .negOwed, _ => some (if d.rtrRspState = .negOwed then [0x08190000] else [])
  | .reset, _ => none

def AllowedSense (d : DfcState) (type : HsType) (code : UInt32) : Prop :=
  ∀ codes ∈ allowedCodes d type, code ∈ codes

instance (d : DfcState) (type : HsType) (code : UInt32) : Decidable (AllowedSense d type code) :=
  inferInstanceAs (Decidable (∀ codes ∈ allowedCodes d type, code ∈ codes))

/-- The checks decide by the sense data: the format check accepts a valid header with one of the
codes and records another one, and the state check accepts what is allowed. -/
structure SenseChecked (d : DfcState) (type : HsType) (s : Skb) : Prop where
  accepted : formatErrorNormRsp s = none ↔ HeaderValid s ∧ senseData s ∈ normRspSense
  recorded : HeaderValid s → senseData s ∉ normRspSense → formatErrorNormRsp s = some (senseData s)
  allowed : invalidSenseCode d type s = false ↔ AllowedSense d type (senseData s)

/-- The address of the data passes for the sense data. -/
structure AddressSuits (d : DfcState) (type : HsType) (s : Skb) : Prop where
  format : HeaderValid s →
    s.addr = senseData s ∨ s.addr ∈ normRspSense ∧ senseData s ∈ normRspSense
  state : AllowedSense d type s.addr ↔ AllowedSense d type (senseData s)

theorem formatErrorNormRsp_eq (hn : s.rti) (hv : HeaderValid s) :
    formatErrorNormRsp s = if s.addr ∈ normRspSense then none else some s.addr := by
  obtain ⟨hb, he, hs, hf⟩ := hv
  unfold formatErrorNormRsp
  rw [if_neg (by simp [hb, he]), if_neg (by simp [hs, hn])]
  rw [if_neg (by rintro ⟨hr, hc⟩; simp [hf hr] at hc), if_neg (by simp [hn])]
  split_ifs with h₁ h₂ h₂
  · exact absurd h₂ h₁.2
  · rfl
  · rfl
  · exact absurd ⟨hn, h₂⟩ h₁

/-- A header that is not valid is an error. -/
theorem formatErrorNormRsp_ne_none (hn : s.rti) (hv : ¬ HeaderValid s) :
    formatErrorNormRsp s ≠ none := by
  unfold formatErrorNormRsp
  split_ifs with hb hs hr
  · exact nofun
  · exact nofun
  · exact nofun
  · exact nofun
  · exact nofun
  · exfalso
    apply hv
    simp only [not_or, Bool.not_eq_false] at hb
    refine ⟨hb.1, hb.2, ?_, fun h => ?_⟩
    · rw [not_not.mp hs, hn]
    · by_contra hf
      exact hr ⟨h, Bool.eq_false_iff.mpr hf⟩

theorem invalidSenseCode_iff : invalidSenseCode d type s = false ↔ AllowedSense d type s.addr := by
  unfold invalidSenseCode AllowedSense allowedCodes
  cases d.bbRspState with
  | reset => simp
  | posOwed => cases type <;> simp [or_iff_not_imp_left]
  | negOwed =>
    dsimp only
    split_ifs with h <;> simp

/-- The checks decide by the sense data exactly if the address suits. -/
theorem sense_checked_iff (hn : s.rti) : SenseChecked d type s ↔ AddressSuits d type s := by
  constructor
  · rintro ⟨ha, hr, hs⟩
    refine ⟨fun hv => ?_, invalidSenseCode_iff.symm.trans hs⟩
    rw [formatErrorNormRsp_eq hn hv] at ha hr
    by_cases hm : senseData s ∈ normRspSense
    · have h := ha.mpr ⟨hv, hm⟩
      split_ifs at h with hi
      exact .inr ⟨hi, hm⟩
    · have h := hr hv hm
      split_ifs at h
      exact .inl (Option.some.inj h)
  · rintro ⟨hf, hs⟩
    by_cases hv : HeaderValid s
    · have heq := formatErrorNormRsp_eq hn hv
      refine ⟨?_, fun _ hm => ?_, invalidSenseCode_iff.trans hs⟩
      · rw [heq, and_iff_right hv]
        rcases hf hv with h | ⟨h₁, h₂⟩
        · rw [h]
          split_ifs with hi <;> simp [hi]
        · rw [if_pos h₁]
          exact iff_of_true rfl h₂
      · have h := (hf hv).resolve_right fun h => hm h.2
        rw [heq, h, if_neg hm]
    · refine ⟨?_, fun h => absurd h hv, invalidSenseCode_iff.trans hs⟩
      exact iff_of_false (formatErrorNormRsp_ne_none hn hv) fun h => hv h.1

/-- A negative response `08 46 00 00`, with its data at `addr` -/
def negativeRsp (addr : UInt32) : Skb :=
  { newMu with
    rri := .rsp, rti := true, sdi := true, bci := true, eci := true, snf := 1
    data := [0x08, 0x46, 0, 0], beyond := [], addr := addr }

theorem sense_checked_at_code :
    SenseChecked (opened .bidder).hs.dfc .bidder (negativeRsp 0x08460000) :=
  (sense_checked_iff rfl).mpr ⟨fun _ => .inl (by decide), Iff.rfl⟩

/-- The response is taken for one with its address, and so for another one at another address. -/
theorem negativeRsp_refused :
    ¬ (∀ (d : DfcState) (type : HsType) (s : Skb), s.rri = .rsp → s.efi = .norm → s.rti →
        4 ≤ s.data.length → SenseChecked d type s) ∧
      formatErrorNormRsp (negativeRsp 0xC1234560) = some 0xC1234560 ∧
      formatErrorNormRsp (negativeRsp 0xC1234680) = some 0xC1234680 := by
  refine ⟨fun h => ?_, by decide, by decide⟩
  have ha := (h (opened .bidder).hs.dfc .bidder (negativeRsp 0xC1234560) rfl rfl rfl
    (by decide)).accepted
  exact absurd (ha.mpr (by decide)) (by decide)

end SenseData

end LinuxSna.Dfc
