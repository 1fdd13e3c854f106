import LinuxSna.Impl.Sna.Pc
import LinuxSna.Proof.Sna.Dfc.Buffers
import LinuxSna.Proof.Sna.Sm.Stray
import LinuxSna.Proof.Sna.Tc.Segments

/-!
# Received buffers are consumed

The buffer of a packet on its way from path control to data flow control: each
component says by its own condition when it loses the buffer or frees it twice, and
together these are all the ways in which a buffer does not meet its end once.

* `asmRx_once_iff`: the address space and the session manager;
* `tcRx_once_iff`: transmission control, with data flow control behind it;
* `along_consumes_iff`: any packets, in any order with whatever else happens.
-/

namespace LinuxSna.Pc

open Asm (Lfsid)
open Dfc (Done)
open Framework (Fate Along)
open Framework.Fate
open Hs (HsCb Mu Skb)
open Sm (Lists)

variable {l : Lists} {lf : Lfsid} {m : Mu} {e : RxEnv} {hs : Hs} {truesize : Nat} {alloc : Option Nat}

/-! ## The conditions -/

/-- The copies of the first segment do not fit into the buffer for the whole BIU. -/
def Overruns (hs : Hs) (m : Mu) (truesize : Nat) (alloc : Option Nat) : Prop :=
  ∃ slack, alloc = some slack ∧
    (hs.segmentQueue m truesize).segmentLen.toNat + slack <
      (hs.segments.headD m).data.length * (2 ^ hs.segments.length - 1)

/-- The last segment of a BIU meets a reassembly that stops the kernel, or it is the only
one and there is no memory. -/
def SegmentMislaid (hs : Hs) (m : Mu) (truesize : Nat) (alloc : Option Nat) : Prop :=
  completes hs m truesize = true ∧
    (Overruns hs m truesize alloc ∨ alloc = none ∧ hs.segments = [])

/-- Transmission control refuses the segment or the BIU, would have to decipher it, or
loses it in a reassembly; or data flow control mislays it. -/
def TcMislays (hs : HsCb) (m : Mu) (e : RxEnv) (conversation : Bool) : Prop :=
  hs.tc.rxSegmentChk m < 0 ∨
  m.efi ≠ .norm ∧ Dfc.Mislays hs (e.skb m) (e.dfc conversation) ∨
  m.efi = .norm ∧ m.data.length ≤ hs.tc.maxRxRuSize.toNat ∧
    if m.mpf = .wholeBiu then
      hs.tc.rxBiuChk m < 0 ∨
        m.isPacingRsp = false ∧
          (Hs.isEncrypted m = true ∨ Dfc.Mislays hs (e.skb m) (e.dfc conversation))
    else SegmentMislaid hs.tc m e.truesize e.alloc

/-- The session of the MU has no half-session, or its half-session mislays the buffer. -/
def SessionMislays (l : Lists) (lf : Lfsid) (m : Mu) (e : RxEnv) : Prop :=
  match hsGetByLfsid l lf with
  | none => True
  | some hs => TcMislays hs m e (conversationOf l hs).isSome

/-- A BIND, a RSP(BIND) that correlates with no session, an UNBIND or its response -/
def BindMislays (l : Lists) (lf : Lfsid) (s : Skb) : Prop :=
  s.byte 0 = ruRcBind ∧ (s.rri = .req ∨ l.lulu lf.smIndex.toUInt32 = none) ∨
    s.byte 0 = ruRcUnbind

/-- A packet passes the checks of path control and is mislaid behind them. -/
def Mislays (l : Lists) : Event → Prop
  | .received skb e => ∃ m lf, rxMuChkErr skb = some m ∧ lfsidOf l m = some lf ∧ e.ctrl = true ∧
      match m.ru with
      | .fmd => SessionMislays l lf m e
      | .dfc => SessionMislays l lf m e
      | .sc => BindMislays l lf (e.skb m)
      | .nc => BindMislays l lf (e.skb m)
  | .other _ => False

/-! ## The address space manager -/

theorem asmRx_once_iff (l : Lists) (lf : Lfsid) (s : Skb) (copied : Bool) :
    (asmRx l lf s copied).fate.Once ↔ ¬ BindMislays l lf s := by
  unfold asmRx BindMislays
  by_cases hb : s.byte 0 = ruRcBind
  · have hu : s.byte 0 ≠ ruRcUnbind := by rw [hb]; decide
    rw [if_pos hb, or_iff_left hu, and_iff_right hb]
    cases s.rri with
    | req => exact iff_of_false not_once_dropped (not_not.mpr (.inl rfl))
    | rsp =>
      rw [or_iff_right fun h => by cases h]
      cases hl : l.lulu lf.smIndex.toUInt32 with
      | none =>
        simp only [Sm.procBindRsp, hl]
        exact iff_of_false (fun h => by cases h) (not_not.mpr trivial)
      | some lulu =>
        simp only [Sm.procBindRsp, hl]
        exact iff_of_true rfl fun h => by cases h
  · rw [if_neg hb, or_iff_right fun h => hb h.1]
    by_cases hu : s.byte 0 = ruRcUnbind
    · rw [if_pos hu]
      exact iff_of_false not_once_dropped (not_not.mpr hu)
    · rw [if_neg hu]
      exact iff_of_true once_free hu

/-! ## The segments of a BIU -/

/-- The half-session after `sna_tc_rx_pacing`, if a BIU begins. -/
def paced (hs : Hs) (m : Mu) : Hs := if m.mpf = .bbiu then hs.rxPacingUpdate m else hs

theorem paced_of_ne (h : m.mpf ≠ .bbiu) : paced hs m = hs := if_neg h

theorem paced_max (hs : Hs) (m : Mu) : (paced hs m).maxRxRuSize = hs.maxRxRuSize := by
  unfold paced Hs.rxPacingUpdate
  split_ifs <;> rfl

/-- The pacing leaves the queue of segments alone. -/
theorem segmentQueue_paced (hs : Hs) (m : Mu) (truesize : Nat) :
    ((paced hs m).segmentQueue m truesize).segmentIn = (hs.segmentQueue m truesize).segmentIn ∧
      ((paced hs m).segmentQueue m truesize).segmentLen = (hs.segmentQueue m truesize).segmentLen ∧
      ((paced hs m).segmentQueue m truesize).segments = (hs.segmentQueue m truesize).segments := by
  by_cases hb : m.mpf = .bbiu
  · rw [paced, if_pos hb]
    unfold Hs.rxPacingUpdate Hs.segmentQueue
    cases m.pi <;> cases hc : hs.segmentIn.complete <;> simp [hc]
  · rw [paced_of_ne hb]
    exact ⟨rfl, rfl, rfl⟩

/-- A segment that completes a BIU is behind the others. -/
theorem segments_of_completes (h : completes hs m truesize = true) :
    hs.segmentIn.complete = false ∧ (hs.segmentQueue m truesize).segments = hs.segments ++ [m] := by
  have hi := of_decide_eq_true h
  cases hc : hs.segmentIn.complete with
  | true =>
    unfold Hs.segmentQueue at hi
    rw [if_pos hc] at hi
    rw [hi] at hc
    exact absurd hc nofun
  | false =>
    refine ⟨rfl, ?_⟩
    unfold Hs.segmentQueue
    rw [hc, if_neg nofun]

/-- A reassembly stops the kernel exactly if the copies do not fit. -/
theorem segmentReasm_eq_none_iff (first : Mu) (rest : List Mu) (h : hs.segments = first :: rest) :
    hs.segmentReasm alloc = none ↔
      ∃ slack, alloc = some slack ∧
        hs.segmentLen.toNat + slack < first.data.length * (2 ^ rest.length - 1) := by
  unfold Hs.segmentReasm
  rw [h]
  cases alloc with
  | none => simp
  | some slack =>
    dsimp only
    cases hc : Hs.copySegments first.data (hs.segmentLen.toNat + slack) rest with
    | none =>
      refine iff_of_true rfl ⟨slack, rfl, ?_⟩
      by_contra hlt
      have hs : Hs.copySegments first.data (hs.segmentLen.toNat + slack) rest =
          some (Tc.repeated (2 ^ rest.length) first.data) :=
        Tc.copySegments_eq_some.mpr ⟨Nat.le_of_not_lt hlt, rfl⟩
      exact nomatch hc.symm.trans hs
    | some data =>
      apply iff_of_false nofun
      rintro ⟨slack', hs, hlt⟩
      obtain rfl := Option.some.inj hs
      exact absurd (Tc.copySegments_eq_some.mp hc).1 (Nat.not_le_of_lt hlt)

/-- What the reassembly of a completed BIU is given. -/
theorem segmentReasm_paced_eq_none_iff (h : completes hs m truesize = true) :
    ((paced hs m).segmentQueue m truesize).segmentReasm alloc = none ↔
      Overruns hs m truesize alloc := by
  obtain ⟨-, hl, hq⟩ := segmentQueue_paced hs m truesize
  have hs' := hq.trans (segments_of_completes h).2
  unfold Overruns
  cases hc : hs.segments with
  | nil =>
    rw [hc] at hs'
    rw [segmentReasm_eq_none_iff m [] hs', hl]
    rfl
  | cons first rest =>
    rw [hc] at hs'
    rw [segmentReasm_eq_none_iff first (rest ++ [m]) hs', hl, List.length_append,
      List.length_singleton, List.headD_cons, List.length_cons]

/-! ## Transmission control -/

/-- `sna_tc_rx` of an MU on the normal flow that passes the checks of a segment -/
theorem rx_norm {e : Hs.RxEnv} (hc : ¬ hs.rxSegmentChk m < 0) (hn : m.efi = .norm) :
    hs.rx m e = ((paced hs m).segment m e.truesize e.alloc).map fun r =>
      match r.2 with
      | none => ⟨0, r.1, [], none⟩
      | some biu => r.1.rxBiu biu e := by
  unfold Hs.rx
  rw [if_neg hc, if_neg (not_not.mpr hn)]
  rfl

/-- A whole BIU is taken as it is. -/
theorem rx_whole {e : Hs.RxEnv} (hc : ¬ hs.rxSegmentChk m < 0) (hn : m.efi = .norm)
    (hl : m.data.length ≤ hs.maxRxRuSize.toNat) (hw : m.mpf = .wholeBiu) :
    hs.rx m e = some (hs.rxBiu m e) := by
  have hb : m.mpf ≠ .bbiu := by rw [hw]; nofun
  rw [rx_norm hc hn, paced_of_ne hb, Hs.segment, if_neg (Nat.not_lt.mpr hl), if_pos hw]
  rfl

/-- A segment is received without an accident, unless it completes a BIU that does not fit. -/
theorem rx_segment_isSome {e : Hs.RxEnv} (hc : ¬ hs.rxSegmentChk m < 0) (hn : m.efi = .norm)
    (hl : m.data.length ≤ hs.maxRxRuSize.toNat) (hw : m.mpf ≠ .wholeBiu) :
    (hs.rx m e).isSome ↔ ¬ (completes hs m e.truesize = true ∧ Overruns hs m e.truesize e.alloc) := by
  have hq := (segmentQueue_paced hs m e.truesize).1
  rw [rx_norm hc hn, Option.isSome_map, Tc.segment_short (by rwa [paced_max]) hw, hq]
  by_cases hd : (hs.segmentQueue m e.truesize).segmentIn = ⟨true, true, false⟩
  · have hd' : completes hs m e.truesize = true := decide_eq_true hd
    rw [if_pos hd, Option.isSome_map, Option.isSome_iff_ne_none, ne_eq,
      segmentReasm_paced_eq_none_iff hd', and_iff_right hd']
  · have hd' : completes hs m e.truesize ≠ true := fun h => hd (of_decide_eq_true h)
    rw [if_neg hd]
    exact iff_of_true rfl fun h => hd' h.1

/-- What transmission control does with the buffer is its fate. -/
theorem tcRx_of_rxFate {hs : HsCb} {f : Fate} (hf : rxFate hs.tc m e.truesize e.alloc = some f)
    (conversation : Bool) :
    (∃ d, tcRx hs m e conversation = some d ∧ d.fate.Once) ↔ (hs.tc.rx m e.tc).isSome ∧ f.Once := by
  unfold tcRx
  cases hr : hs.tc.rx m e.tc with
  | none => exact iff_of_false (fun ⟨_, hd, _⟩ => nomatch hd) nofun
  | some r =>
    rw [hf, Option.map_some, Option.isSome_some, and_iff_right rfl]
    simp only [Option.some.injEq, exists_eq_left']
    cases r.dfc <;> rfl

/-- What transmission control passes on is the buffer itself. -/
theorem tcRx_of_passed {hs : HsCb} (hf : rxFate hs.tc m e.truesize e.alloc = none) {tc : Hs}
    {err : Int} (hr : hs.tc.rx m e.tc = some ⟨err, tc, [], some m⟩) (conversation : Bool) :
    (∃ d, tcRx hs m e conversation = some d ∧ d.fate.Once) ↔
      ¬ Dfc.Mislays hs (e.skb m) (e.dfc conversation) := by
  unfold tcRx
  rw [hr, hf, Option.map_some]
  simp only [Option.some.injEq, exists_eq_left', Option.getD_none]
  exact Dfc.rxSkb_once_iff { hs with tc := tc } (e.skb m) (e.dfc conversation)

theorem segmentFate_once_iff (hs : Hs) (m : Mu) (truesize : Nat) (alloc : Option Nat) :
    (segmentFate hs m truesize alloc).Once ↔
      ¬ (completes hs m truesize = true ∧ alloc = none ∧ hs.segments = []) := by
  unfold segmentFate
  cases hc : hs.segmentIn.complete with
  | true =>
    rw [if_pos rfl]
    exact iff_of_true once_free fun h => absurd (hc.symm.trans (segments_of_completes h.1).1) nofun
  | false =>
    rw [if_neg nofun]
    by_cases hd : completes hs m truesize = true
    · rw [if_pos hd, and_iff_right hd]
      cases alloc with
      | some slack => exact iff_of_true once_free nofun
      | none =>
        rw [if_neg nofun, and_iff_right rfl]
        by_cases hs' : hs.segments = []
        · rw [if_pos hs']
          exact iff_of_false not_once_dropped (not_not.mpr hs')
        · rw [if_neg hs']
          exact iff_of_true once_queue hs'
    · rw [if_neg hd]
      exact iff_of_true once_queue fun h => hd h.1

/-- A whole BIU in transmission control. -/
theorem tcRx_whole_once_iff (hs : HsCb) (hc : ¬ hs.tc.rxSegmentChk m < 0) (hn : m.efi = .norm)
    (hl : m.data.length ≤ hs.tc.maxRxRuSize.toNat) (hw : m.mpf = .wholeBiu) (conversation : Bool) :
    (∃ d, tcRx hs m e conversation = some d ∧ d.fate.Once) ↔
      ¬ (hs.tc.rxBiuChk m < 0 ∨
        m.isPacingRsp = false ∧
          (Hs.isEncrypted m = true ∨ Dfc.Mislays hs (e.skb m) (e.dfc conversation))) := by
  have hr := rx_whole (e := e.tc) hc hn hl hw
  have hi : (hs.tc.rx m e.tc).isSome := by rw [hr]; rfl
  have hf : rxFate hs.tc m e.truesize e.alloc =
      if hs.tc.rxBiuChk m < 0 then some .dropped
      else if m.isPacingRsp then some .free
      else if Hs.isEncrypted m then some .dropped
      else none := by
    unfold rxFate
    rw [if_neg hc, if_neg (not_not.mpr hn), if_neg (Nat.not_lt.mpr hl), if_neg (not_not.mpr hw)]
  by_cases hb : hs.tc.rxBiuChk m < 0
  · rw [if_pos hb] at hf
    rw [tcRx_of_rxFate hf]
    exact iff_of_false (fun h => not_once_dropped h.2) (not_not.mpr (.inl hb))
  rw [if_neg hb] at hf
  rw [or_iff_right hb]
  cases hp : m.isPacingRsp with
  | true =>
    rw [hp, if_pos rfl] at hf
    rw [tcRx_of_rxFate hf]
    exact iff_of_true ⟨hi, once_free⟩ nofun
  | false =>
    rw [hp, if_neg nofun] at hf
    rw [and_iff_right rfl]
    cases he : Hs.isEncrypted m with
    | true =>
      rw [he, if_pos rfl] at hf
      rw [tcRx_of_rxFate hf]
      exact iff_of_false (fun h => not_once_dropped h.2) (not_not.mpr (.inl rfl))
    | false =>
      rw [he, if_neg nofun] at hf
      have hbiu : hs.tc.rxBiu m e.tc =
          ⟨0, { hs.tc with sqnRcvCnt := hs.tc.sqnRcvCnt + 1 }, [], some m⟩ := by
        unfold Hs.rxBiu
        rw [if_neg hb, hp, if_neg nofun, he, if_neg nofun]
        rfl
      rw [tcRx_of_passed hf (hr.trans (congrArg some hbiu)), or_iff_right nofun]

/-- Transmission control, and data flow control behind it, keep a buffer exactly if none of
the branches is taken that mislay it. -/
theorem tcRx_once_iff (hs : HsCb) (m : Mu) (e : RxEnv) (conversation : Bool) :
    (∃ d, tcRx hs m e conversation = some d ∧ d.fate.Once) ↔ ¬ TcMislays hs m e conversation := by
  unfold TcMislays
  by_cases hc : hs.tc.rxSegmentChk m < 0
  · have hf : rxFate hs.tc m e.truesize e.alloc = some .dropped := by
      unfold rxFate
      rw [if_pos hc]
    rw [tcRx_of_rxFate hf]
    exact iff_of_false (fun h => not_once_dropped h.2) (not_not.mpr (.inl hc))
  rw [or_iff_right hc]
  by_cases hn : m.efi = .norm
  · rw [or_iff_right fun h => h.1 hn, and_iff_right hn]
    by_cases hl : m.data.length ≤ hs.tc.maxRxRuSize.toNat
    · rw [and_iff_right hl]
      by_cases hw : m.mpf = .wholeBiu
      · rw [if_pos hw]
        exact tcRx_whole_once_iff hs hc hn hl hw conversation
      · have hf : rxFate hs.tc m e.truesize e.alloc =
            some (segmentFate hs.tc m e.truesize e.alloc) := by
          unfold rxFate
          rw [if_neg hc, if_neg (not_not.mpr hn), if_neg (Nat.not_lt.mpr hl), if_pos hw]
        have hi : (hs.tc.rx m e.tc).isSome ↔
            ¬ (completes hs.tc m e.truesize = true ∧ Overruns hs.tc m e.truesize e.alloc) :=
          rx_segment_isSome hc hn hl hw
        rw [if_neg hw, tcRx_of_rxFate hf, hi, segmentFate_once_iff, ← not_or, ← and_or_left]
        rfl
    · have hf : rxFate hs.tc m e.truesize e.alloc = some .free := by
        unfold rxFate
        rw [if_neg hc, if_neg (not_not.mpr hn), if_pos (Nat.lt_of_not_le hl)]
      have hi : (hs.tc.rx m e.tc).isSome := by
        rw [rx_norm hc hn, Tc.segment_long (by rwa [paced_max, ← Nat.not_le])]
        rfl
      rw [tcRx_of_rxFate hf]
      exact iff_of_true ⟨hi, once_free⟩ fun h => hl h.1
  · have hf : rxFate hs.tc m e.truesize e.alloc = none := by
      unfold rxFate
      rw [if_neg hc, if_pos hn]
    have hr : hs.tc.rx m e.tc = some ⟨0, hs.tc, [], some m⟩ := by
      unfold Hs.rx
      rw [if_neg hc, if_pos hn]
      rfl
    rw [tcRx_of_passed hf hr, or_iff_left fun h => hn h.1, and_iff_right hn]

/-! ## The whole way -/

theorem hsRx_once_iff (l : Lists) (lf : Lfsid) (m : Mu) (e : RxEnv) :
    (∃ d, hsRx l lf m e = some d ∧ d.fate.Once) ↔ ¬ SessionMislays l lf m e := by
  unfold hsRx SessionMislays
  cases hsGetByLfsid l lf with
  | none =>
    refine iff_of_false ?_ (not_not.mpr trivial)
    rintro ⟨d, hd, ho⟩
    obtain rfl := Option.some.inj hd
    exact not_once_dropped ho
  | some hs =>
    dsimp only
    rw [← tcRx_once_iff]
    cases tcRx hs m e (conversationOf l hs).isSome with
    | none => exact iff_of_false (fun ⟨_, h, _⟩ => nomatch h) fun ⟨_, h, _⟩ => nomatch h
    | some d => simp only [Option.map_some, Option.some.injEq, exists_eq_left']

theorem route_once_iff (l : Lists) (lf : Lfsid) (m : Mu) (e : RxEnv) :
    (∃ d, route l lf m e = some d ∧ d.fate.Once) ↔
      ¬ match m.ru with
        | .fmd => SessionMislays l lf m e
        | .dfc => SessionMislays l lf m e
        | .sc => BindMislays l lf (e.skb m)
        | .nc => BindMislays l lf (e.skb m) := by
  have ha : (∃ d, some (asmRx l lf (e.skb m) e.copied) = some d ∧ d.fate.Once) ↔
      ¬ BindMislays l lf (e.skb m) := by
    simp only [Option.some.injEq, exists_eq_left']
    exact asmRx_once_iff l lf (e.skb m) e.copied
  unfold route
  cases m.ru with
  | fmd => exact hsRx_once_iff l lf m e
  | dfc => exact hsRx_once_iff l lf m e
  | sc => exact ha
  | nc => exact ha

/-- A packet meets its end once exactly if it is not mislaid. -/
theorem consumes_iff (l : Lists) (ev : Event) : Consumes l ev ↔ ¬ Mislays l ev := by
  cases ev with
  | other ev => exact iff_of_true trivial id
  | received skb e =>
    cases hm : rxMuChkErr skb with
    | none =>
      have hr : rxMu l skb e = some ⟨l, .free⟩ := by
        unfold rxMu
        rw [hm]
      apply iff_of_true ⟨_, hr, once_free⟩
      rintro ⟨_, _, h, _⟩
      exact nomatch hm.symm.trans h
    | some m =>
      cases hf : lfsidOf l m with
      | none =>
        have hr : rxMu l skb e = some ⟨l, .free⟩ := by
          unfold rxMu
          rw [hm]
          dsimp only
          rw [hf]
        apply iff_of_true ⟨_, hr, once_free⟩
        rintro ⟨_, _, h, h', _⟩
        obtain rfl := Option.some.inj (hm.symm.trans h)
        exact nomatch hf.symm.trans h'
      | some lf =>
        have hr : rxMu l skb e = if e.ctrl then route l lf m e else some ⟨l, .free⟩ := by
          unfold rxMu
          rw [hm]
          dsimp only
          rw [hf]
        cases hc : e.ctrl with
        | false =>
          rw [hc, if_neg nofun] at hr
          apply iff_of_true ⟨_, hr, once_free⟩
          rintro ⟨_, _, _, _, h, _⟩
          exact nomatch hc.symm.trans h
        | true =>
          rw [hc, if_pos rfl] at hr
          unfold Consumes
          dsimp only
          rw [hr, route_once_iff]
          refine not_congr ⟨fun h => ⟨m, lf, hm, hf, hc, h⟩, ?_⟩
          rintro ⟨m', lf', hm', hf', -, h⟩
          obtain rfl := Option.some.inj (hm.symm.trans hm')
          obtain rfl := Option.some.inj (hf.symm.trans hf')
          exact h

/-- In a run of packets and of other events, every buffer is freed or queued once exactly if
no packet is mislaid in the state in which it is received. -/
theorem along_consumes_iff (l : Lists) (es : List Event) :
    Along step Consumes l es ↔ Along step (fun l ev => ¬ Mislays l ev) l es :=
  Framework.along_iff (I := fun _ => True) (fun _ _ _ _ _ _ => trivial)
    (fun l ev _ => consumes_iff l ev) trivial

/-- A program has asked for a session, and its BIND has been sent. -/
def bindSent : Lists := Sm.after Sm.oneProgram Sm.untilBind

/-- There is memory for everything but a whole BIU, and nothing is sent. -/
def plentyEnv : RxEnv :=
  { ctrl := true, truesize := 128, alloc := none, copied := true, ack := none, pc := none,
    beyond := [], addr := 0, cloned := true, tx := .noPc }

/-- A RSP(BIND) for the address 0, which every LFSID has that is not in use. -/
def strayBindRsp : List UInt8 := [0x2D, 0, 0, 0, 0, 0, 0xEB, 0x80, 0, 0x31]

/-- An UNBIND for the session. -/
def unbind : List UInt8 := [0x2D, 0, 1, 1, 0, 0, 0x6B, 0x80, 0, 0x32, 1]

set_option maxRecDepth 100000 in
/-- The stray response is freed twice. -/
theorem stray_not_consumed : ¬ ∀ l : Lists,
    (∃ es, Framework.run step Sm.oneProgram es = some l) →
      ∀ skb e, Consumes l (.received skb e) := by
  intro h
  obtain ⟨d, hd, ho⟩ := h bindSent ⟨Sm.untilBind.map .other, rfl⟩ strayBindRsp plentyEnv
  have hf : (rxMu bindSent strayBindRsp plentyEnv).map (·.fate) = some ⟨2, 0⟩ := by decide
  rw [hd] at hf
  have hf : d.fate = ⟨2, 0⟩ := Option.some.inj hf
  rw [hf] at ho
  exact nomatch ho

set_option maxRecDepth 100000 in
/-- The UNBIND is lost. -/
example : (rxMu bindSent unbind plentyEnv).map (·.fate) = some .dropped := by decide

set_option maxRecDepth 100000 in
/-- When the session is active, a whole chain with four bytes of data goes to the
conversation. -/
example :
    (rxMu (Sm.after Sm.oneProgram (Sm.untilBind ++ [Sm.accepted]))
      [0x2C, 0, 1, 1, 0, 1, 0x03, 0x90, 0x20, 0, 4, 0xC1, 0xC2] plentyEnv).map (·.fate) =
      some .queue := by
  decide

end LinuxSna.Pc
