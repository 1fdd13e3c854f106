import LinuxSna.Proof.Sna.Dfc.Enforcement

/-!
# The ends of received chains

The machine of received chains waits for the response to a chain that asks for a definite
one. It does not take notice of a positive response to FMD: where it should ask for
it, it asks for a negative one a second time. So it waits for ever.

* `sameChain_sendRspMu`: a positive response leaves the machine where it is;
* `run_elements`: the elements of a chain lead it to the state in which it waits;
* `along_completes_iff`: the runs of chains in which it is between chains after each.
-/

namespace LinuxSna.Dfc

open Framework (Along run run_cons)
open Hs (HsCb HsType Skb)

variable {hs hs' : HsCb} {d d' d'' : DfcState} {s : Skb} {e : Env}

/-! ## What leaves the machine alone -/

/-- The machine of received chains and the direction are as they were. -/
structure SameChain (d d' : DfcState) : Prop where
  chainRcvState : d'.chainRcvState = d.chainRcvState
  direction : d'.direction = d.direction

namespace SameChain

theorem refl (d : DfcState) : SameChain d d := ⟨rfl, rfl⟩

theorem trans (h : SameChain d d') (h' : SameChain d' d'') : SameChain d d'' :=
  ⟨h'.1.trans h.1, h'.2.trans h.2⟩

/-- The fields of the other machines may change. -/
theorem of_eq {sense : UInt32} {b : BsmState} {c : ChainSendState} {q : QriState} {p : PurgeState}
    {br : Bracket} :
    SameChain d { d with sense := sense, bsmState := b, chainSendState := c, qriChainRcvState := q,
                         rcvPurgeState := p, currentBracket := br } :=
  ⟨rfl, rfl⟩

theorem chainSend (d : DfcState) (s : Skb) (chain : ChainInd) :
    SameChain d (chainSend d s chain) := by
  obtain ⟨sense, b, c, h⟩ := chainSend_eq d s chain
  rw [h]
  exact of_eq

theorem qriChainRcv (d : DfcState) (s : Skb) : SameChain d (qriChainRcv d s) := by
  obtain ⟨sense, q, h⟩ := qriChainRcv_eq d s
  rw [h]
  exact of_eq

theorem rcvPurge (d : DfcState) (s : Skb) (purge : Bool) : SameChain d (rcvPurge d s purge) := by
  obtain ⟨p, h⟩ := rcvPurge_eq d s purge
  rw [h]
  exact of_eq

theorem generateRmPsInputs (d : DfcState) (type : HsType) (s : Skb) (conversation : Bool) :
    SameChain d (generateRmPsInputs d type s conversation).1 := by
  obtain ⟨sense, b, num, h⟩ := generateRmPsInputs_eq d type s conversation
  rw [h]
  exact of_eq

theorem ctUpdate (d : DfcState) (s : Skb) : SameChain d (ctUpdate d s) := by
  unfold Dfc.ctUpdate
  split <;> exact ⟨rfl, rfl⟩

theorem of_sameReply (h : SameReply d d') : SameChain d d' := ⟨h.chainRcvState, h.direction⟩

end SameChain

/-! ## Positive responses -/

/-- The positive response, with its number -/
def stampedRsp (hs : HsCb) (s : Skb) : Skb := { rspMu s with snf := hs.tc.sqnTxCnt + 1 }

/-- What a positive response does to the half-session. -/
theorem sendRspMu_dfc (hs : HsCb) (s : Skb) (tx : TxPath) :
    (sendRspMu hs s tx).hs.dfc =
      { chainRcv (ctUpdate { hs.dfc with direction := .outbound } (stampedRsp hs s))
          (stampedRsp hs s) .none with
        direction := hs.dfc.direction } := by
  unfold sendRspMu
  dsimp only
  rw [chainRcvStateChk_rspMu rfl, Option.isNone_none, if_pos rfl]
  rfl

/-- The first byte of a response is one of the TH when the machine looks at it. -/
theorem chainRcv_stampedRsp (h : d.direction = .outbound) (hs : HsCb) (s : Skb) :
    chainRcv d (stampedRsp hs s) .none = d := by
  have hb : (stampedRsp hs s).byte 0 = 0x2C := rfl
  have hn : ¬ ((stampedRsp hs s).rri = .rsp ∧ (stampedRsp hs s).rti = true ∧
      fmdOrLustat (stampedRsp hs s) = true) := fun hr => nomatch hr.2.1
  have hc : ¬ ((stampedRsp hs s).rri = .rsp ∧ (stampedRsp hs s).byte 0 = ruRcRtr) := fun hr => by
    rw [hb] at hr
    exact absurd hr.2 (by decide)
  unfold chainRcv
  rw [h]
  dsimp only
  rw [if_neg hn, if_neg hc, if_neg fun hr => nomatch hr.1]

/-- What a positive response does to the machine of received chains: nothing. -/
theorem sameChain_sendRspMu (hs : HsCb) (s : Skb) (tx : TxPath) :
    SameChain hs.dfc (sendRspMu hs s tx).hs.dfc := by
  have hu := SameChain.ctUpdate { hs.dfc with direction := .outbound } (stampedRsp hs s)
  rw [sendRspMu_dfc, chainRcv_stampedRsp hu.direction]
  exact ⟨hu.chainRcvState, rfl⟩

theorem sameChain_sendRspIfRequired (hs : HsCb) (s : Skb) (tx : TxPath) :
    SameChain hs.dfc (sendRspIfRequired hs s tx).1.dfc := by
  unfold sendRspIfRequired
  split_ifs
  · exact sameChain_sendRspMu hs s tx
  · exact SameChain.refl _

/-! ## The elements of a chain -/

/-- The state of the machine when an element begins a chain or not. -/
def begun (bci : Bool) (x : ChainRcvState) : ChainRcvState :=
  if bci = true ∧ x = .betc then .inc else x

/-- The machine is in a chain, or it waits for the response to one. -/
def IsOpen (x : ChainRcvState) : Prop := x = .inc ∨ x = .pendRsp

theorem chainRcv_beginChain (hd : d.direction = .inbound) (hr : s.rri = .req) :
    (chainRcv d s .beginChain).chainRcvState = begun true d.chainRcvState := by
  unfold chainRcv begun
  rw [hd]
  dsimp only
  rw [if_pos ⟨hr, rfl⟩]
  simp only [true_and]
  split_ifs <;> rfl

/-- The state of the machine when an element ends a chain. -/
def ended (s : Skb) (x : ChainRcvState) : ChainRcvState :=
  let rh := rhOf s.toMu
  match x with
  | .inc =>
    if rh.rqd then .pendRsp
    else if rh.rqe ∧ s.cebi then .betc
    else if rh.rqe ∧ s.cdi then .pendSendReply
    else if s.byte 0 = ruRcBis then .betc
    else .inc
  | .negRspSent => if rh.rqd ∨ rh.rqe ∧ s.cebi ∨ rh.rqe ∧ s.cdi then .betc else .negRspSent
  | x => x

theorem chainRcvOutputA_chainRcvState (d : DfcState) (s : Skb) :
    (chainRcvOutputA d s).chainRcvState = d.chainRcvState := by
  obtain ⟨sense, b, p, h⟩ := chainRcvOutputA_eq d s
  rw [h]

theorem chainRcv_endChain (hd : d.direction = .inbound) (hr : s.rri = .req) :
    (chainRcv d s .endChain).chainRcvState = ended s d.chainRcvState := by
  have hb : ¬ (s.rri = .req ∧ ChainInd.endChain = .beginChain) := fun h => nomatch h.2
  have he : s.rri = .req ∧ ChainInd.endChain = .endChain := ⟨hr, rfl⟩
  unfold chainRcv ended
  rw [hd]
  dsimp only
  rw [if_neg hb, if_pos he]
  cases hx : d.chainRcvState <;> dsimp only <;> split_ifs <;>
    first
    | rfl
    | exact hx
    | exact chainRcvOutputA_chainRcvState _ s
    | tauto

/-- In an open chain, an element that asks for a definite response leads to the state in which
the machine waits for it. -/
theorem ended_of_isOpen {x : ChainRcvState} (hq : (rhOf s.toMu).rqd = true) (ho : IsOpen x) :
    ended s x = .pendRsp := by
  rcases ho with rfl | rfl
  · exact if_pos hq
  · rfl

theorem chainRcv_direction (d : DfcState) (s : Skb) (chain : ChainInd) :
    (chainRcv d s chain).direction = d.direction := by
  obtain ⟨sense, b, r, p, h⟩ := chainRcv_eq d s chain
  rw [h]

/-- The state of the machine after an element: what begins is noted before what ends. -/
def passed (s : Skb) (x : ChainRcvState) : ChainRcvState :=
  if s.eci then ended s (begun s.bci x) else begun s.bci x

/-- The machines run on an element. -/
theorem rcvStep_chainRcvState (hd : d.direction = .inbound) (hr : s.rri = .req) :
    (rcvStep d s).chainRcvState = passed s d.chainRcvState := by
  have hp := SameChain.rcvPurge d s false
  let d₁ := rcvPurge d s false
  let d₂ := if d₁.chainSendState = .pendRcvReply then chainSend d₁ s .none else d₁
  let d₃ := if s.bci then chainRcv d₂ s .beginChain else d₂
  have h₂ : SameChain d d₂ := by
    by_cases hc : d₁.chainSendState = .pendRcvReply
    · simp only [d₂, if_pos hc]
      exact hp.trans (SameChain.chainSend d₁ s .none)
    · simp only [d₂, if_neg hc]
      exact hp
  have hd₂ := h₂.direction.trans hd
  have h₃ : d₃.chainRcvState = begun s.bci d.chainRcvState := by
    rw [← h₂.chainRcvState]
    cases hb : s.bci with
    | true => simp only [d₃, hb, ↓reduceIte, chainRcv_beginChain hd₂ hr]
    | false => simp only [d₃, hb, Bool.false_eq_true, ↓reduceIte, begun, false_and]
  have hd₃ : d₃.direction = .inbound := by
    simp only [d₃]
    split_ifs
    · exact (chainRcv_direction d₂ s .beginChain).trans hd₂
    · exact hd₂
  apply (SameChain.qriChainRcv _ s).chainRcvState.trans
  show (if s.eci then chainRcv d₃ s .endChain else d₃).chainRcvState = _
  unfold passed
  cases s.eci with
  | true => rw [if_pos rfl, if_pos rfl, chainRcv_endChain hd₃ hr, h₃]
  | false => rw [if_neg nofun, if_neg nofun, h₃]

/-- What is left of a normal-flow request when the machines run on it. -/
theorem rcvRequest_chainRcvState (hd : hs.dfc.direction = .inbound) (hr : s.rri = .req) (e : Env) :
    (rcvRequest hs s e).hs.dfc.chainRcvState = passed s hs.dfc.chainRcvState := by
  have hn : SameChain hs.dfc (noteBracket (ctUpdate (countRequest hs.dfc) s) hs.type s) :=
    ((SameChain.of_sameReply (.countRequest hs.dfc)).trans (.ctUpdate _ s)).trans
      (.of_sameReply (.noteBracket _ _ s))
  unfold rcvRequest
  dsimp only
  generalize noteBracket (ctUpdate (countRequest hs.dfc) s) hs.type s = d at hn ⊢
  have hg : SameChain d
      (if d.rcvPurgeState ≠ .purge then generateRmPsInputs d hs.type s e.conversation
      else (d, .free, [])).1 := by
    split_ifs
    · exact SameChain.generateRmPsInputs d _ s e.conversation
    · exact SameChain.refl d
  have hg := hn.trans hg
  apply (sameChain_sendRspIfRequired { hs with dfc := rcvStep _ s } s e.tx).chainRcvState.trans
  rw [rcvStep_chainRcvState (hg.direction.trans hd) hr, hg.chainRcvState]

theorem checked_sameChain (hs : HsCb) (s : Skb) :
    SameChain { hs.dfc with direction := .inbound } (checked hs s).dfc := by
  obtain ⟨sense, ct, h⟩ := checked_eq hs s
  rw [h]
  exact ⟨rfl, rfl⟩

/-- What `sna_dfc_rx` makes of an element is what the machines make of it. -/
theorem rxSkb_chainRcvState (h : IsFormatted hs s) (hc : e.cloned = true) :
    (rxSkb hs s e).hs.dfc.chainRcvState = passed s hs.dfc.chainRcvState := by
  have hi := checked_sameChain hs s
  rw [rxSkb_request h, rcvFsms_request _ h.1 h.2.1, hc, if_neg nofun]
  refine (rcvRequest_chainRcvState ?_ h.1 e).trans ?_
  · exact hi.direction
  · exact congrArg (passed s) hi.chainRcvState

/-! ## Chains -/

/-- The element passes the format checks, and it can be cloned. -/
def Accepted (hs : HsCb) (ev : Received) : Prop := IsFormatted hs ev.1 ∧ ev.2.cloned = true

instance (hs : HsCb) (ev : Received) : Decidable (Accepted hs ev) :=
  inferInstanceAs (Decidable (_ ∧ _))

theorem rxStep_middle (h : Accepted hs (s, e)) (he : s.eci = false) :
    (rxSkb hs s e).hs.dfc.chainRcvState = begun s.bci hs.dfc.chainRcvState := by
  rw [rxSkb_chainRcvState h.1 h.2, passed, he, if_neg nofun]

theorem rxStep_last (h : Accepted hs (s, e)) (he : s.eci = true)
    (hq : (rhOf s.toMu).rqd = true) (ho : IsOpen (begun s.bci hs.dfc.chainRcvState)) :
    (rxSkb hs s e).hs.dfc.chainRcvState = .pendRsp := by
  rw [rxSkb_chainRcvState h.1 h.2, passed, he, if_pos rfl]
  exact ended_of_isOpen hq ho

/-- The elements from one in an open chain on to the last lead to the state in which the
machine waits for the response, and that is sent then. -/
theorem run_elements {ev : Received} {es : List Received}
    (ho : IsOpen (begun ev.1.bci hs.dfc.chainRcvState)) (hb : ∀ ev' ∈ es, ev'.1.bci = false)
    (he : ∀ ev' ∈ (ev :: es).dropLast, ev'.1.eci = false)
    (hl : ((ev :: es).getLast (List.cons_ne_nil ev es)).1.eci = true)
    (hq : (rhOf ((ev :: es).getLast (List.cons_ne_nil ev es)).1.toMu).rqd = true)
    (ha : Along rxStep Accepted hs (ev :: es)) (hr : run rxStep hs (ev :: es) = some hs') :
    hs'.dfc.chainRcvState = .pendRsp := by
  induction es generalizing ev hs with
  | nil =>
    obtain ⟨t, ht, hr⟩ := run_cons.mp hr
    cases hr
    cases ht
    exact rxStep_last ha.1 hl hq ho
  | cons ev' es ih =>
    obtain ⟨t, ht, hr⟩ := run_cons.mp hr
    have hm := rxStep_middle ha.1 (he ev List.mem_cons_self)
    have ha := ha.2 t ht
    cases ht
    refine ih ?_ (fun x hx => hb x (List.mem_cons_of_mem ev' hx))
      (fun x hx => he x (List.mem_cons_of_mem ev hx)) ?_ ?_ ha hr
    · rw [hb ev' List.mem_cons_self, hm]
      exact ho
    · rwa [List.getLast_cons (List.cons_ne_nil ev' es)] at hl
    · rwa [List.getLast_cons (List.cons_ne_nil ev' es)] at hq

/-- A chain that asks for a definite response: the first element begins it, the last ends
it. Presentation services may ask for the response to it, with the buffer of a request. -/
structure Chain where
  first : Received
  rest : List Received
  asked : Option (Skb × TxPath)
  begins : first.1.bci = true
  continues : ∀ ev ∈ rest, ev.1.bci = false
  goesOn : ∀ ev ∈ (first :: rest).dropLast, ev.1.eci = false
  ends : ((first :: rest).getLast (List.cons_ne_nil first rest)).1.eci = true
  rqd : (rhOf ((first :: rest).getLast (List.cons_ne_nil first rest)).1.toMu).rqd = true

namespace Chain

def elements (c : Chain) : List Received := c.first :: c.rest

/-- Presentation services ask for a positive response or not. -/
def answer (c : Chain) (hs : HsCb) : HsCb := c.asked.elim hs fun r => (sendRspMu hs r.1 r.2).hs

/-- The half-session after a chain and the response to it -/
def step (hs : HsCb) (c : Chain) : Option HsCb := (run rxStep hs c.elements).map c.answer

/-- Every element passes the format checks. -/
def IsAccepted (hs : HsCb) (c : Chain) : Prop := Along rxStep Accepted hs c.elements

/-- The first element passes the state check and is delivered, and after the response the
machine is between chains. -/
def Completes (hs : HsCb) (c : Chain) : Prop :=
  chainRcvStateChk (checked hs c.first.1).dfc c.first.1 .none = none ∧
    (rxSkb hs c.first.1 c.first.2).Delivers ∧
    ∀ hs', step hs c = some hs' → hs'.dfc.chainRcvState = .betc

variable {c : Chain}

theorem chainRcvState_answer (c : Chain) (hs : HsCb) :
    (c.answer hs).dfc.chainRcvState = hs.dfc.chainRcvState := by
  unfold answer
  cases c.asked with
  | none => rfl
  | some r => exact (sameChain_sendRspMu hs r.1 r.2).chainRcvState

/-- After every chain the machine still waits for the response. -/
theorem step_pendRsp (h : hs.dfc.chainRcvState = .betc ∨ hs.dfc.chainRcvState = .pendRsp)
    (ha : c.IsAccepted hs) (hr : step hs c = some hs') : hs'.dfc.chainRcvState = .pendRsp := by
  obtain ⟨t, ht, rfl⟩ := Option.map_eq_some_iff.mp hr
  have ho : IsOpen (begun c.first.1.bci hs.dfc.chainRcvState) := by
    rw [c.begins]
    rcases h with h | h
    · rw [h]
      exact .inl rfl
    · rw [h]
      exact .inr rfl
  rw [chainRcvState_answer]
  exact run_elements ho c.continues c.goesOn c.ends c.rqd ha ht

theorem run_ne_none (hs : HsCb) (es : List Received) : ∃ t, run rxStep hs es = some t := by
  induction es generalizing hs with
  | nil => exact ⟨hs, rfl⟩
  | cons ev es ih =>
    obtain ⟨t, ht⟩ := ih (rxSkb hs ev.1 ev.2).hs
    exact ⟨t, run_cons.mpr ⟨_, rfl, ht⟩⟩

/-- No chain is completed. -/
theorem not_completes (h : hs.dfc.chainRcvState = .betc ∨ hs.dfc.chainRcvState = .pendRsp)
    (ha : c.IsAccepted hs) : ¬ c.Completes hs := by
  rintro ⟨-, -, hb⟩
  obtain ⟨t, ht⟩ := run_ne_none hs c.elements
  have hr : step hs c = some (c.answer t) := by rw [step, ht, Option.map_some]
  exact ChainRcvState.noConfusion ((step_pendRsp h ha hr).symm.trans (hb _ hr))

/-- In a run of chains that are accepted, from a half-session between chains, each of them is
completed exactly if there is none. -/
theorem along_completes_iff (h : hs.dfc.chainRcvState = .betc) {cs : List Chain}
    (ha : Along step (fun hs c => c.IsAccepted hs) hs cs) :
    Along step (fun hs c => c.Completes hs) hs cs ↔ cs = [] := by
  cases cs with
  | nil => exact iff_of_true trivial rfl
  | cons c cs =>
    exact iff_of_false (fun hc => not_completes (.inl h) ha.1 hc.1) (List.cons_ne_nil c cs)

/-- A chain of two elements: both ask for a response in some form, the last for a
definite one. -/
def twoElements : Chain where
  first := ({ newMu with bci := true, snf := 1, data := [0, 4, 0xC1], beyond := [], addr := 0 },
    plentyEnv)
  rest := [({ newMu with rti := false, eci := true, snf := 2, data := [0xC2], beyond := [],
                         addr := 0 }, plentyEnv)]
  asked := none
  begins := rfl
  continues := by decide
  goesOn := by decide
  ends := rfl
  rqd := rfl

theorem twoElements_accepted : twoElements.IsAccepted (opened .bidder).hs := by
  refine ⟨by decide, fun t ht => ?_⟩
  cases ht
  exact ⟨by decide, fun _ _ => trivial⟩

/-- The response to the chain is sent, and the machine still waits for it; the first element of
a second chain like it is in error for that. -/
theorem twoElements_not_completed :
    ¬ (∀ t : Sender, t.Reachable → t.hs.dfc.chainRcvState = .betc → ∀ cs : List Chain,
        Along step (fun hs c => c.IsAccepted hs) t.hs cs →
          Along step (fun hs c => c.Completes hs) t.hs cs) ∧
      (step (opened .bidder).hs twoElements).map (·.dfc.chainRcvState) = some .pendRsp ∧
      (step (opened .bidder).hs twoElements).map
          (fun hs => chainRcvStateChk (checked hs twoElements.first.1).dfc twoElements.first.1
            .none) = some (some (some chainRcvOutputR2)) := by
  refine ⟨fun h => ?_, by decide, by decide⟩
  have ha : Along step (fun hs c => c.IsAccepted hs) (opened .bidder).hs [twoElements] :=
    ⟨twoElements_accepted, fun _ _ => trivial⟩
  exact not_completes (.inl rfl) ha.1 (h _ (opened_reachable .bidder) rfl _ ha).1

/-- A run of one chain. -/
theorem along_completes_iff_twoElements :
    Along step (fun hs c => c.Completes hs) (opened .bidder).hs [twoElements] ↔
      [twoElements] = [] :=
  along_completes_iff rfl ⟨twoElements_accepted, fun _ _ => trivial⟩

end Chain

end LinuxSna.Dfc
