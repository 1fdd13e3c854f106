import LinuxSna.Proof.TnX.Receive

/-!
# Arrivals and the receiver

Whether the receiver's work depends on how a stream is cut into arrivals.
The option calls of the receiver are never taken back (`calls_receiveAll`).
An option that arrives after its verb did is passed to
`telnet_stream_host_verb` with what the stack holds for the verb
(`calls_option`), so two values there give two sequences of calls
(`calls_ne_of_cut`). Without such a cut the arrivals do not matter
(`receiveAll_of_not_cut`). Both together are `chunking_iff`.
-/

namespace LinuxSna.TnX

open Framework

variable (send : Send)

/-! ## The option calls only grow -/

@[simp] theorem onByte_calls (s : Stream) (c : Int) : (s.onByte c).calls = s.calls := by
  unfold Stream.onByte
  split
  · split <;> rfl
  · rfl

@[simp] theorem enterData_calls (s : Stream) : s.enterData.calls = s.calls := by
  unfold Stream.enterData
  split <;> rfl

theorem hostVerb_calls (s : Stream) (verb what : UInt8) :
    (hostVerb send s verb what).2.calls = s.calls ++ [.hostVerb verb what] := by
  simp only [hostVerb, hostVerbReply, sendWill, Stream.send]
  split_ifs <;> rfl

theorem hostSb_calls (s : Stream) (buf : List UInt8) :
    (hostSb s buf).calls = s.calls ++ [.hostSb buf] := by
  unfold hostSb
  split
  · rfl
  · split <;> rfl

/-- The stream at the end of a pass. -/
def Pass.stream : Pass → Stream
  | .ret _ s => s
  | .fall _ _ s => s

theorem calls_getBytePass (s : Stream) (verb temp : UInt8) :
    s.calls <+: (getBytePass send s verb temp).stream.calls := by
  unfold getBytePass
  split
  · split <;> exact List.prefix_rfl
  · split <;> exact List.prefix_rfl
  · split_ifs <;> exact List.prefix_rfl
  · simp only
    split <;> simp [Pass.stream, hostVerb_calls]
  · split <;> exact List.prefix_rfl
  · split_ifs <;> simp [Pass.stream, hostSb_calls]

theorem outcome_resume_calls (hangup : Bool) (p : Pass) :
    (outcome hangup p.resume).2.calls = p.stream.calls := by
  rcases p with ⟨c, s⟩ | ⟨t, v, s⟩
  · simp only [Pass.resume]
    split <;> simp [outcome, Pass.stream]
  · simp only [Pass.resume]
    split <;> simp [outcome, Pass.stream]

theorem calls_feed (hangup : Bool) (x : Reader) (bytes : List UInt8) :
    x.stream.calls <+: (outcome hangup (feed (readByte send) x bytes)).2.calls := by
  induction bytes generalizing x with
  | nil => exact List.prefix_rfl
  | cons b bytes ih =>
    have hpass := calls_getBytePass send x.stream x.verb b
    rw [← outcome_resume_calls hangup] at hpass
    rw [feed_cons]
    change _ <+: (outcome hangup ((getBytePass send x.stream x.verb b).resume >>= _)).2.calls
    cases hr : (getBytePass send x.stream x.verb b).resume with
    | error s => rwa [hr] at hpass
    | ok y =>
      rw [hr] at hpass
      exact hpass.trans (ih y)

theorem calls_receiveAll (s : Stream) (as : List Arrival) :
    s.calls <+: (receiveAll send s as).2.calls := by
  induction as generalizing s with
  | nil => exact List.prefix_rfl
  | cons a as ih =>
    have ha := calls_feed send a.hangup (Reader.start s (a.stack 0)) a.bytes
    rw [← handleReceive_eq, Reader.stream_start, enterData_calls] at ha
    simp only [receiveAll]
    generalize handleReceive send s a = r at ha
    rcases r with ⟨_ | _, t⟩
    · exact ha
    · exact ha.trans (ih t)

/-! ## Writes that succeed -/

theorem hostVerb_nonneg (hsend : ∀ sent data, 0 ≤ send sent data) (s : Stream) (verb what : UInt8) :
    0 ≤ (hostVerb send s verb what).1 := by
  have hoption : ∀ t : Stream, 0 ≤ (hostVerbReply send t verb what).1 := by
    intro t
    unfold hostVerbReply
    split_ifs <;> simp [sendEor, sendBinary, recvEor, recvBinary]
  have hretval : ∀ t : Stream, 0 ≤ (hostVerbReply send t verb what).2.1 := by
    intro t
    unfold hostVerbReply sendWill Stream.send
    split_ifs <;> first | exact hsend _ _ | exact Int.le_refl 0
  simp only [hostVerb]
  split
  · exact hretval _
  · exact hoption _

/-- Nothing stops the receiver while `send` does not fail. -/
theorem readByte_ok (hsend : ∀ sent data, 0 ≤ send sent data) (x : Reader) (b : UInt8) :
    ∃ y, readByte send x b = .ok y := by
  have hverb := Int.not_lt.mpr (hostVerb_nonneg send hsend x.stream x.verb b)
  have hret : ∀ s, getBytePass send x.stream x.verb b ≠ .ret (-2) s := by
    intro s
    unfold getBytePass
    split
    · split <;> exact Pass.noConfusion
    · split <;> exact Pass.noConfusion
    · split_ifs <;> simp [endOfRecord]
    · simp only [hverb, ↓reduceIte]
      exact Pass.noConfusion
    · split <;> exact Pass.noConfusion
    · split_ifs <;> exact Pass.noConfusion
  unfold readByte
  rcases hp : getBytePass send x.stream x.verb b with ⟨c, s⟩ | ⟨t, v, s⟩
  · have hc : c ≠ -2 := fun hc => hret s (hc ▸ hp)
    exact ⟨_, if_neg hc⟩
  · simp only [Pass.resume]
    split <;> exact ⟨_, rfl⟩

theorem feed_ok (hsend : ∀ sent data, 0 ≤ send sent data) (x : Reader) (bytes : List UInt8) :
    ∃ y, feed (readByte send) x bytes = .ok y := by
  induction bytes generalizing x with
  | nil => exact ⟨x, rfl⟩
  | cons b bytes ih =>
    obtain ⟨y, hy⟩ := readByte_ok send hsend x b
    rw [feed_cons, hy]
    exact ih y

/-! ## Options that arrive after their verb -/

/-- Where the verb is on the stack, the option is passed with what is there. -/
theorem calls_option {s : Stream} (hs : s.state = .haveVerb) (verb what : UInt8) (bytes : List UInt8)
    (hangup : Bool) :
    s.calls ++ [.hostVerb verb what] <+:
      (handleReceive send s ⟨what :: bytes, hangup, fun _ => verb⟩).2.calls := by
  have hstream : (getBytePass send s verb what).stream.calls = s.calls ++ [.hostVerb verb what] := by
    simp only [getBytePass, hs]
    split <;> simp [Pass.stream, hostVerb_calls]
  rw [handleReceive_eq, feed_cons, readByte_start,
    Stream.enterData_of_ne (by rw [hs]; exact StreamState.noConfusion), ← hstream,
    ← outcome_resume_calls hangup]
  cases (getBytePass send s verb what).resume with
  | error t => exact List.prefix_rfl
  | ok y => exact calls_feed send hangup y bytes

/-- Arrivals of these pieces, where the stack holds `verb` whenever the
receiver is called. -/
def arrivals (verb : UInt8) (pieces : List (List UInt8)) : List Arrival :=
  pieces.map fun bytes => ⟨bytes, false, fun _ => verb⟩

theorem arrivals_delivers (verb : UInt8) (pieces : List (List UInt8)) :
    Delivers (arrivals verb pieces) pieces where
  bytes := by
    rw [arrivals, List.map_map]
    exact List.map_id _
  open_ a ha := by
    obtain ⟨bytes, -, rfl⟩ := List.mem_map.mp ha
    rfl

/-- Lists that go on differently after a common part are different. -/
theorem ne_of_prefix_concat {α : Type*} {l xs ys : List α} {a b : α} (hab : a ≠ b)
    (hx : l ++ [a] <+: xs) (hy : l ++ [b] <+: ys) : xs ≠ ys := by
  rintro rfl
  have h := (List.prefix_of_prefix_length_le hx hy (by simp)).eq_of_length (by simp)
  exact hab (by simpa using h)

/-- A cut before an option makes the option calls depend on the stack. -/
theorem calls_ne_of_cut (hsend : ∀ sent data, 0 ≤ send sent data) {v w : UInt8} (hvw : v ≠ w) :
    ∀ {pieces : List (List UInt8)} {s : Stream}, s.state ≠ .noData → CutBeforeOption s.state pieces →
      (receiveAll send s (arrivals v pieces)).2.calls ≠ (receiveAll send s (arrivals w pieces)).2.calls
  | [], _, _, h => h.elim
  | piece :: pieces, s, hs, h => by
    have hcons {u : UInt8} {t : Stream}
        (ht : handleReceive send s ⟨piece, false, fun _ => u⟩ = (true, t)) :
        receiveAll send s (arrivals u (piece :: pieces)) = receiveAll send t (arrivals u pieces) := by
      rw [arrivals, List.map_cons, receiveAll, ht]
      rfl
    have hdata (u : UInt8) : ∃ t, handleReceive send s ⟨piece, false, fun _ => u⟩ = (true, t) ∧
        t.state ≠ .noData ∧ t.state = piece.foldl StreamState.next s.state := by
      obtain ⟨y, hy⟩ := feed_ok send hsend (Reader.start s u) piece
      refine ⟨y.stream, by rw [handleReceive_eq, hy]; rfl, y.settled, ?_⟩
      rw [(resumes send).pos_feed hy, Reader.stream_start, Stream.enterData_of_ne hs]
    by_cases hq : s.state = .haveVerb ∧ piece ≠ []
    · obtain ⟨hverb, hne⟩ := hq
      obtain ⟨what, bytes, rfl⟩ := List.exists_cons_of_ne_nil hne
      refine ne_of_prefix_concat (a := HostCall.hostVerb v what) (b := .hostVerb w what)
        (l := s.calls) (by simp [hvw]) ?_ ?_
      · obtain ⟨t, ht, -⟩ := hdata v
        have hoption := calls_option send hverb v what bytes false
        rw [ht] at hoption
        rw [hcons ht]
        exact hoption.trans (calls_receiveAll send t _)
      · obtain ⟨t, ht, -⟩ := hdata w
        have hoption := calls_option send hverb w what bytes false
        rw [ht] at hoption
        rw [hcons ht]
        exact hoption.trans (calls_receiveAll send t _)
    · have hsame : handleReceive send s ⟨piece, false, fun _ => v⟩ =
          handleReceive send s ⟨piece, false, fun _ => w⟩ := by
        rw [handleReceive_eq, handleReceive_eq]
        by_cases hverb : s.state = .haveVerb
        · obtain rfl : piece = [] := by_contra fun hne => hq ⟨hverb, hne⟩
          rfl
        · rw [Reader.start_congr hverb v w]
      obtain ⟨t, ht, htn, htq⟩ := hdata w
      rw [hcons (hsame.trans ht), hcons ht]
      apply calls_ne_of_cut hsend hvw htn
      rw [htq]
      exact h.resolve_left hq

/-! ## Arrivals do not matter exactly without such a cut -/

/-- For a stream cut in two ways, the receiver ends with the same result and
the same stream, whatever the stack holds and `send` returns, exactly if
neither way has an option arrive after its verb. -/
theorem chunking_iff {s : Stream} (hs : s.state ≠ .noData) {cs ds : List (List UInt8)}
    (h : cs.flatten = ds.flatten) :
    (∀ (send : Send) (as bs : List Arrival), Delivers as cs → Delivers bs ds →
      receiveAll send s as = receiveAll send s bs) ↔
    ¬ CutBeforeOption s.state cs ∧ ¬ CutBeforeOption s.state ds := by
  constructor
  · intro hall
    refine ⟨fun hcut => ?_, fun hcut => ?_⟩
    · have hbs := arrivals_delivers 0 ds
      have h₀ := hall (fun _ _ => 0) _ _ (arrivals_delivers 0 cs) hbs
      have h₁ := hall (fun _ _ => 0) _ _ (arrivals_delivers 1 cs) hbs
      exact calls_ne_of_cut (fun _ _ => 0) (fun _ _ => Int.le_refl 0) (by decide : (0 : UInt8) ≠ 1) hs
        hcut (by rw [h₀, h₁])
    · have has := arrivals_delivers 0 cs
      have h₀ := hall (fun _ _ => 0) _ _ has (arrivals_delivers 0 ds)
      have h₁ := hall (fun _ _ => 0) _ _ has (arrivals_delivers 1 ds)
      exact calls_ne_of_cut (fun _ _ => 0) (fun _ _ => Int.le_refl 0) (by decide : (0 : UInt8) ≠ 1) hs
        hcut (by rw [← h₀, ← h₁])
  · rintro ⟨hc, hd⟩ send as bs has hbs
    have hstart : (Reader.start s 0).stream = s := Stream.enterData_of_ne hs
    have h₁ := receiveAll_of_not_cut send has (Reader.start s 0) (by rwa [hstart])
    have h₂ := receiveAll_of_not_cut send hbs (Reader.start s 0) (by rwa [hstart])
    rw [hstart] at h₁ h₂
    rw [h₁, h₂, h]

/-- `IAC WILL` and the option in one arrival, and cut after the IAC, with
different bytes on the stack. -/
theorem chunking_will :
    let send : Send := fun _ data => data.length
    receiveAll send Stream.accepted (arrivals 0 [[iac, verbWill, terminalType]]) =
      receiveAll send Stream.accepted (arrivals 1 [[iac], [verbWill, terminalType]]) := by
  intro send
  have hcuts : ¬ CutBeforeOption Stream.accepted.state [[iac, verbWill, terminalType]] ∧
      ¬ CutBeforeOption Stream.accepted.state [[iac], [verbWill, terminalType]] := by
    constructor
    · simp [CutBeforeOption, Severed, Stream.accepted]
    · simp [CutBeforeOption, Severed, Stream.accepted, StreamState.next]
  have hflat : [[iac, verbWill, terminalType]].flatten = [[iac], [verbWill, terminalType]].flatten :=
    rfl
  exact (chunking_iff (s := Stream.accepted) (by decide) hflat).mpr hcuts send _ _
    (arrivals_delivers 0 _) (arrivals_delivers 1 _)

/-- `IAC WILL TERMINAL_TYPE` cut before the option, with a 0 on the stack:
`telnet_stream_host_verb` is called for the verb 0, and the subnegotiation
that it starts for `WILL` is not sent. -/
theorem option_call_lost :
    let whole := arrivals 0 [[iac, verbWill, terminalType]]
    let cut := arrivals 0 [[iac, verbWill], [terminalType]]
    let send : Send := fun _ data => data.length
    (receiveAll send Stream.accepted whole).2.calls = [.hostVerb verbWill terminalType] ∧
      (receiveAll send Stream.accepted cut).2.calls = [.hostVerb 0 terminalType] ∧
      receiveAll send Stream.accepted whole ≠ receiveAll send Stream.accepted cut := by
  intro whole cut send
  have hwhole : (receiveAll send Stream.accepted whole).2.calls = [.hostVerb verbWill terminalType] := by
    simp only [whole, arrivals, List.map_cons, List.map_nil, receiveAll, handleReceive_eq]
    rfl
  have hcut : (receiveAll send Stream.accepted cut).2.calls = [.hostVerb 0 terminalType] := by
    simp only [cut, arrivals, List.map_cons, List.map_nil, receiveAll, handleReceive_eq]
    rfl
  refine ⟨hwhole, hcut, fun h => ?_⟩
  rw [h, hcut] at hwhole
  exact absurd hwhole (by decide)

end LinuxSna.TnX
