import LinuxSna.Proof.TnX.Chunking
import LinuxSna.Proof.TnX.Framing

/-!
# Subnegotiations

An escaped IAC leaves the receiver in the state `HAVE_SB_IAC`, so that the next byte is taken for
the rest of an escape. The content that is handed over is compared with the one that was sent by
two numbers: how many of its bytes are no IAC, and its length. An IAC in the content makes the first
smaller or the second greater (`handed_of_rest`).
-/

namespace LinuxSna.TnX

open Framework

variable (send : Send)

/-! ## One byte of a subnegotiation -/

/-- A stream that has read some of a subnegotiation. -/
def Stream.inSb (s : Stream) (q : StreamState) (buf : Buffer) : Stream :=
  { s with state := q, sbBuf := buf }

/-- The stream after a subnegotiation that was handed over. -/
def Stream.afterSb (s : Stream) (content : List UInt8) : Stream :=
  { hostSb s content with sbBuf := Buffer.empty, state := .data }

theorem hostSb_inSb (s : Stream) (q : StreamState) (buf : Buffer) (content : List UInt8) :
    hostSb (s.inSb q buf) content = (hostSb s content).inSb q buf := by
  unfold hostSb Stream.inSb
  split
  · rfl
  · split <;> rfl

section

variable (s : Stream) (buf : Buffer)

theorem readByte_sb {b : UInt8} (hb : b ≠ iac) :
    readByte send (Reader.start (s.inSb .haveSb buf) 0) b =
      .ok (Reader.start (s.inSb .haveSb (buf.appendByte b)) 0) := by
  rw [readByte_start, Stream.enterData_of_ne (by simp [Stream.inSb])]
  simp [getBytePass, Stream.inSb, hb, Pass.resume]

theorem readByte_sb_iac :
    readByte send (Reader.start (s.inSb .haveSb buf) 0) iac =
      .ok (Reader.start (s.inSb .haveSbIac buf) 0) := by
  rw [readByte_start, Stream.enterData_of_ne (by simp [Stream.inSb])]
  simp [getBytePass, Stream.inSb, Pass.resume]

/-- The second IAC of an escape: the state stays. -/
theorem readByte_iac_iac :
    readByte send (Reader.start (s.inSb .haveSbIac buf) 0) iac =
      .ok (Reader.start (s.inSb .haveSbIac (buf.appendByte iac)) 0) := by
  rw [readByte_start, Stream.enterData_of_ne (by simp [Stream.inSb])]
  simp [getBytePass, Stream.inSb, Pass.resume]

theorem readByte_iac_se :
    readByte send (Reader.start (s.inSb .haveSbIac buf) 0) se =
      .ok (Reader.start (s.afterSb buf.data) 0) := by
  have hne : se ≠ iac := by decide
  have hpass : getBytePass send (s.inSb .haveSbIac buf) 0 se = .fall se.toNat 0
      { hostSb (s.inSb .haveSbIac buf) buf.data with sbBuf := Buffer.empty, state := .noData } := by
    simp [getBytePass, Stream.inSb, hne]
  rw [readByte_start, Stream.enterData_of_ne (by simp [Stream.inSb]), hpass, hostSb_inSb]
  simp only [Pass.resume, reduceCtorEq, if_false, Except.ok.injEq]
  apply Reader.ext
  · simp [Stream.afterSb, Stream.inSb, Stream.enterData]
  · simp [Reader.start, Stream.afterSb]

/-- Any other byte is lost. -/
theorem readByte_iac_other {b : UInt8} (hi : b ≠ iac) (hs : b ≠ se) :
    readByte send (Reader.start (s.inSb .haveSbIac buf) 0) b =
      .ok (Reader.start (s.inSb .haveSb buf) 0) := by
  rw [readByte_start, Stream.enterData_of_ne (by simp [Stream.inSb])]
  simp [getBytePass, Stream.inSb, hi, hs, Pass.resume]

end

theorem feed_of_ok {x y : Reader} {b : UInt8} (h : readByte send x b = .ok y) (bytes : List UInt8) :
    feed (readByte send) x (b :: bytes) = feed (readByte send) y bytes := by
  rw [feed_cons, h]
  rfl

/-! ## A whole subnegotiation -/

/-- Content without an IAC is kept byte by byte. -/
theorem feed_content (s : Stream) {content : List UInt8} (hc : iac ∉ content) (buf : Buffer) :
    feed (readByte send) (Reader.start (s.inSb .haveSb buf) 0) (content.flatMap wireByte) =
      .ok (Reader.start (s.inSb .haveSb (buf.appendData content)) 0) := by
  induction content generalizing buf with
  | nil => rfl
  | cons b content ih =>
    have hb := List.ne_of_not_mem_cons hc
    have hw : wireByte b = [b] := if_neg (Ne.symm hb)
    rw [List.flatMap_cons, hw, feed_append, feed_cons, readByte_sb send s buf (Ne.symm hb)]
    exact ih (List.not_mem_of_not_mem_cons hc) (buf.appendByte b)

theorem readByte_data_iac {s : Stream} (hs : s.state = .data) :
    readByte send (Reader.start s 0) iac = .ok (Reader.start { s with state := .haveIac } 0) := by
  rw [readByte_start, Stream.enterData_of_ne (by simp [hs])]
  simp [getBytePass, hs, Pass.resume]

theorem readByte_iac_sb (s : Stream) :
    readByte send (Reader.start { s with state := .haveIac } 0) sb =
      .ok (Reader.start (s.inSb .haveSb Buffer.empty) 0) := by
  rw [readByte_start, Stream.enterData_of_ne (by simp)]
  simp [getBytePass, Stream.inSb, Pass.resume, sb, iac, verbDo, verbDont, verbWill, verbWont]

/-- `IAC SB` in front of anything -/
theorem feed_iac_sb {s : Stream} (hs : s.state = .data) (bytes : List UInt8) :
    feed (readByte send) (Reader.start s 0) ([iac, sb] ++ bytes) =
      feed (readByte send) (Reader.start (s.inSb .haveSb Buffer.empty) 0) bytes := by
  have h₁ := readByte_data_iac send hs
  have h₂ := readByte_iac_sb send s
  simp [h₁, h₂, bind, Except.bind]

theorem feed_iac_se (s : Stream) (buf : Buffer) (bytes : List UInt8) :
    feed (readByte send) (Reader.start (s.inSb .haveSb buf) 0) ([iac, se] ++ bytes) =
      feed (readByte send) (Reader.start (s.afterSb buf.data) 0) bytes := by
  have h₁ := readByte_sb_iac send s buf
  have h₂ := readByte_iac_se send s buf
  simp [h₁, h₂, bind, Except.bind]

/-- Content without an IAC is handed over as it is, and what follows is data. -/
theorem feed_subnegotiation {s : Stream} (hs : s.state = .data) {content : List UInt8}
    (hc : iac ∉ content) (bytes : List UInt8) :
    feed (readByte send) (Reader.start s 0) (subnegotiation content ++ bytes) =
      feed (readByte send) (Reader.start (s.afterSb content) 0) bytes := by
  have hbuf : (Buffer.empty.appendData content).data = content := by simp
  unfold subnegotiation
  rw [List.append_assoc, List.append_assoc, feed_iac_sb send hs, feed_append,
    feed_content send s hc Buffer.empty]
  simp only [bind, Except.bind]
  rw [feed_iac_se, hbuf]

/-! ## An IAC in the content -/

/-- The bytes that are no IAC -/
def others (bs : List UInt8) : Nat := bs.countP (· ≠ iac)

@[simp] theorem others_nil : others [] = 0 := rfl

@[simp] theorem others_cons_iac (bs : List UInt8) : others (iac :: bs) = others bs := by
  simp [others]

theorem others_cons {b : UInt8} (hb : b ≠ iac) (bs : List UInt8) : others (b :: bs) = others bs + 1 := by
  simp [others, hb]

@[simp] theorem others_concat_iac (bs : List UInt8) : others (bs ++ [iac]) = others bs := by
  simp [others]

theorem others_concat {b : UInt8} (hb : b ≠ iac) (bs : List UInt8) :
    others (bs ++ [b]) = others bs + 1 := by
  simp [others, hb]

/-- What the receiver hands over first -/
def Handed (r : Except Stream Reader) (s : Stream) (content : List UInt8) : Prop :=
  s.calls ++ [.hostSb content] <+: (outcome false r).2.calls

theorem handed_iac_se (s : Stream) (buf : Buffer) (bytes : List UInt8) :
    Handed (feed (readByte send) (Reader.start (s.inSb .haveSbIac buf) 0) (se :: bytes)) s buf.data := by
  have hcalls : (s.afterSb buf.data).calls = s.calls ++ [.hostSb buf.data] := hostSb_calls s buf.data
  have hfeed := calls_feed send false (Reader.start (s.afterSb buf.data) 0) bytes
  rw [Reader.stream_start, enterData_calls, hcalls] at hfeed
  unfold Handed
  rw [feed_cons, readByte_iac_se]
  exact hfeed

/-- Content that is handed over for other content, of which an IAC is in the rest or has just been
read: fewer bytes are no IAC, or there are more bytes. -/
structure Altered (buf rest handed : List UInt8) : Prop where
  others_le : others handed ≤ others buf + others rest
  differs : others handed < others buf + others rest ∨ buf.length + rest.length < handed.length

/-- What is sent after some of the content -/
def remaining (rest : List UInt8) : List UInt8 := rest.flatMap wireByte ++ [iac, se]

theorem remaining_cons (b : UInt8) (rest : List UInt8) :
    remaining (b :: rest) = wireByte b ++ remaining rest := by
  simp [remaining]

theorem wireByte_iac : wireByte iac = [iac, iac] := rfl

/-- By induction on the rest, with an escape just read and without. -/
theorem handed_of_rest (s : Stream) (rest : List UInt8) :
    (∀ buf : Buffer, ∃ handed,
      Handed (feed (readByte send) (Reader.start (s.inSb .haveSbIac buf) 0) (remaining rest)) s handed ∧
        Altered buf.data rest handed) ∧
    ∀ buf : Buffer, ∃ handed,
      Handed (feed (readByte send) (Reader.start (s.inSb .haveSb buf) 0) (remaining rest)) s handed ∧
        others handed ≤ others buf.data + others rest ∧ (iac ∈ rest → Altered buf.data rest handed) := by
  induction rest with
  | nil =>
    constructor
    · intro buf
      refine ⟨buf.data ++ [iac], ?_, by simp, .inr (by simp)⟩
      show Handed (feed (readByte send) _ (iac :: [se])) s _
      rw [feed_cons, readByte_iac_iac]
      exact handed_iac_se send s (buf.appendByte iac) []
    · intro buf
      refine ⟨buf.data, ?_, Nat.le_refl _, nofun⟩
      show Handed (feed (readByte send) _ (iac :: [se])) s _
      rw [feed_cons, readByte_sb_iac]
      exact handed_iac_se send s buf []
  | cons b rest ih =>
    obtain ⟨ihIac, ihSb⟩ := ih
    rw [remaining_cons]
    by_cases hb : b = iac
    · rw [hb, wireByte_iac]
      constructor
      · intro buf
        obtain ⟨handed, hh, ha⟩ := ihIac ((buf.appendByte iac).appendByte iac)
        have hle := ha.others_le
        have hdiff := ha.differs
        simp only [Buffer.data_appendByte, others_concat_iac, List.length_append, List.length_cons,
          List.length_nil] at hle hdiff
        refine ⟨handed, ?_, by simpa using hle, ?_⟩
        · show Handed (feed (readByte send) _ (iac :: iac :: remaining rest)) s _
          rw [feed_of_ok send (readByte_iac_iac send s buf),
            feed_of_ok send (readByte_iac_iac send s (buf.appendByte iac))]
          exact hh
        · rw [others_cons_iac, List.length_cons]
          omega
      · intro buf
        obtain ⟨handed, hh, ha⟩ := ihIac (buf.appendByte iac)
        have hle := ha.others_le
        have hdiff := ha.differs
        simp only [Buffer.data_appendByte, others_concat_iac, List.length_append, List.length_cons,
          List.length_nil] at hle hdiff
        refine ⟨handed, ?_, by simpa using hle, fun _ => ⟨by simpa using hle, ?_⟩⟩
        · show Handed (feed (readByte send) _ (iac :: iac :: remaining rest)) s _
          rw [feed_of_ok send (readByte_sb_iac send s buf),
            feed_of_ok send (readByte_iac_iac send s buf)]
          exact hh
        · rw [others_cons_iac, List.length_cons]
          omega
    · have hw : wireByte b = [b] := if_neg hb
      rw [hw]
      constructor
      · intro buf
        by_cases hs : b = se
        · rw [hs]
          have hne : se ≠ iac := by decide
          refine ⟨buf.data, handed_iac_se send s buf _, ?_, .inl ?_⟩
          · omega
          · rw [others_cons hne]
            omega
        · obtain ⟨handed, hh, hle, -⟩ := ihSb buf
          refine ⟨handed, ?_, ?_, .inl ?_⟩
          · show Handed (feed (readByte send) _ (b :: remaining rest)) s _
            rw [feed_cons, readByte_iac_other send s buf hb hs]
            exact hh
          · rw [others_cons hb]
            omega
          · rw [others_cons hb]
            omega
      · intro buf
        obtain ⟨handed, hh, hle, ha⟩ := ihSb (buf.appendByte b)
        rw [Buffer.data_appendByte, others_concat hb] at hle
        refine ⟨handed, ?_, ?_, fun hmem => ?_⟩
        · show Handed (feed (readByte send) _ (b :: remaining rest)) s _
          rw [feed_cons, readByte_sb send s buf hb]
          exact hh
        · rw [others_cons hb]
          omega
        · have hr : iac ∈ rest := (List.mem_cons.mp hmem).resolve_left (Ne.symm hb)
          have hdiff := (ha hr).differs
          rw [Buffer.data_appendByte, others_concat hb, List.length_append] at hdiff
          refine ⟨?_, ?_⟩
          · rw [others_cons hb]
            omega
          · rw [others_cons hb, List.length_cons]
            simp only [List.length_cons, List.length_nil] at hdiff
            omega

/-! ## Unescaping -/

/-- In whatever arrivals a subnegotiation and a payload after it come, the content is handed over
as it is, the receiver is back at the data, and it takes the payload for data of a record. -/
def Unescaped (s : Stream) (content : List UInt8) : Prop :=
  ∀ (payload : List UInt8) (pieces : List (List UInt8)) (as : List Arrival), Delivers as pieces →
    pieces.flatten = subnegotiation content ++ payload.flatMap wireByte →
    let r := (receiveAll send s as).2
    r.calls = s.calls ++ [.hostSb content] ∧ r.state = .data ∧
      r.delivery = payload.foldl Delivery.byte s.delivery

theorem foldl_next_content {content : List UInt8} (hc : iac ∉ content) :
    Clear StreamState.next (· = .haveVerb) .haveSb (content.flatMap wireByte) ∧
      (content.flatMap wireByte).foldl StreamState.next .haveSb = .haveSb := by
  induction content with
  | nil => exact ⟨StreamState.noConfusion, rfl⟩
  | cons b content ih =>
    have hb := Ne.symm (List.ne_of_not_mem_cons hc)
    have hw : wireByte b = [b] := if_neg hb
    have hn : StreamState.next .haveSb b = .haveSb := if_neg hb
    obtain ⟨h₁, h₂⟩ := ih (List.not_mem_of_not_mem_cons hc)
    rw [List.flatMap_cons, hw, List.singleton_append, Clear, List.foldl_cons, hn]
    exact ⟨⟨StreamState.noConfusion, h₁⟩, h₂⟩

/-- In such a subnegotiation and a payload no byte is the option of a verb. -/
theorem clear_subnegotiation {content : List UInt8} (hc : iac ∉ content) (payload : List UInt8) :
    Clear StreamState.next (· = .haveVerb) .data
      (subnegotiation content ++ payload.flatMap wireByte) := by
  obtain ⟨h₁, h₂⟩ := foldl_next_content hc
  have hsb : [iac, sb].foldl StreamState.next .data = .haveSb := by decide
  have hse : [iac, se].foldl StreamState.next .haveSb = .data := by decide
  unfold subnegotiation
  rw [clear_append, clear_append, clear_append, List.foldl_append, List.foldl_append,
    List.foldl_append, hsb, h₂, hse]
  refine ⟨⟨⟨?_, h₁⟩, ?_⟩, clear_payload payload⟩
  · simp only [Clear]
    decide
  · simp only [Clear]
    decide

theorem foldl_onByte_calls (s : Stream) (p : List UInt8) :
    (p.foldl (fun s b => s.onByte b.toNat) s).calls = s.calls := by
  induction p generalizing s with
  | nil => rfl
  | cons b p ih => rw [List.foldl_cons, ih, onByte_calls]

theorem foldl_onByte_delivery (s : Stream) (p : List UInt8) :
    (p.foldl (fun s b => s.onByte b.toNat) s).delivery = p.foldl Delivery.byte s.delivery := by
  induction p generalizing s with
  | nil => rfl
  | cons b p ih => rw [List.foldl_cons, ih, delivery_onByte, List.foldl_cons]

theorem delivery_afterSb (s : Stream) (content : List UInt8) :
    (s.afterSb content).delivery = s.delivery := by
  unfold Stream.afterSb hostSb
  split
  · rfl
  · split <;> rfl

/-- One piece of a stream -/
theorem receiveAll_piece {s : Stream} (hs : s.state = .data) {a : Arrival} {piece : List UInt8}
    (h : Delivers [a] [piece]) :
    receiveAll send s [a] = outcome false (feed (readByte send) (Reader.start s 0) piece) := by
  have hd : (Reader.start s 0).stream = s := Stream.enterData_of_ne (by simp [hs])
  have hcut : ¬ CutBeforeOption (Reader.start s 0).stream.state [piece] := by
    rw [hd, hs]
    exact fun hc => hc.elim (fun hc => nomatch hc.1) id
  have hr := receiveAll_of_not_cut send h (Reader.start s 0) hcut
  rwa [hd, List.flatten_singleton] at hr

/-- The receiver unescapes exactly the contents in which no byte is an IAC. -/
theorem unescaped_iff {s : Stream} (hs : s.state = .data) (content : List UInt8) :
    Unescaped send s content ↔ iac ∉ content := by
  have hd : (Reader.start s 0).stream = s := Stream.enterData_of_ne (by simp [hs])
  constructor
  · intro h hc
    obtain ⟨handed, hh, -, ha⟩ := (handed_of_rest send s content).2 Buffer.empty
    let a : Arrival := ⟨subnegotiation content, false, fun _ => 0⟩
    have hdel : Delivers [a] [subnegotiation content] := ⟨rfl, by simp [a]⟩
    obtain ⟨hcalls, -, -⟩ := h [] _ _ hdel (by simp)
    have hr := receiveAll_piece send hs hdel
    rw [subnegotiation, List.append_assoc, feed_iac_sb send hs] at hr
    unfold Handed remaining at hh
    rw [← hr, hcalls] at hh
    -- what is handed over first is the content
    obtain ⟨_, he⟩ := (List.prefix_append_right_inj s.calls).mp hh
    obtain rfl : handed = content := HostCall.hostSb.inj (List.cons.inj he).1
    have hdiff := (ha hc).differs
    simp at hdiff
  · intro hc payload pieces as hdel hp
    have hclear : ¬ CutBeforeOption (Reader.start s 0).stream.state pieces := by
      rw [hd, hs]
      exact Clear.not_severed (by rw [hp]; exact clear_subnegotiation hc payload)
    have hr := receiveAll_of_not_cut send hdel (Reader.start s 0) hclear
    have hstate : (s.afterSb content).state = .data := rfl
    rw [hd, hp, feed_subnegotiation send hs hc, feed_payload send hstate] at hr
    have hend := foldl_onByte_state (s.afterSb content) payload
    dsimp only
    rw [hr, outcome, Reader.stream_start, Stream.enterData_of_ne (by simp [hend, hstate])]
    refine ⟨?_, hend.trans hstate, ?_⟩
    · rw [foldl_onByte_calls]
      exact hostSb_calls s content
    · rw [foldl_onByte_delivery, delivery_afterSb]

/-- A terminal type without an IAC -/
theorem unescaped_terminal : Unescaped (fun _ _ => 0) Stream.accepted [terminalType, 0, 73, 66, 77] :=
  (unescaped_iff (fun _ _ => 0) rfl _).mpr (by decide)

/-- Of an IAC as the last byte the receiver makes two. -/
theorem iac_not_unescaped :
    (receiveAll (fun _ _ => 0) Stream.accepted
      [⟨subnegotiation [terminalType, 0, iac], false, fun _ => 0⟩]).2.calls =
        [.hostSb [terminalType, 0, iac, iac]] ∧
      ¬ Unescaped (fun _ _ => 0) Stream.accepted [terminalType, 0, iac] := by
  have hdel : Delivers [⟨subnegotiation [terminalType, 0, iac], false, fun _ => 0⟩]
      [subnegotiation [terminalType, 0, iac]] := ⟨rfl, by simp⟩
  have hcalls : (receiveAll (fun _ _ => 0) Stream.accepted
      [⟨subnegotiation [terminalType, 0, iac], false, fun _ => 0⟩]).2.calls =
        [.hostSb [terminalType, 0, iac, iac]] := by
    rw [receiveAll_piece _ rfl hdel]
    decide
  refine ⟨hcalls, fun h => ?_⟩
  obtain ⟨hc, -, -⟩ := h [] _ _ hdel (by simp)
  rw [hcalls] at hc
  revert hc
  decide

end LinuxSna.TnX
