import LinuxSna.Spec.Telnet

/-!
# The receiver, byte by byte

`telnet_stream_get_byte` loops until it has a byte of data, and
`telnet_stream_handle_receive` calls it until nothing is left to read. Both
loops together are one machine that takes the bytes one at a time
(`readByte`). Its state is the stream and the local variable `verb`, which
means something only in the state `HAVE_VERB` (`Reader`).

* `getByte_feed`: one call of `telnet_stream_get_byte`, then the rest;
* `handleReceive_eq`: one call of the receiver is the machine on what waits;
* `receiveAll_eq`: calling it again for each arrival is feeding the machine in
  pieces, where each cut forgets `verb` (`Reader.forget`);
* `resumes`: that is all a cut does, and it matters in `HAVE_VERB` only.
-/

namespace LinuxSna.TnX

open Framework

/-! ## The machine -/

@[ext] structure Reader where
  stream : Stream
  verb : UInt8
  /-- `NO_DATA` is left as soon as the loop comes around. -/
  settled : stream.state ≠ .noData
  /-- The variable means nothing outside `HAVE_VERB`. -/
  idle : stream.state ≠ .haveVerb → verb = 0

theorem Stream.enterData_state (s : Stream) :
    s.enterData.state = if s.state = .noData then .data else s.state := by
  unfold Stream.enterData
  split <;> simp_all

theorem Stream.enterData_of_ne {s : Stream} (h : s.state ≠ .noData) : s.enterData = s := by
  simp [Stream.enterData, h]

namespace Reader

/-- The machine that reads on from a stream, with a value of `verb`. -/
def start (s : Stream) (verb : UInt8) : Reader where
  stream := s.enterData
  verb := if s.state = .haveVerb then verb else 0
  settled := by
    rw [s.enterData_state]
    split
    · exact StreamState.noConfusion
    · assumption
  idle h := by
    rw [s.enterData_state] at h
    split at h <;> simp_all

/-- What leaving the receiver and entering it again does: `verb` is what the
stack holds. -/
def forget (verb : UInt8) (x : Reader) : Reader := start x.stream verb

@[simp] theorem stream_start (s : Stream) (verb : UInt8) : (start s verb).stream = s.enterData := rfl

@[simp] theorem stream_forget (verb : UInt8) (x : Reader) : (x.forget verb).stream = x.stream :=
  Stream.enterData_of_ne x.settled

theorem forget_of_ne {verb : UInt8} {x : Reader} (h : x.stream.state ≠ .haveVerb) :
    x.forget verb = x := by
  apply Reader.ext
  · exact x.stream_forget verb
  · simp [forget, start, h, x.idle h]

theorem start_congr {s : Stream} (h : s.state ≠ .haveVerb) (v w : UInt8) : start s v = start s w := by
  simp [start, h]

end Reader

variable (send : Send)

/-- What the receiver does with the end of a pass before it reads on. It stops
where `telnet_stream_get_byte` returns `-2`. -/
def Pass.resume : Pass → Except Stream Reader
  | .ret c s => if c = -2 then .error s else .ok (Reader.start (s.onByte c) 0)
  | .fall temp verb s =>
    if s.state = .data then .ok (Reader.start (s.onByte temp) 0) else .ok (Reader.start s verb)

/-- One byte. -/
def readByte (x : Reader) (b : UInt8) : Except Stream Reader :=
  (getBytePass send x.stream x.verb b).resume

/-- What a call of the receiver leaves behind when the bytes are used up. -/
def outcome (hangup : Bool) : Except Stream Reader → Bool × Stream
  | .ok x => (!hangup, x.stream)
  | .error s => (false, s)

@[simp] theorem onByte_state (s : Stream) (c : Int) : (s.onByte c).state = s.state := by
  unfold Stream.onByte
  split
  · split <;> rfl
  · rfl

/-! ## One pass of the loop -/

/-- How a pass at position `q` ends: a `return` is of `-2` or of the end of a
record, and in `DATA` the condition of the loop ends it with the byte read. -/
def Pass.Ends (q : StreamState) (temp : UInt8) : Pass → Prop
  | .ret c s => c = -2 ∨ (c = -25 ∧ s.state = .data ∧ q.next temp = .data)
  | .fall t _ s =>
    (s.state = .data ∧ t = temp.toNat ∧ q.next temp = .data) ∨
    (s.state ≠ .data ∧ s.enterData.state = q.next temp)

theorem getBytePass_ends (s : Stream) (verb temp : UInt8) :
    (getBytePass send s verb temp).Ends s.state temp := by
  unfold getBytePass
  split <;> rename_i h
  · split <;> simp_all [Pass.Ends, StreamState.next, Stream.enterData_state]
  · split <;> simp_all [Pass.Ends, StreamState.next, Stream.enterData_state]
  · split
    · simp_all [Pass.Ends, StreamState.next, iac, verbDo, verbDont, verbWill, verbWont, sb]
    split
    · simp_all [Pass.Ends, StreamState.next, Stream.enterData_state]
    split
    · simp_all [Pass.Ends, StreamState.next, Stream.enterData_state]
    split
    · simp_all [Pass.Ends, StreamState.next, endOfRecord]
    · simp_all [Pass.Ends, StreamState.next, Stream.enterData_state]
  · simp only
    split <;> simp_all [Pass.Ends, StreamState.next, Stream.enterData_state]
  · split <;> simp_all [Pass.Ends, StreamState.next, Stream.enterData_state]
  · split
    · simp_all [Pass.Ends, StreamState.next, Stream.enterData_state]
    split <;> simp_all [Pass.Ends, StreamState.next, Stream.enterData_state]

/-- The position after a byte, whatever the byte did. -/
theorem readByte_state {x y : Reader} {b : UInt8} (h : readByte send x b = .ok y) :
    y.stream.state = x.stream.state.next b := by
  have hends := getBytePass_ends send x.stream x.verb b
  unfold readByte at h
  generalize getBytePass send x.stream x.verb b = p at h hends
  rcases p with ⟨c, s⟩ | ⟨t, v, s⟩
  · rcases hends with rfl | ⟨rfl, hd, hn⟩
    · simp [Pass.resume] at h
    · simp only [Pass.resume, Int.reduceNeg, Int.reduceEq, ↓reduceIte, Except.ok.injEq] at h
      simp [← h, Stream.enterData_state, hd, hn]
  · rcases hends with ⟨hd, -, hn⟩ | ⟨hd, hn⟩
    · simp only [Pass.resume, hd, ↓reduceIte, Except.ok.injEq] at h
      simp [← h, Stream.enterData_state, hd, hn]
    · simp only [Pass.resume, hd, ↓reduceIte, Except.ok.injEq] at h
      rw [← h, Reader.stream_start, hn]

/-- A pass that does not read the option of a verb does not look at `verb`. -/
theorem resume_congr {s : Stream} (h : s.state ≠ .haveVerb) (v w temp : UInt8) :
    (getBytePass send s v temp).resume = (getBytePass send s w temp).resume := by
  have hstart : ∀ t : Stream, t.state ≠ .haveVerb → Reader.start t v = Reader.start t w :=
    fun t ht => Reader.start_congr ht v w
  unfold getBytePass
  split <;> rename_i hs
  · split <;> simp [Pass.resume, hs, hstart]
  · split <;> simp [Pass.resume, hs, hstart]
  · split
    · simp [Pass.resume]
    split
    · rfl
    split
    · simp [Pass.resume, hstart]
    split
    · rfl
    · simp [Pass.resume, hstart]
  · exact absurd hs h
  · split <;> simp [Pass.resume, hs, hstart]
  · split
    · simp [Pass.resume, hs, hstart]
    split <;> simp [Pass.resume, hstart]

theorem readByte_start (s : Stream) (verb b : UInt8) :
    readByte send (Reader.start s verb) b = (getBytePass send s.enterData verb b).resume := by
  by_cases h : s.state = .haveVerb
  · simp [readByte, Reader.start, h]
  · refine resume_congr send ?_ _ _ b
    rw [Reader.stream_start, s.enterData_state]
    split <;> simp_all

/-! ## The loops -/

/-- One call of `telnet_stream_get_byte`: it ends the receiver, or the machine
goes on with the bytes that were not read, whatever `verb` holds then. -/
theorem getByte_feed (hangup : Bool) (w : UInt8) : ∀ (bytes : List UInt8) (verb : UInt8) (s : Stream),
    outcome hangup (feed (readByte send) (Reader.start s verb) bytes) =
      let r := getByte send hangup bytes verb s
      if r.1 = -1 ∨ r.1 = -2 then (decide (r.1 ≠ -2), r.2.1)
      else outcome hangup (feed (readByte send) (Reader.start (r.2.1.onByte r.1) w) r.2.2)
  | [], verb, s => by cases hangup <;> simp [getByte, outcome]
  | b :: bytes, verb, s => by
    have hends := getBytePass_ends send s.enterData verb b
    rw [feed_cons, readByte_start]
    unfold getByte
    generalize getBytePass send s.enterData verb b = p at hends
    rcases p with ⟨c, t⟩ | ⟨temp, v, t⟩
    · rcases hends with rfl | ⟨rfl, hd, -⟩
      · simp [Pass.resume, bind, Except.bind, outcome]
      · have := Reader.start_congr (s := t.onByte (-25)) (by simp [hd]) 0 w
        simp [Pass.resume, bind, Except.bind, this]
    · by_cases hd : t.state = .data
      · obtain ⟨-, rfl, -⟩ := hends.resolve_right fun h => h.1 hd
        have hneg : ¬ ((b.toNat : Int) = -1 ∨ (b.toNat : Int) = -2) := by omega
        have := Reader.start_congr (s := t.onByte b.toNat) (by simp [hd]) 0 w
        simp only [Pass.resume, hd, ↓reduceIte, hneg, bind, Except.bind, this]
      · simp only [Pass.resume, hd, ↓reduceIte, bind, Except.bind]
        exact getByte_feed hangup w bytes v t

theorem handleReceiveLoop_eq (a : Arrival) (n : Nat) (s : Stream) (bytes : List UInt8) :
    handleReceiveLoop send a n s bytes =
      outcome a.hangup (feed (readByte send) (Reader.start s (a.stack n)) bytes) := by
  rw [getByte_feed send a.hangup (a.stack (n + 1)), handleReceiveLoop]
  by_cases h : (getByte send a.hangup bytes (a.stack n) s).1 = -1 ∨
      (getByte send a.hangup bytes (a.stack n) s).1 = -2
  · simp only [h, ↓reduceDIte, ↓reduceIte]
  · have := getByte_rest_lt send a.hangup bytes (a.stack n) s
    simp only [h, ↓reduceDIte, ↓reduceIte]
    exact handleReceiveLoop_eq a (n + 1) _ _
termination_by bytes.length
decreasing_by omega

/-- One call of the receiver is the machine on the bytes that wait. -/
theorem handleReceive_eq (s : Stream) (a : Arrival) :
    handleReceive send s a =
      outcome a.hangup (feed (readByte send) (Reader.start s (a.stack 0)) a.bytes) :=
  handleReceiveLoop_eq send a 0 s a.bytes

/-! ## Calls of the receiver, one after another -/

/-- What the machine is fed by arrivals: what `verb` holds, and the bytes. -/
def Arrival.piece (a : Arrival) : UInt8 × List UInt8 := (a.stack 0, a.bytes)

/-- Arrivals that bring these pieces of a stream, each ending with no data to
read. -/
structure Delivers (as : List Arrival) (pieces : List (List UInt8)) : Prop where
  bytes : as.map Arrival.bytes = pieces
  open_ : ∀ a ∈ as, a.hangup = false

/-- The receiver called for one arrival after another is the machine fed in pieces. -/
theorem receiveAll_eq : ∀ {as : List Arrival} (x : Reader), (∀ a ∈ as, a.hangup = false) →
    receiveAll send x.stream as =
      outcome false (feedCut (readByte send) Reader.forget x (as.map Arrival.piece))
  | [], x, _ => rfl
  | a :: as, x, h => by
    have hx : Reader.start x.stream (a.stack 0) = x.forget (a.stack 0) := rfl
    simp only [receiveAll, handleReceive_eq, h a (List.mem_cons_self ..), List.map_cons, feedCut,
      Arrival.piece, hx]
    cases feed (readByte send) (x.forget (a.stack 0)) a.bytes with
    | error s => rfl
    | ok y => exact receiveAll_eq y fun b hb => h b (List.mem_cons_of_mem _ hb)

/-- A cut forgets `verb`, which matters only before the option of a verb. -/
theorem resumes : Resumes (readByte send) Reader.forget Reader.stream (fun x => x.stream.state)
    StreamState.next (· = .haveVerb) where
  pos_step := readByte_state send
  pos_cut k x := by rw [Reader.stream_forget]
  proj_cut k x := x.stream_forget k
  cut_eq _ _ h := Reader.forget_of_ne h

/-- An outcome depends on the stream of the reader only. -/
theorem outcome_congr {r r' : Except Stream Reader} (h : r.map Reader.stream = r'.map Reader.stream) :
    outcome false r = outcome false r' := by
  rcases r with s | x <;> rcases r' with s' | x' <;> simp_all [Except.map, outcome]

/-- A stream that is not cut before the option of a verb gives the same result
in any arrivals as in one piece. -/
theorem receiveAll_of_not_cut {as : List Arrival} {pieces : List (List UInt8)} (h : Delivers as pieces)
    (x : Reader) (hcut : ¬ CutBeforeOption x.stream.state pieces) :
    receiveAll send x.stream as = outcome false (feed (readByte send) x pieces.flatten) := by
  have hp : (as.map Arrival.piece).map Prod.snd = pieces := by
    rw [List.map_map, ← h.bytes]
    rfl
  rw [receiveAll_eq send x h.open_]
  apply outcome_congr
  rw [(resumes send).feedCut_eq_feed (by rwa [hp]), hp]

end LinuxSna.TnX
