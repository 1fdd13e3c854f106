import LinuxSna.Proof.TnX.Receive

/-!
# Packets and records

What `tn3270_stream_send_packet` writes for payloads, and what the receiver
makes of it, in any arrivals:

* `sendPackets_eq`: packets are `wire` of their payloads;
* `feed_wire`: the receiver on `wire` of any payloads, in terms of the bytes
  and record ends its loop is given;
* `delivery_onByte`, `delivery_onEnd`: these do to the records what `Delivery`
  says, so the receiver delivers `Delivery.packet` of each payload
  (`receiveAll_delivery`);
* `returned_eq`: the records that `tnX_stream_get_record` hands out.

An empty payload is not a record (`framing_iff`): the end of a record without
a current one begins a record with the byte 231 in it.
-/

namespace LinuxSna.TnX

open Framework

/-! ## The sender -/

theorem data_escape (b : Buffer) : (escape b).data = b.data.flatMap wireByte := by
  have h : ∀ (cs : List UInt8) (out : Buffer),
      (cs.foldl (fun out c =>
        let out := out.appendByte c
        if c = iac then out.appendByte iac else out) out).data = out.data ++ cs.flatMap wireByte := by
    intro cs
    induction cs with
    | nil => simp
    | cons c cs ih =>
      intro out
      rw [List.foldl_cons, ih, List.flatMap_cons]
      by_cases hc : c = iac <;> simp [wireByte, hc]
  simpa [escape] using h b.data Buffer.empty

/-- When the write loop ends, everything has been written. -/
theorem telnetStreamWrite_eq : ∀ {rounds : List WriteRound} {data w : List UInt8},
    telnetStreamWrite rounds data = some w → w = data
  | [], _, _, h => by simp [telnetStreamWrite] at h
  | .failed :: _, _, _, h => by simp [telnetStreamWrite] at h
  | .again :: rounds, data, w, h => by
    simp only [telnetStreamWrite] at h
    split at h
    · simp_all
    · exact telnetStreamWrite_eq h
  | .sent n :: rounds, data, w, h => by
    simp only [telnetStreamWrite] at h
    split at h
    · rename_i hn
      rw [← Option.some.inj h, ← List.take_append_drop n data, hn, List.append_nil, List.take_take,
        Nat.min_self]
    · obtain ⟨v, hv, rfl⟩ := Option.map_eq_some_iff.mp h
      rw [telnetStreamWrite_eq hv, List.take_append_drop]

theorem sendPackets_eq : ∀ {ps : List (List WriteRound × List UInt8)} {w : List UInt8},
    sendPackets ps = some w → w = wire (ps.map Prod.snd)
  | [], w, h => by simpa [sendPackets, wire] using h.symm
  | (rounds, data) :: ps, w, h => by
    obtain ⟨v, hv, h⟩ := Option.bind_eq_some_iff.mp h
    obtain ⟨u, hu, rfl⟩ := Option.map_eq_some_iff.mp h
    rw [sendPackets_eq hu, telnetStreamWrite_eq hv]
    simp [wire, data_escape]

/-! ## The receiver on packets -/

/-- The bytes of a payload and the end of its record, as the receiver's loop
is given them. -/
def Stream.onPayload (s : Stream) (p : List UInt8) : Stream :=
  (p.foldl (fun s b => s.onByte b.toNat) s).onByte (-25)

theorem foldl_onByte_state (s : Stream) (p : List UInt8) :
    (p.foldl (fun s b => s.onByte b.toNat) s).state = s.state := by
  induction p generalizing s with
  | nil => rfl
  | cons b p ih => rw [List.foldl_cons, ih, onByte_state]

@[simp] theorem onPayload_state (s : Stream) (p : List UInt8) : (s.onPayload p).state = s.state := by
  rw [Stream.onPayload, onByte_state, foldl_onByte_state]

variable (send : Send)

/-- A byte of data, as it is sent. -/
theorem feed_wireByte {s : Stream} (hs : s.state = .data) (b : UInt8) :
    feed (readByte send) (Reader.start s 0) (wireByte b) = .ok (Reader.start (s.onByte b.toNat) 0) := by
  have hd : s.enterData = s := Stream.enterData_of_ne (by simp [hs])
  by_cases hb : b = iac
  · have h₁ : readByte send (Reader.start s 0) iac = .ok (Reader.start { s with state := .haveIac } 0) := by
      simp [readByte_start, hd, getBytePass, hs, Pass.resume]
    have h₂ : readByte send (Reader.start { s with state := .haveIac } 0) iac =
        .ok (Reader.start (s.onByte iac.toNat) 0) := by
      rw [readByte_start, Stream.enterData_of_ne (by simp)]
      simp [getBytePass, Pass.resume, ← hs]
    simp [wireByte, hb, h₁, h₂, bind, Except.bind]
  · have h : readByte send (Reader.start s 0) b = .ok (Reader.start (s.onByte b.toNat) 0) := by
      simp [readByte_start, hd, getBytePass, hs, hb, Pass.resume]
    simp [wireByte, hb, h, bind, Except.bind]

theorem feed_payload {s : Stream} (hs : s.state = .data) (p : List UInt8) :
    feed (readByte send) (Reader.start s 0) (p.flatMap wireByte) =
      .ok (Reader.start (p.foldl (fun s b => s.onByte b.toNat) s) 0) := by
  induction p generalizing s with
  | nil => rfl
  | cons b p ih =>
    rw [List.flatMap_cons, feed_append, feed_wireByte send hs]
    exact ih (by rw [onByte_state, hs])

theorem feed_eor {s : Stream} (hs : s.state = .data) :
    feed (readByte send) (Reader.start s 0) [iac, eor] = .ok (Reader.start (s.onByte (-25)) 0) := by
  have hd : s.enterData = s := Stream.enterData_of_ne (by simp [hs])
  have h₁ : readByte send (Reader.start s 0) iac = .ok (Reader.start { s with state := .haveIac } 0) := by
    simp [readByte_start, hd, getBytePass, hs, Pass.resume]
  have h₂ : readByte send (Reader.start { s with state := .haveIac } 0) eor =
      .ok (Reader.start (s.onByte (-25)) 0) := by
    rw [readByte_start, Stream.enterData_of_ne (by simp)]
    simp [getBytePass, Pass.resume, ← hs, eor, iac, verbDo, verbDont, verbWill, verbWont, sb, endOfRecord]
  simp [h₁, h₂, bind, Except.bind]

/-- The receiver on the packets of any payloads. -/
theorem feed_wire {s : Stream} (hs : s.state = .data) (ps : List (List UInt8)) :
    feed (readByte send) (Reader.start s 0) (wire ps) =
      .ok (Reader.start (ps.foldl Stream.onPayload s) 0) := by
  induction ps generalizing s with
  | nil => rfl
  | cons p ps ih =>
    have hp : (p.foldl (fun s b => s.onByte b.toNat) s).state = .data := by
      rw [foldl_onByte_state, hs]
    rw [wire, List.flatMap_cons, feed_append, feed_append, feed_payload send hs]
    simp only [bind, Except.bind, feed_eor send hp]
    exact ih (by rw [onByte_state, hp])

/-! ## Cuts inside packets -/

theorem foldl_next_wireByte (b : UInt8) : (wireByte b).foldl StreamState.next .data = .data := by
  by_cases hb : b = iac
  · simp only [wireByte, hb]
    decide
  · simp [wireByte, StreamState.next, hb]

theorem foldl_next_payload (p : List UInt8) :
    (p.flatMap wireByte).foldl StreamState.next .data = .data := by
  induction p with
  | nil => rfl
  | cons b p ih => rw [List.flatMap_cons, List.foldl_append, foldl_next_wireByte, ih]

theorem clear_payload (p : List UInt8) :
    Clear StreamState.next (· = .haveVerb) .data (p.flatMap wireByte) := by
  induction p with
  | nil => exact StreamState.noConfusion
  | cons b p ih =>
    rw [List.flatMap_cons, clear_append, foldl_next_wireByte]
    refine ⟨?_, ih⟩
    by_cases hb : b = iac
    · simp only [wireByte, if_pos hb, Clear]
      decide
    · simp [wireByte, Clear, StreamState.next, hb]

/-- Inside packets no byte is the option of a verb. -/
theorem clear_wire (ps : List (List UInt8)) :
    Clear StreamState.next (· = .haveVerb) .data (wire ps) := by
  induction ps with
  | nil => exact StreamState.noConfusion
  | cons p ps ih =>
    rw [wire, List.flatMap_cons, clear_append, clear_append, List.foldl_append, foldl_next_payload]
    exact ⟨⟨clear_payload p, by simp only [Clear]; decide⟩, ih⟩

/-- The receiver on packets that come in any arrivals. -/
theorem receiveAll_wire {s : Stream} (hs : s.state = .data) {ps pieces : List (List UInt8)}
    {as : List Arrival} (h : Delivers as pieces) (hw : pieces.flatten = wire ps) :
    receiveAll send s as = (true, ps.foldl Stream.onPayload s) := by
  have hd : (Reader.start s 0).stream = s := Stream.enterData_of_ne (by simp [hs])
  have hps : (ps.foldl Stream.onPayload s).state = .data := by
    clear hw
    induction ps generalizing s with
    | nil => exact hs
    | cons p ps ih => exact ih (by rw [onPayload_state, hs]) (Stream.enterData_of_ne (by simp [hs]))
  have hclear : ¬ CutBeforeOption (Reader.start s 0).stream.state pieces := by
    rw [hd, hs]
    exact Clear.not_severed (by rw [hw]; exact clear_wire ps)
  have := receiveAll_of_not_cut send h (Reader.start s 0) hclear
  rw [hd, hw, feed_wire send hs] at this
  rw [this, outcome, Reader.stream_start, Stream.enterData_of_ne (by simp [hps])]
  rfl

/-! ## Records -/

/-- The records of a stream, without their buffers. -/
def Stream.delivery (s : Stream) : Delivery :=
  ⟨s.records.map Record.bytes, s.currentRecord.map Record.bytes⟩

theorem ofInt_toNat (b : UInt8) : UInt8.ofInt (b.toNat : Int) = b := by
  rw [UInt8.ofInt, ← UInt8.toNat_inj]
  have := b.toNat_lt
  simp only [UInt8.toNat_ofNat']
  omega

theorem delivery_onByte (s : Stream) (b : UInt8) : (s.onByte b.toNat).delivery = s.delivery.byte b := by
  have hb : ¬ (b.toNat : Int) = -(endOfRecord.toNat : Int) := by
    simp only [endOfRecord, UInt8.toNat_ofNat]
    omega
  have hc := ofInt_toNat b
  rcases h : s.currentRecord with _ | r <;>
    simp [Stream.onByte, h, hb, hc, Stream.delivery, Delivery.byte]

theorem delivery_onEnd (s : Stream) : (s.onByte (-25)).delivery = s.delivery.endOfRecord := by
  rcases h : s.currentRecord with _ | r
  · simp only [Stream.onByte, h, Stream.delivery, Delivery.endOfRecord, Option.map_none, Delivery.byte]
    rfl
  · simp [Stream.onByte, h, Stream.delivery, Delivery.endOfRecord, recordListAdd, endOfRecord]

theorem delivery_onPayload (s : Stream) (p : List UInt8) :
    (s.onPayload p).delivery = s.delivery.packet p := by
  rw [Stream.onPayload, delivery_onEnd, Delivery.packet]
  congr 1
  induction p generalizing s with
  | nil => rfl
  | cons b p ih => rw [List.foldl_cons, ih, delivery_onByte, List.foldl_cons]

theorem delivery_onPayloads (s : Stream) (ps : List (List UInt8)) :
    (ps.foldl Stream.onPayload s).delivery = ps.foldl Delivery.packet s.delivery := by
  induction ps generalizing s with
  | nil => rfl
  | cons p ps ih => rw [List.foldl_cons, ih, delivery_onPayload, List.foldl_cons]

/-- A TN3270 stream whose counter counts its records. -/
structure Stream.Counted (s : Stream) : Prop where
  count : s.recordCount = s.records.length
  type : s.streamtype ≠ .tn5250

theorem Stream.Counted.onByte {s : Stream} (h : s.Counted) (c : Int) : (s.onByte c).Counted := by
  obtain ⟨hc, ht⟩ := h
  unfold Stream.onByte
  split
  · split
    · exact ⟨by simp [recordListAdd, hc], ht⟩
    · exact ⟨hc, ht⟩
  · exact ⟨hc, ht⟩

theorem Stream.Counted.onPayload {s : Stream} (h : s.Counted) (p : List UInt8) :
    (s.onPayload p).Counted := by
  refine Stream.Counted.onByte ?_ _
  induction p generalizing s with
  | nil => exact h
  | cons b p ih => exact ih (h.onByte _)

theorem Stream.Counted.onPayloads {s : Stream} (h : s.Counted) (ps : List (List UInt8)) :
    (ps.foldl Stream.onPayload s).Counted := by
  induction ps generalizing s with
  | nil => exact h
  | cons p ps ih => exact ih (h.onPayload p)

/-- What `tnX_stream_get_record` returns when it is called `record_count` times. -/
def Stream.returned (s : Stream) : Option (List (List UInt8)) :=
  (getRecords s.recordCount s).map (List.map Record.bytes)

/-- The records are handed out in order, each once. -/
theorem Stream.Counted.returned_eq {s : Stream} (h : s.Counted) :
    s.returned = some (s.records.map Record.bytes) := by
  obtain ⟨hc, ht⟩ := h
  unfold Stream.returned
  rw [hc]
  induction hr : s.records generalizing s with
  | nil => simp [getRecords]
  | cons r rs ih =>
    have hn : ¬ s.recordCount < 1 := by
      rw [hc, hr, List.length_cons]
      omega
    have := ih (s := { s with records := rs, recordCount := s.recordCount - 1 })
      (by simp [hc, hr]) ht rfl
    obtain ⟨rest, hrest, hbytes⟩ := Option.map_eq_some_iff.mp this
    simp [List.length_cons, getRecords, getRecord, hr, hn, ht, hrest, hbytes]
    rfl

/-- What an idle TN3270 stream delivers of packets, in any arrivals. -/
theorem receiveAll_delivery {s : Stream} (hs : s.state = .data) (hc : s.Counted)
    {ps pieces : List (List UInt8)} {as : List Arrival} (h : Delivers as pieces)
    (hw : pieces.flatten = wire ps) :
    (receiveAll send s as).1 = true ∧
      (receiveAll send s as).2.returned = some (ps.foldl Delivery.packet s.delivery).records ∧
      (receiveAll send s as).2.recordCount = (ps.foldl Delivery.packet s.delivery).records.length := by
  rw [receiveAll_wire send hs h hw]
  have hcount := hc.onPayloads ps
  refine ⟨rfl, ?_, ?_⟩
  · rw [hcount.returned_eq, ← delivery_onPayloads]
    rfl
  · rw [hcount.count, ← delivery_onPayloads, Stream.delivery, List.length_map]

/-! ## Round trips -/

/-- A TN3270 stream that has nothing of a record and holds none. -/
structure Stream.Idle (s : Stream) : Prop where
  state : s.state = .data
  current : s.currentRecord = none
  records : s.records = []
  count : s.recordCount = 0
  type : s.streamtype ≠ .tn5250

theorem Stream.Idle.counted {s : Stream} (h : s.Idle) : s.Counted :=
  ⟨by rw [h.count, h.records, List.length_nil], h.type⟩

theorem Stream.Idle.delivery_eq {s : Stream} (h : s.Idle) : s.delivery = ⟨[], none⟩ := by
  rw [Stream.delivery, h.records, h.current]
  rfl

theorem accepted_idle : Stream.accepted.Idle := ⟨rfl, rfl, rfl, rfl, StreamType.noConfusion⟩

/-- The receiver goes on, and the records it hands out are the payloads. -/
structure RoundTrip (payloads : List (List UInt8)) (r : Bool × Stream) : Prop where
  goesOn : r.1 = true
  returned : r.2.returned = some payloads
  count : r.2.recordCount = payloads.length

/-- Payloads that are sent come out as the records of an idle stream, however
they arrive, exactly if none of them is empty. -/
theorem framing_iff {packets : List (List WriteRound × List UInt8)} {bytes : List UInt8}
    (hsent : sendPackets packets = some bytes) {pieces : List (List UInt8)} {as : List Arrival}
    (has : Delivers as pieces) (hpieces : pieces.flatten = bytes) {s : Stream} (hs : s.Idle) :
    RoundTrip (packets.map Prod.snd) (receiveAll send s as) ↔ ∀ p ∈ packets, p.2 ≠ [] := by
  obtain ⟨hopen, hret, hcount⟩ := receiveAll_delivery send hs.state hs.counted has
    (hpieces.trans (sendPackets_eq hsent))
  rw [hs.delivery_eq] at hret hcount
  constructor
  · intro h p hp hnil
    have hlt := Delivery.length_packets_lt (d := ⟨[], none⟩) rfl
      (List.mem_map.mpr ⟨p, hp, hnil⟩)
    rw [← hcount, h.count] at hlt
    simp at hlt
  · intro h
    have hne : ∀ p ∈ packets.map Prod.snd, p ≠ [] := fun p hp => by
      obtain ⟨q, hq, rfl⟩ := List.mem_map.mp hp
      exact h q hq
    rw [Delivery.packets_of_ne_nil rfl hne] at hret hcount
    exact ⟨hopen, by simpa using hret, by simpa using hcount⟩

/-- Two payloads, the second sent in two writes, received in one arrival. -/
theorem framing_two :
    RoundTrip [[1], [255, 2]] (receiveAll (fun _ d => d.length) Stream.accepted
      [⟨[1, 255, 239, 255, 255, 2, 255, 239], false, fun _ => 0⟩]) :=
  (@framing_iff (fun _ d => d.length) [([.sent 3], [1]), ([.sent 2, .again, .sent 3], [255, 2])]
    [1, 255, 239, 255, 255, 2, 255, 239] (by decide) [[1, 255, 239, 255, 255, 2, 255, 239]]
    [⟨[1, 255, 239, 255, 255, 2, 255, 239], false, fun _ => 0⟩] ⟨rfl, by simp⟩ rfl Stream.accepted
    accepted_idle).mpr (by decide)

/-- An empty payload and the payload after it come out as one record. -/
theorem empty_payload_joined :
    sendPackets [([.sent 2], []), ([.sent 3], [1])] = some [255, 239, 1, 255, 239] ∧
    (receiveAll (fun _ d => d.length) Stream.accepted
      [⟨[255, 239, 1, 255, 239], false, fun _ => 0⟩]).2.returned = some [[231, 1]] ∧
    ¬ RoundTrip [[], [1]] (receiveAll (fun _ d => d.length) Stream.accepted
      [⟨[255, 239, 1, 255, 239], false, fun _ => 0⟩]) := by
  have has : Delivers [⟨[255, 239, 1, 255, 239], false, fun _ => 0⟩] [[255, 239, 1, 255, 239]] :=
    ⟨rfl, by simp⟩
  have hwire : [[255, 239, 1, 255, 239]].flatten = wire [[], [1]] := by decide
  obtain ⟨-, hret, -⟩ := receiveAll_delivery (fun _ d => d.length) accepted_idle.state
    accepted_idle.counted has hwire
  refine ⟨by decide, hret, fun h => ?_⟩
  rw [h.returned] at hret
  revert hret
  decide

end LinuxSna.TnX
