import LinuxSna.Framework.Feed
import LinuxSna.Impl.TnX.Stream

/-!
# Telnet streams and the records in them

What the receiver of a TN3270 stream is for, without its loops and buffers:

* `StreamState.next`: where a byte leaves a reader of the stream. The byte
  after `IAC WILL` (`WONT`, `DO`, `DONT`) is the option of that verb;
* `CutBeforeOption`: a stream that arrives in pieces, one of which begins with
  the option of a verb that came before;
* `wire`: the bytes for a list of payloads, `subnegotiation` those for its content;
* `Delivery`: complete records and the one that is not complete, and what a
  byte of data and an end of record do to them.
-/

namespace LinuxSna.TnX

/-! ## Positions -/

/-- The position after a byte. -/
def StreamState.next (q : StreamState) (b : UInt8) : StreamState :=
  match q with
  | .noData | .data => if b = iac then .haveIac else .data
  | .haveIac =>
    if b = verbDo ∨ b = verbDont ∨ b = verbWill ∨ b = verbWont then .haveVerb
    else if b = sb then .haveSb
    else .data
  | .haveVerb => .data
  | .haveSb => if b = iac then .haveSbIac else .haveSb
  | .haveSbIac => if b = iac then .haveSbIac else if b = se then .data else .haveSb

/-- One of the pieces in which a stream arrives begins with the option of a
verb in a piece before it (or, for the first piece, of a verb read before). -/
def CutBeforeOption (q : StreamState) (pieces : List (List UInt8)) : Prop :=
  Framework.Severed StreamState.next (· = .haveVerb) q pieces

/-! ## Payloads on the wire -/

/-- A byte of data as it is sent: an IAC is doubled. -/
def wireByte (b : UInt8) : List UInt8 := if b = iac then [iac, iac] else [b]

/-- Payloads as they are sent, each ended by `IAC EOR`. -/
def wire (payloads : List (List UInt8)) : List UInt8 :=
  payloads.flatMap fun p => p.flatMap wireByte ++ [iac, eor]

/-- A subnegotiation as it is sent: an IAC in its content is doubled. -/
def subnegotiation (content : List UInt8) : List UInt8 :=
  [iac, sb] ++ content.flatMap wireByte ++ [iac, se]

/-! ## Records received -/

/-- The records that are complete and the one that is being received. -/
structure Delivery where
  records : List (List UInt8)
  current : Option (List UInt8)

namespace Delivery

/-- A byte of data belongs to the current record, and begins one if there is none. -/
def byte (d : Delivery) (b : UInt8) : Delivery :=
  { d with current := some (d.current.getD [] ++ [b]) }

/-- The end of a record completes the current one. Without a current record
it is taken for a byte of data, the code `-END_OF_RECORD` as a byte. -/
def endOfRecord (d : Delivery) : Delivery :=
  match d.current with
  | some r => ⟨d.records ++ [r], none⟩
  | none => d.byte 231

/-- A payload and the end of its record. -/
def packet (d : Delivery) (p : List UInt8) : Delivery := (p.foldl byte d).endOfRecord

@[simp] theorem records_byte (d : Delivery) (b : UInt8) : (d.byte b).records = d.records := rfl

theorem foldl_byte (d : Delivery) {p : List UInt8} (hp : p ≠ []) :
    p.foldl byte d = { d with current := some (d.current.getD [] ++ p) } := by
  induction p generalizing d with
  | nil => exact absurd rfl hp
  | cons b p ih =>
    rcases p with _ | ⟨c, p⟩
    · rfl
    · rw [List.foldl_cons, ih _ (List.cons_ne_nil _ _)]
      simp [byte]

/-- A payload that is not empty is delivered, after what was left of a record. -/
theorem packet_of_ne_nil (d : Delivery) {p : List UInt8} (hp : p ≠ []) :
    d.packet p = ⟨d.records ++ [d.current.getD [] ++ p], none⟩ := by
  simp only [packet, foldl_byte d hp, endOfRecord]

/-- An empty payload delivers nothing where no record has begun. -/
theorem records_packet_nil {d : Delivery} (hd : d.current = none) :
    (d.packet []).records = d.records := by
  simp [packet, endOfRecord, hd]

/-- A packet delivers at most one record. -/
theorem length_packet_le (d : Delivery) (p : List UInt8) :
    (d.packet p).records.length ≤ d.records.length + 1 := by
  rcases p with _ | ⟨b, p⟩
  · simp only [packet, List.foldl_nil, endOfRecord]
    split <;> simp
  · rw [packet_of_ne_nil d (List.cons_ne_nil b p)]
    simp

theorem length_packets_le (d : Delivery) (ps : List (List UInt8)) :
    (ps.foldl packet d).records.length ≤ d.records.length + ps.length := by
  induction ps generalizing d with
  | nil => simp
  | cons p ps ih =>
    have h₁ := ih (d.packet p)
    have h₂ := d.length_packet_le p
    simp only [List.foldl_cons, List.length_cons]
    omega

/-- Payloads that are not empty are delivered as they are, one record each. -/
theorem packets_of_ne_nil {d : Delivery} (hd : d.current = none) :
    ∀ {ps : List (List UInt8)}, (∀ p ∈ ps, p ≠ []) →
      ps.foldl packet d = ⟨d.records ++ ps, none⟩
  | [], _ => by rcases d with ⟨r, c⟩; cases hd; simp
  | p :: ps, h => by
    have hp := d.packet_of_ne_nil (h p (List.mem_cons_self ..))
    rw [List.foldl_cons, packets_of_ne_nil (by rw [hp]) fun q hq => h q (List.mem_cons_of_mem _ hq),
      hp, hd]
    simp

/-- With an empty payload among them, fewer records are delivered than were sent. -/
theorem length_packets_lt {d : Delivery} (hd : d.current = none) :
    ∀ {ps : List (List UInt8)}, [] ∈ ps →
      (ps.foldl packet d).records.length < d.records.length + ps.length
  | [] :: ps, _ => by
    have := length_packets_le (d.packet []) ps
    rw [records_packet_nil hd] at this
    simp only [List.foldl_cons, List.length_cons]
    omega
  | (b :: p) :: ps, h => by
    have hp := d.packet_of_ne_nil (List.cons_ne_nil b p)
    have := length_packets_lt (d := d.packet (b :: p)) (by rw [hp])
      ((List.mem_cons.mp h).resolve_left (List.cons_ne_nil b p).symm)
    simp only [hp, List.length_append, List.length_singleton] at this
    simp only [List.foldl_cons, List.length_cons, hp]
    omega

end Delivery

end LinuxSna.TnX
