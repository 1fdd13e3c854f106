import LinuxSna.Impl.Asuite.Ftp.Records
import LinuxSna.Proof.Asuite.Codec

/-!
# Records of AFTP, as they are sent and received

* `sendAsuiterecord_build`: what is sent is the type and the parameters that were appended;
* `Holds`: a record that has been received holds what was sent, whatever was in it before;
* `scanFrom_call`: one pass of a loop over the parameters, where a parameter stands.
-/

namespace LinuxSna.Asuite.Ftp

/-- A record: its type, and its parameters. -/
def message (host : Host) (rectype : Nat) (calls : List Call) : List UInt8 :=
  host.short rectype ++ calls.flatMap (Call.bytes host)

/-! ## What is sent -/

theorem settype_buffer (host : Host) (record : Record) (rectype : Nat) :
    (asuiterecordSettype host record rectype).slice 0 2 = host.short rectype := by
  simp only [Record.slice_succ, asuiterecordSettype, Record.store, Host.short]
  rfl

@[simp] theorem position_settype (host : Host) (record : Record) (rectype : Nat) :
    (asuiterecordSettype host record rectype).position = record.position := rfl

@[simp] theorem position_clear (record : Record) : (asuiterecordClear record).position = 2 := rfl

/-- What stands before the position is not touched by what is stored. -/
theorem slice_puts_before (r : Record) (bytes : List UInt8) {start n : Nat}
    (h : start + n ≤ r.position) : (r.puts bytes).slice start n = r.slice start n := by
  apply List.map_congr_left
  intro i hi
  exact r.buffer_puts bytes (by have := List.mem_range.mp hi; omega)

/-- A record that has its type, and nothing else yet. -/
structure Typed (host : Host) (rectype : Nat) (record : Record) : Prop where
  position : record.position = 2
  slice : record.slice 0 2 = host.short rectype

theorem typed_settype (host : Host) (record : Record) (rectype : Nat) :
    Typed host rectype (asuiterecordSettype host (asuiterecordClear record) rectype) :=
  ⟨rfl, settype_buffer host _ rectype⟩

namespace Typed

variable {host : Host} {rectype : Nat} {record : Record}

/-- What is sent after bytes were appended. -/
theorem send_puts (h : Typed host rectype record) (bytes : List UInt8) :
    sendAsuiterecord (record.puts bytes) = host.short rectype ++ bytes := by
  have hbytes := record.slice_puts bytes
  rw [h.position] at hbytes
  rw [sendAsuiterecord, Record.position_puts, h.position, Record.slice_add, Nat.zero_add, hbytes,
    slice_puts_before record bytes (Nat.le_of_eq h.position.symm), h.slice]

/-- The type stays when the record is used again. -/
theorem clear_puts (h : Typed host rectype record) (bytes : List UInt8) :
    Typed host rectype (asuiterecordClear (record.puts bytes)) where
  position := rfl
  slice := (slice_puts_before record bytes (Nat.le_of_eq h.position.symm)).trans h.slice

end Typed

/-- The calls of the encoders, one after another. -/
theorem foldl_run (host : Host) (calls : List Call) (r : Record) :
    calls.foldl (fun r c => c.run host r) r = r.puts (calls.flatMap (Call.bytes host)) := by
  induction calls generalizing r with
  | nil => rfl
  | cons c calls ih => rw [List.foldl_cons, ih, List.flatMap_cons, Record.puts_append, Call.run_eq]

theorem sendAsuiterecord_build (host : Host) (record : Record) (rectype : Nat)
    (calls : List Call) :
    sendAsuiterecord (calls.foldl (fun r c => c.run host r)
        (asuiterecordSettype host (asuiterecordClear record) rectype)) =
      message host rectype calls := by
  rw [foldl_run, (typed_settype host record rectype).send_puts, message]

@[simp] theorem length_message (host : Host) (rectype : Nat) (calls : List Call) :
    (message host rectype calls).length = 2 + (calls.flatMap (Call.bytes host)).length := by
  rw [message, List.length_append, Host.length_short]

/-! ## What is received -/

/-- A record holds what has been received. -/
structure Holds (record : Record) (data : List UInt8) : Prop where
  position : record.position = data.length
  slice : record.slice 0 data.length = data

theorem holds_getAsuiterecord (data : List UInt8) (record : Record) :
    Holds (getAsuiterecord data record) data where
  position := by rw [getAsuiterecord, Record.position_puts, Nat.zero_add]
  slice := Record.slice_puts ({ record with position := 0 } : Record) data

/-- What was in the buffer before stays behind what is received. -/
theorem getAsuiterecord_behind (data : List UInt8) (record : Record) {i : Nat}
    (h : data.length ≤ i) : (getAsuiterecord data record).buffer i = record.buffer i := by
  rw [getAsuiterecord]
  generalize hr : ({ record with position := 0 } : Record) = r
  have hi : r.position + data.length ≤ i := by rw [← hr]; exact (Nat.zero_add _).trans_le h
  have hbuffer : record.buffer = r.buffer := by rw [← hr]
  rw [hbuffer]
  clear hr hbuffer h
  induction data generalizing r with
  | nil => rfl
  | cons b data ih =>
    rw [List.length_cons] at hi
    rw [Record.puts_cons, ih (r.put b) (by simp only [Record.put]; omega)]
    exact Function.update_of_ne (by omega) _ _

namespace Holds

variable {host : Host} {record : Record} {rectype : Nat} {calls : List Call}

theorem params (h : Holds record (message host rectype calls)) :
    record.slice 2 (calls.flatMap (Call.bytes host)).length = calls.flatMap (Call.bytes host) := by
  have hslice := h.slice
  rw [length_message, Record.slice_add, message, Nat.zero_add] at hslice
  exact (List.append_inj hslice (Record.length_slice ..)).2

theorem position_message (h : Holds record (message host rectype calls)) :
    record.position = 2 + (calls.flatMap (Call.bytes host)).length := by
  rw [h.position, length_message]

/-- The major code of a record that comes from a little-endian host. -/
theorem majorCode {data : List UInt8} (h : Holds record (Host.little.short rectype ++ data))
    (hlt : rectype < 256) : getMajorCode record = rectype := by
  have hslice := h.slice
  rw [List.length_append, Host.length_short, Record.slice_add] at hslice
  have htype := (List.append_inj hslice (Record.length_slice ..)).1
  simp only [Record.slice_succ, Host.short, List.cons.injEq] at htype
  have htons : Host.little.htons (rectype % 2 ^ 16) = rectype * 2 ^ 8 := by
    rw [Nat.mod_eq_of_lt (show rectype < 2 ^ 16 by omega), Host.htons]
    omega
  rw [getMajorCode, htype.2.1, htons, Nat.mul_div_cancel _ (by decide), UInt8.toNat_ofNat',
    Nat.mod_eq_of_lt hlt]

end Holds

/-- On a host of the other byte order no record has a major code but 0. -/
theorem majorCode_big {record : Record} {rectype : Nat} {data : List UInt8} (hlt : rectype < 256)
    (h : Holds record (Host.big.short rectype ++ data)) : getMajorCode record = 0 := by
  have hslice := h.slice
  rw [List.length_append, Host.length_short, Record.slice_add] at hslice
  have htype := (List.append_inj hslice (Record.length_slice ..)).1
  simp only [Record.slice_succ, Host.short, List.cons.injEq] at htype
  rw [getMajorCode, htype.2.1]
  simp only [Host.htons, UInt8.toNat_ofNat']
  omega

/-! ## Parameters -/

/-- The string of bytes with a NUL among them, where they stand in the buffer. -/
theorem stringAt_eq {record : Record} {start : Nat} {data : List UInt8} (hnul : 0 ∈ data)
    (h : record.slice start data.length = data) (hfits : start + data.length ≤ maxBufferSize) :
    stringAt record start = data.takeWhile (· ≠ 0) := by
  obtain ⟨n, hn⟩ : ∃ n, maxBufferSize - start = data.length + n :=
    ⟨maxBufferSize - start - data.length, by omega⟩
  have hstops : (data.takeWhile (· ≠ 0)).length ≠ data.length := fun heq => by
    have hwhole := (List.takeWhile_prefix (p := fun x : UInt8 => x ≠ 0) (l := data)).eq_of_length heq
    rw [← hwhole] at hnul
    simpa using List.mem_takeWhile_imp hnul
  rw [stringAt, hn, Record.slice_add, h, List.takeWhile_append, if_neg hstops]

/-- A parameter stands somewhere in the buffer. -/
structure Stands (host : Host) (record : Record) (c : Nat) (x : Call) : Prop where
  slice : record.slice c (x.bytes host).length = x.bytes host
  fits : c + (x.bytes host).length ≤ maxBufferSize

/-- The first parameter of a record stands behind its type. -/
theorem Holds.stands_first {host : Host} {record : Record} {rectype : Nat} {x : Call}
    (calls : List Call) (h : Holds record (message host rectype (x :: calls)))
    (hfits : (message host rectype (x :: calls)).length ≤ maxBufferSize) :
    Stands host record 2 x := by
  rw [length_message, List.flatMap_cons, List.length_append] at hfits
  exact ⟨(Call.slice_cons h.params).1, by omega⟩

/-- The key and the length of a parameter that stands somewhere, and its bytes. -/
theorem Stands.faithful {host : Host} {record : Record} {c : Nat} {x : Call}
    (h : Stands host record c x) (hx : x.Faithful) :
    getKey record c = x.key ∧ getParamLen host record c = (x.bytes host).length ∧
      record.slice (c + 3) (x.data host).length = x.data host := by
  obtain ⟨hlen, hdata⟩ := hx.stored host
  obtain ⟨hslice, hfits⟩ := h
  rw [Call.length_bytes] at hslice hfits ⊢
  rw [maxBufferSize] at hfits
  obtain ⟨hparam, hkey, hslice⟩ := paramAt_bytes hslice
  rw [hdata] at hslice
  refine ⟨hkey, ?_, hslice⟩
  rw [hparam, hlen, Nat.mod_eq_of_lt (by omega)]

/-- The string of a parameter with a NUL in it. -/
theorem Stands.string {host : Host} {record : Record} {c : Nat} {x : Call}
    (h : Stands host record c x) (hx : x.Faithful) (hnul : 0 ∈ x.data host) :
    stringAt record (c + 3) = (x.data host).takeWhile (· ≠ 0) := by
  have hfits := h.fits
  rw [Call.length_bytes, (hx.stored host).2] at hfits
  exact stringAt_eq hnul (h.faithful hx).2.2 (by omega)

/-- The first byte of a parameter that has one. -/
theorem Stands.first {host : Host} {record : Record} {c : Nat} {x : Call} {b : UInt8}
    {rest : List UInt8} (h : Stands host record c x) (hx : x.Faithful)
    (hdata : x.data host = b :: rest) : record.buffer (c + 3) = b := by
  have hslice := (h.faithful hx).2.2
  rw [hdata, List.length_cons, Record.slice_succ] at hslice
  exact (List.cons.inj hslice).1

section Scan

variable {σ ρ : Type} {host : Host} {record : Record} {body : Nat → σ → σ ⊕ ρ}

/-- What is done for parameters, one after another from a position on, until one of them leaves
the loop. -/
def scanCalls (host : Host) (step : Nat → Call → σ → σ ⊕ ρ) : Nat → List Call → σ → σ ⊕ ρ
  | _, [], a => .inl a
  | c, x :: calls, a =>
    match step c x a with
    | .inl a => scanCalls host step (c + (x.bytes host).length) calls a
    | .inr r => .inr r

theorem scanCalls_inl (host : Host) (c : Nat) (calls : List Call) (a : σ) :
    scanCalls host (fun _ _ a => (.inl a : σ ⊕ ρ)) c calls a = .inl a := by
  induction calls generalizing c with
  | nil => rfl
  | cons x calls ih => exact ih _

/-- One pass, where a parameter of known length stands. -/
theorem scanFrom_succ {stop len n c : Nat} {a : σ} (hlen : getParamLen host record c = len)
    (hc : c + len < 2 ^ 32) :
    scanFrom host record stop body (n + 1) c a =
      match body c a with
      | .inr r => some (.inr r)
      | .inl a => if c + len < stop then scanFrom host record stop body n (c + len) a
        else some (.inl a) := by
  cases hbody : body c a with
  | inl b => simp only [scanFrom, hbody, hlen, Nat.mod_eq_of_lt hc]
  | inr r => simp only [scanFrom, hbody]

/-- The loop over parameters that stand one after another does for each what is to be done. -/
theorem scanFrom_calls {step : Nat → Call → σ → σ ⊕ ρ} {stop : Nat} :
    ∀ {calls : List Call} {c n : Nat} (a : σ), calls ≠ [] → (∀ x ∈ calls, x.Faithful) →
      (∀ x ∈ calls, ∀ c a, Stands host record c x → body c a = step c x a) →
      record.slice c (calls.flatMap (Call.bytes host)).length = calls.flatMap (Call.bytes host) →
      c + (calls.flatMap (Call.bytes host)).length = stop → stop ≤ maxBufferSize →
      scanFrom host record stop body (calls.length + n) c a =
        some (scanCalls host step c calls a)
  | [], _, _, _, hne, _, _, _, _, _ => absurd rfl hne
  | x :: calls, c, n, a, _, hf, hbody, h, hend, hmax => by
    obtain ⟨hx, hrest⟩ := Call.slice_cons h
    rw [List.flatMap_cons, List.length_append] at hend
    have hstands : Stands host record c x := ⟨hx, by omega⟩
    obtain ⟨-, hlen, -⟩ := hstands.faithful (hf x List.mem_cons_self)
    have hbound : c + (x.bytes host).length < 2 ^ 32 := by
      have : maxBufferSize < 2 ^ 32 := by decide
      omega
    rw [List.length_cons, Nat.add_right_comm, scanFrom_succ hlen hbound,
      hbody x List.mem_cons_self c a hstands, scanCalls]
    cases step c x a with
    | inr r => rfl
    | inl a =>
      simp only
      cases calls with
      | nil =>
        rw [List.flatMap_nil, List.length_nil] at hend
        rw [if_neg (by omega)]
        rfl
      | cons y calls =>
        have hpos := y.bytes_pos host
        have hlong : (x.bytes host).length + ((y :: calls).flatMap (Call.bytes host)).length =
            stop - c := by omega
        rw [List.flatMap_cons, List.length_append] at hlong
        rw [if_pos (by omega)]
        exact scanFrom_calls a (List.cons_ne_nil _ _)
          (fun z hz => hf z (List.mem_cons_of_mem _ hz))
          (fun z hz => hbody z (List.mem_cons_of_mem _ hz)) hrest (by omega) hmax

/-- A parameter takes a byte at least. -/
theorem length_le_bytes (host : Host) (calls : List Call) :
    calls.length ≤ (calls.flatMap (Call.bytes host)).length := by
  induction calls with
  | nil => exact Nat.le_refl 0
  | cons x calls ih =>
    have hpos := x.bytes_pos host
    rw [List.flatMap_cons, List.length_append, List.length_cons]
    omega

/-- The loop over the parameters of a record that has been received. -/
theorem scan_message (body : Nat → σ → σ ⊕ ρ) (step : Nat → Call → σ → σ ⊕ ρ) {rectype : Nat}
    {calls : List Call}
    (h : Holds record (message host rectype calls)) (hne : calls ≠ [])
    (hf : ∀ x ∈ calls, x.Faithful)
    (hfits : (message host rectype calls).length ≤ maxBufferSize)
    (hbody : ∀ x ∈ calls, ∀ c a, Stands host record c x → body c a = step c x a) (a : σ) :
    scan host record (getReceivedLen record) body a = some (scanCalls host step 2 calls a) := by
  have hle := length_le_bytes host calls
  rw [length_message] at hfits
  have hfuel : maxBufferSize + 1 = calls.length + (maxBufferSize + 1 - calls.length) := by omega
  rw [scan, hfuel]
  exact scanFrom_calls a hne hf hbody h.params h.position_message.symm
    (h.position_message.trans_le hfits)

end Scan

end LinuxSna.Asuite.Ftp
