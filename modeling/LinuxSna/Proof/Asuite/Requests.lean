import LinuxSna.Proof.Asuite.Codec

/-!
# Round trips of records

The parameters that are appended to a record against those that a receiver visits, and the
requests for files against the session that they are made from.

* `sendFile_decodes_iff`, `requestFile_decodes_iff`: the sessions whose requests decode;
* `record_round_trip`: which records come out as they went in, and of which sessions the sizes do.
-/

namespace LinuxSna.Asuite

open Framework (padded)

/-! ## Sizes -/

/-- The number in the first parameter with a key -/
def numberOf (read : List UInt8 → Option Nat) (key : UInt8) (seen : List Param) : Option Nat :=
  (seen.find? (·.key = key)).bind fun p => read p.data

/-- A receiver comes to the end of the record, and each size that the session has, it can read. -/
def Decodes (host : Host) (record : Record) (s : Session) : Prop :=
  ∃ seen stop, Visits host record seen stop ∧
    (s.allocSize ≠ 0 → numberOf host.readLong aftpAllocationSize seen = some s.allocSize) ∧
    (s.blockSize ≠ 0 → numberOf host.readShort aftpBlockSize seen = some s.blockSize) ∧
    (s.recordLength ≠ 0 → numberOf host.readShort aftpRecordLength seen = some s.recordLength)

/-- The session has no size to send. -/
def Session.NoSizes (s : Session) : Prop :=
  s.allocSize = 0 ∧ s.blockSize = 0 ∧ s.recordLength = 0

/-! ## What the requests store -/

/-- The parameters that both requests begin with -/
def names (first : List UInt8) (firstLength : Nat) (second : List UInt8) (secondLength : Nat)
    (dataType : Nat) : List Call :=
  [.append aftpFilespec (padded (firstLength + 1) first),
    .append aftpNewFilespec (padded (secondLength + 1) second),
    .char aftpDataType (UInt8.ofNat dataType)]

section Requests

variable {host : Host} {va : UInt8 → Nat → Nat} {s : Session} {first second : List UInt8}
  {firstLength secondLength : Nat} {record : Record}

theorem names_faithful (dataType : Nat) :
    ∀ x ∈ names first firstLength second secondLength dataType, x.Faithful := by
  simp only [names, List.forall_mem_cons, List.not_mem_nil, false_implies, implies_true, and_true]
  exact ⟨Framework.zeroTail_padded _ _, Framework.zeroTail_padded _ _, trivial⟩

theorem length_names (host : Host) (first : List UInt8) (firstLength : Nat) (second : List UInt8)
    (secondLength dataType : Nat) :
    ((names first firstLength second secondLength dataType).flatMap (Call.bytes host)).length =
      firstLength + secondLength + 12 := by
  simp only [names, List.flatMap_cons, List.flatMap_nil, List.length_append, Call.length_bytes,
    Call.written, Framework.length_padded, List.length_nil, List.length_cons]
  omega

/-- A name is stored as the string that it starts with, with NULs after it. -/
theorem asuiterecordAppend_eq (host : Host) (r : Record) (key : UInt8) (data : List UInt8)
    (n : Nat) :
    asuiterecordAppend host r key data n = (Call.append key (padded n data)).run host r := by
  rw [Call.run, Framework.length_padded, asuiterecordAppend, asuiterecordAppend,
    Framework.padded_padded]

/-- The bytes of a size -/
def sizeBytes (host : Host) (va : UInt8 → Nat → Nat) (key : UInt8) (size : Nat) : List UInt8 :=
  if size > 0 then
    paramBytes host ((3 + 2 * toInt size) % 2 ^ 16).toNat key
      ((List.range (toInt size).toNat).flatMap fun i => host.short (va key i))
  else []

theorem appendSize_eq (key : UInt8) (size : Nat) (r : Record) :
    appendSize host va key size r = r.puts (sizeBytes host va key size) := by
  rw [appendSize, sizeBytes]
  split
  · exact asuiterecordAppendTwobyte_eq ..
  · rfl

/-- The bytes of the allocation size -/
def allocBytes (host : Host) (size : Nat) : List UInt8 :=
  if size > 0 then (Call.fourbyte aftpAllocationSize size).bytes host else []

/-- A record with its major code, before its parameters -/
def started (host : Host) (rectype : Nat) (record : Record) : Record :=
  asuiterecordSettype host (asuiterecordClear record) rectype

theorem requestFileRecord_eq (host : Host) (va : UInt8 → Nat → Nat) (s : Session)
    (first : List UInt8) (firstLength : Nat) (second : List UInt8) (secondLength : Nat)
    (record : Record) :
    requestFileRecord host va s first firstLength second secondLength record =
      (started host aftpRequestFile record).puts
        ((names second secondLength first firstLength s.dataType).flatMap (Call.bytes host) ++
          sizeBytes host va aftpBlockSize s.blockSize) := by
  simp only [requestFileRecord, asuiterecordAppend_eq, appendSize_eq, names, List.flatMap_cons,
    List.flatMap_nil, Record.puts_append, Call.run_eq]
  rw [← Call.run_eq host _ (.char aftpDataType (UInt8.ofNat s.dataType))]
  rfl

theorem sendFileRecord_eq (host : Host) (va : UInt8 → Nat → Nat) (s : Session)
    (first : List UInt8) (firstLength : Nat) (second : List UInt8) (secondLength : Nat)
    (record : Record) :
    sendFileRecord host va s first firstLength second secondLength record =
      (started host aftpSendFile record).puts
        ((names first firstLength second secondLength s.dataType).flatMap (Call.bytes host) ++
          (allocBytes host s.allocSize ++ (sizeBytes host va aftpBlockSize s.blockSize ++
            (sizeBytes host va aftpRecordLength s.recordLength ++
              (Call.char aftpDateMode (UInt8.ofNat s.dateMode)).bytes host)))) := by
  have halloc (r : Record) :
      (if s.allocSize > 0 then asuiterecordAppendFourbyte host r aftpAllocationSize s.allocSize
        else r) = r.puts (allocBytes host s.allocSize) := by
    rw [allocBytes]
    split
    · exact Call.run_eq host r (.fourbyte aftpAllocationSize s.allocSize)
    · rfl
  simp only [sendFileRecord, asuiterecordAppend_eq, appendSize_eq, halloc, names, List.flatMap_cons,
    List.flatMap_nil, Record.puts_append, Call.run_eq]
  rw [← Call.run_eq host _ (.char aftpDataType (UInt8.ofNat s.dataType)),
    ← Call.run_eq host _ (.char aftpDateMode (UInt8.ofNat s.dateMode))]
  rfl

/-! ## What is not stored faithfully -/

/-- The loop is a function of the record. -/
theorem Visits.unique {seen seen' : List Param} {stop stop' : Nat}
    (h : Visits host record seen stop) (h' : Visits host record seen' stop') : seen = seen' := by
  obtain ⟨n, hn⟩ := h
  obtain ⟨m, hm⟩ := h'
  have hboth := (Framework.loop_mono hn (Nat.le_max_left n m)).symm.trans
    (Framework.loop_mono hm (Nat.le_max_right n m))
  exact congrArg Visit.seen (Option.some.inj hboth)

/-- The loop over a record with parameters that are stored faithfully. -/
theorem visits_puts (host : Host) {start : Record} (hstart : start.position = 2)
    {calls : List Call}
    (hne : calls ≠ []) (hf : ∀ x ∈ calls, x.Faithful)
    (hmax : 2 + (calls.flatMap (Call.bytes host)).length ≤ maxBufferSize) :
    Visits host (start.puts (calls.flatMap (Call.bytes host))) (calls.map (Call.param host))
      (2 + (calls.flatMap (Call.bytes host)).length) := by
  have hend : 2 + (calls.flatMap (Call.bytes host)).length =
      (start.puts (calls.flatMap (Call.bytes host))).position := by
    rw [Record.position_puts, hstart]
  have hslice := Record.slice_puts start (calls.flatMap (Call.bytes host))
  rw [hstart] at hslice
  rw [Visits, hend]
  exact Call.loop_faithful (s := []) hne hf hslice hend (hend ▸ hmax)

/-- Bytes that were stored one after another, each where it was stored. -/
theorem slice_puts_append (r : Record) (a b d : List UInt8) :
    (r.puts (a ++ (b ++ d))).slice r.position a.length = a ∧
      (r.puts (a ++ (b ++ d))).slice (r.position + a.length) b.length = b := by
  have h := Record.slice_puts r (a ++ (b ++ d))
  rw [List.length_append, Record.slice_add, List.length_append, Record.slice_add] at h
  obtain ⟨ha, hrest⟩ := List.append_inj h (Record.length_slice ..)
  exact ⟨ha, (List.append_inj hrest (Record.length_slice ..)).1⟩

/-- After parameters with other keys, the parameter with a key is the one that the loop comes to
next. -/
theorem numberOf_next {calls : List Call} {key : UInt8} {seen : List Param} {stop : Nat}
    (hf : ∀ x ∈ calls, x.Faithful) (hkeys : ∀ x ∈ calls, x.key ≠ key)
    (h : record.slice 2 (calls.flatMap (Call.bytes host)).length = calls.flatMap (Call.bytes host))
    (hend : 2 + (calls.flatMap (Call.bytes host)).length < record.position)
    (hmax : 2 + (calls.flatMap (Call.bytes host)).length ≤ maxBufferSize)
    (hkey : getKey record (2 + (calls.flatMap (Call.bytes host)).length) = key)
    (hvisits : Visits host record seen stop) (read : List UInt8 → Option Nat) :
    numberOf read key seen =
      read (paramAt host record (2 + (calls.flatMap (Call.bytes host)).length)).data := by
  obtain ⟨n, hn⟩ := hvisits
  obtain ⟨m, hm⟩ := Call.loop_skip (s := []) hf h hend hmax hn
  obtain ⟨more, hmore⟩ := loop_seen hm
  have hnone : (calls.map (Call.param host)).find? (·.key = key) = none := by
    rw [List.find?_eq_none]
    intro p hp
    obtain ⟨x, hx, rfl⟩ := List.mem_map.mp hp
    exact fun hd => hkeys x hx (of_decide_eq_true hd)
  rw [numberOf, show seen = calls.map (Call.param host) ++ paramAt host record _ :: more from hmore,
    List.find?_append, hnone, Option.none_or, List.find?_cons_of_pos (by simpa [paramAt] using hkey)]
  rfl

/-- The allocation size is seen as one byte. -/
theorem allocSize_unread {c size : Nat}
    (h : record.slice c ((Call.fourbyte aftpAllocationSize size).bytes host).length =
      (Call.fourbyte aftpAllocationSize size).bytes host) :
    getKey record c = aftpAllocationSize ∧
      host.readLong (paramAt host record c).data ≠ some size := by
  rw [Call.length_bytes] at h
  obtain ⟨hparam, hkey, -⟩ := paramAt_bytes h
  refine ⟨hkey, fun hread => ?_⟩
  have hone : (paramAt host record c).data.length = 1 := by
    rw [paramAt, hparam, Record.length_slice]
    rfl
  match hdata : (paramAt host record c).data, hone with
  | [a], _ =>
    rw [hdata] at hread
    cases hread

theorem readShort_some {l : List UInt8} {n : Nat} (h : host.readShort l = some n) :
    l.length = 2 ∧ n < 2 ^ 16 := by
  match l, h with
  | [a, b], h =>
    refine ⟨rfl, ?_⟩
    rw [← Option.some.inj h]
    exact host.htons_lt _

theorem toInt_of_lt {n : Nat} (h : n < 2 ^ 31) : toInt n = n :=
  Int.bmod_eq_of_le (by simp only [Nat.reducePow]; omega)
    (by simp only [Nat.reducePow] at h ⊢; omega)

/-- The values of a size are not the size, if `va_arg` finds zeros. -/
theorem size_unread {c size : Nat} {key : UInt8} (hsize : 0 < size)
    (h : record.slice c (sizeBytes host (fun _ _ => 0) key size).length =
      sizeBytes host (fun _ _ => 0) key size) :
    getKey record c = key ∧ host.readShort (paramAt host record c).data ≠ some size := by
  rw [sizeBytes, if_pos hsize, length_paramBytes] at h
  obtain ⟨hparam, hkey, hdata⟩ := paramAt_bytes h
  refine ⟨hkey, fun hread => ?_⟩
  obtain ⟨hlength, hlt⟩ := readShort_some hread
  have hint := toInt_of_lt (n := size) (by omega)
  obtain ⟨k, rfl⟩ : ∃ k, size = k + 1 := ⟨size - 1, by omega⟩
  have hfirst : record.slice (c + 3) 2 = host.short 0 := by
    rw [hint, Int.toNat_natCast, List.range_succ_eq_map, List.flatMap_cons, List.length_append,
      Host.length_short, Record.slice_add] at hdata
    exact (List.append_inj hdata (Record.length_slice ..)).1
  have htwo : getParamLen host record c - 3 = 2 := by
    rw [paramAt, Record.length_slice] at hlength
    exact hlength
  rw [paramAt, htwo, hfirst, Host.readShort_short, Nat.zero_mod] at hread
  exact absurd (Option.some.inj hread) (Nat.succ_ne_zero k).symm

/-- The parameter that is stored after the names, in a record that goes on with any bytes. -/
theorem next_of_puts {start : Record} {calls : List Call} {b d : List UInt8}
    (hrecord : record = start.puts (calls.flatMap (Call.bytes host) ++ (b ++ d)))
    (hstart : start.position = 2) (hf : ∀ x ∈ calls, x.Faithful) (hb : 0 < b.length)
    (hmax : 2 + (calls.flatMap (Call.bytes host)).length ≤ maxBufferSize) :
    record.slice (2 + (calls.flatMap (Call.bytes host)).length) b.length = b ∧
      ∀ {key seen stop}, (∀ x ∈ calls, x.key ≠ key) → Visits host record seen stop →
        getKey record (2 + (calls.flatMap (Call.bytes host)).length) = key →
          ∀ read : List UInt8 → Option Nat, numberOf read key seen =
            read (paramAt host record (2 + (calls.flatMap (Call.bytes host)).length)).data := by
  obtain ⟨hnames, hnext⟩ := slice_puts_append start (calls.flatMap (Call.bytes host)) b d
  rw [← hrecord, hstart] at hnames hnext
  have hend : 2 + (calls.flatMap (Call.bytes host)).length < record.position := by
    rw [hrecord, Record.position_puts, hstart, List.length_append, List.length_append]
    omega
  exact ⟨hnext, fun hkeys hvisits hkey => numberOf_next hf hkeys hnames hend hmax hkey hvisits⟩

theorem names_keys {key : UInt8} (dataType : Nat)
    (h : key ∉ [aftpFilespec, aftpNewFilespec, aftpDataType]) :
    ∀ x ∈ names first firstLength second secondLength dataType, x.key ≠ key := by
  intro x hx hkey
  apply h
  simp only [names, List.mem_cons, List.not_mem_nil, or_false] at hx
  obtain rfl | rfl | rfl := hx <;> simp [← hkey, Call.key]

/-- A size that is not zero is not read as what it is, if `va_arg` finds zeros. -/
theorem size_lost {start : Record} {calls : List Call} {d : List UInt8} {key : UInt8} {size : Nat}
    {seen : List Param} {stop : Nat}
    (hrecord : record = start.puts (calls.flatMap (Call.bytes host) ++
      (sizeBytes host (fun _ _ => 0) key size ++ d)))
    (hstart : start.position = 2) (hf : ∀ x ∈ calls, x.Faithful)
    (hmax : 2 + (calls.flatMap (Call.bytes host)).length ≤ maxBufferSize)
    (hkeys : ∀ x ∈ calls, x.key ≠ key) (hvisits : Visits host record seen stop)
    (h : size ≠ 0 → numberOf host.readShort key seen = some size) : size = 0 := by
  by_contra hsize
  have hpos := Nat.pos_of_ne_zero hsize
  have hlength : 0 < (sizeBytes host (fun _ _ => 0) key size).length := by
    rw [sizeBytes, if_pos hpos, length_paramBytes]
    omega
  obtain ⟨hnext, hnumber⟩ := next_of_puts hrecord hstart hf hlength hmax
  obtain ⟨hkey, hread⟩ := size_unread hpos hnext
  exact hread ((hnumber hkeys hvisits hkey host.readShort).symm.trans (h hsize))

theorem allocBytes_zero : allocBytes host 0 = [] := if_neg (Nat.lt_irrefl 0)

theorem sizeBytes_zero (key : UInt8) : sizeBytes host va key 0 = [] := if_neg (Nat.lt_irrefl 0)

/-- The first of the sizes in the request to send a file is not read as what it is, if `va_arg`
finds zeros. -/
theorem noSizes_of_decodes (hsize : firstLength + secondLength + 35 ≤ maxBufferSize)
    (h : Decodes host (sendFileRecord host (fun _ _ => 0) s first firstLength second secondLength
      record) s) : s.NoSizes := by
  have hnames := length_names host first firstLength second secondLength s.dataType
  have hmax : 2 + ((names first firstLength second secondLength s.dataType).flatMap
      (Call.bytes host)).length ≤ maxBufferSize := by
    omega
  obtain ⟨seen, stop, hvisits, halloc, hblock, hrecord⟩ := h
  have heq := sendFileRecord_eq host (fun _ _ => 0) s first firstLength second secondLength record
  have ha : s.allocSize = 0 := by
    by_contra hne
    rw [allocBytes, if_pos (Nat.pos_of_ne_zero hne)] at heq
    obtain ⟨hnext, hnumber⟩ := next_of_puts heq rfl (names_faithful s.dataType)
      (Call.bytes_pos host _) hmax
    obtain ⟨hkey, hread⟩ := allocSize_unread hnext
    have hnum := hnumber (names_keys s.dataType (by decide)) hvisits hkey host.readLong
    exact hread (hnum.symm.trans (halloc hne))
  rw [ha, allocBytes_zero, List.nil_append] at heq
  have hb := size_lost heq rfl (names_faithful s.dataType) hmax
    (names_keys s.dataType (by decide)) hvisits hblock
  rw [hb, sizeBytes_zero, List.nil_append] at heq
  exact ⟨ha, hb, size_lost heq rfl (names_faithful s.dataType) hmax
    (names_keys s.dataType (by decide)) hvisits hrecord⟩

/-- Without sizes, a receiver comes to the end of the request to send a file. -/
theorem sendFile_visits (hsize : firstLength + secondLength + 35 ≤ maxBufferSize)
    (h : s.NoSizes) (va : UInt8 → Nat → Nat) (record : Record) :
    ∃ seen stop, Visits host
      (sendFileRecord host va s first firstLength second secondLength record) seen stop := by
  obtain ⟨ha, hb, hr⟩ := h
  have hnames := length_names host first firstLength second secondLength s.dataType
  have hcalls : sendFileRecord host va s first firstLength second secondLength record =
      (started host aftpSendFile record).puts
        ((names first firstLength second secondLength s.dataType ++
          [Call.char aftpDateMode (UInt8.ofNat s.dateMode)]).flatMap (Call.bytes host)) := by
    rw [sendFileRecord_eq, ha, hb, hr, allocBytes_zero, sizeBytes_zero, sizeBytes_zero,
      List.flatMap_append, List.flatMap_singleton]
    rfl
  have hf : ∀ x ∈ names first firstLength second secondLength s.dataType ++
      [Call.char aftpDateMode (UInt8.ofNat s.dateMode)], x.Faithful :=
    List.forall_mem_append.mpr ⟨names_faithful s.dataType,
      List.forall_mem_singleton.mpr (show (Call.char _ _).Faithful from trivial)⟩
  have hne : names first firstLength second secondLength s.dataType ++
      [Call.char aftpDateMode (UInt8.ofNat s.dateMode)] ≠ [] := List.cons_ne_nil _ _
  have hlength : ((names first firstLength second secondLength s.dataType ++
      [Call.char aftpDateMode (UInt8.ofNat s.dateMode)]).flatMap (Call.bytes host)).length =
        firstLength + secondLength + 16 := by
    rw [List.flatMap_append, List.length_append, hnames, List.flatMap_singleton,
      Call.length_bytes]
    simp only [Call.written, List.length_singleton]
  rw [hcalls]
  exact ⟨_, _, visits_puts host rfl hne hf (by omega)⟩

/-- The request to send a file decodes, whatever `va_arg` finds, only to a session without sizes. -/
theorem sendFile_decodes_iff (hsize : firstLength + secondLength + 35 ≤ maxBufferSize) :
    (∀ va record, Decodes host
      (sendFileRecord host va s first firstLength second secondLength record) s) ↔ s.NoSizes := by
  constructor
  · intro h
    exact noSizes_of_decodes hsize (h (fun _ _ => 0) ⟨2, fun _ => 0⟩)
  · intro h va record
    obtain ⟨seen, stop, hvisits⟩ := sendFile_visits hsize h va record
    obtain ⟨ha, hb, hr⟩ := h
    exact ⟨seen, stop, hvisits, fun hne => absurd ha hne, fun hne => absurd hb hne,
      fun hne => absurd hr hne⟩

/-- The request for a file decodes only to a session without sizes, too: it has no parameter for
the allocation size and the record length. -/
theorem requestFile_decodes_iff (hsize : firstLength + secondLength + 35 ≤ maxBufferSize) :
    (∀ va record, Decodes host
      (requestFileRecord host va s first firstLength second secondLength record) s) ↔
        s.NoSizes := by
  have hnames := length_names host second secondLength first firstLength s.dataType
  have hmax : 2 + ((names second secondLength first firstLength s.dataType).flatMap
      (Call.bytes host)).length ≤ maxBufferSize := by
    omega
  have hcalls (va : UInt8 → Nat → Nat) (record : Record) (hb : s.blockSize = 0) :
      Visits host (requestFileRecord host va s first firstLength second secondLength record)
        ((names second secondLength first firstLength s.dataType).map (Call.param host))
        (2 + ((names second secondLength first firstLength s.dataType).flatMap
          (Call.bytes host)).length) := by
    rw [requestFileRecord_eq, hb, sizeBytes_zero, List.append_nil]
    exact visits_puts host rfl (List.cons_ne_nil _ _) (names_faithful s.dataType) hmax
  constructor
  · intro h
    obtain ⟨seen, stop, hvisits, halloc, hblock, hrecord⟩ := h (fun _ _ => 0) ⟨2, fun _ => 0⟩
    have heq := requestFileRecord_eq host (fun _ _ => 0) s first firstLength second secondLength
      ⟨2, fun _ => 0⟩
    rw [← List.append_nil (sizeBytes host _ aftpBlockSize s.blockSize)] at heq
    have hb := size_lost heq rfl (names_faithful s.dataType) hmax
      (names_keys s.dataType (by decide)) hvisits hblock
    rw [hvisits.unique (hcalls _ _ hb)] at halloc hrecord
    refine ⟨?_, hb, ?_⟩
    · by_contra hne
      cases halloc hne
    · by_contra hne
      cases hrecord hne
  · rintro ⟨ha, hb, hr⟩ va record
    exact ⟨_, _, hcalls va record hb, fun h => absurd ha h, fun h => absurd hb h,
      fun h => absurd hr h⟩

end Requests

/-! ## The round trip -/

/-- A receiver visits exactly what was appended exactly if something was, none of it was a
parameter of four bytes, and no data went on after a zero byte; and the requests for files decode
exactly to the sessions without sizes. -/
theorem record_round_trip (host : Host) :
    (∀ calls record, (build host calls record).position ≤ maxBufferSize →
      (Visits host (build host calls record) (calls.map (Call.param host))
          (build host calls record).position ↔
        calls ≠ [] ∧ ∀ x ∈ calls, x.Faithful)) ∧
    ∀ (s : Session) (localFile remoteFile : List UInt8) (localLength remoteLength : Nat),
      localLength + remoteLength + 35 ≤ maxBufferSize →
      (((∀ va record, Decodes host
          (sendFileRecord host va s localFile localLength remoteFile remoteLength record) s) ↔
            s.NoSizes) ∧
        ((∀ va record, Decodes host
          (requestFileRecord host va s localFile localLength remoteFile remoteLength record) s) ↔
            s.NoSizes)) :=
  ⟨fun calls _ => visits_iff calls, fun _ _ _ _ _ hsize =>
    ⟨sendFile_decodes_iff hsize, requestFile_decodes_iff hsize⟩⟩

/-- A name with its NUL, a byte and a code of two bytes, on a cleared record. -/
theorem record_round_trip_three :
    Visits .little
      (build .little [.append aftpFilespec [97, 0], .char aftpDataType 1, .twobyte 4 [512]]
        ⟨0, fun _ => 0⟩)
      [⟨aftpFilespec, [97, 0]⟩, ⟨aftpDataType, [1]⟩, ⟨4, [2, 0]⟩] 16 :=
  ((record_round_trip .little).1
    [.append aftpFilespec [97, 0], .char aftpDataType 1, .twobyte 4 [512]] ⟨0, fun _ => 0⟩
    (by decide)).mpr
    ⟨List.cons_ne_nil _ _, List.forall_mem_cons.mpr ⟨⟨[97], 1, by decide, rfl⟩,
      List.forall_mem_cons.mpr ⟨trivial, List.forall_mem_singleton.mpr
        (show (Call.twobyte _ _).Faithful from trivial)⟩⟩⟩

/-- An allocation size of 4096 bytes: the parameter is stored with the length of one with one byte;
and a block size of 1: one value is stored, whatever stands where it should be. -/
theorem allocSize_lost :
    ((build .little [.fourbyte aftpAllocationSize 4096] ⟨0, fun _ => 0⟩).position ≤
        maxBufferSize ∧
      ¬ Visits .little (build .little [.fourbyte aftpAllocationSize 4096] ⟨0, fun _ => 0⟩)
        [⟨aftpAllocationSize, [0, 0, 16, 0]⟩] 9) ∧
    ¬ ∀ va record, Decodes .little
      (sendFileRecord .little va ⟨0, 1, 0, 0, 0⟩ [97, 0] 1 [98, 0] 1 record) ⟨0, 1, 0, 0, 0⟩ := by
  refine ⟨⟨by decide, fun h => ?_⟩, fun h => ?_⟩
  · exact ((visits_iff [.fourbyte aftpAllocationSize 4096] (by decide)).mp h).2 _
      (List.mem_singleton_self _)
  · have hnone := ((sendFile_decodes_iff (by decide)).mp h).2.1
    cases hnone

end LinuxSna.Asuite
