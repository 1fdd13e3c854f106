import LinuxSna.Impl.Asuite.Record

/-!
# Parameters that are appended and visited

What the four encoders of `asuitecommon.c` write, and what the loop over the parameters makes of
it.

* `run_eq`: a call stores the bytes of one parameter;
* `loop_faithful`, `faithful_of_loop`: the loop sees what was appended exactly as long as the
  parameters are stored with their own length and data.
-/

namespace LinuxSna.Asuite

open Framework (ZeroTail loop loop_succ_inl loop_succ_inr padded)

/-! ## Byte order -/

namespace Host

theorem htons_lt (host : Host) (n : Nat) : host.htons n < 2 ^ 16 := by
  cases host <;> simp only [htons] <;> omega

theorem htons_htons (host : Host) {n : Nat} (h : n < 2 ^ 16) : host.htons (host.htons n) = n := by
  cases host with
  | little =>
    simp only [htons, Nat.reducePow] at h ⊢
    have hhigh : n / 256 % 256 = n / 256 := Nat.mod_eq_of_lt (by omega)
    have hlow : (n % 256 * 256 + n / 256) / 256 = n % 256 := by omega
    rw [hhigh, hlow]
    omega
  | big =>
    simp only [htons]
    omega

@[simp] theorem length_short (host : Host) (n : Nat) : (host.short n).length = 2 := rfl

@[simp] theorem length_long (host : Host) (n : Nat) : (host.long n).length = 4 := rfl

/-- The number of two bytes that a receiver reads, low byte first. -/
def readShort (host : Host) : List UInt8 → Option Nat
  | [a, b] => some (host.htons (b.toNat * 2 ^ 8 + a.toNat))
  | _ => none

/-- The number of four bytes. -/
def readLong (host : Host) : List UInt8 → Option Nat
  | [a, b, c, d] =>
    some (host.htonl (d.toNat * 2 ^ 24 + c.toNat * 2 ^ 16 + b.toNat * 2 ^ 8 + a.toNat))
  | _ => none

theorem readShort_short (host : Host) (n : Nat) :
    host.readShort (host.short n) = some (n % 2 ^ 16) := by
  have hlt := host.htons_lt (n % 2 ^ 16)
  have hback := host.htons_htons (n := n % 2 ^ 16) (Nat.mod_lt _ (by decide))
  have hbytes : (UInt8.ofNat (host.htons (n % 2 ^ 16) / 2 ^ 8)).toNat * 2 ^ 8 +
      (UInt8.ofNat (host.htons (n % 2 ^ 16))).toNat = host.htons (n % 2 ^ 16) := by
    simp only [UInt8.toNat_ofNat']
    omega
  rw [short, readShort, hbytes, hback]

end Host

/-! ## What is stored -/

namespace Record

theorem puts_append (r : Record) (a b : List UInt8) : r.puts (a ++ b) = (r.puts a).puts b :=
  List.foldl_append

theorem puts_cons (r : Record) (b : UInt8) (bytes : List UInt8) :
    r.puts (b :: bytes) = (r.put b).puts bytes := rfl

@[simp] theorem position_puts (r : Record) (bytes : List UInt8) :
    (r.puts bytes).position = r.position + bytes.length := by
  induction bytes generalizing r with
  | nil => rfl
  | cons b bytes ih =>
    rw [puts_cons, ih, List.length_cons, Nat.add_comm bytes.length, ← Nat.add_assoc]
    rfl

/-- What stands before the position stays. -/
theorem buffer_puts (r : Record) (bytes : List UInt8) {i : Nat} (h : i < r.position) :
    (r.puts bytes).buffer i = r.buffer i := by
  induction bytes generalizing r with
  | nil => rfl
  | cons b bytes ih =>
    rw [puts_cons, ih (r.put b) (Nat.lt_succ_of_lt h)]
    exact Function.update_of_ne (Nat.ne_of_lt h) _ _

@[simp] theorem length_slice (r : Record) (start n : Nat) : (r.slice start n).length = n := by
  rw [slice, List.length_map, List.length_range]

theorem getElem_slice {r : Record} {start n i : Nat} (h : i < (r.slice start n).length) :
    (r.slice start n)[i] = r.buffer (start + i) := by
  simp only [slice, List.getElem_map, List.getElem_range]

theorem slice_succ (r : Record) (start n : Nat) :
    r.slice start (n + 1) = r.buffer start :: r.slice (start + 1) n := by
  rw [slice, List.range_succ_eq_map, List.map_cons, List.map_map, slice, Nat.add_zero]
  congr 1
  apply List.map_congr_left
  intro i _
  simp only [Function.comp_apply, Nat.add_assoc, Nat.add_comm 1 i]

theorem slice_add (r : Record) (start n m : Nat) :
    r.slice start (n + m) = r.slice start n ++ r.slice (start + n) m := by
  induction n generalizing start with
  | zero => rw [Nat.zero_add, Nat.add_zero]; rfl
  | succ n ih =>
    rw [Nat.add_right_comm, slice_succ, slice_succ, ih, List.cons_append, Nat.add_assoc,
      Nat.add_comm 1 n]

/-- The bytes that were stored stand where the position was. -/
theorem slice_puts (r : Record) (bytes : List UInt8) :
    (r.puts bytes).slice r.position bytes.length = bytes := by
  induction bytes generalizing r with
  | nil => rfl
  | cons b bytes ih =>
    have hhead : ((r.put b).puts bytes).buffer r.position = b :=
      (buffer_puts (r.put b) bytes (Nat.lt_succ_self _)).trans (Function.update_self _ _ _)
    rw [List.length_cons, slice_succ, puts_cons, hhead]
    exact congrArg (b :: ·) (ih (r.put b))

/-- Bytes that are stored behind where the position is now do not matter to it. -/
theorem store_puts (r : Record) (bytes : List UInt8) {i : Nat} (h : i < r.position) (b : UInt8) :
    (r.puts bytes).store i b = (r.store i b).puts bytes := by
  induction bytes generalizing r with
  | nil => rfl
  | cons x bytes ih =>
    have hput : (r.put x).store i b = (r.store i b).put x := by
      simp only [put, store]
      rw [Function.update_comm (Nat.ne_of_lt h)]
    rw [puts_cons, ih (r.put x) (Nat.lt_succ_of_lt h), hput]
    rfl

end Record

/-- A parameter as it is stored: a length, the key, and bytes. -/
def paramBytes (host : Host) (len : Nat) (key : UInt8) (written : List UInt8) : List UInt8 :=
  host.short len ++ key :: written

@[simp] theorem length_paramBytes (host : Host) (len : Nat) (key : UInt8) (written : List UInt8) :
    (paramBytes host len key written).length = 3 + written.length := by
  simp only [paramBytes, List.length_append, Host.length_short, List.length_cons]
  omega

/-- What `asuiterecord_append_twobyte` stores. -/
theorem asuiterecordAppendTwobyte_eq (host : Host) (r : Record) (key : UInt8) (count : Int)
    (va : Nat → Nat) :
    asuiterecordAppendTwobyte host r key count va =
      r.puts (paramBytes host ((3 + 2 * count) % 2 ^ 16).toNat key
        ((List.range count.toNat).flatMap fun i => host.short (va i))) := by
  have hlen : ((3 + 2 * count) % 2 ^ 16).toNat % 2 ^ 16 = ((3 + 2 * count) % 2 ^ 16).toNat := by
    omega
  simp only [asuiterecordAppendTwobyte]
  rw [← Record.puts_cons, Record.store_puts _ _ (by dsimp only; omega),
    Record.store_puts _ _ (by simp only [Record.store]; omega), paramBytes, Host.short, hlen]
  rfl

/-! ## The calls -/

/-- A call of an encoder. -/
inductive Call where
  | append (key : UInt8) (data : List UInt8)
  | char (key data : UInt8)
  | twobyte (key : UInt8) (values : List Nat)
  | fourbyte (key : UInt8) (data : Nat)

namespace Call

/-- The call, with the length of the data, or the number of the values, that are passed. -/
def run (host : Host) (r : Record) : Call → Record
  | append key data => asuiterecordAppend host r key data data.length
  | char key data => asuiterecordAppendChar host r key data
  | twobyte key values =>
    asuiterecordAppendTwobyte host r key values.length fun i => values.getD i 0
  | fourbyte key data => asuiterecordAppendFourbyte host r key data

def key : Call → UInt8
  | append key _ | char key _ | twobyte key _ | fourbyte key _ => key

/-- The bytes of the data that are passed. -/
def data (host : Host) : Call → List UInt8
  | append _ data => data
  | char _ data => [data]
  | twobyte _ values => values.flatMap host.short
  | fourbyte _ data => host.long data

/-- The parameter that is appended. -/
def param (host : Host) (c : Call) : Param := ⟨c.key, c.data host⟩

/-- The length that is stored. -/
def len : Call → Nat
  | append _ data => data.length + 3
  | char _ _ => 4
  | twobyte _ values => 3 + 2 * values.length
  | fourbyte _ _ => 4

/-- The bytes that are stored after the key. -/
def written (host : Host) : Call → List UInt8
  | append _ data => padded data.length data
  | char _ data => [data]
  | twobyte _ values => values.flatMap host.short
  | fourbyte _ data => host.long data

/-- All that is stored. -/
def bytes (host : Host) (c : Call) : List UInt8 := paramBytes host c.len c.key (c.written host)

/-- The parameter is stored with its own length and data: not one of four bytes, and no bytes after
a zero byte. -/
def Faithful : Call → Prop
  | append _ data => ZeroTail data
  | char _ _ => True
  | twobyte _ _ => True
  | fourbyte _ _ => False

theorem run_eq (host : Host) (r : Record) (c : Call) : c.run host r = r.puts (c.bytes host) := by
  cases c with
  | append key data => rw [bytes, paramBytes, Record.puts_append]; rfl
  | char key data => rw [bytes, paramBytes, Record.puts_append]; rfl
  | fourbyte key data => rw [bytes, paramBytes, Record.puts_append]; rfl
  | twobyte key values =>
    have hvalues : ((List.range values.length).flatMap fun i => host.short (values.getD i 0)) =
        values.flatMap host.short := by
      have hrange : (List.range values.length).map (fun i => values.getD i 0) = values := by
        apply List.ext_getElem (by simp)
        intro i h1 h2
        rw [List.getElem_map, List.getElem_range, List.getD_eq_getElem _ _ h2]
      conv_rhs => rw [← hrange, List.flatMap_map]
    have hlen : ((3 + 2 * (values.length : Int)) % 2 ^ 16).toNat =
        (3 + 2 * values.length) % 2 ^ 16 := by
      omega
    have hshort : host.short ((3 + 2 * values.length) % 2 ^ 16) =
        host.short (3 + 2 * values.length) := by
      rw [Host.short, Host.short, Nat.mod_mod]
    rw [run, asuiterecordAppendTwobyte_eq, bytes, paramBytes, paramBytes, Int.toNat_natCast, hvalues,
      hlen, hshort]
    rfl

end Call

/-- The calls, on a record that has been cleared. -/
def build (host : Host) (calls : List Call) (r : Record) : Record :=
  calls.foldl (fun r c => c.run host r) (asuiterecordClear r)

theorem build_eq (host : Host) (calls : List Call) (r : Record) :
    build host calls r = (asuiterecordClear r).puts (calls.flatMap (Call.bytes host)) := by
  rw [build]
  generalize asuiterecordClear r = r'
  induction calls generalizing r' with
  | nil => rfl
  | cons c calls ih =>
    rw [List.foldl_cons, ih, List.flatMap_cons, Record.puts_append, Call.run_eq]

/-! ## What the loop sees -/

section Visits

variable {host : Host} {record : Record} {c len : Nat} {key : UInt8} {written : List UInt8}

/-- The parameter that the loop sees at a position. -/
def paramAt (host : Host) (record : Record) (c : Nat) : Param :=
  ⟨getKey record c, record.slice (c + 3) (getParamLen host record c - 3)⟩

/-- The length and the key of a parameter, and its bytes, where it stands in the record. -/
theorem paramAt_bytes
    (h : record.slice c (3 + written.length) = paramBytes host len key written) :
    getParamLen host record c = len % 2 ^ 16 ∧ getKey record c = key ∧
      record.slice (c + 3) written.length = written := by
  have hsplit := record.slice_add c 3 written.length
  rw [h, paramBytes, show host.short len ++ key :: written = (host.short len ++ [key]) ++ written by
    rw [List.append_assoc]; rfl] at hsplit
  obtain ⟨hhead, hdata⟩ := List.append_inj hsplit (by simp)
  simp only [Record.slice_succ, Host.short, List.cons_append, List.nil_append, List.cons.injEq]
    at hhead
  obtain ⟨hlow, hhigh, hkey, -⟩ := hhead
  refine ⟨?_, hkey.symm, hdata.symm⟩
  have hread := host.readShort_short len
  rw [Host.short, Host.readShort] at hread
  rw [getParamLen, ← hlow, ← hhigh]
  exact Option.some.inj hread

/-- The pass over a parameter that is stored with its own length. -/
theorem visitPass_eq (h : record.slice c (3 + written.length) = paramBytes host len key written)
    (hlen : len = 3 + written.length) (hlt : len < 2 ^ 16) (hc : c + len < 2 ^ 32)
    (seen : List Param) :
    visitPass host record ⟨c, seen⟩ =
      if c + len < record.position then .inl ⟨c + len, seen ++ [⟨key, written⟩]⟩
      else .inr ⟨c + len, seen ++ [⟨key, written⟩]⟩ := by
  obtain ⟨hparam, hkey, hdata⟩ := paramAt_bytes h
  rw [Nat.mod_eq_of_lt hlt] at hparam
  have hwritten : record.slice (c + 3) (len - 3) = written := by
    rwa [hlen, Nat.add_sub_cancel_left]
  simp only [visitPass, hparam, hkey, hwritten, Nat.mod_eq_of_lt hc, getReceivedLen]

/-- What the loop sees begins with the parameter at its position. -/
theorem loop_seen {n : Nat} {v w : Visit} (h : loop (visitPass host record) n v = some w) :
    ∃ more, w.seen = v.seen ++ paramAt host record v.curpos :: more := by
  induction n generalizing v with
  | zero => cases h
  | succ n ih =>
    cases hv : visitPass host record v with
    | inl v' =>
      rw [loop_succ_inl hv] at h
      obtain ⟨more, hmore⟩ := ih h
      have hseen : v'.seen = v.seen ++ [paramAt host record v.curpos] := by
        rw [visitPass] at hv
        dsimp only at hv
        split_ifs at hv
        cases hv
        rfl
      exact ⟨_, by rw [hmore, hseen, List.append_assoc]; rfl⟩
    | inr w' =>
      rw [loop_succ_inr hv] at h
      cases h
      rw [visitPass] at hv
      dsimp only at hv
      split_ifs at hv
      cases hv
      exact ⟨[], rfl⟩

namespace Call

variable {x : Call} {calls : List Call} {s : List Param}

theorem length_flatMap_short (host : Host) (values : List Nat) :
    (values.flatMap host.short).length = 2 * values.length := by
  induction values with
  | nil => rfl
  | cons v values ih =>
    rw [List.flatMap_cons, List.length_append, ih, Host.length_short, List.length_cons]
    omega

@[simp] theorem length_bytes (host : Host) (x : Call) :
    (x.bytes host).length = 3 + (x.written host).length :=
  length_paramBytes ..

theorem len_le (host : Host) (x : Call) : x.len ≤ (x.bytes host).length := by
  rw [length_bytes]
  cases x with
  | append key data => rw [written, Framework.length_padded, len, Nat.add_comm]
  | char key data => exact Nat.le_refl 4
  | twobyte key values => rw [written, length_flatMap_short, len]
  | fourbyte key data => exact (show 4 ≤ 7 by decide)

/-- A parameter that is stored faithfully has its own length and data. -/
theorem Faithful.stored (h : x.Faithful) (host : Host) :
    x.len = 3 + (x.written host).length ∧ x.written host = x.data host := by
  cases x with
  | append key data =>
    refine ⟨?_, (Framework.padded_eq_iff data).mpr h⟩
    rw [written, Framework.length_padded, len, Nat.add_comm]
  | char key data => exact ⟨rfl, rfl⟩
  | twobyte key values => exact ⟨by rw [written, length_flatMap_short, len], rfl⟩
  | fourbyte key data => exact h.elim

/-- A parameter that is seen as it was passed was stored faithfully. -/
theorem faithful_of_paramAt (h : record.slice c (x.bytes host).length = x.bytes host)
    (hlt : x.len < 2 ^ 16) (hseen : paramAt host record c = x.param host) : x.Faithful := by
  rw [length_bytes] at h
  obtain ⟨hparam, -, hdata⟩ := paramAt_bytes h
  rw [Nat.mod_eq_of_lt hlt] at hparam
  have hslice : record.slice (c + 3) (x.len - 3) = x.data host := by
    rw [← hparam]
    exact congrArg Param.data hseen
  cases x with
  | append key data =>
    rw [written, Framework.length_padded] at hdata
    exact (Framework.padded_eq_iff data).mp (hdata.symm.trans hslice)
  | char key data => trivial
  | twobyte key values => trivial
  | fourbyte key data =>
    have hlength := congrArg List.length hslice
    rw [Record.length_slice] at hlength
    exact absurd hlength (show ¬ 1 = 4 by decide)

/-- The pass over a parameter that is stored faithfully. -/
theorem Faithful.visitPass (hx : x.Faithful)
    (h : record.slice c (x.bytes host).length = x.bytes host)
    (hc : c + (x.bytes host).length ≤ maxBufferSize) (s : List Param) :
    Asuite.visitPass host record ⟨c, s⟩ =
      if c + (x.bytes host).length < record.position then
        .inl ⟨c + (x.bytes host).length, s ++ [x.param host]⟩
      else .inr ⟨c + (x.bytes host).length, s ++ [x.param host]⟩ := by
  obtain ⟨hlen, hdata⟩ := hx.stored host
  rw [length_bytes, maxBufferSize] at hc
  rw [length_bytes] at h ⊢
  rw [visitPass_eq h hlen (by omega) (by omega), hlen, hdata]
  rfl

theorem bytes_pos (host : Host) (x : Call) : 0 < (x.bytes host).length := by
  rw [length_bytes]
  omega

/-- The bytes of calls, where they stand in the record. -/
theorem slice_cons
    (h : record.slice c ((x :: calls).flatMap (bytes host)).length =
      (x :: calls).flatMap (bytes host)) :
    record.slice c (x.bytes host).length = x.bytes host ∧
      record.slice (c + (x.bytes host).length) (calls.flatMap (bytes host)).length =
        calls.flatMap (bytes host) := by
  rw [List.flatMap_cons, List.length_append, Record.slice_add] at h
  exact List.append_inj h (Record.length_slice ..)

/-- The loop goes on behind parameters that are stored faithfully. -/
theorem loop_skip (hf : ∀ x ∈ calls, x.Faithful)
    (h : record.slice c (calls.flatMap (bytes host)).length = calls.flatMap (bytes host))
    (hend : c + (calls.flatMap (bytes host)).length < record.position)
    (hmax : c + (calls.flatMap (bytes host)).length ≤ maxBufferSize) {n : Nat} {w : Visit}
    (hloop : loop (Asuite.visitPass host record) n ⟨c, s⟩ = some w) :
    ∃ m, loop (Asuite.visitPass host record) m
      ⟨c + (calls.flatMap (bytes host)).length, s ++ calls.map (param host)⟩ = some w := by
  induction calls generalizing c s n with
  | nil => exact ⟨n, by simpa using hloop⟩
  | cons x calls ih =>
    obtain ⟨hx, hrest⟩ := slice_cons h
    rw [List.flatMap_cons, List.length_append] at hend hmax ⊢
    cases n with
    | zero => cases hloop
    | succ n =>
      have hpass := (hf x List.mem_cons_self).visitPass hx (by omega) s
      rw [if_pos (by omega)] at hpass
      rw [loop_succ_inl hpass] at hloop
      obtain ⟨m, hm⟩ := ih (fun y hy => hf y (List.mem_cons_of_mem _ hy)) hrest (by omega) (by omega)
        hloop
      rw [List.append_assoc] at hm
      exact ⟨m, by rwa [← Nat.add_assoc]⟩

/-- The loop over parameters that are stored faithfully ends where they do. -/
theorem loop_faithful (hne : calls ≠ []) (hf : ∀ x ∈ calls, x.Faithful)
    (h : record.slice c (calls.flatMap (bytes host)).length = calls.flatMap (bytes host))
    (hend : c + (calls.flatMap (bytes host)).length = record.position)
    (hmax : record.position ≤ maxBufferSize) :
    ∃ n, loop (Asuite.visitPass host record) n ⟨c, s⟩ =
      some ⟨record.position, s ++ calls.map (param host)⟩ := by
  induction calls generalizing c s with
  | nil => exact absurd rfl hne
  | cons x calls ih =>
    obtain ⟨hx, hrest⟩ := slice_cons h
    rw [List.flatMap_cons, List.length_append] at hend
    have hpass := (hf x List.mem_cons_self).visitPass hx (by omega) s
    cases calls with
    | nil =>
      rw [List.flatMap_nil, List.length_nil] at hend
      rw [if_neg (by omega)] at hpass
      refine ⟨1, (loop_succ_inr hpass).trans ?_⟩
      rw [← hend]
      rfl
    | cons y calls =>
      have hpos := y.bytes_pos host
      rw [List.flatMap_cons, List.length_append] at hend
      rw [if_pos (by omega)] at hpass
      obtain ⟨n, hn⟩ := ih (s := s ++ [x.param host]) (List.cons_ne_nil y calls)
        (fun z hz => hf z (List.mem_cons_of_mem _ hz)) hrest
        (by rw [List.flatMap_cons, List.length_append]; omega)
      refine ⟨n + 1, (loop_succ_inl hpass).trans ?_⟩
      rw [hn, List.append_assoc]
      rfl

/-- A loop that sees what was passed goes over parameters that are stored faithfully. -/
theorem faithful_of_loop
    (h : record.slice c (calls.flatMap (bytes host)).length = calls.flatMap (bytes host))
    (hend : c + (calls.flatMap (bytes host)).length = record.position)
    (hmax : record.position ≤ maxBufferSize) {n stop : Nat}
    (hloop : loop (Asuite.visitPass host record) n ⟨c, s⟩ =
      some ⟨stop, s ++ calls.map (param host)⟩) : ∀ x ∈ calls, x.Faithful := by
  induction calls generalizing c s n with
  | nil => exact fun x hx => absurd hx List.not_mem_nil
  | cons x calls ih =>
    obtain ⟨hx, hrest⟩ := slice_cons h
    rw [List.flatMap_cons, List.length_append] at hend
    obtain ⟨more, hmore⟩ := loop_seen hloop
    have hhead := (List.cons.inj (List.append_cancel_left hmore)).1
    have hlen := x.len_le host
    rw [maxBufferSize] at hmax
    have hfaithful := faithful_of_paramAt hx (by omega) hhead.symm
    refine List.forall_mem_cons.mpr ⟨hfaithful, ?_⟩
    cases calls with
    | nil => exact fun x hx => absurd hx List.not_mem_nil
    | cons y calls =>
      have hpos := y.bytes_pos host
      rw [List.flatMap_cons, List.length_append] at hend
      have hpass := hfaithful.visitPass hx (by rw [maxBufferSize]; omega) s
      rw [if_pos (by omega)] at hpass
      cases n with
      | zero => cases hloop
      | succ n =>
        rw [loop_succ_inl hpass] at hloop
        refine ih (s := s ++ [x.param host]) hrest
          (by rw [List.flatMap_cons, List.length_append]; omega) (hloop.trans ?_)
        rw [List.append_assoc]
        rfl

end Call

/-- The loop sees what was appended, and ends with it, exactly if there is something to see and
all of it was stored faithfully. -/
theorem visits_iff (calls : List Call) {r : Record}
    (hsize : (build host calls r).position ≤ maxBufferSize) :
    Visits host (build host calls r) (calls.map (Call.param host)) (build host calls r).position ↔
      calls ≠ [] ∧ ∀ x ∈ calls, x.Faithful := by
  have hbuild := build_eq host calls r
  have hslice : (build host calls r).slice 2 (calls.flatMap (Call.bytes host)).length =
      calls.flatMap (Call.bytes host) := by
    rw [hbuild]
    exact Record.slice_puts (asuiterecordClear r) _
  have hend : 2 + (calls.flatMap (Call.bytes host)).length = (build host calls r).position := by
    rw [hbuild, Record.position_puts]
    rfl
  constructor
  · rintro ⟨n, hn⟩
    refine ⟨?_, Call.faithful_of_loop (s := []) hslice hend hsize hn⟩
    rintro rfl
    obtain ⟨more, hmore⟩ := loop_seen hn
    cases hmore
  · rintro ⟨hne, hf⟩
    exact Call.loop_faithful (s := []) hne hf hslice hend hsize

end Visits

end LinuxSna.Asuite
