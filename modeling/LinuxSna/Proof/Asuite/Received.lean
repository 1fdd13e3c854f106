import LinuxSna.Impl.Asuite.Receivers
import LinuxSna.Proof.Asuite.Codec

/-!
# Records from anyone

What a receiver does with bytes that are not the record they should be.

* `Harmless`: the loop ends, and it reads and writes nowhere but where it may;
* `WellFormed`: the parameters of a record, as the receiver goes through them;
* `harmless_iff`: the records that are harmless are those that are well formed, or that do not come
  to the loop.
-/

namespace LinuxSna.Asuite

open Framework (loop loop_succ_inl loop_succ_inr loop_never Passes passes_inl passes_inr)

/-! ## Harmless records -/

/-- The copy reads received bytes only, and writes no more than there is room for. -/
def Copy.Inside (record : Record) : Copy → Prop
  | bytes start n => start + n ≤ record.position
  | string start => ∃ i, start ≤ i ∧ i < record.position ∧ record.buffer i = 0
  | nowhere _ => False
  | strncpy start n room =>
    ((∃ i, start ≤ i ∧ i < record.position ∧ record.buffer i = 0) ∨ start + n ≤ record.position) ∧
      n ≤ room
  | memcpy start n room => start + n ≤ record.position ∧ n < room

/-- The length and the key are among the received bytes, and so is what is copied. -/
def Turn.Inside (host : Host) (rcv : Receiver) (system : System) (record : Record) (t : Turn) :
    Prop :=
  t.curpos + 3 ≤ record.position ∧ ∀ x ∈ rcv.copies host system record t, x.Inside record

/-- The loop ends after no more passes than there are bytes, and stays inside them. -/
structure Harmless (host : Host) (rcv : Receiver) (system : System) (record : Record) : Prop where
  ends : loop (rcv.pass host system record) record.position ⟨0, 2⟩ = some ()
  inside : Passes (rcv.pass host system record) (Turn.Inside host rcv system record) ⟨0, 2⟩

/-- The receiver copies a string to memory that may be missing. -/
def Receiver.Careless (rcv : Receiver) : Prop :=
  ∃ key, rcv.switch key = .duplicate false ∨ rcv.switch key = .changeDir

/-- There is memory, at least for those who do not look. -/
def System.Enough (system : System) (rcv : Receiver) : Prop :=
  rcv.Careless → ∀ pass, system.malloc pass = true

/-! ## Well-formed records -/

/-- Every call succeeds. -/
def System.willing : System := ⟨fun _ => true, fun _ => true⟩

/-- The parameters from a position on: each is there with its length, its key and what is copied
of it, and either the receiver returns with it, or it is the last, or it has a length and another
follows. -/
inductive WellFormed (host : Host) (rcv : Receiver) (record : Record) : Nat → Prop where
  | leave {c : Nat} (header : c + 3 ≤ record.position) (h : rcv.deed record c = .leave) :
    WellFormed host rcv record c
  | last {c : Nat} (inside : Turn.Inside host rcv .willing record ⟨0, c⟩)
    (h : rcv.stop record ≤ c + getParamLen host record c) : WellFormed host rcv record c
  | next {c : Nat} (inside : Turn.Inside host rcv .willing record ⟨0, c⟩)
    (pos : 0 < getParamLen host record c)
    (h : WellFormed host rcv record (c + getParamLen host record c)) :
    WellFormed host rcv record c

section Loop

variable {host : Host} {rcv : Receiver} {system : System} {record : Record} {c : Nat}

theorem getParamLen_lt (host : Host) (record : Record) (c : Nat) :
    getParamLen host record c < 2 ^ 16 := by
  rw [getParamLen]
  cases host <;> simp only [Host.htons] <;> omega

/-- What a willing system lets a receiver copy is all that any system does. -/
theorem copies_subset (henough : system.Enough rcv) (t : Turn) {x : Copy}
    (hx : x ∈ rcv.copies host system record t) :
    x ∈ rcv.copies host .willing record ⟨0, t.curpos⟩ := by
  rw [Receiver.copies] at hx ⊢
  cases hdeed : rcv.deed record t.curpos with
  | skip => simp [hdeed, Deed.copies] at hx
  | leave => simp [hdeed, Deed.copies] at hx
  | copy copies => simpa [hdeed, Deed.copies] using hx
  | duplicate checked =>
    cases hm : system.malloc t.passes with
    | true => simpa [hdeed, Deed.copies, hm, System.willing] using hx
    | false =>
      cases checked with
      | true => simp [hdeed, Deed.copies, hm] at hx
      | false =>
        rw [henough ⟨_, .inl hdeed⟩] at hm
        cases hm
  | changeDir =>
    have hm := henough ⟨_, .inr hdeed⟩ t.passes
    simpa [hdeed, Deed.copies, hm, System.willing] using hx

/-- A willing system makes a receiver return only with a parameter that it does not know. -/
theorem leaves_willing (pass : Nat) (d : Deed) :
    d.leaves .willing pass = true ↔ d = .leave := by
  cases d <;> simp [Deed.leaves, System.willing]

theorem Turn.Inside.of_willing (h : Turn.Inside host rcv .willing record ⟨0, c⟩)
    (henough : system.Enough rcv) (passes : Nat) :
    Turn.Inside host rcv system record ⟨passes, c⟩ :=
  ⟨h.1, fun x hx => h.2 x (copies_subset henough ⟨passes, c⟩ hx)⟩

theorem WellFormed.header (h : WellFormed host rcv record c) : c + 3 ≤ record.position := by
  cases h with
  | leave header _ => exact header
  | last inside _ => exact inside.1
  | next inside _ _ => exact inside.1

/-- Within the received bytes `curpos` does not wrap. -/
theorem pass_eq (host : Host) (rcv : Receiver) (system : System) {record : Record} {c : Nat}
    (hc : c + 3 ≤ record.position) (hmax : record.position ≤ maxBufferSize)
    (passes : Nat) :
    rcv.pass host system record ⟨passes, c⟩ =
      if (rcv.deed record c).leaves system passes then .inr ()
      else if c + getParamLen host record c < rcv.stop record then
        .inl ⟨passes + 1, c + getParamLen host record c⟩
      else .inr () := by
  have hlen := getParamLen_lt host record c
  rw [maxBufferSize] at hmax
  rw [Receiver.pass]
  dsimp only
  rw [Nat.mod_eq_of_lt (by omega)]

/-- A pass that ends the loop -/
theorem loop_inr {t : Turn} (hpass : rcv.pass host system record t = .inr ())
    (hinside : Turn.Inside host rcv system record t) :
    (∀ n, record.position ≤ t.curpos + n → n ≠ 0 →
      loop (rcv.pass host system record) n t = some ()) ∧
      Passes (rcv.pass host system record) (Turn.Inside host rcv system record) t := by
  refine ⟨fun n _ hn => ?_, (passes_inr hpass).mpr hinside⟩
  obtain ⟨k, rfl⟩ := Nat.exists_eq_succ_of_ne_zero hn
  exact loop_succ_inr hpass

/-- A loop over parameters that are well formed ends, whatever the system answers. -/
theorem WellFormed.ends (h : WellFormed host rcv record c) (henough : system.Enough rcv)
    (hmax : record.position ≤ maxBufferSize) (passes : Nat) :
    (∀ n, record.position ≤ c + n → n ≠ 0 →
      loop (rcv.pass host system record) n ⟨passes, c⟩ = some ()) ∧
      Passes (rcv.pass host system record) (Turn.Inside host rcv system record) ⟨passes, c⟩ := by
  induction h generalizing passes with
  | @leave c header hdeed =>
    have hinside : Turn.Inside host rcv system record ⟨passes, c⟩ :=
      ⟨header, fun x hx => by simp [Receiver.copies, hdeed, Deed.copies] at hx⟩
    refine loop_inr ?_ hinside
    rw [pass_eq host rcv system header hmax, hdeed]
    rfl
  | @last c inside hstop =>
    refine loop_inr ?_ (inside.of_willing henough passes)
    rw [pass_eq host rcv system inside.1 hmax, if_neg (Nat.not_lt.mpr hstop), ite_self]
  | @next c inside pos h ih =>
    have hpass := pass_eq host rcv system inside.1 hmax passes
    by_cases hgo : ¬ (rcv.deed record c).leaves system passes = true ∧
        c + getParamLen host record c < rcv.stop record
    · rw [if_neg hgo.1, if_pos hgo.2] at hpass
      obtain ⟨hends, hpasses⟩ := ih (passes + 1)
      refine ⟨fun n hn hne => ?_, (passes_inl hpass).mpr ⟨inside.of_willing henough passes, hpasses⟩⟩
      have hheader := h.header
      obtain ⟨k, rfl⟩ := Nat.exists_eq_succ_of_ne_zero hne
      exact (loop_succ_inl hpass).trans (hends k (by omega) (by omega))
    · refine loop_inr (hpass.trans ?_) (inside.of_willing henough passes)
      by_cases hleaves : (rcv.deed record c).leaves system passes = true
      · exact if_pos hleaves
      · rw [if_neg hleaves, if_neg fun hlt => hgo ⟨hleaves, hlt⟩]

/-- A loop that ends inside the received bytes, where every call succeeds, goes over parameters
that are well formed. -/
theorem wellFormed_of_ends (hmax : record.position ≤ maxBufferSize) {n passes : Nat}
    (hends : loop (rcv.pass host .willing record) n ⟨passes, c⟩ = some ())
    (hinside : Passes (rcv.pass host .willing record) (Turn.Inside host rcv .willing record)
      ⟨passes, c⟩) : WellFormed host rcv record c := by
  induction n generalizing c passes with
  | zero => cases hends
  | succ n ih =>
    have hhere : Turn.Inside host rcv .willing record ⟨0, c⟩ := by
      obtain ⟨hheader, hcopies⟩ := hinside 0 _ rfl
      exact ⟨hheader, fun x hx => hcopies x hx⟩
    have hpass := pass_eq host rcv .willing hhere.1 hmax passes
    by_cases hleaves : (rcv.deed record c).leaves .willing passes = true
    · exact .leave hhere.1 ((leaves_willing _ _).mp hleaves)
    · rw [if_neg hleaves] at hpass
      by_cases hlt : c + getParamLen host record c < rcv.stop record
      · rw [if_pos hlt] at hpass
        rw [loop_succ_inl hpass] at hends
        refine .next hhere (Nat.pos_of_ne_zero fun hzero => ?_)
          (ih hends ((passes_inl hpass).mp hinside).2)
        -- a parameter without a length is passed over and over
        have hnever : loop (rcv.pass host .willing record) n ⟨passes + 1, c⟩ = none := by
          refine loop_never (I := fun t => t.curpos = c) (fun t ht => ?_) rfl n
          obtain ⟨p, d⟩ := t
          obtain rfl : d = c := ht
          have hstay : ¬ (rcv.deed record d).leaves .willing p = true := fun h =>
            hleaves ((leaves_willing _ _).mpr ((leaves_willing _ _).mp h))
          refine ⟨⟨p + 1, d⟩, (pass_eq host rcv .willing hhere.1 hmax p).trans ?_, rfl⟩
          rw [if_neg hstay, if_pos hlt]
          simp only [hzero, Nat.add_zero]
        simp only [hzero, Nat.add_zero, hnever] at hends
        cases hends
      · exact .last hhere (Nat.not_lt.mp hlt)

/-- Whatever the system answers, the loop is harmless exactly if the parameters are well
formed. -/
theorem harmless_iff_wellFormed (host : Host) (rcv : Receiver) {record : Record}
    (hmax : record.position ≤ maxBufferSize) :
    (∀ system : System, system.Enough rcv → Harmless host rcv system record) ↔
      WellFormed host rcv record 2 := by
  constructor
  · intro h
    obtain ⟨hends, hinside⟩ := h .willing fun _ _ => rfl
    exact wellFormed_of_ends hmax hends hinside
  · intro h system henough
    have hheader := h.header
    obtain ⟨hends, hinside⟩ := h.ends henough hmax 0
    exact ⟨hends _ (by omega) (by omega), hinside⟩

end Loop

/-! ## Received bytes -/

/-- The bytes were received into the record; what stands after them was there before. -/
structure Record.Receives (record : Record) (bytes : List UInt8) : Prop where
  position : record.position = bytes.length
  buffer : ∀ i, i < bytes.length → record.buffer i = bytes.getD i 0

/-- A record that has received the bytes, with given bytes after them. -/
def received (bytes : List UInt8) (stale : Nat → UInt8) : Record :=
  ⟨bytes.length, fun i => if i < bytes.length then bytes.getD i 0 else stale i⟩

theorem receives_received (bytes : List UInt8) (stale : Nat → UInt8) :
    (received bytes stale).Receives bytes :=
  ⟨rfl, fun _ hi => if_pos hi⟩

/-- What stands after the bytes does not matter to what is received of them. -/
structure Agree (r r' : Record) : Prop where
  position : r'.position = r.position
  buffer : ∀ i, i < r.position → r'.buffer i = r.buffer i

theorem Record.Receives.agree {r r' : Record} {bytes : List UInt8} (h : r.Receives bytes)
    (h' : r'.Receives bytes) : Agree r r' where
  position := h'.position.trans h.position.symm
  buffer i hi := by
    rw [h.position] at hi
    rw [h'.buffer i hi, h.buffer i hi]

section Agree

variable {r r' : Record} {host : Host} {rcv : Receiver} {c : Nat}

theorem Copy.Inside.congr (h : Agree r r') {x : Copy} (hx : x.Inside r) : x.Inside r' := by
  have hnul {start : Nat} (hnul : ∃ i, start ≤ i ∧ i < r.position ∧ r.buffer i = 0) :
      ∃ i, start ≤ i ∧ i < r'.position ∧ r'.buffer i = 0 := by
    obtain ⟨i, hle, hlt, hi⟩ := hnul
    exact ⟨i, hle, h.position ▸ hlt, (h.buffer i hlt).trans hi⟩
  cases x with
  | bytes start n => exact le_of_le_of_eq hx h.position.symm
  | string start => exact hnul hx
  | nowhere start => exact hx
  | strncpy start n room =>
    exact ⟨hx.1.imp hnul fun hle => le_of_le_of_eq hle h.position.symm, hx.2⟩
  | memcpy start n room => exact ⟨le_of_le_of_eq hx.1 h.position.symm, hx.2⟩

/-- A header among the received bytes is the same. -/
theorem header_congr (host : Host) (rcv : Receiver) (h : Agree r r') (hc : c + 3 ≤ r.position) :
    getParamLen host r' c = getParamLen host r c ∧ rcv.deed r' c = rcv.deed r c := by
  constructor
  · rw [getParamLen, getParamLen, h.buffer c (by omega), h.buffer (c + 1) (by omega)]
  · rw [Receiver.deed, Receiver.deed, getKey, getKey, h.buffer (c + 2) (by omega)]

theorem Turn.Inside.congr (h : Agree r r')
    (hinside : Turn.Inside host rcv .willing r ⟨0, c⟩) :
    Turn.Inside host rcv .willing r' ⟨0, c⟩ := by
  obtain ⟨hheader, hcopies⟩ := hinside
  obtain ⟨hlen, hdeed⟩ := header_congr host rcv h hheader
  refine ⟨le_of_le_of_eq hheader h.position.symm, fun x hx => (hcopies x ?_).congr h⟩
  rwa [Receiver.copies, hlen, hdeed] at hx

theorem stop_congr (h : Agree r r') : rcv.stop r' = rcv.stop r := by
  rw [Receiver.stop, Receiver.stop, getReceivedLen, getReceivedLen, h.position]

theorem WellFormed.congr (h : Agree r r') (hr : WellFormed host rcv r c) :
    WellFormed host rcv r' c := by
  induction hr with
  | leave header hdeed =>
    refine .leave (le_of_le_of_eq header h.position.symm) ?_
    rw [(header_congr host rcv h header).2, hdeed]
  | last inside hstop =>
    have hlen := (header_congr host rcv h inside.1).1
    refine .last (inside.congr h) ?_
    rw [hlen, stop_congr h]
    exact hstop
  | next inside pos _ ih =>
    have hlen := (header_congr host rcv h inside.1).1
    refine .next (inside.congr h) ?_ ?_ <;> rw [hlen]
    · exact pos
    · exact ih

end Agree

/-! ## The programs -/

/-- The first bytes that stand somewhere, as far as they have been received. -/
theorem slice_received {record : Record} {bytes : List UInt8} (h : record.Receives bytes)
    (start n : Nat) :
    (bytes.drop start).take n = record.slice start (min n (bytes.length - start)) := by
  apply List.ext_getElem (by simp)
  intro i h1 h2
  rw [List.length_take, List.length_drop] at h1
  rw [List.getElem_take, List.getElem_drop, Record.getElem_slice, h.buffer _ (by omega),
    List.getD_eq_getElem _ _ (by omega)]

/-- The received bytes tell that the string at byte 5 is not the one that must stand there. -/
def Receiver.Refuses (rcv : Receiver) (bytes : List UInt8) : Prop :=
  ∃ s, rcv.origin = some s ∧ ¬ (bytes.drop 5).take (cString s).length <+: cString s

theorem not_enters {rcv : Receiver} {bytes : List UInt8} {record : Record}
    (h : rcv.Refuses bytes) (hreceives : record.Receives bytes) : rcv.enters record = false := by
  obtain ⟨s, horigin, hne⟩ := h
  rw [Receiver.enters, horigin, decide_eq_false_iff_not]
  intro heq
  apply hne
  rw [slice_received hreceives, ← heq, Record.length_slice]
  obtain ⟨k, hk⟩ := Nat.exists_eq_add_of_le
    (Nat.min_le_left (cString s).length (bytes.length - 5))
  conv_rhs => rw [hk, Record.slice_add]
  exact List.prefix_append _ _

/-- If the received bytes do not tell it, what stands after them can be such that the loop is
entered. -/
theorem exists_enters {rcv : Receiver} {bytes : List UInt8} (h : ¬ rcv.Refuses bytes) :
    ∃ record : Record, record.Receives bytes ∧ rcv.enters record = true := by
  cases horigin : rcv.origin with
  | none =>
    exact ⟨_, receives_received bytes fun _ => 0, by rw [Receiver.enters, horigin]⟩
  | some s =>
    have hreceives := receives_received bytes fun i => (cString s).getD (i - 5) 0
    refine ⟨_, hreceives, ?_⟩
    have hprefix : (bytes.drop 5).take (cString s).length <+: cString s :=
      not_not.mp fun hne => h ⟨s, horigin, hne⟩
    rw [Receiver.enters, horigin, decide_eq_true_eq]
    apply List.ext_getElem (Record.length_slice ..)
    intro i h1 h2
    rw [Record.getElem_slice]
    by_cases hi : 5 + i < bytes.length
    · have hget := hprefix.getElem (i := i) (by rw [List.length_take, List.length_drop]; omega)
      rw [List.getElem_take, List.getElem_drop] at hget
      rw [hreceives.buffer _ hi, List.getD_eq_getElem _ _ hi, hget]
    · rw [show (received bytes _).buffer (5 + i) = _ from if_neg hi, Nat.add_sub_cancel_left,
        List.getD_eq_getElem _ _ h2]

/-- The program comes through the record unharmed: there is no loop over its parameters, or the
loop is not entered, or it is harmless, given memory for the strings that the receiver copies
without a look at what `malloc` returns. -/
def Program.Harmless (host : Host) (p : Program) (system : System) (record : Record) : Prop :=
  ∀ rcv, p.receiver (getMajorCode record) = some rcv → system.Enough rcv →
    rcv.enters record = true → Asuite.Harmless host rcv system record

/-- The bytes are a record that the program can receive: one without a loop over parameters, one
that is refused before, or one whose parameters are well formed. -/
def Program.Accepts (host : Host) (p : Program) (bytes : List UInt8) : Prop :=
  ∀ rcv, p.receiver (bytes.getD 1 0).toNat = some rcv →
    rcv.Refuses bytes ∨ WellFormed host rcv (received bytes fun _ => 0) 2

theorem getMajorCode_eq {record : Record} {bytes : List UInt8} (h : 2 ≤ bytes.length)
    (hreceives : record.Receives bytes) : getMajorCode record = (bytes.getD 1 0).toNat := by
  rw [getMajorCode, hreceives.buffer 1 h]

/-- What a program comes through unharmed is a record that it can receive. -/
theorem accepts_of_harmless {host : Host} {p : Program} {bytes : List UInt8} (h : 2 ≤ bytes.length)
    (hmax : bytes.length ≤ maxBufferSize)
    (hharmless : ∀ record system, record.Receives bytes → p.Harmless host system record) :
    p.Accepts host bytes := by
  intro rcv hrcv
  apply or_iff_not_imp_left.mpr
  intro hrefuses
  obtain ⟨record, hreceives, henters⟩ := exists_enters hrefuses
  have hwell := (harmless_iff_wellFormed host rcv
    (hreceives.position ▸ hmax)).mp fun system henough =>
      hharmless record system hreceives rcv (by rw [getMajorCode_eq h hreceives, hrcv]) henough
        henters
  exact hwell.congr (hreceives.agree (receives_received bytes _))

/-- A program is unharmed by bytes from anyone, whatever stands in memory after them and whatever
the system answers, exactly if they are a record that it can receive. -/
theorem harmless_iff (host : Host) (p : Program) (bytes : List UInt8) (h : 2 ≤ bytes.length)
    (hmax : bytes.length ≤ maxBufferSize) :
    (∀ record system, record.Receives bytes → p.Harmless host system record) ↔
      p.Accepts host bytes := by
  refine ⟨accepts_of_harmless h hmax, fun haccepts record system hreceives rcv hrcv henough
    henters => ?_⟩
  rw [getMajorCode_eq h hreceives] at hrcv
  obtain hrefuses | hwell := haccepts rcv hrcv
  · rw [not_enters hrefuses hreceives] at henters
    cases henters
  · exact (harmless_iff_wellFormed host rcv (hreceives.position ▸ hmax)).mpr
      (hwell.congr ((receives_received bytes _).agree hreceives)) system henough

/-- An entry of a directory with a name of one letter. -/
theorem harmless_iff_entry :
    Program.Accepts .little (.dirRead 64) [0, 4, 0, 5, 17, 97, 0] ∧
      ∀ record system, record.Receives [0, 4, 0, 5, 17, 97, 0] →
        Program.Harmless .little (.dirRead 64) system record := by
  have haccepts : Program.Accepts .little (.dirRead 64) [0, 4, 0, 5, 17, 97, 0] := by
    intro rcv hrcv
    obtain rfl := Option.some.inj hrcv
    refine .inr (.last ⟨by decide, fun x hx => ?_⟩ (by decide))
    obtain rfl := List.mem_singleton.mp hx
    exact ⟨.inl ⟨6, by decide, by decide, rfl⟩, by decide⟩
  exact ⟨haccepts, (harmless_iff .little (.dirRead 64) _ (by decide) (by decide)).mpr haccepts⟩

/-- Records that harm: for `aftpd`, a request for a list with a parameter without a length, over
which the loop goes for ever; for `anamed`, a query with a user name of 66 bytes and its NUL; and
for `aftp_change_dir`, with a name of 7 letters, the answer that all is well, behind which it reads
on. -/
theorem records_harm :
    (¬ ∀ record system, record.Receives [0, 3, 0, 0, 20, 0] →
      Program.Harmless .little .aftpd system record) ∧
    (¬ ∀ record system, record.Receives ([0, 4, 0, 70, 100] ++ List.replicate 66 97 ++ [0]) →
      Program.Harmless .little (.anamed []) system record) ∧
    ¬ ∀ record system, record.Receives [0, 1, 0, 4, 2, 0] →
      Program.Harmless .little (.changeDir 7) system record := by
  refine ⟨fun h => ?_, fun h => ?_, fun h => ?_⟩
  · obtain ⟨s, hs, -⟩ | hwell := accepts_of_harmless (by decide) (by decide) h Aftpd.aListRequest rfl
    · cases hs
    · cases hwell with
      | leave _ hdeed => cases hdeed
      | last _ hstop => exact absurd hstop (by decide)
      | next _ pos _ => exact absurd pos (by decide)
  · obtain ⟨s, hs, -⟩ | hwell := accepts_of_harmless (by decide) (by decide) h Anamed.aQuery rfl
    · cases hs
    · have hfield : ¬ (Copy.memcpy 5 66 65).Inside (received ([0, 4, 0, 70, 100] ++
          List.replicate 66 97 ++ [0]) fun _ => 0) := fun hinside => absurd hinside.2 (by decide)
      cases hwell with
      | leave _ hdeed => cases hdeed
      | last inside _ => exact hfield (inside.2 _ (List.mem_singleton_self _))
      | next inside _ _ => exact hfield (inside.2 _ (List.mem_singleton_self _))
  · obtain ⟨s, hs, -⟩ | hwell :=
      accepts_of_harmless (by decide) (by decide) h (Libaftp.aftpChangeDir 7) rfl
    · cases hs
    · cases hwell with
      | leave _ hdeed => cases hdeed
      | last _ hstop => exact absurd hstop (by decide)
      | next _ _ hnext => exact absurd hnext.header (by decide)

end LinuxSna.Asuite
