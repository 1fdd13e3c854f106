import LinuxSna.Spec.Ftp

/-!
# Whole files

What comes of a file that is read to its end, and what becomes of one that is written in pieces, on
a system where any call may fail.

* `readFile_pieces`: the pieces up to the first `read` that fails;
* `take_content`: the file that is opened holds what the writes that did not fail have left,
  over what it held before;
* `landed_arriving`: where no call fails, that is the whole of it.
-/

namespace LinuxSna.Asuite.Ftp

/-- The pieces of a file, up to the first `read` that fails, where the next call is the `k`-th. -/
def arriving (faults : Nat → Bool) (room : Nat) : Nat → Nat → List UInt8 → List (List UInt8)
  | 0, _, _ => []
  | n + 1, k, x =>
    if faults k ∨ x = [] then [] else x.take room :: arriving faults room n (k + 1) (x.drop room)

/-- What is written of the pieces, where the next call is the `k`-th. -/
def landed (faults : Nat → Bool) : Nat → List (List UInt8) → List UInt8
  | _, [] => []
  | k, data :: pieces => (if faults k then [] else data) ++ landed faults (k + 1) pieces

/-- Where no call fails, all of it is written. -/
theorem landed_arriving {faults faults' : Nat → Bool} (hread : ∀ k, faults k = false)
    (hwrite : ∀ k, faults' k = false) {room : Nat} (hroom : 0 < room) {n k k' : Nat}
    {x : List UInt8} (hn : x.length ≤ n) :
    landed faults' k' (arriving faults room n k x) = x := by
  induction n generalizing k k' x with
  | zero =>
    rw [List.length_eq_zero_iff.mp (Nat.le_zero.mp hn)]
    rfl
  | succ n ih =>
    by_cases hx : x = []
    · rw [arriving, if_pos (.inr hx), hx]
      rfl
    · have hrest : (x.drop room).length ≤ n := by
        have hpos := List.length_pos_of_ne_nil hx
        rw [List.length_drop]
        omega
      rw [arriving, if_neg (by simp [hread k, hx]), landed, hwrite k', if_neg Bool.false_ne_true,
        ih hrest, List.take_append_drop]

section Reading

variable (faults : Nat → Bool) {fd room : Nat} {name : List UInt8}

theorem readAll_pieces (hroom : 0 < room) {n offset : Nat} {w : Files}
    (h : w.table fd = some (name, offset)) :
    ((files faults).readAll fd room n w).1 =
      arriving faults room n w.calls ((w.held name).drop offset) := by
  induction n generalizing offset w with
  | zero => rfl
  | succ n ih =>
    have hread : (files faults).read fd room w =
        if faults w.calls then (.error .other, w.tick)
        else (.ok (((w.held name).drop offset).take room), w.tick.seek fd name
          (offset + (((w.held name).drop offset).take room).length)) := by
      show Files.read faults fd room w = _
      rw [Files.read, h]
    rw [System.readAll, hread, arriving]
    by_cases hfault : faults w.calls = true
    · rw [if_pos hfault, if_pos (.inl hfault)]
    · rw [if_neg hfault]
      simp only
      by_cases hend : (w.held name).drop offset = []
      · rw [hend, List.take_nil, if_pos rfl, if_pos (.inr rfl)]
      · have hne : ¬ ((w.held name).drop offset).take room = [] := fun htake => by
          obtain hzero | hnil := List.take_eq_nil_iff.mp htake
          · omega
          · exact hend hnil
        rw [if_neg hne, if_neg (not_or.mpr ⟨hfault, hend⟩)]
        simp only [List.cons.injEq, true_and]
        rw [ih (Function.update_self ..)]
        have hdrop : (w.held name).drop (offset + (((w.held name).drop offset).take room).length) =
            ((w.held name).drop offset).drop room := by
          rw [List.drop_drop, List.length_take, List.length_drop]
          by_cases hlt : room ≤ (w.held name).length - offset
          · rw [Nat.min_eq_left hlt]
          · rw [Nat.min_eq_right (by omega), List.drop_eq_nil_of_le (by omega),
              List.drop_eq_nil_of_le (by omega)]
        exact congrArg _ hdrop

/-- The pieces of a file that has just been opened. -/
theorem readFile_pieces {w : Files} (name : List UInt8) :
    ((files faults).readFile w.next (w.tick.opening name)).1 =
      arriving faults (maxBufferSize - 2) ((w.held name).length + 1) (w.calls + 1)
        (w.held name) := by
  have hplace : (w.tick.opening name).table w.next = some (name, 0) := Function.update_self ..
  have hleft : (files faults).left w.next (w.tick.opening name) = (w.held name).length := by
    show Files.left w.next (w.tick.opening name) = _
    rw [Files.left, hplace]
    rfl
  have hpieces := readAll_pieces faults (n := (w.held name).length + 1)
    (show 0 < maxBufferSize - 2 by decide) hplace
  rw [System.readFile, hleft]
  exact hpieces

end Reading

section Writing

variable {faults : Nat → Bool}

/-- A file is open to be written: `done` of it has been written over `old`, and the other files are
as they were in `base`. -/
structure Writing (base : List UInt8 → Option (List UInt8)) (name old written : List UInt8)
    (fd : Nat) (w : Files) : Prop where
  place : w.table fd = some (name, written.length)
  content : w.content = Function.update base name (some (overlay written old))

/-- A write takes all or nothing, so that it is made once. -/
theorem writeAll_eq (fd : Nat) (data : List UInt8) (w : Files) :
    ((files faults).writeAll fd data w).2 = ((files faults).write fd data w).2 := by
  rw [System.writeAll, System.writeLoop]
  cases hwrite : (files faults).write fd data w with
  | mk outcome w' =>
    cases outcome with
    | error errno => rfl
    | ok k =>
      have hk : k = data.length := Files.write_ok (congrArg Prod.fst hwrite)
      simp only [hk, List.drop_length, if_true]

theorem write_closed {w : Files} {fd : Nat} (h : w.table fd = none) (data : List UInt8) :
    ((files faults).write fd data w).2 = w.tick := by
  show (Files.write faults fd data w).2 = _
  rw [Files.write, h]

theorem write_fault {w : Files} {fd : Nat} (hfault : faults w.calls = true) (data : List UInt8) :
    ((files faults).write fd data w).2 = w.tick := by
  show (Files.write faults fd data w).2 = _
  rw [Files.write]
  cases w.table fd with
  | none => rfl
  | some place => simp only [if_pos hfault]

theorem write_place {w : Files} {fd offset : Nat} {name : List UInt8}
    (h : w.table fd = some (name, offset)) (hfault : ¬ faults w.calls = true)
    (data : List UInt8) :
    ((files faults).write fd data w).2 =
      (w.tick.put name (writeAt offset data (w.held name))).seek fd name
        (offset + data.length) := by
  show (Files.write faults fd data w).2 = _
  rw [Files.write, h]
  simp only [if_neg hfault]

variable {base : List UInt8 → Option (List UInt8)} {name old written : List UInt8} {fd : Nat}
  {w : Files} (faults)

/-- A piece that is written, or not. -/
theorem Writing.write (h : Writing base name old written fd w) (data : List UInt8) :
    Writing base name old (written ++ if faults w.calls then [] else data) fd
      ((files faults).write fd data w).2 ∧
      ((files faults).write fd data w).2.calls = w.calls + 1 := by
  by_cases hfault : faults w.calls = true
  · rw [write_fault hfault, if_pos hfault, List.append_nil]
    exact ⟨⟨h.place, h.content⟩, rfl⟩
  · have hheld : w.held name = overlay written old := by
      rw [Files.held, h.content, Function.update_self, Option.getD_some]
    rw [write_place h.place hfault, if_neg hfault, hheld, writeAt_overlay]
    refine ⟨⟨?_, ?_⟩, rfl⟩
    · rw [List.length_append]
      exact Function.update_self ..
    · show Function.update w.content name _ = _
      rw [h.content, Function.update_idem]

/-- The pieces of a file that is open, and its end. -/
theorem Writing.finish (h : Writing base name old written fd w) (pieces : List (List UInt8)) :
    ((Remote.finish (files faults) pieces ⟨w, some fd⟩).2.world.content =
      Function.update base name (some (overlay (written ++ landed faults w.calls pieces) old))) ∧
      (Remote.finish (files faults) pieces ⟨w, some fd⟩).2.destFile = some fd ∧
      (Remote.finish (files faults) pieces ⟨w, some fd⟩).2.world.table fd = none := by
  induction pieces generalizing written w with
  | nil =>
    have hclose : ((files faults).close fd w).2 =
        { w.tick with table := Function.update w.table fd none } := by
      show (Files.close faults fd w).2 = _
      rw [Files.close, h.place]
    rw [Remote.finish, Remote.complete]
    simp only [hclose, landed, List.append_nil]
    exact ⟨h.content, trivial, Function.update_self ..⟩
  | cons data pieces ih =>
    obtain ⟨hwriting, hcalls⟩ := h.write faults data
    have hrest := ih hwriting
    rw [hcalls, List.append_assoc] at hrest
    rw [Remote.finish, Remote.piece, landed]
    simp only [writeAll_eq]
    exact hrest

/-- Pieces that are written, each once, whether that fails or not, and the end of the file. -/
theorem Writing.writes (h : Writing base name old written fd w) (pieces : List (List UInt8)) :
    ((files faults).close fd
      (pieces.foldl (fun w data => ((files faults).write fd data w).2) w)).2.content =
      Function.update base name (some (overlay (written ++ landed faults w.calls pieces) old)) := by
  induction pieces generalizing written w with
  | nil =>
    show (Files.close faults fd w).2.content = _
    rw [Files.close, h.place, landed, List.append_nil]
    exact h.content
  | cons data pieces ih =>
    obtain ⟨hwriting, hcalls⟩ := h.write faults data
    have hrest := ih hwriting
    rw [hcalls, List.append_assoc] at hrest
    rw [List.foldl_cons, landed]
    exact hrest

/-- No file is open at the server. -/
def Remote.Closed (r : Remote Files) : Prop := ∀ fd, r.destFile = some fd → r.world.table fd = none

/-- Where no file is open, nothing is written. -/
theorem finish_closed (pieces : List (List UInt8)) {r : Remote Files} (h : r.Closed) :
    (r.finish (files faults) pieces).2.world.content = r.world.content ∧
      (r.finish (files faults) pieces).2.Closed := by
  obtain ⟨w, destFile⟩ := r
  cases destFile with
  | none =>
    have hfinish : (Remote.finish (files faults) pieces ⟨w, none⟩).2 = ⟨w, none⟩ := by
      induction pieces with
      | nil => rfl
      | cons data pieces ih => exact ih
    rw [hfinish]
    exact ⟨rfl, h⟩
  | some fd =>
    have hplace : w.table fd = none := h fd rfl
    clear h
    induction pieces generalizing w with
    | nil =>
      have hclose : ((files faults).close fd w).2 = w.tick := by
        show (Files.close faults fd w).2 = _
        rw [Files.close, hplace]
      rw [Remote.finish, Remote.complete]
      simp only [hclose]
      exact ⟨rfl, fun fd' hfd => Option.some.inj hfd ▸ hplace⟩
    | cons data pieces ih =>
      rw [Remote.finish, Remote.piece]
      simp only [writeAll_eq, write_closed hplace]
      exact ih w.tick hplace

/-- What becomes of the files of a server to which a file comes in pieces. The calls that it makes
first are two for memory and one that opens the file. -/
theorem take_content (name : List UInt8) (pieces : List (List UInt8)) {r : Remote Files}
    (h : r.Closed) :
    (r.take (files faults) name pieces).2.world.content =
        (if faults r.world.calls ∨ faults (r.world.calls + 1) ∨ faults (r.world.calls + 2) then
          r.world.content
        else Function.update r.world.content name
          (some (overlay (landed faults (r.world.calls + 3) pieces) (r.world.held name)))) ∧
      (r.take (files faults) name pieces).2.Closed := by
  obtain ⟨w, destFile⟩ := r
  rw [Remote.take, Remote.openFile]
  simp only [System.mallocs]
  by_cases hfirst : faults w.calls = true
  · have hmalloc : (files faults).malloc w = (false, w.tick) :=
      Prod.ext (by show (!faults w.calls) = false; rw [hfirst]; rfl) rfl
    rw [if_pos (.inl hfirst), hmalloc]
    exact finish_closed faults pieces (r := ⟨w.tick, destFile⟩) h
  have hmalloc : (files faults).malloc w = (true, w.tick) :=
    Prod.ext (by show (!faults w.calls) = true; simpa using hfirst) rfl
  simp only [hmalloc]
  by_cases hsecond : faults (w.calls + 1) = true
  · have hmalloc' : (files faults).malloc w.tick = (false, w.tick.tick) :=
      Prod.ext (by show (!faults (w.calls + 1)) = false; rw [hsecond]; rfl) rfl
    rw [if_pos (.inr (.inl hsecond)), hmalloc']
    exact finish_closed faults pieces (r := ⟨w.tick.tick, destFile⟩) h
  have hmalloc' : (files faults).malloc w.tick = (true, w.tick.tick) :=
    Prod.ext (by show (!faults (w.calls + 1)) = true; simpa using hsecond) rfl
  simp only [hmalloc']
  by_cases hopen : faults (w.calls + 2) = true
  · have hopened : (files faults).openWrite name w.tick.tick =
        (.error .eacces, w.tick.tick.tick) := if_pos hopen
    rw [if_pos (.inr (.inr hopen)), hopened]
    exact finish_closed faults pieces (r := ⟨w.tick.tick.tick, none⟩) fun _ hfd => absurd hfd (by simp)
  have hopened : (files faults).openWrite name w.tick.tick =
      (.ok w.next, (w.tick.tick.tick.put name (w.held name)).opening name) := if_neg hopen
  have hwriting : Writing w.content name (w.held name) [] w.next
      ((w.tick.tick.tick.put name (w.held name)).opening name) :=
    ⟨Function.update_self .., rfl⟩
  obtain ⟨hcontent, hdest, htable⟩ := hwriting.finish faults pieces
  rw [if_neg (not_or.mpr ⟨hfirst, not_or.mpr ⟨hsecond, hopen⟩⟩)]
  simp only [hopened]
  refine ⟨hcontent, fun fd hfd => ?_⟩
  rw [hdest] at hfd
  exact Option.some.inj hfd ▸ htable

end Writing

end LinuxSna.Asuite.Ftp
