import LinuxSna.Impl.Sna.Attach

/-!
# What the attach manager is for

* `Registry`: who has registered which transaction program under which number. A number that a
  register returns is the one to unregister with, and a registration ends with the instance through
  which it was made;
* `Desk`: Attaches are handed out in the order in which they came, each to one listener, and the
  control block of an Attach gets the process that is launched for it;
* `AttachHeader`: an FMH-5 begins with its length, which counts itself; each of its fields begins with a
  length that does not. A reader who goes by these lengths gets the fields, and no byte is left.
-/

namespace LinuxSna

namespace Attach

open Framework

/-! ## Registrations -/

/-- A registration, with the instance through which it was made -/
structure Registration where
  instance_ : Nat
  index : UInt32
  name : List UInt8

abbrev Registry := List Registration

local instance names_lawful : LawfulBEq (List UInt8) := inferInstance

/-- The registry after a call on a manager with the files `files`, and what the call returns. A new
registration gets the number `index`. -/
def Registry.call (r : Registry) (files : List Nat) (index : UInt32) : Call → Registry × Int
  | .opened fd inode file => (r, if !inode then eNomem else if !file then eNfile else fd)
  | .close fd => if fd ∉ files then (r, eBadf) else (r.filter (·.instance_ ≠ fd), 0)
  | .register fd name memory =>
    if fd ∉ files then (r, eBadf)
    else if name ∈ r.map Registration.name then (r, eExist)
    else if !memory then (r, eNomem)
    else (r ++ [⟨fd, index, name⟩], index.toNat)
  | .unregister fd i =>
    if fd ∉ files then (r, eBadf)
    else if i ∈ r.map Registration.index then (r.filter (·.index ≠ i), 0)
    else (r, eNoent)
  | .fileRelease fd => (r.filter (·.instance_ ≠ fd), 0)

/-! ## Attaches -/

/-- The Attaches that are waiting and the control blocks of the transaction programs -/
structure Desk where
  waiting : List AttachRq
  tps : List TpCb
  deriving DecidableEq

/-- An Attach comes in, or it is handed to a listener whose program gets the process `pid`. -/
def Desk.come (d : Desk) (a : AttachRq) : Desk := { d with waiting := d.waiting ++ [a] }

def Desk.hand (d : Desk) (names : List (List UInt8)) (pid : Int) : Option (AttachRq × Desk) :=
  match d.waiting with
  | [] => none
  | a :: waiting =>
    some (a, ⟨waiting,
      if a.name ∈ names then if pid < 0 then d.tps else tpCorrelate d.tps pid a.tcbId else d.tps⟩)

end Attach

/-! ## Attach headers -/

namespace Ps

/-- A field with the contents `l` -/
def field (l : List UInt8) : List UInt8 := .ofNat l.length :: l

/-- The contents of the first field, and what is behind it -/
def readField : List UInt8 → Option (List UInt8 × List UInt8)
  | [] => none
  | n :: l => if n.toNat ≤ l.length then some (l.take n.toNat, l.drop n.toNat) else none

structure AttachHeader where
  fixed : List UInt8
  tpName : List UInt8
  security : List UInt8
  luName : List UInt8
  luw : List UInt8
  correlator : List UInt8
  sequence : List UInt8

namespace AttachHeader

/-- The header behind its length -/
def body (h : AttachHeader) : List UInt8 :=
  h.fixed ++ field h.tpName ++ field h.security ++ field (field h.luName ++ h.luw) ++
    field h.correlator ++ field h.sequence

def bytes (h : AttachHeader) : List UInt8 := .ofNat (h.body.length + 1) :: h.body

/-- The header, read from bytes of which the first 9 have no field -/
def read : List UInt8 → Option AttachHeader
  | [] => none
  | n :: body =>
    if n.toNat = body.length + 1 then do
      let (tpName, rest) ← readField (body.drop 8)
      let (security, rest) ← readField rest
      let (unit, rest) ← readField rest
      let (luName, luw) ← readField unit
      let (correlator, rest) ← readField rest
      let (sequence, rest) ← readField rest
      if rest = [] then some ⟨body.take 8, tpName, security, luName, luw, correlator, sequence⟩ else none
    else none

end AttachHeader

theorem length_field (l : List UInt8) : (field l).length = l.length + 1 := rfl

theorem readField_append {l : List UInt8} (h : l.length < 256) (rest : List UInt8) :
    readField (field l ++ rest) = some (l, rest) := by
  have hlen : (UInt8.ofNat l.length).toNat = l.length := UInt8.toNat_ofNat_of_lt h
  rw [field, List.cons_append, readField, hlen, if_pos (by rw [List.length_append]; omega),
    List.take_left, List.drop_left]

theorem AttachHeader.length_body (h : AttachHeader) :
    h.body.length = h.fixed.length + h.tpName.length + h.security.length + h.luName.length +
      h.luw.length + h.correlator.length + h.sequence.length + 6 := by
  simp only [body, List.length_append, length_field]
  omega

/-- A header is read as it was written if its length is a byte. -/
theorem AttachHeader.read_bytes {h : AttachHeader} (hfixed : h.fixed.length = 8)
    (hlen : h.bytes.length < 256) : read h.bytes = some h := by
  have hbody : h.body.length + 1 < 256 := hlen
  have hparts := h.length_body
  have hunit : (field h.luName ++ h.luw).length < 256 := by
    rw [List.length_append, length_field]
    omega
  have hdrop : h.body.drop 8 = field h.tpName ++ (field h.security ++
      (field (field h.luName ++ h.luw) ++ (field h.correlator ++ (field h.sequence ++ [])))) := by
    rw [← hfixed, body]
    simp only [List.append_assoc, List.drop_left, List.append_nil]
  have htake : h.body.take 8 = h.fixed := by
    rw [← hfixed, body]
    simp only [List.append_assoc, List.take_left]
  have hread : (UInt8.ofNat (h.body.length + 1)).toNat = h.body.length + 1 :=
    UInt8.toNat_ofNat_of_lt hbody
  rw [bytes, read, if_pos hread, hdrop, htake]
  simp only [readField_append (show h.tpName.length < 256 by omega),
    readField_append (show h.security.length < 256 by omega), readField_append hunit,
    readField_append (show h.luName.length < 256 by omega),
    readField_append (show h.correlator.length < 256 by omega),
    readField_append (show h.sequence.length < 256 by omega), Option.bind_eq_bind, Option.bind_some,
    ↓reduceIte]

end Ps

end LinuxSna
