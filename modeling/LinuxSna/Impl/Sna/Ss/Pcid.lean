import LinuxSna.Framework.Words
import LinuxSna.Framework.Loop
import LinuxSna.Impl.Sna.Cs.Xid
import LinuxSna.Impl.Sna.Ebcdic

/-!
# Procedure correlation identifiers

`sna_ss_assign_pcid`: two hashes of the name of the remote LU, a counter of the process added to the
first and the clock to the second. What the stack holds before an array is written is given with the
call, and so is a bound on the passes of the divisions.
-/

namespace LinuxSna.Ss

open Cs (htonl)
open Ebcdic (atoeStrncpy etorStrncpy)
open Framework (loop value)

/-!
## Division of 64-bit numbers

`rl_div` and its parts, on arrays of 8 bytes, the lowest first. `rl_sub` takes 1 from a byte with
`curtop = curtop--`, which the language leaves undefined: `post` tells what is in `curtop` after it, if
that can be told at all.
-/

/-- The loop of `rl_sub` from a byte on, with `borrowed` before it -/
def rlSubBytes (post : UInt8 → Option UInt8) : Bool → List UInt8 → List UInt8 → Option (List UInt8)
  | borrowed, t :: top, b :: bottom => do
    let (curtop, borrowed) ←
      if borrowed then if t = 0 then some (0xFF, true) else (post t).map fun c => (c, false)
      else some (t, false)
    let rest ← rlSubBytes post (borrowed || curtop < b) top bottom
    return (curtop - b) :: rest
  | _, top, _ => some top

/-- `rl_sub`; `none` if the behaviour is undefined -/
def rlSub (post : UInt8 → Option UInt8) (top bottom : List UInt8) : Option (List UInt8) :=
  if top.getD 7 0 < bottom.getD 7 0 then some top else rlSubBytes post false top bottom

/-- `rl_left` from a byte on, with the byte before it. The source goes from the highest byte to the
lowest, so each takes its bit from a byte that has not been shifted yet. -/
def rlLeftBytes : UInt8 → List UInt8 → List UInt8
  | _, [] => []
  | below, b :: number =>
    (b <<< 1 ||| if below &&& 0x80 ≠ 0 then 0x01 else 0x00) :: rlLeftBytes b number

def rlLeft (number : List UInt8) : List UInt8 := rlLeftBytes 0 number

/-- `rl_right` -/
def rlRight : List UInt8 → List UInt8
  | [] => []
  | b :: number => (b >>> 1 ||| if number.headD 0 &&& 0x01 ≠ 0 then 0x80 else 0x00) :: rlRight number

/-- A loop from `n - 1` down to 0 that is left at the first number that it is looking for -/
def highest (p : Nat → Bool) : Nat → Option Nat
  | 0 => none
  | n + 1 => if p n then some n else highest p n

/-- The first two loops of `rl_align`: the highest byte that is not 0 and its highest bit; `none` if
there is no such byte, and the byte before the array is read. -/
def maxBit (dividend : List UInt8) : Option (Nat × Nat) := do
  let maxbyte ← highest (fun i => dividend.getD i 0 > 0) 8
  let maxbit ← highest (fun i => (dividend.getD maxbyte 0).toNat.testBit i) 9
  return (maxbyte, maxbit)

/-- The last loop of `rl_align` -/
def alignPass (bit : Nat × Nat) (divisor : List UInt8) : List UInt8 ⊕ List UInt8 :=
  if (divisor.getD bit.1 0).toNat.testBit bit.2 then .inr divisor else .inl (rlLeft divisor)

/-- `rl_lt`: it compares the bytes from the highest down to the second. -/
def rlLt (dividend divisor : List UInt8) : Bool :=
  let bytes := ((dividend.drop 1).zip (divisor.drop 1)).reverse
  match (bytes.dropWhile fun p => p.1 = 0 && p.2 = 0).find? fun p => p.1 ≠ p.2 with
  | some p => p.1 ≥ p.2
  | none => false

/-- The arrays of `rl_div` -/
structure Division where
  dividend : List UInt8
  divisor : List UInt8
  quotient : List UInt8
  deriving DecidableEq

/-- `quotient[0] | 0x01` -/
def setLowest : List UInt8 → List UInt8
  | [] => []
  | b :: number => (b ||| 0x01) :: number

/-- The body of the loop of `rl_div` -/
def divPass (post : UInt8 → Option UInt8) (tempdiv : List UInt8) (s : Division) :
    Division ⊕ Option Division :=
  let next := fun s : Division =>
    let s := { s with divisor := rlRight s.divisor }
    if rlLt s.dividend tempdiv then .inl s else .inr (some s)
  if rlLt s.dividend s.divisor then
    match rlSub post s.dividend s.divisor with
    | none => .inr none
    | some dividend => next { s with dividend := dividend, quotient := setLowest (rlLeft s.quotient) }
  else next { s with quotient := rlLeft s.quotient }

/-- `rl_div`, with a bound on the passes of its loops: `none` if it has not ended, `some none` if its
behaviour is undefined -/
def rlDiv (post : UInt8 → Option UInt8) (fuel : Nat) (dividend divisor : List UInt8) :
    Option (Option Division) :=
  match maxBit dividend with
  | none => some none
  | some bit =>
    (loop (alignPass bit) fuel divisor).bind fun aligned =>
      loop (divPass post divisor) fuel ⟨dividend, aligned, List.replicate 8 0⟩

/-! ## Assigning an identifier -/

/-- A string of at most 8 characters -/
structure Name where
  chars : List UInt8
  noNul : 0 ∉ chars
  short : chars.length ≤ 8

/-- A call of `sna_ss_assign_pcid` for a remote LU that is found -/
structure Call where
  net : Name
  name : Name
  pnet : Vector UInt8 8
  pname : Vector UInt8 8
  tvSec : UInt32
  fuel : Nat

/-- A name in EBCDIC, filled up with blanks; `stack` is the array before. -/
def padded (stack : Vector UInt8 8) (name : Name) : List UInt8 :=
  (atoeStrncpy name.chars.length stack.toList name.chars).take name.chars.length ++
    List.replicate (8 - name.chars.length) 0x40

/-- The dividend of both hashes -/
def dividend (c : Call) : List UInt8 :=
  let fname := (padded c.pname c.name).reverse
  let fnet := (etorStrncpy 8 (padded c.pnet c.net)).reverse
  List.zipWith (· ^^^ ·) fname fnet

def prime1 : List UInt8 := [0xC7, 0xFF, 0xFF, 0x0F, 0x00, 0x00, 0x00, 0x00]

def prime2 : List UInt8 := [0x1F, 0x88, 0x53, 0x7E, 0x00, 0x00, 0x00, 0x00]

/-- The first 4 bytes of what a division leaves in the dividend; `none` if it does not end or if its
behaviour is undefined -/
def remainder (post : UInt8 → Option UInt8) (c : Call) (prime : List UInt8) : Option UInt32 :=
  match rlDiv post c.fuel (dividend c) prime with
  | some (some s) => some (.ofNat (value (s.dividend.take 4)))
  | _ => none

/-- `set_bit` -/
def setBit (nr : UInt32) (x : UInt32) : UInt32 := x ||| 1 <<< nr

/-- The hash of the name in `hash1` -/
def nameHash1 (h : UInt32) : UInt32 :=
  let low := h.toUInt16.toUInt32
  let scratch1 := (h ^^^ low) <<< 2
  setBit 31 (setBit 30 (setBit 17 (setBit 16 scratch1))) ||| low

/-- The two hashes of `sna_ss_generate_pcid`, before the counter and the clock are added -/
def nameHashes (post : UInt8 → Option UInt8) (c : Call) : Option (UInt32 × UInt32) := do
  let hash1 ← remainder post c prime1
  let hash2 ← remainder post c prime2
  return (nameHash1 hash1, hash2)

/-- `sna_ss_generate_pcid`, with `sna_pc_system_id` -/
def generatePcid (post : UInt8 → Option UInt8) (systemId : UInt32) (c : Call) :
    Option (UInt32 × UInt32) :=
  (nameHashes post c).map fun h => (h.1 + htonl systemId, h.2 + c.tvSec)

/-- A number as it is in memory, on a little-endian host -/
def image (x : UInt32) : List UInt8 :=
  [x.toUInt8, (x >>> 8).toUInt8, (x >>> 16).toUInt8, (x >>> 24).toUInt8]

/-- `sna_ss_update_pcid` -/
def updatePcid (hash1 hash2 : UInt32) : List UInt8 :=
  image (htonl hash1) ++ image (htonl (hash2 + 1))

/-- The counter, and the identifiers that have been assigned -/
structure Pcids where
  systemId : UInt32 := 1
  assigned : List (List UInt8) := []
  deriving DecidableEq

/-- `sna_ss_assign_pcid`, a successful call -/
def assignPcid (post : UInt8 → Option UInt8) (s : Pcids) (c : Call) : Option Pcids :=
  (generatePcid post s.systemId c).map fun h =>
    { systemId := s.systemId + 1, assigned := s.assigned ++ [updatePcid h.1 h.2] }

end LinuxSna.Ss
