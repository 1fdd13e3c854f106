import LinuxSna.Framework.Slots

/-!
# The words of a configuration

The tree that libxml makes of a configuration file, and `sna_xwords.c`: what is read from
an element's text. A character buffer is given as the string in it. `none` is where the
behaviour is undefined: the null pointer of an element without text is read, a string does
not fit the array that it is copied to, or a word map that has no last entry is left.

Comments in the file are left out.

Then what `sna_utility.c` has for printing what `sna_char_to_netid` and `sna_char_to_nodeid` read. The
kernel has the same functions, except that its `sna_pr_netid` allocates the text. The loops of
`sna_pr_netid` look for a blank and for nothing else, so they run over the structure as it lies in
memory; `none` is also where they leave it.
-/

namespace LinuxSna.Snaconfig

open Framework

abbrev XmlStr := List Char

/-- `xmlNs`. Namespaces are compared by the place of their declaration. -/
structure Ns where
  decl : Nat
  href : XmlStr
  deriving DecidableEq

/-- `xmlNode` -/
inductive Node where
  | text (content : XmlStr)
  | element (name : XmlStr) (ns : Option Ns) (children : List Node)

namespace Node

def name : Node → XmlStr
  | text _ => "text".toList
  | element name _ _ => name

def ns : Node → Option Ns
  | text _ => none
  | element _ ns _ => ns

/-- `xmlChildrenNode` -/
def children : Node → List Node
  | text _ => []
  | element _ _ children => children

/-- The content of a text -/
def content? : Node → Option XmlStr
  | text content => some content
  | element _ _ _ => none

end Node

/-- `xmlNodeListGetString` of an element's children -/
def nodeListGetString (cur : Node) : Option XmlStr :=
  match cur.children.filterMap Node.content? with
  | [] => none
  | texts => some texts.flatten

/-- `matches`: the first string starts the second. -/
def nameMatches (cmd pattern : XmlStr) : Bool := cmd.isPrefixOf pattern

/-! ## Numbers -/

/-- `LONG_MAX`, no smaller than C asks for -/
structure Long where
  max : Nat
  le_max : 2147483647 ≤ max

def isSpace (c : Char) : Bool := c = ' ' ∨ ('\t' ≤ c ∧ c ≤ '\r')

/-- The value of a digit; other characters are no digit in any base. -/
def digitVal (c : Char) : Nat :=
  if '0' ≤ c ∧ c ≤ '9' then c.toNat - 48
  else if 'a' ≤ c ∧ c ≤ 'z' then c.toNat - 87
  else if 'A' ≤ c ∧ c ≤ 'Z' then c.toNat - 55
  else 36

/-- The base of a number and its digits -/
def radix (base : Nat) (s : XmlStr) : Nat × XmlStr :=
  if base = 0 ∨ base = 16 then
    if s.take 2 = ['0', 'x'] ∨ s.take 2 = ['0', 'X'] then (16, s.drop 2)
    else if base = 16 then (16, s)
    else if s.head? = some '0' then (8, s)
    else (10, s)
  else (base, s)

/-- The number that the digits at the start of `s` make -/
def digits (base : Nat) (s : XmlStr) : Nat :=
  ((s.map digitVal).takeWhile (· < base)).foldl (fun n d => n * base + d) 0

def strtol (long : Long) (s : XmlStr) (base : Nat) : Int :=
  let s := s.dropWhile isSpace
  let negative := s.head? = some '-'
  let s := if s.head? = some '-' ∨ s.head? = some '+' then s.drop 1 else s
  let r := radix base s
  let n := digits r.1 r.2
  if negative then -(min n (long.max + 1) : Nat) else (min n long.max : Nat)

/-- `atoi`, the `int` of what `strtol` gives -/
def atoi (long : Long) (s : XmlStr) : Int := (strtol long s 10).bmod 4294967296

/-! ## Conversions to the types of C -/

/-- To `unsigned char` -/
def uchar (n : Int) : Nat := (n % 256).toNat

/-- To `unsigned short` -/
def ushort (n : Int) : Nat := (n % 65536).toNat

/-- To `u_int32_t` -/
def u32 (n : Int) : Nat := (n % 4294967296).toNat

/-- To `unsigned long` -/
def ulong (long : Long) (n : Int) : Nat := (n % (2 * (long.max + 1) : Nat)).toNat

/-! ## Word maps -/

/-- `struct wordmap` arrays: their words, and whether the null word stands at their end -/
structure WordMap where
  words : List (XmlStr × Int)
  ended : Bool

def lenEndNode : Int := 1
def appnEndNode : Int := 2
def appnNetNode : Int := 3

def lsRoleSec : Int := 0
def lsRolePri : Int := 1
def lsRoleNeg : Int := 3

def lsDirBoth : Int := 0
def lsDirIn : Int := 1
def lsDirOut : Int := 2

def onTypes : WordMap := ⟨[("off".toList, 0), ("on".toList, 1)], true⟩

def securityTypes : WordMap := ⟨[("none".toList, 0)], false⟩

def luTypes : WordMap := ⟨[("local".toList, 0), ("remote".toList, 1)], false⟩

def txTypes : WordMap :=
  ⟨[("low".toList, 0), ("medium".toList, 1), ("high".toList, 2), ("network".toList, 3)], true⟩

def nodeTypes : WordMap :=
  ⟨[("nn".toList, appnNetNode), ("appn".toList, appnEndNode),
    ("len".toList, lenEndNode)], false⟩

def roleTypes : WordMap :=
  ⟨[("neg".toList, lsRoleNeg), ("pri".toList, lsRolePri),
    ("sec".toList, lsRoleSec)], false⟩

def directionTypes : WordMap :=
  ⟨[("in".toList, lsDirIn), ("out".toList, lsDirOut),
    ("both".toList, lsDirBoth)], false⟩

/-- `map_word` -/
def mapWord (wm : WordMap) (word : XmlStr) : Option Int :=
  match wm.words.lookup word with
  | some val => some val
  | none => if wm.ended then some (-1) else none

/-- `xword_on_off` and `xword_*_types`: the word of an element in a map -/
def xwordTypes (wm : WordMap) (cur : Node) : Option Int := (nodeListGetString cur).bind (mapWord wm)

/-! ## Texts -/

def xwordInt (long : Long) (cur : Node) : Option Int := (nodeListGetString cur).map (atoi long)

abbrev useNameLen : Nat := 40
abbrev networkNameLen : Nat := 9
abbrev resourceNameLen : Nat := 9

/-- `strcpy` to an array of `size` characters -/
def strcpy (size : Nat) (from' : XmlStr) : Option XmlStr :=
  if from'.length < size then some from' else none

def xwordStrcpy (size : Nat) (cur : Node) : Option XmlStr :=
  (nodeListGetString cur).bind (strcpy size)

def xwordStrcpyToupper (size : Nat) (cur : Node) : Option XmlStr :=
  (xwordStrcpy size cur).map (List.map Char.toUpper)

def xwordLsap (long : Long) (cur : Node) : Option Nat :=
  (nodeListGetString cur).map fun s => uchar (strtol long s 0)

/-- `sna_netid` -/
structure Netid where
  net : XmlStr
  name : XmlStr
  deriving DecidableEq

/-- A name in upper case, with blanks up to eight characters -/
def netidName (s : XmlStr) : XmlStr := s.map Char.toUpper ++ List.replicate (8 - s.length) ' '

/-- `sna_char_to_netid`: the name is what follows the first dot, the network is the first token
between dots. -/
def charToNetid (b : XmlStr) : Option Netid := do
  let c ← strcpy 40 b
  if '.' ∉ c then none
  let name ← strcpy resourceNameLen ((c.dropWhile (· ≠ '.')).drop 1)
  let token := (c.dropWhile (· = '.')).takeWhile (· ≠ '.')
  if token = [] then none
  let net ← strcpy networkNameLen token
  some ⟨netidName net, netidName name⟩

def xwordNetid (cur : Node) : Option Netid := (nodeListGetString cur).bind charToNetid

/-- `sna_char_to_nodeid`, as it is kept in a `sna_nodeid` -/
def charToNodeid (long : Long) (c : XmlStr) : Option Nat :=
  (strcpy 40 c).map fun d => u32 (strtol long d 16)

def xwordNodeid (long : Long) (cur : Node) : Option Nat :=
  (nodeListGetString cur).bind (charToNodeid long)

/-- The value of a hexadecimal digit -/
def hexVal (c : Char) : Option Nat := if digitVal c < 16 then some (digitVal c) else none

/-- A colon after a byte is skipped. -/
def skipColon : XmlStr → XmlStr
  | ':' :: s => s
  | s => s

/-- The bytes that `sna_char_to_ether` writes, up to `n` of them -/
def charToEther : Nat → XmlStr → List Nat
  | 0, _ => []
  | _, [] => []
  | n + 1, c :: s =>
    match hexVal c, s with
    | none, _ => []
    | some high, [] => high :: charToEther n []
    | some high, c :: s =>
      match hexVal c with
      | some low => (high * 16 + low) :: charToEther n (skipColon s)
      | none => if c = ':' then high :: charToEther n (skipColon s) else []

def ethAlen : Nat := 6

def xwordMacAddress (cur : Node) : Option (List Nat) :=
  (nodeListGetString cur).map (charToEther ethAlen)

/-! ## Ranges -/

/-- What `xword_min_max` has read: a number that is not there leaves the one before it. -/
structure MinMax where
  min : Option Int
  max : Option Int

/-- The children of an element that are in the namespace, by name -/
def inNs (ns : Ns) (cur : Node) : List (XmlStr × Node) :=
  (cur.children.filter (·.ns = some ns)).map fun c => (c.name, c)

def minMaxSlots (long : Long) : List (Slot XmlStr Node MinMax) :=
  [⟨"min".toList, Option Int, none, fun cur => (xwordInt long cur).map some,
      fun v r => { r with min := v <|> r.min }⟩,
   ⟨"max".toList, Option Int, none, fun cur => (xwordInt long cur).map some,
      fun v r => { r with max := v <|> r.max }⟩]

def xwordMinMax (long : Long) (ns : Ns) (cur : Node) : Option MinMax :=
  fillIn nameMatches (minMaxSlots long) (inNs ns cur) ⟨none, none⟩

/-- `r` over what was there before -/
def MinMax.over (r before : MinMax) : MinMax := ⟨r.min <|> before.min, r.max <|> before.max⟩

/-- What `xword_cost` has read -/
structure Cost where
  connect : MinMax
  byte : MinMax

def costSlots (long : Long) (ns : Ns) : List (Slot XmlStr Node Cost) :=
  [⟨"connect".toList, MinMax, ⟨none, none⟩, xwordMinMax long ns,
      fun v r => { r with connect := v.over r.connect }⟩,
   ⟨"byte".toList, MinMax, ⟨none, none⟩, xwordMinMax long ns,
      fun v r => { r with byte := v.over r.byte }⟩]

def xwordCost (long : Long) (ns : Ns) (cur : Node) : Option Cost :=
  fillIn nameMatches (costSlots long ns) (inNs ns cur) ⟨⟨none, none⟩, ⟨none, none⟩⟩

/-! ## Printing -/

def nul : Char := Char.ofNat 0

/-- The two arrays of a `sna_netid`, one behind the other, with what `new` has left of its zeros -/
def Netid.chars (n : Netid) : XmlStr := n.net.rightpad 9 nul ++ n.name.rightpad 9 nul

/-- How far `sna_netid_to_char` goes in an array -/
def netidLen (s : XmlStr) : Nat := ((s.take 8).takeWhile (· ≠ ' ')).length

/-- `sna_netid_to_char`, with the string that it leaves in the buffer -/
def netidToChar (n : Netid) : Nat × XmlStr :=
  let i := netidLen (n.chars.take 9)
  let j := netidLen (n.chars.drop 9)
  (i + 1 + j, ((n.chars.take 9).take i ++ '.' :: (n.chars.drop 9).take j).takeWhile (· ≠ nul))

/-- Where the first blank from a place on is -/
def blankFrom (p : XmlStr) (i : Nat) : Option Nat := ((p.drop i).findIdx? (· = ' ')).map (i + ·)

/-- What `%s` prints of the string at a place -/
def stringAt (p : XmlStr) (i : Nat) : XmlStr := (p.drop i).takeWhile (· ≠ nul)

/-- `sna_pr_netid`; without memory, that of the kernel gives an empty string. -/
def prNetid (alloc : Bool) (n : Netid) : Option XmlStr :=
  if !alloc then some []
  else do
    let p := n.chars
    let i ← blankFrom p 0
    let p := p.set i nul
    let j ← blankFrom p 9
    let p := p.set j nul
    strcpy 20 (stringAt p 0 ++ '.' :: stringAt p 9)

/-- A digit of `%X` -/
def hexDigit (d : Nat) : Char := "0123456789ABCDEF".toList.getD d '0'

/-- `%0wX`, of a number that has no more digits -/
def hexDigits : Nat → Nat → XmlStr
  | 0, _ => []
  | w + 1, n => hexDigits w (n / 16) ++ [hexDigit (n % 16)]

def xidGetBlockNum (nodeid : UInt32) : UInt32 := nodeid >>> 20 &&& 0xFFF

def xidGetPuNum (nodeid : UInt32) : UInt32 := nodeid &&& 0xFFFFF

/-- `sna_pr_nodeid` -/
def prNodeid (nodeid : UInt32) : XmlStr :=
  hexDigits 3 (xidGetBlockNum nodeid).toNat ++ '.' :: hexDigits 5 (xidGetPuNum nodeid).toNat

end LinuxSna.Snaconfig
