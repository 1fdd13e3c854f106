import LinuxSna.Framework.Loop
import LinuxSna.Framework.Table
import LinuxSna.Framework.Words

/-!
# The configuration of libtnX

`tnX_conf.c`: a list of named values, and `tnX_config_load`, which reads them from a file. All
calls of `fgets` there ask for the same number of characters, so what they give one after the other
is known from the contents of the file (`fgetsAll`). A buffer is given as the string in it.

What `strlen` and `strcpy` find at the address of a list that is not empty is a parameter (`cell`);
a list that is empty is the null pointer.

Then the address filter of `libtnX.c`: `tnX_build_addr_list` and `tnX_valid_client`, with what they ask
of the C library. That a text is cut at its slash is not seen by the functions here. A shift of a 32-bit
value is by its count modulo 32. How long a `long` is and in which order a word is stored are those of a
`Machine`.
-/

namespace LinuxSna.TnX

open Framework

/-! ## Characters -/

def newline : UInt8 := 10
def hash : UInt8 := 35
def plus : UInt8 := 43
def minus : UInt8 := 45
def dot : UInt8 := 46
def equalSign : UInt8 := 61
def openBracket : UInt8 := 91
def closeBracket : UInt8 := 93
def openBrace : UInt8 := 123
def closeBrace : UInt8 := 125

def isspace (b : UInt8) : Bool := b = 32 ∨ (9 ≤ b ∧ b ≤ 13)

/-- `while (*scan && isspace (*scan)) scan++;` -/
def skipSpace (scan : List UInt8) : List UInt8 := scan.dropWhile isspace

/-- `while (len > 0 && isspace (scan[len])) scan[len--] = '\0';`, which leaves the first character. -/
def trimEnd : List UInt8 → List UInt8
  | [] => []
  | b :: scan => b :: scan.rdropWhile isspace

/-! ## Variables -/

/-- The values of `CONFIG_STRING` and `CONFIG_LIST` -/
inductive ConfigValue where
  | string (value : List UInt8)
  | list (items : List (List UInt8))
  deriving DecidableEq

/-- `tnXconfig_str` -/
structure ConfigStr where
  name : List UInt8
  value : ConfigValue
  deriving DecidableEq

/-- `vars` of `tnXconfig` -/
abbrev Config := List ConfigStr

/-- `tnX_config_get_str` -/
def configGetStr (c : Config) (name : List UInt8) : Option ConfigStr := find ConfigStr.name name c

/-- `tnX_config_get` -/
def configGet (c : Config) (name : List UInt8) : Option ConfigValue :=
  (configGetStr c name).map ConfigStr.value

/-- `tnX_config_set`. Over a string the value is copied as a string, whatever its type; `none` is
where the null pointer is read for that. -/
def configSet (cell : List (List UInt8) → List UInt8) (c : Config) (name : List UInt8)
    (value : ConfigValue) : Option Config :=
  match configGet c name with
  | some (.string _) =>
    match value with
    | .string s => some (update ConfigStr.name name (fun _ => ⟨name, .string s⟩) c)
    | .list [] => none
    | .list (i :: is) => some (update ConfigStr.name name (fun _ => ⟨name, .string (cell (i :: is))⟩) c)
  | _ => some (c ++ [⟨name, value⟩])

/-! ## Lines -/

/-- What `fgets (buf, 127, f)` gives call by call: up to 126 characters and no more than a line,
after the characters `line`. -/
def fgetsFrom (line : List UInt8) : List UInt8 → List (List UInt8)
  | [] => if line = [] then [] else [line]
  | b :: file =>
    if b = newline ∨ line.length = 125 then (line ++ [b]) :: fgetsFrom [] file
    else fgetsFrom (line ++ [b]) file

def fgetsAll (file : List UInt8) : List (List UInt8) := fgetsFrom [] file

/-- The string in the buffer when its newline is overwritten -/
def bufString (buf : List UInt8) : List UInt8 := buf.takeWhile fun b => b ≠ 0 ∧ b ≠ newline

/-- The branches of the loop of `tnX_config_load`, with what they take from the line -/
inductive ConfigLine where
  | skip
  | flag (name value : List UInt8)
  | item (name value : List UInt8)
  | openList (name : List UInt8)
  | push (name : List UInt8)
  | pop
  | error

/-- The name in front of the character `c` -/
def lineName (c : UInt8) (scan : List UInt8) : List UInt8 :=
  scan.takeWhile fun b => !isspace b && b != c

/-- A line with `=`, after its name -/
def itemLine (name after : List UInt8) : ConfigLine :=
  match skipSpace after with
  | [] => .error
  | b :: scan =>
    if b = equalSign then
      let scan := skipSpace scan
      if scan.head? = some openBracket then .openList name else .item name (trimEnd scan)
    else .error

/-- The branch that is taken for a line: the characters are looked for in the whole line, `=` before
`{` and that before `}`. -/
def configLine (buf : List UInt8) : ConfigLine :=
  match skipSpace buf with
  | [] => .skip
  | b :: scan =>
    if b = hash then .skip
    else if b = plus then .flag (trimEnd (skipSpace scan)) [49]
    else if b = minus then .flag (trimEnd (skipSpace scan)) [48]
    else if equalSign ∈ b :: scan then
      let name := lineName equalSign (b :: scan)
      if name = [] then .error else itemLine name ((b :: scan).drop name.length)
    else if openBrace ∈ b :: scan then
      let name := lineName openBrace (b :: scan)
      if name = [] then .error else .push name
    else if b = closeBrace then
      let scan := skipSpace scan
      if scan = [] ∨ scan.head? = some hash then .pop else .error
    else .error

/-- The line ends a list. -/
def closesList (buf : List UInt8) : Prop := (skipSpace buf).head? = some closeBracket

instance (buf : List UInt8) : Decidable (closesList buf) := by
  unfold closesList
  infer_instance

/-! ## Loading -/

def maxPrefixStack : Nat := 50

/-- The names of the sections, outermost first, and a name, with dots between them -/
def prefixed (prefixStack : List (List UInt8)) (name : List UInt8) : List UInt8 :=
  prefixStack.flatMap (· ++ [dot]) ++ name

/-- `tnX_config_load` in its loop: what `fgets` will still give, and in the loop for a list its name
and its items so far -/
structure Loader where
  unread : List (List UInt8)
  buf : List UInt8
  config : Config
  prefixStack : List (List UInt8)
  list : Option (List UInt8 × List (List UInt8))
  deriving DecidableEq

/-- How `tnX_config_load` ends: it returns, `tnX_assert` aborts, or the null pointer is read. -/
inductive LoadEnd where
  | returned (result : Int) (config : Config)
  | aborted
  | faulted
  deriving DecidableEq

section

variable (cell : List (List UInt8) → List UInt8)

/-- `tnX_config_set` from the loop -/
def Loader.set (s : Loader) (name : List UInt8) (value : ConfigValue) : Loader ⊕ LoadEnd :=
  match configSet cell s.config name value with
  | some c => .inl { s with config := c }
  | none => .inr .faulted

/-- The loop for a list: whether `fgets` gave a line is not looked at. -/
def listPass (s : Loader) (name : List UInt8) (items : List (List UInt8)) : Loader ⊕ LoadEnd :=
  let buf := (s.unread.head?.map bufString).getD s.buf
  let s := { s with unread := s.unread.tail, buf := buf }
  if closesList buf then { s with list := none }.set cell name (.list items)
  else .inl { s with list := some (name, items ++ [skipSpace buf]) }

/-- A line in the outer loop -/
def linePass (s : Loader) : Loader ⊕ LoadEnd :=
  match configLine s.buf with
  | .skip => .inl s
  | .flag name value => s.set cell name (.string value)
  | .item name value => s.set cell (prefixed s.prefixStack name) (.string value)
  | .openList name => .inl { s with list := some (prefixed s.prefixStack name, []) }
  | .push name =>
    if s.prefixStack.length < maxPrefixStack then .inl { s with prefixStack := s.prefixStack ++ [name] }
    else .inr .aborted
  | .pop =>
    if s.prefixStack ≠ [] then .inl { s with prefixStack := s.prefixStack.dropLast }
    else .inr .aborted
  | .error => .inr (.returned (-1) s.config)

/-- A call of `fgets` and what is done with the line -/
def configPass (s : Loader) : Loader ⊕ LoadEnd :=
  match s.list with
  | some (name, items) => listPass cell s name items
  | none =>
    match s.unread with
    | [] => .inr (.returned (if s.prefixStack ≠ [] then -1 else 0) s.config)
    | line :: unread => linePass cell { s with unread := unread, buf := bufString line }

/-- `tnX_config_load` of a file that is there, on entry -/
def Loader.start (file : List UInt8) (c : Config) : Loader := ⟨fgetsAll file, [], c, [], none⟩

/-- `tnX_config_load` after at most so many calls of `fgets`. `fopen` gives the contents of the file,
or says whether `errno` is `ENOENT`. -/
def configLoad (fopen : Except Bool (List UInt8)) (c : Config) (n : Nat) : Option LoadEnd :=
  match fopen with
  | .error enoent => some (.returned (if enoent then 0 else -1) c)
  | .ok file => loop (configPass cell) n (.start file c)

/-! ## Promotion -/

/-- What stands behind the prefix and a dot in a name. The length is compared first, with 2 on the
wrong side, so that `memcmp` may be asked for characters behind the end of the name. -/
def behindPrefix (pre name : List UInt8) : Option (List UInt8) :=
  if pre.length ≤ name.length + 2 ∧ name.take pre.length = pre ∧ name[pre.length]? = some dot then
    some (name.drop (pre.length + 1))
  else none

/-- A pass of the loop of `tnX_config_promote`: `iter` counts the variables in front of it in the
list, which `tnX_config_set` changes. -/
def promotePass (pre : List UInt8) : Config × Nat → (Config × Nat) ⊕ Option Config
  | (vars, iter) =>
    match vars[iter]? with
    | none => .inr (some vars)
    | some data =>
      match behindPrefix pre data.name with
      | none => .inl (vars, iter + 1)
      | some name =>
        match configSet cell vars name data.value with
        | some vars => .inl (vars, iter + 1)
        | none => .inr none

/-- `tnX_config_promote` after at most so many passes; `some none` is where the null pointer is
read. -/
def configPromote (c : Config) (pre : List UInt8) (n : Nat) : Option (Option Config) :=
  loop (promotePass cell pre) n (c, 0)

end

/-! ## Addresses of clients -/

structure Machine where
  longBits : Nat
  le_longBits : 32 ≤ longBits
  bigEndian : Bool

/-! ## Numbers in C -/

def slash : UInt8 := 47

/-- The value of a digit; other characters are no digit in any base. -/
def digitValue (b : UInt8) : Nat :=
  if 48 ≤ b ∧ b ≤ 57 then b.toNat - 48
  else if 97 ≤ b ∧ b ≤ 122 then b.toNat - 87
  else if 65 ≤ b ∧ b ≤ 90 then b.toNat - 55
  else 36

def isHexMark (b : UInt8) : Bool := b = 120 ∨ b = 88

/-- The base of a number and its digits: `0x` counts in front of a digit only. -/
def numberBase : List UInt8 → Nat × List UInt8
  | 48 :: x :: b :: s =>
    if isHexMark x ∧ digitValue b < 16 then (16, b :: s) else (8, 48 :: x :: b :: s)
  | 48 :: s => (8, 48 :: s)
  | s => (10, s)

/-- The number in front of a text, in the base that it asks for, and what is behind it -/
def scanNumber (s : List UInt8) : Nat × List UInt8 :=
  let r := numberBase s
  (((r.2.takeWhile fun b => digitValue b < r.1).map digitValue).foldl (fun n d => n * r.1 + d) 0,
    r.2.dropWhile fun b => digitValue b < r.1)

/-- `strtol` in base 0, with what `tail` is set to -/
def strtol (m : Machine) (s : List UInt8) : Int × List UInt8 :=
  let scan := skipSpace s
  let negative := scan.head? = some minus
  let digits := if scan.head? = some minus ∨ scan.head? = some plus then scan.tail else scan
  let r := scanNumber digits
  if r.2 = digits then (0, s)
  else if negative then (max (-r.1) (-2 ^ (m.longBits - 1)), r.2)
  else (min r.1 (2 ^ (m.longBits - 1) - 1), r.2)

/-! ## Addresses -/

def htonl (m : Machine) (v : BitVec 32) : BitVec 32 := if m.bigEndian then v else byteSwap v

def isdigit (b : UInt8) : Bool := 48 ≤ b ∧ b ≤ 57

/-- The numbers of an address: so many more may be followed by a dot, and what they make up so far is
`word`. The last number fills the bytes that are left. -/
def addressNumbers (more : Nat) (word : Nat) (cp : List UInt8) : Option Nat :=
  if (cp.head?.map isdigit).getD false then
    let (val, cp) := scanNumber cp
    match cp, more with
    | [], _ => if val < 256 ^ (more + 1) then some (word * 256 ^ (more + 1) + val) else none
    | b :: _, 0 => if isspace b ∧ val < 256 then some (word * 256 + val) else none
    | b :: cp, more + 1 =>
      if b = dot then if val < 256 then addressNumbers more (word * 256 + val) cp else none
      else if isspace b ∧ val < 256 ^ (more + 2) then some (word * 256 ^ (more + 2) + val)
      else none
  else none

/-- `inet_aton`, with `s_addr` where it does not return 0 -/
def inetAton (m : Machine) (cp : List UInt8) : Option (BitVec 32) :=
  (addressNumbers 3 0 cp).map fun n => htonl m (BitVec.ofNat 32 n)

/-! ## The list -/

/-- `clientaddr` -/
structure ClientAddr (m : Machine) where
  address : BitVec m.longBits
  mask : BitVec m.longBits

/-- `0xFFFFFFFF << count` -/
def shiftedOnes (count : Nat) : BitVec 32 := BitVec.allOnes 32 <<< (count % 32)

/-- A pass of the loop of `tnX_build_addr_list`; `none` is `error_out`. -/
def buildAddr (m : Machine) (data : List UInt8) : Option (ClientAddr m) :=
  if slash ∈ data then
    match inetAton m (data.takeWhile (· ≠ slash)) with
    | none => none
    | some tempaddr =>
      let (mask, tail) := strtol m (data.dropWhile (· ≠ slash)).tail
      if tail = [] then
        let mask := htonl m (shiftedOnes (32 - BitVec.ofInt m.longBits mask).toNat)
        some ⟨tempaddr.setWidth m.longBits, mask.setWidth m.longBits⟩
      else none
  else none

/-- `tnX_build_addr_list`: no list at all stands for the host itself, and an error leaves no list. -/
def buildAddrList (m : Machine) (addrlist : List (List UInt8)) : List (ClientAddr m) :=
  if addrlist = [] then
    [⟨(htonl m 0x7F000001).setWidth m.longBits, (BitVec.allOnes 32).setWidth m.longBits⟩]
  else (addrlist.mapM (buildAddr m)).getD []

/-- `tnX_valid_client` -/
def validClient {m : Machine} (addrlist : List (ClientAddr m)) (client : BitVec m.longBits) : Int :=
  if addrlist.any fun data => data.address &&& data.mask = client &&& data.mask then 1 else 0

end LinuxSna.TnX
