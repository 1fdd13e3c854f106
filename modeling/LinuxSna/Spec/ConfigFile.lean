import LinuxSna.Impl.TnX.Config

/-!
# Configuration files

What a configuration text means, without the loops that read it. A `Text` is a tree: a section
stands with what is in it. Between the parts of a line there may be blanks, and a line that ends a
section may carry a comment.

* `Text.lines`: how it is written; `IsFile` says what file that is;
* `Text.assigned`: the values in the order in which they are given, each under its path;
* `Text.value`: the value that a path is given last;
* `Promoted`: what it is to copy the variables under a prefix to the names without it, said of the store
  before and the store after, and `Unmixed`: the stores for which it can be done in one walk over them.

Then what an entry `a.b.c.d/n` of a list of addresses says of a client: that its address agrees with
`a.b.c.d` on the first `n` bits.
-/

namespace LinuxSna.TnX

namespace ConfigFile

open Framework

/-! ## Parts of lines -/

/-- Blanks in a line -/
structure Blanks where
  text : List UInt8
  blank : ∀ b ∈ text, isspace b = true ∧ b ≠ newline

/-- What stands behind `#` -/
structure Comment where
  text : List UInt8
  plain : 0 ∉ text ∧ newline ∉ text

/-- A name that ends before a blank or one of some characters. The characters that have a meaning of
their own in front of a line do not begin a name. -/
structure Name (ends : List UInt8) where
  text : List UInt8
  ne_nil : text ≠ []
  plain : ∀ b ∈ text, isspace b = false ∧ b ≠ 0 ∧ b ∉ ends
  head : ∀ b ∈ text.head?, b ∉ [hash, plus, minus, closeBracket, closeBrace]

/-- The name of a variable -/
abbrev Key := Name [equalSign]

/-- The name of a section -/
abbrev Section := Name [equalSign, openBrace]

/-- A value, without the blanks around it. A bracket begins a list. -/
structure Value where
  text : List UInt8
  plain : 0 ∉ text ∧ newline ∉ text
  head : ∀ b ∈ text.head?, isspace b = false ∧ b ≠ openBracket
  last : ∀ b ∈ text.getLast?, isspace b = false

/-! ## Lines -/

/-- `key = value` -/
structure Assignment where
  pad : Blanks
  key : Key
  before : Blanks
  after : Blanks
  value : Value
  trail : Blanks

/-- `name {` -/
structure Opening where
  pad : Blanks
  name : Section
  gap : Blanks
  trail : Blanks

/-- `}` -/
structure Closing where
  pad : Blanks
  gap : Blanks
  comment : Option Comment

def Comment.behind : Option Comment → List UInt8
  | none => []
  | some c => hash :: c.text

inductive Line where
  | blank (pad : Blanks)
  | comment (pad : Blanks) (c : Comment)
  | assign (a : Assignment)
  | opening (o : Opening)
  | closing (e : Closing)

def Line.text : Line → List UInt8
  | .blank pad => pad.text
  | .comment pad c => pad.text ++ hash :: c.text
  | .assign a =>
    a.pad.text ++ (a.key.text ++ (a.before.text ++ equalSign :: (a.after.text ++ (a.value.text ++ a.trail.text))))
  | .opening o => o.pad.text ++ (o.name.text ++ (o.gap.text ++ openBrace :: o.trail.text))
  | .closing e => e.pad.text ++ closeBrace :: (e.gap.text ++ Comment.behind e.comment)

/-! ## Texts -/

inductive Text where
  | nil
  | blank (pad : Blanks) (rest : Text)
  | comment (pad : Blanks) (c : Comment) (rest : Text)
  | assign (a : Assignment) (rest : Text)
  | within (o : Opening) (body : Text) (e : Closing) (rest : Text)

namespace Text

def lines : Text → List Line
  | nil => []
  | blank pad rest => .blank pad :: rest.lines
  | comment pad c rest => .comment pad c :: rest.lines
  | assign a rest => .assign a :: rest.lines
  | within o body e rest => .opening o :: (body.lines ++ .closing e :: rest.lines)

/-- How deep the sections lie in one another. -/
def depth : Text → Nat
  | nil => 0
  | blank _ rest | comment _ _ rest | assign _ rest => rest.depth
  | within _ body _ rest => max (body.depth + 1) rest.depth

/-- The values given in the text where it stands in some sections -/
def assigned (sections : List (List UInt8)) : Text → List (List UInt8 × List UInt8)
  | nil => []
  | blank _ rest | comment _ _ rest => rest.assigned sections
  | assign a rest => (prefixed sections a.key.text, a.value.text) :: rest.assigned sections
  | within o body _ rest => body.assigned (sections ++ [o.name.text]) ++ rest.assigned sections

/-- The value that is given last under a path -/
def value (t : Text) (path : List UInt8) : Option (List UInt8) :=
  (find Prod.fst path (t.assigned []).reverse).map Prod.snd

end Text

/-! ## Files -/

/-- The file consists of the lines. Behind the last one there may be no newline. -/
def IsFile (lines : List (List UInt8)) (file : List UInt8) : Prop :=
  file = lines.flatMap (· ++ [newline]) ∨
    lines.getLast? ≠ some [] ∧ file ++ [newline] = lines.flatMap (· ++ [newline])

end ConfigFile

/-! ## Promoted variables -/

/-- The name under the prefix -/
def under (pre name : List UInt8) : List UInt8 := pre ++ dot :: name

/-- A store of strings, each under a name of its own -/
structure StringStore (c : Config) : Prop where
  nodup : (c.map ConfigStr.name).Nodup
  string : ∀ s ∈ c, ∃ v, s.value = .string v

/-- The values under the prefix are those of the names without it, and the others are as they were. -/
structure Promoted (pre : List UInt8) (c c' : Config) : Prop where
  lifted : ∀ name value, configGet c (under pre name) = some value → configGet c' name = some value
  kept : ∀ name, configGet c (under pre name) = none → configGet c' name = configGet c name

/-- The variable with one name stands in front of that with the other. -/
def Ahead (c : Config) (a b : List UInt8) : Prop :=
  (c.map ConfigStr.name).idxOf a < (c.map ConfigStr.name).idxOf b

/-- A variable that has the prefix twice does no harm: the name with it once is visited before it or
has the same value, or there is no such name and the value is that of the name without the prefix. -/
def Unmixed (pre : List UInt8) (c : Config) : Prop :=
  ∀ name value, configGet c (under pre (under pre name)) = some value →
    match configGet c (under pre name) with
    | some old => Ahead c (under pre name) (under pre (under pre name)) ∨ old = value
    | none => configGet c name = some value

/-! ## Addresses -/

/-- A number in decimal -/
def decimal (n : Nat) : List UInt8 :=
  if n = 0 then [48] else (Nat.digits 10 n).reverse.map fun d => UInt8.ofNat (48 + d)

/-- An entry `a.b.c.d/n` -/
structure Listed where
  a : UInt8
  b : UInt8
  c : UInt8
  d : UInt8
  n : Nat
  le : n ≤ 32

def Listed.quad (e : Listed) : List UInt8 :=
  decimal e.a.toNat ++ dot :: (decimal e.b.toNat ++ dot :: (decimal e.c.toNat ++ dot ::
    decimal e.d.toNat))

def Listed.text (e : Listed) : List UInt8 := e.quad ++ slash :: decimal e.n

def Listed.address (e : Listed) : BitVec 32 :=
  BitVec.ofNat 32 (((e.a.toNat * 256 + e.b.toNat) * 256 + e.c.toNat) * 256 + e.d.toNat)

/-- The first `n` bits are those of the address listed. -/
def Listed.Agrees (e : Listed) (client : BitVec 32) : Prop :=
  ∀ i < e.n, client.getMsbD i = e.address.getMsbD i

/-- A client as `sin_addr.s_addr` gives it, in an `unsigned long` -/
def clientWord (m : Machine) (client : BitVec 32) : BitVec m.longBits :=
  (htonl m client).setWidth m.longBits

def loopback : BitVec 32 := 0x7F000001

/-- No entry has `n = 0`, or there is one that decides about the client whatever such entries do. -/
def Decided (entries : List Listed) (client : BitVec 32) : Prop :=
  (∃ e ∈ entries, e.n = 0) →
    ∃ e ∈ entries, if e.n = 0 then client = e.address else e.Agrees client

end LinuxSna.TnX
