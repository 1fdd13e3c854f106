import LinuxSna.Impl.Snaconfig.Load

/-!
# Configurations of a node

What a configuration document says, without the functions that read it: the elements that each kind
of section may have and the form in which their values are written (`sectionDocs`), what such a text
stands for, and the define that each section calls for (`defines`).

The numbers that the words for the delay and for the user fields of a link stand for are a parameter
(`Words`).
-/

namespace LinuxSna.Snaconfig.NodeConfig

/-! ## Texts -/

/-- What a word is about -/
inductive Topic where
  | onOff
  | where'
  | priority
  | nodeType
  | role
  | direction
  | security
  | delay
  | user

/-- How a value is written -/
inductive Form where
  /-- Fewer than `size` characters, as they are -/
  | text (size : Nat)
  /-- A name of up to eight characters, in either case -/
  | name
  | number
  | word (topic : Topic)
  /-- A number or a word -/
  | scale (topic : Topic)
  /-- A service access point, `0x04` -/
  | sap
  /-- A network and a name in it, `net.name` -/
  | netName
  /-- Block and physical unit, up to eight hexadecimal digits -/
  | nodeId
  /-- Six bytes, twelve hexadecimal digits -/
  | address

def isDecimal (c : Char) : Bool := '0' ≤ c ∧ c ≤ '9'

def isHex (c : Char) : Bool := isDecimal c || ('a' ≤ c ∧ c ≤ 'f') || ('A' ≤ c ∧ c ≤ 'F')

def isLetter (c : Char) : Bool := 'a' ≤ c ∧ c ≤ 'z'

/-- The number that a text is in a base -/
def inBase (base : Nat) (t : XmlStr) : Nat :=
  Nat.ofDigits base (t.reverse.map fun c => "0123456789abcdef".toList.idxOf c.toLower)

def isNumber (t : XmlStr) : Bool := t ≠ [] ∧ t.all isDecimal ∧ inBase 10 t < 2 ^ 31

def isWord (t : XmlStr) : Bool := t ≠ [] ∧ t.all isLetter

def netPart (t : XmlStr) : XmlStr := t.takeWhile (· ≠ '.')

def namePart (t : XmlStr) : XmlStr := (t.dropWhile (· ≠ '.')).tail

/-- A text is of the form. A word may be any word. -/
def Form.fits : Form → XmlStr → Bool
  | .text size, t => t ≠ [] ∧ t.length < size
  | .name, t => t ≠ [] ∧ t.length ≤ 8
  | .number, t => isNumber t
  | .word _, t => isWord t
  | .scale _, t => isNumber t || isWord t
  | .sap, t => t.take 2 = ['0', 'x'] ∧ t.drop 2 ≠ [] ∧ (t.drop 2).all isHex ∧ inBase 16 (t.drop 2) < 256
  | .netName, t => '.' ∈ t ∧ '.' ∉ namePart t ∧ netPart t ≠ [] ∧ (netPart t).length ≤ 8 ∧
      namePart t ≠ [] ∧ (namePart t).length ≤ 8
  | .nodeId, t => t ≠ [] ∧ t.length ≤ 8 ∧ t.all isHex
  | .address, t => t.length = 12 ∧ t.all isHex

/-! ## Elements -/

/-- What an element holds: a text, the two ends of a range, or the ranges of the costs -/
inductive Content where
  | value (form : Form)
  | range
  | cost

/-- The elements that there may be, by name -/
abbrev Elements (α : Type) := List (XmlStr × α)

def elements {α : Type} (l : List (String × α)) : Elements α := l.map fun e => (e.1.toList, e.2)

/-- A list of elements in the namespace, none twice, each with what it may hold -/
structure Written {α : Type} (ns : Ns) (doc : Elements α) (holds : α → Node → Prop)
    (cs : List Node) : Prop where
  each : ∀ c ∈ cs, c.ns = some ns ∧ ∃ a, doc.lookup c.name = some a ∧ holds a c
  once : (cs.map Node.name).Nodup

instance {α : Type} {ns : Ns} {doc : Elements α} {holds : α → Node → Prop}
    [∀ a c, Decidable (holds a c)] {cs : List Node} : Decidable (Written ns doc holds cs) :=
  decidable_of_iff ((∀ c ∈ cs, c.ns = some ns ∧ ∃ a ∈ doc.lookup c.name, holds a c) ∧
    (cs.map Node.name).Nodup) ⟨fun h => ⟨h.1, h.2⟩, fun h => ⟨h.each, h.once⟩⟩

/-- The text of an element that has nothing else -/
def onlyText (c : Node) : Option XmlStr :=
  match c.children with
  | [.text t] => some t
  | _ => none

theorem onlyText_eq_some {c : Node} {t : XmlStr} : onlyText c = some t ↔ c.children = [.text t] := by
  unfold onlyText
  split
  · simp_all
  · simp_all

/-- The element is a text of the form. -/
def Form.Holds (f : Form) (c : Node) : Prop := ∃ t, c.children = [.text t] ∧ f.fits t = true

instance {f : Form} {c : Node} : Decidable (f.Holds c) :=
  decidable_of_iff (∃ t ∈ onlyText c, f.fits t = true) (by
    simp only [Form.Holds, Option.mem_def, onlyText_eq_some])

def rangeDoc : Elements Form := elements [("min", .number), ("max", .number)]

def IsRange (ns : Ns) (c : Node) : Prop := Written ns rangeDoc Form.Holds c.children

instance {ns : Ns} {c : Node} : Decidable (IsRange ns c) := by
  unfold IsRange
  infer_instance

def costDoc : Elements Unit := elements [("connect", ()), ("byte", ())]

def IsCost (ns : Ns) (c : Node) : Prop :=
  Written ns costDoc (fun _ => IsRange ns) c.children

instance {ns : Ns} {c : Node} : Decidable (IsCost ns c) := by
  unfold IsCost
  infer_instance

def Content.Holds (ns : Ns) : Content → Node → Prop
  | .value f => f.Holds
  | .range => IsRange ns
  | .cost => IsCost ns

instance {ns : Ns} : ∀ (a : Content) (c : Node), Decidable (a.Holds ns c)
  | .value f, c => inferInstanceAs (Decidable (f.Holds c))
  | .range, c => inferInstanceAs (Decidable (IsRange ns c))
  | .cost, c => inferInstanceAs (Decidable (IsCost ns c))

/-! ## Sections -/

def globalDoc : Elements Content := elements
  [("debuglevel", .value (.text 8)), ("node_name", .value .netName),
   ("node_type", .value (.word .nodeType)), ("node_id", .value .nodeId),
   ("max_lus", .value .number), ("lu_seg", .value (.word .onOff)),
   ("bind_seg", .value (.word .onOff))]

def dlcDoc : Elements Content := elements
  [("use_name", .value (.text 40)), ("type", .value (.text 40)), ("iface", .value (.text 9)),
   ("port", .value .sap), ("btu", .value .number), ("mia", .value .number),
   ("moa", .value .number)]

def linkDoc : Elements Content := elements
  [("use_name", .value (.text 40)), ("dlc", .value (.text 40)), ("role", .value (.word .role)),
   ("direction", .value (.word .direction)), ("iface", .value (.text 9)), ("port", .value .sap),
   ("plu_name", .value .netName), ("plu_node_id", .value .nodeId), ("dstaddr", .value .address),
   ("dstport", .value .sap), ("retry_on_fail", .value (.word .onOff)),
   ("retry_times", .value .number), ("byteswap", .value (.word .onOff)),
   ("autoact", .value (.word .onOff)), ("tg_number", .value .number),
   ("cost_per_byte", .value .number), ("cost_per_connect_time", .value .number),
   ("effective_capacity", .value .number), ("propagation_delay", .value (.scale .delay)),
   ("security", .value (.word .security)), ("user1", .value (.scale .user)),
   ("user2", .value (.scale .user)), ("user3", .value (.scale .user))]

def luDoc : Elements Content := elements
  [("use_name", .value (.text 40)), ("where", .value (.word .where')), ("name", .value .name),
   ("syncpoint", .value (.word .onOff)), ("lu_sess_limit", .value .number),
   ("plu_name", .value .netName), ("fqcp_name", .value .netName)]

def cosDoc : Elements Content := elements
  [("name", .value .name), ("weight", .value .number), ("tx_priority", .value (.word .priority)),
   ("default_cos_invalid", .value (.word .onOff)), ("default_cos_null", .value (.word .onOff)),
   ("cost", .cost), ("security", .range), ("propagation_delay", .range),
   ("effective_capacity", .range), ("route_resistance", .range), ("node_congested", .range),
   ("user1", .range), ("user2", .range), ("user3", .range)]

def modeDoc : Elements Content := elements
  [("name", .value .name), ("cos_name", .value .name), ("plu_name", .value .netName),
   ("encryption", .value (.word .onOff)), ("tx_pacing", .value .number),
   ("rx_pacing", .value .number), ("max_tx_ru", .value .number), ("max_rx_ru", .value .number),
   ("min_conwinners", .value .number), ("min_conlosers", .value .number),
   ("max_sessions", .value .number), ("auto_activation", .value (.word .onOff))]

def cpicDoc : Elements Content := elements
  [("sym_dest_name", .value .name), ("mode_name", .value .name), ("plu_name", .value .netName),
   ("tp_name", .value (.text 65))]

/-- The kinds of sections, with their elements -/
def sectionDocs : Elements (Elements Content) := elements
  [("global", globalDoc), ("dlc", dlcDoc), ("link", linkDoc), ("lu", luDoc), ("cos", cosDoc),
   ("mode", modeDoc), ("cpic", cpicDoc)]

/-- The sections of a configuration, in any order, and no more than one of them global -/
structure AreSections (ns : Ns) (sections : List Node) : Prop where
  each : ∀ s ∈ sections, s.ns = some ns ∧ ∃ doc, sectionDocs.lookup s.name = some doc ∧
    Written ns doc (Content.Holds ns) s.children
  global_le : (sections.filter (·.name = "global".toList)).length ≤ 1

instance {ns : Ns} {sections : List Node} : Decidable (AreSections ns sections) :=
  decidable_of_iff ((∀ s ∈ sections, s.ns = some ns ∧ ∃ doc ∈ sectionDocs.lookup s.name,
      Written ns doc (Content.Holds ns) s.children) ∧
    (sections.filter (·.name = "global".toList)).length ≤ 1)
    ⟨fun h => ⟨h.1, h.2⟩, fun h => ⟨h.each, h.global_le⟩⟩

/-- The document has these sections in its first part. -/
structure IsConfig (doc : XmlDoc) (ns : Ns) (sections : List Node) : Prop where
  href : searchNsByHref doc = some ns
  root : ∃ rootNs rest, doc.root = some (.element "Helping".toList rootNs
    (.element "node".toList (some ns) sections :: rest))
  sections : AreSections ns sections

/-! ## Values -/

/-- The numbers for the words of a link's delay and user fields -/
structure Words where
  delay : XmlStr → Option Int
  user : XmlStr → Option Int

/-- What a word stands for, if it is one of its topic -/
def Words.meaning (w : Words) (topic : Topic) (t : XmlStr) : Option Int :=
  match topic with
  | .onOff => List.lookup t (elements [("off", 0), ("on", 1)])
  | .where' => List.lookup t (elements [("local", 0), ("remote", 1)])
  | .priority => List.lookup t (elements [("low", 0), ("medium", 1), ("high", 2), ("network", 3)])
  | .nodeType =>
    List.lookup t (elements [("len", lenEndNode), ("appn", appnEndNode), ("nn", appnNetNode)])
  | .role => List.lookup t (elements [("sec", lsRoleSec), ("pri", lsRolePri), ("neg", lsRoleNeg)])
  | .direction => List.lookup t (elements [("both", lsDirBoth), ("in", lsDirIn), ("out", lsDirOut)])
  | .security => List.lookup t (elements [("none", 0)])
  | .delay => w.delay t
  | .user => w.user t

/-- The text is not a word that is unknown where it stands. -/
def Words.knows (w : Words) : Form → XmlStr → Bool
  | .word topic, t => (w.meaning topic t).isSome
  | .scale topic, t => isNumber t || (w.meaning topic t).isSome
  | _, _ => true

/-- What an element holds is known, if it is a word. -/
def Words.knowsIn (w : Words) : Content → XmlStr → Bool
  | .value f, t => w.knows f t
  | _, _ => true

def child (cs : List Node) (name : String) : Option Node := cs.find? (·.name = name.toList)

def contentOf (c : Node) : Option XmlStr := c.children.head?.bind Node.content?

/-- The text of an element -/
def textOf (cs : List Node) (name : String) : Option XmlStr := (child cs name).bind contentOf

/-- An element that is not there has the value zero, or the empty string. -/
def text (cs : List Node) (name : String) : XmlStr := (textOf cs name).getD []

def upper (cs : List Node) (name : String) : XmlStr := (text cs name).map Char.toUpper

def number (cs : List Node) (name : String) : Nat := ((textOf cs name).map (inBase 10)).getD 0

def word (w : Words) (topic : Topic) (cs : List Node) (name : String) : Int :=
  ((textOf cs name).bind (w.meaning topic)).getD 0

def scale (w : Words) (topic : Topic) (cs : List Node) (name : String) : Int :=
  ((textOf cs name).bind fun t =>
    if isNumber t then some (inBase 10 t : Int) else w.meaning topic t).getD 0

def sap (cs : List Node) (name : String) : Nat :=
  ((textOf cs name).map fun t => inBase 16 (t.drop 2)).getD 0

/-- In upper case, eight characters -/
def padded (s : XmlStr) : XmlStr := (s.map Char.toUpper).rightpad 8 ' '

def netName (cs : List Node) (name : String) : Netid :=
  ((textOf cs name).map fun t => ⟨padded (netPart t), padded (namePart t)⟩).getD noNetid

def nodeId (cs : List Node) (name : String) : Nat := ((textOf cs name).map (inBase 16)).getD 0

def bytes : XmlStr → List Nat
  | high :: low :: t => inBase 16 [high, low] :: bytes t
  | _ => []

def address (cs : List Node) (name : String) : List Nat := ((textOf cs name).map bytes).getD []

/-- An end of a range -/
def bound (cs : List Node) (name ending : String) : Nat :=
  ((child cs name).map fun c => number c.children ending).getD 0

/-- An end of the range of a cost -/
def costBound (cs : List Node) (name kind ending : String) : Nat :=
  ((child cs name).map fun c => bound c.children kind ending).getD 0

/-! ## Defines -/

section Defines

variable (w : Words) (global cs : List Node)

def nodeDefine : NofNode :=
  { netid := netName global "node_name", nodeid := nodeId global "node_id"
    type := (word w .nodeType global "node_type").toNat, maxLus := number global "max_lus"
    luSeg := (word w .onOff global "lu_seg").toNat
    bindSeg := (word w .onOff global "bind_seg").toNat }

def portDefine : NofPort :=
  { useName := text cs "use_name", netid := netName global "node_name", name := text cs "iface"
    saddr := sap cs "port", btu := number cs "btu", mia := number cs "mia", moa := number cs "moa" }

def lsDefine : NofLs :=
  { useName := text cs "use_name", netid := netName global "node_name"
    pluName := netName cs "plu_name", dname := address cs "dstaddr", name := text cs "iface"
    saddr := sap cs "port", daddr := sap cs "dstport", pluNodeId := nodeId cs "plu_node_id"
    role := word w .role cs "role", direction := word w .direction cs "direction"
    byteswap := word w .onOff cs "byteswap", retryOnFail := word w .onOff cs "retry_on_fail"
    retryTimes := number cs "retry_times", autoact := word w .onOff cs "autoact"
    tgNumber := number cs "tg_number", costPerByte := number cs "cost_per_byte"
    costPerConnectTime := number cs "cost_per_connect_time"
    effectiveCapacity := number cs "effective_capacity"
    propagationDelay := scale w .delay cs "propagation_delay"
    security := word w .security cs "security", user1 := scale w .user cs "user1"
    user2 := scale w .user cs "user2", user3 := scale w .user cs "user3" }

def cosDefine : NofCos :=
  { name := upper cs "name", weight := number cs "weight"
    txPriority := (word w .priority cs "tx_priority").toNat
    defaultCosInvalid := (word w .onOff cs "default_cos_invalid").toNat
    defaultCosNull := (word w .onOff cs "default_cos_null").toNat
    minCostPerConnect := costBound cs "cost" "connect" "min"
    maxCostPerConnect := costBound cs "cost" "connect" "max"
    minCostPerByte := costBound cs "cost" "byte" "min"
    maxCostPerByte := costBound cs "cost" "byte" "max"
    minSecurity := bound cs "security" "min", maxSecurity := bound cs "security" "max"
    minPropagationDelay := bound cs "propagation_delay" "min"
    maxPropagationDelay := bound cs "propagation_delay" "max"
    minEffectiveCapacity := bound cs "effective_capacity" "min"
    maxEffectiveCapacity := bound cs "effective_capacity" "max"
    minUser1 := bound cs "user1" "min", maxUser1 := bound cs "user1" "max"
    minUser2 := bound cs "user2" "min", maxUser2 := bound cs "user2" "max"
    minUser3 := bound cs "user3" "min", maxUser3 := bound cs "user3" "max"
    minRouteResistance := bound cs "route_resistance" "min"
    maxRouteResistance := bound cs "route_resistance" "max"
    minNodeCongested := bound cs "node_congested" "min"
    maxNodeCongested := bound cs "node_congested" "max" }

def modeDefine : NofMode :=
  { netid := netName global "node_name", netidPlu := netName cs "plu_name"
    modeName := upper cs "name", cosName := upper cs "cos_name"
    crypto := (word w .onOff cs "encryption").toNat, txPacing := number cs "tx_pacing"
    rxPacing := number cs "rx_pacing", txMaxRu := number cs "max_tx_ru"
    rxMaxRu := number cs "max_rx_ru", minConwinners := number cs "min_conwinners"
    minConlosers := number cs "min_conlosers", maxSessions := number cs "max_sessions"
    autoActivation := (word w .onOff cs "auto_activation").toNat }

/-- The logical unit is not in this node. -/
def isRemote : Bool := word w .where' cs "where" ≠ 0

def luDefine : Define :=
  if isRemote w cs then
    .remoteLu { useName := text cs "use_name", netid := netName global "node_name"
                netidPlu := netName cs "plu_name", netidFqcp := netName cs "fqcp_name" }
  else
    .localLu { useName := text cs "use_name", netid := netName global "node_name"
               luName := upper cs "name", syncPoint := (word w .onOff cs "syncpoint").toNat
               luSessLimit := number cs "lu_sess_limit" }

def cpicDefine : NofCpic :=
  { netid := netName global "node_name", netidPlu := netName cs "plu_name"
    symDestName := upper cs "sym_dest_name", modeName := upper cs "mode_name"
    tpName := text cs "tp_name" }

end Defines

/-- The elements of each section of a kind, in the order of the document -/
def ofKind (name : String) (sections : List Node) : List (List Node) :=
  (sections.filter (·.name = name.toList)).map Node.children

/-- One define for each section, those of a kind in the order of the document -/
def defines (w : Words) (global : List Node) (sections : List Node) : List Define :=
  .node (nodeDefine w global) ::
    ((ofKind "dlc" sections).map (.port ∘ portDefine global) ++
     (ofKind "link" sections).map (.ls ∘ lsDefine w global) ++
     (ofKind "cos" sections).map (.cos ∘ cosDefine w) ++
     (ofKind "mode" sections).map (.mode ∘ modeDefine w global) ++
     (ofKind "lu" sections).map (luDefine w global) ++
     (ofKind "cpic" sections).map (.cpic ∘ cpicDefine global))

/-! ## Loads -/

/-- The calls up to the first that the kernel refuses, and what it answers there -/
def issued (w : World) (before : List Define) : List Define → List Define × Int
  | [] => (before, 0)
  | d :: ds =>
    let answer := w.answer (before ++ [d])
    if answer < 0 then (before ++ [d], answer) else issued w (before ++ [d]) ds

/-- What a load does if the configuration is carried out -/
def carriedOut (words : Words) (w : World) (global : List Node) (sections : List Node) : Outcome :=
  if w.opens then
    let r := issued w [] (defines words global sections)
    ⟨some (text global "debuglevel"), r.1, r.2⟩
  else ⟨none, [], -1⟩

/-- All words of a section are known. -/
def WordsKnown (words : Words) (s : Node) : Prop :=
  ∀ doc ∈ sectionDocs.lookup s.name, ∀ c ∈ s.children, ∀ a ∈ doc.lookup c.name,
    ∀ t ∈ onlyText c, words.knowsIn a t = true

instance {words : Words} {s : Node} : Decidable (WordsKnown words s) := by
  unfold WordsKnown
  infer_instance

/-- A load does what the configuration says: it is carried out, or it is rejected if there is no
global section or a word that is not known. -/
def Meets (words : Words) (w : World) (sections : List Node) (o : Option Outcome) : Prop :=
  match ofKind "global" sections with
  | [] => ∃ ret < 0, o = some ⟨none, [], ret⟩
  | global :: _ =>
    ((∀ s ∈ sections, WordsKnown words s) → o = some (carriedOut words w global sections)) ∧
    ((∃ s ∈ sections, ¬WordsKnown words s) → ∃ ret < 0, o = some ⟨none, [], ret⟩)

end LinuxSna.Snaconfig.NodeConfig
