import LinuxSna.Impl.Snaconfig.Xwords

/-!
# Loading a configuration

`sna_load.c`: the sections of a configuration file, `sna_read_config_file` and
`sna_execute_config_info`. A section is a record with a slot for each element that is asked for;
all its elements are compared with all of them. Memory does not run out, and `START_NODE_DEFAULT`
is not set.
-/

namespace LinuxSna.Snaconfig

open Framework

def einval : Int := 22

/-! ## Sections -/

/-- `cos_info` -/
structure CosInfo where
  cosName : XmlStr
  weight : Int
  txPriority : Int
  defaultCosInvalid : Int
  defaultCosNull : Int
  minCostPerConnect : Int
  maxCostPerConnect : Int
  minCostPerByte : Int
  maxCostPerByte : Int
  minSecurity : Int
  maxSecurity : Int
  minPropagationDelay : Int
  maxPropagationDelay : Int
  minEffectiveCapacity : Int
  maxEffectiveCapacity : Int
  minUser1 : Int
  maxUser1 : Int
  minUser2 : Int
  maxUser2 : Int
  minUser3 : Int
  maxUser3 : Int
  minRouteResistance : Int
  maxRouteResistance : Int
  minNodeCongested : Int
  maxNodeCongested : Int

/-- `cpic_info` -/
structure CpicInfo where
  symDestName : XmlStr
  modeName : XmlStr
  tpName : XmlStr
  pluName : Netid

/-- `mode_info` -/
structure ModeInfo where
  name : XmlStr
  cosName : XmlStr
  pluName : Netid
  encryption : Int
  txPacing : Int
  rxPacing : Int
  maxTxRu : Int
  maxRxRu : Int
  maxSessions : Int
  minConwinners : Int
  minConlosers : Int
  autoActivation : Int

/-- `lu_info` -/
structure LuInfo where
  useName : XmlStr
  type : Int
  pluName : Netid
  fqcpName : Netid
  name : XmlStr
  syncpoint : Int
  luSessLimit : Int

/-- `link_info`. Of `port` and `dstport` there is the first character, which is all that is set of them; that
`sna_load.c` copies nine characters of each, one behind the end of `dstport` among them, is left out. -/
structure LinkInfo where
  useName : XmlStr
  interface : XmlStr
  port : Nat
  pluName : Netid
  pluNodeId : Nat
  dstaddr : List Nat
  dstport : Nat
  role : Int
  direction : Int
  byteswap : Int
  retryOnFail : Int
  retryTimes : Int
  autoact : Int
  tgNumber : Int
  costPerByte : Int
  costPerConnectTime : Int
  effectiveCapacity : Int
  propagationDelay : Int
  security : Int
  user1 : Int
  user2 : Int
  user3 : Int

/-- `dlc_info`. Of `port` there is the first character. -/
structure DlcInfo where
  useName : XmlStr
  interface : XmlStr
  port : Nat
  btu : Int
  mia : Int
  moa : Int

/-- `global_info` -/
structure GlobalInfo where
  nodeName : Netid
  nodeId : Nat
  nodeType : Int
  debugLevel : XmlStr
  maxLus : Int
  luSeg : Int
  bindSeg : Int
  dlcList : List DlcInfo
  linkList : List LinkInfo
  luList : List LuInfo
  modeList : List ModeInfo
  cpicList : List CpicInfo
  cosList : List CosInfo

/-! What `calloc` gives -/

def noNetid : Netid := ⟨[], []⟩

def newCos : CosInfo := ⟨[], 0, 0, 0, 0, 0, 0, 0, 0, 0, 0, 0, 0, 0, 0, 0, 0, 0, 0, 0, 0, 0, 0, 0, 0⟩

def newCpic : CpicInfo := ⟨[], [], [], noNetid⟩

def newMode : ModeInfo := ⟨[], [], noNetid, 0, 0, 0, 0, 0, 0, 0, 0, 0⟩

def newLu : LuInfo := ⟨[], 0, noNetid, noNetid, [], 0, 0⟩

def newLink : LinkInfo :=
  ⟨[], [], 0, noNetid, 0, [], 0, 0, 0, 0, 0, 0, 0, 0, 0, 0, 0, 0, 0, 0, 0, 0⟩

def newDlc : DlcInfo := ⟨[], [], 0, 0, 0, 0⟩

def newGlobal : GlobalInfo := ⟨noNetid, 0, 0, [], 0, 0, 0, [], [], [], [], [], []⟩

/-! ## Elements -/

section Elements

variable (long : Long) (ns : Ns) {ι : Type}

/-- `if (!matches(cur->name, name)) xword_strcpy(doc, cur, ..)` to an array of `size` characters;
the others likewise with their functions -/
abbrev strcpyAt (name : String) (size : Nat) (put : XmlStr → ι → ι) : Slot XmlStr Node ι :=
  ⟨name.toList, XmlStr, [], xwordStrcpy size, put⟩

abbrev toupperAt (name : String) (put : XmlStr → ι → ι) : Slot XmlStr Node ι :=
  ⟨name.toList, XmlStr, [], xwordStrcpyToupper resourceNameLen, put⟩

abbrev intAt (name : String) (put : Int → ι → ι) : Slot XmlStr Node ι :=
  ⟨name.toList, Int, 0, xwordInt long, put⟩

abbrev typesAt (wm : WordMap) (name : String) (put : Int → ι → ι) : Slot XmlStr Node ι :=
  ⟨name.toList, Int, 0, xwordTypes wm, put⟩

abbrev netidAt (name : String) (put : Netid → ι → ι) : Slot XmlStr Node ι :=
  ⟨name.toList, Netid, noNetid, xwordNetid, put⟩

abbrev nodeidAt (name : String) (put : Nat → ι → ι) : Slot XmlStr Node ι :=
  ⟨name.toList, Nat, 0, xwordNodeid long, put⟩

abbrev lsapAt (name : String) (put : Nat → ι → ι) : Slot XmlStr Node ι :=
  ⟨name.toList, Nat, 0, xwordLsap long, put⟩

abbrev macAddressAt (name : String) (put : List Nat → ι → ι) : Slot XmlStr Node ι :=
  ⟨name.toList, List Nat, [], xwordMacAddress, put⟩

abbrev minMaxAt (name : String) (put : MinMax → ι → ι) : Slot XmlStr Node ι :=
  ⟨name.toList, MinMax, ⟨none, none⟩, xwordMinMax long ns, put⟩

abbrev costAt (name : String) (put : Cost → ι → ι) : Slot XmlStr Node ι :=
  ⟨name.toList, Cost, ⟨⟨none, none⟩, ⟨none, none⟩⟩, xwordCost long ns, put⟩

end Elements

/-- All children of an element, by name -/
def allOf (cur : Node) : List (XmlStr × Node) := cur.children.map fun c => (c.name, c)

section Parse

variable (long : Long) (ns : Ns)

def cosSlots : List (Slot XmlStr Node CosInfo) :=
  [toupperAt "name" fun v i => { i with cosName := v },
   intAt long "weight" fun v i => { i with weight := v },
   typesAt txTypes "tx_priority" fun v i => { i with txPriority := v },
   typesAt onTypes "default_cos_invalid" fun v i => { i with defaultCosInvalid := v },
   typesAt onTypes "default_cos_null" fun v i => { i with defaultCosNull := v },
   costAt long ns "cost" fun v i => { i with
      minCostPerConnect := v.connect.min.getD i.minCostPerConnect
      maxCostPerConnect := v.connect.max.getD i.maxCostPerConnect
      minCostPerByte := v.byte.min.getD i.minCostPerByte
      maxCostPerByte := v.byte.max.getD i.maxCostPerByte },
   minMaxAt long ns "security" fun v i => { i with
      minSecurity := v.min.getD i.minSecurity, maxSecurity := v.max.getD i.maxSecurity },
   minMaxAt long ns "propagation_delay" fun v i => { i with
      minPropagationDelay := v.min.getD i.minPropagationDelay
      maxPropagationDelay := v.max.getD i.maxPropagationDelay },
   minMaxAt long ns "effective_capacity" fun v i => { i with
      minEffectiveCapacity := v.min.getD i.minEffectiveCapacity
      maxEffectiveCapacity := v.max.getD i.maxEffectiveCapacity },
   minMaxAt long ns "route_resistance" fun v i => { i with
      minRouteResistance := v.min.getD i.minRouteResistance
      maxRouteResistance := v.max.getD i.maxRouteResistance },
   minMaxAt long ns "node_congested" fun v i => { i with
      minNodeCongested := v.min.getD i.minNodeCongested
      maxNodeCongested := v.max.getD i.maxNodeCongested },
   minMaxAt long ns "user1" fun v i => { i with
      minUser1 := v.min.getD i.minUser1, maxUser1 := v.max.getD i.maxUser1 },
   minMaxAt long ns "user2" fun v i => { i with
      minUser2 := v.min.getD i.minUser2, maxUser2 := v.max.getD i.maxUser2 },
   minMaxAt long ns "user3" fun v i => { i with
      minUser3 := v.min.getD i.minUser3, maxUser3 := v.max.getD i.maxUser3 }]

/-- `sna_parse_cos` -/
def parseCos (cur : Node) : Option CosInfo := fillIn nameMatches (cosSlots long ns) (allOf cur) newCos

def cpicSlots : List (Slot XmlStr Node CpicInfo) :=
  [toupperAt "sym_dest_name" fun v i => { i with symDestName := v },
   toupperAt "mode_name" fun v i => { i with modeName := v },
   netidAt "plu_name" fun v i => { i with pluName := v },
   strcpyAt "tp_name" 65 fun v i => { i with tpName := v }]

/-- `sna_parse_cpic` -/
def parseCpic (cur : Node) : Option CpicInfo := fillIn nameMatches cpicSlots (allOf cur) newCpic

def modeSlots : List (Slot XmlStr Node ModeInfo) :=
  [toupperAt "name" fun v i => { i with name := v },
   toupperAt "cos_name" fun v i => { i with cosName := v },
   netidAt "plu_name" fun v i => { i with pluName := v },
   typesAt onTypes "encryption" fun v i => { i with encryption := v },
   intAt long "tx_pacing" fun v i => { i with txPacing := v },
   intAt long "rx_pacing" fun v i => { i with rxPacing := v },
   intAt long "max_tx_ru" fun v i => { i with maxTxRu := v },
   intAt long "max_rx_ru" fun v i => { i with maxRxRu := v },
   intAt long "min_conwinners" fun v i => { i with minConwinners := v },
   intAt long "min_conlosers" fun v i => { i with minConlosers := v },
   intAt long "max_sessions" fun v i => { i with maxSessions := v },
   typesAt onTypes "auto_activation" fun v i => { i with autoActivation := v }]

/-- `sna_parse_mode` -/
def parseMode (cur : Node) : Option ModeInfo := fillIn nameMatches (modeSlots long) (allOf cur) newMode

def luSlots : List (Slot XmlStr Node LuInfo) :=
  [strcpyAt "use_name" useNameLen fun v i => { i with useName := v },
   typesAt luTypes "where" fun v i => { i with type := v },
   typesAt onTypes "syncpoint" fun v i => { i with syncpoint := v },
   intAt long "lu_sess_limit" fun v i => { i with luSessLimit := v },
   netidAt "plu_name" fun v i => { i with pluName := v },
   netidAt "fqcp_name" fun v i => { i with fqcpName := v }]

/-- `sna_parse_lu` -/
def parseLu (cur : Node) : Option LuInfo := fillIn nameMatches (luSlots long) (allOf cur) newLu

def linkSlots : List (Slot XmlStr Node LinkInfo) :=
  [strcpyAt "use_name" useNameLen fun v i => { i with useName := v },
   typesAt roleTypes "role" fun v i => { i with role := v },
   typesAt directionTypes "direction" fun v i => { i with direction := v },
   strcpyAt "iface" resourceNameLen fun v i => { i with interface := v },
   lsapAt long "port" fun v i => { i with port := v },
   typesAt onTypes "byteswap" fun v i => { i with byteswap := v },
   macAddressAt "dstaddr" fun v i => { i with dstaddr := v ++ i.dstaddr.drop v.length },
   lsapAt long "dstport" fun v i => { i with dstport := v },
   netidAt "plu_name" fun v i => { i with pluName := v },
   nodeidAt long "plu_node_id" fun v i => { i with pluNodeId := v },
   typesAt onTypes "retry_on_fail" fun v i => { i with retryOnFail := v },
   intAt long "retry_times" fun v i => { i with retryTimes := v },
   typesAt onTypes "autoact" fun v i => { i with autoact := v },
   intAt long "tg_number" fun v i => { i with tgNumber := v },
   intAt long "cost_per_byte" fun v i => { i with costPerByte := v },
   intAt long "cost_per_connect_time" fun v i => { i with costPerConnectTime := v },
   intAt long "effective_capacity" fun v i => { i with effectiveCapacity := v },
   intAt long "propagation_delay" fun v i => { i with propagationDelay := v },
   typesAt securityTypes "security" fun v i => { i with security := v },
   intAt long "user1" fun v i => { i with user1 := v },
   intAt long "user2" fun v i => { i with user2 := v },
   intAt long "user3" fun v i => { i with user3 := v }]

/-- `sna_parse_link` -/
def parseLink (cur : Node) : Option LinkInfo :=
  fillIn nameMatches (linkSlots long) (inNs ns cur) newLink

def dlcSlots : List (Slot XmlStr Node DlcInfo) :=
  [strcpyAt "use_name" useNameLen fun v i => { i with useName := v },
   strcpyAt "iface" resourceNameLen fun v i => { i with interface := v },
   lsapAt long "port" fun v i => { i with port := v },
   intAt long "btu" fun v i => { i with btu := v },
   intAt long "mia" fun v i => { i with mia := v },
   intAt long "moa" fun v i => { i with moa := v }]

/-- `sna_parse_dlc` -/
def parseDlc (cur : Node) : Option DlcInfo := fillIn nameMatches (dlcSlots long) (inNs ns cur) newDlc

def globalSlots : List (Slot XmlStr Node GlobalInfo) :=
  [strcpyAt "debuglevel" 8 fun v i => { i with debugLevel := v },
   netidAt "node_name" fun v i => { i with nodeName := v },
   typesAt nodeTypes "node_type" fun v i => { i with nodeType := v },
   nodeidAt long "node_id" fun v i => { i with nodeId := v },
   intAt long "max_lus" fun v i => { i with maxLus := v },
   intAt long "lu_seg" fun v i => { i with luSeg := v },
   intAt long "bind_seg" fun v i => { i with bindSeg := v }]

/-- `sna_parse_global` -/
def parseGlobal (cur : Node) : Option GlobalInfo :=
  fillIn nameMatches (globalSlots long) (inNs ns cur) newGlobal

end Parse

/-! ## Reading -/

/-- The pointer `ginfo`: null, what was on the stack, or to what a `global` section has given -/
inductive Ginfo where
  | null
  | wild
  | info (g : GlobalInfo)

/-- A section is added at the end of its list, or freed if there is none. -/
def Ginfo.addTail (add : GlobalInfo → GlobalInfo) : Ginfo → Option Ginfo
  | .null => some .null
  | .wild => none
  | .info g => some (.info (add g))

section Read

variable (long : Long) (ns : Ns)

/-- `(!strcmp(cur->name, name)) && (cur->ns == ns)` -/
def isSection (name : String) (cur : Node) : Bool := cur.name = name.toList ∧ cur.ns = some ns

/-- A step of the walk through the sections -/
def readSection (ginfo : Ginfo) (cur : Node) : Option Ginfo :=
  if isSection ns "global" cur then (parseGlobal long ns cur).map .info
  else if isSection ns "dlc" cur then
    (parseDlc long ns cur).bind fun dlc =>
      ginfo.addTail fun g => { g with dlcList := g.dlcList ++ [dlc] }
  else if isSection ns "link" cur then
    (parseLink long ns cur).bind fun link =>
      ginfo.addTail fun g => { g with linkList := g.linkList ++ [link] }
  else if isSection ns "lu" cur then
    (parseLu long cur).bind fun lu =>
      ginfo.addTail fun g => { g with luList := g.luList ++ [lu] }
  else if isSection ns "cos" cur then
    (parseCos long ns cur).bind fun cos =>
      ginfo.addTail fun g => { g with cosList := g.cosList ++ [cos] }
  else if isSection ns "mode" cur then
    (parseMode long cur).bind fun mode =>
      ginfo.addTail fun g => { g with modeList := g.modeList ++ [mode] }
  else if isSection ns "cpic" cur then
    (parseCpic cur).bind fun cpic =>
      ginfo.addTail fun g => { g with cpicList := g.cpicList ++ [cpic] }
  else some ginfo

end Read

/-- A file as `xmlParseFile` gives it: the root element, and the namespaces declared there -/
structure XmlDoc where
  root : Option Node
  nsDef : List Ns

def pathSnacfgXmlHref : XmlStr := "http://www.linux-sna.org/sna".toList

/-- `xmlSearchNsByHref` at the root -/
def searchNsByHref (doc : XmlDoc) : Option Ns := doc.nsDef.find? (·.href = pathSnacfgXmlHref)

def isBlankNode : Node → Bool
  | .text content => content.all isSpace
  | .element _ _ _ => false

/-- What `ginfo` holds before anything is assigned to it -/
def unassigned (null : Bool) : Ginfo := if null then .null else .wild

/-- What `sna_read_config_file` returns, and `sna_config_info` if it has been set. `null` is whether
the stack has zeros where `ginfo` is. -/
def readConfigFile (long : Long) (null : Bool) (doc : Option XmlDoc) :
    Option (Int × Option Ginfo) :=
  match doc with
  | none => some (-1, none)
  | some doc =>
    match doc.root with
    | none => some (-1, none)
    | some cur =>
      match searchNsByHref doc with
      | none => some (-1, none)
      | some ns =>
        if cur.name ≠ "Helping".toList then some (-1, none)
        else
          match cur.children.dropWhile isBlankNode with
          | [] => some (-1, none)
          | cur :: _ =>
            if cur.name ≠ "node".toList ∨ cur.ns ≠ some ns then some (-1, none)
            else (cur.children.foldlM (readSection long ns) (unassigned null)).map fun g => (0, some g)

/-! ## Defining -/

/-- `struct sna_nof_node` -/
structure NofNode where
  netid : Netid
  nodeid : Nat
  type : Nat
  maxLus : Nat
  luSeg : Nat
  bindSeg : Nat
  deriving DecidableEq

/-- `struct sna_nof_port` -/
structure NofPort where
  useName : XmlStr
  netid : Netid
  name : XmlStr
  saddr : Nat
  btu : Nat
  mia : Nat
  moa : Nat
  deriving DecidableEq

/-- `struct sna_nof_ls` -/
structure NofLs where
  useName : XmlStr
  netid : Netid
  pluName : Netid
  dname : List Nat
  name : XmlStr
  saddr : Nat
  daddr : Nat
  pluNodeId : Nat
  role : Int
  direction : Int
  byteswap : Int
  retryOnFail : Int
  retryTimes : Int
  autoact : Int
  tgNumber : Int
  costPerByte : Int
  costPerConnectTime : Int
  effectiveCapacity : Int
  propagationDelay : Int
  security : Int
  user1 : Int
  user2 : Int
  user3 : Int
  deriving DecidableEq

/-- `struct sna_nof_cos` -/
structure NofCos where
  name : XmlStr
  weight : Nat
  txPriority : Nat
  defaultCosInvalid : Nat
  defaultCosNull : Nat
  minCostPerConnect : Nat
  maxCostPerConnect : Nat
  minCostPerByte : Nat
  maxCostPerByte : Nat
  minSecurity : Nat
  maxSecurity : Nat
  minPropagationDelay : Nat
  maxPropagationDelay : Nat
  minEffectiveCapacity : Nat
  maxEffectiveCapacity : Nat
  minUser1 : Nat
  maxUser1 : Nat
  minUser2 : Nat
  maxUser2 : Nat
  minUser3 : Nat
  maxUser3 : Nat
  minRouteResistance : Nat
  maxRouteResistance : Nat
  minNodeCongested : Nat
  maxNodeCongested : Nat
  deriving DecidableEq

/-- `struct sna_nof_mode` -/
structure NofMode where
  netid : Netid
  netidPlu : Netid
  modeName : XmlStr
  cosName : XmlStr
  crypto : Nat
  txPacing : Nat
  rxPacing : Nat
  txMaxRu : Nat
  rxMaxRu : Nat
  minConwinners : Nat
  minConlosers : Nat
  maxSessions : Nat
  autoActivation : Nat
  deriving DecidableEq

/-- `struct sna_nof_remote_lu` -/
structure NofRemoteLu where
  useName : XmlStr
  netid : Netid
  netidPlu : Netid
  netidFqcp : Netid
  deriving DecidableEq

/-- `struct sna_nof_local_lu` -/
structure NofLocalLu where
  useName : XmlStr
  netid : Netid
  luName : XmlStr
  syncPoint : Nat
  luSessLimit : Nat
  deriving DecidableEq

/-- `struct sna_nof_cpic` -/
structure NofCpic where
  netid : Netid
  netidPlu : Netid
  symDestName : XmlStr
  modeName : XmlStr
  tpName : XmlStr
  deriving DecidableEq

/-- The calls of `nof_define_*` -/
inductive Define where
  | node (n : NofNode)
  | port (n : NofPort)
  | ls (n : NofLs)
  | cos (n : NofCos)
  | mode (n : NofMode)
  | remoteLu (n : NofRemoteLu)
  | localLu (n : NofLocalLu)
  | cpic (n : NofCpic)
  deriving DecidableEq

section Fields

variable (long : Long) (g : GlobalInfo)

def nodeOf : NofNode :=
  { netid := g.nodeName, nodeid := g.nodeId, type := uchar g.nodeType
    maxLus := ulong long g.maxLus, luSeg := ushort g.luSeg, bindSeg := ushort g.bindSeg }

def portOf (i : DlcInfo) : NofPort :=
  { useName := i.useName, netid := g.nodeName, name := i.interface, saddr := i.port
    btu := ulong long i.btu, mia := ulong long i.mia, moa := ulong long i.moa }

def lsOf (i : LinkInfo) : NofLs :=
  { useName := i.useName, netid := g.nodeName, pluName := i.pluName, dname := i.dstaddr
    name := i.interface, saddr := i.port, daddr := i.dstport, pluNodeId := i.pluNodeId
    role := i.role, direction := i.direction, byteswap := i.byteswap
    retryOnFail := i.retryOnFail, retryTimes := i.retryTimes, autoact := i.autoact
    tgNumber := i.tgNumber, costPerByte := i.costPerByte
    costPerConnectTime := i.costPerConnectTime, effectiveCapacity := i.effectiveCapacity
    propagationDelay := i.propagationDelay, security := i.security
    user1 := i.user1, user2 := i.user2, user3 := i.user3 }

def cosOf (i : CosInfo) : NofCos :=
  { name := i.cosName, weight := ushort i.weight, txPriority := ushort i.txPriority
    defaultCosInvalid := uchar i.defaultCosInvalid, defaultCosNull := uchar i.defaultCosNull
    minCostPerConnect := ushort i.minCostPerConnect
    maxCostPerConnect := ushort i.maxCostPerConnect
    minCostPerByte := ushort i.minCostPerByte, maxCostPerByte := ushort i.maxCostPerByte
    minSecurity := ushort i.minSecurity, maxSecurity := ushort i.maxSecurity
    minPropagationDelay := ushort i.minPropagationDelay
    maxPropagationDelay := ushort i.maxPropagationDelay
    minEffectiveCapacity := ushort i.minEffectiveCapacity
    maxEffectiveCapacity := ushort i.maxEffectiveCapacity
    minUser1 := ushort i.minUser1, maxUser1 := ushort i.maxUser1
    minUser2 := ushort i.minUser2, maxUser2 := ushort i.maxUser2
    minUser3 := ushort i.minUser3, maxUser3 := ushort i.maxUser3
    minRouteResistance := ushort i.minRouteResistance
    maxRouteResistance := ushort i.maxRouteResistance
    minNodeCongested := ushort i.minNodeCongested
    maxNodeCongested := ushort i.maxNodeCongested }

def modeOf (i : ModeInfo) : NofMode :=
  { netid := g.nodeName, netidPlu := i.pluName, modeName := i.name, cosName := i.cosName
    crypto := uchar i.encryption, txPacing := ulong long i.txPacing
    rxPacing := ulong long i.rxPacing, txMaxRu := ulong long i.maxTxRu
    rxMaxRu := ulong long i.maxRxRu, minConwinners := ulong long i.minConwinners
    minConlosers := ulong long i.minConlosers, maxSessions := ulong long i.maxSessions
    autoActivation := uchar i.autoActivation }

def luOf (i : LuInfo) : Define :=
  if i.type ≠ 0 then
    .remoteLu { useName := i.useName, netid := g.nodeName, netidPlu := i.pluName
                netidFqcp := i.fqcpName }
  else
    .localLu { useName := i.useName, netid := g.nodeName, luName := i.name
               syncPoint := uchar i.syncpoint, luSessLimit := ulong long i.luSessLimit }

/-- The name of the transaction program has 64 characters here. -/
def cpicOf (i : CpicInfo) : Option NofCpic :=
  (strcpy 64 i.tpName).map fun tpName =>
    { netid := g.nodeName, netidPlu := i.pluName, symDestName := i.symDestName
      modeName := i.modeName, tpName := tpName }

end Fields

/-- What is outside: whether the file of the debug level can be written, and what the kernel answers
to the last of the calls there have been -/
structure World where
  opens : Bool
  answer : List Define → Int

/-- What a load has done: the debug level written, the calls, and what is returned -/
structure Outcome where
  debugLevel : Option XmlStr
  defines : List Define
  ret : Int

/-- Why there is no next call -/
inductive Stop where
  | undefined
  | refused (defines : List Define) (err : Int)

/-- A call after those before it: a negative answer ends the function. -/
def define (w : World) (before : List Define) (d : Define) : Except Stop (List Define) :=
  let defines := before ++ [d]
  if w.answer defines < 0 then .error (.refused defines (w.answer defines)) else .ok defines

def defineCpic (w : World) (g : GlobalInfo) (before : List Define) (i : CpicInfo) :
    Except Stop (List Define) :=
  match cpicOf g i with
  | none => .error .undefined
  | some n => define w before (.cpic n)

/-- The calls of `sna_execute_config_info` -/
def defineAll (long : Long) (w : World) (g : GlobalInfo) : Except Stop (List Define) := do
  let d ← define w [] (.node (nodeOf long g))
  let d ← g.dlcList.foldlM (fun d i => define w d (.port (portOf long g i))) d
  let d ← g.linkList.foldlM (fun d i => define w d (.ls (lsOf g i))) d
  let d ← g.cosList.foldlM (fun d i => define w d (.cos (cosOf i))) d
  let d ← g.modeList.foldlM (fun d i => define w d (.mode (modeOf long g i))) d
  let d ← g.luList.foldlM (fun d i => define w d (luOf long g i)) d
  g.cpicList.foldlM (fun d i => defineCpic w g d i) d

/-- `sna_execute_config_info` -/
def executeConfigInfo (long : Long) (w : World) : Ginfo → Option Outcome
  | .null => some ⟨none, [], -einval⟩
  | .wild => none
  | .info g =>
    if w.opens then
      match defineAll long w g with
      | .ok defines => some ⟨some g.debugLevel, defines, 0⟩
      | .error (.refused defines err) => some ⟨some g.debugLevel, defines, err⟩
      | .error .undefined => none
    else some ⟨none, [], -1⟩

/-- `sna_load`, once it is connected -/
def load (long : Long) (w : World) (null : Bool) (doc : Option XmlDoc) : Option Outcome :=
  match readConfigFile long null doc with
  | none => none
  | some (err, none) => some ⟨none, [], err⟩
  | some (_, some g) => executeConfigInfo long w g

end LinuxSna.Snaconfig
