import LinuxSna.Impl.Asuite.NameServer
import LinuxSna.Proof.Asuite.Ftp.Messages

/-!
# What a name server is for

The requests that partners make, what they name, and what a name server owes them.

* `Right`: a record is registered by the partner whose name it carries, and is removed by it alone;
* `Answers`: a request is answered with how it went, and a query with a record if what it names was
  registered last, and not deleted.
-/

namespace LinuxSna.Asuite.Names

open Ftp

/-! ## Requests -/

/-- A text for a member -/
structure Text (m : Member) where
  bytes : List UInt8
  nonzero : 0 ∉ bytes
  short : bytes.length ≤ m.size

theorem Text.bytes_eq_iff {m : Member} (a b : Text m) : a.bytes = b.bytes ↔ a = b := by
  cases a
  cases b
  exact (Text.mk.injEq ..).to_iff.symm

instance {m : Member} : DecidableEq (Text m) := fun a b =>
  decidable_of_iff (a.bytes = b.bytes) (Text.bytes_eq_iff a b)

/-- A parameter of a request: a name, a flag, or one that the server does not know. -/
inductive Parameter where
  | name (m : Member) (text : Text m)
  | other (x : Call) (faithful : x.Faithful) (unknown : Member.ofKey x.key = none)

namespace Parameter

/-- The parameter as it is appended to a record. -/
def call : Parameter → Call
  | name m text => .append m.key (text.bytes ++ [0])
  | other x _ _ => x

/-- What a parameter gives for a member. -/
def text (m : Member) : Parameter → Option (Text m)
  | name m' text => if h : m' = m then some (h ▸ text) else none
  | other _ _ _ => none

end Parameter

/-- The requests -/
inductive Kind where
  | register
  | delete
  | query
  deriving DecidableEq

/-- The major code of a request -/
def Kind.code : Kind → Nat
  | register => anameRegisterRequestRecord
  | delete => anameDeleteRequestRecord
  | query => anameQueryRequestRecord

/-- A request: the LU that makes it, its parameters in their order, and whether the server has room
for a record. -/
structure Request where
  origin : Text .fqluname
  kind : Kind
  parameters : List Parameter
  room : Bool
  fits : (message .little kind.code (parameters.map Parameter.call)).length ≤ maxBufferSize

namespace Request

variable (q : Request)

/-- The request as it is sent. -/
def data : List UInt8 := message .little q.kind.code (q.parameters.map Parameter.call)

/-- The conversation that it is made on. -/
def conversation : Conversation := ⟨q.origin.bytes, q.data, q.room⟩

end Request

/-! ## What requests name -/

/-- The texts that parameters give for a member, in their order. -/
def values (ps : List Parameter) (m : Member) : List (Text m) := ps.filterMap (Parameter.text m)

/-- Values for some of the fields. -/
abbrev Naming := (m : Member) → Option (Text m)

/-- What parameters name: the last value counts. -/
def naming (ps : List Parameter) : Naming := fun m => (values ps m).getLast?

/-- The text of a parameter is copied. -/
def Namerec.take (r : Namerec) : Parameter → Namerec
  | .name m text => Function.update r m ((r m).copy text.bytes text.short)
  | .other _ _ _ => r

/-- The texts of parameters, one copied over the other. -/
def image (ps : List Parameter) : Namerec := ps.foldl Namerec.take .blank

/-! ## Whose records they are -/

/-- The server, and the partner that has registered what is stored under a key. -/
structure Registry where
  server : Server
  owner : List UInt8 → Option (List UInt8)

/-- A server as it begins: its memory is whatever stands there. -/
def Server.begin (record : Record) : Server := ⟨fun _ => none, record⟩

/-- Nothing is registered. -/
def Registry.begin (record : Record) : Registry := ⟨.begin record, fun _ => none⟩

/-- A request is served. What is stored now, and was not before, has been registered by its
partner. -/
def Registry.step (r : Registry) (q : Request) : Option Registry := do
  let (server, _) ← serve .little r.server q.conversation
  return ⟨server, fun key =>
    if server.db key = none then none
    else if r.server.db key = none then some q.origin.bytes
    else r.owner key⟩

/-- What is stored carries the name of a partner. -/
def Carries (value origin : List UInt8) : Prop := stringOf value .fqluname = some origin

/-- Every record carries the name of the partner that has registered it. -/
def Authentic (r : Registry) : Prop :=
  ∀ key value, r.server.db key = some value →
    ∃ origin, r.owner key = some origin ∧ Carries value origin

/-- After the request every record is authentic, and what it has removed carries the name of its
partner. -/
def Right (r : Registry) (q : Request) : Prop :=
  ∀ r', r.step q = some r' → Authentic r' ∧
    ∀ key value, r.server.db key = some value → r'.server.db key = none →
      Carries value q.origin.bytes

/-! ## What is known -/

/-- The server, and what was named by a register request that succeeded, and by no register or delete
request since. -/
structure Directory where
  server : Server
  known : Set Naming

/-- Nothing is known. -/
def Directory.begin (record : Record) : Directory := ⟨.begin record, ∅⟩

/-- The record of the server once a request has been received. -/
def Server.received (s : Server) (q : Request) : Record := getAsuiterecord q.data s.record

/-- A register request succeeds: the string at byte 5 is the name of the partner, and there is room. -/
def Accepts (s : Server) (q : Request) : Prop :=
  stringAt (s.received q) 5 = q.origin.bytes ∧ q.room = true

instance (s : Server) (q : Request) : Decidable (Accepts s q) := inferInstanceAs (Decidable (_ ∧ _))

open Classical in
/-- What is known after a request. -/
noncomputable def Directory.learn (d : Directory) (q : Request) : Set Naming :=
  match q.kind with
  | .register =>
    if Accepts d.server q then insert (naming q.parameters) d.known
    else d.known \ {naming q.parameters}
  | .delete => d.known \ {naming q.parameters}
  | .query => d.known

/-- A request is served. -/
noncomputable def Directory.step (d : Directory) (q : Request) : Option Directory := do
  let (server, _) ← serve .little d.server q.conversation
  return ⟨server, d.learn q⟩

/-- Whether a request succeeds. -/
def Directory.Succeeds (d : Directory) (q : Request) : Prop :=
  match q.kind with
  | .register => Accepts d.server q
  | .delete | .query => naming q.parameters ∈ d.known

/-- The return code of a status record -/
def returnCode (data : List UInt8) : Option UInt8 :=
  if data[1]? = some 1 ∧ data[4]? = some anameStatusReturnCode then data[5]? else none

/-- A record is one of a response. -/
def isResponse (data : List UInt8) : Bool := data[1]? == some 5

/-- What is sent says how a request went. -/
def Says (done : Prop) (sent : List (List UInt8)) : Prop :=
  (∃ data ∈ sent, returnCode data ≠ none) ∧
    ∀ data ∈ sent, ∀ rc, returnCode data = some rc → (rc = 0 ↔ done)

/-- The server answers with how the request went, and with a record if it is a query for what is
known. -/
def Answers (d : Directory) (q : Request) : Prop :=
  ∃ served : Served, serve .little d.server q.conversation = some served ∧
    Says (d.Succeeds q) served.2 ∧
    ((∃ data ∈ served.2, isResponse data = true) ↔
      q.kind = .query ∧ naming q.parameters ∈ d.known)

end LinuxSna.Asuite.Names
