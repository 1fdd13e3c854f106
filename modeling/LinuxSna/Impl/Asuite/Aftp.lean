import LinuxSna.Framework.Loop

/-!
# Commands for several files

`a_del` and `a_get` of `aftp.c`: the remote files that match are listed, and the user is asked about
each. What the calls of the library answer is given; that a file could not be deleted or received is
printed and makes no other difference.
-/

namespace LinuxSna.Asuite.Aftp

/-- What `get_action` returns: `A_ACTION_YES` and so on. -/
inductive Action where
  | yes
  | no
  | go
  | quit
  deriving DecidableEq

/-- A question about a file, or the call for it. -/
inductive Event (α : Type) where
  | asked (name : α)
  | called (name : α)
  deriving DecidableEq

/-- What comes of a command: it waits for the server or the user, or it has returned. Memory that
was never allocated cannot be freed, and the program is aborted. -/
inductive Outcome where
  | waits
  | returns
  | aborts
  deriving DecidableEq

/-- Where the data of an element of a list stand: in the array `dir_entry`, or in memory that was
allocated for them. -/
inductive Place where
  | dirEntry
  | heap (n : Nat)
  deriving DecidableEq

/-- The strings at the places. -/
abbrev Memory := Place → List UInt8

/-- What a call of `aftp_dir_read` leaves: a name, `no_more_entries`, or an error. -/
inductive Read where
  | entry (name : List UInt8)
  | noMore
  | failed

/-- What a command depends on. -/
structure Env where
  connected : Bool
  argcnt : Nat
  prompting : Bool
  /-- Whether `aftp_dir_open` returns `AFTP_RC_OK`. -/
  opened : Bool
  reads : List Read
  answers : List Action

/-- The loop that reads the entries. Each is put into `dir_entry`, and it is `dir_entry` that is
appended. -/
def readEntries : List Read → Memory → List Place → Option (Memory × List Place)
  | [], _, _ => none
  | .entry name :: reads, memory, filelist =>
    readEntries reads (fun p => if p = .dirEntry then name else memory p)
      (filelist ++ [.dirEntry])
  | .noMore :: _, memory, filelist => some (memory, filelist)
  | .failed :: _, memory, filelist => some (memory, filelist)

/-- The state of the loop over the files. -/
structure Walk where
  index : List Place
  promptUser : Bool
  answers : List Action
  events : List (Event (List UInt8))

/-- What is done for a file; `moves` says after which actions the loop goes on to the next. -/
def act (memory : Memory) (moves : Action → Bool) (action : Action) (data : Place)
    (rest : List Place) (s : Walk) : Walk ⊕ (List (Event (List UInt8)) × Outcome) :=
  let (action, s) := if action = .go then (.yes, { s with promptUser := false }) else (action, s)
  if action = .quit then .inr (s.events, .returns)
  else
    let s := if action = .yes then { s with events := s.events ++ [Event.called (memory data)] } else s
    .inl { s with index := if moves action then rest else data :: rest }

/-- A pass of the loop. -/
def pass (memory : Memory) (moves : Action → Bool) (s : Walk) :
    Walk ⊕ (List (Event (List UInt8)) × Outcome) :=
  match s.index with
  | [] => .inr (s.events, .returns)
  | data :: rest =>
    if s.promptUser then
      let s := { s with events := s.events ++ [Event.asked (memory data)] }
      match s.answers with
      | [] => .inr (s.events, .waits)
      | action :: answers => act memory moves action data rest { s with answers }
    else act memory moves .yes data rest s

/-- `free_single_list`, once the loop has ended -/
def freeSingleList (filelist : List Place) : Outcome → Outcome
  | .returns => if .dirEntry ∈ filelist then .aborts else .returns
  | outcome => outcome

/-- The command. `none` is a loop that has not ended. -/
def multiple (moves : Action → Bool) (memory : Memory) (e : Env) :
    Option (List (Event (List UInt8)) × Outcome) :=
  if e.connected ∧ e.argcnt = 2 ∧ e.opened then
    match readEntries e.reads memory [] with
    | none => some ([], .waits)
    | some (memory, filelist) => do
      let s : Walk := ⟨filelist, e.prompting, e.answers, []⟩
      let (events, outcome) ←
        Framework.loop (pass memory moves) (filelist.length + e.answers.length + 1) s
      return (events, freeSingleList filelist outcome)
  else some ([], .returns)

/-- `a_del`, where `index` is moved on in the branch for `A_ACTION_YES` -/
def aDel (memory : Memory) (e : Env) : Option (List (Event (List UInt8)) × Outcome) :=
  multiple (fun action => action = .yes) memory e

/-- `a_get` -/
def aGet (memory : Memory) (e : Env) : Option (List (Event (List UInt8)) × Outcome) :=
  multiple (fun _ => true) memory e

end LinuxSna.Asuite.Aftp
