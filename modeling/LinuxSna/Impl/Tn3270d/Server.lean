import Mathlib

/-!
# The connections of a tn3270 server

`tn3270_daemon.c`: how `tn3270_server_doit` keeps account of its clients. A
client is its descriptor here: what its telnet stream and its LU session do
reaches this code through the results of the top and the bottom half only, and
these are parameters, as is what the kernel returns. Descriptors and counters
are natural numbers, an `fd_set` is the set of descriptors in it, and the limit
of the configuration may be any `int`.
-/

namespace LinuxSna.Tn3270d

/-- `client_t` -/
structure Client where
  fd : Nat
  deriving DecidableEq

/-- The sockets for clients and for management, two open descriptors. -/
structure Listening where
  clientSock : Nat
  manageSock : Nat
  ne : clientSock ≠ manageSock
  deriving DecidableEq

/-- `server_info` -/
structure Server where
  limit : Int
  listening : Listening
  clientList : List Client
  clientNum : Nat
  allFds : Finset Nat
  openFds : Nat
  wmarkFd : Nat
  highestFd : Nat
  deriving DecidableEq

namespace Server

/-- `tn3270_server_count_and_set_fds` -/
def countAndSetFds (s : Server) (fd : Nat) : Server :=
  { s with
    openFds := s.openFds + 1
    wmarkFd := if s.openFds + 1 > s.wmarkFd then s.openFds + 1 else s.wmarkFd
    allFds := insert fd s.allFds
    highestFd := if fd > s.highestFd then fd else s.highestFd }

/-- `tn3270_server_count_and_clear_fds` -/
def countAndClearFds (s : Server) (fd : Nat) : Server :=
  { s with openFds := s.openFds - 1, allFds := s.allFds.erase fd }

/-- `tn3270_client_find_by_fd` -/
def clientFindByFd (list : List Client) (fd : Nat) : Option Client := list.find? (·.fd = fd)

/-- The descriptors that are open: the sockets and those of linked clients.
The kernel gives out none of these. -/
def isOpen (s : Server) (fd : Nat) : Prop :=
  fd = s.listening.clientSock ∨ fd = s.listening.manageSock ∨ ∃ c ∈ s.clientList, c.fd = fd

instance (s : Server) (fd : Nat) : Decidable (s.isOpen fd) :=
  inferInstanceAs (Decidable (_ ∨ _ ∨ _))

/-- `tn3270_close_session`, the descriptor and the list. -/
def closeSession (s : Server) (client : Client) : Server :=
  let s := s.countAndClearFds client.fd
  { s with clientList := s.clientList.erase client }

end Server

/-- What `tn3270_accept_new_client` meets: no memory, an error of `accept`, or
a descriptor and what the top half will return for it. -/
inductive Accept where
  | noMemory
  | failed
  | accepted (fd : Nat) (topHalf : Int)

def enomem : Int := 12
def einval : Int := 22
def eusers : Int := 87
def econnaborted : Int := 103

namespace Server

/-- `tn3270_accept_new_client` -/
def acceptNewClient (s : Server) : Accept → Int × Server
  | .noMemory => (-enomem, s)
  | .failed => (-einval, s)
  | .accepted fd topHalf =>
    let client : Client := ⟨fd⟩
    if (s.clientNum : Int) + 1 > s.limit then (-eusers, s)
    else
      let s := { s with clientList := s.clientList ++ [client] }
      let s := s.countAndSetFds client.fd
      let s := { s with clientNum := s.clientNum + 1 }
      if topHalf < 0 then (0, { s with clientList := s.clientList.erase client })
      else (0, s)

/-- The server as `tn3270_server_doit` enters its loop. -/
def start (limit : Int) (listening : Listening) : Server :=
  let s : Server :=
    { limit := limit, listening := listening, clientList := [], clientNum := 0, allFds := ∅,
      openFds := 0, wmarkFd := 0, highestFd := 0 }
  (s.countAndSetFds listening.clientSock).countAndSetFds listening.manageSock

/-- The kernel accepts a connection on a descriptor that is not open. -/
def Possible (s : Server) : Accept → Prop
  | .accepted fd _ => ¬ s.isOpen fd
  | _ => True

instance (s : Server) : (a : Accept) → Decidable (s.Possible a)
  | .accepted fd _ => inferInstanceAs (Decidable (¬ s.isOpen fd))
  | .noMemory => inferInstanceAs (Decidable True)
  | .failed => inferInstanceAs (Decidable True)

/-- The body of the loop of `tn3270_server_doit` over the descriptors, for one
that is readable; `none` where the kernel cannot accept like this. -/
def doitFd (s : Server) (accept : Accept) (bottomHalf : Int) (i : Nat) : Option Server :=
  if i = s.listening.clientSock then
    if s.Possible accept then some (s.acceptNewClient accept).2 else none
  else if i = s.listening.manageSock then some s
  else
    match clientFindByFd s.clientList i with
    | some client => if bottomHalf = -econnaborted then some (s.closeSession client) else some s
    | none => some s

end Server

/-- What a pass of the loop of `tn3270_server_doit` meets: `select` times out
or fails, or descriptors are readable. With them comes what an `accept` and the
bottom half of each client will return. -/
inductive Event where
  | timeout
  | selectFailed
  | readable (fds : List Nat) (accept : Accept) (bottomHalf : Nat → Int)

/-- One pass of the loop of `tn3270_server_doit`. The descriptors that `select`
reports are in the set, and the pass handles them in order, from 3 on. -/
def Server.doit (s : Server) : Event → Option Server
  | .timeout | .selectFailed => some s
  | .readable fds accept bottomHalf =>
    if fds.Pairwise (· < ·) ∧ ∀ i ∈ fds, 3 ≤ i ∧ i ∈ s.allFds then
      fds.foldlM (fun s i => s.doitFd accept (bottomHalf i) i) s
    else none

end LinuxSna.Tn3270d
