import LinuxSna.Framework.Run
import LinuxSna.Impl.Tn3270d.Server

/-!
# The accounts of a tn3270 server

The list of clients, its counter, the set of descriptors and its counter
(`Accounted`) over whole runs of the server's loop.

* `doitFd_cases`: what handling one descriptor can do: nothing, link a client
  (`link`), or lose one, by closing its session or because its top half
  fails;
* `accounted_link`: linking keeps the accounts;
* `overcounts_drop`: losing a client leaves `client_num` too high, and no
  step brings it down again (`doitFd_loses`, `doit_loses`);
* `accounting_iff`: the accounts are right after a run exactly if the run
  loses no client.
-/

namespace LinuxSna.Tn3270d

open Framework

namespace Server

/-! ## The accounts -/

/-- The counters agree with what they count, and the set holds the sockets and
the descriptors of the linked clients. -/
structure Accounted (s : Server) : Prop where
  clientNum : s.clientNum = s.clientList.length
  openFds : s.openFds = s.allFds.card
  allFds (fd : Nat) : fd ∈ s.allFds ↔ s.isOpen fd

/-- Without clients, and with a limit that allows one, a new client is linked. -/
def Admits (s : Server) : Prop :=
  s.clientList = [] → 1 ≤ s.limit → ∀ fd topHalf, 0 ≤ topHalf →
    (s.acceptNewClient (.accepted fd topHalf)).1 = 0 ∧
    (s.acceptNewClient (.accepted fd topHalf)).2.clientList = [⟨fd⟩]

theorem Accounted.admits {s : Server} (h : s.Accounted) : s.Admits := by
  intro hnil hlimit fd topHalf htop
  have hnum : s.clientNum = 0 := by rw [h.clientNum, hnil, List.length_nil]
  have h₁ : ¬ (s.clientNum : Int) + 1 > s.limit := by
    rw [hnum]
    omega
  simp [acceptNewClient, h₁, Int.not_lt.mpr htop, countAndSetFds, hnil]

theorem accounted_start (limit : Int) (l : Listening) : (start limit l).Accounted where
  clientNum := rfl
  openFds := by
    have := l.ne.symm
    simp [start, countAndSetFds, this]
  allFds fd := by
    simp only [start, countAndSetFds, isOpen, Finset.mem_insert, Finset.notMem_empty, List.not_mem_nil]
    tauto

/-! ## Handling one descriptor -/

/-- A server with one more client, after `tn3270_accept_new_client`. -/
def link (s : Server) (fd : Nat) : Server :=
  let client : Client := ⟨fd⟩
  let s := { s with clientList := s.clientList ++ [client] }
  let s := s.countAndSetFds fd
  { s with clientNum := s.clientNum + 1 }

/-- A server whose new client was dropped again, its top half having failed. -/
def dropNew (s : Server) (fd : Nat) : Server :=
  { s.link fd with clientList := (s.link fd).clientList.erase (Client.mk fd) }

/-- Handling this descriptor loses no client: if a connection is accepted its
top half succeeds, and no client's bottom half reports it gone. -/
def Harmless (accept : Accept) (bottomHalf : Nat → Int) (s : Server) (i : Nat) : Prop :=
  if i = s.listening.clientSock then
    ∀ fd topHalf, accept = .accepted fd topHalf → (s.clientNum : Int) + 1 ≤ s.limit → 0 ≤ topHalf
  else i = s.listening.manageSock ∨ clientFindByFd s.clientList i = none ∨
    bottomHalf i ≠ -econnaborted

/-- What handling a descriptor can do. -/
theorem doitFd_cases {s s' : Server} {accept : Accept} {bottomHalf : Nat → Int} {i : Nat}
    (h : s.doitFd accept (bottomHalf i) i = some s') :
    (Harmless accept bottomHalf s i ∧ (s' = s ∨ ∃ fd, ¬ s.isOpen fd ∧ s' = s.link fd)) ∨
    (¬ Harmless accept bottomHalf s i ∧
      ((∃ fd, s' = s.dropNew fd) ∨ ∃ c ∈ s.clientList, s' = s.closeSession c)) := by
  unfold doitFd at h
  split at h
  · rename_i hi
    split at h
    · rename_i hp
      obtain rfl := Option.some.inj h
      rcases accept with _ | _ | ⟨fd, topHalf⟩
      · exact Or.inl ⟨by simp [Harmless, hi], Or.inl rfl⟩
      · exact Or.inl ⟨by simp [Harmless, hi], Or.inl rfl⟩
      · by_cases hlimit : (s.clientNum : Int) + 1 > s.limit
        · refine Or.inl ⟨?_, Or.inl (by simp [acceptNewClient, hlimit])⟩
          simp only [Harmless, hi, ↓reduceIte]
          intro _ _ _ hle
          omega
        by_cases htop : topHalf < 0
        · refine Or.inr ⟨fun hh => ?_, Or.inl ⟨fd, ?_⟩⟩
          · simp only [Harmless, hi, ↓reduceIte] at hh
            have := hh fd topHalf rfl (by omega)
            omega
          · simp only [acceptNewClient, hlimit, htop, ↓reduceIte, dropNew, link]
        · refine Or.inl ⟨?_, Or.inr ⟨fd, hp, by simp [acceptNewClient, hlimit, htop, link]⟩⟩
          simp only [Harmless, hi, ↓reduceIte]
          rintro _ _ ⟨⟩ _
          omega
    · cases h
  · rename_i hi
    split at h
    · rename_i hm
      refine Or.inl ⟨?_, Or.inl (Option.some.inj h).symm⟩
      rw [Harmless, if_neg hi]
      exact Or.inl hm
    · rename_i hm
      split at h
      · rename_i c hc
        split at h
        · rename_i hb
          refine Or.inr ⟨by simp [Harmless, hi, hm, hc, hb], Or.inr ⟨c, ?_, (Option.some.inj h).symm⟩⟩
          exact List.mem_of_find?_eq_some hc
        · rename_i hb
          exact Or.inl ⟨by simp [Harmless, hi, hb], Or.inl (Option.some.inj h).symm⟩
      · rename_i hc
        exact Or.inl ⟨by simp [Harmless, hi, hc], Or.inl (Option.some.inj h).symm⟩

theorem accounted_link {s : Server} (h : s.Accounted) {fd : Nat} (hfd : ¬ s.isOpen fd) :
    (s.link fd).Accounted where
  clientNum := by simp [link, countAndSetFds, h.clientNum]
  openFds := by
    have hmem : fd ∉ s.allFds := fun hm => hfd ((h.allFds fd).mp hm)
    simp [link, countAndSetFds, h.openFds, Finset.card_insert_of_notMem hmem]
  allFds i := by
    simp only [link, countAndSetFds, Finset.mem_insert, h.allFds i, isOpen, List.mem_append,
      List.mem_singleton]
    constructor
    · rintro (rfl | hi | hi | ⟨c, hc, hi⟩)
      · exact Or.inr (Or.inr ⟨⟨i⟩, Or.inr rfl, rfl⟩)
      · exact Or.inl hi
      · exact Or.inr (Or.inl hi)
      · exact Or.inr (Or.inr ⟨c, Or.inl hc, hi⟩)
    · rintro (hi | hi | ⟨c, hc | rfl, hi⟩)
      · exact Or.inr (Or.inl hi)
      · exact Or.inr (Or.inr (Or.inl hi))
      · exact Or.inr (Or.inr (Or.inr ⟨c, hc, hi⟩))
      · exact Or.inl hi.symm

/-! ## Losing a client -/

/-- `client_num` counts clients that are not linked. -/
def Overcounts (s : Server) : Prop := s.clientList.length < s.clientNum

theorem Overcounts.not_accounted {s : Server} (h : s.Overcounts) : ¬ s.Accounted := fun ha => by
  rw [Overcounts, ha.clientNum] at h
  omega

theorem overcounts_drop {s : Server} (h : s.clientList.length ≤ s.clientNum) (fd : Nat) :
    (s.dropNew fd).Overcounts := by
  have hmem : Client.mk fd ∈ (s.link fd).clientList := by simp [link, countAndSetFds]
  have hlen : (s.link fd).clientList.length = s.clientList.length + 1 := by
    simp [link, countAndSetFds]
  change ((s.link fd).clientList.erase _).length < s.clientNum + 1
  rw [List.length_erase_of_mem hmem, hlen]
  omega

theorem overcounts_closeSession {s : Server} (h : s.clientList.length ≤ s.clientNum) {c : Client}
    (hc : c ∈ s.clientList) : (s.closeSession c).Overcounts := by
  have hpos := List.length_pos_of_mem hc
  simp only [Overcounts, closeSession, countAndClearFds, List.length_erase_of_mem hc]
  omega

/-- Handling a descriptor keeps the accounts if it is harmless, and spoils
them for good if it is not. -/
theorem doitFd_loses (accept : Accept) (bottomHalf : Nat → Int) :
    Loses (fun s i => s.doitFd accept (bottomHalf i) i) (Harmless accept bottomHalf)
      Accounted Overcounts where
  good s i s' hs hG h := by
    rcases doitFd_cases h with ⟨-, rfl | ⟨fd, hfd, rfl⟩⟩ | ⟨hn, -⟩
    · exact hs
    · exact accounted_link hs hfd
    · exact absurd hG hn
  bad s i s' hs hG h := by
    rcases doitFd_cases h with ⟨hh, -⟩ | ⟨-, ⟨fd, rfl⟩ | ⟨c, hc, rfl⟩⟩
    · exact absurd hh hG
    · exact overcounts_drop (Nat.le_of_eq hs.clientNum.symm) fd
    · exact overcounts_closeSession (Nat.le_of_eq hs.clientNum.symm) hc
  lost s i s' hs h := by
    rcases doitFd_cases h with ⟨-, rfl | ⟨fd, -, rfl⟩⟩ | ⟨-, ⟨fd, rfl⟩ | ⟨c, hc, rfl⟩⟩
    · exact hs
    · simp only [Overcounts, link, countAndSetFds, List.length_append, List.length_singleton] at hs ⊢
      omega
    · exact overcounts_drop (Nat.le_of_lt hs) fd
    · exact overcounts_closeSession (Nat.le_of_lt hs) hc
  ne _ := Overcounts.not_accounted

/-! ## Runs of the loop -/

/-- A pass of the loop loses no client: every descriptor it handles is
harmless in the state in which it is handled. -/
def LosesNone (s : Server) : Event → Prop
  | .timeout | .selectFailed => True
  | .readable fds accept bottomHalf =>
    Along (fun s i => s.doitFd accept (bottomHalf i) i) (Harmless accept bottomHalf) s fds

theorem doit_loses : Loses doit LosesNone Accounted Overcounts where
  good s e s' hs hG h := by
    rcases e with _ | _ | ⟨fds, accept, bottomHalf⟩
    · cases h
      exact hs
    · cases h
      exact hs
    · simp only [doit, Option.ite_none_right_eq_some] at h
      exact (doitFd_loses accept bottomHalf).run_good hs hG h.2
  bad s e s' hs hG h := by
    rcases e with _ | _ | ⟨fds, accept, bottomHalf⟩
    · exact absurd trivial hG
    · exact absurd trivial hG
    · simp only [doit, Option.ite_none_right_eq_some] at h
      exact (doitFd_loses accept bottomHalf).run_bad hs hG h.2
  lost s e s' hs h := by
    rcases e with _ | _ | ⟨fds, accept, bottomHalf⟩
    · cases h
      exact hs
    · cases h
      exact hs
    · simp only [doit, Option.ite_none_right_eq_some] at h
      exact run_invariant' (doitFd_loses accept bottomHalf).lost hs h.2
  ne _ := Overcounts.not_accounted

/-- After a run of the server the accounts are right, and a server without
clients accepts one, exactly if no pass of the run lost a client. -/
theorem accounting_iff {limit : Int} {l : Listening} {es : List Event} {s : Server}
    (h : run doit (start limit l) es = some s) :
    (s.Accounted ∧ s.Admits) ↔ Along doit LosesNone (start limit l) es := by
  rw [← doit_loses.run_iff (accounted_start limit l) h]
  exact ⟨And.left, fun ha => ⟨ha, ha.admits⟩⟩

/-- A client is accepted in a run that loses none. -/
theorem accounting_one :
    ((start 1 ⟨3, 4, by decide⟩).link 5).Accounted ∧ ((start 1 ⟨3, 4, by decide⟩).link 5).Admits := by
  refine (@accounting_iff 1 ⟨3, 4, by decide⟩ [.readable [3] (.accepted 5 0) fun _ => 0] _
    (by decide)).mpr
    ⟨⟨?_, fun _ _ => trivial⟩, fun _ _ => trivial⟩
  change ∀ fd topHalf, _
  rintro _ _ ⟨⟩ _
  decide

/-- A client connects to a server with a limit of one and goes away again; the
next client is refused although there is none. -/
theorem client_refused :
    ∃ s, run doit (start 1 ⟨3, 4, by decide⟩) [.readable [3] (.accepted 5 0) fun _ => 0,
        .readable [5] .noMemory fun _ => -econnaborted] = some s ∧
      s.clientList = [] ∧ s.clientNum = 1 ∧ s.acceptNewClient (.accepted 5 0) = (-eusers, s) ∧
      ¬ s.Accounted := by
  refine ⟨_, rfl, by decide, by decide, by decide, fun h => ?_⟩
  exact absurd h.clientNum (by decide)

end Server

end LinuxSna.Tn3270d
