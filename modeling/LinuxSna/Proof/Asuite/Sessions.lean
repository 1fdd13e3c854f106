import LinuxSna.Framework.Run
import LinuxSna.Spec.Aftp

/-!
# The table of sessions

A slot is never emptied, and never used again.

* `Sound`: the live handles lead to sessions of their own;
* `right_of_meets`, `meets_of_right`: one call;
* `sessions_iff`: runs of calls.
-/

namespace LinuxSna.Asuite.Sessions

open Framework Ftp

variable {R : Type}

/-- The return code that an operation leaves of a session is not that of a handle that is not valid:
neither does the conversation make this one, nor does the caller have it where none is set. -/
def Operation.Tells (rc : Nat) (session : Ftpsession R) : Operation R → Prop
  | .remote _ talk => (talk session).1.getD rc ≠ rcHandleNotValid
  | .set (.securityType _) | .set (.writeMode _) | .formatError | .localChangeDir false _
  | .queryLocalSystemInfo => rc ≠ rcHandleNotValid
  | _ => True

/-- The directory of the process is known where a session is made, and the return codes of the
conversation and of the caller are not that of a handle that is not valid. -/
def Event.Usual : Event R → Prop
  | create block record getcwd => block ≠ none → record = true → getcwd ≠ none
  | destroy _ => True
  | call operation _ rc => ∀ session, operation.Tells rc session

/-- A call that is right. For a session there is no memory at all, or there is a slot, and memory for its
record and its directory. A handle is live, or has never been given out; in the latter case the
function refuses it with `AFTP_RC_HANDLE_NOT_VALID`. -/
def Meets (l : Ledger R) : Event R → Prop
  | .create block record getcwd => block = none ∨
      (l.process.counter.toNat < maxFtpSessions ∧ record = true ∧ getcwd ≠ none)
  | .destroy handle => handle ∈ l.live ∨ l.process.counter ≤ handle
  | .call operation handle rc =>
    (handle ∈ l.live ∧
      ∀ p session, l.process.follow handle.toNat = some (p, session) →
        operation.Tells rc session) ∨
    (l.process.counter ≤ handle ∧ operation.check = .refuses rcHandleNotValid)

/-- The slots below the counter are taken, and the live handles lead to sessions of their own. -/
structure Sound (l : Ledger R) : Prop where
  counter : l.process.counter.toNat ≤ maxFtpSessions
  slots : ∀ i, l.process.sessions i ≠ none ↔ i < l.process.counter.toNat
  below : ∀ h ∈ l.live, h < l.process.counter
  session : ∀ h ∈ l.live, ∃ p session, l.process.follow h.toNat = some (p, session)
  apart : ∀ h ∈ l.live, ∀ h' ∈ l.live,
    l.process.sessions h.toNat = l.process.sessions h'.toNat → h = h'

/-! ## The table -/

section Table

variable {s : Process R} {index p : Nat} {session : Ftpsession R}

theorem Process.follow_eq_some : s.follow index = some (p, session) ↔
    index < maxFtpSessions ∧ s.sessions index = some p ∧ s.heap.get p = some session := by
  rw [follow]
  split_ifs with hlt
  · rw [and_iff_right hlt]
    simp only [Option.bind_eq_bind, Option.bind_eq_some_iff, pure, Option.some.injEq,
      Prod.mk.injEq]
    constructor
    · rintro ⟨p', hp', session', hsession', rfl, rfl⟩
      exact ⟨hp', hsession'⟩
    · rintro ⟨hp, hsession⟩
      exact ⟨p, hp, session, hsession, rfl, rfl⟩
  · exact iff_of_false (by simp) fun h => hlt h.1

theorem Process.has_of_follow (h : s.follow index = some (p, session)) : s.Has index := by
  obtain ⟨hlt, hp, _⟩ := follow_eq_some.mp h
  exact ⟨hlt, by rw [hp]; simp⟩

end Table

/-- The process with one session more, in the next slot. -/
def Process.made (s : Process R) (block : Block R) (directory : List UInt8) : Process R where
  counter := s.counter + 1
  sessions := Function.update s.sessions s.counter.toNat (some (s.heap.fresh block.hint))
  heap := s.heap.put (s.heap.fresh block.hint) (some (block.memory.create directory))

theorem aftpCreate_eq {s : Process R} (block : Block R) (directory : List UInt8)
    (hcounter : s.counter.toNat < maxFtpSessions) :
    s.aftpCreate (some block) true (some directory) =
      some ⟨rcOk, some s.counter, s.made block directory⟩ := by
  simp only [Process.aftpCreate, if_pos hcounter, if_true]
  rfl

theorem sound_begin : Sound (Ledger.begin R) where
  counter := Nat.zero_le _
  slots i := iff_of_false (not_not.mpr rfl) (Nat.not_lt_zero i)
  below h hlive := absurd hlive (Set.notMem_empty h)
  session h hlive := absurd hlive (Set.notMem_empty h)
  apart h hlive := absurd hlive (Set.notMem_empty h)

section Sound

variable {l : Ledger R} (hsound : Sound l) {handle : UInt8}

include hsound

/-- A handle that has never been given out is not live, and has no slot. -/
theorem Sound.never (h : l.process.counter ≤ handle) :
    handle ∉ l.live ∧ ¬ l.process.Has handle.toNat := by
  constructor
  · exact fun hlive => absurd (hsound.below handle hlive) (UInt8.not_lt.mpr h)
  · exact fun hhas => absurd ((hsound.slots _).mp hhas.2) (Nat.not_lt.mpr (UInt8.le_iff_toNat_le.mp h))

/-- A handle that was given out has its slot. -/
theorem Sound.has (h : handle < l.process.counter) : l.process.Has handle.toNat := by
  have hlt := UInt8.lt_iff_toNat_lt.mp h
  exact ⟨hlt.trans_le hsound.counter, (hsound.slots _).mpr hlt⟩

/-- What is stored for one live handle is not seen by the others. -/
theorem Sound.follow_put {p : Nat} {session : Ftpsession R} (hlive : handle ∈ l.live)
    (hfollow : l.process.follow handle.toNat = some (p, session)) (x : Option (Ftpsession R))
    {other : UInt8} (hother : other ∈ l.live) (hne : other ≠ handle) :
    Process.follow { l.process with heap := l.process.heap.put p x } other.toNat =
      l.process.follow other.toNat := by
  obtain ⟨p', session', hfollow'⟩ := hsound.session other hother
  rw [hfollow']
  obtain ⟨_, hp, hget⟩ := Process.follow_eq_some.mp hfollow
  obtain ⟨hlt', hp', hget'⟩ := Process.follow_eq_some.mp hfollow'
  have hp_ne : p' ≠ p := by
    rintro rfl
    exact hne (hsound.apart other hother handle hlive (hp'.trans hp.symm))
  refine Process.follow_eq_some.mpr ⟨hlt', hp', ?_⟩
  rw [Heap.get_put_ne (Heap.le_of_get (by rw [hget]; simp)) hp_ne]
  exact hget'

/-- The sessions are kept apart where the block of one is stored again. -/
theorem Sound.store {p : Nat} {session : Ftpsession R} (hlive : handle ∈ l.live)
    (hfollow : l.process.follow handle.toNat = some (p, session)) (session' : Ftpsession R) :
    Sound ⟨{ l.process with heap := l.process.heap.put p (some session') }, l.live⟩ where
  counter := hsound.counter
  slots := hsound.slots
  below := hsound.below
  session h hlive' := by
    by_cases hne : h = handle
    · subst hne
      obtain ⟨hlt, hp, hget⟩ := Process.follow_eq_some.mp hfollow
      refine ⟨p, session', Process.follow_eq_some.mpr ⟨hlt, hp, ?_⟩⟩
      exact Heap.get_put_self (Heap.le_of_get (by rw [hget]; simp))
    · rw [hsound.follow_put hlive hfollow (some session') hlive' hne]
      exact hsound.session h hlive'
  apart := hsound.apart

/-- The others are kept apart where the block of one is freed. -/
theorem Sound.free {p : Nat} {session : Ftpsession R} (hlive : handle ∈ l.live)
    (hfollow : l.process.follow handle.toNat = some (p, session)) :
    Sound ⟨{ l.process with heap := l.process.heap.put p none }, l.live \ {handle}⟩ where
  counter := hsound.counter
  slots := hsound.slots
  below h hlive' := hsound.below h hlive'.1
  session h hlive' := by
    rw [hsound.follow_put hlive hfollow none hlive'.1 hlive'.2]
    exact hsound.session h hlive'.1
  apart h hlive' h' hlive'' := hsound.apart h hlive'.1 h' hlive''.1

variable (block : Block R) (directory : List UInt8)

/-- The session that is made does not touch the others. -/
theorem Sound.follow_made {other : UInt8} (hother : other ∈ l.live) :
    (l.process.made block directory).follow other.toNat = l.process.follow other.toNat := by
  obtain ⟨p, session, hfollow⟩ := hsound.session other hother
  obtain ⟨hlt, hp, hget⟩ := Process.follow_eq_some.mp hfollow
  have hslot : other.toNat ≠ l.process.counter.toNat :=
    (UInt8.lt_iff_toNat_lt.mp (hsound.below other hother)).ne
  have hfresh : p ≠ l.process.heap.fresh block.hint := by
    rintro rfl
    rw [Heap.get_fresh] at hget
    exact absurd hget (by simp)
  rw [hfollow]
  refine Process.follow_eq_some.mpr ⟨hlt, ?_, ?_⟩
  · exact (Function.update_of_ne hslot _ _).trans hp
  · exact (Heap.get_put_ne (Heap.fresh_le _) hfresh).trans hget

/-- The session that is made is kept apart from the others. -/
theorem Sound.made (hcounter : l.process.counter.toNat < maxFtpSessions) :
    Sound ⟨l.process.made block directory, l.live ∪ {h | some l.process.counter = some h}⟩ := by
  have hmade : (l.process.made block directory).follow l.process.counter.toNat =
      some (l.process.heap.fresh block.hint, block.memory.create directory) :=
    Process.follow_eq_some.mpr
      ⟨hcounter, Function.update_self .., Heap.get_put_self (Heap.fresh_le _)⟩
  have hnext : (l.process.made block directory).counter.toNat = l.process.counter.toNat + 1 := by
    have hmax : maxFtpSessions = 20 := rfl
    show (l.process.counter + 1).toNat = _
    rw [UInt8.toNat_add]
    exact Nat.mod_eq_of_lt (show l.process.counter.toNat + 1 < 2 ^ 8 by omega)
  have hslot {other : UInt8} (hother : other ∈ l.live) :
      (l.process.made block directory).sessions other.toNat = l.process.sessions other.toNat :=
    Function.update_of_ne (UInt8.lt_iff_toNat_lt.mp (hsound.below other hother)).ne _ _
  have hapart {other : UInt8} (hother : other ∈ l.live) :
      (l.process.made block directory).sessions other.toNat ≠
        (l.process.made block directory).sessions l.process.counter.toNat := by
    obtain ⟨p, session, hfollow⟩ := hsound.session other hother
    obtain ⟨_, hp, hget⟩ := Process.follow_eq_some.mp hfollow
    rw [hslot hother, hp, (Process.follow_eq_some.mp hmade).2.1]
    intro heq
    rw [Option.some.inj heq, Heap.get_fresh] at hget
    exact absurd hget (by simp)
  refine ⟨?_, fun i => ?_, ?_, ?_, ?_⟩
  · rw [hnext]
    exact hcounter
  · rw [hnext]
    show Function.update l.process.sessions l.process.counter.toNat
      (some (l.process.heap.fresh block.hint)) i ≠ none ↔ _
    by_cases hi : i = l.process.counter.toNat
    · subst hi
      rw [Function.update_self]
      exact iff_of_true (by simp) (Nat.lt_succ_self _)
    · rw [Function.update_of_ne hi, hsound.slots i]
      omega
  · rintro h (hlive | heq)
    · refine UInt8.lt_iff_toNat_lt.mpr ?_
      rw [hnext]
      exact Nat.lt_succ_of_lt (UInt8.lt_iff_toNat_lt.mp (hsound.below h hlive))
    · obtain rfl := Option.some.inj heq
      refine UInt8.lt_iff_toNat_lt.mpr ?_
      rw [hnext]
      exact Nat.lt_succ_self _
  · rintro h (hlive | heq)
    · rw [hsound.follow_made block directory hlive]
      exact hsound.session h hlive
    · obtain rfl := Option.some.inj heq
      exact ⟨_, _, hmade⟩
  · rintro h (hlive | heq) h' (hlive' | heq') hsame
    · rw [hslot hlive, hslot hlive'] at hsame
      exact hsound.apart h hlive h' hlive' hsame
    · obtain rfl := Option.some.inj heq'
      exact absurd hsame (hapart hlive)
    · obtain rfl := Option.some.inj heq
      exact absurd hsame.symm (hapart hlive')
    · exact (Option.some.inj heq).symm.trans (Option.some.inj heq')

end Sound

/-! ## Return codes -/

theorem setName_ne (size : Nat) (name : List UInt8) (f : Settings → Settings) (s : Settings)
    (rc : Nat) : (setName size name f s).1.getD rc ≠ rcHandleNotValid := by
  rw [setName]
  split_ifs
  · exact show rcOk ≠ rcHandleNotValid by decide
  · exact show rcParameterCheck ≠ rcHandleNotValid by decide

/-- The setters for security and for the write mode leave the return code as it is. -/
theorem Setter.tells_iff (f : Setter) (rc : Nat) (session : Ftpsession R) :
    (f.run session.settings).1.getD rc ≠ rcHandleNotValid ↔
      (Operation.set f).Tells rc session := by
  cases f with
  | destination name =>
    refine iff_of_true ?_ trivial
    simp only [Setter.run]
    split_ifs
    · exact setName_ne _ _ _ _ _
    · exact setName_ne _ _ _ _ _
  | modeName name => exact iff_of_true (setName_ne 8 name _ _ rc) trivial
  | password name => exact iff_of_true (setName_ne 10 name _ _ rc) trivial
  | tpName name => exact iff_of_true (setName_ne 64 name _ _ rc) trivial
  | userid name => exact iff_of_true (setName_ne 10 name _ _ rc) trivial
  | securityType n => exact Iff.rfl
  | writeMode n => exact Iff.rfl
  | _ => exact iff_of_true (show rcOk ≠ rcHandleNotValid by decide) trivial

theorem extractName_ne (size : Nat) (name : List UInt8) :
    extractName size name ≠ rcHandleNotValid := by
  rw [extractName]
  split_ifs
  · decide
  · decide
  · decide

theorem Extract.run_ne (f : Extract) (s : Settings) : f.run s ≠ rcHandleNotValid := by
  cases f with
  | number => exact show rcOk ≠ rcHandleNotValid by decide
  | _ => exact extractName_ne _ _

theorem Heedless.rc_ne (f : Heedless) : f.rc ≠ rcHandleNotValid := by
  cases f <;> decide

/-- The return code of an operation on a session is that of a handle that is not valid only where it
says so. -/
theorem tells_iff {operation : Operation R} (hcheck : ∀ rc, operation.check ≠ .ignores rc)
    (rc : Nat) (session : Ftpsession R) :
    (operation.run session).1.getD rc ≠ rcHandleNotValid ↔ operation.Tells rc session := by
  have hok : rcOk ≠ rcHandleNotValid := by decide
  cases operation with
  | set f => exact f.tells_iff rc session
  | extract f => exact iff_of_true (f.run_ne _) trivial
  | remote f talk => exact Iff.rfl
  | heedless f => exact absurd rfl (hcheck f.rc)
  | formatError => exact Iff.rfl
  | localChangeDir chdir getcwd =>
    cases chdir with
    | false => exact Iff.rfl
    | true =>
      cases getcwd with
      | none => exact iff_of_true (show rcFailFatal ≠ rcHandleNotValid by decide) trivial
      | some directory => exact iff_of_true hok trivial
  | localQueryCurrentDir => exact iff_of_true hok trivial
  | queryLocalSystemInfo => exact Iff.rfl

/-- The return code of a function that does not look at its handle. -/
theorem ignores_ne {operation : Operation R} {rc : Nat} (h : operation.check = .ignores rc) :
    rc ≠ rcHandleNotValid := by
  cases operation with
  | heedless f =>
    obtain rfl : f.rc = rc := Check.ignores.inj h
    exact f.rc_ne
  | _ => exact absurd h (by simp [Operation.check])

/-! ## Calls -/

section Calls

variable {l : Ledger R} {handle : UInt8}

theorem use_eq (operation : Operation R) (rc : Nat) {p : Nat} {session : Ftpsession R}
    (h : l.process.follow handle.toNat = some (p, session)) :
    l.process.use operation handle rc = some ⟨(operation.run session).1.getD rc, none,
      { l.process with heap := l.process.heap.put p (some (operation.run session).2) }⟩ := by
  rw [Process.use, h]
  rfl

theorem use_none (operation : Operation R) (rc : Nat)
    (h : l.process.follow handle.toNat = none) : l.process.use operation handle rc = none := by
  rw [Process.use, h]
  rfl

/-- A handle that leads to a session is accepted where the operation does not say otherwise. -/
theorem call_follow (operation : Operation R) (rc : Nat) {p : Nat} {session : Ftpsession R}
    (h : l.process.follow handle.toNat = some (p, session)) (htells : operation.Tells rc session) :
    ∃ rc' process, l.process.call operation handle rc = some ⟨rc', none, process⟩ ∧
      rc' ≠ rcHandleNotValid ∧
      (process = l.process ∨ ∃ session', process =
        { l.process with heap := l.process.heap.put p (some session') }) := by
  have huse := use_eq operation rc h
  rw [Process.call]
  cases hcheck : operation.check with
  | refuses refusal =>
    have hne := (tells_iff (by simp [hcheck]) rc session).mpr htells
    simp only [if_pos (Process.has_of_follow h)]
    exact ⟨_, _, huse, hne, Or.inr ⟨_, rfl⟩⟩
  | follows =>
    have hne := (tells_iff (by simp [hcheck]) rc session).mpr htells
    exact ⟨_, _, huse, hne, Or.inr ⟨_, rfl⟩⟩
  | ignores rc' => exact ⟨_, _, rfl, ignores_ne hcheck, Or.inl rfl⟩

/-- A handle without a slot is refused only by a function that says so. -/
theorem call_never (operation : Operation R) (rc : Nat) (h : ¬ l.process.Has handle.toNat) :
    l.process.call operation handle rc =
      match operation.check with
      | .refuses refusal => some ⟨refusal, none, l.process⟩
      | .follows => none
      | .ignores rc => some ⟨rc, none, l.process⟩ := by
  rw [Process.call]
  cases operation.check with
  | refuses refusal => exact if_neg h
  | follows =>
    apply use_none
    by_contra hfollow
    obtain ⟨⟨p, session⟩, hfollow⟩ := Option.ne_none_iff_exists'.mp hfollow
    exact h (Process.has_of_follow hfollow)
  | ignores rc => rfl

end Calls

/-! ## Runs -/

section Runs

variable {l l' : Ledger R} {e : Event R}

theorem Ledger.step_eq {o : Outcome R} (h : l.process.step e = some o) (hstep : l.step e = some l') :
    l' = ⟨o.process, e.leaves l.live o⟩ := by
  rw [Ledger.step, h] at hstep
  exact (Option.some.inj hstep).symm

/-- What a call that meets the condition does. -/
theorem right_of_meets (hsound : Sound l) (h : Meets l e) :
    Right l e ∧ ∀ l', l.step e = some l' → Sound l' := by
  cases e with
  | create block record getcwd =>
    obtain rfl | ⟨hcounter, rfl, hcwd⟩ := h
    · have hstep : l.process.step (.create none record getcwd) =
        some ⟨rcFailFatal, none, l.process⟩ := rfl
      refine ⟨⟨_, hstep, fun _ _ _ => rfl, ?_⟩, fun l' hl' => ?_⟩
      · exact ⟨rfl, rfl⟩
      · rw [Ledger.step_eq hstep hl']
        exact hsound
    · obtain ⟨directory, rfl⟩ := Option.ne_none_iff_exists'.mp hcwd
      cases block with
      | none =>
        have hstep : l.process.step (.create none true (some directory)) =
          some ⟨rcFailFatal, none, l.process⟩ := rfl
        refine ⟨⟨_, hstep, fun _ _ _ => rfl, ⟨rfl, rfl⟩⟩, fun l' hl' => ?_⟩
        rw [Ledger.step_eq hstep hl']
        exact hsound
      | some block =>
        have hstep : l.process.step (.create (some block) true (some directory)) =
            some ⟨rcOk, some l.process.counter, l.process.made block directory⟩ :=
          aftpCreate_eq block directory hcounter
        refine ⟨⟨_, hstep, fun other hother _ => ?_, ?_⟩, fun l' hl' => ?_⟩
        · exact congrArg _ (hsound.follow_made block directory hother)
        · rw [if_pos rfl]
          exact ⟨l.process.counter, rfl, fun hlive => absurd (hsound.below _ hlive) (UInt8.lt_irrefl _)⟩
        · rw [Ledger.step_eq hstep hl']
          exact hsound.made block directory hcounter
  | destroy handle =>
    obtain hlive | hnever := h
    · obtain ⟨p, session, hfollow⟩ := hsound.session handle hlive
      have hstep : l.process.step (.destroy handle) =
          some ⟨rcOk, none, { l.process with heap := l.process.heap.put p none }⟩ := by
        rw [Process.step, Process.aftpDestroy, if_pos (Process.has_of_follow hfollow), hfollow]
        rfl
      refine ⟨⟨_, hstep, fun other hother hne => ?_, ?_⟩, fun l' hl' => ?_⟩
      · exact congrArg _ (hsound.follow_put hlive hfollow none hother
          fun heq => hne (congrArg some heq.symm))
      · exact iff_of_true (show rcOk ≠ rcHandleNotValid by decide) hlive
      · rw [Ledger.step_eq hstep hl']
        exact hsound.free hlive hfollow
    · obtain ⟨hlive, hhas⟩ := hsound.never hnever
      have hstep : l.process.step (.destroy handle) =
          some ⟨rcHandleNotValid, none, l.process⟩ := if_neg hhas
      refine ⟨⟨_, hstep, fun _ _ _ => rfl, ?_⟩, fun l' hl' => ?_⟩
      · exact iff_of_false (not_not.mpr rfl) hlive
      · rw [Ledger.step_eq hstep hl', Event.leaves, Set.sdiff_singleton_eq_self hlive]
        exact hsound
  | call operation handle rc =>
    obtain ⟨hlive, htells⟩ | ⟨hnever, hrefuses⟩ := h
    · obtain ⟨p, session, hfollow⟩ := hsound.session handle hlive
      obtain ⟨rc', process, hstep, hrc, hprocess⟩ :=
        call_follow operation rc hfollow (htells p session hfollow)
      refine ⟨⟨_, hstep, fun other hother hne => ?_, ?_⟩, fun l' hl' => ?_⟩
      · obtain rfl | ⟨session', rfl⟩ := hprocess
        · rfl
        · exact congrArg _ (hsound.follow_put hlive hfollow _ hother
            fun heq => hne (congrArg some heq.symm))
      · exact iff_of_true hrc hlive
      · rw [Ledger.step_eq (e := .call operation handle rc) hstep hl']
        obtain rfl | ⟨session', rfl⟩ := hprocess
        · exact hsound
        · exact hsound.store hlive hfollow session'
    · obtain ⟨hlive, hhas⟩ := hsound.never hnever
      have hstep := call_never operation rc hhas
      rw [hrefuses] at hstep
      refine ⟨⟨_, hstep, fun _ _ _ => rfl, ?_⟩, fun l' hl' => ?_⟩
      · exact iff_of_false (not_not.mpr rfl) hlive
      · rw [Ledger.step_eq (e := .call operation handle rc) hstep hl']
        exact hsound

/-- A call that is right meets the condition, if it is a usual one. -/
theorem meets_of_right (hsound : Sound l) (husual : e.Usual) (h : Right l e) : Meets l e := by
  obtain ⟨o, hstep, -, hright⟩ := h
  cases e with
  | create block record getcwd =>
    cases block with
    | none => exact Or.inl rfl
    | some block =>
      refine Or.inr ?_
      rw [Process.step, Process.aftpCreate] at hstep
      split_ifs at hstep with hcounter hrecord
      · exact ⟨hcounter, hrecord, husual (by simp) hrecord⟩
  | destroy handle =>
    by_cases hlive : handle ∈ l.live
    · exact Or.inl hlive
    · refine Or.inr ?_
      by_contra hnever
      have hhas := hsound.has (UInt8.not_le.mp hnever)
      rw [Process.step, Process.aftpDestroy, if_pos hhas] at hstep
      obtain ⟨⟨p, session⟩, _, heq⟩ := Option.bind_eq_some_iff.mp hstep
      obtain rfl := Option.some.inj heq
      exact hlive (hright.mp (show rcOk ≠ rcHandleNotValid by decide))
  | call operation handle rc =>
    by_cases hlive : handle ∈ l.live
    · exact Or.inl ⟨hlive, fun p session _ => husual session⟩
    · refine Or.inr ?_
      have hrc : o.rc = rcHandleNotValid := not_not.mp (mt hright.mp hlive)
      have hnever : l.process.counter ≤ handle := by
        by_contra hnever
        have hhas := hsound.has (UInt8.not_le.mp hnever)
        rw [Process.step] at hstep
        cases hfollow : l.process.follow handle.toNat with
        | some found =>
          obtain ⟨p, session⟩ := found
          obtain ⟨rc', process, heq, hne, _⟩ := call_follow operation rc hfollow (husual session)
          rw [heq] at hstep
          rw [← Option.some.inj hstep] at hrc
          exact hne hrc
        | none =>
          rw [Process.call] at hstep
          cases hcheck : operation.check with
          | refuses refusal =>
            simp only [hcheck, if_pos hhas, use_none operation rc hfollow] at hstep
            exact absurd hstep (by simp)
          | follows =>
            simp only [hcheck, use_none operation rc hfollow] at hstep
            exact absurd hstep (by simp)
          | ignores rc' =>
            simp only [hcheck, Option.some.injEq] at hstep
            rw [← hstep] at hrc
            exact ignores_ne hcheck hrc
      refine ⟨hnever, ?_⟩
      rw [Process.step, call_never operation rc (hsound.never hnever).2] at hstep
      cases hcheck : operation.check with
      | refuses refusal =>
        simp only [hcheck, Option.some.injEq] at hstep
        rw [← hstep] at hrc
        exact congrArg Check.refuses hrc
      | follows =>
        simp only [hcheck] at hstep
        exact absurd hstep (by simp)
      | ignores rc' =>
        simp only [hcheck, Option.some.injEq] at hstep
        rw [← hstep] at hrc
        exact absurd hrc (ignores_ne hcheck)

/-- In runs of calls that meet the condition the table does what it is for; of usual calls only these
keep it. -/
theorem sessions_iff (R : Type) (es : List (Event R)) :
    (Along Ledger.step Meets (.begin R) es → Along Ledger.step Right (.begin R) es) ∧
      (Along Ledger.step (fun _ e => e.Usual) (.begin R) es →
        Along Ledger.step Right (.begin R) es → Along Ledger.step Meets (.begin R) es) := by
  constructor
  · intro h
    apply along_of_invariant (I := Sound) (G := Meets)
    · exact fun l e l' hsound hmeets hstep => (right_of_meets hsound hmeets).2 l' hstep
    · exact fun l e hsound hmeets => (right_of_meets hsound hmeets).1
    · exact sound_begin
    · exact h
  · intro husual hright
    have hboth := along_and.mpr ⟨husual, hright⟩
    apply along_of_invariant (I := Sound) (G := fun l e => e.Usual ∧ Right l e)
    · intro l e l' hsound h hstep
      exact (right_of_meets hsound (meets_of_right hsound h.1 h.2)).2 l' hstep
    · exact fun l e hsound h => meets_of_right hsound h.1 h.2
    · exact sound_begin
    · exact hboth

end Runs

/-! ## A handle that has been destroyed -/

/-- Memory with nothing in it. -/
def zeroed : Ftpsession Unit where
  settings :=
    { symbolic := false, destination := [], modeName := [], tpName := [], password := []
      userid := [], sysInfo := [], allocSize := 0, blockSize := 0, dataType := 0, dateMode := 0
      recordFormat := 0, recordLength := 0, securityType := 0, writeMode := 0
      currentDirectory := [] }
  rest := ()

/-- A session is made, in memory that has been freed if there is such. -/
def createdIn : Event Unit := .create (some ⟨0, zeroed⟩) true (some [47])

/-- A handle cannot be destroyed twice, and after it has been destroyed it leads to the next
session. -/
theorem destroyed_accepted :
    ¬ Along Ledger.step Right (.begin Unit) [createdIn, .destroy 0, .destroy 0] ∧
      ¬ Along Ledger.step Right (.begin Unit)
        [createdIn, .destroy 0, createdIn, .call (.set (.blockSize 7)) 0 0] := by
  constructor
  · intro h
    obtain ⟨o, hstep, _⟩ := ((h.2 _ rfl).2 _ rfl).1
    exact absurd hstep (show ¬ none = some o by simp)
  · intro h
    obtain ⟨o, hstep, hothers, _⟩ := (((h.2 _ rfl).2 _ rfl).2 _ rfl).1
    obtain rfl := Option.some.inj hstep
    have hlive : (1 : UInt8) ∈ (∅ ∪ {h : UInt8 | some 0 = some h}) \ {0} ∪ {h | some 1 = some h} :=
      Or.inr rfl
    have hkept := hothers 1 hlive (by decide)
    exact absurd hkept (by decide)

end LinuxSna.Asuite.Sessions
