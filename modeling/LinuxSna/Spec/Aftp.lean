import LinuxSna.Impl.Asuite.Aftp
import LinuxSna.Impl.Asuite.Sessions

/-!
# What AFTP is for

What a user expects who is asked about the files of a list one by one: each is asked about once, in
its order, and something is done to those that are answered Yes, and to all from a Go on. And of the
table of sessions, which handles have been given out and not been destroyed, and what a call owes
them: it accepts these handles and no others, gives out one that is not in use, and does not touch the
settings of the other sessions.

* `walk`: the questions and what is done, for answers of any number;
* `asked_walk`, `called_walk`: the questions are about the first of the files, and nothing is done
  twice;
* `Right`: what a call owes the live handles.
-/

namespace LinuxSna.Asuite

/-! ## The files of a list -/

namespace Aftp

variable {α : Type}

/-- The file that a question is about. -/
def Event.asked? : Event α → Option α
  | asked name => some name
  | called _ => none

/-- The file that a call is for. -/
def Event.called? : Event α → Option α
  | asked _ => none
  | called name => some name

/-- The questions about the files, and what is done. A file that is answered No may be `kept`, and
is then asked about again. -/
def walk (kept : Bool) : List Action → List α → List (Event α) × Outcome
  | _, [] => ([], .returns)
  | [], name :: _ => ([.asked name], .waits)
  | .yes :: answers, name :: names =>
    let (events, outcome) := walk kept answers names
    (.asked name :: .called name :: events, outcome)
  | .no :: answers, name :: names =>
    let (events, outcome) := walk kept answers (if kept then name :: names else names)
    (.asked name :: events, outcome)
  | .go :: _, name :: names => (.asked name :: (name :: names).map .called, .returns)
  | .quit :: _, name :: _ => ([.asked name], .returns)

/-- The same, where the user may not want to be asked. -/
def told (kept prompting : Bool) (answers : List Action) (names : List α) :
    List (Event α) × Outcome :=
  if prompting then walk kept answers names else (names.map .called, .returns)

/-- What is wanted of the files. -/
def wanted (prompting : Bool) (answers : List Action) (names : List α) :
    List (Event α) × Outcome :=
  told false prompting answers names

/-- No file is asked about twice, or out of order. -/
theorem asked_walk (answers : List Action) (names : List α) :
    (walk false answers names).1.filterMap Event.asked? <+: names := by
  have hcalled (ns : List α) : (ns.map Event.called).filterMap Event.asked? = [] :=
    List.filterMap_eq_nil_iff.mpr fun e he => by
      obtain ⟨name, -, rfl⟩ := List.mem_map.mp he
      rfl
  induction answers generalizing names with
  | nil =>
    cases names with
    | nil => exact List.prefix_refl _
    | cons name names => exact ⟨names, rfl⟩
  | cons answer answers ih =>
    cases names with
    | nil => exact List.prefix_refl _
    | cons name names =>
      cases answer with
      | yes => exact List.prefix_cons_inj name |>.mpr (ih names)
      | no => exact List.prefix_cons_inj name |>.mpr (ih names)
      | go =>
        refine ⟨names, ?_⟩
        show name :: ((name :: names).map Event.called).filterMap Event.asked? ++ names = _
        rw [hcalled]
        rfl
      | quit => exact ⟨names, rfl⟩

/-- No call is made twice, or out of order. -/
theorem called_walk (answers : List Action) (names : List α) :
    ((walk false answers names).1.filterMap Event.called?).Sublist names := by
  have hcalled (ns : List α) : (ns.map Event.called).filterMap Event.called? = ns := by
    rw [List.filterMap_map]
    exact List.filterMap_some
  induction answers generalizing names with
  | nil =>
    cases names with
    | nil => exact List.Sublist.refl _
    | cons name names => exact List.nil_sublist _
  | cons answer answers ih =>
    cases names with
    | nil => exact List.Sublist.refl _
    | cons name names =>
      cases answer with
      | yes => exact (ih names).cons_cons name
      | no => exact (ih names).cons name
      | go =>
        show (((name :: names).map Event.called).filterMap Event.called?).Sublist _
        rw [hcalled]
      | quit => exact List.nil_sublist _

end Aftp

/-! ## The table of sessions -/

namespace Sessions

open Ftp

variable {R : Type}

/-- The settings that a handle leads to. -/
def Process.settings (s : Process R) (handle : UInt8) : Option Settings :=
  (s.follow handle.toNat).map fun found => found.2.settings

/-- The process, and the handles that `aftp_create` has given out with `AFTP_RC_OK` and that have not
been destroyed since. -/
structure Ledger (R : Type) where
  process : Process R
  live : Set UInt8

/-- A process as it begins. -/
def Ledger.begin (R : Type) : Ledger R := ⟨⟨0, fun _ => none, .empty⟩, ∅⟩

/-- The handle of a call -/
def Event.handle : Event R → Option UInt8
  | create _ _ _ => none
  | destroy handle => some handle
  | call _ handle _ => some handle

/-- The handles that are live after a call. -/
def Event.leaves (live : Set UInt8) (o : Outcome R) : Event R → Set UInt8
  | create _ _ _ => if o.rc = rcOk then live ∪ {h | o.handle = some h} else live
  | destroy handle => live \ {handle}
  | call _ _ _ => live

/-- A call is made. -/
def Ledger.step (l : Ledger R) (e : Event R) : Option (Ledger R) := do
  let o ← l.process.step e
  return ⟨o.process, e.leaves l.live o⟩

/-- A call has a meaning, and keeps the settings of the other sessions. A handle is accepted exactly if
it is live; one that is given out was not; and if none is, the table is as it was. -/
def Right (l : Ledger R) (e : Event R) : Prop :=
  ∃ o, l.process.step e = some o ∧
    (∀ h ∈ l.live, e.handle ≠ some h → o.process.settings h = l.process.settings h) ∧
    match e with
    | .create _ _ _ =>
      if o.rc = rcOk then ∃ h, o.handle = some h ∧ h ∉ l.live
      else o.process.counter = l.process.counter ∧ o.process.sessions = l.process.sessions
    | .destroy h | .call _ h _ => o.rc ≠ rcHandleNotValid ↔ h ∈ l.live

end Sessions

end LinuxSna.Asuite
