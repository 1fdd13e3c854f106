import LinuxSna.Spec.Aftp

/-!
# Deleting and receiving several files

`a_del` and `a_get` against what a user expects who is asked about the files of a listing.

* `readEntries_eq`: every element of the list is the one array, which holds the last name;
* `loop_pass`: the loop asks about the elements and does what is answered, but that `a_del` keeps a
  file that is answered No;
* `multi_file_iff`: when they do what is wanted, and when they return.
-/

namespace LinuxSna.Asuite.Aftp

/-! ## The list -/

/-- The names that are listed. -/
def listed : List Read → Option (List (List UInt8))
  | [] => none
  | .entry name :: reads => (listed reads).map (name :: ·)
  | .noMore :: _ => some []
  | .failed :: _ => some []

theorem getLastD_cons_getLastD {α : Type} (x d : α) (l : List α) :
    (x :: l).getLastD d = l.getLastD x := by
  cases l with
  | nil => rfl
  | cons y l => rfl

/-- All elements of the list are `dir_entry`, which holds the last name. -/
theorem readEntries_eq (reads : List Read) (memory : Memory) (filelist : List Place) :
    ∃ memory' : Memory, readEntries reads memory filelist =
        (listed reads).map (fun names =>
          (memory', filelist ++ List.replicate names.length .dirEntry)) ∧
      ∀ names, listed reads = some names →
        memory' .dirEntry = names.getLastD (memory .dirEntry) := by
  induction reads generalizing memory filelist with
  | nil => exact ⟨memory, rfl, fun _ h => absurd h (by simp [listed])⟩
  | cons read reads ih =>
    cases read with
    | entry name =>
      obtain ⟨memory', heq, hlast⟩ :=
        ih (fun p => if p = .dirEntry then name else memory p) (filelist ++ [.dirEntry])
      refine ⟨memory', ?_, fun names hnames => ?_⟩
      · rw [readEntries, heq, listed, Option.map_map]
        apply congrFun
        apply congrArg
        funext names
        simp only [Function.comp, List.length_cons, List.replicate_succ, List.append_assoc,
          List.singleton_append]
      · obtain ⟨names', hnames', rfl⟩ := Option.map_eq_some_iff.mp hnames
        rw [hlast names' hnames', if_pos rfl]
        exact (getLastD_cons_getLastD ..).symm
    | noMore =>
      refine ⟨memory, ?_, fun names hnames => ?_⟩
      · simp [readEntries, listed]
      · cases hnames
        rfl
    | failed =>
      refine ⟨memory, ?_, fun names hnames => ?_⟩
      · simp [readEntries, listed]
      · cases hnames
        rfl

/-! ## The loop -/

section Loop

variable {memory : Memory} {moves : Action → Bool} {kept prompt : Bool} {data : Place}
  {rest : List Place} {answers : List Action} {events : List (Event (List UInt8))}

theorem pass_nil : pass memory moves ⟨[], prompt, answers, events⟩ = .inr (events, .returns) := rfl

theorem pass_unasked (hyes : moves .yes = true) :
    pass memory moves ⟨data :: rest, false, answers, events⟩ =
      .inl ⟨rest, false, answers, events ++ [.called (memory data)]⟩ := by
  simp [pass, act, hyes]

theorem pass_unanswered : pass memory moves ⟨data :: rest, true, [], events⟩ =
    .inr (events ++ [.asked (memory data)], .waits) := rfl

theorem pass_yes (hyes : moves .yes = true) :
    pass memory moves ⟨data :: rest, true, .yes :: answers, events⟩ =
      .inl ⟨rest, true, answers, events ++ [.asked (memory data), .called (memory data)]⟩ := by
  simp [pass, act, hyes]

theorem pass_no (hno : moves .no = !kept) :
    pass memory moves ⟨data :: rest, true, .no :: answers, events⟩ =
      .inl ⟨if kept then data :: rest else rest, true, answers,
        events ++ [.asked (memory data)]⟩ := by
  cases kept with
  | true => simp [pass, act, hno]
  | false => simp [pass, act, hno]

theorem pass_go (hyes : moves .yes = true) :
    pass memory moves ⟨data :: rest, true, .go :: answers, events⟩ =
      .inl ⟨rest, false, answers, events ++ [.asked (memory data), .called (memory data)]⟩ := by
  simp [pass, act, hyes]

theorem pass_quit : pass memory moves ⟨data :: rest, true, .quit :: answers, events⟩ =
    .inr (events ++ [.asked (memory data)], .returns) := rfl

/-- What the loop does, in as many passes as there are files and answers. -/
theorem loop_pass (hyes : moves .yes = true) (hno : moves .no = !kept) {n : Nat}
    {index : List Place} (hn : index.length + answers.length < n) :
    Framework.loop (pass memory moves) n ⟨index, prompt, answers, events⟩ =
      some (events ++ (told kept prompt answers (index.map memory)).1,
        (told kept prompt answers (index.map memory)).2) := by
  induction n generalizing index prompt answers events with
  | zero => exact absurd hn (Nat.not_lt_zero _)
  | succ n ih =>
    cases index with
    | nil =>
      rw [Framework.loop_succ_inr pass_nil]
      cases prompt with
      | true => rw [told, if_pos rfl, List.map_nil, walk, List.append_nil]
      | false => exact congrArg some (Prod.ext (List.append_nil _).symm rfl)
    | cons data rest =>
      cases prompt with
      | false =>
        have hrest : rest.length + answers.length < n := by
          rw [List.length_cons] at hn
          omega
        rw [Framework.loop_succ_inl (pass_unasked hyes), ih hrest]
        simp only [told, Bool.false_eq_true, if_false, List.map_cons, List.append_assoc,
          List.singleton_append]
      | true =>
        cases answers with
        | nil =>
          rw [Framework.loop_succ_inr pass_unanswered]
          rfl
        | cons action answers =>
          have hrest : rest.length + answers.length < n := by
            rw [List.length_cons, List.length_cons] at hn
            omega
          have hkept : (data :: rest).length + answers.length < n := by
            rw [List.length_cons, List.length_cons] at hn
            rw [List.length_cons]
            omega
          cases action with
          | yes =>
            rw [Framework.loop_succ_inl (pass_yes hyes), ih hrest]
            simp only [told, if_true, walk, List.map_cons, List.append_assoc, List.cons_append,
              List.nil_append]
          | no =>
            rw [Framework.loop_succ_inl (pass_no hno)]
            cases kept with
            | true =>
              rw [if_pos rfl, ih hkept]
              simp only [told, if_true, walk, List.map_cons, List.append_assoc, List.cons_append,
                List.nil_append]
            | false =>
              rw [if_neg Bool.false_ne_true, ih hrest]
              simp only [told, if_true, walk, List.map_cons, List.append_assoc, List.cons_append,
                List.nil_append, Bool.false_eq_true, if_false]
          | go =>
            rw [Framework.loop_succ_inl (pass_go hyes), ih hrest]
            simp only [told, Bool.false_eq_true, if_false, if_true, walk, List.map_cons,
              List.append_assoc, List.cons_append, List.nil_append]
          | quit =>
            rw [Framework.loop_succ_inr pass_quit]
            rfl

end Loop

/-! ## The last name for every file -/

section Walks

variable {α : Type}

/-- How many of the files are come to. -/
def reached : List Action → Nat → Nat
  | _, 0 => 0
  | [], _ + 1 => 1
  | .yes :: answers, n + 1 => reached answers n + 1
  | .no :: answers, n + 1 => reached answers n + 1
  | .go :: _, n + 1 => n + 1
  | .quit :: _, _ + 1 => 1

/-- The user is not asked about all files: the answers end, or one of them is Quit. -/
def Stops : List Action → Nat → Prop
  | _, 0 => False
  | [], _ + 1 => True
  | .yes :: answers, n + 1 => Stops answers n
  | .no :: answers, n + 1 => Stops answers n
  | .go :: _, _ + 1 => False
  | .quit :: _, _ + 1 => True

theorem called_injective : Function.Injective (Event.called (α := α)) :=
  fun _ _ h => Event.called.inj h

/-- Calls for files of one name are those for the files if they have that name. -/
theorem map_called_eq_iff {names : List α} {last : α} {n : Nat} :
    (List.replicate n last).map Event.called = names.map Event.called ↔
      n = names.length ∧ ∀ name ∈ names, name = last := by
  rw [(List.map_injective_iff.mpr called_injective).eq_iff, eq_comm, List.eq_replicate_iff,
    eq_comm (a := n)]

theorem walk_go_iff (kept : Bool) (answers : List Action) (names : List α) (name last : α) :
    (walk kept (.go :: answers) (last :: List.replicate names.length last)).1 =
        (walk false (.go :: answers) (name :: names)).1 ↔
      ∀ x ∈ (name :: names).take (names.length + 1), x = last := by
  have htake : (name :: names).take (names.length + 1) = name :: names :=
    List.take_length (l := name :: names)
  rw [htake, walk, walk, ← List.replicate_succ]
  constructor
  · intro h
    exact (map_called_eq_iff.mp (List.cons.inj h).2).2
  · intro h
    rw [map_called_eq_iff.mpr ⟨(List.length_cons ..).symm, h⟩, h name List.mem_cons_self]

/-- The events are those of files of one name each, as many as were come to. -/
theorem walk_eq_iff (answers : List Action) (names : List α) (last : α) :
    (walk false answers (List.replicate names.length last)).1 = (walk false answers names).1 ↔
      ∀ name ∈ names.take (reached answers names.length), name = last := by
  induction answers generalizing names with
  | nil =>
    cases names with
    | nil => simp [walk]
    | cons name names => simp [walk, reached, List.replicate_succ, eq_comm]
  | cons answer answers ih =>
    cases names with
    | nil => simp [walk]
    | cons name names =>
      rw [List.length_cons, List.replicate_succ]
      cases answer with
      | yes =>
        rw [reached, List.take_succ_cons, List.forall_mem_cons, ← ih names]
        simp [walk, eq_comm]
      | no =>
        rw [reached, List.take_succ_cons, List.forall_mem_cons, ← ih names]
        simp [walk, eq_comm]
      | go =>
        rw [walk_go_iff, reached]
      | quit => simp [walk, reached, eq_comm]

/-- Where a file is asked about again, more than the rest is to come. -/
theorem walk_kept_longer (answers : List Action) (names : List α) (last : α) {n : Nat}
    (hn : names.length < n) :
    (walk true answers (List.replicate n last)).1 = (walk false answers names).1 ↔
      (∀ name ∈ names.take (reached answers names.length), name = last) ∧
        Stops answers names.length := by
  obtain ⟨n, rfl⟩ : ∃ m, n = m + 1 := ⟨n - 1, by omega⟩
  induction answers generalizing names n with
  | nil =>
    cases names with
    | nil => simp [walk, Stops, List.replicate_succ]
    | cons name names => simp [walk, reached, Stops, List.replicate_succ, eq_comm]
  | cons answer answers ih =>
    cases names with
    | nil => cases answer <;> simp [walk, Stops, List.replicate_succ]
    | cons name names =>
      rw [List.length_cons] at hn
      rw [List.length_cons, List.replicate_succ]
      cases answer with
      | yes =>
        obtain ⟨n, rfl⟩ : ∃ m, n = m + 1 := ⟨n - 1, by omega⟩
        rw [reached, Stops, List.take_succ_cons, List.forall_mem_cons, and_assoc,
          ← ih names n (by omega)]
        simp [walk, eq_comm]
      | no =>
        rw [reached, Stops, List.take_succ_cons, List.forall_mem_cons, and_assoc,
          ← ih names n (by omega)]
        simp [walk, eq_comm, List.replicate_succ]
      | go =>
        rw [Stops, and_false, iff_false, walk, walk, ← List.replicate_succ]
        intro h
        have hcalled := (map_called_eq_iff.mp (List.cons.inj h).2).1
        rw [List.length_cons] at hcalled
        omega
      | quit => simp [walk, reached, Stops, eq_comm]

/-- A file that is answered No is asked about again, so that the events are those of the files only
if the user stops, or never says No before a Go. -/
theorem walk_kept_iff (answers : List Action) (names : List α) (last : α) :
    (walk true answers (List.replicate names.length last)).1 = (walk false answers names).1 ↔
      (∀ name ∈ names.take (reached answers names.length), name = last) ∧
        (Stops answers names.length ∨
          .no ∉ (answers.take names.length).takeWhile (· ≠ .go)) := by
  induction answers generalizing names with
  | nil =>
    cases names with
    | nil => simp [walk]
    | cons name names => simp [walk, reached, Stops, List.replicate_succ, eq_comm]
  | cons answer answers ih =>
    cases names with
    | nil => simp [walk]
    | cons name names =>
      rw [List.length_cons, List.replicate_succ]
      cases answer with
      | yes =>
        rw [reached, Stops, List.take_succ_cons, List.take_succ_cons, List.forall_mem_cons,
          and_assoc, List.takeWhile_cons_of_pos (by decide), List.mem_cons]
        simp only [reduceCtorEq, false_or]
        rw [← ih names]
        simp [walk, eq_comm]
      | no =>
        rw [reached, Stops, List.take_succ_cons, List.take_succ_cons, List.forall_mem_cons,
          and_assoc, List.takeWhile_cons_of_pos (by decide), List.mem_cons]
        simp only [true_or, not_true_eq_false, or_false]
        rw [← walk_kept_longer answers names last (Nat.lt_succ_self _)]
        simp [walk, eq_comm, List.replicate_succ]
      | go =>
        rw [walk_go_iff, reached]
        simp
      | quit => simp [walk, reached, Stops, eq_comm]

/-- The user is waited for, if the answers are fewer than the files and all of them Yes or No. -/
theorem walk_waits (kept : Bool) {answers : List Action} {names : List α}
    (hlt : answers.length < names.length) (h : ∀ answer ∈ answers, answer = .yes ∨ answer = .no) :
    (walk kept answers names).2 = .waits := by
  induction answers generalizing names with
  | nil =>
    obtain ⟨name, names, rfl⟩ := List.exists_cons_of_length_pos hlt
    rfl
  | cons answer answers ih =>
    obtain ⟨name, names, rfl⟩ := List.exists_cons_of_length_pos (Nat.zero_lt_of_lt hlt)
    rw [List.forall_mem_cons] at h
    rw [List.length_cons, List.length_cons] at hlt
    obtain rfl | rfl := h.1
    · exact ih (by omega) h.2
    · cases kept with
      | true => exact ih (by rw [if_pos rfl, List.length_cons]; omega) h.2
      | false => exact ih (by rw [if_neg Bool.false_ne_true]; omega) h.2

/-- Otherwise the walk is at its end. -/
theorem walk_returns {answers : List Action} {names : List α}
    (h : ¬ (answers.length < names.length ∧ ∀ answer ∈ answers, answer = .yes ∨ answer = .no)) :
    (walk false answers names).2 = .returns := by
  induction answers generalizing names with
  | nil =>
    cases names with
    | nil => rfl
    | cons name names =>
      exact absurd ⟨Nat.succ_pos _, fun _ hmem => absurd hmem List.not_mem_nil⟩ h
  | cons answer answers ih =>
    cases names with
    | nil => rfl
    | cons name names =>
      rw [List.length_cons, List.length_cons, Nat.succ_lt_succ_iff, List.forall_mem_cons] at h
      cases answer with
      | yes => exact ih fun hwaits => h ⟨hwaits.1, .inl rfl, hwaits.2⟩
      | no => exact ih fun hwaits => h ⟨hwaits.1, .inr rfl, hwaits.2⟩
      | go => rfl
      | quit => rfl

end Walks

/-! ## The commands -/

/-- The files that a command comes to; none, if the list does not come to its end. -/
def Env.files (e : Env) : Option (List (List UInt8)) :=
  if e.connected ∧ e.argcnt = 2 ∧ e.opened then listed e.reads else some []

/-- What is expected of a command. -/
def expected (e : Env) : List (Event (List UInt8)) × Outcome :=
  match e.files with
  | none => ([], .waits)
  | some names => wanted e.prompting e.answers names

/-- The command asks about the listed files and does what it is told. -/
def Does (e : Env) (result : Option (List (Event (List UInt8)) × Outcome)) : Prop :=
  result.map Prod.fst = some (expected e).1

/-- The command ends, unless it waits for the server or the user. -/
def Ends (e : Env) (result : Option (List (Event (List UInt8)) × Outcome)) : Prop :=
  result.map Prod.snd = some (expected e).2

/-- The names in the list. -/
def Env.names (e : Env) : List (List UInt8) := e.files.getD []

/-- All files that are come to have the last name in the list. -/
def OneName (e : Env) : Prop :=
  ∀ name ∈ e.names.take
      (if e.prompting then reached e.answers e.names.length else e.names.length),
    name = e.names.getLastD []

/-- No file is asked about again. -/
def NoneAgain (e : Env) : Prop :=
  e.prompting → Stops e.answers e.names.length ∨
    .no ∉ (e.answers.take e.names.length).takeWhile (· ≠ .go)

/-- Nothing is listed, or the user says nothing but Yes and No, and not for all files. -/
def Unended (e : Env) : Prop :=
  e.names = [] ∨ e.prompting ∧ e.answers.length < e.names.length ∧
    ∀ answer ∈ e.answers, answer = .yes ∨ answer = .no

section Commands

variable {moves : Action → Bool} (kept : Bool)

/-- A command comes to the last file again and again. -/
theorem multiple_eq (hyes : moves .yes = true) (hno : moves .no = !kept) (memory : Memory)
    (e : Env) : multiple moves memory e =
      match e.files with
      | none => some ([], .waits)
      | some names =>
        let r := told kept e.prompting e.answers
          (List.replicate names.length (names.getLastD []))
        some (r.1, freeSingleList (List.replicate names.length .dirEntry) r.2) := by
  rw [multiple, Env.files]
  by_cases h : e.connected ∧ e.argcnt = 2 ∧ e.opened
  · rw [if_pos h, if_pos h]
    obtain ⟨memory', heq, hlast⟩ := readEntries_eq e.reads memory []
    rw [heq]
    cases hlisted : listed e.reads with
    | none => rfl
    | some names =>
      have hnames : (List.replicate names.length Place.dirEntry).map memory' =
          List.replicate names.length (names.getLastD []) := by
        rw [List.map_replicate, hlast names hlisted]
        cases names with
        | nil => rfl
        | cons name names => rw [getLastD_cons_getLastD, getLastD_cons_getLastD]
      simp only [Option.map_some, List.nil_append, Option.bind_eq_bind]
      rw [loop_pass hyes hno (Nat.lt_succ_self _), hnames]
      rfl
  · rw [if_neg h, if_neg h]
    cases e.prompting with
    | true => simp [told, walk, freeSingleList]
    | false => simp [told, freeSingleList]

/-- What a command does, against what is expected. -/
theorem does_iff (hyes : moves .yes = true) (hno : moves .no = !kept) (memory : Memory) (e : Env) :
    Does e (multiple moves memory e) ↔ OneName e ∧ (kept = true → NoneAgain e) := by
  rw [Does, multiple_eq kept hyes hno, expected, OneName, NoneAgain, Env.names]
  cases e.files with
  | none => simp [Stops]
  | some names =>
    simp only [Option.getD_some, Option.map_some, Option.some.injEq, wanted, told]
    cases e.prompting with
    | false =>
      simp only [Bool.false_eq_true, if_false, List.take_length, false_implies, implies_true,
        and_true]
      exact map_called_eq_iff.trans (and_iff_right rfl)
    | true =>
      simp only [if_true, true_implies]
      cases kept with
      | false =>
        rw [and_iff_left fun h => absurd h Bool.false_ne_true]
        exact walk_eq_iff ..
      | true =>
        rw [forall_prop_of_true rfl]
        exact walk_kept_iff ..

/-- No command with a file in its list returns. -/
theorem freeSingleList_ne {n : Nat} (hn : n ≠ 0) (outcome : Outcome) :
    freeSingleList (List.replicate n .dirEntry) outcome ≠ .returns := by
  have hmem : Place.dirEntry ∈ List.replicate n Place.dirEntry := List.mem_replicate.mpr ⟨hn, rfl⟩
  cases outcome with
  | waits => exact nofun
  | returns =>
    rw [freeSingleList, if_pos hmem]
    exact nofun
  | aborts => exact nofun

/-- What comes of a command, against what is expected. -/
theorem ends_iff (hyes : moves .yes = true) (hno : moves .no = !kept) (memory : Memory) (e : Env) :
    Ends e (multiple moves memory e) ↔ Unended e := by
  rw [Ends, multiple_eq kept hyes hno, expected, Unended, Env.names]
  cases e.files with
  | none => simp
  | some names =>
    simp only [Option.getD_some, Option.map_some, Option.some.injEq, wanted]
    by_cases hnil : names = []
    · rw [hnil]
      refine iff_of_true ?_ (.inl rfl)
      cases e.prompting with
      | true => simp [told, walk, freeSingleList]
      | false => simp [told, freeSingleList]
    · have hpos : names.length ≠ 0 := mt List.length_eq_zero_iff.mp hnil
      rw [or_iff_right hnil]
      cases e.prompting with
      | false =>
        refine iff_of_false ?_ fun h => absurd h.1 Bool.false_ne_true
        exact freeSingleList_ne hpos _
      | true =>
        simp only [told, if_true, true_and]
        by_cases hwaits : e.answers.length < names.length ∧
            ∀ answer ∈ e.answers, answer = .yes ∨ answer = .no
        · refine iff_of_true ?_ hwaits
          rw [walk_waits false hwaits.1 hwaits.2,
            walk_waits kept (by rw [List.length_replicate]; exact hwaits.1) hwaits.2]
          rfl
        · refine iff_of_false ?_ hwaits
          rw [walk_returns hwaits]
          exact freeSingleList_ne hpos _

end Commands

/-- `a_del` and `a_get` ask about the files of a listing and do what they are told exactly if all
files that they come to have the last name and, for `a_del`, no file is asked about again; and they
end as they should exactly if there is none, or if the user does not answer any more. -/
theorem multi_file_iff (memory : Memory) (e : Env) :
    (Does e (aDel memory e) ↔ OneName e ∧ NoneAgain e) ∧ (Ends e (aDel memory e) ↔ Unended e) ∧
      (Does e (aGet memory e) ↔ OneName e) ∧ (Ends e (aGet memory e) ↔ Unended e) := by
  refine ⟨?_, ends_iff true rfl rfl memory e, ?_, ends_iff false rfl rfl memory e⟩
  · exact (does_iff true rfl rfl memory e).trans (and_congr_right fun _ => forall_prop_of_true rfl)
  · exact (does_iff false rfl rfl memory e).trans
      (and_iff_left fun h => absurd h Bool.false_ne_true)

/-- A listing of `a` and `b`, and what the user answers. -/
def twoFiles (answers : List Action) : Env where
  connected := true
  argcnt := 2
  prompting := true
  opened := true
  reads := [.entry [97], .entry [98], .noMore]
  answers := answers

/-- The user is asked about `b` in place of `a`, and `b` is deleted; after No, the same question
comes again. -/
theorem last_deleted :
    ¬ Does (twoFiles [.yes]) (aDel (fun _ => []) (twoFiles [.yes])) ∧
      ¬ Does (twoFiles [.yes]) (aGet (fun _ => []) (twoFiles [.yes])) ∧
      ¬ Ends (twoFiles [.quit]) (aDel (fun _ => []) (twoFiles [.quit])) := by
  rw [Does, Does, Ends]
  decide

end LinuxSna.Asuite.Aftp
