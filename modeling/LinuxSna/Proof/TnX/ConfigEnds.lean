import LinuxSna.Framework.Run
import LinuxSna.Proof.TnX.ConfigScopes

/-!
# The end of a configuration file

The loop for a list does not see the end of the file, `tnX_assert` aborts, and an empty list over a
string is a null pointer. An outline of the text says where none of these happens: its statements
(`statements`), in which a list is one, and which sections are open and which names are strings when
a statement is reached (`Outline`). `returns_iff` is by induction on the lines, in the loop for a
list and outside of it.
-/

namespace LinuxSna.TnX

open Framework ConfigFile

/-! ## Outlines -/

/-- A line that is no part of a list (with `openList`, of none that is ended), or a list -/
inductive Statement where
  | line (l : ConfigLine)
  | list (name : List UInt8) (items : List (List UInt8))

/-- A list that was begun: its name, the last line and the items so far -/
structure Begun where
  name : List UInt8
  last : List UInt8
  items : List (List UInt8)

/-- The statements of a text. At the end of a list that is not ended the last line counts once more. -/
def statements : Option Begun → List (List UInt8) → List Statement
  | none, [] => []
  | none, line :: lines =>
    match configLine line with
    | .openList name => statements (some ⟨name, line, []⟩) lines
    | l => .line l :: statements none lines
  | some b, [] => if closesList b.last then [.list b.name b.items] else [.line (.openList b.name)]
  | some b, line :: lines =>
    if closesList line then .list b.name b.items :: statements none lines
    else statements (some ⟨b.name, line, b.items ++ [skipSpace line]⟩) lines

def ConfigValue.isString : ConfigValue → Bool
  | .string _ => true
  | .list _ => false

/-- The sections that are open, and the names with whether they are strings: the first entry of a
name says so. -/
structure Outline where
  sections : List (List UInt8)
  names : List (List UInt8 × Bool)

namespace Outline

def start (c : Config) : Outline := ⟨[], c.map fun v => (v.name, v.value.isString)⟩

/-- Whether the name is a string -/
def kind (o : Outline) (name : List UInt8) : Option Bool := (find Prod.fst name o.names).map Prod.snd

def give (o : Outline) (name : List UInt8) (string : Bool) : Outline :=
  { o with names := o.names ++ [(name, string)] }

/-- Where a statement leads. Behind an error nothing is read. -/
def next (o : Outline) : Statement → Option Outline
  | .line .skip => some o
  | .line (.flag name _) => some (o.give name true)
  | .line (.item name _) => some (o.give (prefixed o.sections name) true)
  | .line (.openList _) => none
  | .line (.push name) => some { o with sections := o.sections ++ [name] }
  | .line .pop => some { o with sections := o.sections.dropLast }
  | .line .error => none
  | .list name _ => some (o.give (prefixed o.sections name) false)

/-- Every list is ended, only as many sections are open as there is room for, one is open where one
is ended, and an empty list is not given to a string. -/
def Sound (o : Outline) : Statement → Prop
  | .line (.openList _) => False
  | .line (.push _) => o.sections.length < maxPrefixStack
  | .line .pop => o.sections ≠ []
  | .list name items => items = [] → o.kind (prefixed o.sections name) ≠ some true
  | _ => True

instance (o : Outline) (st : Statement) : Decidable (o.Sound st) := by
  unfold Sound
  split <;> infer_instance

theorem kind_give (o : Outline) (name path : List UInt8) (string : Bool) :
    (o.give name string).kind path = (o.kind path).or (if name = path then some string else none) := by
  unfold kind give find
  rw [List.find?_append]
  cases o.names.find? fun x => decide (x.1 = path) with
  | some x => rfl
  | none =>
    by_cases h : name = path
    · simp [h]
    · simp [h]

end Outline

/-! ## Kinds of values -/

def kindOf (c : Config) (name : List UInt8) : Option Bool := (configGet c name).map ConfigValue.isString

variable {cell : List (List UInt8) → List UInt8}

theorem kindOf_string {c : Config} {name : List UInt8} :
    kindOf c name = some true ↔ ∃ old, configGet c name = some (.string old) := by
  unfold kindOf
  cases configGet c name with
  | none => simp
  | some v =>
    cases v with
    | string old => simp [ConfigValue.isString]
    | list items => simp [ConfigValue.isString]

theorem configSet_of_string {c : Config} {name : List UInt8} (h : kindOf c name = some true)
    (value : ConfigValue) :
    configSet cell c name value =
      match value with
      | .list [] => none
      | .string s => some (update ConfigStr.name name (fun _ => ⟨name, .string s⟩) c)
      | .list (i :: is) =>
        some (update ConfigStr.name name (fun _ => ⟨name, .string (cell (i :: is))⟩) c) := by
  obtain ⟨old, hold⟩ := kindOf_string.mp h
  unfold configSet
  rw [hold]
  cases value with
  | string s => rfl
  | list items => cases items <;> rfl

theorem configSet_of_not {c : Config} {name : List UInt8} (h : kindOf c name ≠ some true)
    (value : ConfigValue) : configSet cell c name value = some (c ++ [⟨name, value⟩]) := by
  rw [ne_eq, kindOf_string] at h
  unfold configSet
  split
  · rename_i old hold
    exact absurd ⟨old, hold⟩ h
  · rfl

/-- The null pointer is read where an empty list is given to a string. -/
theorem configSet_eq_none {c : Config} {name : List UInt8} {value : ConfigValue} :
    configSet cell c name value = none ↔ value = .list [] ∧ kindOf c name = some true := by
  by_cases h : kindOf c name = some true
  · rw [configSet_of_string h, and_iff_left h]
    cases value with
    | string s => simp
    | list items => cases items <;> simp
  · simp [configSet_of_not h, h]

theorem kindOf_update {c : Config} {name : List UInt8} (h : kindOf c name = some true)
    (s path : List UInt8) :
    kindOf (update ConfigStr.name name (fun _ => ⟨name, .string s⟩) c) path = kindOf c path := by
  obtain ⟨old, hold⟩ := kindOf_string.mp h
  unfold kindOf
  rw [configGet_update (by rw [hold]; exact nofun)]
  by_cases hp : name = path
  · rw [if_pos hp, ← hp, hold]
    rfl
  · rw [if_neg hp]

/-- What is given to a name does not change what it is. -/
theorem kindOf_configSet {c c' : Config} {name : List UInt8} {value : ConfigValue}
    (h : configSet cell c name value = some c') (path : List UInt8) :
    kindOf c' path = (kindOf c path).or (if name = path then some value.isString else none) := by
  by_cases hk : kindOf c name = some true
  · have hor : (kindOf c path).or (if name = path then some value.isString else none) =
        kindOf c path := by
      by_cases hp : name = path
      · rw [← hp, hk]
        rfl
      · rw [if_neg hp, Option.or_none]
    rw [configSet_of_string hk] at h
    rw [hor]
    cases value with
    | string s =>
      cases h
      exact kindOf_update hk s path
    | list items =>
      cases items with
      | nil => cases h
      | cons i is =>
        cases h
        exact kindOf_update hk _ path
  · rw [configSet_of_not hk] at h
    cases h
    unfold kindOf
    rw [configGet_concat]
    cases configGet c path with
    | none => by_cases hp : name = path <;> simp [hp]
    | some v => rfl

theorem kindOf_eq_start (c : Config) (path : List UInt8) : kindOf c path = (Outline.start c).kind path := by
  unfold kindOf configGet configGetStr Outline.kind Outline.start find
  rw [List.find?_map, Option.map_map, Option.map_map]
  rfl

/-! ## The loader and the outline -/

/-- What is read of a text may be seen in its outline. -/
structure Outlined (s : Loader) (o : Outline) : Prop where
  sections : s.prefixStack = o.sections
  kinds : ∀ name, kindOf s.config name = o.kind name

/-- The loader returns 0 or -1. -/
def Ends (cell : List (List UInt8) → List UInt8) (s : Loader) : Prop :=
  ∃ n r c, loop (configPass cell) n s = some (.returned r c) ∧ (r = 0 ∨ r = -1)

theorem ends_inl {s s' : Loader} (h : configPass cell s = .inl s') : Ends cell s ↔ Ends cell s' := by
  constructor
  · rintro ⟨n, r, c, hn, hr⟩
    cases n with
    | zero => cases hn
    | succ n => exact ⟨n, r, c, (loop_succ_inl h).symm.trans hn, hr⟩
  · rintro ⟨n, r, c, hn, hr⟩
    exact ⟨n + 1, r, c, (loop_succ_inl h).trans hn, hr⟩

theorem ends_returned {s : Loader} {r : Int} {c : Config}
    (h : configPass cell s = .inr (.returned r c)) (hr : r = 0 ∨ r = -1) : Ends cell s :=
  ⟨1, r, c, loop_succ_inr h, hr⟩

theorem not_ends {s : Loader} {e : LoadEnd} (h : configPass cell s = .inr e)
    (he : ∀ r c, e ≠ .returned r c) : ¬ Ends cell s := by
  rintro ⟨n, r, c, hn, -⟩
  have := loop_unique hn (loop_succ_inr (n := 0) h)
  exact he r c this.symm

variable (cell) in
theorem outlined_set {s : Loader} {o : Outline} (h : Outlined s o) (name : List UInt8)
    (value : ConfigValue) :
    s.set cell name value = .inr .faulted ∧ value = .list [] ∧ o.kind name = some true ∨
      ¬ (value = .list [] ∧ o.kind name = some true) ∧
        ∃ c, s.set cell name value = .inl { s with config := c } ∧
          Outlined { s with config := c } (o.give name value.isString) := by
  have hk := h.kinds name
  unfold Loader.set
  cases hset : configSet cell s.config name value with
  | none =>
    rw [configSet_eq_none, hk] at hset
    exact .inl ⟨rfl, hset⟩
  | some c =>
    refine .inr ⟨?_, c, rfl, h.sections, fun path => ?_⟩
    · rw [← hk, ← @configSet_eq_none cell, hset]
      exact nofun
    · rw [kindOf_configSet hset, Outline.kind_give, h.kinds]

/-- The loader has read a text up to some lines, in a list that was begun or outside of lists. -/
structure Reading (s : Loader) (o : Outline) (begun : Option Begun) (lines : List (List UInt8)) :
    Prop where
  outlined : Outlined s o
  list : s.list = begun.map fun b => (prefixed o.sections b.name, b.items)
  buf : ∀ b ∈ begun, s.buf = b.last
  unread : s.unread.map bufString = lines

section

variable {s : Loader} {o : Outline} {b : Begun} {line : List UInt8} {lines : List (List UInt8)}

variable (cell)

theorem Reading.done (h : Reading s o none []) : Ends cell s := by
  have hpass : configPass cell s =
      .inr (.returned (if s.prefixStack ≠ [] then -1 else 0) s.config) := by
    unfold configPass
    rw [h.list, List.map_eq_nil_iff.mp h.unread]
    rfl
  refine ends_returned hpass ?_
  split
  · exact .inr rfl
  · exact .inl rfl

/-- The line is read into the buffer. -/
theorem Reading.readLine (h : Reading s o none (line :: lines)) :
    ∃ s', configPass cell s = linePass cell s' ∧ s'.buf = line ∧ Reading s' o none lines := by
  obtain ⟨chunk, unread, hu, hb, hl⟩ := List.map_eq_cons_iff.mp h.unread
  refine ⟨{ s with unread := unread, buf := bufString chunk }, ?_, hb, ⟨h.outlined.sections, h.outlined.kinds⟩,
    h.list, fun _ hb => (nomatch hb), hl⟩
  unfold configPass
  rw [h.list, hu]
  rfl

/-- A string is given to a name. -/
theorem Reading.setString (h : Reading s o none lines) (name value : List UInt8) :
    ∃ s', s.set cell name (.string value) = .inl s' ∧ Reading s' (o.give name true) none lines := by
  obtain ⟨-, hv, -⟩ | ⟨-, c, hs, ho⟩ := outlined_set cell h.outlined name (.string value)
  · cases hv
  · exact ⟨_, hs, ho, h.list, fun _ hb => (nomatch hb), h.unread⟩

/-- The list is ended by the line in the buffer. -/
theorem Reading.endList (h : Reading s o (some b) lines)
    (hc : closesList ((s.unread.head?.map bufString).getD s.buf)) :
    ¬ Ends cell s ∧ ¬ o.Sound (.list b.name b.items) ∨
      o.Sound (.list b.name b.items) ∧ ∃ s', configPass cell s = .inl s' ∧
        Reading s' (o.give (prefixed o.sections b.name) false) none lines.tail := by
  have hlist : s.list = some (prefixed o.sections b.name, b.items) := h.list
  let t : Loader := { s with unread := s.unread.tail, list := none,
                             buf := (s.unread.head?.map bufString).getD s.buf }
  have hpass : configPass cell s = t.set cell (prefixed o.sections b.name) (.list b.items) := by
    unfold configPass listPass
    rw [hlist]
    dsimp only
    rw [if_pos hc]
  have hout : Outlined t o := ⟨h.outlined.sections, h.outlined.kinds⟩
  obtain ⟨hs, hv, hk⟩ | ⟨hn, c, hs, ho⟩ :=
    outlined_set cell hout (prefixed o.sections b.name) (.list b.items)
  · left
    refine ⟨not_ends (hpass.trans hs) nofun, fun hsound => ?_⟩
    exact hsound (by simpa using hv) hk
  · right
    refine ⟨fun hi hk => hn ⟨by rw [hi], hk⟩, _, hpass.trans hs, ho, rfl, fun _ hb => (nomatch hb), ?_⟩
    rw [← h.unread, List.map_tail]

/-- An item of the list is read. -/
theorem Reading.listItem (h : Reading s o (some b) (line :: lines)) (hc : ¬ closesList line) :
    ∃ s', configPass cell s = .inl s' ∧
      Reading s' o (some ⟨b.name, line, b.items ++ [skipSpace line]⟩) lines := by
  obtain ⟨chunk, unread, hu, hb, hl⟩ := List.map_eq_cons_iff.mp h.unread
  have hlist : s.list = some (prefixed o.sections b.name, b.items) := h.list
  unfold configPass listPass
  rw [hlist, hu]
  dsimp only [List.head?_cons, Option.map_some, Option.getD_some, List.tail_cons]
  rw [hb, if_neg hc]
  refine ⟨_, rfl, ⟨h.outlined.sections, h.outlined.kinds⟩, rfl, fun b' hb' => ?_, hl⟩
  cases hb'
  rfl

end

theorem along_next {o o' : Outline} {st : Statement} (h : o.next st = some o') (hs : o.Sound st)
    (sts : List Statement) :
    Along Outline.next Outline.Sound o' sts ↔ Along Outline.next Outline.Sound o (st :: sts) := by
  simp [Along, h, hs]

/-- A line that is no part of a list, if the lines behind it come to an end when they should. -/
theorem ends_line (h : Reading s o none (line :: lines))
    (hrest : ∀ {s : Loader} {o : Outline} {begun : Option Begun}, Reading s o begun lines →
      (Ends cell s ↔ Along Outline.next Outline.Sound o (statements begun lines))) :
    Ends cell s ↔ Along Outline.next Outline.Sound o (statements none (line :: lines)) := by
  obtain ⟨s', hp, hb, hr⟩ := h.readLine cell
  unfold linePass at hp
  unfold statements
  rw [hb] at hp
  cases hk : configLine line with
  | skip =>
    rw [hk] at hp
    refine (ends_inl hp).trans ((hrest hr).trans (along_next rfl ?_ _))
    trivial
  | flag name value =>
    obtain ⟨t, ht, hrt⟩ := hr.setString cell name value
    rw [hk] at hp
    refine (ends_inl (hp.trans ht)).trans ((hrest hrt).trans (along_next rfl ?_ _))
    trivial
  | item name value =>
    obtain ⟨t, ht, hrt⟩ := hr.setString cell (prefixed o.sections name) value
    rw [hk] at hp
    dsimp only at hp
    rw [hr.outlined.sections] at hp
    refine (ends_inl (hp.trans ht)).trans ((hrest hrt).trans (along_next rfl ?_ _))
    trivial
  | openList name =>
    rw [hk] at hp
    rw [ends_inl hp]
    refine hrest ⟨⟨hr.outlined.sections, hr.outlined.kinds⟩, ?_, fun b hb' => ?_, hr.unread⟩
    · rw [hr.outlined.sections]
      rfl
    · cases hb'
      rfl
  | push name =>
    rw [hk] at hp
    dsimp only at hp
    rw [hr.outlined.sections] at hp
    by_cases hlen : o.sections.length < maxPrefixStack
    · rw [if_pos hlen] at hp
      refine (ends_inl hp).trans ((hrest ?_).trans (along_next rfl ?_ _))
      · exact ⟨⟨rfl, hr.outlined.kinds⟩, hr.list, fun _ hb' => (nomatch hb'), hr.unread⟩
      · exact hlen
    · rw [if_neg hlen] at hp
      exact iff_of_false (not_ends hp nofun) fun ha => hlen ha.1
  | pop =>
    rw [hk] at hp
    dsimp only at hp
    rw [hr.outlined.sections] at hp
    by_cases hne : o.sections ≠ []
    · rw [if_pos hne] at hp
      refine (ends_inl hp).trans ((hrest ?_).trans (along_next rfl ?_ _))
      · exact ⟨⟨rfl, hr.outlined.kinds⟩, hr.list, fun _ hb' => (nomatch hb'), hr.unread⟩
      · exact hne
    · rw [if_neg hne] at hp
      exact iff_of_false (not_ends hp nofun) fun ha => hne ha.1
  | error =>
    rw [hk] at hp
    exact iff_of_true (ends_returned hp (.inr rfl)) ⟨trivial, nofun⟩

/-- By induction on the lines. -/
theorem ends_iff (lines : List (List UInt8)) : ∀ {s : Loader} {o : Outline} {begun : Option Begun},
    Reading s o begun lines →
      (Ends cell s ↔ Along Outline.next Outline.Sound o (statements begun lines)) := by
  induction lines with
  | nil =>
    intro s o begun h
    cases begun with
    | none => exact iff_of_true (h.done cell) trivial
    | some b =>
      have hu : s.unread = [] := List.map_eq_nil_iff.mp h.unread
      have hbuf : s.buf = b.last := h.buf b rfl
      have hlast : (s.unread.head?.map bufString).getD s.buf = b.last := by
        rw [hu]
        exact hbuf
      unfold statements
      by_cases hc : closesList b.last
      · rw [if_pos hc]
        obtain ⟨he, hn⟩ | ⟨hsound, s', hs, hr⟩ := h.endList cell (by rwa [hlast])
        · exact iff_of_false he fun ha => hn ha.1
        · rw [ends_inl hs]
          exact iff_of_true (hr.done cell) ⟨hsound, fun _ _ => trivial⟩
      · rw [if_neg hc]
        refine iff_of_false ?_ fun ha => ha.1
        rintro ⟨n, r, c, hn, -⟩
        rw [list_never cell (by rw [h.list]; rfl) (by rwa [hbuf]) (by rw [hu]; exact nofun)] at hn
        cases hn
  | cons line lines ih =>
    intro s o begun h
    cases begun with
    | none => exact ends_line h ih
    | some b =>
      have hlast : (s.unread.head?.map bufString).getD s.buf = line := by
        obtain ⟨chunk, unread, hu, hb, -⟩ := List.map_eq_cons_iff.mp h.unread
        rw [hu]
        exact hb
      unfold statements
      by_cases hc : closesList line
      · rw [if_pos hc]
        obtain ⟨he, hn⟩ | ⟨hsound, s', hs, hr⟩ := h.endList cell (by rwa [hlast])
        · exact iff_of_false he fun ha => hn ha.1
        · refine (ends_inl hs).trans ((ih hr).trans (along_next rfl ?_ _))
          exact hsound
      · rw [if_neg hc]
        obtain ⟨s', hs, hr⟩ := h.listItem cell hc
        rw [ends_inl hs, ih hr]

/-! ## Calls of fgets -/

theorem unread_set {s s' : Loader} {name : List UInt8} {value : ConfigValue}
    (h : s.set cell name value = .inl s') : s'.unread = s.unread ∧ s'.list = s.list := by
  unfold Loader.set at h
  split at h
  · cases h
    exact ⟨rfl, rfl⟩
  · cases h

theorem unread_line {s s' : Loader} (h : linePass cell s = .inl s') : s'.unread = s.unread := by
  unfold linePass at h
  split at h
  · cases h
    rfl
  · exact (unread_set h).1
  · exact (unread_set h).1
  · cases h
    rfl
  · split at h
    · cases h
      rfl
    · cases h
  · split at h
    · cases h
      rfl
    · cases h
  · cases h

/-- A pass that goes on has called `fgets`. -/
theorem unread_pass {s s' : Loader} (h : configPass cell s = .inl s') : s'.unread = s.unread.tail := by
  unfold configPass at h
  split at h
  · unfold listPass at h
    dsimp only at h
    split at h
    · exact (unread_set h).1
    · cases h
      rfl
  · split at h
    · cases h
    · rename_i hu
      rw [unread_line h, hu]
      rfl

/-- At the end of the file a pass ends the loop, or the list, or nothing. -/
theorem pass_nil {s s' : Loader} (h : configPass cell s = .inl s') (hu : s.unread = []) :
    s'.list = none ∨ ∀ n, loop (configPass cell) n s = none := by
  unfold configPass at h
  cases hl : s.list with
  | none =>
    rw [hl, hu] at h
    cases h
  | some b =>
    by_cases hc : closesList s.buf
    · left
      rw [hl] at h
      dsimp only at h
      unfold listPass at h
      rw [hu] at h
      dsimp only [List.head?_nil, Option.map_none, Option.getD_none] at h
      rw [if_pos hc] at h
      exact (unread_set h).2
    · right
      refine list_never cell (by rw [hl]; rfl) hc ?_
      rw [hu]
      exact nofun

/-- Two more calls than there are lines show how the load ends. -/
theorem loop_of_lines {n : Nat} {s : Loader} {e : LoadEnd}
    (h : loop (configPass cell) n s = some e) :
    loop (configPass cell) (s.unread.length + 2) s = some e := by
  generalize hu : s.unread = unread
  induction unread generalizing n s with
  | nil =>
    cases n with
    | zero => cases h
    | succ n =>
      cases hs : configPass cell s with
      | inr r =>
        rw [loop_succ_inr hs] at h ⊢
        exact h
      | inl s' =>
        obtain hl | hn := pass_nil hs hu
        · have hu' : s'.unread = [] := by rw [unread_pass hs, hu, List.tail_nil]
          have hend : configPass cell s' =
              .inr (.returned (if s'.prefixStack ≠ [] then -1 else 0) s'.config) := by
            unfold configPass
            rw [hl, hu']
          have h' : loop (configPass cell) (0 + 2) s =
              some (.returned (if s'.prefixStack ≠ [] then -1 else 0) s'.config) := by
            rw [loop_succ_inl hs, loop_succ_inr hend]
          rw [loop_unique h h']
          exact h'
        · rw [hn] at h
          cases h
  | cons chunk unread ih =>
    cases n with
    | zero => cases h
    | succ n =>
      rw [List.length_cons]
      cases hs : configPass cell s with
      | inr r =>
        rw [loop_succ_inr hs] at h ⊢
        exact h
      | inl s' =>
        have hu' : s'.unread = unread := by rw [unread_pass hs, hu, List.tail_cons]
        rw [loop_succ_inl hs] at h
        rw [Nat.add_right_comm, loop_succ_inl hs]
        exact ih h hu'

/-! ## The whole file -/

variable (cell)

/-- The load of a file is over after two more calls of `fgets` than the file has lines, and returns
0 or -1. -/
def Returns (file : List UInt8) (c : Config) : Prop :=
  ∃ r c', configLoad cell (.ok file) c ((fgetsAll file).length + 2) = some (.returned r c') ∧
    (r = 0 ∨ r = -1)

/-- The load of a file returns exactly if its outline is sound up to the first error. -/
theorem returns_iff (file : List UInt8) (c : Config) :
    Returns cell file c ↔ Along Outline.next Outline.Sound (.start c)
      (statements none ((fgetsAll file).map bufString)) := by
  have hstart : Reading (.start file c) (.start c) none ((fgetsAll file).map bufString) :=
    ⟨⟨rfl, kindOf_eq_start c⟩, rfl, fun _ h => (nomatch h), rfl⟩
  rw [← @ends_iff cell _ _ _ _ hstart]
  constructor
  · rintro ⟨r, c', h, hr⟩
    exact ⟨_, r, c', h, hr⟩
  · rintro ⟨n, r, c', h, hr⟩
    exact ⟨r, c', loop_of_lines h, hr⟩

/-- A list that is ended, in a section -/
example : Along Outline.next Outline.Sound (.start [])
    (statements none [[115, 123], [97, 61, 91], [98], [93], [125]]) := by
  decide

/-- The list of the text `a=[` is never ended: its load does not return. -/
theorem list_not_ended :
    (∀ n, configLoad (fun _ => []) (.ok [97, 61, 91, 10]) [] n = none) ∧
      ¬ Returns (fun _ => []) [97, 61, 91, 10] [] := by
  have hpass : configPass (fun _ => []) (.start [97, 61, 91, 10] []) =
      .inl ⟨[], [97, 61, 91], [], [], some ([97], [])⟩ := by
    decide
  have hnever : ∀ n, configLoad (fun _ => []) (.ok [97, 61, 91, 10]) [] n = none := by
    intro n
    cases n with
    | zero => rfl
    | succ n =>
      refine (loop_succ_inl hpass).trans (list_never _ rfl (by decide) ?_ n)
      exact fun _ h => absurd h List.not_mem_nil
  refine ⟨hnever, ?_⟩
  rintro ⟨r, c, h, -⟩
  rw [hnever] at h
  cases h

end LinuxSna.TnX
