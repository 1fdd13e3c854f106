import LinuxSna.Proof.TnX.ConfigLines

/-!
# Sections of configuration files

A text is read by induction on its tree (`before_text`): afterwards the loader is in the sections in
which it was before, and the configuration has been given the values of the text. Where a comment
behind `}` is misread, more sections are open than the rest of the text ends, and the loader does
not return 0 (`not_returned`).
-/

namespace LinuxSna.TnX.ConfigFile

open Framework

/-! ## Values given to a configuration -/

/-- A string is given to a name. -/
def putString (c : Config) (name value : List UInt8) : Config :=
  match configGet c name with
  | some (.string _) => update ConfigStr.name name (fun _ => ⟨name, .string value⟩) c
  | _ => c ++ [⟨name, .string value⟩]

theorem configSet_string (cell : List (List UInt8) → List UInt8) (c : Config) (name value : List UInt8) :
    configSet cell c name (.string value) = some (putString c name value) := by
  unfold configSet putString
  cases configGet c name with
  | none => rfl
  | some v => cases v <;> rfl

theorem configGet_concat (c : Config) (v : ConfigStr) (path : List UInt8) :
    configGet (c ++ [v]) path =
      (configGet c path).or (if v.name = path then some v.value else none) := by
  unfold configGet configGetStr find
  rw [List.find?_append]
  cases c.find? fun x => decide (x.name = path) with
  | some x => rfl
  | none =>
    by_cases h : v.name = path
    · simp [h]
    · simp [h]

theorem configGet_update {c : Config} {name : List UInt8} (h : configGet c name ≠ none)
    (value : ConfigValue) (path : List UInt8) :
    configGet (update ConfigStr.name name (fun _ => ⟨name, value⟩) c) path =
      if name = path then some value else configGet c path := by
  have hkey : ∀ v : ConfigStr, v.name = name → (⟨name, value⟩ : ConfigStr).name = name := fun _ _ => rfl
  unfold configGet configGetStr at *
  rw [find_update hkey]
  by_cases hp : name = path
  · obtain ⟨v, hv⟩ := Option.ne_none_iff_exists'.mp fun hn => h (Option.map_eq_none_iff.mpr hn)
    rw [if_pos hp.symm, if_pos hp, ← hp, hv]
    rfl
  · rw [if_neg (Ne.symm hp), if_neg hp]

/-- A list stays under its name, a string is written over. -/
theorem configGet_putString (c : Config) (name value path : List UInt8) :
    configGet (putString c name value) path =
      if name = path then
        match configGet c path with
        | some (.list items) => some (.list items)
        | _ => some (.string value)
      else configGet c path := by
  unfold putString
  split
  · rename_i old hg
    rw [configGet_update (by rw [hg]; exact nofun)]
    by_cases hp : name = path
    · rw [if_pos hp, if_pos hp, ← hp, hg]
    · rw [if_neg hp, if_neg hp]
  · rename_i hg
    rw [configGet_concat]
    by_cases hp : name = path
    · rw [if_pos hp, if_pos hp, ← hp]
      cases hc : configGet c name with
      | none => rfl
      | some v =>
        cases v with
        | string old => exact absurd hc (hg old)
        | list items => rfl
    · rw [if_neg hp, if_neg hp, Option.or_none]

/-- Strings are given one after the other. -/
def putAll (c : Config) (as : List (List UInt8 × List UInt8)) : Config :=
  as.foldl (fun c a => putString c a.1 a.2) c

theorem configGet_putAll_list {c : Config} {path : List UInt8} {items : List (List UInt8)}
    (h : configGet c path = some (.list items)) (as : List (List UInt8 × List UInt8)) :
    configGet (putAll c as) path = some (.list items) := by
  unfold putAll
  induction as generalizing c with
  | nil => exact h
  | cons a as ih =>
    rw [List.foldl_cons]
    apply ih
    rw [configGet_putString, h]
    split <;> rfl

/-- The last string that was given to a name -/
theorem configGet_putAll {c : Config} {as : List (List UInt8 × List UInt8)}
    (h : ∀ a ∈ as, ∀ items, configGet c a.1 ≠ some (.list items)) (path : List UInt8) :
    configGet (putAll c as) path =
      match (find Prod.fst path as.reverse).map Prod.snd with
      | some value => some (.string value)
      | none => configGet c path := by
  unfold putAll
  induction as using List.reverseRecOn with
  | nil => rfl
  | append_singleton as a ih =>
    have ih' := ih fun x hx => h x (List.mem_append_left _ hx)
    rw [List.foldl_concat, List.reverse_concat, find_cons, configGet_putString]
    by_cases ha : a.1 = path
    · rw [if_pos ha, if_pos ha, ih', Option.map_some]
      have hc := h a (List.mem_append_right _ (List.mem_singleton_self a))
      rw [ha] at hc
      cases hf : (find Prod.fst path as.reverse).map Prod.snd with
      | some value => rfl
      | none =>
        cases hg : configGet c path with
        | none => rfl
        | some v =>
          cases v with
          | string value => rfl
          | list items => exact absurd hg (hc items)
    · rw [if_neg ha, if_neg ha, ih']

/-! ## One line -/

variable (cell : List (List UInt8) → List UInt8)

/-- A loader in front of some lines, in some sections -/
structure At (s : Loader) (lines : List (List UInt8)) (c : Config) (sections : List (List UInt8)) :
    Prop where
  unread : s.unread.map bufString = lines
  config : s.config = c
  prefixStack : s.prefixStack = sections
  list : s.list = none

section

variable {s : Loader} {line : List UInt8} {lines : List (List UInt8)} {c : Config}
  {sections : List (List UInt8)}

/-- The line is read into the buffer. -/
theorem At.pass (h : At s (line :: lines) c sections) :
    ∃ s', configPass cell s = linePass cell s' ∧ s'.buf = line ∧ At s' lines c sections := by
  obtain ⟨chunk, unread, hu, hb, hl⟩ := List.map_eq_cons_iff.mp h.unread
  refine ⟨{ s with unread := unread, buf := bufString chunk }, ?_, hb, hl, h.config, h.prefixStack, h.list⟩
  unfold configPass
  rw [h.list, hu]

theorem At.skip (h : At s (line :: lines) c sections) (hk : configLine line = .skip) :
    ∃ s', configPass cell s = .inl s' ∧ At s' lines c sections := by
  obtain ⟨s', hp, hb, ha⟩ := h.pass cell
  refine ⟨s', ?_, ha⟩
  rw [hp, linePass, hb, hk]

theorem At.item (h : At s (line :: lines) c sections) {name value : List UInt8}
    (hk : configLine line = .item name value) :
    ∃ s', configPass cell s = .inl s' ∧
      At s' lines (putString c (prefixed sections name) value) sections := by
  obtain ⟨s', hp, rfl, ha⟩ := h.pass cell
  refine ⟨{ s' with config := putString c (prefixed sections name) value }, ?_, ha.unread, rfl,
    ha.prefixStack, ha.list⟩
  have hset := configSet_string cell c (prefixed sections name) value
  rw [hp, linePass, hk]
  dsimp only [Loader.set]
  rw [ha.config, ha.prefixStack, hset]

theorem At.push (h : At s (line :: lines) c sections) {name : List UInt8}
    (hk : configLine line = .push name) :
    configPass cell s = .inr .aborted ∧ maxPrefixStack ≤ sections.length ∨
      ∃ s', configPass cell s = .inl s' ∧ At s' lines c (sections ++ [name]) := by
  obtain ⟨s', hp, hb, ha⟩ := h.pass cell
  rw [hp, linePass, hb, hk]
  dsimp only
  by_cases hlen : s'.prefixStack.length < maxPrefixStack
  · right
    rw [if_pos hlen]
    refine ⟨_, rfl, ha.unread, ha.config, ?_, ha.list⟩
    rw [← ha.prefixStack]
  · left
    rw [if_neg hlen]
    rw [ha.prefixStack] at hlen
    exact ⟨rfl, by omega⟩

theorem At.pop (h : At s (line :: lines) c sections) (hk : configLine line = .pop) :
    configPass cell s = .inr .aborted ∧ sections = [] ∨
      sections ≠ [] ∧ ∃ s', configPass cell s = .inl s' ∧ At s' lines c sections.dropLast := by
  obtain ⟨s', hp, hb, ha⟩ := h.pass cell
  rw [hp, linePass, hb, hk]
  dsimp only
  by_cases hne : s'.prefixStack ≠ []
  · right
    rw [if_pos hne]
    refine ⟨ha.prefixStack ▸ hne, _, rfl, ha.unread, ha.config, ?_, ha.list⟩
    rw [← ha.prefixStack]
  · left
    rw [if_neg hne]
    exact ⟨rfl, ha.prefixStack ▸ not_not.mp hne⟩

theorem At.error (h : At s (line :: lines) c sections) (hk : configLine line = .error) :
    configPass cell s = .inr (.returned (-1) c) := by
  obtain ⟨s', hp, hb, ha⟩ := h.pass cell
  rw [hp, linePass, hb, hk, ha.config]

theorem At.openList (h : At s (line :: lines) c sections) {name : List UInt8}
    (hk : configLine line = .openList name) :
    ∃ s', configPass cell s = .inl s' ∧ s'.list.isSome ∧ s'.buf = line ∧
      s'.unread.map bufString = lines := by
  obtain ⟨s', hp, hb, ha⟩ := h.pass cell
  rw [hp, linePass, hb, hk]
  exact ⟨_, rfl, rfl, rfl, ha.unread⟩

theorem At.done (h : At s [] c sections) :
    configPass cell s = .inr (.returned (if sections ≠ [] then -1 else 0) c) := by
  unfold configPass
  rw [h.list, List.map_eq_nil_iff.mp h.unread, h.config, h.prefixStack]

end

/-! ## Texts as they are meant -/

/-- No comment behind a `}` has a character that is looked for first. -/
def Text.Plain (t : Text) : Prop := ∀ e, .closing e ∈ t.lines → e.Plain

def Text.texts (t : Text) : List (List UInt8) := t.lines.map Line.text

theorem before_succ {s s' t : Loader} {k : Nat} (h : configPass cell s = .inl s')
    (hk : before (configPass cell) k s' = some t) : before (configPass cell) (k + 1) s = some t :=
  (before_succ_inl h).trans hk

/-- By induction on the text: after it the loader is in the same sections again. -/
theorem before_text {t : Text} (ht : t.Plain) :
    ∀ {s : Loader} {rest : List (List UInt8)} {c : Config} {sections : List (List UInt8)},
      At s (t.texts ++ rest) c sections → sections.length + t.depth ≤ maxPrefixStack →
      ∃ k s', before (configPass cell) k s = some s' ∧
        At s' rest (putAll c (t.assigned sections)) sections := by
  induction t with
  | nil =>
    intro s rest c sections h _
    exact ⟨0, s, rfl, h⟩
  | blank pad t ih =>
    intro s rest c sections h hd
    obtain ⟨s', hs, ha⟩ := At.skip cell h (configLine_blank pad)
    obtain ⟨k, s'', hk, hr⟩ := ih (fun e he => ht e (List.mem_cons_of_mem _ he)) ha hd
    exact ⟨k + 1, s'', before_succ cell hs hk, hr⟩
  | comment pad comment t ih =>
    intro s rest c sections h hd
    obtain ⟨s', hs, ha⟩ := At.skip cell h (configLine_comment pad comment)
    obtain ⟨k, s'', hk, hr⟩ := ih (fun e he => ht e (List.mem_cons_of_mem _ he)) ha hd
    exact ⟨k + 1, s'', before_succ cell hs hk, hr⟩
  | assign a t ih =>
    intro s rest c sections h hd
    obtain ⟨s', hs, ha⟩ := At.item cell h (configLine_assign a)
    obtain ⟨k, s'', hk, hr⟩ := ih (fun e he => ht e (List.mem_cons_of_mem _ he)) ha hd
    exact ⟨k + 1, s'', before_succ cell hs hk, hr⟩
  | within o body e t ihBody ihRest =>
    intro s rest c sections h hd
    rw [Text.depth] at hd
    have htexts : (Text.within o body e t).texts ++ rest =
        Line.text (.opening o) :: (body.texts ++ Line.text (.closing e) :: (t.texts ++ rest)) := by
      simp [Text.texts, Text.lines]
    have hmem : ∀ l, l ∈ body.lines ∨ l = .closing e ∨ l ∈ t.lines →
        l ∈ (Text.within o body e t).lines := by
      intro l hl
      rw [Text.lines, List.mem_cons, List.mem_append, List.mem_cons]
      exact .inr hl
    rw [htexts] at h
    obtain ⟨-, hlen⟩ | ⟨s₁, h₁, a₁⟩ := At.push cell h (configLine_opening o)
    · omega
    have hlen : (sections ++ [o.name.text]).length = sections.length + 1 := by simp
    obtain ⟨k₂, s₂, h₂, a₂⟩ := ihBody (fun e' he => ht e' (hmem _ (.inl he))) a₁ (by omega)
    have hclosing : e.Plain := ht e (hmem _ (.inr (.inl rfl)))
    obtain ⟨-, hnil⟩ | ⟨-, s₃, h₃, a₃⟩ := At.pop cell a₂ (configLine_closing hclosing)
    · exact absurd hnil (by simp)
    rw [List.dropLast_concat] at a₃
    obtain ⟨k₄, s₄, h₄, a₄⟩ := ihRest (fun e' he => ht e' (hmem _ (.inr (.inr he)))) a₃ (by omega)
    refine ⟨k₂ + (k₄ + 1) + 1, s₄, ?_, ?_⟩
    · exact before_succ cell h₁ (before_trans h₂ (before_succ cell h₃ h₄))
    · rw [Text.assigned, putAll, List.foldl_append]
      exact a₄

/-! ## Comments that are misread -/

/-- A list that no line ends -/
theorem list_never {s : Loader} (hl : s.list.isSome) (hb : ¬ closesList s.buf)
    (hu : ∀ line ∈ s.unread.map bufString, ¬ closesList line) (n : Nat) :
    loop (configPass cell) n s = none := by
  refine loop_never (I := fun s : Loader => s.list.isSome ∧ ¬ closesList s.buf ∧
    ∀ line ∈ s.unread.map bufString, ¬ closesList line) ?_ ⟨hl, hb, hu⟩ n
  rintro s ⟨hl, hb, hu⟩
  obtain ⟨⟨name, items⟩, hlist⟩ := Option.isSome_iff_exists.mp hl
  have hbuf : ¬ closesList ((s.unread.head?.map bufString).getD s.buf) := by
    cases hs : s.unread with
    | nil => exact hb
    | cons chunk unread =>
      rw [hs] at hu
      exact hu _ List.mem_cons_self
  unfold configPass listPass
  rw [hlist]
  dsimp only
  rw [if_neg hbuf]
  refine ⟨_, rfl, rfl, hbuf, fun line hline => hu line ?_⟩
  dsimp only at hline
  rw [List.map_tail] at hline
  exact List.mem_of_mem_tail hline

/-- How many more sections a line opens than it ends -/
def Line.level : Line → Int
  | .opening _ => 1
  | .closing _ => -1
  | _ => 0

def level (ls : List Line) : Int := (ls.map Line.level).sum

theorem level_cons (l : Line) (ls : List Line) : level (l :: ls) = l.level + level ls := rfl

theorem level_append (ls ls' : List Line) : level (ls ++ ls') = level ls + level ls' := by
  simp [level]

/-- A text ends the sections that it opens. -/
theorem level_lines (t : Text) : level t.lines = 0 := by
  induction t with
  | nil => rfl
  | blank pad t ih => rw [Text.lines, level_cons, ih]; rfl
  | comment pad c t ih => rw [Text.lines, level_cons, ih]; rfl
  | assign a t ih => rw [Text.lines, level_cons, ih]; rfl
  | within o body e t ihBody ihRest =>
    rw [Text.lines, level_cons, level_append, level_cons, ihBody, ihRest]
    rfl

/-- So many sections are open that the lines do not end all of them, or will not when a comment has
been misread. -/
def TooDeep (sections : List (List UInt8)) (ls : List Line) : Prop :=
  0 < sections.length + level ls ∨
    0 ≤ sections.length + level ls ∧ ∃ e, .closing e ∈ ls ∧ ¬ e.Plain

theorem TooDeep.tail {sections sections' : List (List UInt8)} {l : Line} {ls : List Line}
    (h : TooDeep sections (l :: ls)) (hl : (sections'.length : Int) = sections.length + l.level)
    (hp : ∀ e, l = .closing e → e.Plain) : TooDeep sections' ls := by
  unfold TooDeep at *
  rw [level_cons] at h
  obtain h | ⟨h, e, he, hn⟩ := h
  · exact .inl (by omega)
  · refine .inr ⟨by omega, e, (List.mem_cons.mp he).resolve_left ?_, hn⟩
    rintro rfl
    exact hn (hp e rfl)

theorem TooDeep.misread {sections sections' : List (List UInt8)} {e : Closing} {ls : List Line}
    (h : TooDeep sections (.closing e :: ls)) (hl : sections.length ≤ sections'.length) :
    TooDeep sections' ls := by
  unfold TooDeep at *
  rw [level_cons, Line.level] at h
  left
  obtain h | ⟨h, -⟩ := h
  · omega
  · omega

/-- By induction on the lines that are left. -/
theorem not_returned (c' : Config) {ls : List Line} :
    ∀ {s : Loader} {c : Config} {sections : List (List UInt8)},
      At s (ls.map Line.text) c sections → TooDeep sections ls →
      ∀ n, loop (configPass cell) n s ≠ some (.returned 0 c') := by
  induction ls with
  | nil =>
    intro s c sections h hd n
    have hne : sections ≠ [] := by
      rintro rfl
      obtain hd | ⟨-, e, he, -⟩ := hd
      · exact absurd hd (by decide)
      · exact absurd he List.not_mem_nil
    cases n with
    | zero => exact nofun
    | succ n =>
      rw [loop_succ_inr (h.done cell), if_pos hne]
      exact fun h => by cases h
  | cons l ls ih =>
    intro s c sections h hd n
    cases n with
    | zero => exact nofun
    | succ n =>
      have hstep : ∀ {s' : Loader} {c₁ : Config} {sections₁ : List (List UInt8)},
          configPass cell s = .inl s' → At s' (ls.map Line.text) c₁ sections₁ → TooDeep sections₁ ls →
          loop (configPass cell) (n + 1) s ≠ some (.returned 0 c') := by
        intro s' c₁ sections₁ hs ha hd
        rw [loop_succ_inl hs]
        exact ih ha hd n
      have habort : configPass cell s = .inr .aborted →
          loop (configPass cell) (n + 1) s ≠ some (.returned 0 c') := by
        intro hs
        rw [loop_succ_inr hs]
        exact fun h => by cases h
      rw [List.map_cons] at h
      cases l with
      | blank pad =>
        obtain ⟨s', hs, ha⟩ := h.skip cell (configLine_blank pad)
        exact hstep hs ha (hd.tail (by simp [Line.level]) nofun)
      | comment pad comment =>
        obtain ⟨s', hs, ha⟩ := h.skip cell (configLine_comment pad comment)
        exact hstep hs ha (hd.tail (by simp [Line.level]) nofun)
      | assign a =>
        obtain ⟨s', hs, ha⟩ := h.item cell (configLine_assign a)
        exact hstep hs ha (hd.tail (by simp [Line.level]) nofun)
      | opening o =>
        obtain ⟨hs, -⟩ | ⟨s', hs, ha⟩ := h.push cell (configLine_opening o)
        · exact habort hs
        · exact hstep hs ha (hd.tail (by simp [Line.level]) nofun)
      | closing e =>
        by_cases he : e.Plain
        · obtain ⟨hs, -⟩ | ⟨hne, s', hs, ha⟩ := h.pop cell (configLine_closing he)
          · exact habort hs
          · have hlen := List.length_pos_iff.mpr hne
            refine hstep hs ha (hd.tail ?_ fun e' h => ?_)
            · rw [List.length_dropLast, Line.level]
              omega
            · cases h
              exact he
        · obtain hk | ⟨name, value, hk⟩ | ⟨name, hk⟩ | ⟨name, hk⟩ := configLine_misread he
          · rw [loop_succ_inr (h.error cell hk)]
            exact fun h => by cases h
          · obtain ⟨s', hs, ha⟩ := h.item cell hk
            exact hstep hs ha (hd.misread (Nat.le_refl _))
          · obtain ⟨s', hs, hlist, hbuf, hu⟩ := h.openList cell hk
            rw [loop_succ_inl hs, list_never cell hlist]
            · exact nofun
            · rw [hbuf]
              exact not_closesList _
            · rw [hu]
              intro line hline
              obtain ⟨l, -, rfl⟩ := List.mem_map.mp hline
              exact not_closesList l
          · obtain ⟨hs, -⟩ | ⟨s', hs, ha⟩ := h.push cell hk
            · exact habort hs
            · exact hstep hs ha (hd.misread (by simp))

/-! ## Scoping -/

/-- The load returns 0, and under each path there is the value that the text gives it last. Under
the others there is what there was. -/
def Scoped (t : Text) (file : List UInt8) (c : Config) : Prop :=
  ∃ n c', configLoad cell (.ok file) c n = some (.returned 0 c') ∧
    ∀ path, configGet c' path =
      match t.value path with
      | some value => some (.string value)
      | none => configGet c path

theorem notMem_line (l : Line) {b : UInt8} (hb : b = 0 ∨ b = newline) : b ∉ l.text := by
  have hpad : ∀ pad : Blanks, b ∉ pad.text := by
    intro pad hmem
    obtain rfl | rfl := hb
    · exact pad.notMem (by decide) hmem
    · exact (pad.blank _ hmem).2 rfl
  have hname : ∀ {ends : List UInt8} (name : Name ends), b ∉ name.text := by
    intro ends name hmem
    obtain ⟨h₁, h₂, -⟩ := name.plain b hmem
    obtain rfl | rfl := hb
    · exact h₂ rfl
    · exact absurd h₁ (by decide)
  have hplain : ∀ {text : List UInt8}, 0 ∉ text ∧ newline ∉ text → b ∉ text := by
    rintro text ⟨h₁, h₂⟩
    obtain rfl | rfl := hb
    · exact h₁
    · exact h₂
  have hne : b ≠ hash ∧ b ≠ equalSign ∧ b ≠ openBrace ∧ b ≠ closeBrace := by
    obtain rfl | rfl := hb
    · decide
    · decide
  cases l with
  | blank pad => exact hpad pad
  | comment pad c => simp [Line.text, hpad, hplain c.plain, hne]
  | assign a => simp [Line.text, hpad, hname, hplain a.value.plain, hne]
  | opening o => simp [Line.text, hpad, hname, hne]
  | closing e =>
    have hcomment : b ∉ Comment.behind e.comment := by
      cases e.comment with
      | none => exact List.not_mem_nil
      | some c => simp [Comment.behind, hplain c.plain, hne]
    simp [Line.text, hpad, hne, hcomment]

theorem fits_line {l : Line} (h : l.text.length ≤ 125) : Fits l.text :=
  ⟨notMem_line l (.inl rfl), notMem_line l (.inr rfl), h⟩

/-- The loader at the beginning of a text -/
theorem at_start {t : Text} {file : List UInt8} (hf : IsFile t.texts file)
    (hl : ∀ line ∈ t.texts, line.length ≤ 125) (c : Config) : At (.start file c) t.texts c [] := by
  refine ⟨map_bufString_fgetsAll hf fun line hline => ?_, rfl, rfl, rfl⟩
  obtain ⟨l, -, rfl⟩ := List.mem_map.mp hline
  exact fits_line (hl _ hline)

/-- The text is loaded as it is meant exactly if no comment is misread and no list is in the way. -/
theorem scoped_iff {t : Text} {file : List UInt8} (hf : IsFile t.texts file)
    (hl : ∀ line ∈ t.texts, line.length ≤ 125) (hd : t.depth ≤ maxPrefixStack) (c : Config) :
    Scoped cell t file c ↔
      t.Plain ∧ ∀ a ∈ t.assigned [], ∀ items, configGet c a.1 ≠ some (.list items) := by
  have hstart := at_start hf hl c
  by_cases ht : t.Plain
  · rw [and_iff_right ht]
    have hwhole : At (.start file c) (t.texts ++ []) c [] := by rwa [List.append_nil]
    obtain ⟨k, s, hk, ha⟩ := before_text cell ht hwhole (by simpa using hd)
    have hload := loop_of_before hk (ha.done cell)
    constructor
    · rintro ⟨n, c', hn, hget⟩ a hmem items hlist
      cases loop_unique hn hload
      have hget' := hget a.1
      have hvalue : (t.value a.1).isSome := by
        rw [Text.value, Option.isSome_map]
        exact find_isSome_of_mem (List.mem_reverse.mpr hmem)
      obtain ⟨value, hv⟩ := Option.isSome_iff_exists.mp hvalue
      rw [hv, configGet_putAll_list hlist] at hget'
      cases hget'
    · intro hno
      exact ⟨k + 1, _, hload, configGet_putAll hno⟩
  · refine iff_of_false ?_ fun h => ht h.1
    rintro ⟨n, c', hn, -⟩
    refine not_returned cell c' hstart (.inr ⟨?_, ?_⟩) n hn
    · rw [level_lines]
      decide
    · unfold Text.Plain at ht
      push Not at ht
      exact ht

/-- No blanks -/
def Blanks.empty : Blanks := ⟨[], fun _ h => absurd h List.not_mem_nil⟩

/-- A name of one byte -/
def Name.single {ends : List UInt8} (b : UInt8) (hp : isspace b = false ∧ b ≠ 0 ∧ b ∉ ends)
    (hh : b ∉ [hash, plus, minus, closeBracket, closeBrace]) : Name ends :=
  ⟨[b], List.cons_ne_nil b [], List.forall_mem_singleton.mpr hp, fun c hc => by
    cases hc
    exact hh⟩

/-- `s {`, `a=1` and `}` with a comment -/
def sampleText (c : Comment) : Text :=
  .within ⟨.empty, .single 115 (by decide) (by decide), .empty, .empty⟩
    (.assign ⟨.empty, .single 97 (by decide) (by decide), .empty, .empty,
      ⟨[49], by decide, by simp [isspace, openBracket], by simp [isspace]⟩, .empty⟩ .nil)
    ⟨.empty, .empty, some c⟩ .nil

/-- The sample with the comment `#ok` -/
theorem scoped_sample :
    Scoped (fun _ => []) (sampleText ⟨[111, 107], by decide⟩)
      [115, 123, 10, 97, 61, 49, 10, 125, 35, 111, 107, 10] [] := by
  refine (scoped_iff _ (.inl (by decide)) (by decide) (by decide) []).mpr ⟨?_, fun a _ items => ?_⟩
  · intro e he c hc
    simp [sampleText, Text.lines] at he
    subst he
    cases hc
    decide
  · exact fun h => by cases h

/-- With the comment `#b=2` the section is not ended: the load returns -1. -/
theorem comment_misread :
    IsFile (sampleText ⟨[98, 61, 50], by decide⟩).texts
        [115, 123, 10, 97, 61, 49, 10, 125, 35, 98, 61, 50, 10] ∧
      (∀ line ∈ (sampleText ⟨[98, 61, 50], by decide⟩).texts, line.length ≤ 125) ∧
      (sampleText ⟨[98, 61, 50], by decide⟩).depth < maxPrefixStack ∧
      ¬ Scoped (fun _ => []) (sampleText ⟨[98, 61, 50], by decide⟩)
        [115, 123, 10, 97, 61, 49, 10, 125, 35, 98, 61, 50, 10] [] := by
  refine ⟨.inl (by decide), by decide, by decide, ?_⟩
  rintro ⟨n, c', hn, -⟩
  have hload : configLoad (fun _ => [])
      (.ok [115, 123, 10, 97, 61, 49, 10, 125, 35, 98, 61, 50, 10]) [] 4 =
        some (.returned (-1) [⟨[115, 46, 97], .string [49]⟩,
          ⟨[115, 46, 125, 35, 98], .string [50]⟩]) := by
    decide
  cases loop_unique hn hload

end LinuxSna.TnX.ConfigFile
