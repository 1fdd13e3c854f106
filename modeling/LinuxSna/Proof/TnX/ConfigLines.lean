import LinuxSna.Spec.ConfigFile

/-!
# Lines of configuration files

What `fgets` gives of a file are its lines (`map_bufString_fgetsAll`), and the branch that is taken
for a line of a text is the one for its kind (`configLine_assign`, `configLine_opening`), unless a
comment behind `}` has a character that is looked for first (`configLine_closing`,
`configLine_misread`).
-/

namespace LinuxSna.TnX.ConfigFile

open Framework

/-! ## Reading lines -/

theorem fgetsFrom_line {line : List UInt8} (file : List UInt8) (hn : newline ∉ line) :
    ∀ {acc : List UInt8}, acc.length + line.length ≤ 125 →
      fgetsFrom acc (line ++ newline :: file) = (acc ++ line ++ [newline]) :: fgetsFrom [] file := by
  induction line with
  | nil =>
    intro acc _
    rw [List.nil_append, fgetsFrom, if_pos (.inl rfl), List.append_nil]
  | cons b line ih =>
    intro acc hl
    rw [List.length_cons] at hl
    have hb : ¬ (b = newline ∨ acc.length = 125) := by
      rintro (rfl | h)
      · exact hn List.mem_cons_self
      · omega
    rw [List.cons_append, fgetsFrom, if_neg hb, ih (List.not_mem_of_not_mem_cons hn)]
    · simp
    · rw [List.length_append, List.length_singleton]
      omega

theorem fgetsFrom_last {line : List UInt8} (hn : newline ∉ line) :
    ∀ {acc : List UInt8}, acc.length + line.length ≤ 125 → acc ++ line ≠ [] →
      fgetsFrom acc line = [acc ++ line] := by
  induction line with
  | nil =>
    intro acc _ hne
    rw [List.append_nil] at hne ⊢
    rw [fgetsFrom, if_neg hne]
  | cons b line ih =>
    intro acc hl _
    rw [List.length_cons] at hl
    have hb : ¬ (b = newline ∨ acc.length = 125) := by
      rintro (rfl | h)
      · exact hn List.mem_cons_self
      · omega
    rw [fgetsFrom, if_neg hb, ih (List.not_mem_of_not_mem_cons hn)]
    · simp
    · rw [List.length_append, List.length_singleton]
      omega
    · simp

/-- A line that `fgets` gives whole -/
structure Fits (line : List UInt8) : Prop where
  zero : 0 ∉ line
  newline : newline ∉ line
  length : line.length ≤ 125

theorem bufString_of_fits {line : List UInt8} (h : Fits line) : bufString line = line := by
  refine List.takeWhile_eq_self_iff.mpr fun b hb => ?_
  have h₀ := ne_of_mem_of_not_mem hb h.zero
  have h₁ := ne_of_mem_of_not_mem hb h.newline
  simp [h₀, h₁]

theorem bufString_newline {line : List UInt8} (h : Fits line) : bufString (line ++ [newline]) = line := by
  have hself := bufString_of_fits h
  rw [bufString, List.takeWhile_eq_self_iff] at hself
  rw [bufString, List.takeWhile_append_of_pos hself]
  simp [List.takeWhile]

/-- The lines of a file, one for each call of `fgets` -/
theorem map_bufString_fgetsAll {lines : List (List UInt8)} {file : List UInt8} (hf : IsFile lines file)
    (hl : ∀ line ∈ lines, Fits line) : (fgetsAll file).map bufString = lines := by
  unfold fgetsAll
  induction lines generalizing file with
  | nil =>
    obtain rfl | ⟨-, h⟩ := hf
    · rfl
    · exact absurd h (by simp)
  | cons line lines ih =>
    obtain ⟨hline, hlines⟩ := List.forall_mem_cons.mp hl
    rw [IsFile, List.flatMap_cons, List.append_assoc, List.singleton_append] at hf
    have hlen : ([] : List UInt8).length + line.length ≤ 125 := by simpa using hline.length
    obtain rfl | ⟨hne, h⟩ := hf
    · rw [fgetsFrom_line _ hline.newline hlen, List.map_cons, ih (.inl rfl) hlines, List.nil_append,
        bufString_newline hline]
    · cases lines with
      | nil =>
        -- the last line without a newline
        obtain rfl : file = line := List.append_cancel_right h
        have hne' : ([] : List UInt8) ++ file ≠ [] := by simpa using hne
        rw [fgetsFrom_last hline.newline hlen hne', List.map_singleton, List.nil_append,
          bufString_of_fits hline]
      | cons line' lines =>
        obtain ⟨file', rfl⟩ : ∃ file', file = line ++ newline :: file' := by
          have hdrop := congrArg List.dropLast h
          rw [List.dropLast_concat, List.dropLast_append_of_ne_nil (by simp),
            List.dropLast_cons_of_ne_nil (by simp)] at hdrop
          exact ⟨_, hdrop⟩
        rw [List.getLast?_cons_cons] at hne
        have h' : file' ++ [newline] = (line' :: lines).flatMap (· ++ [newline]) := by simpa using h
        rw [fgetsFrom_line _ hline.newline hlen, List.map_cons, ih (.inr ⟨hne, h'⟩) hlines,
          List.nil_append, bufString_newline hline]

/-! ## Parts of lines -/

theorem skipSpace_blanks (pad : Blanks) (scan : List UInt8) :
    skipSpace (pad.text ++ scan) = skipSpace scan :=
  List.dropWhile_append_of_pos fun b hb => (pad.blank b hb).1

theorem skipSpace_self (pad : Blanks) : skipSpace pad.text = [] :=
  List.dropWhile_eq_nil_iff.mpr fun b hb => (pad.blank b hb).1

theorem skipSpace_cons {b : UInt8} (hb : isspace b = false) (scan : List UInt8) :
    skipSpace (b :: scan) = b :: scan :=
  List.dropWhile_cons_of_neg (by simp [hb])

theorem Blanks.notMem (pad : Blanks) {b : UInt8} (hb : isspace b = false) : b ∉ pad.text := by
  intro hmem
  rw [(pad.blank b hmem).1] at hb
  contradiction

theorem Name.eq_cons {ends : List UInt8} (name : Name ends) :
    ∃ b tail, name.text = b :: tail ∧ isspace b = false ∧
      b ∉ [hash, plus, minus, closeBracket, closeBrace] := by
  obtain ⟨b, tail, h⟩ := List.exists_cons_of_ne_nil name.ne_nil
  refine ⟨b, tail, h, (name.plain b ?_).1, name.head b ?_⟩
  · rw [h]
    exact List.mem_cons_self
  · rw [h]
    rfl

/-- The name of a line is the one in front of the character, or of the blanks before it. -/
theorem lineName_name {ends : List UInt8} (name : Name ends) {c : UInt8} (hc : c ∈ ends) (gap : Blanks)
    (scan : List UInt8) : lineName c (name.text ++ (gap.text ++ c :: scan)) = name.text := by
  have hname : ∀ b ∈ name.text, (!isspace b && b != c) = true := by
    intro b hb
    obtain ⟨h₁, -, h₂⟩ := name.plain b hb
    simp [h₁, ne_of_mem_of_not_mem hc h₂ |>.symm]
  rw [lineName, List.takeWhile_append_of_pos hname]
  cases hg : gap.text with
  | nil => simp
  | cons b tail =>
    have hb : isspace b = true := (gap.blank b (by rw [hg]; exact List.mem_cons_self)).1
    simp [hb]

/-- A value is what is left when the blanks around it are taken off. -/
theorem trimEnd_value (value : Value) (trail : Blanks) :
    trimEnd (skipSpace (value.text ++ trail.text)) = value.text := by
  have hhead := value.head
  have hlast := value.last
  cases hv : value.text with
  | nil =>
    rw [List.nil_append, skipSpace_self]
    rfl
  | cons b tail =>
    rw [hv] at hhead hlast
    have hb : isspace b = false := (hhead b rfl).1
    have hr : List.rdropWhile isspace trail.text = [] :=
      List.rdropWhile_eq_nil_iff.mpr fun x hx => (trail.blank x hx).1
    rw [List.cons_append, skipSpace_cons hb, trimEnd, List.cons.injEq, and_iff_right rfl]
    rw [List.rdropWhile, List.reverse_append, List.dropWhile_append_of_pos, ← List.rdropWhile]
    · refine List.rdropWhile_eq_self_iff.mpr fun hne => ?_
      have := hlast (tail.getLast hne)
      simp [List.getLast?_cons, List.getLast?_eq_getLast_of_ne_nil hne] at this
      simp [this]
    · intro x hx
      exact (trail.blank x (List.mem_reverse.mp hx)).1

theorem head?_skipSpace_value (value : Value) (trail : Blanks) :
    (skipSpace (value.text ++ trail.text)).head? ≠ some openBracket := by
  have hhead := value.head
  cases hv : value.text with
  | nil =>
    rw [List.nil_append, skipSpace_self]
    exact nofun
  | cons b tail =>
    rw [hv] at hhead
    obtain ⟨hb, hne⟩ := hhead b rfl
    rw [List.cons_append, skipSpace_cons hb]
    simpa using hne

/-! ## The branches -/

theorem configLine_blank (pad : Blanks) : configLine (Line.text (.blank pad)) = .skip := by
  unfold configLine Line.text
  rw [skipSpace_self]

theorem configLine_comment (pad : Blanks) (c : Comment) :
    configLine (Line.text (.comment pad c)) = .skip := by
  have hs : isspace hash = false := by decide
  unfold configLine Line.text
  rw [skipSpace_blanks, skipSpace_cons hs]
  rfl

theorem configLine_assign (a : Assignment) :
    configLine (Line.text (.assign a)) = .item a.key.text a.value.text := by
  obtain ⟨b, tail, hk, hb, hne⟩ := a.key.eq_cons
  have hname := lineName_name a.key (List.mem_singleton_self equalSign) a.before
    (a.after.text ++ (a.value.text ++ a.trail.text))
  have hs : isspace equalSign = false := by decide
  simp only [List.mem_cons, List.not_mem_nil, or_false, not_or] at hne
  unfold configLine Line.text
  dsimp only
  rw [skipSpace_blanks, hk, List.cons_append, skipSpace_cons hb]
  dsimp only
  rw [if_neg hne.1, if_neg hne.2.1, if_neg hne.2.2.1, if_pos (by simp)]
  rw [hk, List.cons_append] at hname
  rw [hname, if_neg (by simp), ← List.cons_append, List.drop_left, itemLine, skipSpace_blanks,
    skipSpace_cons hs]
  dsimp only
  rw [if_pos rfl, skipSpace_blanks, if_neg (head?_skipSpace_value a.value a.trail), trimEnd_value]

theorem configLine_opening (o : Opening) :
    configLine (Line.text (.opening o)) = .push o.name.text := by
  obtain ⟨b, tail, hk, hb, hne⟩ := o.name.eq_cons
  have hname := lineName_name (c := openBrace) o.name (by simp) o.gap o.trail.text
  have hequal : equalSign ∉ o.name.text ++ (o.gap.text ++ openBrace :: o.trail.text) := by
    have h₁ : equalSign ∉ o.name.text := fun h => (o.name.plain _ h).2.2 List.mem_cons_self
    have h₂ : equalSign ∉ o.gap.text := o.gap.notMem (by decide)
    have h₃ : equalSign ∉ o.trail.text := o.trail.notMem (by decide)
    have h₄ : equalSign ≠ openBrace := by decide
    simp [h₁, h₂, h₃, h₄]
  simp only [List.mem_cons, List.not_mem_nil, or_false, not_or] at hne
  unfold configLine Line.text
  dsimp only
  rw [hk, List.cons_append] at hname hequal
  rw [skipSpace_blanks, hk, List.cons_append, skipSpace_cons hb]
  dsimp only
  rw [if_neg hne.1, if_neg hne.2.1, if_neg hne.2.2.1, if_neg hequal, if_pos (by simp), hname,
    if_neg (by simp)]

/-- The comment behind a `}` has no character that is looked for before `}` is. -/
def Closing.Plain (e : Closing) : Prop :=
  ∀ c ∈ e.comment, equalSign ∉ c.text ∧ openBrace ∉ c.text

theorem mem_closing {e : Closing} {b : UInt8} (hb : isspace b = false) (h₁ : b ≠ closeBrace)
    (h₂ : b ≠ hash) :
    b ∈ closeBrace :: (e.gap.text ++ Comment.behind e.comment) ↔ ∃ c ∈ e.comment, b ∈ c.text := by
  have hgap := e.gap.notMem hb
  cases e.comment with
  | none => simp [hgap, h₁, Comment.behind]
  | some c => simp [hgap, h₁, h₂, Comment.behind]

theorem configLine_closing {e : Closing} (he : e.Plain) :
    configLine (Line.text (.closing e)) = .pop := by
  have hs : isspace closeBrace = false := by decide
  have hh : isspace hash = false := by decide
  have hequal : equalSign ∉ closeBrace :: (e.gap.text ++ Comment.behind e.comment) := by
    rw [mem_closing (by decide) (by decide) (by decide)]
    rintro ⟨c, hc, hmem⟩
    exact (he c hc).1 hmem
  have hbrace : openBrace ∉ closeBrace :: (e.gap.text ++ Comment.behind e.comment) := by
    rw [mem_closing (by decide) (by decide) (by decide)]
    rintro ⟨c, hc, hmem⟩
    exact (he c hc).2 hmem
  unfold configLine Line.text
  dsimp only
  rw [skipSpace_blanks, skipSpace_cons hs]
  dsimp only
  rw [if_neg (by decide), if_neg (by decide), if_neg (by decide), if_neg hequal, if_neg hbrace,
    if_pos rfl, skipSpace_blanks, if_pos]
  cases e.comment with
  | none => exact .inl rfl
  | some c =>
    right
    rw [Comment.behind, skipSpace_cons hh]
    rfl

/-- With such a character the line is taken for an item, for a list, for a new section or for an
error. -/
theorem configLine_misread {e : Closing} (he : ¬ e.Plain) :
    configLine (Line.text (.closing e)) = .error ∨
      (∃ name value, configLine (Line.text (.closing e)) = .item name value) ∨
      (∃ name, configLine (Line.text (.closing e)) = .openList name) ∨
      ∃ name, configLine (Line.text (.closing e)) = .push name := by
  have hs : isspace closeBrace = false := by decide
  unfold configLine Line.text
  dsimp only
  rw [skipSpace_blanks, skipSpace_cons hs]
  dsimp only
  rw [if_neg (by decide), if_neg (by decide), if_neg (by decide)]
  by_cases hequal : equalSign ∈ closeBrace :: (e.gap.text ++ Comment.behind e.comment)
  · rw [if_pos hequal]
    split
    · exact .inl rfl
    · unfold itemLine
      split
      · exact .inl rfl
      · split
        · dsimp only
          split
          · exact .inr (.inr (.inl ⟨_, rfl⟩))
          · exact .inr (.inl ⟨_, _, rfl⟩)
        · exact .inl rfl
  · have hbrace : openBrace ∈ closeBrace :: (e.gap.text ++ Comment.behind e.comment) := by
      by_contra hbrace
      rw [mem_closing (by decide) (by decide) (by decide)] at hequal hbrace
      exact he fun c hc => ⟨fun h => hequal ⟨c, hc, h⟩, fun h => hbrace ⟨c, hc, h⟩⟩
    rw [if_neg hequal, if_pos hbrace]
    split
    · exact .inl rfl
    · exact .inr (.inr (.inr ⟨_, rfl⟩))

/-- No line of a text begins with the bracket that ends a list. -/
theorem not_closesList (l : Line) : ¬ closesList l.text := by
  unfold closesList
  cases l with
  | blank pad =>
    rw [Line.text, skipSpace_self]
    exact nofun
  | comment pad c =>
    rw [Line.text, skipSpace_blanks, skipSpace_cons (by decide), List.head?_cons]
    decide
  | assign a =>
    obtain ⟨b, tail, hk, hb, hne⟩ := a.key.eq_cons
    rw [Line.text, skipSpace_blanks, hk, List.cons_append, skipSpace_cons hb]
    rintro ⟨⟩
    exact hne (by decide)
  | opening o =>
    obtain ⟨b, tail, hk, hb, hne⟩ := o.name.eq_cons
    rw [Line.text, skipSpace_blanks, hk, List.cons_append, skipSpace_cons hb]
    rintro ⟨⟩
    exact hne (by decide)
  | closing e =>
    rw [Line.text, skipSpace_blanks, skipSpace_cons (by decide), List.head?_cons]
    decide

end LinuxSna.TnX.ConfigFile
