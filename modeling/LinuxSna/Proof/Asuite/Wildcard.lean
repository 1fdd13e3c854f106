import LinuxSna.Impl.Asuite.Ftp.Listing
import LinuxSna.Spec.Listing

/-!
# Matching wildcards

`wc_match` does not look whether there is a character for a `?`, nor whether there is one after the
backslash, so at the end of the string it goes on behind it. And it does not leave the empty end of
the string to what follows a `*`, so nothing matches two stars there.

* `wcMatch_eq_search`: the code as a search on the pieces of the pattern;
* `found`: what it finds, as long as it does not come to the end of the string;
* `hits_iff`, `falls_iff`: the strings and patterns for which it finds a match or comes there;
* `wc_match_iff`: when the result is right.
-/

namespace LinuxSna.Asuite

open Framework.Glob

variable {p : List (Piece UInt8)} {s t : List UInt8}

/-! ## The code on pieces -/

/-- What is left of the pattern is tried at each place of the string but its end. -/
def tries (rest : List UInt8 → Option Bool) : List UInt8 → Option Bool
  | [] => some false
  | c :: str =>
    match rest (c :: str) with
    | none => none
    | some true => some true
    | some false => tries rest str

/-- `wc_match` once it is behind the string: it can only return at a last `*`. -/
def past : List (Piece UInt8) → Option Bool
  | .one :: p => past p
  | [.many] => some true
  | _ => none

/-- `wc_match` on pieces, and on a string without its NUL -/
def search : List (Piece UInt8) → List UInt8 → Option Bool
  | [], s => some (s = [])
  | .char _ :: _, [] => some false
  | .char ch :: p, c :: s => if c = ch then search p s else some false
  | .one :: p, [] => past p
  | .one :: p, _ :: s => search p s
  | .many :: p, s => if p = [] then some true else tries (search p) s
  | .never :: _, [] => none
  | .never :: _, _ :: _ => some false

theorem wcStar_nil (rest : List UInt8 → Option Bool) (skips : UInt8 → Bool) :
    wcStar rest skips [] = none := rfl

theorem pieces_eq_nil {pattern : List UInt8} : pieces pattern = [] ↔ pattern = [] := by
  unfold pieces
  split
  · simp
  · split_ifs
    · simp
    · simp
    · split <;> simp
    · simp

/-- Behind the string there is nothing to be read. -/
theorem wcMatch_past (pattern : List UInt8) : wcMatch pattern [] = past (pieces pattern) := by
  induction pattern with
  | nil => rfl
  | cons ch pattern ih =>
    unfold wcMatch pieces
    split_ifs with h₁ h₂ h₃ h₄
    · exact ih
    · rw [h₃]
      rfl
    · rw [wcStar_nil]
      cases hp : pieces pattern with
      | nil => exact absurd (pieces_eq_nil.mp hp) h₃
      | cons x p => rfl
    · cases pattern <;> rfl
    · rfl

/-- The places that are skipped do not match anyway. -/
theorem wcStar_eq_tries {rest f : List UInt8 → Option Bool} {skips : UInt8 → Bool}
    (h0 : 0 ∉ s) (hrest : ∀ t, 0 ∉ t → rest (t ++ [0]) = f t)
    (hskip : ∀ c t, skips c = true → f (c :: t) = some false) :
    wcStar rest skips (s ++ [0]) = tries f s := by
  induction s with
  | nil => rfl
  | cons c s ih =>
    have hc : c ≠ 0 := fun h => h0 (h ▸ List.mem_cons_self)
    have hs : 0 ∉ s := fun h => h0 (List.mem_cons_of_mem c h)
    have hr := hrest (c :: s) h0
    rw [List.cons_append] at hr ⊢
    rw [wcStar, if_neg hc, tries, ih hs, hr]
    split_ifs with h
    · rw [hskip c s h]
    · rfl

theorem wcCompare_eq {rest f : List UInt8 → Option Bool} {ch : UInt8} (hch : ch ≠ 0) (h0 : 0 ∉ s)
    (hrest : ∀ t, 0 ∉ t → rest (t ++ [0]) = f t) :
    wcCompare rest ch (s ++ [0]) =
      match s with
      | [] => some false
      | c :: s => if c = ch then f s else some false := by
  cases s with
  | nil => exact if_neg hch.symm
  | cons c s =>
    have hs : 0 ∉ s := fun h => h0 (List.mem_cons_of_mem c h)
    show (if c = ch then rest (s ++ [0]) else some false) = _
    rw [hrest s hs]

/-- A plain piece at the head of the rest is what the skipped places lack. -/
theorem search_of_skips {pattern : List UInt8} {c : UInt8} (h : wcSkips pattern c = true)
    (t : List UInt8) : search (pieces pattern) (c :: t) = some false := by
  cases pattern with
  | nil => exact absurd h nofun
  | cons ch pattern =>
    simp only [wcSkips, Bool.decide_and, Bool.and_eq_true, decide_eq_true_eq] at h
    obtain ⟨h₁, h₂, h₃, h₄⟩ := h
    unfold pieces
    rw [if_neg h₁, if_neg h₃, if_neg h₂, search, if_neg h₄]

/-- The code is a search on the pieces of the pattern. -/
theorem wcMatch_eq_search (pattern : List UInt8) (hp : 0 ∉ pattern) (hs : 0 ∉ s) :
    wcMatch pattern (s ++ [0]) = search (pieces pattern) s := by
  induction pattern using pieces.induct generalizing s with
  | case1 =>
    cases s with
    | nil => rfl
    | cons c s =>
      have hc : c ≠ 0 := fun h => hs (h ▸ List.mem_cons_self)
      simp [wcMatch, pieces, search, hc]
  | case2 pattern ih =>
    have hp : 0 ∉ pattern := fun h => hp (List.mem_cons_of_mem _ h)
    unfold wcMatch pieces
    rw [if_pos rfl, if_pos rfl]
    cases s with
    | nil => exact wcMatch_past pattern
    | cons c s => exact ih hp fun h => hs (List.mem_cons_of_mem c h)
  | case3 pattern h ih =>
    have hp : 0 ∉ pattern := fun h => hp (List.mem_cons_of_mem _ h)
    unfold wcMatch pieces
    rw [if_neg h, if_neg h, if_pos rfl, if_pos rfl]
    simp only [search, pieces_eq_nil]
    split_ifs
    · rfl
    · exact wcStar_eq_tries hs (fun t ht => ih hp ht) fun c t h => search_of_skips h t
  | case4 =>
    cases s with
    | nil => rfl
    | cons c s =>
      have hc : c ≠ 0 := fun h => hs (h ▸ List.mem_cons_self)
      exact if_neg hc
  | case5 ch pattern _ _ ih =>
    have hch : ch ≠ 0 := fun h => hp (h ▸ List.mem_cons_of_mem _ List.mem_cons_self)
    have hp : 0 ∉ pattern := fun h => hp (List.mem_cons_of_mem _ (List.mem_cons_of_mem _ h))
    show wcCompare (wcMatch pattern) ch (s ++ [0]) = search (.char ch :: pieces pattern) s
    rw [wcCompare_eq hch hs fun t ht => ih hp ht]
    cases s <;> rfl
  | case6 ch pattern h₁ h₂ h₃ ih =>
    have hch : ch ≠ 0 := fun h => hp (h ▸ List.mem_cons_self)
    have hp : 0 ∉ pattern := fun h => hp (List.mem_cons_of_mem _ h)
    unfold wcMatch pieces
    rw [if_neg h₁, if_neg h₂, if_neg h₃, if_neg h₁, if_neg h₂, if_neg h₃,
      wcCompare_eq hch hs fun t ht => ih hp ht]
    cases s <;> rfl

/-! ## What the search finds -/

/-- The search comes to a match: a `*` before other pieces has left a character to them. -/
def Hits : List (Piece UInt8) → List UInt8 → Prop
  | [], s => s = []
  | .char _ :: _, [] => False
  | .char ch :: p, c :: s => c = ch ∧ Hits p s
  | .one :: _, [] => False
  | .one :: p, _ :: s => Hits p s
  | .many :: p, s => p = [] ∨ ∃ t, t <:+ s ∧ t ≠ [] ∧ Hits p t
  | .never :: _, _ => False

/-- The search can come to the end of the string at a `?` or at a backslash. -/
def Falls : List (Piece UInt8) → List UInt8 → Prop
  | [], _ => False
  | .char _ :: _, [] => False
  | .char ch :: p, c :: s => c = ch ∧ Falls p s
  | .one :: _, [] => True
  | .one :: p, _ :: s => Falls p s
  | .many :: p, s => ∃ t, t <:+ s ∧ t ≠ [] ∧ Falls p t
  | .never :: _, s => s = []

theorem suffix_of_cons_suffix_cons {c d : UInt8} (h : c :: t <:+ d :: s) : t <:+ s := by
  rcases List.suffix_cons_iff.mp h with h | h
  · rw [(List.cons.inj h).2]
  · exact (List.suffix_cons c t).trans h

/-- Where the search falls off the end of the string before a match is found, the match begins the same
way. -/
theorem hits_of_falls (h : Hits p t) (hf : Falls p s) (hts : t <:+ s) : Hits p s := by
  induction p generalizing s t with
  | nil => exact hf.elim
  | cons x p ih =>
    cases x with
    | char ch =>
      cases t with
      | nil => exact h.elim
      | cons c t =>
        cases s with
        | nil => exact hf.elim
        | cons d s => exact ⟨hf.1, ih h.2 hf.2 (suffix_of_cons_suffix_cons hts)⟩
    | one =>
      cases t with
      | nil => exact h.elim
      | cons c t =>
        cases s with
        | nil => exact absurd hts.length_le (Nat.not_succ_le_zero _)
        | cons d s => exact ih (s := s) h hf (suffix_of_cons_suffix_cons hts)
    | many => exact h.imp_right fun ⟨u, hu, hne, hh⟩ => ⟨u, hu.trans hts, hne, hh⟩
    | never => exact h.elim

/-- The loop for `*` finds a match if the first one is not preceded by a fall. -/
theorem tries_of_hits {f : List UInt8 → Option Bool}
    (hhit : ∀ u, u <:+ s → u ≠ [] → Hits p u → f u = some true)
    (hmiss : ∀ u, u <:+ s → u ≠ [] → ¬ Hits p u → ¬ Falls p u → f u = some false)
    (ht : t <:+ s) (hne : t ≠ []) (h : Hits p t) : tries f s = some true := by
  induction s with
  | nil => exact absurd (List.suffix_nil.mp ht) hne
  | cons c s ih =>
    by_cases hc : Hits p (c :: s)
    · rw [tries, hhit _ List.suffix_rfl (List.cons_ne_nil _ _) hc]
    · have hf : ¬ Falls p (c :: s) := fun hf => hc (hits_of_falls h hf ht)
      rw [tries, hmiss _ List.suffix_rfl (List.cons_ne_nil _ _) hc hf]
      have ht : t <:+ s := (List.suffix_cons_iff.mp ht).resolve_left fun h' => hc (h' ▸ h)
      exact ih (fun u hu => hhit u (hu.trans (List.suffix_cons c s)))
        (fun u hu => hmiss u (hu.trans (List.suffix_cons c s))) ht

theorem tries_of_not_falls {f : List UInt8 → Option Bool}
    (h : ∀ u, u <:+ s → u ≠ [] → f u = some false) : tries f s = some false := by
  induction s with
  | nil => rfl
  | cons c s ih =>
    rw [tries, h _ List.suffix_rfl (List.cons_ne_nil _ _)]
    exact ih fun u hu => h u (hu.trans (List.suffix_cons c s))

theorem tries_of_falls {f : List UInt8 → Option Bool} (ht : t <:+ s) (hne : t ≠ [])
    (h : f t ≠ some false) : tries f s ≠ some false := by
  induction s with
  | nil => exact absurd (List.suffix_nil.mp ht) hne
  | cons c s ih =>
    rw [tries]
    rcases List.suffix_cons_iff.mp ht with rfl | ht
    · split
      · exact nofun
      · exact nofun
      · exact absurd (by assumption) h
    · split
      · exact nofun
      · exact nofun
      · exact ih ht

/-- What the search finds is right, unless it comes to the end of the string. -/
structure Found (p : List (Piece UInt8)) (s : List UInt8) : Prop where
  hit : Hits p s → search p s = some true
  miss : ¬ Hits p s → ¬ Falls p s → search p s = some false
  fall : ¬ Hits p s → Falls p s → search p s ≠ some false

theorem past_ne (p : List (Piece UInt8)) : past p ≠ some false := by
  induction p with
  | nil => exact nofun
  | cons x p ih =>
    cases x with
    | char ch => exact nofun
    | one => exact ih
    | many => cases p <;> exact nofun
    | never => exact nofun

theorem found (p : List (Piece UInt8)) (s : List UInt8) : Found p s := by
  induction p generalizing s with
  | nil => exact ⟨fun h => congrArg some (decide_eq_true h),
      fun h _ => congrArg some (decide_eq_false h), fun _ hf => hf.elim⟩
  | cons x p ih =>
    cases x with
    | char ch =>
      cases s with
      | nil => exact ⟨fun h => h.elim, fun _ _ => rfl, fun _ hf => hf.elim⟩
      | cons c s =>
        by_cases hc : c = ch
        · have hs : search (.char ch :: p) (c :: s) = search p s := if_pos hc
          refine ⟨fun h => ?_, fun h hf => ?_, fun h hf => ?_⟩
          · exact hs.trans ((ih s).hit h.2)
          · exact hs.trans ((ih s).miss (fun hh => h ⟨hc, hh⟩) fun hh => hf ⟨hc, hh⟩)
          · rw [hs]
            exact (ih s).fall (fun hh => h ⟨hc, hh⟩) hf.2
        · exact ⟨fun h => absurd h.1 hc, fun _ _ => if_neg hc, fun _ hf => absurd hf.1 hc⟩
    | one =>
      cases s with
      | nil => exact ⟨fun h => h.elim, fun _ hf => absurd trivial hf, fun _ _ => past_ne p⟩
      | cons c s => exact ⟨(ih s).hit, (ih s).miss, (ih s).fall⟩
    | many =>
      by_cases hp : p = []
      · subst hp
        exact ⟨fun _ => rfl, fun h => absurd (.inl rfl) h, fun h => absurd (.inl rfl) h⟩
      · have hs : search (.many :: p) s = tries (search p) s := if_neg hp
        refine ⟨fun h => ?_, fun h hf => ?_, fun h ⟨t, ht, hne, hf⟩ => ?_⟩
        · obtain ⟨t, ht, hne, hh⟩ := h.resolve_left hp
          rw [hs]
          exact tries_of_hits (fun u _ _ => (ih u).hit) (fun u _ _ => (ih u).miss) ht hne hh
        · rw [hs]
          apply tries_of_not_falls
          intro u hu hne
          exact (ih u).miss (fun hh => h (.inr ⟨u, hu, hne, hh⟩)) fun hh => hf ⟨u, hu, hne, hh⟩
        · rw [hs]
          exact tries_of_falls ht hne ((ih t).fall (fun hh => h (.inr ⟨t, ht, hne, hh⟩)) hf)
    | never =>
      cases s with
      | nil => exact ⟨fun h => h.elim, fun _ hf => absurd rfl hf, fun _ _ => nofun⟩
      | cons c s => exact ⟨fun h => h.elim, fun _ _ => rfl, fun _ hf => nomatch hf⟩

/-! ## Where the code is right -/

/-- Two stars at the end of a pattern need a character there. -/
def needed : List (Piece UInt8) → List (Piece UInt8)
  | [] => []
  | [.many, .many] => [.one, .many]
  | x :: p => x :: needed p

theorem needed_cons {x : Piece UInt8} (h : ¬ (x = .many ∧ p = [.many])) :
    needed (x :: p) = x :: needed p := by
  rw [needed]
  exact fun hx hp => h ⟨hx, hp⟩

theorem matches_needed_nil (h : Matches (needed p) []) : p = [] ∨ p = [.many] := by
  induction p with
  | nil => exact .inl rfl
  | cons x p ih =>
    by_cases hx : x = .many ∧ p = [.many]
    · obtain ⟨rfl, rfl⟩ := hx
      exact absurd h not_matches_one_nil
    · rw [needed_cons hx] at h
      have hall := matches_nil_iff.mp h
      obtain rfl := hall x List.mem_cons_self
      rcases ih (matches_nil_iff.mpr fun y hy => hall y (List.mem_cons_of_mem _ hy)) with rfl | rfl
      · exact .inr rfl
      · exact absurd ⟨rfl, rfl⟩ hx

theorem hits_iff : Hits p s ↔ Matches (needed p) s := by
  induction p generalizing s with
  | nil => rfl
  | cons x p ih =>
    by_cases hx : x = .many ∧ p = [.many]
    · obtain ⟨rfl, rfl⟩ := hx
      cases s with
      | nil => simp [Hits, needed]
      | cons c s =>
        refine iff_of_true (.inr ⟨c :: s, List.suffix_rfl, List.cons_ne_nil _ _, .inl rfl⟩) ?_
        exact matches_one_cons.mpr matches_many
    · rw [needed_cons hx]
      cases x with
      | char ch => cases s <;> simp [Hits, ih]
      | one => cases s <;> simp [Hits, ih]
      | never => simp [Hits]
      | many =>
        by_cases hp : p = []
        · subst hp
          exact iff_of_true (.inl rfl) matches_many
        · rw [matches_many_iff, Hits, or_iff_right hp]
          constructor
          · rintro ⟨t, ht, -, hh⟩
            exact ⟨t, ht, ih.mp hh⟩
          · rintro ⟨t, ht, hm⟩
            refine ⟨t, ht, ?_, ih.mpr hm⟩
            rintro rfl
            rcases matches_needed_nil hm with h | h
            · exact hp h
            · exact hx ⟨rfl, h⟩

theorem matches_of_hits (h : Hits p s) : Matches p s := by
  induction p generalizing s with
  | nil => exact h
  | cons x p ih =>
    cases x with
    | char ch =>
      cases s with
      | nil => exact h.elim
      | cons c s => exact matches_char_cons.mpr ⟨h.1, ih h.2⟩
    | one =>
      cases s with
      | nil => exact h.elim
      | cons c s => exact matches_one_cons.mpr (ih h)
    | many =>
      rcases h with rfl | ⟨t, ht, -, hh⟩
      · exact matches_many
      · exact matches_many_iff.mpr ⟨t, ht, ih hh⟩
    | never => exact h.elim

/-- A part of the pattern matches the whole string, and a `?` or a backslash at the end of the pattern
comes next. -/
def RunsOut (p : List (Piece UInt8)) (s : List UInt8) : Prop :=
  ∃ q x r, p = q ++ x :: r ∧ (x = .one ∨ x = .never) ∧ q.getLast? ≠ some .many ∧ Matches q s

theorem getLast?_cons_ne {x : Piece UInt8} (hx : x ≠ .many) (q : List (Piece UInt8)) :
    (x :: q).getLast? ≠ some .many ↔ q.getLast? ≠ some .many := by
  rw [List.getLast?_cons, ne_eq, Option.some.injEq]
  cases q.getLast? with
  | none => exact iff_of_true hx nofun
  | some y => simp

/-- The first piece stands at the end of the string, or it is a part of what matches. -/
theorem runsOut_cons {x : Piece UInt8} (hx : x ≠ .many) :
    RunsOut (x :: p) s ↔ (x = .one ∨ x = .never) ∧ s = [] ∨
      ∃ q y r, p = q ++ y :: r ∧ (y = .one ∨ y = .never) ∧ q.getLast? ≠ some .many ∧
        Matches (x :: q) s := by
  constructor
  · rintro ⟨q, y, r, he, hy, hq, hs⟩
    cases q with
    | nil =>
      obtain ⟨rfl, rfl⟩ := List.cons.inj he
      exact .inl ⟨hy, hs⟩
    | cons z q =>
      obtain ⟨rfl, rfl⟩ := List.cons.inj he
      exact .inr ⟨q, y, r, rfl, hy, (getLast?_cons_ne hx q).mp hq, hs⟩
  · rintro (⟨hy, rfl⟩ | ⟨q, y, r, rfl, hy, hq, hs⟩)
    · exact ⟨[], x, p, rfl, hy, nofun, rfl⟩
    · exact ⟨x :: q, y, r, rfl, hy, (getLast?_cons_ne hx q).mpr hq, hs⟩

/-- A star has left a character to what comes after it. -/
theorem runsOut_many :
    RunsOut (.many :: p) s ↔ ∃ t, t <:+ s ∧ t ≠ [] ∧ RunsOut p t := by
  constructor
  · rintro ⟨q, y, r, he, hy, hq, hs⟩
    cases q with
    | nil =>
      obtain ⟨rfl, -⟩ := List.cons.inj he
      exact absurd hy (by simp)
    | cons z q =>
      obtain ⟨rfl, rfl⟩ := List.cons.inj he
      obtain ⟨t, ht, hm⟩ := matches_many_iff.mp hs
      rw [List.getLast?_cons, ne_eq, Option.some.injEq] at hq
      have hq' : q.getLast? ≠ some .many := fun h => hq (by rw [h]; rfl)
      refine ⟨t, ht, ?_, q, y, r, rfl, hy, hq', hm⟩
      rintro rfl
      -- only stars match the empty string, so the last piece is one
      cases hl : q.getLast? with
      | none => exact hq (by rw [hl]; rfl)
      | some z =>
        obtain rfl := matches_nil_iff.mp hm z (List.mem_of_getLast? hl)
        exact hq' hl
  · rintro ⟨t, ht, hne, q, y, r, rfl, hy, hq, hm⟩
    refine ⟨.many :: q, y, r, rfl, hy, ?_, matches_many_iff.mpr ⟨t, ht, hm⟩⟩
    rw [List.getLast?_cons, ne_eq, Option.some.injEq]
    cases hl : q.getLast? with
    | none =>
      obtain rfl := List.getLast?_eq_none_iff.mp hl
      exact absurd hm hne
    | some z => exact fun h => hq (hl.trans (congrArg some h))

theorem falls_iff : Falls p s ↔ RunsOut p s := by
  induction p generalizing s with
  | nil => exact iff_of_false id fun ⟨q, x, r, h, _⟩ => by simp at h
  | cons x p ih =>
    cases x with
    | many =>
      rw [runsOut_many]
      simp only [Falls, ih]
    | char ch =>
      rw [runsOut_cons (x := .char ch) (by simp)]
      cases s with
      | nil => simp [Falls]
      | cons c s =>
        show c = ch ∧ Falls p s ↔ _
        rw [ih]
        simp only [matches_char_cons, RunsOut]
        grind
    | one =>
      rw [runsOut_cons (x := .one) (by simp)]
      cases s with
      | nil => simp [Falls]
      | cons c s =>
        show Falls p s ↔ _
        rw [ih]
        simp [RunsOut]
    | never =>
      rw [runsOut_cons (x := .never) (by simp)]
      simp [Falls]

/-! ## When the result is right -/

/-- The last two pieces -/
def EndsIn (p : List (Piece UInt8)) (x y : Piece UInt8) : Prop := ∃ q, p = q ++ [x, y]

theorem EndsIn.cons {x y : Piece UInt8} (h : EndsIn p x y) (z : Piece UInt8) : EndsIn (z :: p) x y := by
  obtain ⟨q, rfl⟩ := h
  exact ⟨z :: q, rfl⟩

/-- Without two stars at its end a pattern needs nothing else. -/
theorem needed_eq_or (p : List (Piece UInt8)) : needed p = p ∨ EndsIn p .many .many := by
  induction p with
  | nil => exact .inl rfl
  | cons x p ih =>
    by_cases hx : x = .many ∧ p = [.many]
    · obtain ⟨rfl, rfl⟩ := hx
      exact .inr ⟨[], rfl⟩
    · rw [needed_cons hx]
      exact ih.imp (congrArg (x :: ·)) fun h => h.cons x

theorem tries_eq_true {f : List UInt8 → Option Bool} (h : tries f s = some true) :
    ∃ t, t <:+ s ∧ t ≠ [] ∧ f t = some true := by
  induction s with
  | nil => exact absurd h nofun
  | cons c s ih =>
    rw [tries] at h
    split at h
    · exact absurd h nofun
    · exact ⟨c :: s, List.suffix_rfl, List.cons_ne_nil c s, by assumption⟩
    · obtain ⟨t, ht, hne, hf⟩ := ih h
      exact ⟨t, ht.trans (List.suffix_cons c s), hne, hf⟩

theorem past_eq_true (h : past p = some true) : EndsIn (.one :: p) .one .many := by
  induction p with
  | nil => exact absurd h nofun
  | cons x p ih =>
    cases x with
    | char ch => exact absurd h nofun
    | one => exact (ih h).cons .one
    | many =>
      cases p with
      | nil => exact ⟨[], rfl⟩
      | cons y p => exact absurd h nofun
    | never => exact absurd h nofun

/-- What is found without a match is found behind the string. -/
theorem search_eq_true (h : search p s = some true) : Hits p s ∨ EndsIn p .one .many := by
  induction p generalizing s with
  | nil =>
    have hs : s = [] := of_decide_eq_true (Option.some.inj h)
    exact .inl hs
  | cons x p ih =>
    cases x with
    | char ch =>
      cases s with
      | nil => exact absurd h nofun
      | cons c s =>
        rw [search] at h
        by_cases hc : c = ch
        · rw [if_pos hc] at h
          exact (ih h).imp (⟨hc, ·⟩) (·.cons _)
        · rw [if_neg hc] at h
          exact absurd h nofun
    | one =>
      cases s with
      | nil => exact .inr (past_eq_true h)
      | cons c s => exact (ih (s := s) h).imp id (·.cons _)
    | many =>
      rw [search] at h
      split_ifs at h with hp
      · exact .inl (.inl hp)
      · obtain ⟨t, ht, hne, hf⟩ := tries_eq_true h
        exact (ih hf).imp (fun hh => .inr ⟨t, ht, hne, hh⟩) (·.cons _)
    | never => cases s <;> exact absurd h nofun

/-- A match that the code does not come to is not found at all. -/
theorem search_ne_true (hm : Matches p s) (hn : ¬ Hits p s) : search p s ≠ some true := by
  intro h
  obtain ⟨q, hq⟩ := (search_eq_true h).resolve_left hn
  obtain ⟨r, hr⟩ := (needed_eq_or p).resolve_left fun he => hn (hits_iff.mpr (he.symm ▸ hm))
  have hqr := List.append_inj_right' (hq.symm.trans hr) rfl
  exact absurd hqr (by simp)

/-- The pattern matches also if two stars at its end take a character; or it does not match, and
neither does a part of it that a `?` or a backslash at the end comes after. -/
structure WellDecided (p : List (Piece UInt8)) (s : List UInt8) : Prop where
  star : Matches p s → Matches (needed p) s
  runsOut : ¬ Matches p s → ¬ RunsOut p s

theorem search_eq_iff : search p s = some (decide (Matches p s)) ↔ WellDecided p s := by
  have hf := found p s
  by_cases hm : Matches p s
  · rw [decide_eq_true hm]
    constructor
    · intro h
      refine ⟨fun _ => ?_, fun hn => absurd hm hn⟩
      by_contra hn
      exact search_ne_true hm (fun hh => hn (hits_iff.mp hh)) h
    · intro h
      exact hf.hit (hits_iff.mpr (h.star hm))
  · have hn : ¬ Hits p s := fun hh => hm (matches_of_hits hh)
    rw [decide_eq_false hm]
    constructor
    · intro h
      exact ⟨fun h => absurd h hm, fun _ hr => hf.fall hn (falls_iff.mpr hr) h⟩
    · intro h
      exact hf.miss hn fun hh => h.runsOut hm (falls_iff.mp hh)

/-- `wc_match` reads nothing behind its arguments and tells whether they match, exactly for these. -/
theorem wc_match_iff {pattern str : List UInt8} (hp : 0 ∉ pattern) (hs : 0 ∉ str) :
    wcMatch pattern (str ++ [0]) = some (matched pattern str) ↔ WellDecided (pieces pattern) str := by
  rw [wcMatch_eq_search pattern hp hs]
  exact search_eq_iff

/-- `a*b` and `axb` -/
theorem wc_match_of_star : wcMatch [97, 42, 98] ([97, 120, 98] ++ [0]) = some true :=
  (wc_match_iff (by decide) (by decide)).mpr
    ⟨fun _ => by decide, fun h => absurd (by decide) h⟩

/-- `a?` reads behind `a`, `?*` takes the empty string, and `a**` does not take `a`. -/
theorem wc_match_at_end :
    ¬ (∀ pattern str : List UInt8, 0 ∉ pattern → 0 ∉ str →
        wcMatch pattern (str ++ [0]) = some (matched pattern str)) ∧
      wcMatch [97, 63] [97, 0] = none ∧
      wcMatch [63, 42] [0] = some true ∧ matched [63, 42] [] = false ∧
      wcMatch [97, 42, 42] [97, 0] = some false ∧ matched [97, 42, 42] [97] = true := by
  refine ⟨fun h => ?_, by decide, by decide, by decide, by decide, by decide⟩
  exact absurd (h [97, 63] [97] (by decide) (by decide)) (by decide)

end LinuxSna.Asuite
