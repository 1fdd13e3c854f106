import LinuxSna.Framework.Run
import LinuxSna.Impl.Snatchd.Launch

/-!
# How often a program is launched

A refused launch sets the count to 0, so the next attach is let through in the same flood. And the
launches are counted from the time of one of them on, not back from each: as the count begins again
when the limit is met, up to twice the limit less three programs are launched within the interval.

* `Limited`: what the limit is for;
* `limited_cons`: what it asks of the last attach;
* `limited_iff`: the runs in which the code keeps to it.
-/

namespace LinuxSna.Snatchd

open Framework (Along run Loses)

/-! ## What the limit is for -/

/-- The time lies in the interval that ends at another. -/
def Recent (t : Int) (l : Launch) : Prop := t - l.time ≤ cntIntvl

instance (t : Int) (l : Launch) : Decidable (Recent t l) := inferInstanceAs (Decidable (_ ≤ _))

/-- One of the attaches with which a flood that goes on has come has been refused. -/
def Flooded : Int → List Launch → Prop
  | _, [] => False
  | t, l :: ls => Recent t l ∧ (l.forked = false ∨ Flooded l.time ls)

instance decidableFlooded : ∀ (t : Int) (ls : List Launch), Decidable (Flooded t ls)
  | _, [] => .isFalse id
  | t, l :: ls =>
    have := decidableFlooded l.time ls
    inferInstanceAs (Decidable (Recent t l ∧ (l.forked = false ∨ Flooded l.time ls)))

/-- How many launches fall into the interval that begins at `a` -/
def forks (a : Int) (ls : List Launch) : ℕ :=
  ls.countP fun l => l.forked && decide (a ≤ l.time ∧ l.time ≤ a + cntIntvl)

/-- No interval has more than `limit` launches, what comes after an interval without an attach is let
through, and once an attach has been refused none is let through until the flood has stopped. -/
structure Limited (limit : Int) (ls : List Launch) : Prop where
  window : ∀ a, (forks a ls : Int) ≤ limit
  first : ∀ l earlier, l :: earlier <:+ ls → (∀ m ∈ earlier, ¬ Recent l.time m) → l.forked
  refused : ∀ l earlier, l :: earlier <:+ ls → Flooded l.time earlier → l.forked = false

/-- The last attach is treated as the limit asks. -/
structure Right (limit : Int) (l : Launch) (earlier : List Launch) : Prop where
  window : l.forked → (forks (l.time - cntIntvl) (l :: earlier) : Int) ≤ limit
  first : (∀ m ∈ earlier, ¬ Recent l.time m) → l.forked
  refused : Flooded l.time earlier → l.forked = false

variable {limit : Int} {l : Launch} {earlier ls : List Launch}

theorem forks_cons (a : Int) (l : Launch) (ls : List Launch) :
    forks a (l :: ls) =
      forks a ls + if l.forked ∧ a ≤ l.time ∧ l.time ≤ a + cntIntvl then 1 else 0 := by
  simp [forks, List.countP_cons]

/-- An interval with the last attach has no more launches than the one that ends with it. -/
theorem forks_le (a : Int) (hlast : ∀ m ∈ earlier, m.time ≤ l.time) (h : l.time ≤ a + cntIntvl) :
    forks a (l :: earlier) ≤ forks (l.time - cntIntvl) (l :: earlier) := by
  apply List.countP_mono_left
  intro m hm hf
  have hle : m.time ≤ l.time := (List.mem_cons.mp hm).elim (fun h => h ▸ Int.le_refl _) (hlast m)
  simp only [Bool.and_eq_true, decide_eq_true_eq] at hf ⊢
  refine ⟨hf.1, ?_, ?_⟩
  · omega
  · omega

theorem limited_nil (h : 1 ≤ limit) : Limited limit [] where
  window a := by
    show (0 : Int) ≤ limit
    omega
  first l earlier h := absurd (List.suffix_nil.mp h) (List.cons_ne_nil _ _)
  refused l earlier h := absurd (List.suffix_nil.mp h) (List.cons_ne_nil _ _)

/-- The limit is kept if it was kept before, and the last attach is treated right. -/
theorem limited_cons (hlast : ∀ m ∈ earlier, m.time ≤ l.time) :
    Limited limit (l :: earlier) ↔ Limited limit earlier ∧ Right limit l earlier := by
  constructor
  · intro h
    refine ⟨⟨fun a => ?_, fun m e hs => ?_, fun m e hs => ?_⟩, ⟨fun _ => ?_, ?_, ?_⟩⟩
    · have := h.window a
      rw [forks_cons] at this
      omega
    · exact h.first m e (hs.trans (List.suffix_cons l earlier))
    · exact h.refused m e (hs.trans (List.suffix_cons l earlier))
    · exact h.window _
    · exact h.first l earlier List.suffix_rfl
    · exact h.refused l earlier List.suffix_rfl
  · rintro ⟨h, hr⟩
    refine ⟨fun a => ?_, fun m e hs => ?_, fun m e hs => ?_⟩
    · by_cases hl : l.forked ∧ a ≤ l.time ∧ l.time ≤ a + cntIntvl
      · have hle := forks_le a hlast hl.2.2
        have := hr.window hl.1
        omega
      · have := h.window a
        rw [forks_cons, if_neg hl]
        omega
    · rcases List.suffix_cons_iff.mp hs with heq | hs
      · obtain ⟨rfl, rfl⟩ := List.cons.inj heq
        exact hr.first
      · exact h.first m e hs
    · rcases List.suffix_cons_iff.mp hs with heq | hs
      · obtain ⟨rfl, rfl⟩ := List.cons.inj heq
        exact hr.refused
      · exact h.refused m e hs

/-! ## Floods -/

/-- The last attach comes first. -/
def Sorted (ls : List Launch) : Prop := ls.Pairwise fun l m => m.time ≤ l.time

/-- What has been refused within the interval belongs to the flood. -/
theorem flooded_of_mem {t : Int} (hs : Sorted ls) (ht : ∀ m ∈ ls, m.time ≤ t) {r : Launch}
    (hr : r ∈ ls) (hf : r.forked = false) (hrec : Recent t r) : Flooded t ls := by
  induction ls generalizing t with
  | nil => exact absurd hr List.not_mem_nil
  | cons l ls ih =>
    obtain ⟨hl, hs⟩ := List.pairwise_cons.mp hs
    have hlt := ht l List.mem_cons_self
    rcases List.mem_cons.mp hr with rfl | hr
    · exact ⟨hrec, .inl hf⟩
    · have hle := hl r hr
      unfold Recent at hrec
      refine ⟨?_, .inr (ih hs hl hr ?_)⟩
      · show t - l.time ≤ cntIntvl
        omega
      · show l.time - r.time ≤ cntIntvl
        omega

/-- Without a refusal in the flood, all that has come within the interval has been let through. -/
theorem forks_eq_recent {t : Int} (hs : Sorted ls) (ht : ∀ m ∈ ls, m.time ≤ t) (hf : ¬ Flooded t ls) :
    forks (t - cntIntvl) ls = ls.countP (Recent t ·) := by
  apply List.countP_congr
  intro m hm
  have hle := ht m hm
  simp only [Bool.and_eq_true, decide_eq_true_eq]
  constructor
  · rintro ⟨-, h, -⟩
    show t - m.time ≤ cntIntvl
    omega
  · intro h
    have hforked : m.forked = true := by
      by_contra hn
      exact hf (flooded_of_mem hs ht hm (Bool.eq_false_iff.mpr hn) h)
    unfold Recent at h
    exact ⟨hforked, by omega, by omega⟩

theorem countP_recent_eq_zero {t : Int} (h : ∀ m ∈ ls, ¬ Recent t m) : ls.countP (Recent t ·) = 0 :=
  List.countP_eq_zero.mpr fun m hm => by simpa using h m hm

theorem not_flooded_of_not_recent {t : Int} (h : ∀ m ∈ ls, ¬ Recent t m) : ¬ Flooded t ls := by
  cases ls with
  | nil => exact id
  | cons l ls => exact fun hf => h l List.mem_cons_self hf.1

/-! ## What the code does -/

/-- The count is 0 before the first attach and after a refusal; otherwise the last attach was let
through, and one that has come at the time that is kept. -/
structure Kept (limit : Int) (p : Program) : Prop where
  bound : p.tp.limit = limit
  count : 0 ≤ p.tp.count
  sorted : Sorted p.launches
  limited : Limited limit p.launches
  reset : p.tp.count = 0 → ∀ l ∈ p.launches.head?, l.forked = false
  last : p.tp.count ≠ 0 → ∃ l earlier, p.launches = l :: earlier ∧ l.forked = true
  time : p.tp.count ≠ 0 → ∃ l ∈ p.launches, l.time = p.tp.time

/-- An attach that finds the count at 0 comes after an interval without another, and one that is let
through is at most the `limit`-th within the interval. -/
structure Fair (p : Program) (attach : Int × Int) : Prop where
  reset : p.tp.count = 0 → ∀ l ∈ p.launches, ¬ Recent attach.1 l
  few : p.tp.count + 1 < p.tp.limit ∨ attach.1 - p.tp.time > cntIntvl →
    (p.launches.countP (Recent attach.1 ·) : Int) < p.tp.limit

variable {p p' : Program} {attach : Int × Int}

theorem forked_window (t : Int) (ls : List Launch) :
    forks (t - cntIntvl) (⟨t, true⟩ :: ls) = forks (t - cntIntvl) ls + 1 := by
  have hi : (0 : Int) ≤ cntIntvl := by decide
  have h : t - cntIntvl ≤ t ∧ t ≤ t - cntIntvl + cntIntvl := by omega
  rw [forks_cons, if_pos ⟨rfl, h⟩]

/-- An attach at the count 0, which is let through -/
theorem right_of_reset (hk : Kept limit p) (hpos : 1 ≤ limit) (hc : p.tp.count = 0) {t : Int}
    (ht : ∀ m ∈ p.launches, m.time ≤ t) :
    Right limit ⟨t, true⟩ p.launches ↔ ∀ m ∈ p.launches, ¬ Recent t m := by
  constructor
  · intro h m hm hrec
    have hf : ¬ Flooded t p.launches := fun hf => absurd (h.refused hf) nofun
    cases hl : p.launches with
    | nil =>
      rw [hl] at hm
      exact absurd hm List.not_mem_nil
    | cons l earlier =>
      have hlf : l.forked = false := hk.reset hc l (by rw [hl]; rfl)
      apply hf
      have hsorted := hk.sorted
      rw [hl] at hm hsorted ⊢
      refine ⟨?_, .inl hlf⟩
      rcases List.mem_cons.mp hm with rfl | hm
      · exact hrec
      · have := (List.pairwise_cons.mp hsorted).1 m hm
        unfold Recent at hrec ⊢
        omega
  · intro h
    have hf := not_flooded_of_not_recent h
    refine ⟨fun _ => ?_, fun _ => rfl, fun hh => absurd hh hf⟩
    rw [forked_window, forks_eq_recent hk.sorted ht hf, countP_recent_eq_zero h]
    omega

/-- Another attach that is let through -/
theorem right_of_forked (hk : Kept limit p) (hc : p.tp.count ≠ 0) {t : Int}
    (ht : ∀ m ∈ p.launches, m.time ≤ t) :
    Right limit ⟨t, true⟩ p.launches ↔ (p.launches.countP (Recent t ·) : Int) < limit := by
  have hf : ¬ Flooded t p.launches := by
    obtain ⟨l, earlier, hl, hlf⟩ := hk.last hc
    have hr := hk.limited.refused l earlier ⟨[], hl.symm⟩
    rw [hl]
    rintro ⟨-, h | h⟩
    · exact absurd (hlf.symm.trans h) nofun
    · exact absurd (hlf.symm.trans (hr h)) nofun
  have hw := forked_window t p.launches
  rw [forks_eq_recent hk.sorted ht hf] at hw
  constructor
  · intro h
    have := h.window rfl
    rw [hw] at this
    omega
  · intro h
    refine ⟨fun _ => ?_, fun _ => rfl, fun hh => absurd hh hf⟩
    rw [hw]
    omega

/-- An attach that is refused has another within the interval before it. -/
theorem right_of_refused (hk : Kept limit p) (hc : p.tp.count ≠ 0) {t : Int}
    (h : ¬ t - p.tp.time > cntIntvl) : Right limit ⟨t, false⟩ p.launches := by
  obtain ⟨l, hl, hlt⟩ := hk.time hc
  refine ⟨nofun, fun hn => absurd ?_ (hn l hl), fun _ => rfl⟩
  show t - l.time ≤ cntIntvl
  omega

/-- What the attach leaves -/
def attached (p : Program) (attach : Int × Int) : Program :=
  ⟨(snatchForkTp p.tp attach.1 attach.2).tp,
    ⟨attach.1, (snatchForkTp p.tp attach.1 attach.2).forks⟩ :: p.launches⟩

theorem launch_eq_some :
    p.launch attach = some p' ↔ (∀ l ∈ p.launches, l.time ≤ attach.1) ∧ p' = attached p attach := by
  unfold Program.launch attached
  split_ifs with h
  · rw [Option.some.injEq, eq_comm, and_iff_right h]
  · exact iff_of_false nofun fun hp => h hp.1

/-- The last attach is treated right exactly if it is fair. -/
theorem right_iff (hk : Kept limit p) (hpos : 1 ≤ limit) (ht : ∀ m ∈ p.launches, m.time ≤ attach.1) :
    Right limit ⟨attach.1, (snatchForkTp p.tp attach.1 attach.2).forks⟩ p.launches ↔
      Fair p attach := by
  have hb := hk.bound
  by_cases hc : p.tp.count = 0
  · rw [show (snatchForkTp p.tp attach.1 attach.2).forks = true by rw [snatchForkTp, if_pos hc],
      right_of_reset hk hpos hc ht]
    refine ⟨fun h => ⟨fun _ => h, fun _ => ?_⟩, fun h => h.reset hc⟩
    rw [countP_recent_eq_zero h]
    omega
  · by_cases hl : p.tp.count + 1 < p.tp.limit ∨ attach.1 - p.tp.time > cntIntvl
    · have hf : (snatchForkTp p.tp attach.1 attach.2).forks = true := by
        unfold snatchForkTp
        rw [if_neg hc]
        dsimp only
        split_ifs
        · rfl
        · omega
        · rfl
      rw [hf, right_of_forked hk hc ht, ← hb]
      exact ⟨fun h => ⟨fun h0 => absurd h0 hc, fun _ => h⟩, fun h => h.few hl⟩
    · obtain ⟨hl₁, hl₂⟩ := not_or.mp hl
      have hf : (snatchForkTp p.tp attach.1 attach.2).forks = false := by
        unfold snatchForkTp
        rw [if_neg hc]
        dsimp only
        rw [if_pos (Int.not_lt.mp hl₁), if_neg hl₂]
      rw [hf]
      exact iff_of_true (right_of_refused hk hc hl₂)
        ⟨fun h0 => absurd h0 hc, fun h => absurd h hl⟩

theorem Kept.attached (hk : Kept limit p) (ht : ∀ m ∈ p.launches, m.time ≤ attach.1)
    (hr : Right limit ⟨attach.1, (snatchForkTp p.tp attach.1 attach.2).forks⟩ p.launches) :
    Kept limit (attached p attach) := by
  have hs : Sorted (Snatchd.attached p attach).launches := List.pairwise_cons.mpr ⟨ht, hk.sorted⟩
  have hlim : Limited limit (Snatchd.attached p attach).launches :=
    (limited_cons ht).mpr ⟨hk.limited, hr⟩
  have hcount := hk.count
  unfold Snatchd.attached snatchForkTp at hs hlim ⊢
  split_ifs at hs hlim ⊢ with hc
  · refine ⟨hk.bound, ?_, hs, hlim, nofun, fun _ => ⟨_, _, rfl, rfl⟩, fun _ => ?_⟩
    · show (0 : Int) ≤ 1
      decide
    · exact ⟨_, List.mem_cons_self, rfl⟩
  · dsimp only at hs hlim ⊢
    split_ifs at hs hlim ⊢
    · refine ⟨hk.bound, ?_, hs, hlim, nofun, fun _ => ⟨_, _, rfl, rfl⟩, fun _ => ?_⟩
      · show (0 : Int) ≤ 1
        decide
      · exact ⟨_, List.mem_cons_self, rfl⟩
    · refine ⟨hk.bound, Int.le_refl 0, hs, hlim, fun _ l hl => ?_, fun h => absurd rfl h,
        fun h => absurd rfl h⟩
      cases hl
      rfl
    · obtain ⟨l, hl, hlt⟩ := hk.time hc
      refine ⟨hk.bound, ?_, hs, hlim, fun h => ?_, fun _ => ⟨_, _, rfl, rfl⟩, fun _ => ?_⟩
      · show 0 ≤ p.tp.count + 1
        omega
      · have h : p.tp.count + 1 = 0 := h
        omega
      · exact ⟨l, List.mem_cons_of_mem _ hl, hlt⟩

theorem kept_new (h : 1 ≤ limit) : Kept limit (.new limit) where
  bound := rfl
  count := Int.le_refl 0
  sorted := List.Pairwise.nil
  limited := limited_nil h
  reset := nofun
  last h := absurd rfl h
  time h := absurd rfl h

theorem loses (hpos : 1 ≤ limit) :
    Loses Program.launch Fair (Kept limit) fun p => ¬ Limited limit p.launches where
  good p attach p' hk hf hs := by
    obtain ⟨ht, rfl⟩ := launch_eq_some.mp hs
    exact hk.attached ht ((right_iff hk hpos ht).mpr hf)
  bad p attach p' hk hf hs := by
    obtain ⟨ht, rfl⟩ := launch_eq_some.mp hs
    exact fun hl => hf ((right_iff hk hpos ht).mp ((limited_cons ht).mp hl).2)
  lost p attach p' hl hs := by
    obtain ⟨ht, rfl⟩ := launch_eq_some.mp hs
    exact fun h => hl ((limited_cons ht).mp h).1
  ne p hl hk := hl hk.limited

/-- The limit is kept in a run exactly if all its attaches are fair. -/
theorem limited_iff {attaches : List (Int × Int)} (hpos : 1 ≤ limit)
    (h : run Program.launch (.new limit) attaches = some p) :
    Limited limit p.launches ↔ Along Program.launch Fair (.new limit) attaches := by
  have hl := loses hpos
  constructor
  · intro hlim
    by_contra hG
    exact hl.run_bad (kept_new hpos) hG h hlim
  · intro hG
    exact (hl.run_good (kept_new hpos) hG h).limited

instance (p : Program) (attach : Int × Int) : Decidable (Fair p attach) :=
  decidable_of_iff ((p.tp.count = 0 → ∀ l ∈ p.launches, ¬ Recent attach.1 l) ∧
    (p.tp.count + 1 < p.tp.limit ∨ attach.1 - p.tp.time > cntIntvl →
      (p.launches.countP (Recent attach.1 ·) : Int) < p.tp.limit))
    ⟨fun h => ⟨h.1, h.2⟩, fun h => ⟨h.1, h.2⟩⟩

theorem limited_of_quiet :
    ∃ p, run Program.launch (.new 2) [(0, 7), (100, 8)] = some p ∧ Limited 2 p.launches := by
  have h : run Program.launch (.new 2) [(0, 7), (100, 8)] =
      some ⟨⟨2, 1, 100⟩, [⟨100, true⟩, ⟨0, true⟩]⟩ := by decide
  exact ⟨_, h, (limited_iff (by decide) h).mpr (by decide)⟩

/-- Of five attaches at one time with the limit 2, three are let through, two of them after a refusal;
with the limit 5, seven are within a second. -/
theorem launches_in_flood :
    ¬ (∀ (limit : Int) (attaches : List (Int × Int)) (p : Program), 1 ≤ limit →
        run Program.launch (.new limit) attaches = some p → Limited limit p.launches) ∧
      (run Program.launch (.new 2) (.replicate 5 (0, 7))).map (forks 0 ·.launches) = some 3 ∧
      (run Program.launch (.new 5)
        ((0, 7) :: (.replicate 3 (60, 7) ++ .replicate 4 (61, 7)))).map (forks 60 ·.launches) =
          some 7 := by
  refine ⟨fun h => ?_, by decide, by decide⟩
  have hw := (h 2 (.replicate 5 (0, 7)) _ (by decide) rfl).window 0
  exact absurd hw (by decide)

end LinuxSna.Snatchd
