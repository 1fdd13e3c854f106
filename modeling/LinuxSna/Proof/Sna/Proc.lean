import LinuxSna.Framework.Text
import LinuxSna.Impl.Sna.Proc

/-!
# Listings that are read in pieces

The pieces that are read of the path controls and of the LFSIDs make the whole listing, however it is cut.
How much is written beyond what is asked for depends on where the functions look: behind each line,
behind all lines of an address space, or, for link stations, nowhere.

* `dump_finish`: a call returns its window of the listing;
* `dump_marks`: how far it writes;
* `dump_listed_iff`: in which sequences of reads both are right;
* `listings_iff`: the same for the three functions.
-/

namespace LinuxSna.Proc

open Framework
open Cs (Netid)

variable {o : Out} {offset length bound start : ℕ} {text line : Text} {lines : List Text}
  {groups : List (List Text)}

/-! ## What is returned -/

/-- Of what has been written, the buffer has what stands from `begin` on, and that is not behind what is
wanted. -/
structure Out.Keeps (o : Out) (offset : ℕ) (text : Text) : Prop where
  buffer : o.buffer = text.drop o.begin
  begin_le : o.begin ≤ text.length
  wanted : o.begin ≤ offset

namespace Out

@[simp] theorem marks_update (o : Out) : o.update.marks = o.marks := rfl

@[simp] theorem marks_discard (offset : ℕ) (o : Out) : (o.discard offset).marks = o.marks := by
  rw [discard]
  split <;> rfl

@[simp] theorem pos_entry (o : Out) (line : Text) : (o.entry line).pos = o.pos := rfl

@[simp] theorem pos_discard (offset : ℕ) (o : Out) : (o.discard offset).pos = o.pos := by
  rw [discard]
  split <;> rfl

theorem mem_marks_header {m : ℕ} : m ∈ (header text).marks ↔ m = text.length := List.mem_singleton

theorem keeps_header (offset : ℕ) (text : Text) : (header text).Keeps offset text :=
  ⟨rfl, Nat.zero_le _, Nat.zero_le _⟩

namespace Keeps

theorem count (h : o.Keeps offset text) : o.begin + o.buffer.length = text.length := by
  have hle := h.begin_le
  rw [h.buffer, List.length_drop]
  omega

theorem finish (h : o.Keeps offset text) (length : ℕ) :
    o.finish offset length = window text offset length := by
  have hcount := h.count
  have hwanted := h.wanted
  have hdrop : o.buffer.drop (offset - o.begin : Int).toNat = text.drop offset := by
    rw [h.buffer, List.drop_drop]
    congr 1
    omega
  have hlen : (text.drop offset).length = text.length - offset := List.length_drop
  rw [Out.finish, hdrop, window]
  -- both take all there is, or what is asked for
  apply List.take_eq_take_iff.mpr
  rw [hlen]
  split_ifs <;> omega

theorem entry (h : o.Keeps offset text) (line : Text) :
    (o.entry line).Keeps offset (text ++ line) where
  buffer := by
    show o.buffer ++ line = (text ++ line).drop o.begin
    rw [h.buffer, List.drop_append_of_le_length h.begin_le]
  begin_le := by
    have hle := h.begin_le
    rw [List.length_append]
    exact Nat.le_add_right_of_le hle
  wanted := h.wanted

theorem entries (h : o.Keeps offset text) (lines : List Text) :
    (lines.foldl Out.entry o).Keeps offset (text ++ lines.flatten) := by
  induction lines generalizing o text with
  | nil =>
    rw [List.flatten_nil, List.append_nil]
    exact h
  | cons line lines ih =>
    rw [List.flatten_cons, ← List.append_assoc]
    exact ih (h.entry line)

theorem discard (h : o.Keeps offset text) :
    (o.update.discard offset).Keeps offset text ∧ (o.update.discard offset).pos = text.length := by
  have hcount := h.count
  refine ⟨?_, (pos_discard _ _).trans hcount⟩
  rw [Out.discard]
  split
  · rename_i hlt
    have hpos : o.update.pos = text.length := hcount
    rw [hpos] at hlt ⊢
    exact ⟨(List.drop_length ..).symm, Nat.le_refl _, Nat.le_of_lt hlt⟩
  · exact ⟨h.buffer, h.begin_le, h.wanted⟩

end Keeps

end Out

/-- A call returns its window of the listing: what is not written any more is behind it. -/
theorem dump_finish (h : o.Keeps offset text) (groups : List (List Text)) :
    (dump offset length groups o).finish offset length =
      window (text ++ groups.flatten.flatten) offset length := by
  induction groups generalizing o text with
  | nil =>
    rw [List.flatten_nil, List.flatten_nil, List.append_nil]
    exact h.finish length
  | cons lines groups ih =>
    obtain ⟨hkeeps, hpos⟩ := (h.entries lines).discard
    rw [List.flatten_cons, List.flatten_append, ← List.append_assoc, dump]
    split
    · rename_i henough
      rw [Out.enough, decide_eq_true_eq, hpos] at henough
      rw [hkeeps.finish, window_append (Nat.le_of_lt henough)]
    · exact ih hkeeps

/-! ## How far is written -/

theorem mem_marks_entries (h : o.Keeps offset text) (lines : List Text) (m : ℕ) :
    m ∈ (lines.foldl Out.entry o).marks ↔
      m ∈ o.marks ∨ ∃ k < lines.length, m = text.length + (lines.take k).flatten.length := by
  induction lines generalizing o text with
  | nil => simp
  | cons line lines ih =>
    have hmark : (o.entry line).marks = text.length :: o.marks := by
      rw [← h.count]
      rfl
    rw [List.foldl_cons, ih (h.entry line), hmark, List.mem_cons, List.length_append]
    constructor
    · rintro ((rfl | hm) | ⟨k, hk, rfl⟩)
      · exact .inr ⟨0, Nat.succ_pos _, rfl⟩
      · exact .inl hm
      · refine .inr ⟨k + 1, Nat.succ_lt_succ hk, ?_⟩
        rw [List.take_succ_cons, List.flatten_cons, List.length_append, Nat.add_assoc]
    · rintro (hm | ⟨k, hk, rfl⟩)
      · exact .inl (.inr hm)
      · cases k with
        | zero => exact .inl (.inl rfl)
        | succ k =>
          refine .inr ⟨k, Nat.lt_of_succ_lt_succ hk, ?_⟩
          rw [List.take_succ_cons, List.flatten_cons, List.length_append, Nat.add_assoc]

/-- In a group that begins within the bound, all texts do. -/
def Fits (bound start : ℕ) (groups : List (List Text)) : Prop :=
  ∀ before lines behind, groups = before ++ lines :: behind →
    start + before.flatten.flatten.length ≤ bound → ∀ k < lines.length,
      start + before.flatten.flatten.length + (lines.take k).flatten.length ≤ bound

theorem fits_nil : Fits bound start [] := fun before lines behind h => by
  exact absurd h.symm (List.append_ne_nil_of_right_ne_nil before (List.cons_ne_nil lines behind))

theorem fits_cons (h : start ≤ bound) : Fits bound start (lines :: groups) ↔
    (∀ k < lines.length, start + (lines.take k).flatten.length ≤ bound) ∧
      Fits bound (start + lines.flatten.length) groups := by
  constructor
  · intro hf
    refine ⟨hf [] lines groups rfl h, fun before lines' behind hg hle => ?_⟩
    have hlen : (lines :: before).flatten.flatten.length =
        lines.flatten.length + before.flatten.flatten.length := by
      rw [List.flatten_cons, List.flatten_append, List.length_append]
    have hf := hf (lines :: before) lines' behind (by rw [hg]; rfl)
    rw [hlen, ← Nat.add_assoc] at hf
    exact hf hle
  · rintro ⟨hfirst, hrest⟩ before lines' behind hg hle
    cases before with
    | nil =>
      obtain ⟨rfl, rfl⟩ := List.cons.inj hg
      exact hfirst
    | cons first before =>
      obtain ⟨rfl, rfl⟩ := List.cons.inj hg
      rw [List.flatten_cons, List.flatten_append, List.length_append, ← Nat.add_assoc] at hle ⊢
      exact hrest before lines' behind rfl hle

/-- Nothing begins beyond the end. -/
theorem fits_of_le (h : start + groups.flatten.flatten.length ≤ bound) : Fits bound start groups := by
  rintro before lines behind rfl - k -
  have hle : (lines.take k).flatten.length ≤ lines.flatten.length :=
    ((List.take_sublist k lines).flatten).length_le
  simp only [List.flatten_append, List.flatten_cons, List.length_append] at h
  omega

/-- Behind the bound nothing is asked for. -/
theorem fits_of_lt (h : bound < start) : Fits bound start groups :=
  fun _ _ _ _ hle => absurd hle (by omega)

theorem marks_subset_dump {m : ℕ} (hm : m ∈ o.marks) : m ∈ (dump offset length groups o).marks := by
  induction groups generalizing o with
  | nil => exact hm
  | cons lines groups ih =>
    have hentries : ∀ (l : List Text) (o : Out), m ∈ o.marks → m ∈ (l.foldl Out.entry o).marks := by
      intro l
      induction l with
      | nil => exact fun _ h => h
      | cons line l ih => exact fun _ h => ih _ (List.mem_cons_of_mem _ h)
    have hnext : m ∈ ((lines.foldl Out.entry o).update.discard offset).marks := by
      rw [Out.marks_discard, Out.marks_update]
      exact hentries lines o hm
    rw [dump]
    split
    · exact hnext
    · exact ih hnext

/-- What a call writes ends at most one text beyond what is asked for exactly if no group is in the way. -/
theorem dump_marks (h : o.Keeps offset text) (hle : text.length ≤ offset + length) :
    (∀ m ∈ (dump offset length groups o).marks, m ≤ offset + length) ↔
      (∀ m ∈ o.marks, m ≤ offset + length) ∧ Fits (offset + length) text.length groups := by
  induction groups generalizing o text with
  | nil => exact ⟨fun hm => ⟨hm, fits_nil⟩, And.left⟩
  | cons lines groups ih =>
    obtain ⟨hkeeps, hpos⟩ := (h.entries lines).discard
    have hlen : (text ++ lines.flatten).length = text.length + lines.flatten.length :=
      List.length_append
    have hmarks : (∀ m ∈ ((lines.foldl Out.entry o).update.discard offset).marks,
        m ≤ offset + length) ↔ (∀ m ∈ o.marks, m ≤ offset + length) ∧
          ∀ k < lines.length, text.length + (lines.take k).flatten.length ≤ offset + length := by
      simp only [Out.marks_discard, Out.marks_update, mem_marks_entries h lines]
      constructor
      · exact fun hm => ⟨fun m hin => hm m (.inl hin), fun k hk => hm _ (.inr ⟨k, hk, rfl⟩)⟩
      · rintro ⟨hold, hnew⟩ m (hin | ⟨k, hk, rfl⟩)
        · exact hold m hin
        · exact hnew k hk
    rw [fits_cons hle, ← and_assoc, ← hmarks, ← hlen, dump]
    split
    · rename_i henough
      rw [Out.enough, decide_eq_true_eq, hpos] at henough
      exact (and_iff_left (fits_of_lt henough)).symm
    · rename_i henough
      rw [Out.enough, decide_eq_true_eq, hpos] at henough
      exact ih hkeeps (Nat.le_of_not_lt henough)

/-! ## Sequences of reads -/

/-- What the function that writes so returns -/
def readOf (out : ℕ → ℕ → Out) (offset length : ℕ) : Text := (out offset length).finish offset length

/-- The pieces make the listing, and no call writes more than what is asked for and one entry. -/
def Listed (out : ℕ → ℕ → Out) (text : Text) (lengths : ℕ → ℕ+) : Prop :=
  ReadsAll (readOf out) lengths text ∧
    ∀ n, ∀ m ∈ (out (reached (readOf out) lengths n) (lengths n)).marks,
      m ≤ reached (readOf out) lengths n + lengths n

theorem readOf_dump (header : Text) (offset length : ℕ) :
    readOf (fun offset length => dump offset length groups (.header header)) offset length =
      window (header ++ groups.flatten.flatten) offset length :=
  dump_finish (Out.keeps_header offset header) groups

/-- However it is cut, the pieces are the listing. -/
theorem dump_readsAll (header : Text) (lengths : ℕ → ℕ+) :
    ReadsAll (readOf fun offset length => dump offset length groups (.header header)) lengths
      (header ++ groups.flatten.flatten) :=
  readsAll_window (readOf_dump header)

/-- A read that begins at the end of the listing has no group in its way, and every other one ends where the
lengths up to it do. -/
theorem fits_window (header : Text) (lengths : ℕ → ℕ+) (n : ℕ) :
    Fits (min (asked lengths n) (header ++ groups.flatten.flatten).length + lengths n) header.length
      groups ↔ Fits (asked lengths (n + 1)) header.length groups := by
  have hlen : (header ++ groups.flatten.flatten).length =
      header.length + groups.flatten.flatten.length := List.length_append
  rcases Nat.le_total (asked lengths n) (header ++ groups.flatten.flatten).length with h | h
  · rw [Nat.min_eq_left h, asked_succ]
  · rw [Nat.min_eq_right h, asked_succ]
    exact iff_of_true (fits_of_le (by omega)) (fits_of_le (by omega))

theorem dump_listed_iff (header : Text) (lengths : ℕ → ℕ+) :
    Listed (fun offset length => dump offset length groups (.header header))
      (header ++ groups.flatten.flatten) lengths ↔
    header.length ≤ lengths 0 ∧ ∀ n, Fits (asked lengths (n + 1)) header.length groups := by
  have hoffset : ∀ n, reached (readOf fun o l => dump o l groups (.header header)) lengths n =
      min (asked lengths n) (header ++ groups.flatten.flatten).length :=
    reached_window (readOf_dump header)
  have hmark : ∀ offset length,
      header.length ∈ (dump offset length groups (.header header)).marks := fun _ _ =>
    marks_subset_dump (Out.mem_marks_header.mpr rfl)
  have hbound : header.length ≤ lengths 0 → ∀ n, header.length ≤
      min (asked lengths n) (header ++ groups.flatten.flatten).length + lengths n := by
    intro h n
    have hlen : (header ++ groups.flatten.flatten).length =
        header.length + groups.flatten.flatten.length := List.length_append
    cases n with
    | zero =>
      rw [asked_zero, Nat.zero_min, Nat.zero_add]
      exact h
    | succ n =>
      have hfirst : (lengths 0 : ℕ) ≤ asked lengths (n + 1) := le_asked_succ
      omega
  constructor
  · rintro ⟨-, hmarks⟩
    have hheader : header.length ≤ lengths 0 := by
      have h := hmarks 0 _ (hmark _ _)
      rw [hoffset, asked_zero, Nat.zero_min, Nat.zero_add] at h
      exact h
    refine ⟨hheader, fun n => ?_⟩
    have h := hmarks n
    rw [hoffset, dump_marks (Out.keeps_header _ header) (hbound hheader n)] at h
    exact (fits_window header lengths n).mp h.2
  · rintro ⟨hheader, hfits⟩
    refine ⟨dump_readsAll header lengths, fun n => ?_⟩
    rw [hoffset, dump_marks (Out.keeps_header _ header) (hbound hheader n)]
    refine ⟨fun m hm => ?_, (fits_window header lengths n).mpr (hfits n)⟩
    rw [Out.mem_marks_header.mp hm]
    exact hbound hheader n

variable (prNetid : Netid → Text)

/-! ## Path controls and LFSIDs -/

def pcText (pcList : List PcCb) : Text := pcHeader ++ pcList.flatMap (pcLine prNetid)

def lfsidText (asmList : List AsmCb) : Text := lfsidHeader ++ asmList.flatMap fun a => (lfsidLines a).flatten

def lsText (portList : List PortCb) : Text :=
  lsHeader ++ (portList.flatMap (·.lsList)).flatMap (lsLine prNetid)

/-- A line on its own begins where its group does. -/
theorem fits_singletons {α : Type} (line : α → Text) (l : List α) :
    Fits bound start (l.map fun a => [line a]) := by
  intro before lines behind hl hle k hk
  have hmem : lines ∈ l.map fun a => [line a] := by
    rw [hl]
    exact List.mem_append_right _ List.mem_cons_self
  obtain ⟨a, -, rfl⟩ := List.mem_map.mp hmem
  obtain rfl : k = 0 := Nat.lt_one_iff.mp hk
  exact hle

theorem pc_listed_iff (pcList : List PcCb) (lengths : ℕ → ℕ+) :
    Listed (pcOut prNetid pcList) (pcText prNetid pcList) lengths ↔ pcHeader.length ≤ lengths 0 := by
  have htext : pcText prNetid pcList =
      pcHeader ++ (pcList.map fun pc => [pcLine prNetid pc]).flatten.flatten := by
    rw [pcText, ← List.flatMap_def, ← List.map_eq_flatMap, List.flatMap_def]
  rw [htext]
  refine (dump_listed_iff pcHeader lengths).trans (and_iff_left fun n => ?_)
  exact fits_singletons (pcLine prNetid) pcList

theorem lfsid_listed_iff (asmList : List AsmCb) (lengths : ℕ → ℕ+) :
    Listed (lfsidOut asmList) (lfsidText asmList) lengths ↔
      lfsidHeader.length ≤ lengths 0 ∧
        ∀ n, Fits (asked lengths (n + 1)) lfsidHeader.length (asmList.map lfsidLines) := by
  have htext : lfsidText asmList = lfsidHeader ++ (asmList.map lfsidLines).flatten.flatten := by
    rw [lfsidText, List.flatMap_def, List.flatten_flatten, List.map_map]
    rfl
  rw [htext]
  exact dump_listed_iff lfsidHeader lengths

/-! ## Link stations -/

/-- The position stays where it was at the start, so that there is never enough. -/
theorem dumpLs_eq (hpos : o.pos = 0) (l : List LsCb) : dumpLs prNetid offset length l o =
    l.foldl (fun o ls => (o.entry (lsLine prNetid ls)).discard offset) o ∧
      (dumpLs prNetid offset length l o).pos = 0 := by
  induction l generalizing o with
  | nil => exact ⟨rfl, hpos⟩
  | cons ls l ih =>
    have hnext : ((o.entry (lsLine prNetid ls)).discard offset).pos = 0 := by
      rw [Out.pos_discard, Out.pos_entry, hpos]
    have henough : ((o.entry (lsLine prNetid ls)).discard offset).enough offset length = false := by
      rw [Out.enough, hnext]
      exact decide_eq_false (Nat.not_lt_zero _)
    rw [dumpLs, henough]
    exact ih hnext

theorem lsOut_eq (portList : List PortCb) (offset length : ℕ) : lsOut prNetid portList offset length =
    (portList.flatMap (·.lsList)).foldl
      (fun o ls => (o.entry (lsLine prNetid ls)).discard offset) (.header lsHeader) := by
  have hgen : ∀ o : Out, o.pos = 0 →
      portList.foldl (fun o port => dumpLs prNetid offset length port.lsList o) o =
        (portList.flatMap (·.lsList)).foldl
          (fun o ls => (o.entry (lsLine prNetid ls)).discard offset) o := by
    induction portList with
    | nil => exact fun _ _ => rfl
    | cons port portList ih =>
      intro o hpos
      obtain ⟨heq, hpos'⟩ := dumpLs_eq prNetid hpos port.lsList
      rw [List.foldl_cons, List.flatMap_cons, List.foldl_append, ← heq]
      exact ih _ hpos'
  exact hgen _ rfl

/-- From the start on, the whole listing is written. -/
theorem lsOut_zero (portList : List PortCb) (length : ℕ) : lsOut prNetid portList 0 length =
    ((portList.flatMap (·.lsList)).map (lsLine prNetid)).foldl Out.entry (.header lsHeader) := by
  have hkeep : (fun (o : Out) ls => (o.entry (lsLine prNetid ls)).discard 0) =
      fun o ls => o.entry (lsLine prNetid ls) := by
    funext o ls
    rw [Out.discard, if_neg (Nat.not_lt_zero _)]
  rw [lsOut_eq, hkeep, List.foldl_map]

/-- From anywhere else, every line is forgotten. -/
theorem lsOut_pos {offset : ℕ} (h : 0 < offset) (portList : List PortCb) (length : ℕ) :
    (lsOut prNetid portList offset length).buffer =
      (if portList.flatMap (·.lsList) = [] then lsHeader else []) ∧
    ∀ m ∈ (lsOut prNetid portList offset length).marks, m ≤ lsHeader.length := by
  rw [lsOut_eq]
  generalize portList.flatMap (·.lsList) = l
  have hgen : ∀ o : Out, o.pos = 0 → o.begin = 0 → o.buffer.length ≤ lsHeader.length →
      (∀ m ∈ o.marks, m ≤ lsHeader.length) →
      let o' := l.foldl (fun o ls => (o.entry (lsLine prNetid ls)).discard offset) o
      o'.buffer = (if l = [] then o.buffer else []) ∧
        ∀ m ∈ o'.marks, m ≤ lsHeader.length := by
    induction l with
    | nil => exact fun _ _ _ _ hmarks => ⟨rfl, hmarks⟩
    | cons ls l ih =>
      intro o hpos hbegin hbuffer hmarks
      have hnext : (o.entry (lsLine prNetid ls)).discard offset =
          ⟨[], 0, 0, (o.begin + o.buffer.length) :: o.marks⟩ := by
        rw [Out.discard, if_pos (by rw [Out.pos_entry, hpos]; exact h), Out.pos_entry, hpos]
        rw [Out.entry, hpos]
      obtain ⟨htext, hm⟩ := ih _ (congrArg Out.pos hnext) (congrArg Out.begin hnext)
        (by rw [hnext]; exact Nat.zero_le _) (by
          rw [hnext, hbegin, Nat.zero_add]
          exact List.forall_mem_cons.mpr ⟨hbuffer, hmarks⟩)
      refine ⟨?_, hm⟩
      rw [List.foldl_cons, htext, hnext, if_neg (List.cons_ne_nil ls l), ite_self]
  exact hgen _ rfl rfl (Nat.le_refl _) fun m hm => Nat.le_of_eq (Out.mem_marks_header.mp hm)

theorem readOf_ls_zero (portList : List PortCb) (length : ℕ) :
    readOf (lsOut prNetid portList) 0 length = (lsText prNetid portList).take length := by
  rw [readOf, lsOut_zero, ((Out.keeps_header 0 lsHeader).entries _).finish, ← List.flatMap_def]
  rfl

/-- Behind the start of the listing nothing is read of the link stations. -/
theorem readOf_ls_pos {offset : ℕ} (h : 0 < offset) {portList : List PortCb}
    (hne : portList.flatMap (·.lsList) ≠ []) (length : ℕ) :
    readOf (lsOut prNetid portList) offset length = [] := by
  obtain ⟨hbuffer, -⟩ := lsOut_pos prNetid h portList length
  rw [readOf, Out.finish, hbuffer, if_neg hne]
  exact (congrArg (List.take _) List.drop_nil).trans List.take_nil

theorem lsHeader_ne_nil : lsHeader ≠ [] :=
  List.append_ne_nil_of_right_ne_nil _ (List.cons_ne_nil _ _)

theorem lsText_of_nil {portList : List PortCb} (h : portList.flatMap (·.lsList) = []) :
    lsText prNetid portList = lsHeader := by
  rw [lsText, h]
  exact List.append_nil lsHeader

theorem header_le_lsText (portList : List PortCb) :
    lsHeader.length ≤ (lsText prNetid portList).length := by
  rw [lsText, List.length_append]
  exact Nat.le_add_right _ _

theorem lsText_length_pos (portList : List PortCb) : 0 < (lsText prNetid portList).length :=
  Nat.lt_of_lt_of_le (List.length_pos_iff.mpr lsHeader_ne_nil) (header_le_lsText prNetid portList)

/-- A read at the end finds nothing. -/
theorem readOf_ls_end (portList : List PortCb) (length : ℕ) :
    readOf (lsOut prNetid portList) (lsText prNetid portList).length length = [] := by
  by_cases h : portList.flatMap (·.lsList) = []
  · have hout : lsOut prNetid portList (lsText prNetid portList).length length = .header lsHeader := by
      rw [lsOut_eq, h]
      rfl
    rw [readOf, hout, (Out.keeps_header _ lsHeader).finish, lsText_of_nil prNetid h,
      window_eq_nil (Nat.le_refl _)]
  · exact readOf_ls_pos prNetid (lsText_length_pos prNetid portList) h length

theorem lsOut_zero_marks (portList : List PortCb) (length : ℕ) :
    lsHeader.length ∈ (lsOut prNetid portList 0 length).marks ∧
      ∀ m ∈ (lsOut prNetid portList 0 length).marks, m ≤ (lsText prNetid portList).length := by
  have hle := header_le_lsText prNetid portList
  have hmem := mem_marks_entries (Out.keeps_header 0 lsHeader)
    ((portList.flatMap (·.lsList)).map (lsLine prNetid))
  rw [lsOut_zero]
  refine ⟨(hmem _).mpr (.inl (Out.mem_marks_header.mpr rfl)), fun m hm => ?_⟩
  rcases (hmem m).mp hm with hm | ⟨k, _, hm⟩
  · rw [Out.mem_marks_header.mp hm]
    exact hle
  · rw [hm]
    have hk := ((List.take_sublist k
      ((portList.flatMap (·.lsList)).map (lsLine prNetid))).flatten).length_le
    rw [lsText, List.length_append, List.flatMap_def (l := portList.flatMap _)]
    exact Nat.add_le_add_left hk _

/-- The first read is the only one that returns something. -/
theorem ls_listed_iff (portList : List PortCb) (lengths : ℕ → ℕ+) :
    Listed (lsOut prNetid portList) (lsText prNetid portList) lengths ↔
      (lsText prNetid portList).length ≤ lengths 0 := by
  have hpiece : piece (readOf (lsOut prNetid portList)) lengths 0 =
      (lsText prNetid portList).take (lengths 0) := readOf_ls_zero prNetid portList (lengths 0)
  have htaken : taken (readOf (lsOut prNetid portList)) lengths 1 =
      (lsText prNetid portList).take (lengths 0) := hpiece
  have hpos := lsText_length_pos prNetid portList
  have hfirst : (lsText prNetid portList).take (lengths 0) ≠ [] := by
    have hone := PNat.pos (lengths 0)
    rw [← List.length_pos_iff, List.length_take]
    omega
  constructor
  · rintro ⟨hread, hmarks⟩
    by_cases hnone : portList.flatMap (·.lsList) = []
    · have h := hmarks 0 _ (lsOut_zero_marks prNetid portList (lengths 0)).1
      rw [lsText_of_nil prNetid hnone]
      exact h.trans (Nat.le_of_eq (Nat.zero_add _))
    · have honly : ReadsAll (readOf (lsOut prNetid portList)) lengths
          ((lsText prNetid portList).take (lengths 0)) := by
        refine ⟨1, fun m hm => ?_, ?_, htaken⟩
        · obtain rfl : m = 0 := Nat.lt_one_iff.mp hm
          rw [hpiece]
          exact hfirst
        · rw [piece, reached, htaken]
          exact readOf_ls_pos prNetid (List.length_pos_iff.mpr hfirst) hnone _
      have heq := congrArg List.length (hread.unique honly)
      rw [List.length_take] at heq
      omega
  · intro h
    rw [List.take_of_length_le h] at hpiece htaken
    have hall : ∀ n, taken (readOf (lsOut prNetid portList)) lengths (n + 1) =
        lsText prNetid portList := by
      intro n
      induction n with
      | zero => exact htaken
      | succ n ih =>
        rw [taken, ih, readOf_ls_end]
        exact List.append_nil _
    refine ⟨⟨1, fun m hm => ?_, ?_, htaken⟩, fun n => ?_⟩
    · obtain rfl : m = 0 := Nat.lt_one_iff.mp hm
      rw [hpiece]
      exact List.length_pos_iff.mp hpos
    · rw [piece, reached, htaken]
      exact readOf_ls_end prNetid portList _
    · cases n with
      | zero =>
        intro m hm
        have hle := (lsOut_zero_marks prNetid portList (lengths 0)).2 m hm
        exact (hle.trans h).trans (Nat.le_of_eq (Nat.zero_add _).symm)
      | succ n =>
        intro m hm
        rw [reached, hall n] at hm ⊢
        have hle := (lsOut_pos prNetid hpos portList (lengths (n + 1))).2 m hm
        exact (hle.trans (header_le_lsText prNetid portList)).trans (Nat.le_add_right _ _)

/-! ## The three listings -/

/-- The listing of the path controls is right if the first read has room for the header; that of the LFSIDs if,
besides, no read ends within the lines of an address space, other than within the last of them; that of
the link stations if the first read has room for all of it. -/
theorem listings_iff :
    (∀ pcList lengths, Listed (pcOut prNetid pcList) (pcText prNetid pcList) lengths ↔
      pcHeader.length ≤ lengths 0) ∧
    (∀ asmList lengths, Listed (lfsidOut asmList) (lfsidText asmList) lengths ↔
      lfsidHeader.length ≤ lengths 0 ∧
        ∀ n, Fits (asked lengths (n + 1)) lfsidHeader.length (asmList.map lfsidLines)) ∧
    ∀ portList lengths, Listed (lsOut prNetid portList) (lsText prNetid portList) lengths ↔
      (lsText prNetid portList).length ≤ lengths 0 :=
  ⟨pc_listed_iff prNetid, lfsid_listed_iff, ls_listed_iff prNetid⟩

/-- A link station as it is defined: its partner has no name yet. -/
def oneLs : LsCb where
  useName := "ls0".toList
  index := 1
  flags := 0
  state := 1
  effectiveRole := 0
  effectiveTg := 0
  txMaxBtu := 0
  rxMaxBtu := 0
  pluName := ⟨[], []⟩
  pluNodeId := 0
  pluMacAddr := Vector.replicate 6 0
  pluPort := 4

/-- A link station, and reads of 64 bytes -/
theorem one_ls_not_listed :
    ¬Listed (lsOut (fun _ => ".".toList) [⟨[oneLs]⟩])
      (lsText (fun _ => ".".toList) [⟨[oneLs]⟩]) fun _ => 64 := by
  rw [ls_listed_iff]
  decide +kernel

end LinuxSna.Proc
