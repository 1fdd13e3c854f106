import LinuxSna.Spec.Names

/-!
# What the parameters of a request make of a `namerec`

* `readNamerec_eq`: the texts are copied one over the other;
* `stringOf_image`: the string of a member is the last of its texts, and goes on if there is none;
* `canonical_injective`: fields with other values have other bytes;
* `image_eq_canonical`: they have their own bytes if no text is longer than the last.
-/

namespace LinuxSna.Asuite.Names

open Ftp

/-! ## The loop -/

theorem Member.ofKey_key (m : Member) : Member.ofKey m.key = some m := by
  cases m <;> rfl

theorem Text.length_lt {m : Member} (text : Text m) : text.bytes.length < 65 := by
  have hsize : m.size ≤ 64 := by cases m <;> decide
  exact Nat.lt_succ_of_le (text.short.trans hsize)

theorem Parameter.faithful (p : Parameter) : p.call.Faithful := by
  cases p with
  | name m text => exact ⟨text.bytes, 1, text.nonzero, rfl⟩
  | other x faithful unknown => exact faithful

/-- What the loop does for a call. -/
def takeStep (x : Call) (r : Namerec) : Namerec ⊕ Unit :=
  match Member.ofKey x.key with
  | none => .inl r
  | some m =>
    if h : (x.data .little).dropLast.length ≤ m.size then
      .inl (Function.update r m ((r m).copy (x.data .little).dropLast h))
    else .inr ()

theorem takeStep_call (p : Parameter) (r : Namerec) : takeStep p.call r = .inl (r.take p) := by
  cases p with
  | name m text =>
    have hkey : Member.ofKey (Parameter.name m text).call.key = some m := m.ofKey_key
    have hdata : ((Parameter.name m text).call.data .little).dropLast = text.bytes :=
      List.dropLast_concat
    simp only [takeStep, hkey, hdata, dif_pos text.short]
    rfl
  | other x faithful unknown =>
    have hkey : Member.ofKey (Parameter.other x faithful unknown).call.key = none := unknown
    simp only [takeStep, hkey]
    rfl

/-- A copy depends on the text only. -/
theorem Memory.copy_congr {size : Nat} (mem : Memory size) {text text' : List UInt8}
    (h : text.length ≤ size) (h' : text'.length ≤ size) (heq : text = text') :
    mem.copy text h = mem.copy text' h' := by
  subst heq
  rfl

/-- A text that stands somewhere is copied. -/
theorem copyName_eq {record : Record} {start : Nat} {m : Member} {text : Text m}
    (h : record.slice start text.bytes.length = text.bytes) (r : Namerec) :
    copyName record start text.bytes.length m r = .inl (r.take (.name m text)) := by
  rw [copyName, dif_pos text.short, Namerec.take]
  exact congrArg (fun mem => Sum.inl (Function.update r m mem)) ((r m).copy_congr _ _ h)

theorem namerecBody_eq {record : Record} {c : Nat} (p : Parameter)
    (h : Stands .little record c p.call) (r : Namerec) :
    namerecBody .little record c r = takeStep p.call r := by
  rw [takeStep_call]
  obtain ⟨hkey, hlen, hslice⟩ := h.faithful p.faithful
  cases p with
  | name m text =>
    have hmember : Member.ofKey (getKey record c) = some m := by
      rw [hkey]
      exact m.ofKey_key
    have hdata : (Parameter.name m text).call.data .little = text.bytes ++ [0] := rfl
    have hbytes : getParamLen .little record c = text.bytes.length + 4 := by
      rw [hlen, Call.length_bytes, ((Parameter.name m text).faithful.stored .little).2, hdata,
        List.length_append, List.length_singleton]
      omega
    have hn : (getParamLen .little record c + 2 ^ 32 - 4) % 2 ^ 32 = text.bytes.length := by
      have hlt := text.length_lt
      omega
    have htext : record.slice (c + 3) text.bytes.length = text.bytes := by
      rw [hdata, List.length_append, Record.slice_add] at hslice
      exact (List.append_inj hslice (Record.length_slice ..)).1
    simp only [namerecBody, hmember]
    rw [hn]
    exact copyName_eq htext r
  | other x faithful unknown =>
    have hmember : Member.ofKey (getKey record c) = none := by
      rw [hkey]
      exact unknown
    simp only [namerecBody, hmember]
    rfl

theorem scanCalls_take (ps : List Parameter) (c : Nat) (r : Namerec) :
    scanCalls .little (fun _ => takeStep) c (ps.map Parameter.call) r =
      .inl (ps.foldl Namerec.take r) := by
  induction ps generalizing c r with
  | nil => rfl
  | cons p ps ih =>
    rw [List.map_cons, scanCalls, takeStep_call]
    exact ih _ _

/-- What is read of a request that has parameters. -/
theorem readNamerec_eq {record : Record} {q : Request} (h : Holds record q.data)
    (hne : q.parameters ≠ []) : readNamerec .little record = some (image q.parameters) := by
  have hscan := scan_message (namerecBody .little record) (fun _ => takeStep) h
    (fun hnil => hne (List.map_eq_nil_iff.mp hnil))
    (fun x hx => by obtain ⟨p, _, rfl⟩ := List.mem_map.mp hx; exact p.faithful) q.fits
    (fun x hx c r hc => by
      obtain ⟨p, _, rfl⟩ := List.mem_map.mp hx
      exact namerecBody_eq p hc r) Namerec.blank
  rw [readNamerec, hscan, scanCalls_take]
  rfl

/-! ## The members of an image -/

/-- Texts are copied one over the other. -/
def Memory.copies {m : Member} (mem : Memory m.size) (texts : List (Text m)) : Memory m.size :=
  texts.foldl (fun mem text => mem.copy text.bytes text.short) mem

theorem foldl_take (ps : List Parameter) (r : Namerec) (m : Member) :
    ps.foldl Namerec.take r m = (r m).copies (values ps m) := by
  induction ps generalizing r with
  | nil => rfl
  | cons p ps ih =>
    rw [List.foldl_cons, ih]
    simp only [values, List.filterMap_cons]
    cases p with
    | name m' text =>
      rw [Parameter.text]
      by_cases hm : m' = m
      · subst hm
        rw [dif_pos rfl, Namerec.take, Function.update_self]
        rfl
      · rw [dif_neg hm, Namerec.take, Function.update_of_ne (Ne.symm hm)]
    | other x faithful unknown => rfl

theorem image_apply (ps : List Parameter) (m : Member) :
    image ps m = (Memory.blank m.size).copies (values ps m) := foldl_take ps .blank m

/-- The last text stands at the beginning. -/
theorem copies_last {m : Member} (mem : Memory m.size) {texts : List (Text m)} {text : Text m}
    (h : texts.getLast? = some text) :
    ∃ rest, (mem.copies texts).bytes = text.bytes ++ 0 :: rest := by
  obtain ⟨before, rfl⟩ := List.getLast?_eq_some_iff.mp h
  refine ⟨(mem.copies before).bytes.drop (text.bytes.length + 1), ?_⟩
  rw [Memory.copies, List.foldl_append]
  rfl

theorem bytes_drop (r : Namerec) (m : Member) :
    ∃ rest, r.bytes.drop m.offset = (r m).bytes ++ rest := by
  have huser : Member.fqluname.offset = (r .username).bytes.length :=
    (r .username).length_eq.symm
  have hfqlu : Member.grpname.offset = ((r .username).bytes ++ (r .fqluname).bytes).length := by
    rw [List.length_append, (r .username).length_eq, (r .fqluname).length_eq]
    rfl
  have hgroup : Member.tpname.offset =
      (((r .username).bytes ++ (r .fqluname).bytes) ++ (r .grpname).bytes).length := by
    rw [List.length_append, ← hfqlu, (r .grpname).length_eq]
    rfl
  simp only [Namerec.bytes, Member.all, List.flatMap_cons, List.flatMap_nil]
  cases m with
  | username => exact ⟨_, rfl⟩
  | fqluname => exact ⟨_, by rw [huser, List.drop_left]⟩
  | grpname => exact ⟨_, by rw [hfqlu, ← List.append_assoc, List.drop_left]⟩
  | tpname => exact ⟨_, by rw [hgroup, ← List.append_assoc, ← List.append_assoc, List.drop_left]⟩

theorem takeWhile_text {m : Member} (text : Text m) (rest : List UInt8) :
    (text.bytes ++ 0 :: rest).takeWhile (· ≠ 0) = text.bytes := by
  have hpos : ∀ a ∈ text.bytes, decide (a ≠ 0) = true := fun a ha => by
    simpa using ne_of_mem_of_not_mem ha text.nonzero
  rw [List.takeWhile_append_of_pos hpos, List.takeWhile_cons_of_neg (by simp), List.append_nil]

/-- The string of a member that has a value. -/
theorem stringOf_image {ps : List Parameter} {m : Member} {text : Text m}
    (h : naming ps m = some text) : stringOf (image ps).bytes m = some text.bytes := by
  obtain ⟨rest, hdrop⟩ := bytes_drop (image ps) m
  obtain ⟨rest', hbytes⟩ := copies_last (.blank m.size) h
  rw [image_apply, hbytes, List.append_assoc, List.cons_append] at hdrop
  have hmem : (0 : UInt8) ∈ text.bytes ++ 0 :: (rest' ++ rest) :=
    List.mem_append_right _ List.mem_cons_self
  simp only [stringOf, hdrop, if_pos hmem, takeWhile_text]

/-- The string of a member without a value is longer than the member. -/
theorem stringOf_blank {ps : List Parameter} {m : Member} (h : naming ps m = none)
    {string : List UInt8} (hstring : stringOf (image ps).bytes m = some string) :
    m.size < string.length := by
  obtain ⟨rest, hdrop⟩ := bytes_drop (image ps) m
  rw [image_apply, List.getLast?_eq_none_iff.mp h] at hdrop
  have hblank : ((Memory.blank m.size).copies []).bytes = List.replicate (m.size + 1) 32 := rfl
  have hpos : ∀ a ∈ List.replicate (m.size + 1) (32 : UInt8), decide (a ≠ 0) = true := by
    intro a ha
    rw [List.eq_of_mem_replicate ha]
    decide
  rw [hblank] at hdrop
  simp only [stringOf, hdrop, List.takeWhile_append_of_pos hpos] at hstring
  split_ifs at hstring
  rw [← Option.some.inj hstring, List.length_append, List.length_replicate]
  omega

theorem bytes_drop_tpname (r : Namerec) :
    r.bytes.drop Member.tpname.offset = (r .tpname).bytes := by
  obtain ⟨rest, hdrop⟩ := bytes_drop r .tpname
  have hlength := congrArg List.length hdrop
  have hbytes : r.bytes.length = Member.tpname.offset + (Member.tpname.size + 1) := by
    simp only [Namerec.bytes, Member.all, List.flatMap_cons, List.flatMap_nil, List.length_append,
      Memory.length_eq]
    rfl
  rw [List.length_drop, List.length_append, (r .tpname).length_eq, hbytes,
    Nat.add_sub_cancel_left] at hlength
  have hrest : rest = [] := List.eq_nil_of_length_eq_zero (by omega)
  rw [hdrop, hrest, List.append_nil]

/-- The strings of what is stored end with the last member at the latest, if that has a value. -/
theorem exists_stringOf_eq_none_iff (ps : List Parameter) :
    (∃ m ∈ Member.all, stringOf (image ps).bytes m = none) ↔ naming ps .tpname = none := by
  have htpname : 0 ∈ (image ps .tpname).bytes ↔ naming ps .tpname ≠ none := by
    rw [image_apply]
    cases hname : naming ps .tpname with
    | none =>
      rw [List.getLast?_eq_none_iff.mp hname]
      refine iff_of_false (fun hzero => ?_) (not_not.mpr rfl)
      exact absurd (List.eq_of_mem_replicate hzero) (by decide)
    | some text =>
      obtain ⟨rest, hbytes⟩ := copies_last (.blank Member.tpname.size) hname
      rw [hbytes]
      exact iff_of_true (List.mem_append_right _ List.mem_cons_self) (by simp)
  constructor
  · rintro ⟨m, _, hnone⟩
    by_contra hname
    have hzero : 0 ∈ (image ps).bytes.drop m.offset := by
      have hle : m.offset ≤ Member.tpname.offset := by cases m <;> decide
      obtain ⟨k, hk⟩ := Nat.exists_eq_add_of_le hle
      have htp := htpname.mpr hname
      rw [← bytes_drop_tpname, hk, ← List.drop_drop] at htp
      exact List.mem_of_mem_drop htp
    rw [stringOf, if_pos hzero] at hnone
    exact absurd hnone (by simp)
  · intro hname
    refine ⟨.tpname, by decide, ?_⟩
    rw [stringOf, bytes_drop_tpname, if_neg fun hzero => htpname.mp hzero hname]

theorem Text.ext {m : Member} {text text' : Text m} (h : text.bytes = text'.bytes) :
    text = text' := by
  obtain ⟨bytes, _, _⟩ := text
  obtain ⟨bytes', _, _⟩ := text'
  obtain rfl : bytes = bytes' := h
  rfl

/-- What is stored carries the name that was given for it. -/
theorem carries_iff (ps : List Parameter) (origin : Text .fqluname) :
    Carries (image ps).bytes origin.bytes ↔ naming ps .fqluname = some origin := by
  rw [Carries]
  cases hname : naming ps .fqluname with
  | none =>
    refine iff_of_false (fun h => ?_) (by simp)
    exact absurd origin.short (Nat.not_le.mpr (stringOf_blank hname h))
  | some text =>
    rw [stringOf_image hname, Option.some.injEq, Option.some.injEq]
    exact ⟨Text.ext, congrArg Text.bytes⟩

/-! ## Values and bytes -/

theorem Memory.ext {size : Nat} {mem mem' : Memory size} (h : mem.bytes = mem'.bytes) :
    mem = mem' := by
  obtain ⟨bytes, _⟩ := mem
  obtain ⟨bytes', _⟩ := mem'
  obtain rfl : bytes = bytes' := h
  rfl

/-- The bytes of a `namerec` have its members in them. -/
theorem bytes_injective {r r' : Namerec} (h : r.bytes = r'.bytes) : r = r' := by
  funext m
  apply Memory.ext
  obtain ⟨rest, hdrop⟩ := bytes_drop r m
  obtain ⟨rest', hdrop'⟩ := bytes_drop r' m
  rw [h, hdrop'] at hdrop
  exact (List.append_inj hdrop ((r' m).length_eq.trans (r m).length_eq.symm)).1.symm

/-- The `namerec` of a value for each field, where each is copied once. -/
def canonical (n : Naming) : Namerec := fun m =>
  match n m with
  | none => .blank m.size
  | some text => (Memory.blank m.size).copy text.bytes text.short

/-- Fields with other values have other bytes. -/
theorem canonical_injective {n n' : Naming} (h : (canonical n).bytes = (canonical n').bytes) :
    n = n' := by
  have hblank (m : Member) (text : Text m) :
      Memory.blank m.size ≠ (Memory.blank m.size).copy text.bytes text.short := by
    intro heq
    have hzero : (0 : UInt8) ∈ (Memory.blank m.size).bytes := by
      rw [heq]
      exact List.mem_append_right _ List.mem_cons_self
    exact absurd (List.eq_of_mem_replicate hzero) (by decide)
  funext m
  have hm := congrFun (bytes_injective h) m
  rw [canonical, canonical] at hm
  cases hn : n m with
  | none =>
    cases hn' : n' m with
    | none => rfl
    | some text' =>
      rw [hn, hn'] at hm
      exact absurd hm (hblank m text')
  | some text =>
    cases hn' : n' m with
    | none =>
      rw [hn, hn'] at hm
      exact absurd hm.symm (hblank m text)
    | some text' =>
      rw [hn, hn'] at hm
      have hbytes := congrArg (fun mem => mem.bytes.takeWhile (· ≠ 0)) hm
      simp only [Memory.copy, takeWhile_text] at hbytes
      rw [Text.ext hbytes]

/-- Each field has a value that is as long as any other that is given for it. -/
def Clean (ps : List Parameter) : Prop :=
  ∀ m, ∀ text ∈ values ps m, ∀ last ∈ naming ps m, text.bytes.length ≤ last.bytes.length

instance (ps : List Parameter) : Decidable (Clean ps) :=
  decidable_of_iff (∀ m ∈ Member.all, ∀ text ∈ values ps m, ∀ last ∈ naming ps m,
    text.bytes.length ≤ last.bytes.length)
    ⟨fun h m => h m (by cases m <;> decide), fun h m _ => h m⟩

/-- Shorter texts leave what stands behind them. -/
theorem drop_copies {m : Member} {texts : List (Text m)} {k : Nat} (mem : Memory m.size)
    (h : ∀ text ∈ texts, text.bytes.length < k) :
    (mem.copies texts).bytes.drop k = mem.bytes.drop k := by
  induction texts generalizing mem with
  | nil => rfl
  | cons text texts ih =>
    rw [List.forall_mem_cons] at h
    rw [Memory.copies, List.foldl_cons]
    refine (ih _ h.2).trans ?_
    obtain ⟨j, rfl⟩ := Nat.exists_eq_add_of_lt h.1
    rw [Memory.copy, Nat.add_assoc, List.drop_length_add_append, List.drop_succ_cons,
      List.drop_drop, Nat.add_assoc, Nat.add_comm 1 j]

/-- If no text is longer than the last, a request has the bytes of what it names. -/
theorem image_eq_canonical {ps : List Parameter} (h : Clean ps) :
    image ps = canonical (naming ps) := by
  funext m
  rw [image_apply, canonical]
  cases hlast : naming ps m with
  | none =>
    rw [List.getLast?_eq_none_iff.mp hlast]
    rfl
  | some last =>
    have hclean := fun text htext => h m text htext last hlast
    obtain ⟨before, hvalues⟩ := List.getLast?_eq_some_iff.mp hlast
    have hbefore : ∀ text ∈ before, text.bytes.length < last.bytes.length + 1 := by
      intro text htext
      apply Nat.lt_succ_of_le
      apply hclean
      rw [hvalues]
      exact List.mem_append_left _ htext
    rw [hvalues, Memory.copies, List.foldl_append]
    apply Memory.ext
    show last.bytes ++ 0 :: List.drop _ _ = last.bytes ++ 0 :: List.drop _ _
    rw [show (before.foldl _ _ : Memory m.size) = (Memory.blank m.size).copies before from rfl,
      drop_copies _ hbefore]

end LinuxSna.Asuite.Names
