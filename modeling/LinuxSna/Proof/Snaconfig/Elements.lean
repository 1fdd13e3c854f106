import LinuxSna.Proof.Snaconfig.Texts

/-!
# The words of a configuration: elements

What the slots of a section get from elements that are written as they should be. The slots do
not touch one another, and a name that there may be is the start of no other, so that each slot
is filled from the element of its own name (`Fit.fillIn_eq`).

* `HasTexts.value_eq`: a text is read by the function of its slot;
* `value_text`, `value_number`, …: the slots by what is read for them;
* `value_range`, `value_cost`: the slots with elements of their own.
-/

namespace LinuxSna.Snaconfig

open Framework NodeConfig

/-- Elements by name -/
def entriesOf (cs : List Node) : List (XmlStr × Node) := cs.map fun c => (c.name, c)

theorem lookup_entriesOf (cs : List Node) (name : XmlStr) :
    (entriesOf cs).lookup name = cs.find? (·.name = name) := by
  induction cs with
  | nil => rfl
  | cons c cs ih =>
    show (match name == c.name with | true => some c | false => (entriesOf cs).lookup name) = _
    by_cases h : c.name = name
    · simp [h]
    · have hb : (name == c.name) = false := beq_false_of_ne (Ne.symm h)
      rw [hb, List.find?_cons_of_neg (by simpa using h)]
      exact ih

/-- The slots of a record that is filled from elements of these names -/
structure Fit {ι : Type} (slots : List (Slot XmlStr Node ι)) (names : List XmlStr) (blank : ι) :
    Prop where
  hits : ∀ a ∈ names, ∀ k ∈ slots.map Slot.key, nameMatches a k = true ↔ a = k
  keys : (slots.map Slot.key).Nodup
  comm : slots.Pairwise Slot.Commute
  blank : ∀ s ∈ slots, s.put s.blank blank = blank

/-- The slots are for the elements `keys`. -/
theorem Fit.of_keys {ι : Type} {slots : List (Slot XmlStr Node ι)} {names : List XmlStr} {blank : ι}
    (keys : List String) (hkeys : slots.map Slot.key = keys.map String.toList)
    (hits : ∀ a ∈ names, ∀ k ∈ keys.map String.toList, nameMatches a k = true ↔ a = k)
    (once : (keys.map String.toList).Nodup) (comm : slots.Pairwise Slot.Commute)
    (hblank : ∀ s ∈ slots, s.put s.blank blank = blank) : Fit slots names blank :=
  ⟨hkeys ▸ hits, hkeys ▸ once, comm, hblank⟩

section Written

variable {α ι : Type} {ns : Ns} {doc : Elements α} {holds : α → Node → Prop} {cs : List Node}

theorem inNs_eq {cur : Node} (h : Written ns doc holds cur.children) :
    inNs ns cur = entriesOf cur.children := by
  rw [inNs, List.filter_eq_self.mpr fun c hc => decide_eq_true (h.each c hc).1]
  rfl

theorem mem_names {a : α} {name : XmlStr} (h : doc.lookup name = some a) :
    name ∈ doc.map Prod.fst := by
  obtain ⟨l, r, rfl, -⟩ := List.lookup_eq_some_iff.mp h
  simp

theorem Fit.fillIn_eq {slots : List (Slot XmlStr Node ι)} {blank : ι}
    (hfit : Fit slots (doc.map Prod.fst) blank) (h : Written ns doc holds cs) :
    fillIn nameMatches slots (entriesOf cs) blank = slots.foldlM (Slot.step (entriesOf cs)) blank := by
  apply Framework.fillIn_eq nameMatches _ _ hfit.keys hfit.comm hfit.blank
  · intro e he s hs
    obtain ⟨c, hc, rfl⟩ := List.mem_map.mp he
    obtain ⟨-, a, ha, -⟩ := h.each c hc
    exact hfit.hits c.name (mem_names ha) s.key (List.mem_map_of_mem hs)
  · rw [entriesOf, List.map_map]
    exact h.once

/-- An element that is there holds what it may hold. -/
theorem holds_of_find {name : XmlStr} {a : α} {c : Node} (h : Written ns doc holds cs)
    (hd : doc.lookup name = some a) (hc : cs.find? (·.name = name) = some c) :
    c ∈ cs ∧ c.name = name ∧ holds a c := by
  have hmem := List.mem_of_find?_eq_some hc
  have hname : c.name = name := by simpa using List.find?_some hc
  obtain ⟨-, b, hb, hholds⟩ := h.each c hmem
  rw [hname, hd] at hb
  cases hb
  exact ⟨hmem, hname, hholds⟩

end Written

theorem nodeListGetString_text {c : Node} {t : XmlStr} (h : c.children = [.text t]) :
    nodeListGetString c = some t := by
  simp [nodeListGetString, h, Node.content?]

theorem contentOf_text {c : Node} {t : XmlStr} (h : c.children = [.text t]) :
    contentOf c = some t := by
  rw [contentOf, h]
  rfl

section Value

variable {α ι V : Type} {ns : Ns} {doc : Elements α} {holds : α → Node → Prop} {cs : List Node}

/-- What a slot gets if its function reads `val c` from the element `c`. -/
theorem value_of_child (h : Written ns doc holds cs) {name : String} {a : α}
    (hd : doc.lookup name.toList = some a) (blank : V) {read : Node → Option V} (put : V → ι → ι)
    (val : Node → V)
    (hread : ∀ c ∈ cs, c.name = name.toList → holds a c → read c = some (val c)) :
    Slot.value ⟨name.toList, V, blank, read, put⟩ (entriesOf cs) =
      some (((child cs name).map val).getD blank) := by
  rw [Slot.value, lookup_entriesOf, child]
  cases hc : cs.find? (·.name = name.toList) with
  | none => rfl
  | some c =>
    obtain ⟨hmem, hname, hholds⟩ := holds_of_find h hd hc
    exact hread c hmem hname hholds

/-- A slot whose value has been read is filled, and the others after it. -/
theorem steps_cons {s : Slot XmlStr Node ι} {entries : List (XmlStr × Node)} {v : s.Val}
    (h : s.value entries = some v) (slots : List (Slot XmlStr Node ι)) (r : ι) :
    (s :: slots).foldlM (Slot.step entries) r = slots.foldlM (Slot.step entries) (s.put v r) := by
  rw [List.foldlM_cons, Slot.step, h]
  rfl

end Value

/-! ## Texts -/

/-- A list of elements of which some are texts of a form -/
structure HasTexts {α : Type} (ns : Ns) (doc : Elements α) (holds : α → Node → Prop)
    (value : Form → α) (cs : List Node) : Prop extends Written ns doc holds cs where
  text : ∀ f c, holds (value f) c → f.Holds c

theorem Written.hasTexts {ns : Ns} {doc : Elements Content} {cs : List Node}
    (h : Written ns doc (Content.Holds ns) cs) : HasTexts ns doc (Content.Holds ns) .value cs :=
  ⟨h, fun _ _ hc => hc⟩

theorem Written.hasTexts_range {ns : Ns} {cs : List Node} (h : Written ns rangeDoc Form.Holds cs) :
    HasTexts ns rangeDoc Form.Holds id cs :=
  ⟨h, fun _ _ hc => hc⟩

section Texts

variable {α ι : Type} {ns : Ns} {doc : Elements α} {holds : α → Node → Prop} {value : Form → α}
  {cs : List Node}

theorem HasTexts.value_eq (h : HasTexts ns doc holds value cs) {V : Type} {name : String} {f : Form}
    (hd : doc.lookup name.toList = some (value f)) (blank : V) {read : Node → Option V}
    (put : V → ι → ι) (val : XmlStr → V)
    (hread : ∀ c ∈ cs, ∀ t, c.name = name.toList → c.children = [.text t] → f.fits t = true →
      nodeListGetString c = some t → read c = some (val t)) :
    Slot.value ⟨name.toList, V, blank, read, put⟩ (entriesOf cs) =
      some (((textOf cs name).map val).getD blank) := by
  rw [value_of_child h.toWritten hd blank put fun c => ((contentOf c).map val).getD blank]
  · rw [textOf]
    cases child cs name <;> rfl
  · intro c hc hname hholds
    obtain ⟨t, ht, hfits⟩ := h.text f c hholds
    rw [hread c hc t hname ht hfits (nodeListGetString_text ht), contentOf_text ht]
    rfl

variable (h : HasTexts ns doc holds value cs) (name : String)

include h

theorem value_text {size : Nat} (put : XmlStr → ι → ι)
    (hd : doc.lookup name.toList = some (value (.text size))) :
    (strcpyAt name size put).value (entriesOf cs) = some (text cs name) := by
  rw [h.value_eq hd [] put id]
  · rw [Option.map_id]
    rfl
  · intro c _ t _ _ hfits ht
    simp only [Form.fits, ne_eq, decide_eq_true_eq] at hfits
    show (nodeListGetString c).bind (strcpy size) = some t
    rw [ht, Option.bind_some, strcpy, if_pos hfits.2]

theorem value_upper (put : XmlStr → ι → ι)
    (hd : doc.lookup name.toList = some (value .name)) :
    (toupperAt name put).value (entriesOf cs) = some (upper cs name) := by
  rw [h.value_eq hd [] put (List.map Char.toUpper)]
  · rw [upper, text]
    cases textOf cs name <;> rfl
  · intro c _ t _ _ hfits ht
    simp only [Form.fits, ne_eq, decide_eq_true_eq] at hfits
    show ((nodeListGetString c).bind (strcpy 9)).map (List.map Char.toUpper) = _
    rw [ht, Option.bind_some, strcpy, if_pos (Nat.lt_succ_of_le hfits.2), Option.map_some]

theorem value_number (long : Long) (put : Int → ι → ι)
    (hd : doc.lookup name.toList = some (value .number)) :
    (intAt long name put).value (entriesOf cs) = some (number cs name : Int) := by
  rw [h.value_eq hd 0 put fun t => (inBase 10 t : Int)]
  · rw [number]
    cases textOf cs name <;> rfl
  · intro c _ t _ _ hfits ht
    show (nodeListGetString c).map (atoi long) = _
    rw [ht, Option.map_some, atoi_number long hfits]

/-- No word stands for a number. -/
def noWords : Words := ⟨fun _ => none, fun _ => none⟩

/-- A word is read as the number zero. -/
theorem value_scale (long : Long) (topic : Topic) (htopic : topic = .delay ∨ topic = .user)
    (put : Int → ι → ι) (hd : doc.lookup name.toList = some (value (.scale topic))) :
    (intAt long name put).value (entriesOf cs) = some (scale noWords topic cs name) := by
  have hnone : ∀ t, noWords.meaning topic t = none := by
    intro t
    obtain rfl | rfl := htopic <;> rfl
  rw [h.value_eq hd 0 put fun t => if isNumber t then (inBase 10 t : Int) else 0]
  · rw [scale]
    cases textOf cs name with
    | none => rfl
    | some t =>
      simp only [Option.map_some, Option.getD_some, Option.bind_some, hnone]
      by_cases hn : isNumber t = true
      · rw [if_pos hn, if_pos hn, Option.getD_some]
      · rw [if_neg hn, if_neg hn, Option.getD_none]
  · intro c _ t _ _ hfits ht
    show (nodeListGetString c).map (atoi long) = _
    rw [ht, Option.map_some]
    by_cases hn : isNumber t = true
    · rw [if_pos hn, atoi_number long hn]
    · rw [if_neg hn]
      simp only [Form.fits, Bool.or_eq_true] at hfits
      rw [atoi_word long (hfits.resolve_left hn)]

/-- A word where a number is asked for -/
theorem value_word_int (long : Long) (topic : Topic) (put : Int → ι → ι)
    (hd : doc.lookup name.toList = some (value (.word topic))) :
    (intAt long name put).value (entriesOf cs) = some (0 : Int) := by
  rw [h.value_eq hd 0 put fun _ => 0]
  · cases textOf cs name <;> rfl
  · intro c _ t _ _ hfits ht
    show (nodeListGetString c).map (atoi long) = _
    rw [ht, Option.map_some, atoi_word long hfits]

theorem value_word {wm : WordMap} {topic : Topic} (hmaps : Maps wm topic) {words : Words}
    (put : Int → ι → ι) (hd : doc.lookup name.toList = some (value (.word topic)))
    (hknown : ∀ c ∈ cs, ∀ t, c.name = name.toList → c.children = [.text t] →
      (words.meaning topic t).isSome) :
    (typesAt wm name put).value (entriesOf cs) = some (word words topic cs name) := by
  rw [h.value_eq hd 0 put fun t => (words.meaning topic t).getD 0]
  · rw [word]
    cases textOf cs name <;> rfl
  · intro c hc t hname hchildren _ ht
    obtain ⟨n, hn⟩ := Option.isSome_iff_exists.mp (hknown c hc t hname hchildren)
    show (nodeListGetString c).bind (mapWord wm) = some ((words.meaning topic t).getD 0)
    rw [ht, Option.bind_some, mapWord_known hmaps hn, hn, Option.getD_some]

theorem value_sap (long : Long) (put : Nat → ι → ι)
    (hd : doc.lookup name.toList = some (value .sap)) :
    (lsapAt long name put).value (entriesOf cs) = some (sap cs name) := by
  rw [h.value_eq hd 0 put fun t => inBase 16 (t.drop 2)]
  · rfl
  · intro c _ t _ _ hfits ht
    show (nodeListGetString c).map _ = _
    rw [ht, Option.map_some, strtol_sap long hfits]

theorem value_netName (put : Netid → ι → ι)
    (hd : doc.lookup name.toList = some (value .netName)) :
    (netidAt name put).value (entriesOf cs) = some (netName cs name) := by
  rw [h.value_eq hd noNetid put fun t => (⟨padded (netPart t), padded (namePart t)⟩ : Netid)]
  · rfl
  · intro c _ t _ _ hfits ht
    show (nodeListGetString c).bind charToNetid = _
    rw [ht, Option.bind_some, charToNetid_eq hfits]

theorem value_nodeId (long : Long) (put : Nat → ι → ι)
    (hd : doc.lookup name.toList = some (value .nodeId)) :
    (nodeidAt long name put).value (entriesOf cs) = some (min (nodeId cs name) long.max) := by
  rw [h.value_eq hd 0 put fun t => min (inBase 16 t) long.max]
  · rw [nodeId]
    cases textOf cs name with
    | none => exact congrArg some (Nat.zero_min long.max).symm
    | some t => rfl
  · intro c _ t _ _ hfits ht
    show (nodeListGetString c).bind (charToNodeid long) = _
    rw [ht, Option.bind_some, charToNodeid_eq long hfits]

theorem value_address (put : List Nat → ι → ι)
    (hd : doc.lookup name.toList = some (value .address)) :
    (macAddressAt name put).value (entriesOf cs) = some (address cs name) := by
  rw [h.value_eq hd [] put bytes]
  · rfl
  · intro c _ t _ _ hfits ht
    simp only [Form.fits, decide_eq_true_eq, List.all_eq_true] at hfits
    show (nodeListGetString c).map (charToEther ethAlen) = _
    rw [ht, Option.map_some, ethAlen, charToEther_eq 6 hfits.1 hfits.2]

/-- A map without a last entry is left for a word that is not in it. -/
theorem value_isSome_iff {wm : WordMap} {topic : Topic} (hmaps : Maps wm topic) (words : Words)
    (put : Int → ι → ι) (hd : doc.lookup name.toList = some (value (.word topic))) :
    ((typesAt wm name put).value (entriesOf cs)).isSome ↔
      wm.ended ∨ ∀ t, textOf cs name = some t → (words.meaning topic t).isSome := by
  have hkey : (typesAt wm name put).key = name.toList := rfl
  rw [Slot.value, lookup_entriesOf, hkey, textOf, child]
  cases hc : cs.find? (·.name = name.toList) with
  | none => simp
  | some c =>
    obtain ⟨-, -, hholds⟩ := holds_of_find h.toWritten hd hc
    obtain ⟨t, ht, -⟩ := h.text _ c hholds
    show (xwordTypes wm c).isSome ↔ _
    rw [xwordTypes, nodeListGetString_text ht, Option.bind_some, Option.bind_some, contentOf_text ht,
      mapWord_isSome_iff hmaps words t]
    simp

end Texts

/-! ## Ranges -/

/-- What is read for an end of a range -/
def ending (cs : List Node) (name : String) : Option Int :=
  (textOf cs name).map fun t => (inBase 10 t : Int)

theorem ending_getD (cs : List Node) (name : String) : (ending cs name).getD 0 = number cs name := by
  rw [ending, number]
  cases textOf cs name <;> rfl

theorem minMax_fit (long : Long) :
    Fit (minMaxSlots long) (rangeDoc.map Prod.fst) ⟨none, none⟩ :=
  .of_keys ["min", "max"] rfl (by decide) (by decide) (List.pairwise_pair.mpr fun _ _ _ => rfl)
    (by simp [minMaxSlots])

theorem xwordMinMax_eq (long : Long) {ns : Ns} {c : Node} (h : IsRange ns c) :
    xwordMinMax long ns c = some ⟨ending c.children "min", ending c.children "max"⟩ := by
  have hvalue : ∀ (name : String) (put : Option Int → MinMax → MinMax),
      rangeDoc.lookup name.toList = some .number →
      Slot.value ⟨name.toList, Option Int, none, fun cur => (xwordInt long cur).map some, put⟩
        (entriesOf c.children) = some (ending c.children name) := by
    intro name put hd
    rw [(Written.hasTexts_range h).value_eq hd none put fun t => some (inBase 10 t : Int)]
    · rw [ending]
      cases textOf c.children name <;> rfl
    · intro d _ t _ _ hfits ht
      rw [xwordInt, ht, Option.map_some, Option.map_some, atoi_number long hfits]
  rw [xwordMinMax, inNs_eq h, (minMax_fit long).fillIn_eq h]
  rw [minMaxSlots, steps_cons (hvalue "min" _ rfl), steps_cons (hvalue "max" _ rfl)]
  cases ending c.children "min" <;> cases ending c.children "max" <;> rfl

/-- What is read for an element that holds a range -/
def rangeOf (cs : List Node) (name : String) : MinMax :=
  ((child cs name).map fun c => ⟨ending c.children "min", ending c.children "max"⟩).getD ⟨none, none⟩

theorem rangeOf_min (cs : List Node) (name : String) :
    (rangeOf cs name).min.getD 0 = bound cs name "min" := by
  rw [rangeOf, bound]
  cases child cs name with
  | none => rfl
  | some c => exact ending_getD c.children "min"

theorem rangeOf_max (cs : List Node) (name : String) :
    (rangeOf cs name).max.getD 0 = bound cs name "max" := by
  rw [rangeOf, bound]
  cases child cs name with
  | none => rfl
  | some c => exact ending_getD c.children "max"

section Ranges

variable {α ι : Type} {ns : Ns} {doc : Elements α} {holds : α → Node → Prop} {cs : List Node}

theorem value_range (long : Long) (h : Written ns doc holds cs) (name : String) {a : α}
    (ha : ∀ c, holds a c → IsRange ns c) (put : MinMax → ι → ι)
    (hd : doc.lookup name.toList = some a) :
    (minMaxAt long ns name put).value (entriesOf cs) = some (rangeOf cs name) :=
  value_of_child h hd ⟨none, none⟩ put _ fun c _ _ hc => xwordMinMax_eq long (ha c hc)

theorem cost_fit (long : Long) :
    Fit (costSlots long ns) (costDoc.map Prod.fst) ⟨⟨none, none⟩, ⟨none, none⟩⟩ :=
  .of_keys ["connect", "byte"] rfl (by decide) (by decide)
    (List.pairwise_pair.mpr fun _ _ _ => rfl) (by simp [costSlots, MinMax.over])

theorem xwordCost_eq (long : Long) {c : Node} (h : IsCost ns c) :
    xwordCost long ns c = some ⟨rangeOf c.children "connect", rangeOf c.children "byte"⟩ := by
  have hover : ∀ r : MinMax, r.over ⟨none, none⟩ = r := by
    rintro ⟨_ | _, _ | _⟩ <;> rfl
  have hvalue : ∀ (name : String) (put : MinMax → Cost → Cost),
      costDoc.lookup name.toList = some () →
      Slot.value ⟨name.toList, MinMax, ⟨none, none⟩, xwordMinMax long ns, put⟩
        (entriesOf c.children) = some (rangeOf c.children name) :=
    fun name put hd => value_range long h name (fun _ hc => hc) put hd
  rw [xwordCost, inNs_eq h, (cost_fit long).fillIn_eq h]
  rw [costSlots, steps_cons (hvalue "connect" _ rfl), steps_cons (hvalue "byte" _ rfl)]
  show some (⟨(rangeOf c.children "connect").over ⟨none, none⟩,
    (rangeOf c.children "byte").over ⟨none, none⟩⟩ : Cost) = _
  rw [hover, hover]

/-- What is read for an element that holds costs -/
def costOf (cs : List Node) (name : String) : Cost :=
  ((child cs name).map fun c => ⟨rangeOf c.children "connect", rangeOf c.children "byte"⟩).getD
    ⟨⟨none, none⟩, ⟨none, none⟩⟩

theorem value_cost (long : Long) {cs : List Node} (h : Written ns cosDoc (Content.Holds ns) cs)
    (name : String) (put : Cost → ι → ι) (hd : cosDoc.lookup name.toList = some .cost) :
    (costAt long ns name put).value (entriesOf cs) = some (costOf cs name) :=
  value_of_child h hd _ put _ fun _ _ _ hc => xwordCost_eq long hc

end Ranges

/-- The ends of the ranges of a cost -/
theorem costOf_bounds (cs : List Node) (name : String) :
    (costOf cs name).connect.min.getD 0 = costBound cs name "connect" "min" ∧
    (costOf cs name).connect.max.getD 0 = costBound cs name "connect" "max" ∧
    (costOf cs name).byte.min.getD 0 = costBound cs name "byte" "min" ∧
    (costOf cs name).byte.max.getD 0 = costBound cs name "byte" "max" := by
  unfold costOf costBound
  cases child cs name with
  | none => exact ⟨rfl, rfl, rfl, rfl⟩
  | some c => exact ⟨rangeOf_min _ _, rangeOf_max _ _, rangeOf_min _ _, rangeOf_max _ _⟩

end LinuxSna.Snaconfig
