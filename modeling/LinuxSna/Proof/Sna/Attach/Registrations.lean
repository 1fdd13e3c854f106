import LinuxSna.Framework.Run
import LinuxSna.Framework.Sweep
import LinuxSna.Spec.Attach

/-!
# Registrations of transaction programs

The manager and the registry that it should keep take the same calls. `registrations_iff` says in
which runs each call returns what the registry says and leaves the same registrations, and in which
it does but for the number that a register returns.
-/

namespace LinuxSna.Attach

open Framework

/-! ## Calls -/

theorem tpGetByName_eq_none {m : Manager} {name : List UInt8} :
    tpGetByName m name = none ↔ name ∉ m.tpList.map AttachTpInfo.name := find_eq_none

theorem tpGetByIndex_eq_none {m : Manager} {index : UInt32} :
    tpGetByIndex m index = none ↔ index ∉ m.tpList.map AttachTpInfo.index := find_eq_none

/-- What a register can do -/
theorem tpRegister_cases {m : Manager} {fd : Nat} {name : List UInt8} {memory : Bool}
    {r : Manager × Int} (h : tpRegister m fd name memory = some r) :
    (fd ∉ m.files ∧ r = (m, eBadf)) ∨
      fd ∈ m.files ∧ (name ∈ m.tpList.map AttachTpInfo.name ∧ r = (m, eExist) ∨
        name ∉ m.tpList.map AttachTpInfo.name ∧ (memory = false ∧ r = (m, eNomem) ∨
          memory = true ∧ ∃ index, index ∉ m.tpList.map AttachTpInfo.index ∧ index ≠ 0 ∧
            r = ({ m with tpList := m.tpList ++ [⟨index, name⟩], systemIndex := index }, 0))) := by
  unfold tpRegister at h
  by_cases hf : fd ∈ m.files
  · rw [if_neg (not_not.mpr hf)] at h
    refine .inr ⟨hf, ?_⟩
    cases hn : tpGetByName m name with
    | some tp =>
      rw [hn] at h
      have hmem : name ∈ m.tpList.map AttachTpInfo.name := by
        by_contra hmem
        rw [tpGetByName_eq_none.mpr hmem] at hn
        cases hn
      exact .inl ⟨hmem, (Option.some.inj h).symm⟩
    | none =>
      rw [hn] at h
      refine .inr ⟨tpGetByName_eq_none.mp hn, ?_⟩
      cases memory with
      | false => exact .inl ⟨rfl, (Option.some.inj h).symm⟩
      | true =>
        obtain ⟨index, hi, rfl⟩ := Option.map_eq_some_iff.mp h
        exact .inr ⟨rfl, index, newIndex_notMem hi, newIndex_ne_zero hi, rfl⟩
  · rw [if_pos hf] at h
    exact .inl ⟨hf, (Option.some.inj h).symm⟩

/-- What an unregister can do -/
theorem tpUnregister_cases (m : Manager) (fd : Nat) (index : UInt32) :
    (fd ∉ m.files ∧ tpUnregister m fd index = (m, eBadf)) ∨
      fd ∈ m.files ∧ (index ∉ m.tpList.map AttachTpInfo.index ∧ tpUnregister m fd index = (m, eNoent) ∨
        index ∈ m.tpList.map AttachTpInfo.index ∧ tpUnregister m fd index =
          ({ m with tpList := m.tpList.eraseP (·.index = index) }, 0)) := by
  unfold tpUnregister
  by_cases hf : fd ∈ m.files
  · rw [if_neg (not_not.mpr hf)]
    refine .inr ⟨hf, ?_⟩
    cases hi : tpGetByIndex m index with
    | none => exact .inl ⟨tpGetByIndex_eq_none.mp hi, rfl⟩
    | some tp =>
      refine .inr ⟨?_, rfl⟩
      by_contra hmem
      rw [tpGetByIndex_eq_none.mpr hmem] at hi
      cases hi
  · exact .inl ⟨hf, if_pos hf⟩

/-! ## The manager beside the registry -/

/-- The manager and the registry after the same calls -/
structure Watched where
  manager : Manager
  registry : Registry

namespace Watched

def init : Watched := ⟨.init, []⟩

def step (w : Watched) (c : Call) : Option Watched :=
  (call w.manager c).map fun r => ⟨r.1, (w.registry.call w.manager.files r.1.systemIndex c).1⟩

/-- Both have the same registrations. -/
def Same (w : Watched) : Prop :=
  w.manager.tpList.map (fun tp => (tp.index, tp.name)) = w.registry.map fun r => (r.index, r.name)

instance (w : Watched) : Decidable w.Same := by
  unfold Same
  infer_instance

/-- What holds of the result of a call, that of the registry, and both afterwards -/
def After (P : Int → Int → Prop) (w : Watched) (c : Call) : Prop :=
  ∀ r ∈ call w.manager c,
    P r.2 (w.registry.call w.manager.files r.1.systemIndex c).2 ∧
      Same ⟨r.1, (w.registry.call w.manager.files r.1.systemIndex c).1⟩

/-- The call returns what the registry says and leaves the same registrations. -/
def Lawful (w : Watched) (c : Call) : Prop := After (fun v v' => v = v') w c

/-- The same, but that a number of the registry may be any: the call succeeds where it should. -/
def LawfulButNumber (w : Watched) (c : Call) : Prop := After (fun v v' => v < 0 ↔ v' < 0) w c

instance {P : Int → Int → Prop} [∀ v v', Decidable (P v v')] (w : Watched) (c : Call) :
    Decidable (After P w c) := by
  unfold After
  infer_instance

instance (w : Watched) (c : Call) : Decidable (w.Lawful c) := by
  unfold Lawful
  infer_instance

instance (w : Watched) (c : Call) : Decidable (w.LawfulButNumber c) := by
  unfold LawfulButNumber
  infer_instance

/-- The call registers no program. -/
def Refused (w : Watched) : Call → Prop
  | .register fd name memory =>
    fd ∈ w.manager.files → name ∉ w.registry.map Registration.name → memory = false
  | _ => True

/-- All registrations were made through the instance that is closed, and there are none when an
instance gets no file. -/
def ClosesOwn (w : Watched) : Call → Prop
  | .opened fd inode file =>
    fd ∉ w.manager.files → inode = true → file = false → w.registry = []
  | .close fd => fd ∈ w.manager.files → ∀ r ∈ w.registry, r.instance_ = fd
  | .fileRelease fd =>
    fd ∈ w.manager.files → fd ∉ w.manager.pinned → ∀ r ∈ w.registry, r.instance_ = fd
  | _ => True

/-! ## No registrations -/

/-- Nothing is registered. -/
structure Empty (w : Watched) : Prop where
  manager : w.manager.tpList = []
  registry : w.registry = []

theorem same_of_empty {w : Watched} (h : Empty w) : w.Same := by
  unfold Same
  rw [h.manager, h.registry]
  rfl

/-- A call that registers nothing leaves nothing, and returns what the registry says. -/
theorem empty_call {w : Watched} {c : Call} (h : Empty w) (hc : w.Refused c) {r : Manager × Int}
    (hr : call w.manager c = some r) (index : UInt32) :
    r.2 = (w.registry.call w.manager.files index c).2 ∧
      Empty ⟨r.1, (w.registry.call w.manager.files index c).1⟩ := by
  obtain ⟨hm, hreg⟩ := h
  cases c with
  | opened fd inode file =>
    dsimp only [call, attachOpen] at hr
    split_ifs at hr with hf hi hfile
    · obtain rfl := Option.some.inj hr
      simp only [Registry.call, if_pos hi]
      exact ⟨trivial, hm, hreg⟩
    · obtain rfl := Option.some.inj hr
      simp only [Registry.call, if_neg hi, if_pos hfile]
      exact ⟨trivial, rfl, hreg⟩
    · obtain rfl := Option.some.inj hr
      simp only [Registry.call, if_neg hi, if_neg hfile]
      exact ⟨trivial, hm, hreg⟩
  | close fd =>
    obtain rfl := Option.some.inj hr
    unfold attachClose
    simp only [Registry.call]
    split_ifs with hf
    · exact ⟨rfl, rfl, by rw [hreg]; rfl⟩
    · exact ⟨rfl, hm, hreg⟩
  | register fd name memory =>
    have hname : name ∉ w.registry.map Registration.name := by rw [hreg]; exact List.not_mem_nil
    simp only [Registry.call]
    obtain ⟨hf, rfl⟩ | ⟨hf, ⟨hn, rfl⟩ | ⟨hn, ⟨hmem, rfl⟩ | ⟨hmem, -⟩⟩⟩ := tpRegister_cases hr
    · rw [if_pos hf]
      exact ⟨rfl, hm, hreg⟩
    · rw [hm] at hn
      exact absurd hn List.not_mem_nil
    · rw [if_neg (not_not.mpr hf), if_neg hname, if_pos (by rw [hmem]; rfl)]
      exact ⟨rfl, hm, hreg⟩
    · exact absurd (hc hf hname) (by rw [hmem]; decide)
  | unregister fd i =>
    obtain rfl := Option.some.inj hr
    have hi : i ∉ w.registry.map Registration.index := by rw [hreg]; exact List.not_mem_nil
    simp only [Registry.call]
    obtain ⟨hf, hu⟩ | ⟨hf, ⟨hn, hu⟩ | ⟨hn, -⟩⟩ := tpUnregister_cases w.manager fd i
    · rw [hu, if_pos hf]
      exact ⟨rfl, hm, hreg⟩
    · rw [hu, if_neg (not_not.mpr hf), if_neg hi]
      exact ⟨rfl, hm, hreg⟩
    · rw [hm] at hn
      exact absurd hn List.not_mem_nil
  | fileRelease fd =>
    dsimp only [call] at hr
    split_ifs at hr
    obtain rfl := Option.some.inj hr
    exact ⟨rfl, rfl, by simp only [Registry.call, hreg, List.filter_nil]⟩

theorem empty_step {w w' : Watched} {c : Call} (h : Empty w) (hc : w.Refused c)
    (hs : w.step c = some w') : Empty w' := by
  obtain ⟨r, hr, rfl⟩ := Option.map_eq_some_iff.mp hs
  exact (empty_call h hc hr r.1.systemIndex).2

theorem lawful_iff_refused {w : Watched} (h : Empty w) (c : Call) : w.Lawful c ↔ w.Refused c := by
  constructor
  · intro hl
    by_contra hc
    -- the call is a register that is accepted, and 0 is not the number of the registration
    cases c with
    | register fd name memory =>
      simp only [Refused, not_forall] at hc
      obtain ⟨hf, hname, hmem⟩ := hc
      obtain rfl : memory = true := by simpa using hmem
      have hnone : tpGetByName w.manager name = none := by
        rw [tpGetByName_eq_none, h.manager]
        exact List.not_mem_nil
      have hcall : call w.manager (.register fd name true) = (tpNewIndex w.manager).map fun index =>
          ({ w.manager with tpList := w.manager.tpList ++ [⟨index, name⟩], systemIndex := index }, 0) := by
        simp only [call, tpRegister, if_neg (not_not.mpr hf), hnone]
        rfl
      obtain ⟨index, hi⟩ : ∃ index, tpNewIndex w.manager = some index := by
        simp only [tpNewIndex, h.manager, List.map_nil, List.length_nil, newIndex, List.not_mem_nil,
          if_false]
        exact ⟨_, rfl⟩
      rw [hi] at hcall
      have hv := (hl _ hcall).1
      simp only [Registry.call, if_neg (not_not.mpr hf), if_neg hname] at hv
      have hne := newIndex_ne_zero hi
      have hzero : index.toNat = 0 := by
        have : ((index.toNat : Nat) : Int) = 0 := hv.symm
        omega
      exact hne (UInt32.toNat_inj.mp hzero)
    | opened fd inode file => exact hc trivial
    | close fd => exact hc trivial
    | unregister fd i => exact hc trivial
    | fileRelease fd => exact hc trivial
  · intro hc r hr
    obtain ⟨h₁, h₂⟩ := empty_call h hc hr r.1.systemIndex
    exact ⟨h₁, same_of_empty h₂⟩

/-! ## The same registrations -/

/-- Both have the same registrations, under different numbers. -/
structure Kept (w : Watched) : Prop where
  same : w.Same
  nodup : (w.manager.tpList.map AttachTpInfo.index).Nodup

theorem Same.names {w : Watched} (h : w.Same) :
    w.manager.tpList.map AttachTpInfo.name = w.registry.map Registration.name := by
  have := congrArg (List.map Prod.snd) h
  rwa [List.map_map, List.map_map] at this

theorem Same.indexes {w : Watched} (h : w.Same) :
    w.manager.tpList.map AttachTpInfo.index = w.registry.map Registration.index := by
  have := congrArg (List.map Prod.fst) h
  rwa [List.map_map, List.map_map] at this

theorem Same.eq_nil_iff {w : Watched} (h : w.Same) : w.manager.tpList = [] ↔ w.registry = [] := by
  rw [← List.map_eq_nil_iff (f := fun tp : AttachTpInfo => (tp.index, tp.name)), h, List.map_eq_nil_iff]

/-- All registrations are gone. -/
theorem kept_nil {m : Manager} {r : Registry} {fd : Nat} (hm : m.tpList = [])
    (hr : ∀ x ∈ r, x.instance_ = fd) : Kept ⟨m, r.filter (·.instance_ ≠ fd)⟩ := by
  have hnil : r.filter (·.instance_ ≠ fd) = [] := by
    rw [List.filter_eq_nil_iff]
    intro x hx
    simp [hr x hx]
  refine ⟨?_, ?_⟩
  · unfold Same
    rw [hnil, hm]
    rfl
  · rw [hm]
    exact List.nodup_nil

theorem not_same_nil {m : Manager} {r : Registry} {fd : Nat} (hm : m.tpList = [])
    (hr : ¬ ∀ x ∈ r, x.instance_ = fd) : ¬ Same ⟨m, r.filter (·.instance_ ≠ fd)⟩ := by
  intro h
  have hnil := h.eq_nil_iff.mp hm
  rw [List.filter_eq_nil_iff] at hnil
  exact hr fun x hx => by simpa using hnil x hx

/-- The number is taken off both. -/
theorem same_unregister {w : Watched} (h : Kept w) (i : UInt32) :
    Same ⟨{ w.manager with tpList := w.manager.tpList.eraseP (·.index = i) },
      w.registry.filter (·.index ≠ i)⟩ := by
  have hfilter := congrArg (List.filter fun x : UInt32 × List UInt8 => decide (x.1 ≠ i)) h.same
  rw [List.filter_map, List.filter_map] at hfilter
  unfold Same
  dsimp only
  rw [eraseP_key_eq_filter h.nodup]
  exact hfilter

/-- What a call returns and leaves when it closes only its own registrations -/
theorem kept_call {w : Watched} {c : Call} (h : Kept w) (hc : w.ClosesOwn c) {r : Manager × Int}
    (hr : call w.manager c = some r) :
    (r.2 < 0 ↔ (w.registry.call w.manager.files r.1.systemIndex c).2 < 0) ∧
      Kept ⟨r.1, (w.registry.call w.manager.files r.1.systemIndex c).1⟩ := by
  obtain ⟨hs, hn⟩ := h
  cases c with
  | opened fd inode file =>
    dsimp only [call, attachOpen] at hr
    split_ifs at hr with hf hi hfile
    · obtain rfl := Option.some.inj hr
      simp only [Registry.call, if_pos hi]
      exact ⟨trivial, hs, hn⟩
    · obtain rfl := Option.some.inj hr
      simp only [Registry.call, if_neg hi, if_pos hfile]
      have hnil : w.registry = [] := hc hf (by simpa using hi) (by simpa using hfile)
      refine ⟨trivial, ?_, List.nodup_nil⟩
      unfold Same
      rw [hnil]
      rfl
    · obtain rfl := Option.some.inj hr
      simp only [Registry.call, if_neg hi, if_neg hfile]
      exact ⟨trivial, hs, hn⟩
  | close fd =>
    obtain rfl := Option.some.inj hr
    unfold attachClose
    simp only [Registry.call]
    split_ifs with hf
    · exact ⟨Iff.rfl, kept_nil rfl (hc hf)⟩
    · exact ⟨Iff.rfl, hs, hn⟩
  | register fd name memory =>
    simp only [Registry.call]
    rw [← hs.names]
    obtain ⟨hf, rfl⟩ | ⟨hf, ⟨hmem, rfl⟩ | ⟨hname, ⟨hm, rfl⟩ | ⟨hm, index, hi, hne, rfl⟩⟩⟩ :=
      tpRegister_cases hr
    · rw [if_pos hf]
      exact ⟨Iff.rfl, hs, hn⟩
    · rw [if_neg (not_not.mpr hf), if_pos hmem]
      exact ⟨Iff.rfl, hs, hn⟩
    · rw [if_neg (not_not.mpr hf), if_neg hname, if_pos (by rw [hm]; rfl)]
      exact ⟨Iff.rfl, hs, hn⟩
    · rw [if_neg (not_not.mpr hf), if_neg hname, if_neg (by rw [hm]; decide)]
      refine ⟨iff_of_false (Int.lt_irrefl 0) (by dsimp only; omega), ?_, ?_⟩
      · unfold Same
        dsimp only
        rw [List.map_append, List.map_append, hs]
        rfl
      · dsimp only
        exact nodup_map_append hn hi
  | unregister fd i =>
    obtain rfl := Option.some.inj hr
    simp only [Registry.call]
    rw [← hs.indexes]
    obtain ⟨hf, hu⟩ | ⟨hf, ⟨hi, hu⟩ | ⟨hi, hu⟩⟩ := tpUnregister_cases w.manager fd i
    · rw [hu, if_pos hf]
      exact ⟨Iff.rfl, hs, hn⟩
    · rw [hu, if_neg (not_not.mpr hf), if_neg hi]
      exact ⟨Iff.rfl, hs, hn⟩
    · rw [hu, if_neg (not_not.mpr hf), if_pos hi]
      refine ⟨Iff.rfl, same_unregister ⟨hs, hn⟩ i, ?_⟩
      exact hn.sublist (List.eraseP_sublist.map _)
  | fileRelease fd =>
    dsimp only [call] at hr
    split_ifs at hr with hf
    obtain rfl := Option.some.inj hr
    exact ⟨Iff.rfl, kept_nil rfl (hc hf.1 hf.2)⟩

theorem kept_step {w w' : Watched} {c : Call} (h : Kept w) (hc : w.ClosesOwn c)
    (hs : w.step c = some w') : Kept w' := by
  obtain ⟨r, hr, rfl⟩ := Option.map_eq_some_iff.mp hs
  exact (kept_call h hc hr).2

theorem lawfulButNumber_iff {w : Watched} (h : Kept w) (c : Call) :
    w.LawfulButNumber c ↔ w.ClosesOwn c := by
  constructor
  · intro hl
    cases c with
    | opened fd inode file =>
      rintro hf rfl rfl
      have hcall : call w.manager (.opened fd true false) = some (release w.manager, eNfile) := if_neg hf
      have hsame := (hl _ hcall).2
      exact hsame.eq_nil_iff.mp rfl
    | close fd =>
      intro hf
      have hcall : call w.manager (.close fd) =
          some (release { w.manager with pinned := fd :: w.manager.pinned }, 0) :=
        congrArg some (if_neg (not_not.mpr hf))
      have hsame := (hl _ hcall).2
      simp only [Registry.call, if_neg (not_not.mpr hf)] at hsame
      by_contra hc
      exact not_same_nil rfl hc hsame
    | register fd name memory => trivial
    | unregister fd i => trivial
    | fileRelease fd =>
      intro hf hp
      have hcall : call w.manager (.fileRelease fd) = some (fileRelease w.manager fd) := if_pos ⟨hf, hp⟩
      have hsame := (hl _ hcall).2
      by_contra hc
      exact not_same_nil rfl hc hsame
  · intro hc r hr
    obtain ⟨h₁, h₂⟩ := kept_call h hc hr
    exact ⟨h₁, h₂.same⟩

end Watched

/-! ## Runs -/

/-- The manager keeps the registry in exactly the runs in which nothing is ever registered. But for
the number that a register returns, it does so in exactly those in which no instance is closed, and
none fails to get a file, while there are registrations through others. -/
theorem registrations_iff (cs : List Call) :
    (Along Watched.step Watched.Lawful .init cs ↔ Along Watched.step Watched.Refused .init cs) ∧
      (Along Watched.step Watched.LawfulButNumber .init cs ↔
        Along Watched.step Watched.ClosesOwn .init cs) := by
  constructor
  · refine along_iff (I := Watched.Empty) (fun _ _ _ => Watched.empty_step)
      (fun _ c h => Watched.lawful_iff_refused h c) ?_
    exact { manager := rfl, registry := rfl }
  · refine along_iff (I := Watched.Kept) (fun _ _ _ => Watched.kept_step)
      (fun _ c h => Watched.lawfulButNumber_iff h c) ?_
    exact { same := rfl, nodup := List.nodup_nil }

/-- A program is registered through one instance and another instance is closed: the register returns
0, which no registration has for its number, and the close takes the registration away. -/
theorem registration_lost :
    (∃ m, run (fun m c => (call m c).map Prod.fst) .init [.opened 3 true true, .opened 4 true true] =
        some m ∧
      ∃ m', call m (.register 3 [97] true) = some (m', 0) ∧ call m' (.unregister 3 0) = some (m', eNoent) ∧
        ∃ m'', call m' (.close 4) = some (m'', 0) ∧ m''.tpList = []) ∧
      ¬ Along Watched.step Watched.Lawful .init
        [.opened 3 true true, .opened 4 true true, .register 3 [97] true] ∧
      ¬ Along Watched.step Watched.LawfulButNumber .init
        [.opened 3 true true, .opened 4 true true, .register 3 [97] true, .close 4] := by
  refine ⟨⟨_, rfl, _, rfl, rfl, _, rfl, rfl⟩, by decide, by decide⟩

end LinuxSna.Attach
