import LinuxSna.Framework.Run
import LinuxSna.Impl.Sna.Cs.Define

/-!
# The addresses of link stations

Whatever ports and link stations are defined and deleted, the numbers, the addresses of the ports and
the counters stay as they should. What goes wrong is a link station with an LSAP from 0x80 on: it is
compared with a `char` and never found by its address. A name that does not fit into `use_name` may
become the name of another link station.

* `charEq_iff`: the comparison of an LSAP;
* `Kept.call`: what every call keeps;
* `unique_iff`: in which sequences of calls the link stations stay unique.
-/

namespace LinuxSna.Stations

open Framework

variable {s s' : Ports} {port : PortCb} {ls : LsCb} {cfg : NofLs} {env : Env}

/-! ## What is looked for -/

/-- Where a link station is: partner MAC and partner LSAP -/
def LsCb.addr (ls : LsCb) : Mac × UInt8 := (ls.pluMacAddr, ls.pluPort)

theorem addr_in_bounds : 0 < 12 := by decide

/-- The byte of its address that a port is found by -/
def PortCb.addr (port : PortCb) : UInt8 := getElem port.saddr 0 addr_in_bounds

/-- No `char` has the value of a byte from 0x80 on. -/
theorem charEq_iff (p b : UInt8) : (p.toNat : Int) = b.toInt8.toInt ↔ p = b ∧ b < 0x80 := by
  have hp : p.toNat < 256 := p.toNat_lt
  have hb : b.toNat < 256 := b.toNat_lt
  have hi : b.toInt8.toInt = if 2 * b.toNat < 256 then (b.toNat : Int) else b.toNat - 256 :=
    BitVec.toInt_eq_toNat_cond b.toBitVec
  rw [hi, ← UInt8.toNat_inj, UInt8.lt_iff_toNat_lt]
  show _ ↔ p.toNat = b.toNat ∧ b.toNat < 128
  split <;> omega

theorem lsGetByName_eq (s : Ports) (name : List UInt8) :
    lsGetByName s name = find LsCb.useName (string name) s.stations := by
  rw [find, Ports.stations, List.find?_flatMap]
  rfl

theorem lsGetByAddr_eq (s : Ports) (mac : Mac) {lsap : UInt8} (h : lsap < 0x80) :
    lsGetByAddr s mac lsap = find LsCb.addr (mac, lsap) s.stations := by
  have hp : ∀ ls : LsCb, (ls.pluMacAddr = mac ∧ (ls.pluPort.toNat : Int) = lsap.toInt8.toInt) ↔
      ls.addr = (mac, lsap) := by
    intro ls
    rw [charEq_iff, and_iff_left h, LsCb.addr, Prod.mk.injEq]
  rw [find, Ports.stations, List.find?_flatMap, lsGetByAddr]
  simp only [hp]

/-- A link station with such an LSAP is never found. -/
theorem lsGetByAddr_eq_none (s : Ports) (mac : Mac) {lsap : UInt8} (h : ¬ lsap < 0x80) :
    lsGetByAddr s mac lsap = none := by
  rw [lsGetByAddr, List.findSome?_eq_none_iff]
  intro port _
  rw [List.find?_eq_none]
  intro ls _
  rw [decide_eq_true_iff]
  exact fun hls => h ((charEq_iff _ _).mp hls.2).2

/-! ## Names -/

/-- A name with its NUL fits into `use_name`. -/
def Fits (name : List UInt8) : Prop := (string name).length < resourceNameLen

instance (name : List UInt8) : Decidable (Fits name) := inferInstanceAs (Decidable (_ < _))

theorem string_takeD {n : ℕ} {name : List UInt8} (h : (string name).length < n)
    (behind : List UInt8) : string (name.takeD n 0 ++ behind) = string name := by
  induction n generalizing name with
  | zero => exact absurd h (Nat.not_lt_zero _)
  | succ n ih =>
    cases name with
    | nil => rfl
    | cons b name =>
      rw [List.takeD_succ]
      show string (b :: (name.takeD n 0 ++ behind)) = string (b :: name)
      by_cases hb : b = 0
      · rw [hb]
        rfl
      · have hs : ∀ l, string (b :: l) = b :: string l := fun l =>
          List.takeWhile_cons_of_pos (by simpa using hb)
        rw [hs] at h
        rw [hs, hs, ih (Nat.lt_of_succ_lt_succ h)]

/-- A name that fits is copied as it is. -/
theorem copied_of_fits {name : List UInt8} (h : Fits name) (behind : List UInt8) :
    copied name behind = string name :=
  string_takeD h behind

/-! ## What the calls keep -/

/-- The link stations of a port have its number and numbers of their own, and they are counted. -/
structure PortCb.Kept (port : PortCb) : Prop where
  portIndex : ∀ ls ∈ port.lsList, ls.portIndex = port.index
  index : (0 :: port.lsList.map LsCb.index).Nodup
  counted : port.lsQlen.toNat = port.lsList.length

/-- The ports have numbers and addresses of their own, and so have the link stations, which can all be
found. -/
structure Kept (s : Ports) : Prop where
  index : (s.portList.map PortCb.index).Nodup
  saddr : (s.portList.map PortCb.addr).Nodup
  port : ∀ port ∈ s.portList, port.Kept
  addr : (s.stations.map LsCb.addr).Nodup
  name : (s.stations.map LsCb.useName).Nodup
  lsap : ∀ ls ∈ s.stations, ls.pluPort < 0x80

/-- Numbers that differ, and from 0 too -/
theorem length_lt_of_nodup {l : List UInt32} (h : (0 :: l).Nodup) : l.length + 1 ≤ 2 ^ 32 := by
  have hn : ((0 :: l).map UInt32.toNat).Nodup := h.map fun a b => UInt32.toNat_inj.mp
  have hs : (0 :: l).map UInt32.toNat ⊆ List.range (2 ^ 32) := by
    intro n hn
    obtain ⟨i, -, rfl⟩ := List.mem_map.mp hn
    exact List.mem_range.mpr i.toNat_lt
  have hle := (hn.subperm hs).length_le
  rwa [List.length_map, List.length_cons, List.length_range] at hle

theorem PortCb.Kept.length_lt (h : port.Kept) : port.lsList.length < 2 ^ 32 := by
  have hl := length_lt_of_nodup h.index
  rw [List.length_map] at hl
  omega

/-- `sna_cs_define_ls` counts the link station that it adds. -/
theorem PortCb.Kept.add (h : port.Kept) (hp : ls.portIndex = port.index)
    (hi : lsNewIndex port = some ls.index) : (port.add ls).Kept := by
  obtain ⟨hnot, hne⟩ := newIndex_spec hi
  have hn : (0 :: (port.lsList ++ [ls]).map LsCb.index).Nodup := by
    have h0 : ls.index ∉ 0 :: port.lsList.map LsCb.index := fun hm =>
      (List.mem_cons.mp hm).elim hne hnot
    rw [List.map_append, ← List.cons_append]
    exact List.nodup_append_comm.mpr (List.nodup_cons.mpr ⟨h0, h.index⟩)
  refine ⟨?_, hn, ?_⟩
  · intro l hl
    rcases List.mem_append.mp hl with hl | hl
    · exact h.portIndex l hl
    · rw [List.mem_singleton.mp hl]
      exact hp
  · have hlt := length_lt_of_nodup hn
    rw [List.length_map, List.length_append, List.length_singleton] at hlt
    show (port.lsQlen + 1).toNat = (port.lsList ++ [ls]).length
    rw [UInt32.toNat_add, h.counted, List.length_append, List.length_singleton, UInt32.toNat_one]
    apply Nat.mod_eq_of_lt
    omega

/-- `sna_cs_delete_ls` and `sna_cs_delete_ls_all` count what they take off. -/
theorem PortCb.Kept.erase (h : port.Kept) (hls : ls ∈ port.lsList) :
    (deleteLsGen ls port).uncount.Kept := by
  have hs : (port.lsList.erase ls).Sublist port.lsList := List.erase_sublist
  have hpos : 0 < port.lsList.length := List.length_pos_of_mem hls
  refine ⟨fun l hl => h.portIndex l (hs.subset hl), ?_, ?_⟩
  · exact h.index.sublist ((hs.map LsCb.index).cons_cons 0)
  · have hlt := h.length_lt
    have hone : (1 : UInt32) ≤ port.lsQlen := by
      rw [UInt32.le_iff_toNat_le, h.counted]
      exact hpos
    show (port.lsQlen - 1).toNat = (port.lsList.erase ls).length
    rw [UInt32.toNat_sub_of_le _ _ hone, h.counted, List.length_erase_of_mem hls]
    rfl

theorem deleteLsAll_index (port : PortCb) : (deleteLsAll port).index = port.index := by
  have hfold : ∀ (l : List LsCb) (p : PortCb),
      (l.foldl (fun port ls => (deleteLsGen ls port).uncount) p).index = p.index := by
    intro l
    induction l with
    | nil => exact fun _ => rfl
    | cons ls l ih => exact fun p => ih _
  exact hfold port.lsList port

theorem Ports.mem_stations : ls ∈ s.stations ↔ ∃ port ∈ s.portList, ls ∈ port.lsList :=
  List.mem_flatMap

theorem isSome_lsGetByName (s : Ports) (name : List UInt8) :
    (lsGetByName s name).isSome = true ↔ string name ∈ s.stations.map LsCb.useName := by
  rw [lsGetByName_eq, ← not_iff_not, Option.not_isSome_iff_eq_none, find_eq_none]

/-- No link station has an LSAP that is not found. -/
theorem Kept.isSome_lsGetByAddr (h : Kept s) (mac : Mac) (lsap : UInt8) :
    (lsGetByAddr s mac lsap).isSome = true ↔ (mac, lsap) ∈ s.stations.map LsCb.addr := by
  by_cases hl : lsap < 0x80
  · rw [lsGetByAddr_eq s mac hl, ← not_iff_not, Option.not_isSome_iff_eq_none, find_eq_none]
  · rw [lsGetByAddr_eq_none s mac hl]
    refine iff_of_false nofun fun hm => ?_
    obtain ⟨ls, hls, ha⟩ := List.mem_map.mp hm
    obtain ⟨-, hp⟩ := Prod.mk.inj ha
    apply hl
    rw [← hp]
    exact h.lsap ls hls

/-- Ports and link stations that are taken away -/
theorem Kept.of_sublist (h : Kept s)
    (hi : (s'.portList.map PortCb.index).Sublist (s.portList.map PortCb.index))
    (hs : (s'.portList.map PortCb.addr).Sublist (s.portList.map PortCb.addr))
    (hp : ∀ port ∈ s'.portList, port.Kept) (hst : s'.stations.Sublist s.stations) : Kept s' where
  index := h.index.sublist hi
  saddr := h.saddr.sublist hs
  port := hp
  addr := h.addr.sublist (hst.map _)
  name := h.name.sublist (hst.map _)
  lsap ls hls := h.lsap ls (hst.subset hls)

/-! ## Deleting -/

/-- The link station that `sna_cs_delete_ls` finds is on the list of the port whose counter it
decreases. -/
theorem deleteLs_eq (h : Kept s) {name : List UInt8} (hls : lsGetByName s name = some ls) :
    ∃ port, find PortCb.index ls.portIndex s.portList = some port ∧ ls ∈ port.lsList ∧
      (deleteLs s name).2.portList =
        update PortCb.index ls.portIndex (fun p => deleteLsGen ls p.uncount) s.portList := by
  have hmem : ls ∈ s.stations := by
    rw [lsGetByName_eq] at hls
    exact mem_of_find hls
  obtain ⟨port, hport, hin⟩ := Ports.mem_stations.mp hmem
  have hi := (h.port port hport).portIndex ls hin
  have hfind : find PortCb.index ls.portIndex s.portList = some port := by
    rw [hi]
    exact find_of_mem h.index hport
  refine ⟨port, hfind, hin, ?_⟩
  have hd : deleteLs s name = (0, { s with
      portList := (update PortCb.index port.index .uncount s.portList).map (deleteLsGen ls) }) := by
    rw [deleteLs, hls]
    have hget : portGetByIndex s ls.portIndex = some port := hfind
    simp only [hget]
  rw [hd, ← hi]
  apply map_update_comp hfind h.index
  intro p hp hne
  have hnot : ls ∉ p.lsList := fun hin => hne ((h.port p hp).portIndex ls hin).symm
  show { p with lsList := p.lsList.erase ls } = p
  rw [List.erase_of_not_mem hnot]

theorem Kept.deleteLs (h : Kept s) (name : List UInt8) : Kept (deleteLs s name).2 := by
  cases hls : lsGetByName s name with
  | none =>
    rw [Stations.deleteLs, hls]
    exact h
  | some ls =>
    obtain ⟨port, hfind, hin, hd⟩ := deleteLs_eq h hls
    apply h.of_sublist
    · rw [hd, map_update (f := fun p => deleteLsGen ls p.uncount) PortCb.index fun _ => rfl]
    · rw [hd, map_update (f := fun p => deleteLsGen ls p.uncount) PortCb.addr fun _ => rfl]
    · intro p hp
      rw [hd] at hp
      rcases mem_update hp with hp | ⟨q, hq, rfl⟩
      · exact h.port p hp
      · obtain rfl := Option.some.inj (hfind.symm.trans hq)
        exact (h.port port (mem_of_find hfind)).erase hin
    · rw [Ports.stations, hd]
      exact flatMap_update_sublist fun _ => List.erase_sublist

theorem Kept.deletePort (h : Kept s) (name : List UInt8) : Kept (deletePort s name).2 := by
  cases hp : portGetByName s name with
  | none =>
    rw [Stations.deletePort, hp]
    exact h
  | some port =>
    have hd : (Stations.deletePort s name).2.portList =
        s.portList.eraseP (·.index = port.index) := by
      rw [Stations.deletePort, hp]
      apply eraseP_update
      exact fun p hi => (deleteLsAll_index p).trans hi
    have hs : (Stations.deletePort s name).2.portList.Sublist s.portList := by
      rw [hd]
      exact List.eraseP_sublist
    exact h.of_sublist (hs.map _) (hs.map _) (fun p hp => h.port p (hs.subset hp)) (hs.flatMap _)

/-! ## Defining -/

theorem Kept.definePort (h : Kept s) {cfg : NofPort} {r : Int}
    (hd : definePort s cfg env = some (r, s')) : Kept s' := by
  rw [Stations.definePort] at hd
  split at hd
  · cases hd
    exact h
  split at hd
  · cases hd
    exact h
  rename_i hfree
  split at hd
  · cases hd
    exact h
  split at hd
  · cases hd
    exact h
  obtain ⟨index, hi, hs⟩ := Option.map_eq_some_iff.mp hd
  obtain ⟨-, rfl⟩ := Prod.mk.inj hs
  have hst : (Ports.mk (s.portList ++ [cfg.port env index]) index).stations = s.stations := by
    rw [Ports.stations, List.flatMap_append]
    exact List.append_nil _
  have hnew : cfg.saddr[0] ∉ s.portList.map PortCb.addr := by
    rw [Option.not_isSome_iff_eq_none] at hfree
    exact find_eq_none.mp hfree
  refine ⟨nodup_map_append h.index (newIndex_notMem hi), nodup_map_append h.saddr hnew, ?_, ?_, ?_, ?_⟩
  · intro p hp
    rcases List.mem_append.mp hp with hp | hp
    · exact h.port p hp
    · rw [List.mem_singleton.mp hp]
      exact ⟨fun ls hls => absurd hls List.not_mem_nil, List.nodup_singleton 0, rfl⟩
  · rw [hst]
    exact h.addr
  · rw [hst]
    exact h.name
  · rw [hst]
    exact h.lsap

/-- Nothing is in the way of a link station: there are the node, the data link control and the port, no
link station has its address or its name, and there is memory. -/
def Definable (s : Ports) (cfg : NofLs) (env : Env) : Prop :=
  (env.cs = true ∧ env.dlc = true) ∧
    getElem cfg.saddr 0 addr_in_bounds ∈ s.portList.map PortCb.addr ∧
    (cfg.mac, getElem cfg.daddr 0 addr_in_bounds) ∉ s.stations.map LsCb.addr ∧
    string cfg.useName ∉ s.stations.map LsCb.useName ∧ env.alloc = true

instance (s : Ports) (cfg : NofLs) (env : Env) : Decidable (Definable s cfg env) :=
  inferInstanceAs (Decidable (_ ∧ _))

/-- The ports with one more link station on one of them -/
def Ports.add (s : Ports) (port : PortCb) (ls : LsCb) : Ports :=
  { s with portList := update PortCb.index port.index (.add ls) s.portList }

/-- A link station that can be defined is, and no other. -/
theorem defineLs_cases (h : Kept s) {r : Int} (hd : defineLs s cfg env = some (r, s')) :
    (¬ Definable s cfg env ∧ s' = s) ∨
      (Definable s cfg env ∧ ∃ port ∈ s.portList, ∃ index, lsNewIndex port = some index ∧
        s' = s.add port (cfg.ls port env index)) := by
  rw [defineLs] at hd
  split at hd
  · rename_i hc
    cases hd
    refine .inl ⟨fun hD => ?_, rfl⟩
    rw [hD.1.1, hD.1.2] at hc
    cases hc
  rename_i hc
  split at hd
  · rename_i hport
    cases hd
    exact .inl ⟨fun hD => find_eq_none.mp hport hD.2.1, rfl⟩
  rename_i port hport
  split at hd
  · rename_i ha
    cases hd
    exact .inl ⟨fun hD => hD.2.2.1 ((h.isSome_lsGetByAddr _ _).mp ha), rfl⟩
  rename_i ha
  split at hd
  · rename_i hn
    cases hd
    exact .inl ⟨fun hD => hD.2.2.2.1 ((isSome_lsGetByName s _).mp hn), rfl⟩
  rename_i hn
  split at hd
  · rename_i hm
    cases hd
    refine .inl ⟨fun hD => ?_, rfl⟩
    rw [hD.2.2.2.2] at hm
    cases hm
  rename_i hm
  obtain ⟨index, hi, hs⟩ := Option.map_eq_some_iff.mp hd
  obtain ⟨-, rfl⟩ := Prod.mk.inj hs
  have hfind : find PortCb.addr cfg.saddr[0] s.portList = some port := hport
  refine .inr ⟨⟨by simpa using hc, ?_, mt (h.isSome_lsGetByAddr _ _).mpr ha,
    mt (isSome_lsGetByName s _).mpr hn, by simpa using hm⟩, port, mem_of_find hfind, index, hi, rfl⟩
  rw [← key_of_find hfind]
  exact List.mem_map_of_mem (mem_of_find hfind)

/-- All link stations and the one added, in some order -/
theorem Ports.stations_add (h : Kept s) (hp : port ∈ s.portList) (ls : LsCb) :
    (s.add port ls).stations.Perm (ls :: s.stations) := by
  apply flatMap_update_perm (find_of_mem h.index hp)
  show (port.lsList ++ [ls]).Perm (ls :: port.lsList)
  exact List.perm_append_comm

theorem Kept.add (h : Kept s) (hp : port ∈ s.portList) (hi : lsNewIndex port = some ls.index)
    (hpi : ls.portIndex = port.index) (hl : ls.pluPort < 0x80)
    (ha : ls.addr ∉ s.stations.map LsCb.addr) (hn : ls.useName ∉ s.stations.map LsCb.useName) :
    Kept (s.add port ls) := by
  have hst := Ports.stations_add h hp ls
  refine ⟨?_, ?_, ?_, ?_, ?_, ?_⟩
  · rw [Ports.add, map_update (f := .add ls) PortCb.index fun _ => rfl]
    exact h.index
  · rw [Ports.add, map_update (f := .add ls) PortCb.addr fun _ => rfl]
    exact h.saddr
  · intro p hp'
    rcases mem_update hp' with hp' | ⟨q, hq, rfl⟩
    · exact h.port p hp'
    · obtain rfl := Option.some.inj ((find_of_mem h.index hp).symm.trans hq)
      exact (h.port port hp).add hpi hi
  · apply ((hst.map _).nodup_iff).mpr
    exact List.nodup_cons.mpr ⟨ha, h.addr⟩
  · apply ((hst.map _).nodup_iff).mpr
    exact List.nodup_cons.mpr ⟨hn, h.name⟩
  · intro l hmem
    rcases List.mem_cons.mp (hst.mem_iff.mp hmem) with rfl | hmem
    · exact hl
    · exact h.lsap l hmem

/-! ## Unique link stations -/

/-- Link stations have addresses and names of their own, and so have ports their address bytes. Every
link station is found by its address, and the counters of the ports are right. -/
structure Unique (s : Ports) : Prop where
  addr : (s.stations.map LsCb.addr).Nodup
  name : (s.stations.map LsCb.useName).Nodup
  saddr : (s.portList.map PortCb.addr).Nodup
  found : ∀ ls ∈ s.stations, lsGetByAddr s ls.pluMacAddr ls.pluPort = some ls
  counted : ∀ port ∈ s.portList, port.lsQlen.toNat = port.lsList.length

theorem Kept.unique (h : Kept s) : Unique s where
  addr := h.addr
  name := h.name
  saddr := h.saddr
  found ls hls := by
    rw [lsGetByAddr_eq s _ (h.lsap ls hls)]
    exact find_of_mem h.addr hls
  counted port hp := (h.port port hp).counted

/-- A link station that can be defined has an LSAP below 0x80, and if its name does not fit, what
becomes of it is not the name of another. -/
def Good (s : Ports) : Call → Prop
  | .defineLs cfg env => Definable s cfg env → getElem cfg.daddr 0 addr_in_bounds < 0x80 ∧
      (Fits cfg.useName ∨ copied cfg.useName env.behind ∉ s.stations.map LsCb.useName)
  | .definePort _ _ | .deleteLs _ | .deletePort _ => True

instance (s : Ports) : DecidablePred (Good s)
  | .defineLs cfg env => inferInstanceAs (Decidable (Definable s cfg env → _))
  | .definePort _ _ | .deleteLs _ | .deletePort _ => inferInstanceAs (Decidable True)

theorem Kept.call (h : Kept s) {c : Call} (hG : Good s c) (hs : step s c = some s') : Kept s' := by
  cases c with
  | definePort cfg env =>
    obtain ⟨⟨r, t⟩, hd, rfl⟩ := Option.map_eq_some_iff.mp hs
    exact h.definePort hd
  | defineLs cfg env =>
    obtain ⟨⟨r, t⟩, hd, rfl⟩ := Option.map_eq_some_iff.mp hs
    obtain ⟨-, ht⟩ | ⟨hD, port, hp, index, hi, ht⟩ := defineLs_cases h hd
    · rw [show t = s from ht]
      exact h
    · obtain ⟨hl, hname⟩ := hG hD
      have hn : copied cfg.useName env.behind ∉ s.stations.map LsCb.useName := by
        rcases hname with hf | hn
        · rw [copied_of_fits hf]
          exact hD.2.2.2.1
        · exact hn
      rw [show t = s.add port (cfg.ls port env index) from ht]
      exact h.add hp hi rfl hl hD.2.2.1 hn
  | deleteLs name =>
    obtain rfl := Option.some.inj hs
    exact h.deleteLs name
  | deletePort name =>
    obtain rfl := Option.some.inj hs
    exact h.deletePort name

/-- Another link station that is defined is not found, or has the name of one that there was. -/
theorem Kept.not_unique (h : Kept s) {c : Call} (hG : ¬ Good s c) (hs : step s c = some s') :
    ¬ Unique s' := by
  cases c with
  | definePort _ _ | deleteLs _ | deletePort _ => exact absurd trivial hG
  | defineLs cfg env =>
    obtain ⟨hD, hbad⟩ := Classical.not_imp.mp hG
    obtain ⟨⟨r, t⟩, hd, rfl⟩ := Option.map_eq_some_iff.mp hs
    obtain ⟨hn, -⟩ | ⟨-, port, hp, index, hi, ht⟩ := defineLs_cases h hd
    · exact absurd hD hn
    rw [show t = s.add port (cfg.ls port env index) from ht]
    have hst := Ports.stations_add h hp (cfg.ls port env index)
    intro hu
    by_cases hl : cfg.daddr[0] < 0x80
    · have hname := ((hst.map LsCb.useName).nodup_iff).mp hu.name
      exact hbad ⟨hl, .inr (List.nodup_cons.mp hname).1⟩
    · have hfound := hu.found _ (hst.mem_iff.mpr List.mem_cons_self)
      have hnone := lsGetByAddr_eq_none (s.add port (cfg.ls port env index)) cfg.mac hl
      cases hnone.symm.trans hfound

/-- The ports when the module is loaded -/
def Ports.empty : Ports := ⟨[], 0⟩

theorem kept_empty : Kept Ports.empty :=
  ⟨List.nodup_nil, List.nodup_nil, nofun, List.nodup_nil, List.nodup_nil, nofun⟩

/-- Link stations are unique at all times exactly if those that are defined have LSAPs below 0x80, and
names that fit or become no other's. -/
theorem unique_iff {calls : List Call} (h : run step .empty calls = some s) :
    Always step Unique .empty calls ↔ Along step Good .empty calls :=
  always_iff_of_run (fun _ => Kept.unique) (fun _ _ _ hk => hk.call)
    (fun _ _ _ hk => hk.not_unique) kept_empty h

/-- A call that finds what it needs -/
def Env.ok : Env := ⟨true, true, true, []⟩

/-- The port 4 -/
def port4 : NofPort := ⟨[0x70], .replicate 12 4⟩

/-- A link station on the port 4, always with the same partner MAC -/
def lsOn4 (name : List UInt8) (lsap : UInt8) : NofLs :=
  ⟨name, .replicate 12 4, .replicate 7 2, .replicate 12 lsap⟩

theorem unique_of_two_lsaps : ∃ s, run step .empty [.definePort port4 .ok,
      .defineLs (lsOn4 [0x61] 0x04) .ok, .defineLs (lsOn4 [0x62] 0x08) .ok] = some s ∧
    (Always step Unique .empty [.definePort port4 .ok, .defineLs (lsOn4 [0x61] 0x04) .ok,
        .defineLs (lsOn4 [0x62] 0x08) .ok] ↔
      Along step Good .empty [.definePort port4 .ok, .defineLs (lsOn4 [0x61] 0x04) .ok,
        .defineLs (lsOn4 [0x62] 0x08) .ok]) :=
  ⟨_, rfl, unique_iff rfl⟩

/-- Two link stations with the same address, which is not found -/
theorem lsap_84_twice : ∃ s, run step .empty [.definePort port4 .ok,
      .defineLs (lsOn4 [0x61] 0x84) .ok, .defineLs (lsOn4 [0x62] 0x84) .ok] = some s ∧
    s.stations.map LsCb.addr = [(.replicate 6 2, 0x84), (.replicate 6 2, 0x84)] ∧
    lsGetByAddr s (.replicate 6 2) 0x84 = none ∧ ¬ Unique s := by
  refine ⟨_, rfl, by decide, by decide, fun hu => ?_⟩
  exact absurd hu.addr (by decide)

end LinuxSna.Stations
