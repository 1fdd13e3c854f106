import Mathlib

/-!
# Address spaces and their LFSIDs

The address space manager's tables: the address spaces, one for each path
control instance, and in each the LFSIDs, in blocks of 256. The list of blocks
is the list of their slots in order, and a pointer to an LFSID is the number of
its slot. `kmalloc` may fail; whether it does is an argument.
-/

namespace LinuxSna.Asm

/-- `struct sna_lfsid`. The index of the session is kept in 16 bits. -/
structure Lfsid where
  active : Bool
  smIndex : UInt16
  odai : UInt8
  sidh : UInt8
  sidl : UInt8
  deriving DecidableEq

/-- An LFSID of a new block, and one after `memset`. -/
def Lfsid.zero : Lfsid := ⟨false, 0, 0, 0, 0⟩

/-- `struct sna_asm_cb`, what the assignment of LFSIDs uses of it -/
structure AsmCb where
  index : UInt32
  odai : UInt8
  blkCount : UInt8
  blkList : List Lfsid
  deriving DecidableEq

/-- `0x01` -/
def sidhStart : UInt8 := 0x01

/-- `0x00` -/
def sidlStart : UInt8 := 0x00

/-- The pass of `sna_asm_set_sidhl` that locates a unique `sidh`. -/
def sidhPass : UInt8 → List Lfsid → Option UInt8
  | sidh, [] => some sidh
  | sidh, l :: ls =>
    if l.sidh = sidh then if sidh + 1 > 0xFE then none else sidhPass (sidh + 1) ls
    else sidhPass sidh ls

/-- The pass of `sna_asm_set_sidhl` that locates a unique `sidl`. The
candidate has 8 bits. -/
def sidlPass : UInt8 → List Lfsid → Option UInt8
  | sidl, [] => some sidl
  | sidl, l :: ls =>
    if l.sidl = sidl then if sidl + 1 > 0xFF then none else sidlPass (sidl + 1) ls
    else sidlPass sidl ls

namespace AsmCb

/-- The LFSID at a slot. -/
def lfsid (a : AsmCb) (k : Nat) : Lfsid := a.blkList.getD k Lfsid.zero

/-- `sna_asm_set_sidhl`, on the LFSID at a slot; `none` is `-EUSERS`. -/
def setSidhl (a : AsmCb) (k : Nat) : Option AsmCb :=
  match sidhPass sidhStart a.blkList with
  | none => none
  | some sidh =>
    match sidlPass sidlStart a.blkList with
    | none => none
    | some sidl =>
      some { a with blkList := a.blkList.set k { a.lfsid k with sidh := sidh, sidl := sidl } }

/-- The search of `sna_asm_assign_lfsid` for an LFSID that is not in use, and
what it does with the first; `none` if all are in use. -/
def assignFree (a : AsmCb) (smIndex : UInt32) : Option (Option Nat × AsmCb) :=
  match a.blkList.findIdx? (!·.active) with
  | none => none
  | some k =>
    let lf := { a.lfsid k with active := true, smIndex := smIndex.toUInt16, odai := a.odai }
    let a := { a with blkList := a.blkList.set k lf }
    match a.setSidhl k with
    | none => some (none, a)
    | some a => some (some k, a)

/-- One more block of 256 LFSIDs. -/
def addBlock (a : AsmCb) : AsmCb :=
  { a with blkCount := a.blkCount + 1, blkList := a.blkList ++ List.replicate 256 Lfsid.zero }

/-- `sna_asm_assign_lfsid` on the address space found. A search that follows
a new block finds an LFSID in it. -/
def assignLfsid (a : AsmCb) (smIndex : UInt32) (alloc : Bool) : Option Nat × AsmCb :=
  match a.assignFree smIndex with
  | some r => r
  | none => if alloc then (a.addBlock.assignFree smIndex).getD (none, a.addBlock) else (none, a)

/-- The comparison by which `sna_asm_free_lfsid` locates the LFSID. -/
def matchesLfsid (l : Lfsid) (smIndex : UInt32) (lf : Lfsid) : Bool :=
  l.active && l.smIndex.toUInt32 = smIndex && l.odai = lf.odai && l.sidh = lf.sidh &&
    l.sidl = lf.sidl

def enoent : Int := 2
def eexist : Int := 17

/-- `sna_asm_free_lfsid` on the address space found -/
def freeLfsid (a : AsmCb) (smIndex : UInt32) (lf : Lfsid) : Int × AsmCb :=
  match a.blkList.findIdx? (matchesLfsid · smIndex lf) with
  | none => (-enoent, a)
  | some k => (0, { a with blkList := a.blkList.set k Lfsid.zero })

end AsmCb

open AsmCb (enoent eexist)

/-- `sna_asm_get_by_index` -/
def getByIndex (asmList : List AsmCb) (index : UInt32) : Option AsmCb :=
  asmList.find? (·.index = index)

/-- An operation on the address space that `sna_asm_get_by_index` finds. -/
def onSpace {α : Type} (f : AsmCb → α × AsmCb) (index : UInt32) :
    List AsmCb → Option (α × List AsmCb)
  | [] => none
  | a :: as =>
    if a.index = index then some ((f a).1, (f a).2 :: as)
    else (onSpace f index as).map fun r => (r.1, a :: r.2)

/-- `sna_asm_assign_lfsid` -/
def assignLfsid (asmList : List AsmCb) (pcIndex smIndex : UInt32) (alloc : Bool) :
    Option Nat × List AsmCb :=
  (onSpace (·.assignLfsid smIndex alloc) pcIndex asmList).getD (none, asmList)

/-- `sna_asm_free_lfsid` -/
def freeLfsid (asmList : List AsmCb) (pcIndex smIndex : UInt32) (lf : Lfsid) : Int × List AsmCb :=
  (onSpace (·.freeLfsid smIndex lf) pcIndex asmList).getD (-enoent, asmList)

/-- `sna_asm_activate_as` -/
def activateAs (asmList : List AsmCb) (as : AsmCb) : Int × List AsmCb :=
  match getByIndex asmList as.index with
  | some _ => (-eexist, asmList)
  | none => (0, asmList ++ [{ as with blkList := [] }])

/-- `sna_asm_deactivate_as` -/
def deactivateAs (asmList : List AsmCb) (index : UInt32) : Int × List AsmCb :=
  match getByIndex asmList index with
  | some _ => (0, asmList.eraseP (·.index = index))
  | none => (-enoent, asmList)

/-- `sna_asm_get_by_lfsid`. It compares the `sidh` and the `sidl` of each LFSID
with themselves. -/
def getByLfsid (asmList : List AsmCb) (lfsid : Lfsid) : Option AsmCb :=
  asmList.find? fun a =>
    a.blkList.any fun l => l.odai = lfsid.odai && l.sidh = l.sidh && l.sidl = l.sidl

/-- `sna_asm_lfsid_get_by_sidhl`; the LFSID is its address space and its slot. -/
def lfsidGetBySidhl (asmList : List AsmCb) (odai sidh sidl : UInt8) : Option (AsmCb × Nat) :=
  match asmList with
  | [] => none
  | a :: as =>
    match a.blkList.findIdx? fun l => l.odai = odai && l.sidh = sidh && l.sidl = sidl with
    | some k => some (a, k)
    | none => lfsidGetBySidhl as odai sidh sidl

/-- `sna_pc_rx_mu_map_lfsid`, on the fields of the TH -/
def rxMuMapLfsid (asmList : List AsmCb) (odai daf oaf : UInt8) : Option (AsmCb × Nat) :=
  lfsidGetBySidhl asmList odai daf oaf

end LinuxSna.Asm
