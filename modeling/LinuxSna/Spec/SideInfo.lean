import LinuxSna.Framework.Run
import LinuxSna.Impl.Sna.Cpic.SideInfo

/-!
# The side information table as it is meant

Names are the same if they are the same with blanks behind them. What a call should do is said of
the name and of the table before it; `Clear` says of a call that no shorter name is in its way.
-/

namespace LinuxSna.Cpic

open Framework

/-- A call with a name of 1 to 8 characters -/
structure Naming where
  side : NofCpic
  plain : 0 ∉ side.symDestName
  pos : 1 ≤ side.symDestName.length
  le : side.symDestName.length ≤ 8

/-- The name with blanks behind it -/
def padName (name : List UInt8) : List UInt8 := name ++ List.replicate (8 - name.length) 0x20

def Naming.name (d : Naming) : List UInt8 := padName d.side.symDestName

/-- The name under which an entry is in the table -/
def SideEntry.name (e : SideEntry) : List UInt8 := e.symDestName.take 8

def SideTable.Present (t : SideTable) (name : List UInt8) : Prop := ∃ e ∈ t.sideList, e.name = name

instance (t : SideTable) (name : List UInt8) : Decidable (t.Present name) :=
  inferInstanceAs (Decidable (∃ e ∈ t.sideList, e.name = name))

inductive SideCall where
  | register (d : Naming) (alloc : Bool)
  | unregister (d : Naming)

def SideTable.step (t : SideTable) : SideCall → Option SideTable
  | .register d alloc => (registerSideInfo t d.side alloc).map (·.2)
  | .unregister d => some (unregisterSideInfo t d.side).2

def SideTable.empty : SideTable := ⟨[], 0⟩

/-- A name that is in the table is not registered again, and it alone is taken out. -/
def SideTable.Right (t : SideTable) : SideCall → Prop
  | .register d alloc => t.Present d.name → registerSideInfo t d.side alloc = some (-eexist, t)
  | .unregister d => t.Present d.name → ∃ before e after, t.sideList = before ++ e :: after ∧
      e.name = d.name ∧
      unregisterSideInfo t d.side = (0, { t with sideList := before ++ after })

/-- There is one entry at most for a name, and Initialize_Conversation finds it. -/
structure SideTable.Sane (t : SideTable) : Prop where
  nodup : (t.sideList.map SideEntry.name).Nodup
  found : ∀ e ∈ t.sideList, ∀ w a, w.sideList = t.view → utok a.symDestName cmSdnSize = some e.name →
    cminitCall w a = cminitNamed w a (some e.sideInfo)

def blankName : List UInt8 := List.replicate 8 0x20

/-- The name has 8 characters, or it is not in the table; and a name of blanks, which stands for no
name, is not put into it. -/
def SideTable.Clear (t : SideTable) : SideCall → Prop
  | .register d alloc =>
    (d.side.symDestName.length = 8 ∨ ¬ t.Present d.name) ∧ (alloc = true → d.name ≠ blankName)
  | .unregister d => d.side.symDestName.length = 8 ∨ ¬ t.Present d.name

end LinuxSna.Cpic
