import LinuxSna.Framework.Run
import LinuxSna.Impl.Sna.Cs.Parameters

/-!
# Short XIDs

The last field of an XID that is read is `max_iframes`, its 28th byte. What is read of an XID that has
so many bytes does not depend on the memory behind them (`saved_eq`, `savedSizes_eq`), so nothing that
follows does; the window that is read from any shorter one does.
-/

namespace LinuxSna.Cs

open Framework

/-! ## Fields within the XID -/

theorem skbData_eq {bytes : List UInt8} {i : Nat} (h : i < bytes.length) (behind behind' : Nat → UInt8) :
    skbData bytes behind i = skbData bytes behind' i := by
  simp [skbData, h]

theorem skbData_behind {bytes : List UInt8} {i : Nat} (h : bytes.length ≤ i) (behind : Nat → UInt8) :
    skbData bytes behind i = behind i := by
  simp [skbData, h]

section

variable {bytes : List UInt8} (h : 28 ≤ bytes.length) (b b' : Behind)
include h

theorem xid3At_eq (behind behind' : Nat → UInt8) :
    xid3At (skbData bytes behind) = xid3At (skbData bytes behind') := by
  have hm : ∀ i < 28, skbData bytes behind i = skbData bytes behind' i :=
    fun i hi => skbData_eq (Nat.lt_of_lt_of_le hi h) behind behind'
  unfold xid3At
  rw [hm 2, hm 3, hm 4, hm 5, hm 8, hm 9, hm 10, hm 15, hm 16, hm 19]
  all_goals decide

theorem arrived_eq : arrived bytes b = arrived bytes b' := by
  unfold arrived
  rw [xid3At_eq h b.skb b'.skb]

theorem saved_eq : saved bytes b = saved bytes b' := by
  unfold saved
  rw [xid3At_eq h b.copy b'.copy]

theorem savedSizes_eq : savedSizes bytes b = savedSizes bytes b' := by
  have hm : ∀ i < 28, skbData bytes b.copy i = skbData bytes b'.copy i :=
    fun i hi => skbData_eq (Nat.lt_of_lt_of_le hi h) b.copy b'.copy
  unfold savedSizes sizesAt
  rw [hm 21 (by decide), hm 22 (by decide), hm 27 (by decide)]

end

/-! ## What an XID decides -/

/-- A link station but for the XID that it keeps -/
def Ls.rest (ls : Ls) : Ls := { ls with xidLastRx := none }

/-- What follows from an XID does not depend on the memory behind it: the input that it is, the
station after it and after whatever comes then (its role and its TG among the rest), the surprise SNRM,
and the parameters of the link. -/
structure SameDecisions (bytes : List UInt8) (b b' : Behind) : Prop where
  input : xidPktInput (arrived bytes b) = xidPktInput (arrived bytes b')
  station (env : Env) (response : Bool) (ls : Ls) (es : List (Env × Event)) :
    (run handle (indXid env response bytes b ls) es).map Ls.rest =
      (run handle (indXid env response bytes b' ls) es).map Ls.rest
  suprise (effectiveRole : Role) :
    supriseAllowed (saved bytes b).xid effectiveRole = supriseAllowed (saved bytes b').xid effectiveRole
  parameters (localX : Link.XidSizes) (suprise : Bool) :
    Link.xidResults localX (savedSizes bytes b) suprise = Link.xidResults localX (savedSizes bytes b') suprise

/-- Only the bytes of an XID decide anything, and one that is shorter than its fields is no XID3. -/
def Contained (bytes : List UInt8) : Prop :=
  (∀ b b', SameDecisions bytes b b') ∧
    (bytes.length < 28 → ∀ b, xidPktInput (arrived bytes b) ∉ [some .pn, some .neg, some .pri, some .sec])

theorem sameDecisions {bytes : List UInt8} (h : 28 ≤ bytes.length) (b b' : Behind) :
    SameDecisions bytes b b' := by
  refine ⟨?_, fun env response ls es => ?_, fun effectiveRole => ?_, fun localX suprise => ?_⟩
  · rw [arrived_eq h b b']
  · unfold indXid
    rw [arrived_eq h b b', saved_eq h b b']
  · rw [saved_eq h b b']
  · rw [savedSizes_eq h b b']

/-- The window is read behind a shorter XID. -/
theorem txWindow_short {bytes : List UInt8} (h : bytes.length < 28) (b : Behind) (localX : Link.XidSizes) :
    (Link.xidResults localX (savedSizes bytes b) false).txWindow = (b.copy 27).toUInt16 := by
  show (skbData bytes b.copy 27).toUInt16 = _
  rw [skbData_behind (Nat.le_of_lt_succ h)]

/-- An XID decides by its bytes alone exactly if all fields that are read are in it. -/
theorem contained_iff (bytes : List UInt8) : Contained bytes ↔ 28 ≤ bytes.length := by
  constructor
  · rintro ⟨hsame, -⟩
    by_contra hlen
    have hshort : bytes.length < 28 := Nat.lt_of_not_le hlen
    have hp := (hsame ⟨fun _ => 0, fun _ => 0⟩ ⟨fun _ => 0, fun _ => 1⟩).parameters ⟨0, 0⟩ false
    have hw := congrArg Link.Parameters.txWindow hp
    rw [txWindow_short hshort, txWindow_short hshort] at hw
    exact absurd hw (by decide)
  · intro h
    exact ⟨sameDecisions h, fun hlt => absurd h (Nat.not_le_of_lt hlt)⟩

/-- An XID of one byte is a PN or a NEG XID by what is behind it. -/
theorem short_xid_decides :
    xidPktInput (arrived [0x32] ⟨fun _ => 0x08, fun _ => 0⟩) = some .pn ∧
      xidPktInput (arrived [0x32] ⟨fun i => if i = 9 then 0x04 else 0x30, fun _ => 0⟩) = some .neg ∧
      ¬ Contained [0x32] := by
  have hpn : xidPktInput (arrived [0x32] ⟨fun _ => 0x08, fun _ => 0⟩) = some .pn := by decide
  refine ⟨hpn, by decide, fun h => ?_⟩
  refine h.2 (by decide) ⟨fun _ => 0x08, fun _ => 0⟩ ?_
  rw [hpn]
  exact List.mem_cons_self

end LinuxSna.Cs
