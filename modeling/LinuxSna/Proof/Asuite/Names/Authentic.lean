import LinuxSna.Framework.Run
import LinuxSna.Proof.Asuite.Names.Served

/-!
# Authentic registrations

A record is registered under the name of the partner if the last of the names that are given for its
LU is that, and not only the string that the server looks at; and nothing is looked at where a record
is deleted.

* `step_right_iff`: one request;
* `authentic_iff`: runs of requests, of any partners.
-/

namespace LinuxSna.Asuite.Names

open Framework Ftp

/-- A request that keeps records authentic: it has parameters; if it registers what was not stored, or
deletes what is, then the last name that it gives for the LU is that of its partner. -/
def Honest (r : Registry) (q : Request) : Prop :=
  q.parameters ≠ [] ∧
    match q.kind with
    | .register => Accepts r.server q → r.server.db (image q.parameters).bytes = none →
        naming q.parameters .fqluname = some q.origin
    | .delete => r.server.db (image q.parameters).bytes ≠ none →
        naming q.parameters .fqluname = some q.origin
    | .query => True

/-- Every record is stored under itself. -/
def Stored (db : List UInt8 → Option (List UInt8)) : Prop :=
  ∀ key value, db key = some value → value = key

variable {r r' : Registry} {q : Request}

theorem Registry.step_eq (h : r.step q = some r') :
    ∃ sent, serve .little r.server q.conversation = some (r'.server, sent) ∧
      r'.owner = fun key =>
        if r'.server.db key = none then none
        else if r.server.db key = none then some q.origin.bytes
        else r.owner key := by
  obtain ⟨⟨server, sent⟩, hserve, heq⟩ := Option.bind_eq_some_iff.mp h
  obtain rfl := Option.some.inj heq
  exact ⟨sent, hserve, rfl⟩

theorem stored_step (hstored : Stored r.server.db) (hne : q.parameters ≠ [])
    (h : r.step q = some r') : Stored r'.server.db := by
  obtain ⟨sent, hserve, _⟩ := Registry.step_eq h
  rw [serve_db hne hserve]
  intro key value
  cases q.kind with
  | register =>
    simp only
    split_ifs
    · by_cases hkey : key = (image q.parameters).bytes
      · subst hkey
        rw [Function.update_self]
        exact fun heq => (Option.some.inj heq).symm
      · rw [Function.update_of_ne hkey]
        exact hstored key value
    · exact hstored key value
  | delete =>
    by_cases hkey : key = (image q.parameters).bytes
    · subst hkey
      simp only [Function.update_self]
      exact fun heq => absurd heq (by simp)
    · simp only [Function.update_of_ne hkey]
      exact hstored key value
  | query => exact hstored key value

/-- What a request brings in, and what it takes out, are its partner's own. -/
def Own (r : Registry) (q : Request) (db : List UInt8 → Option (List UInt8)) : Prop :=
  (∀ key value, r.server.db key = none → db key = some value → Carries value q.origin.bytes) ∧
    ∀ key value, r.server.db key = some value → db key = none → Carries value q.origin.bytes

/-- Records stay authentic if what is brought in is its partner's own. -/
theorem right_iff_own (hauth : Authentic r) (hstored : Stored r.server.db)
    (hne : q.parameters ≠ []) :
    Right r q ↔ ∀ r', r.step q = some r' → Own r q r'.server.db := by
  apply forall₂_congr
  intro r' h
  obtain ⟨sent, hserve, howner⟩ := Registry.step_eq h
  apply and_congr_left'
  constructor
  · intro hauth' key value hnone hsome
    obtain ⟨origin, horigin, hcarries⟩ := hauth' key value hsome
    simp only [howner, hsome, hnone, reduceCtorEq, if_false, if_true, Option.some.injEq] at horigin
    rw [horigin]
    exact hcarries
  · intro hbrought key value hsome
    simp only [howner, hsome, reduceCtorEq, if_false]
    cases hold : r.server.db key with
    | none => exact ⟨_, if_pos rfl, hbrought key value hold hsome⟩
    | some old =>
      have hvalue := stored_step hstored hne h key value hsome
      rw [hstored key old hold] at hold
      rw [hvalue]
      obtain ⟨origin, horigin, hcarries⟩ := hauth key key hold
      exact ⟨origin, (if_neg (by simp)).trans horigin, hcarries⟩

theorem own_same (r : Registry) (q : Request) : Own r q r.server.db := by
  refine ⟨fun key value hnone hsome => ?_, fun key value hsome hnone => ?_⟩
  · rw [hnone] at hsome
    exact absurd hsome (by simp)
  · rw [hnone] at hsome
    exact absurd hsome (by simp)

theorem own_store (r : Registry) (q : Request) (k : List UInt8) :
    Own r q (Function.update r.server.db k (some k)) ↔
      (r.server.db k = none → Carries k q.origin.bytes) := by
  constructor
  · intro h hnone
    exact h.1 k k hnone (Function.update_self ..)
  · intro h
    refine ⟨fun key value hnone hsome => ?_, fun key value hsome hnone => ?_⟩
    · by_cases hkey : key = k
      · subst hkey
        rw [Function.update_self] at hsome
        rw [← Option.some.inj hsome]
        exact h hnone
      · rw [Function.update_of_ne hkey] at hsome
        exact (own_same r q).1 key value hnone hsome
    · by_cases hkey : key = k
      · subst hkey
        rw [Function.update_self] at hnone
        exact absurd hnone (by simp)
      · rw [Function.update_of_ne hkey] at hnone
        exact (own_same r q).2 key value hsome hnone

theorem own_remove (r : Registry) (q : Request) (k : List UInt8) :
    Own r q (Function.update r.server.db k none) ↔
      ∀ value, r.server.db k = some value → Carries value q.origin.bytes := by
  constructor
  · intro h value hsome
    exact h.2 k value hsome (Function.update_self ..)
  · intro h
    refine ⟨fun key value hnone hsome => ?_, fun key value hsome hnone => ?_⟩
    · by_cases hkey : key = k
      · subst hkey
        rw [Function.update_self] at hsome
        exact absurd hsome (by simp)
      · rw [Function.update_of_ne hkey] at hsome
        exact (own_same r q).1 key value hnone hsome
    · by_cases hkey : key = k
      · subst hkey
        exact h value hsome
      · rw [Function.update_of_ne hkey] at hnone
        exact (own_same r q).2 key value hsome hnone

/-- A request that is served leads to one state. -/
theorem forall_step_iff {served : Served} (h : serve .little r.server q.conversation = some served)
    (P : (List UInt8 → Option (List UInt8)) → Prop) :
    (∀ r', r.step q = some r' → P r'.server.db) ↔ P served.1.db := by
  constructor
  · intro hall
    have hstep := congrArg (fun o => o.bind fun served => some (Registry.mk served.1 fun key =>
      if served.1.db key = none then none
      else if r.server.db key = none then some q.origin.bytes
      else r.owner key)) h
    exact hall _ hstep
  · intro hP r' hstep
    obtain ⟨sent, hserve, _⟩ := Registry.step_eq hstep
    rw [h] at hserve
    rw [Option.some.inj hserve] at hP
    exact hP

/-- One request keeps the records authentic exactly if it is honest. -/
theorem step_right_iff (hauth : Authentic r) (hstored : Stored r.server.db)
    (hne : q.parameters ≠ []) : Right r q ↔ Honest r q := by
  rw [right_iff_own hauth hstored hne, Honest, and_iff_right hne]
  cases hkind : q.kind with
  | register =>
    simp only
    by_cases haccepts : Accepts r.server q
    · obtain ⟨record, hserve⟩ := serve_accepted hne hkind haccepts
      rw [forall_step_iff hserve (Own r q), own_store, carries_iff]
      exact ⟨fun h _ => h, fun h => h haccepts⟩
    · obtain ⟨record, rc, calls, _, hserve⟩ := serve_refused hne hkind haccepts
      rw [forall_step_iff hserve (Own r q)]
      exact iff_of_true (own_same r q) fun h => absurd h haccepts
  | delete =>
    simp only
    cases hdb : r.server.db (image q.parameters).bytes with
    | some value =>
      obtain ⟨record, hserve⟩ := serve_deleted hne hkind hdb
      have hvalue := hstored _ _ hdb
      subst hvalue
      rw [forall_step_iff hserve (Own r q), own_remove, ← carries_iff]
      constructor
      · exact fun h _ => h _ hdb
      · intro h value' hvalue'
        rw [hstored _ _ hvalue']
        exact h (by simp)
    | none =>
      obtain ⟨record, hserve⟩ := serve_absent hne (Or.inl hkind) hdb
      rw [forall_step_iff hserve (Own r q)]
      exact iff_of_true (own_same r q) fun h => absurd rfl h
  | query =>
    refine iff_of_true (fun r' hstep => ?_) trivial
    obtain ⟨sent, hserve, _⟩ := Registry.step_eq hstep
    have hdb := serve_db hne hserve
    simp only [hkind] at hdb
    rw [hdb]
    exact own_same r q

theorem authentic_begin (record : Record) :
    Authentic (.begin record) ∧ Stored (Registry.begin record).server.db :=
  ⟨fun _ _ h => absurd h (show ¬ none = some _ by simp),
    fun _ _ h => absurd h (show ¬ none = some _ by simp)⟩

/-- In runs of honest requests every record carries the name of the partner that has registered it,
and is removed by that partner alone; of requests that have parameters only these do so. -/
theorem authentic_iff (record : Record) (qs : List Request) :
    (Along Registry.step Honest (.begin record) qs → Along Registry.step Right (.begin record) qs) ∧
      (Along Registry.step (fun _ q => q.parameters ≠ []) (.begin record) qs →
        Along Registry.step Right (.begin record) qs →
          Along Registry.step Honest (.begin record) qs) := by
  have hiff : Along Registry.step (fun r q => q.parameters ≠ [] ∧ Right r q) (.begin record) qs ↔
      Along Registry.step Honest (.begin record) qs := by
    apply along_iff (I := fun r => Authentic r ∧ Stored r.server.db)
    · rintro r q r' ⟨hauth, hstored⟩ hhonest hstep
      have hright := (step_right_iff hauth hstored hhonest.1).mpr hhonest
      exact ⟨(hright r' hstep).1, stored_step hstored hhonest.1 hstep⟩
    · rintro r q ⟨hauth, hstored⟩
      constructor
      · rintro ⟨hne, hright⟩
        exact (step_right_iff hauth hstored hne).mp hright
      · intro hhonest
        exact ⟨hhonest.1, (step_right_iff hauth hstored hhonest.1).mpr hhonest⟩
    · exact authentic_begin record
  rw [along_and] at hiff
  exact ⟨fun h => (hiff.mpr h).2, fun hne hright => hiff.mp ⟨hne, hright⟩⟩

/-! ## A partner with two names -/

/-- The names of two LUs, `A` and `B`. -/
def luA : Text .fqluname := ⟨[65], by decide, by decide⟩

def luB : Text .fqluname := ⟨[66], by decide, by decide⟩

/-- `A` registers itself. -/
def registerA : Request := ⟨luA, .register, [.name .fqluname luA], true, by decide⟩

/-- `B` deletes what `A` has registered. -/
def deleteA : Request := ⟨luB, .delete, [.name .fqluname luA], true, by decide⟩

/-- `B` registers `A`, and says first that it is `B`. -/
def registerAB : Request :=
  ⟨luB, .register, [.name .fqluname luB, .name .fqluname luA], true, by decide⟩

/-- `B` registers a record with the name of `A`, and deletes the one that `A` has registered. -/
theorem not_authentic :
    ¬ Along Registry.step Right (.begin asuiterecordNew) [registerAB] ∧
      ¬ Along Registry.step Right (.begin asuiterecordNew) [registerA, deleteA] := by
  have hbegin := authentic_begin asuiterecordNew
  constructor
  · intro h
    have hhonest := (step_right_iff hbegin.1 hbegin.2 (by decide)).mp h.1
    have haccepts : Accepts (Registry.begin asuiterecordNew).server registerAB :=
      ⟨stringAt_received (q := registerAB) _ rfl, rfl⟩
    exact absurd (hhonest.2 haccepts rfl) (by decide)
  · intro h
    have haccepts : Accepts (Registry.begin asuiterecordNew).server registerA :=
      ⟨stringAt_received (q := registerA) _ rfl, rfl⟩
    obtain ⟨record, hserve⟩ := serve_accepted (q := registerA) (by decide) rfl haccepts
    obtain ⟨r', hstep⟩ : ∃ r', Registry.step (.begin asuiterecordNew) registerA = some r' := by
      rw [Registry.step, hserve]
      exact ⟨_, rfl⟩
    have hstored := stored_step hbegin.2 (by decide) hstep
    have hhonest := (step_right_iff (h.1 r' hstep).1 hstored (by decide)).mp (h.2 r' hstep).1
    refine absurd (hhonest.2 ?_) (by decide)
    obtain ⟨sent, hserve', _⟩ := Registry.step_eq hstep
    rw [hserve] at hserve'
    have hdb := congrArg (fun served : Served => served.1.db) (Option.some.inj hserve')
    rw [← hdb]
    simp only [show deleteA.parameters = registerA.parameters from rfl, Function.update_self]
    simp

end LinuxSna.Asuite.Names
