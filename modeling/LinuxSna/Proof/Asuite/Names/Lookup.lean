import LinuxSna.Framework.Run
import LinuxSna.Proof.Asuite.Names.Served

/-!
# Looking up names

A name is found under the bytes of what it names, if these are not left over from a longer one; a
request for what is not there is not answered.

* `knows_step`: the database has what is known;
* `step_answers_iff`: one request;
* `lookup_iff`: runs of requests.
-/

namespace LinuxSna.Asuite.Names

open Framework Ftp

/-! ## What is sent -/

section Says

variable {done : Prop}

theorem says_status (rc : UInt8) (calls : List Call) :
    Says done [message .little anameStatusRecord (.char anameStatusReturnCode rc :: calls)] ↔
      (rc = 0 ↔ done) := by
  have hcode := returnCode_message rc calls
  constructor
  · intro h
    exact h.2 _ List.mem_cons_self rc hcode
  · intro h
    refine ⟨⟨_, List.mem_cons_self, by rw [hcode]; simp⟩, fun data hdata rc' hrc => ?_⟩
    rw [List.mem_singleton.mp hdata, hcode] at hrc
    rw [← Option.some.inj hrc]
    exact h

theorem not_says_nil : ¬ Says done [] := by
  rintro ⟨⟨data, hdata, _⟩, _⟩
  exact absurd hdata List.not_mem_nil

/-- What is found is sent between two records that say so. -/
theorem says_found (calls : List Call) (hdone : done) :
    Says done [statusData 0, message .little anameResponseRecord calls, statusData 0] := by
  refine ⟨⟨_, List.mem_cons_self, by rw [statusData, returnCode_message]; simp⟩, ?_⟩
  intro data hdata rc hrc
  simp only [List.mem_cons, List.not_mem_nil, or_false] at hdata
  have hstatus (hdata : data = statusData 0) : rc = 0 ↔ done := by
    rw [hdata, statusData, returnCode_message] at hrc
    exact iff_of_true (Option.some.inj hrc).symm hdone
  obtain hdata | rfl | hdata := hdata
  · exact hstatus hdata
  · rw [returnCode_response] at hrc
    exact absurd hrc (by simp)
  · exact hstatus hdata

end Says

/-! ## What is known -/

/-- A request that does not lose what it names: it has parameters, each of its fields has a value that
is as long as any other that is given for it, and if it registers what is known, it succeeds. -/
def Usual (d : Directory) (q : Request) : Prop :=
  q.parameters ≠ [] ∧ Clean q.parameters ∧
    (q.kind = .register → naming q.parameters ∈ d.known → Accepts d.server q)

/-- A request that is answered as it should: what it deletes or asks for is known, and has the name of
a program if it is asked for. -/
def Meets (d : Directory) (q : Request) : Prop :=
  Usual d q ∧
    match q.kind with
    | .register => True
    | .delete => naming q.parameters ∈ d.known
    | .query => naming q.parameters ∈ d.known ∧ naming q.parameters .tpname ≠ none

/-- The database has what is known, each under itself. -/
structure Knows (d : Directory) : Prop where
  stored : ∀ key value, d.server.db key = some value → value = key
  known : ∀ n, d.server.db (canonical n).bytes ≠ none ↔ n ∈ d.known

variable {d d' : Directory} {q : Request}

theorem Directory.step_eq (h : d.step q = some d') :
    ∃ sent, serve .little d.server q.conversation = some (d'.server, sent) ∧
      d'.known = d.learn q := by
  obtain ⟨⟨server, sent⟩, hserve, heq⟩ := Option.bind_eq_some_iff.mp h
  obtain rfl := Option.some.inj heq
  exact ⟨sent, hserve, rfl⟩

theorem knows_begin (record : Record) : Knows (.begin record) where
  stored _ _ h := absurd h (show ¬ none = some _ by simp)
  known _ := iff_of_false (not_not.mpr rfl) (Set.notMem_empty _)

theorem canonical_bytes_eq {n n' : Naming} : (canonical n).bytes = (canonical n').bytes ↔ n = n' :=
  ⟨canonical_injective, congrArg fun n => (canonical n).bytes⟩

/-- Storing under one key brings in one naming. -/
theorem Knows.insert (h : Knows d) (n : Naming) (record : Record) :
    Knows ⟨⟨Function.update d.server.db (canonical n).bytes (some (canonical n).bytes), record⟩,
      insert n d.known⟩ where
  stored key value hsome := by
    by_cases hkey : key = (canonical n).bytes
    · subst hkey
      simp only [Function.update_self] at hsome
      exact (Option.some.inj hsome).symm
    · simp only [Function.update_of_ne hkey] at hsome
      exact h.stored key value hsome
  known n' := by
    by_cases hn : n' = n
    · subst hn
      simp
    · have hkey : (canonical n').bytes ≠ (canonical n).bytes := mt canonical_bytes_eq.mp hn
      simp only [Function.update_of_ne hkey, h.known, Set.mem_insert_iff, hn, false_or]

/-- Removing one key takes out one naming. -/
theorem Knows.remove (h : Knows d) (n : Naming) (record : Record) :
    Knows ⟨⟨Function.update d.server.db (canonical n).bytes none, record⟩, d.known \ {n}⟩ where
  stored key value hsome := by
    by_cases hkey : key = (canonical n).bytes
    · subst hkey
      simp only [Function.update_self] at hsome
      exact absurd hsome (by simp)
    · simp only [Function.update_of_ne hkey] at hsome
      exact h.stored key value hsome
  known n' := by
    by_cases hn : n' = n
    · subst hn
      simp
    · have hkey : (canonical n').bytes ≠ (canonical n).bytes := mt canonical_bytes_eq.mp hn
      simp only [Function.update_of_ne hkey, h.known, Set.mem_sdiff, Set.mem_singleton_iff, hn,
        not_false_eq_true, and_true]

/-- The database has what is known, after a request that does not lose what it names. -/
theorem knows_step (h : Knows d) (husual : Usual d q) (hstep : d.step q = some d') : Knows d' := by
  obtain ⟨hne, hclean, hregister⟩ := husual
  obtain ⟨sent, hserve, hknown⟩ := Directory.step_eq hstep
  have hdb := serve_db hne hserve
  rw [image_eq_canonical hclean] at hdb
  obtain ⟨⟨db, record⟩, known⟩ := d'
  simp only at hdb hknown
  subst hdb hknown
  rw [Directory.learn]
  cases hkind : q.kind with
  | register =>
    simp only
    by_cases haccepts : Accepts d.server q
    · rw [if_pos haccepts, if_pos haccepts]
      exact h.insert _ record
    · -- what is refused was not known
      rw [if_neg haccepts, if_neg haccepts,
        Set.sdiff_singleton_eq_self fun hmem => haccepts (hregister hkind hmem)]
      exact ⟨h.stored, h.known⟩
  | delete => exact h.remove _ record
  | query => exact ⟨h.stored, h.known⟩

/-! ## Answers -/

/-- A request that leads to one state is answered by what is sent there. -/
theorem answers_of_serve {served : Served}
    (h : serve .little d.server q.conversation = some served) :
    Answers d q ↔ Says (d.Succeeds q) served.2 ∧
      ((∃ data ∈ served.2, isResponse data = true) ↔
        q.kind = .query ∧ naming q.parameters ∈ d.known) := by
  constructor
  · rintro ⟨served', hserve, hanswers⟩
    rw [h] at hserve
    rw [Option.some.inj hserve]
    exact hanswers
  · exact fun hanswers => ⟨served, h, hanswers⟩

/-- One record that says how the request went is no answer to a query that succeeds. -/
theorem answers_of_status {server : Server} {rc : UInt8} {calls : List Call}
    (h : serve .little d.server q.conversation = some (server,
      [message .little anameStatusRecord (.char anameStatusReturnCode rc :: calls)]))
    (hkind : q.kind ≠ .query) : Answers d q ↔ (rc = 0 ↔ d.Succeeds q) := by
  rw [answers_of_serve h, says_status, and_iff_left]
  refine iff_of_false ?_ fun hquery => hkind hquery.1
  rintro ⟨data, hdata, hresponse⟩
  rw [List.mem_singleton.mp hdata, not_isResponse_status] at hresponse
  exact absurd hresponse (by decide)

theorem not_answers_of_nil {server : Server}
    (h : serve .little d.server q.conversation = some (server, [])) : ¬ Answers d q := by
  rw [answers_of_serve h]
  exact fun hanswers => not_says_nil hanswers.1

/-- One request is answered as it should exactly if what it deletes or asks for is known, and has the
name of a program if it is asked for. -/
theorem step_answers_iff (h : Knows d) (husual : Usual d q) : Answers d q ↔ Meets d q := by
  obtain ⟨hne, hclean, _⟩ := id husual
  have hkey := h.known (naming q.parameters)
  rw [← image_eq_canonical hclean] at hkey
  rw [Meets, and_iff_right husual]
  cases hkind : q.kind with
  | register =>
    have hquery : q.kind ≠ .query := by rw [hkind]; decide
    have hsucceeds : d.Succeeds q ↔ Accepts d.server q := by rw [Directory.Succeeds, hkind]
    refine iff_of_true ?_ trivial
    by_cases haccepts : Accepts d.server q
    · obtain ⟨record, hserve⟩ := serve_accepted hne hkind haccepts
      exact (answers_of_status hserve hquery).mpr (iff_of_true rfl (hsucceeds.mpr haccepts))
    · obtain ⟨record, rc, calls, hrc, hserve⟩ := serve_refused hne hkind haccepts
      exact (answers_of_status hserve hquery).mpr (iff_of_false hrc (mt hsucceeds.mp haccepts))
  | delete =>
    have hquery : q.kind ≠ .query := by rw [hkind]; decide
    have hsucceeds : d.Succeeds q ↔ naming q.parameters ∈ d.known := by
      rw [Directory.Succeeds, hkind]
    cases hdb : d.server.db (image q.parameters).bytes with
    | some value =>
      have hknown := hkey.mp (by rw [hdb]; simp)
      obtain ⟨record, hserve⟩ := serve_deleted hne hkind hdb
      exact iff_of_true ((answers_of_status hserve hquery).mpr
        (iff_of_true rfl (hsucceeds.mpr hknown))) hknown
    | none =>
      obtain ⟨record, hserve⟩ := serve_absent hne (Or.inl hkind) hdb
      exact iff_of_false (not_answers_of_nil hserve) fun hknown => hkey.mpr hknown hdb
  | query =>
    have hsucceeds : d.Succeeds q ↔ naming q.parameters ∈ d.known := by
      rw [Directory.Succeeds, hkind]
    cases hdb : d.server.db (image q.parameters).bytes with
    | some value =>
      have hknown := hkey.mp (by rw [hdb]; simp)
      obtain ⟨record, hserve⟩ := serve_found hne hkind hdb
      have hvalue := h.stored _ _ hdb
      subst hvalue
      have hcalls := responseCalls_eq_none_iff (image q.parameters).bytes Member.all
      rw [exists_stringOf_eq_none_iff] at hcalls
      rw [and_iff_right hknown, Ne, ← hcalls]
      cases hresponse : responseCalls (image q.parameters).bytes Member.all with
      | none =>
        rw [hresponse] at hserve
        refine iff_of_false ?_ (not_not.mpr rfl)
        rintro ⟨served, hserve', _⟩
        rw [hserve] at hserve'
        exact absurd hserve' (by simp)
      | some calls =>
        rw [hresponse] at hserve
        refine iff_of_true ((answers_of_serve hserve).mpr ⟨?_, ?_⟩) (by simp)
        · exact says_found calls (hsucceeds.mpr hknown)
        · exact iff_of_true ⟨_, List.mem_cons_of_mem _ List.mem_cons_self,
            isResponse_response calls⟩ ⟨hkind, hknown⟩
    | none =>
      obtain ⟨record, hserve⟩ := serve_absent hne (Or.inr hkind) hdb
      exact iff_of_false (not_answers_of_nil hserve) fun hknown => hkey.mpr hknown.1 hdb

/-- In runs of requests that meet `Meets` each is answered as it should; of requests that do not lose
what they name only these are. -/
theorem lookup_iff (record : Record) (qs : List Request) :
    (Along Directory.step Meets (.begin record) qs →
        Along Directory.step Answers (.begin record) qs) ∧
      (Along Directory.step Usual (.begin record) qs →
        Along Directory.step Answers (.begin record) qs →
          Along Directory.step Meets (.begin record) qs) := by
  have hiff : Along Directory.step (fun d q => Usual d q ∧ Answers d q) (.begin record) qs ↔
      Along Directory.step Meets (.begin record) qs := by
    apply along_iff (I := Knows)
    · exact fun d q d' h hmeets hstep => knows_step h hmeets.1 hstep
    · intro d q h
      constructor
      · exact fun hanswers => (step_answers_iff h hanswers.1).mp hanswers.2
      · exact fun hmeets => ⟨hmeets.1, (step_answers_iff h hmeets.1).mpr hmeets⟩
    · exact knows_begin record
  rw [along_and] at hiff
  exact ⟨fun h => (hiff.mpr h).2, fun husual hanswers => hiff.mp ⟨husual, hanswers⟩⟩

/-! ## An LU that registers itself -/

/-- The name of an LU, `C`. -/
def luC : Text .fqluname := ⟨[67], by decide, by decide⟩

/-- `C` registers itself. -/
def registerC : Request := ⟨luC, .register, [.name .fqluname luC], true, by decide⟩

/-- `C` is asked for. -/
def queryC : Request := ⟨luC, .query, [.name .fqluname luC], true, by decide⟩

theorem usual_queryC (d : Directory) : Usual d queryC :=
  ⟨by decide, by decide, fun h => absurd h (show ¬ Kind.query = .register by decide)⟩

/-- A query is not answered where there is nothing, and neither is one for what has been registered
without the name of a program. -/
theorem not_answered :
    ¬ Along Directory.step Answers (.begin asuiterecordNew) [queryC] ∧
      ¬ Along Directory.step Answers (.begin asuiterecordNew) [registerC, queryC] := by
  have hbegin := knows_begin asuiterecordNew
  constructor
  · intro h
    have hmeets := (step_answers_iff hbegin (usual_queryC _)).mp h.1
    exact hmeets.2.1
  · intro h
    have haccepts : Accepts (Directory.begin asuiterecordNew).server registerC :=
      ⟨stringAt_received (q := registerC) _ rfl, rfl⟩
    have husual : Usual (.begin asuiterecordNew) registerC :=
      ⟨by decide, by decide, fun _ _ => haccepts⟩
    obtain ⟨record, hserve⟩ := serve_accepted (q := registerC) (by decide) rfl haccepts
    obtain ⟨d', hstep⟩ : ∃ d', Directory.step (.begin asuiterecordNew) registerC = some d' := by
      rw [Directory.step, hserve]
      exact ⟨_, rfl⟩
    have hknows := knows_step hbegin husual hstep
    have hmeets := (step_answers_iff hknows (usual_queryC d')).mp (h.2 d' hstep).1
    exact absurd hmeets.2.2 (by decide)

end LinuxSna.Asuite.Names
