import LinuxSna.Proof.Asuite.Ftp.Served
import LinuxSna.Proof.Asuite.Names.Images

/-!
# What the name server makes of a request

One lemma for each way that a request can go: `serve_accepted`, `serve_refused`, `serve_deleted`,
`serve_absent` and `serve_found`.
-/

namespace LinuxSna.Asuite.Names

open Ftp

/-! ## Records that are sent -/

/-- The record that says how a request went. -/
def statusData (rc : UInt8) : List UInt8 :=
  message .little anameStatusRecord [.char anameStatusReturnCode rc]

theorem send_statusRecord (rc : UInt8) (record : Record) :
    sendAsuiterecord (statusRecord .little rc record) = statusData rc :=
  sendAsuiterecord_build .little record anameStatusRecord [.char anameStatusReturnCode rc]

theorem returnCode_message (rc : UInt8) (calls : List Call) :
    returnCode (message .little anameStatusRecord (.char anameStatusReturnCode rc :: calls)) =
      some rc := rfl

theorem not_isResponse_status (calls : List Call) :
    isResponse (message .little anameStatusRecord calls) = false := rfl

theorem isResponse_response (calls : List Call) :
    isResponse (message .little anameResponseRecord calls) = true := rfl

theorem returnCode_response (calls : List Call) :
    returnCode (message .little anameResponseRecord calls) = none :=
  if_neg fun h => absurd h.1 (show ¬ some (5 : UInt8) = some 1 by decide)

/-- The parameters of a response -/
def responseCalls (value : List UInt8) : List Member → Option (List Call)
  | [] => some []
  | m :: ms => do
    let string ← stringOf value m
    let calls ← responseCalls value ms
    return .append m.key (Framework.padded (string.length + 1) string) :: calls

theorem foldlM_appendMember (value : List UInt8) (ms : List Member) (record : Record) :
    ms.foldlM (fun r m => appendMember .little value m r) record =
      (responseCalls value ms).map fun calls => calls.foldl (fun r x => x.run .little r) record := by
  induction ms generalizing record with
  | nil => rfl
  | cons m ms ih =>
    rw [List.foldlM_cons, appendMember, responseCalls]
    cases hstring : stringOf value m with
    | none => rfl
    | some string =>
      simp only [Option.bind_eq_bind, Option.bind_some, pure, asuiterecordAppend_eq, ih]
      cases responseCalls value ms with
      | none => rfl
      | some calls => rfl

/-- A response is made unless a string goes on behind the end of what is stored. -/
theorem responseCalls_eq_none_iff (value : List UInt8) (ms : List Member) :
    responseCalls value ms = none ↔ ∃ m ∈ ms, stringOf value m = none := by
  induction ms with
  | nil => simp [responseCalls]
  | cons m ms ih =>
    rw [List.exists_mem_cons_iff, ← ih, responseCalls]
    cases hstring : stringOf value m with
    | none => simp
    | some string =>
      cases responseCalls value ms with
      | none => simp
      | some calls => simp

/-- The record of a response, unless a string goes on behind the end of what is stored. -/
theorem responseRecord_eq (value : List UInt8) (record : Record) :
    responseRecord .little value record = (responseCalls value Member.all).map fun calls =>
      calls.foldl (fun r x => x.run .little r)
        (asuiterecordSettype .little (asuiterecordClear record) anameResponseRecord) :=
  foldlM_appendMember value Member.all _

/-! ## The requests -/

section Requests

variable {s : Server} {q : Request}

theorem received_holds (s : Server) (q : Request) : Holds (s.received q) q.data :=
  holds_getAsuiterecord q.data s.record

theorem majorCode_received (s : Server) (q : Request) :
    getMajorCode (s.received q) = q.kind.code :=
  (received_holds s q).majorCode (by cases q.kind <;> decide)

/-- The string that the server looks at is that of the first parameter, if this is a name. -/
theorem stringAt_received (s : Server) {m : Member} {text : Text m} {ps : List Parameter}
    (h : q.parameters = .name m text :: ps) : stringAt (s.received q) 5 = text.bytes := by
  have hholds := received_holds s q
  have hfits : q.data.length ≤ maxBufferSize := q.fits
  rw [Request.data, h, List.map_cons] at hholds hfits
  have hstands := hholds.stands_first _ hfits
  rw [hstands.string (Parameter.name m text).faithful
    (List.mem_append_right text.bytes List.mem_cons_self)]
  exact takeWhile_text text []

theorem serve_register (s : Server) (h : q.kind = .register) :
    serve .little s q.conversation =
      aRegister .little q.origin.bytes q.room ⟨s.db, s.received q⟩ := by
  have hmajor := majorCode_received s q
  rw [h] at hmajor
  rw [serve]
  dsimp only [Request.conversation]
  split
  · rfl
  · rename_i hthree
    exact absurd (hmajor.symm.trans hthree) (by decide)
  · rename_i hfour
    exact absurd (hmajor.symm.trans hfour) (by decide)
  · rename_i hne _ _
    exact absurd hmajor hne

theorem serve_delete (s : Server) (h : q.kind = .delete) :
    serve .little s q.conversation = aDelete .little ⟨s.db, s.received q⟩ := by
  have hmajor := majorCode_received s q
  rw [h] at hmajor
  simp only [serve, Request.conversation]
  rw [show getMajorCode (getAsuiterecord q.data s.record) = 3 from hmajor]
  rfl

theorem serve_query (s : Server) (h : q.kind = .query) :
    serve .little s q.conversation = aQuery .little ⟨s.db, s.received q⟩ := by
  have hmajor := majorCode_received s q
  rw [h] at hmajor
  simp only [serve, Request.conversation]
  rw [show getMajorCode (getAsuiterecord q.data s.record) = 4 from hmajor]
  rfl

/-- A register request that does not succeed changes nothing. -/
theorem serve_refused (hne : q.parameters ≠ []) (hkind : q.kind = .register)
    (h : ¬ Accepts s q) :
    ∃ record rc calls, rc ≠ 0 ∧ serve .little s q.conversation = some (⟨s.db, record⟩,
      [message .little anameStatusRecord (.char anameStatusReturnCode rc :: calls)]) := by
  rw [serve_register s hkind, aRegister]
  by_cases horigin : stringAt (s.received q) 5 = q.origin.bytes
  · have hroom : ¬ q.room = true := fun hroom => h ⟨horigin, hroom⟩
    rw [if_neg (not_not.mpr horigin), readNamerec_eq (received_holds s q) hne]
    simp only [Option.bind_eq_bind, Option.bind_some, if_neg hroom, send_statusRecord]
    exact ⟨_, 3, [], by decide, rfl⟩
  · rw [if_pos horigin, simpleResponse_eq]
    exact ⟨_, 6, _, by decide, rfl⟩

variable (hne : q.parameters ≠ [])

include hne

/-- One that succeeds stores what it names. -/
theorem serve_accepted (hkind : q.kind = .register) (h : Accepts s q) :
    ∃ record, serve .little s q.conversation =
      some (⟨Function.update s.db (image q.parameters).bytes (some (image q.parameters).bytes),
        record⟩, [statusData 0]) := by
  obtain ⟨horigin, hroom⟩ := h
  rw [serve_register s hkind, aRegister, if_neg (not_not.mpr horigin),
    readNamerec_eq (received_holds s q) hne]
  simp only [Option.bind_eq_bind, Option.bind_some, if_pos hroom, send_statusRecord]
  exact ⟨_, rfl⟩

/-- A delete request for what is stored. -/
theorem serve_deleted (hkind : q.kind = .delete) {value : List UInt8}
    (h : s.db (image q.parameters).bytes = some value) :
    ∃ record, serve .little s q.conversation =
      some (⟨Function.update s.db (image q.parameters).bytes none, record⟩, [statusData 0]) := by
  rw [serve_delete s hkind, aDelete, readNamerec_eq (received_holds s q) hne]
  simp only [Option.bind_eq_bind, Option.bind_some, h, send_statusRecord]
  exact ⟨_, rfl⟩

/-- A delete request or a query for what is not stored is not answered. -/
theorem serve_absent (hkind : q.kind = .delete ∨ q.kind = .query)
    (h : s.db (image q.parameters).bytes = none) :
    ∃ record, serve .little s q.conversation = some (⟨s.db, record⟩, []) := by
  refine ⟨statusRecord .little 3 (s.received q), ?_⟩
  obtain hkind | hkind := hkind
  · rw [serve_delete s hkind, aDelete, readNamerec_eq (received_holds s q) hne]
    simp only [Option.bind_eq_bind, Option.bind_some, h]
    rfl
  · rw [serve_query s hkind, aQuery, readNamerec_eq (received_holds s q) hne]
    simp only [Option.bind_eq_bind, Option.bind_some, h]
    rfl

/-- A query for what is stored. -/
theorem serve_found (hkind : q.kind = .query) {value : List UInt8}
    (h : s.db (image q.parameters).bytes = some value) :
    ∃ record : List Call → Record, serve .little s q.conversation =
      (responseCalls value Member.all).map fun calls => (⟨s.db, record calls⟩,
        [statusData 0, message .little anameResponseRecord calls, statusData 0]) := by
  rw [serve_query s hkind, aQuery, readNamerec_eq (received_holds s q) hne]
  simp only [Option.bind_eq_bind, Option.bind_some, h, responseRecord_eq, send_statusRecord]
  refine ⟨fun calls => statusRecord .little 0 (calls.foldl (fun r x => x.run .little r)
    (asuiterecordSettype .little (asuiterecordClear (statusRecord .little 0 (s.received q)))
      anameResponseRecord)), ?_⟩
  cases responseCalls value Member.all with
  | none => rfl
  | some calls =>
    simp only [Option.map_some, Option.bind_some, sendAsuiterecord_build]
    rfl

/-- What is stored after a request. -/
theorem serve_db {served : Served} (h : serve .little s q.conversation = some served) :
    served.1.db =
      match q.kind with
      | .register =>
        if Accepts s q then
          Function.update s.db (image q.parameters).bytes (some (image q.parameters).bytes)
        else s.db
      | .delete => Function.update s.db (image q.parameters).bytes none
      | .query => s.db := by
  cases hkind : q.kind with
  | register =>
    by_cases haccepts : Accepts s q
    · obtain ⟨record, heq⟩ := serve_accepted hne hkind haccepts
      rw [heq] at h
      obtain rfl := Option.some.inj h
      exact (if_pos haccepts).symm
    · obtain ⟨record, rc, calls, _, heq⟩ := serve_refused hne hkind haccepts
      rw [heq] at h
      obtain rfl := Option.some.inj h
      exact (if_neg haccepts).symm
  | delete =>
    cases hdb : s.db (image q.parameters).bytes with
    | some value =>
      obtain ⟨record, heq⟩ := serve_deleted hne hkind hdb
      rw [heq] at h
      obtain rfl := Option.some.inj h
      rfl
    | none =>
      obtain ⟨record, heq⟩ := serve_absent hne (Or.inl hkind) hdb
      rw [heq] at h
      obtain rfl := Option.some.inj h
      exact (Function.update_eq_self_iff.mpr hdb.symm).symm
  | query =>
    cases hdb : s.db (image q.parameters).bytes with
    | some value =>
      obtain ⟨record, heq⟩ := serve_found hne hkind hdb
      rw [heq] at h
      obtain ⟨calls, _, rfl⟩ := Option.map_eq_some_iff.mp h
      rfl
    | none =>
      obtain ⟨record, heq⟩ := serve_absent hne (Or.inr hkind) hdb
      rw [heq] at h
      obtain rfl := Option.some.inj h
      rfl

end Requests

end LinuxSna.Asuite.Names
