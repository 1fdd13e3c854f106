import LinuxSna.Proof.Asuite.Names.Served
import LinuxSna.Proof.Asuite.Tdb.Runs

/-!
# The name server on its database

As long as there is memory for its records, the server sends what it would send with a map in place of
the database. When there was none for a record, it has forgotten all names.

* `Agree`: the database maps as the map does;
* `serve_agrees`, `serveAll_agrees`: conversations keep that, and what is sent is the same;
* `serve_forgotten`: what a server does that has lost its memory.
-/

namespace LinuxSna.Asuite.Names

open Ftp Framework

variable {host : Host} {s s' : Daemon} {v : Server} {c : Conversation} {memory : Tdb.Host}
  {sent : List (List UInt8)}

/-- The database of the daemon maps as that of the server does. -/
structure Agree (s : Daemon) (v : Server) : Prop where
  holds : Tdb.Holds s.db v.db
  inMemory : s.db.inMemory = true
  record : s.record = v.record

/-- Two servers that agree, and have sent the same -/
def Alike {α : Type} (a : Daemon × α) (b : Server × α) : Prop := Agree a.1 b.1 ∧ a.2 = b.2

/-- There is memory for the record of a name that is registered. -/
def Roomy (s : Daemon) (e : Tdb.Host × Conversation) : Prop :=
  getMajorCode (getAsuiterecord e.2.data s.record) = 2 →
    Tdb.Request.Fits s.db (e.1, .store Namerec.blank.bytes Namerec.blank.bytes tdbReplace)

/-- Memory can be grown for every name that is registered. -/
def Grows (s : Daemon) (e : Tdb.Host × Conversation) : Prop :=
  getMajorCode (getAsuiterecord e.2.data s.record) = 2 →
    Tdb.Request.Grows s.db (e.1, .store Namerec.blank.bytes Namerec.blank.bytes tdbReplace)

instance (s : Daemon) (e : Tdb.Host × Conversation) : Decidable (Grows s e) :=
  inferInstanceAs (Decidable (_ → _))

/-- The state after a conversation -/
def daemonStep (host : Host) (s : Daemon) (e : Tdb.Host × Conversation) : Option Daemon :=
  (Daemon.serve host s e.1 e.2).map Prod.fst

theorem along_roomy {es : List (Tdb.Host × Conversation)} (h : Along (daemonStep host) Grows s es) :
    Along (daemonStep host) Roomy s es :=
  along_of_invariant (I := fun _ => True) (fun _ _ _ _ _ _ => trivial)
    (fun _ _ _ hg hcode => (hg hcode).fits) trivial h

/-- The conversation, with room for a record -/
def roomyFor (e : Tdb.Host × Conversation) : Conversation := { e.2 with room := true }

theorem length_namerec (r : Namerec) : r.bytes.length = Namerec.blank.bytes.length := by
  have hlen : ∀ r : Namerec, r.bytes.length = (Member.all.map fun m => m.size + 1).sum := fun r => by
    simp [Namerec.bytes, List.length_flatMap, (r _).length_eq]
  rw [hlen, hlen]

theorem agree_begin (record : Record) : Agree (.begin record) (.begin record) where
  holds := Tdb.holds_new .memory (by decide)
  inMemory := rfl
  record := rfl

/-! ## One conversation -/

/-- With memory for it, a record is stored. -/
theorem Agree.store (h : Agree s v) (r : Namerec)
    (hroom : Tdb.Request.Fits s.db (memory, .store Namerec.blank.bytes Namerec.blank.bytes tdbReplace)) :
    ∃ db, Tdb.tdbStore memory s.db r.bytes r.bytes tdbReplace = some (db, true) ∧
      ∀ record, Agree ⟨db, record⟩ ⟨Function.update v.db r.bytes (some r.bytes), record⟩ := by
  have hfits : Tdb.Request.Fits s.db (memory, .store r.bytes r.bytes tdbReplace) := by
    show Tdb.Context.Small _ (r.bytes.length + r.bytes.length + _) ∧ _
    rw [length_namerec]
    exact hroom
  obtain ⟨db, a, f, hserve, hanswer, hdb, hmode⟩ := Tdb.serve_answers h.holds _ hfits
  rw [h.inMemory] at hmode
  obtain ⟨⟨db', ok⟩, hstore, heq⟩ := Option.map_eq_some_iff.mp hserve
  cases heq
  cases hanswer with
  | stored _ => exact ⟨_, hstore, fun record => ⟨hdb, hmode, rfl⟩⟩
  | full hfile _ => cases h.inMemory.symm.trans hfile

/-- What is deleted was there. -/
theorem Agree.delete (h : Agree s v) (r : Namerec) :
    ∃ db, Tdb.tdbDelete s.db r.bytes = some (db, (v.db r.bytes).isSome) ∧
      ∀ record, Agree ⟨db, record⟩ ⟨Function.update v.db r.bytes none, record⟩ := by
  have hfits : Tdb.Request.Fits s.db (.withRoom 0, .delete r.bytes) := by
    show r.bytes.length < 2 ^ 32
    rw [length_namerec]
    decide +kernel
  obtain ⟨db, a, f, hserve, hanswer, hdb, hmode⟩ := Tdb.serve_answers h.holds _ hfits
  rw [h.inMemory] at hmode
  obtain ⟨⟨db', ok⟩, hdelete, heq⟩ := Option.map_eq_some_iff.mp hserve
  cases heq
  cases hanswer
  exact ⟨_, hdelete, fun record => ⟨hdb, hmode, rfl⟩⟩

theorem Agree.fetch (h : Agree s v) (key : List UInt8) :
    Tdb.tdbFetch s.db key = some (s.db, v.db key) := by
  obtain ⟨hd, m, l, hrep, hmap, -, -⟩ := h.holds
  rw [← hmap]
  exact hrep.fetch key

theorem Agree.with (h : Agree s v) (record : Record) : Agree ⟨s.db, record⟩ ⟨v.db, record⟩ :=
  ⟨h.holds, h.inMemory, rfl⟩

theorem register_agrees (h : Agree s v) (origin : List UInt8)
    (hroom : Tdb.Request.Fits s.db (memory, .store Namerec.blank.bytes Namerec.blank.bytes tdbReplace)) :
    Option.Rel Alike (s.aRegister host memory origin) (aRegister host origin true v) := by
  obtain ⟨db, record⟩ := s
  obtain rfl : record = v.record := h.record
  rw [Daemon.aRegister, aRegister]
  by_cases horigin : stringAt v.record 5 ≠ origin
  · rw [if_pos horigin, if_pos horigin]
    exact .some ⟨h, rfl⟩
  · rw [if_neg horigin, if_neg horigin]
    cases readNamerec host v.record with
    | none => exact .none
    | some r =>
      obtain ⟨db', hstore, hagree⟩ := h.store r hroom
      simp -implicitDefEqProofs only [Option.bind_eq_bind, Option.bind_some, hstore]
      exact .some ⟨hagree _, rfl⟩

theorem delete_agrees (h : Agree s v) : Option.Rel Alike (s.aDelete host) (aDelete host v) := by
  obtain ⟨db, record⟩ := s
  obtain rfl : record = v.record := h.record
  rw [Daemon.aDelete, aDelete]
  cases readNamerec host v.record with
  | none => exact .none
  | some r =>
    obtain ⟨db', hdelete, hagree⟩ := h.delete r
    simp -implicitDefEqProofs only [Option.bind_eq_bind, Option.bind_some, hdelete]
    cases hfound : v.db r.bytes with
    | some value => exact .some ⟨hagree _, rfl⟩
    | none =>
      rw [← hfound, Function.update_eq_self] at hagree
      exact .some ⟨hagree _, rfl⟩

theorem query_agrees (h : Agree s v) : Option.Rel Alike (s.aQuery host) (aQuery host v) := by
  obtain ⟨db, record⟩ := s
  obtain rfl : record = v.record := h.record
  rw [Daemon.aQuery, aQuery]
  cases readNamerec host v.record with
  | none => exact .none
  | some r =>
    simp -implicitDefEqProofs only [Option.bind_eq_bind, Option.bind_some, h.fetch r.bytes]
    cases v.db r.bytes with
    | none => exact .some ⟨h.with _, rfl⟩
    | some value =>
      simp only
      cases responseRecord host value (statusRecord host 0 v.record) with
      | none => exact .none
      | some response => exact .some ⟨h.with _, rfl⟩

/-- A conversation with a server that has memory for a record -/
theorem serve_agrees (h : Agree s v) {e : Tdb.Host × Conversation} (hroom : Roomy s e) :
    Option.Rel Alike (Daemon.serve host s e.1 e.2) (serve host v (roomyFor e)) := by
  have hget := h.with (getAsuiterecord e.2.data v.record)
  rw [Roomy, h.record] at hroom
  rw [Daemon.serve, serve, h.record]
  dsimp only [roomyFor]
  split
  · rename_i hcode
    exact register_agrees hget e.2.origin (hroom hcode)
  · exact delete_agrees hget
  · exact query_agrees hget
  · exact .some ⟨hget, rfl⟩

/-! ## All conversations -/

theorem rel_cases {α β : Type} {R : α → β → Prop} {a : Option α} {b : Option β}
    (h : Option.Rel R a b) : a = none ∧ b = none ∨ ∃ x y, a = some x ∧ b = some y ∧ R x y := by
  cases h with
  | none => exact .inl ⟨rfl, rfl⟩
  | some hxy => exact .inr ⟨_, _, rfl, rfl, hxy⟩

theorem serveAll_agrees (h : Agree s v) {es : List (Tdb.Host × Conversation)}
    (hroom : Along (daemonStep host) Roomy s es) :
    Option.Rel Alike (Daemon.serveAll host s es) (serveAll host v (es.map roomyFor)) := by
  induction es generalizing s v with
  | nil => exact .some ⟨h, rfl⟩
  | cons e es ih =>
    rw [Daemon.serveAll, List.map_cons, serveAll]
    obtain ⟨hs, hv⟩ | ⟨a, b, hs, hv, hagree, hsent⟩ := rel_cases (serve_agrees h hroom.1)
    · rw [hs, hv]
      exact .none
    · have hnext : daemonStep host s e = some a.1 := by
        rw [daemonStep, hs]
        rfl
      simp only [hs, hv, Option.bind_eq_bind, Option.bind_some]
      obtain ⟨hs', hv'⟩ | ⟨a', b', hs', hv', hagree', hsent'⟩ := rel_cases (ih hagree (hroom.2 _ hnext))
      · rw [hs', hv']
        exact .none
      · rw [hs', hv']
        exact .some ⟨hagree', by rw [hsent, hsent']⟩

/-- While there is memory for its records, the server sends on its conversations what it would send with a map
in place of the database, and comes to where its behaviour is not defined where that would. -/
theorem daemon_sends (record : Record) {es : List (Tdb.Host × Conversation)}
    (hroom : Along (daemonStep host) Roomy (.begin record) es) :
    (Daemon.serveAll host (.begin record) es).map Prod.snd =
      (serveAll host (.begin record) (es.map roomyFor)).map Prod.snd := by
  obtain ⟨hs, hv⟩ | ⟨a, b, hs, hv, -, hsent⟩ := rel_cases (serveAll_agrees (agree_begin record) hroom)
  · rw [hs, hv]
    rfl
  · rw [hs, hv, Option.map_some, Option.map_some, hsent]

theorem daemon_sends_registered :
    (Daemon.serveAll .little (.begin asuiterecordNew)
      [(.withRoom (2 ^ 32), ⟨[65], message .little 2 [.append Anamed.anameFqluName [65, 0]], true⟩),
        (.withRoom 0,
          ⟨[66], message .little 3 [.append Anamed.anameFqluName [65, 0]], true⟩)]).map Prod.snd =
      (serveAll .little (.begin asuiterecordNew)
        [⟨[65], message .little 2 [.append Anamed.anameFqluName [65, 0]], true⟩,
          ⟨[66], message .little 3 [.append Anamed.anameFqluName [65, 0]], true⟩]).map Prod.snd :=
  daemon_sends _ ⟨fun _ => Tdb.Request.Grows.fits (by decide +kernel), fun _ _ =>
    ⟨fun hcode => absurd (((holds_getAsuiterecord _ _).majorCode (by decide)).symm.trans hcode) (by decide),
      fun _ _ => trivial⟩⟩

/-! ## A server that has lost its memory -/

/-- Nothing is known to the server, and nothing can be stored. -/
structure Forgotten (s : Daemon) : Prop where
  image : s.db.image = none
  hash_pos : 0 < s.db.hashSize

/-- What is sent says neither that a request has succeeded nor what a name stands for. -/
def Barren (sent : List (List UInt8)) : Prop :=
  ∀ data ∈ sent, returnCode data ≠ some 0 ∧ isResponse data = false

theorem barren_status {rc : UInt8} (hrc : rc ≠ 0) (record : Record) :
    Barren [sendAsuiterecord (statusRecord .little rc record)] := by
  rw [send_statusRecord]
  intro data hdata
  obtain rfl := List.mem_singleton.mp hdata
  refine ⟨?_, not_isResponse_status _⟩
  rw [statusData, returnCode_message]
  exact fun h => hrc (Option.some.inj h)

/-- A conversation with a server that has forgotten all names -/
theorem serve_forgotten (h : Forgotten s) (hserve : Daemon.serve .little s memory c = some (s', sent)) :
    Forgotten s' ∧ Barren sent := by
  have hthree : (3 : UInt8) ≠ 0 := by decide
  have hnone : Barren [] := fun _ hdata => absurd hdata List.not_mem_nil
  rw [Daemon.serve] at hserve
  dsimp only at hserve
  split at hserve
  · rw [Daemon.aRegister] at hserve
    dsimp only at hserve
    split at hserve
    · cases hserve
      refine ⟨⟨h.image, h.hash_pos⟩, fun data hdata => ?_⟩
      obtain rfl := List.mem_singleton.mp hdata
      decide
    · obtain ⟨r, -, hserve⟩ := Option.bind_eq_some_iff.mp hserve
      simp only [Option.bind_eq_bind, Tdb.tdbStore_lost h.image h.hash_pos, Option.bind_some,
        Bool.false_eq_true, if_false] at hserve
      cases hserve
      exact ⟨⟨h.image, h.hash_pos⟩, barren_status hthree _⟩
  · rw [Daemon.aDelete] at hserve
    obtain ⟨r, -, hserve⟩ := Option.bind_eq_some_iff.mp hserve
    simp only [Option.bind_eq_bind, Tdb.tdbDelete_lost h.image h.hash_pos, Option.bind_some,
      Bool.false_eq_true, if_false] at hserve
    cases hserve
    exact ⟨⟨h.image, h.hash_pos⟩, hnone⟩
  · rw [Daemon.aQuery] at hserve
    obtain ⟨r, -, hserve⟩ := Option.bind_eq_some_iff.mp hserve
    simp only [Option.bind_eq_bind, Tdb.tdbFetch_lost h.image h.hash_pos, Option.bind_some] at hserve
    cases hserve
    exact ⟨⟨h.image, h.hash_pos⟩, hnone⟩
  · cases hserve
    exact ⟨⟨h.image, h.hash_pos⟩, hnone⟩

theorem returnCode_response_ne {value : List UInt8} {record response : Record} {rc : UInt8}
    (hresponse : responseRecord .little value record = some response) :
    returnCode (sendAsuiterecord response) ≠ some rc := by
  rw [responseRecord_eq, Option.map_eq_some_iff] at hresponse
  obtain ⟨calls, -, rfl⟩ := hresponse
  rw [sendAsuiterecord_build, returnCode_response]
  exact fun h => by cases h

theorem returnCode_status (rc : UInt8) (record : Record) :
    returnCode (sendAsuiterecord (statusRecord .little rc record)) = some rc := by
  rw [send_statusRecord, statusData, returnCode_message]

theorem returnCode_success_ne (record : Record) :
    returnCode (sendAsuiterecord (statusRecord .little 0 record)) ≠ some 3 := by
  rw [returnCode_status]
  decide

/-- A registration fails if there is no room for the name, and the memory is lost then. -/
theorem aRegister_failed {origin data : List UInt8} (h : Tdb.Holds s.db v.db) (hmem : s.db.inMemory = true)
    (hsmall : s.db.Small (Namerec.blank.bytes.length + Namerec.blank.bytes.length + Tdb.recSize))
    (hserve : Daemon.aRegister .little memory origin s = some (s', sent)) (hdata : data ∈ sent)
    (hrc : returnCode data = some 3) :
    ¬s.db.HasRoom memory.room (Namerec.blank.bytes.length + Namerec.blank.bytes.length) ∧
      Forgotten s' := by
  rw [Daemon.aRegister] at hserve
  split at hserve
  · cases hserve
    obtain rfl := List.mem_singleton.mp hdata
    exact absurd hrc (by decide)
  · obtain ⟨r, -, hserve⟩ := Option.bind_eq_some_iff.mp hserve
    obtain ⟨⟨db, stored⟩, hstore, hserve⟩ := Option.bind_eq_some_iff.mp hserve
    cases hserve
    obtain rfl := List.mem_singleton.mp hdata
    cases stored with
    | true => exact absurd hrc (returnCode_success_ne _)
    | false =>
      obtain ⟨hroom, hpos, rfl⟩ := h.store_refused (by rwa [length_namerec])
        (fun hflag => absurd hflag (by decide)) hstore
      rw [length_namerec] at hroom
      refine ⟨hroom, ?_, ?_⟩
      · show (Tdb.Context.refused s.db _).image = none
        rw [Tdb.Context.refused, if_pos hmem]
      · show 0 < (Tdb.Context.refused s.db _).hashSize
        rw [Tdb.Context.refused, if_pos hmem]
        exact hpos

theorem aDelete_not_failed {data : List UInt8} (hserve : Daemon.aDelete .little s = some (s', sent))
    (hdata : data ∈ sent) : returnCode data ≠ some 3 := by
  rw [Daemon.aDelete] at hserve
  obtain ⟨r, -, hserve⟩ := Option.bind_eq_some_iff.mp hserve
  obtain ⟨⟨db, deleted⟩, -, hserve⟩ := Option.bind_eq_some_iff.mp hserve
  cases deleted with
  | true =>
    cases hserve
    obtain rfl := List.mem_singleton.mp hdata
    exact returnCode_success_ne _
  | false =>
    cases hserve
    exact absurd hdata List.not_mem_nil

theorem aQuery_not_failed {data : List UInt8} (hserve : Daemon.aQuery .little s = some (s', sent))
    (hdata : data ∈ sent) : returnCode data ≠ some 3 := by
  rw [Daemon.aQuery] at hserve
  obtain ⟨r, -, hserve⟩ := Option.bind_eq_some_iff.mp hserve
  obtain ⟨⟨db, found⟩, -, hserve⟩ := Option.bind_eq_some_iff.mp hserve
  cases found with
  | none =>
    cases hserve
    exact absurd hdata List.not_mem_nil
  | some value =>
    obtain ⟨response, hresponse, hserve⟩ := Option.bind_eq_some_iff.mp hserve
    cases hserve
    simp only [List.mem_cons, List.not_mem_nil, or_false] at hdata
    obtain rfl | rfl | rfl := hdata
    · exact returnCode_success_ne _
    · exact returnCode_response_ne hresponse
    · exact returnCode_success_ne _

/-- The server says that it has failed only of a registration for which there is no room, and it has lost its
memory then. -/
theorem forgotten_of_three (h : Agree s v)
    (hsmall : s.db.Small (Namerec.blank.bytes.length + Namerec.blank.bytes.length + Tdb.recSize))
    (hserve : Daemon.serve .little s memory c = some (s', sent))
    (hthree : ∃ data ∈ sent, returnCode data = some 3) :
    getMajorCode (getAsuiterecord c.data s.record) = 2 ∧
      ¬s.db.HasRoom memory.room (Namerec.blank.bytes.length + Namerec.blank.bytes.length) ∧
      Forgotten s' := by
  obtain ⟨data, hdata, hrc⟩ := hthree
  rw [Daemon.serve] at hserve
  dsimp only at hserve
  split at hserve
  · rename_i hcode
    obtain ⟨hroom, hforgotten⟩ :=
      aRegister_failed (s := ⟨s.db, getAsuiterecord c.data s.record⟩) h.holds h.inMemory hsmall hserve hdata hrc
    exact ⟨hcode, hroom, hforgotten⟩
  · exact absurd hrc (aDelete_not_failed hserve hdata)
  · exact absurd hrc (aQuery_not_failed hserve hdata)
  · cases hserve
    exact absurd hdata List.not_mem_nil

theorem serveAll_forgotten (h : Forgotten s) {es : List (Tdb.Host × Conversation)}
    {all : List (List (List UInt8))} (hrun : Daemon.serveAll .little s es = some (s', all)) :
    ∀ sent ∈ all, Barren sent := by
  induction es generalizing s all with
  | nil =>
    cases hrun
    exact fun _ hsent => absurd hsent List.not_mem_nil
  | cons e es ih =>
    obtain ⟨⟨s₁, sent⟩, hserve, hrun⟩ := Option.bind_eq_some_iff.mp hrun
    obtain ⟨⟨s₂, rest⟩, hrest, heq⟩ := Option.bind_eq_some_iff.mp hrun
    cases heq
    obtain ⟨h₁, hbarren⟩ := serve_forgotten h hserve
    exact List.forall_mem_cons.mpr ⟨hbarren, ih h₁ hrest⟩

/-- When the server answers a request with return code 3, having had memory before, then that was to register
a name for which there was no room, and it has forgotten all names: from then on it says of no request that it
has succeeded, and answers none with a record. -/
theorem daemon_forgets (record : Record) {es es' : List (Tdb.Host × Conversation)}
    (hroom : Along (daemonStep .little) Roomy (.begin record) es)
    {all all' : List (List (List UInt8))} {s₁ s₂ : Daemon}
    (hrun : Daemon.serveAll .little (.begin record) es = some (s, all))
    (hsmall : s.db.Small (Namerec.blank.bytes.length + Namerec.blank.bytes.length + Tdb.recSize))
    (hserve : Daemon.serve .little s memory c = some (s₁, sent))
    (hthree : ∃ data ∈ sent, returnCode data = some 3)
    (hrun' : Daemon.serveAll .little s₁ es' = some (s₂, all')) :
    getMajorCode (getAsuiterecord c.data s.record) = 2 ∧
      ¬s.db.HasRoom memory.room (Namerec.blank.bytes.length + Namerec.blank.bytes.length) ∧
      ∀ sent ∈ all', ∀ data ∈ sent, returnCode data ≠ some 0 ∧ isResponse data = false := by
  obtain ⟨hs, -⟩ | ⟨a, b, hs, -, hagree, -⟩ := rel_cases (serveAll_agrees (agree_begin record) hroom)
  · cases hrun.symm.trans hs
  · cases hrun.symm.trans hs
    obtain ⟨hcode, hnone, hlost⟩ := forgotten_of_three hagree hsmall hserve hthree
    exact ⟨hcode, hnone, serveAll_forgotten hlost hrun'⟩

/-- An LU asks for its name to be registered, or for a name. -/
def asks (code : ℕ) (name : UInt8) : Conversation :=
  ⟨[name], message .little code [.append Anamed.anameFqluName [name, 0]], true⟩

/-- As many names as the database has room for when it has grown once -/
def sixteenNames : List (Tdb.Host × Conversation) :=
  (List.range' 65 16).map fun name => (.withRoom (2 ^ 32), asks 2 name.toUInt8)

theorem serveAll_of_run {es : List (Tdb.Host × Conversation)}
    (h : run (daemonStep host) s es = some s') : ∃ all, Daemon.serveAll host s es = some (s', all) := by
  induction es generalizing s with
  | nil =>
    cases h
    exact ⟨[], rfl⟩
  | cons e es ih =>
    obtain ⟨s₁, hstep, hrun⟩ := run_cons.mp h
    obtain ⟨⟨_, sent⟩, hserve, rfl⟩ := Option.map_eq_some_iff.mp hstep
    obtain ⟨all, hall⟩ := ih hrun
    exact ⟨sent :: all, Option.bind_eq_some_iff.mpr
      ⟨_, hserve, Option.bind_eq_some_iff.mpr ⟨_, hall, rfl⟩⟩⟩

/-- There is no memory for one more, and the first one is not found after that. -/
theorem daemon_forgets_registered : ∃ s all s₁ s₂ all',
    Daemon.serveAll .little (.begin asuiterecordNew) sixteenNames = some (s, all) ∧
      Daemon.serve .little s (.withRoom 100) (asks 2 81) = some (s₁, [statusData 3]) ∧
      Daemon.serveAll .little s₁ [(.withRoom (2 ^ 32), asks 4 65)] = some (s₂, all') ∧
      ∀ sent ∈ all', ∀ data ∈ sent, returnCode data ≠ some 0 ∧ isResponse data = false := by
  have hrun : ((run (fun s e => if Grows s e then daemonStep .little s e else none)
      (.begin asuiterecordNew) sixteenNames).bind fun s =>
        (Daemon.serve .little s (.withRoom 100) (asks 2 81)).bind fun r₁ =>
          (Daemon.serveAll .little r₁.1 [(.withRoom (2 ^ 32), asks 4 65)]).map fun r₂ =>
            (decide (s.db.Small (Namerec.blank.bytes.length + Namerec.blank.bytes.length + Tdb.recSize)),
              r₁.2, r₂.2)) = some (true, [statusData 3], [[]]) := by decide +kernel
  obtain ⟨s, hnames, hrest⟩ := Option.bind_eq_some_iff.mp hrun
  obtain ⟨⟨s₁, sent⟩, hserve, hrest⟩ := Option.bind_eq_some_iff.mp hrest
  obtain ⟨⟨s₂, all'⟩, hagain, heq⟩ := Option.map_eq_some_iff.mp hrest
  simp only [Prod.mk.injEq, decide_eq_true_eq] at heq
  obtain ⟨hsmall, rfl, rfl⟩ := heq
  obtain ⟨hgrows, hnames⟩ := run_ite.mp hnames
  obtain ⟨all, hall⟩ := serveAll_of_run hnames
  exact ⟨s, all, s₁, s₂, _, hall, hserve, hagain, (daemon_forgets asuiterecordNew (along_roomy hgrows) hall
    hsmall hserve ⟨_, List.mem_singleton_self _, by decide⟩ hagain).2.2⟩

end LinuxSna.Asuite.Names
