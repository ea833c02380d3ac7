import JbOrchestrator.Infrastructure.Database

/-!
# Flushing — the rows that a flush adds

A flush inserts rows and updates rows; it deletes none, and a row stays under its identifier.  The new
rows are those of the insertions.
-/

open Lib

namespace JbOrchestrator.Infrastructure

open Domain Workflows Application

/-! ## 1. Rows that stay -/

/-- Requests, runs and executions are stored under their identifiers. -/
structure Database.Identified (db : Database) : Prop where
  request : ∀ id row, db.requests.get? id = some row → row.id = id
  run : ∀ id row, db.runs.get? id = some row → row.id = id
  execution : ∀ id row, db.executions.get? id = some row → row.id = id

/-- No row is lost, and the projects stay as they are. -/
structure Retains (db db' : Database) : Prop where
  identified : db.Identified → db'.Identified
  projects : db'.projects = db.projects
  request : ∀ id, (db.requests.get? id).isSome → (db'.requests.get? id).isSome
  run : ∀ id, (db.runs.get? id).isSome → (db'.runs.get? id).isSome
  execution : ∀ id, (db.executions.get? id).isSome → (db'.executions.get? id).isSome

theorem Retains.refl (db : Database) : Retains db db :=
  ⟨id, rfl, fun _ => id, fun _ => id, fun _ => id⟩

theorem Retains.trans {db db' db'' : Database} (h : Retains db db') (h' : Retains db' db'') :
    Retains db db'' where
  identified hdb := h'.identified (h.identified hdb)
  projects := h'.projects.trans h.projects
  request id hid := h'.request id (h.request id hid)
  run id hid := h'.run id (h.run id hid)
  execution id hid := h'.execution id (h.execution id hid)

theorem isSome_set {κ ν : Type} [DecidableEq κ] {d : Dict κ ν} {k k' : κ} {v : ν}
    (h : (d.get? k').isSome) : ((d.set k v).get? k').isSome := by
  rw [Dict.get?_set]
  split
  · rfl
  · exact h

/-- A table keeps its identifiers when a row is written under its own. -/
theorem identified_set {κ ν : Type} [DecidableEq κ] {key : ν → κ} {d : Dict κ ν} {k : κ} {v : ν}
    (h : ∀ k row, d.get? k = some row → key row = k) (hv : key v = k) :
    ∀ k' row, (d.set k v).get? k' = some row → key row = k' := by
  intro k' row hrow
  rw [Dict.get?_set] at hrow
  split at hrow
  · rename_i hk
    obtain rfl := Option.some.inj hrow
    rw [hv, hk]
  · exact h k' row hrow

section

variable {db db' : Database} {write : Write}

theorem grows_requests {request : UserRequest} {id : UUID} (hid : db.Identified → request.id = id) :
    Retains db { db with requests := db.requests.set id request } where
  identified h := ⟨identified_set h.request (hid h), h.run, h.execution⟩
  projects := rfl
  request _ h := isSome_set h
  run _ h := h
  execution _ h := h

theorem grows_runs (run : Run) : Retains db { db with runs := db.runs.set run.id run } where
  identified h := ⟨h.request, identified_set h.run rfl, h.execution⟩
  projects := rfl
  request _ h := h
  run _ h := isSome_set h
  execution _ h := h

theorem grows_executions {execution : WorkflowExecution} {id : UUID}
    (hid : db.Identified → execution.id = id) :
    Retains db { db with executions := db.executions.set id execution } where
  identified h := ⟨h.request, h.run, identified_set h.execution (hid h)⟩
  projects := rfl
  request _ h := h
  run _ h := h
  execution _ h := isSome_set h

theorem grows_apply (h : write.apply db = .ok db') : Retains db db' := by
  cases write with
  | insertRequest request =>
    simp only [Write.apply] at h
    split at h
    · cases h
    · obtain rfl := Except.ok.inj h
      exact grows_requests fun _ => rfl
  | insertRun run =>
    simp only [Write.apply] at h
    split at h
    · cases h
    · obtain rfl := Except.ok.inj h
      exact grows_runs run
  | insertExecution execution =>
    simp only [Write.apply] at h
    split at h
    · obtain rfl := Except.ok.inj h
      exact grows_executions fun _ => rfl
    · cases h
  | insertArtifact artifact =>
    simp only [Write.apply] at h
    split at h
    · cases h
    · obtain rfl := Except.ok.inj h
      exact ⟨fun h => ⟨h.request, h.run, h.execution⟩, rfl, fun _ => id, fun _ => id,
        fun _ => id⟩
  | updateRequest loaded current =>
    simp only [Write.apply] at h
    split at h
    · cases h
    · rename_i stored hstored
      obtain rfl := Except.ok.inj h
      have hid : db.Identified → stored.id = current.id := fun hdb => hdb.request _ _ hstored
      exact grows_requests hid
  | updateRun loaded current =>
    simp only [Write.apply] at h
    split at h
    · cases h
    split at h
    · obtain rfl := Except.ok.inj h
      exact grows_runs current
    · cases h
  | updateExecution loaded current =>
    simp only [Write.apply] at h
    split at h
    · cases h
    rename_i stored hstored
    split at h
    · obtain rfl := Except.ok.inj h
      have hid : db.Identified → stored.id = current.id := fun hdb => hdb.execution _ _ hstored
      exact grows_executions hid
    · cases h
  | updateAccount loaded current =>
    simp only [Write.apply] at h
    split at h
    · cases h
    split at h
    · obtain rfl := Except.ok.inj h
      exact ⟨fun h => ⟨h.request, h.run, h.execution⟩, rfl, fun _ => id, fun _ => id,
        fun _ => id⟩
    · cases h
  | updateReservation current =>
    simp only [Write.apply] at h
    split at h
    · cases h
    · obtain rfl := Except.ok.inj h
      exact ⟨fun h => ⟨h.request, h.run, h.execution⟩, rfl, fun _ => id, fun _ => id,
        fun _ => id⟩

/-! ## 2. Rows that are new -/

def Write.insertedRequest : Write → Option UUID
  | .insertRequest request => some request.id
  | _ => none

def Write.insertedRun : Write → Option UUID
  | .insertRun run => some run.id
  | _ => none

def Write.insertedExecution : Write → Option UUID
  | .insertExecution execution => some execution.id
  | _ => none

/-- The identifiers behind `ids` are those that the insertions add. -/
structure Adds (writes : List Write) (db db' : Database) : Prop where
  requests : db'.requests.keys = db.requests.keys ++ writes.filterMap Write.insertedRequest
  runs : db'.runs.keys = db.runs.keys ++ writes.filterMap Write.insertedRun
  executions : db'.executions.keys = db.executions.keys ++ writes.filterMap Write.insertedExecution

theorem keys_set_none {κ ν : Type} [DecidableEq κ] {d : Dict κ ν} {k : κ} {v : ν}
    (h : d.get? k = none) : (d.set k v).keys = d.keys ++ [k] := by
  rw [Dict.keys_set, h]
  rfl

theorem keys_set_some {κ ν : Type} [DecidableEq κ] {d : Dict κ ν} {k : κ} {v row : ν}
    (h : d.get? k = some row) : (d.set k v).keys = d.keys := by
  rw [Dict.keys_set, h]
  rfl

theorem adds_apply (h : write.apply db = .ok db') : Adds [write] db db' := by
  have hnone : ∀ {ids : List UUID}, ids = ids ++ [] := fun {ids} => (List.append_nil ids).symm
  cases write with
  | insertRequest request =>
    simp only [Write.apply] at h
    split at h
    · cases h
    · rename_i hfresh
      obtain rfl := Except.ok.inj h
      exact ⟨keys_set_none hfresh, hnone, hnone⟩
  | insertRun run =>
    simp only [Write.apply] at h
    split at h
    · cases h
    · rename_i hfresh
      obtain rfl := Except.ok.inj h
      exact ⟨hnone, keys_set_none hfresh, hnone⟩
  | insertExecution execution =>
    simp only [Write.apply] at h
    split at h
    · rename_i hfresh _
      obtain rfl := Except.ok.inj h
      exact ⟨hnone, hnone, keys_set_none hfresh⟩
    · cases h
  | insertArtifact artifact =>
    simp only [Write.apply] at h
    split at h
    · cases h
    · obtain rfl := Except.ok.inj h
      exact ⟨hnone, hnone, hnone⟩
  | updateRequest loaded current =>
    simp only [Write.apply] at h
    split at h
    · cases h
    · rename_i stored hstored
      obtain rfl := Except.ok.inj h
      exact ⟨(keys_set_some hstored).trans hnone, hnone, hnone⟩
  | updateRun loaded current =>
    simp only [Write.apply] at h
    split at h
    · cases h
    rename_i stored hstored
    split at h
    · obtain rfl := Except.ok.inj h
      exact ⟨hnone, (keys_set_some hstored).trans hnone, hnone⟩
    · cases h
  | updateExecution loaded current =>
    simp only [Write.apply] at h
    split at h
    · cases h
    rename_i stored hstored
    split at h
    · obtain rfl := Except.ok.inj h
      exact ⟨hnone, hnone, (keys_set_some hstored).trans hnone⟩
    · cases h
  | updateAccount loaded current =>
    simp only [Write.apply] at h
    split at h
    · cases h
    split at h
    · obtain rfl := Except.ok.inj h
      exact ⟨hnone, hnone, hnone⟩
    · cases h
  | updateReservation current =>
    simp only [Write.apply] at h
    split at h
    · cases h
    · obtain rfl := Except.ok.inj h
      exact ⟨hnone, hnone, hnone⟩

end

/-! ## 3. Flushes -/

section

variable {db db' : Database} {unitOfWork : UnitOfWork}

theorem foldlM_spec {writes : List Write} (h : writes.foldlM Write.apply db = .ok db') :
    Retains db db' ∧ Adds writes db db' := by
  induction writes generalizing db with
  | nil =>
    obtain rfl := Except.ok.inj h
    exact ⟨.refl db, (List.append_nil _).symm, (List.append_nil _).symm, (List.append_nil _).symm⟩
  | cons write writes ih =>
    rw [List.foldlM_cons] at h
    cases hwrite : write.apply db with
    | error error =>
      rw [hwrite] at h
      cases h
    | ok middle =>
      rw [hwrite] at h
      obtain ⟨hgrows, hadds⟩ := ih h
      have hfirst := adds_apply hwrite
      have hsplit : ∀ f : Write → Option UUID,
          (write :: writes).filterMap f = [write].filterMap f ++ writes.filterMap f := by
        intro f
        show ([write] ++ writes).filterMap f = _
        rw [List.filterMap_append]
      refine ⟨(grows_apply hwrite).trans hgrows, ?_, ?_, ?_⟩
      · rw [hadds.requests, hfirst.requests, hsplit, List.append_assoc]
      · rw [hadds.runs, hfirst.runs, hsplit, List.append_assoc]
      · rw [hadds.executions, hfirst.executions, hsplit, List.append_assoc]

theorem flush_spec (h : unitOfWork.flush db = .ok db') :
    Retains db db' ∧ Adds unitOfWork.writes db db' := by
  unfold UnitOfWork.flush at h
  cases hwrites : unitOfWork.writes.foldlM Write.apply db with
  | error error =>
    rw [hwrites] at h
    cases h
  | ok written =>
    rw [hwrites] at h
    obtain rfl := Except.ok.inj h
    obtain ⟨hgrows, hadds⟩ := foldlM_spec hwrites
    exact ⟨⟨fun hdb => ⟨(hgrows.identified hdb).request, (hgrows.identified hdb).run,
      (hgrows.identified hdb).execution⟩, hgrows.projects, hgrows.request, hgrows.run,
      hgrows.execution⟩, ⟨hadds.requests, hadds.runs, hadds.executions⟩⟩

end

end JbOrchestrator.Infrastructure
