import Koval.Conc.Always
import Koval.Server.StepLemmas

/-!
This module contains what almost all steps leave as it is: the tokens, the profiles, the artifacts,
the optimization jobs and the deliveries.
-/

namespace Koval

def State.deliveries (s : State) : List (WebhookPayload × List (String × String)) :=
  s.effects.filterMap fun
    | .deliver payload webhooks => some (payload, webhooks)
    | _ => none

-- AUTOINCREMENT gives no id below one that a row has had.
def Db.CountsWebhooks (db : Db) : Prop := ∀ row ∈ db.webhooks.rows, row.id ≤ db.lastWebhookId

/-- The rest of the tables may change, and requests may be counted for tokens that are there. -/
structure Db.Spares (db db' : Db) : Prop where
  tokens : db'.tokens = db.tokens
  lastTokenId : db'.lastTokenId = db.lastTokenId
  rates : ∀ row ∈ db'.rateLimit.rows,
    (∃ row' ∈ db.rateLimit.rows, row'.tokenId = row.tokenId) ∨ db.tokens.contains row.tokenId
  optimizes : ∀ row ∈ db'.jobs.rows, row.jobType = .pgoOptimize →
    ∃ row' ∈ db.jobs.rows, row'.submitted = row.submitted
  pgoProfiles : db'.pgoProfiles = db.pgoProfiles
  artifacts : db'.artifacts = db.artifacts
  buildCache : db'.buildCache = db.buildCache
  counts : db.CountsWebhooks → db'.CountsWebhooks

structure Spares (s s' : State) : Prop where
  db : s.db.Spares s'.db
  deliveries : s'.deliveries = s.deliveries

namespace Db

theorem spares_refl (db : Db) : db.Spares db where
  tokens := rfl
  lastTokenId := rfl
  rates row hrow := .inl ⟨row, hrow, rfl⟩
  optimizes row hrow _ := ⟨row, hrow, rfl⟩
  pgoProfiles := rfl
  artifacts := rfl
  buildCache := rfl
  counts := id

theorem Spares.trans (db db' db'' : Db) (h : db.Spares db') (h' : db'.Spares db'')
    : db.Spares db'' where
  tokens := h'.tokens.trans h.tokens
  lastTokenId := h'.lastTokenId.trans h.lastTokenId
  rates := by
    intro row hrow
    rcases h'.rates row hrow with ⟨row', hrow', hid⟩ | hcontains
    . rw [← hid]
      exact h.rates row' hrow'
    . rw [h.tokens] at hcontains
      exact .inr hcontains
  optimizes := by
    intro row hrow htype
    rcases h'.optimizes row hrow htype with ⟨row', hrow', hsubmitted⟩
    have htype' : row'.jobType = .pgoOptimize := (congrArg JobRow.jobType hsubmitted).trans htype
    rcases h.optimizes row' hrow' htype' with ⟨row'', hrow'', hsubmitted'⟩
    exact ⟨row'', hrow'', hsubmitted'.trans hsubmitted⟩
  pgoProfiles := h'.pgoProfiles.trans h.pgoProfiles
  artifacts := h'.artifacts.trans h.artifacts
  buildCache := h'.buildCache.trans h.buildCache
  counts := h'.counts ∘ h.counts

theorem id_deactivate (tokenId : Int) (row : WebhookRow)
    : (if row.tokenId = tokenId then { row with isActive := false } else row).id = row.id := by
  split <;> rfl

def deactivated (db : Db) (id tokenId : Int) : Db :=
  { db with
    webhooks := db.webhooks.updateKey id
      (fun row => if row.tokenId = tokenId then { row with isActive := false } else row)
      (id_deactivate tokenId) }

theorem rows_deactivated (db : Db) (id tokenId : Int)
    : (db.deactivated id tokenId).webhooks.rows
        =
      db.webhooks.rows.map fun row =>
        if row.id = id ∧ row.tokenId = tokenId then { row with isActive := false } else row := by
  apply List.map_congr_left
  intro row _
  dsimp only
  rw [ite_and]

theorem counts_of_insert? {db : Db} {row : WebhookRow} {webhooks : Table WebhookRow.id}
    (h : db.CountsWebhooks) (hinsert : db.webhooks.insert? row = some webhooks)
    (hid : row.id = db.lastWebhookId + 1)
    : { db with webhooks, lastWebhookId := db.lastWebhookId + 1 }.CountsWebhooks := by
  intro row' hrow'
  change row' ∈ webhooks.rows at hrow'
  change row'.id ≤ db.lastWebhookId + 1
  rw [Table.rows_of_insert? hinsert, List.mem_append, List.mem_singleton] at hrow'
  rcases hrow' with hrow' | rfl
  . have := h row' hrow'
    omega
  . omega

theorem counts_deactivated {db : Db} (h : db.CountsWebhooks) (id tokenId : Int)
    : (db.deactivated id tokenId).CountsWebhooks := by
  intro row hrow
  rw [rows_deactivated, List.mem_map] at hrow
  rcases hrow with ⟨old, hold, rfl⟩
  have := h old hold
  split <;> exact this

theorem moves_insertWebhook (tokenId : Int) (url secret createdAt : String)
    : Sql.Moves Spares (insertWebhook tokenId url secret createdAt) := by
  apply Sql.Moves.bind Spares.trans
  . apply Sql.moves_execute spares_refl
    intro db db' h
    rcases inserted_eq_ok h with ⟨webhooks, hinsert, rfl⟩
    exact { db.spares_refl with counts := fun hcounts => counts_of_insert? hcounts hinsert rfl }
  . intro _
    exact Sql.moves_query spares_refl _ _

theorem moves_deactivateWebhook (id tokenId : Int)
    : Sql.Moves Spares (deactivateWebhook id tokenId) := by
  apply Sql.moves_execute spares_refl
  intro db db' h
  split at h
  . injection h with h
    rw [← h]
    exact { db.spares_refl with counts := fun hcounts => counts_deactivated hcounts _ _ }
  . contradiction

theorem moves_pruneRateLimits (beforeWindow : String)
    : Sql.Moves Spares (pruneRateLimits beforeWindow) := by
  apply Sql.moves_execute spares_refl
  intro db db' h
  injection h with h
  rw [← h]
  refine { db.spares_refl with rates := ?_ }
  intro row hrow
  exact .inl ⟨row, (List.mem_filter.mp hrow).left, rfl⟩

theorem moves_incrementRateLimit (tokenId : Int) (windowStart : String)
    : Sql.Moves Spares (incrementRateLimit tokenId windowStart) := by
  apply Sql.moves_execute spares_refl
  intro db db' h
  split at h
  . next hcontains =>
    injection h with h
    rw [← h]
    refine { db.spares_refl with rates := ?_ }
    intro row hrow
    rcases Table.exists_of_mem_upsert hrow with rfl | ⟨old, hold, rfl | rfl⟩
    . exact .inr hcontains
    . exact .inl ⟨row, hold, rfl⟩
    . exact .inl ⟨old, hold, rfl⟩
  . contradiction

theorem moves_updateJobStatus (id : String) (status : Status)
    (startedAt finishedAt errorMsg : Option String)
    : Sql.Moves Spares (updateJobStatus id status startedAt finishedAt errorMsg) := by
  apply Sql.moves_execute spares_refl
  intro db db' h
  injection h with h
  rw [← h]
  refine { db.spares_refl with optimizes := ?_ }
  intro row hrow _
  rcases Table.exists_of_mem_updateKey (JobRow.id_setStatus _ _ _ _) hrow with ⟨old, hold, hrow⟩
  refine ⟨old, hold, ?_⟩
  rw [hrow]
  split <;> rfl

end Db

open Prog

variable {α : Type}

theorem spares_refl (s : State) : Spares s s := ⟨s.db.spares_refl, rfl⟩

theorem spares_runDb {program : DbM α} (h : Sql.Moves Db.Spares program) (faults : Faults Stmt)
    (s : State)
    : Spares s (s.runDb faults program).snd :=
  ⟨h faults s.db, rfl⟩

theorem spares_lockDb {program : DbM α} (h : Sql.Moves Db.Spares program) (faults : Faults Stmt)
    : Always Spares (lockDb faults program) := by
  apply always_atomic
  intro s
  exact spares_runDb h faults s

def Effect.IsLocal (effect : Effect) : Prop :=
  match effect with
  | run _ | createDirAll _ | removeDirAll _ => True
  | deliver _ _ => False

theorem deliveries_perform {effect : Effect} (h : effect.IsLocal) (s : State)
    : (s.perform effect).deliveries = s.deliveries := by
  unfold State.deliveries State.perform
  cases effect with
  | deliver payload webhooks => contradiction
  | run | createDirAll | removeDirAll => rfl

structure Still (s s' : State) : Prop extends Spares s s' where
  core : s'.core = s.core

theorem still_perform {effect : Effect} (h : effect.IsLocal) : Always Still (perform effect) := by
  apply always_atomic
  intro s
  exact ⟨⟨s.db.spares_refl, deliveries_perform h s⟩, rfl⟩

theorem still_lockDb {program : DbM α} (hjobs : Sql.Keeps Db.jobView program)
    (h : Sql.Moves Db.Spares program) (faults : Faults Stmt)
    : Always Still (lockDb faults program) := by
  apply always_atomic
  intro s
  exact ⟨spares_runDb h faults s, core_of_runDb hjobs rfl⟩

theorem moves_reading {program : DbM α} (h : Sql.Keeps id program) : Sql.Moves Db.Spares program := by
  intro faults db
  have hdb : (program.run faults db).snd = db := h faults db
  rw [hdb]
  exact db.spares_refl

theorem still_reading {program : DbM α} (h : Sql.Keeps id program) (faults : Faults Stmt)
    : Always Still (lockDb faults program) := by
  have hjobs : Sql.Keeps Db.jobView program := by
    intro faults db
    exact congrArg Db.jobView (h faults db)
  exact still_lockDb hjobs (moves_reading h) faults

end Koval
