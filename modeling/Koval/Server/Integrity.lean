import Koval.Server.SystemWrites
import Koval.Sql.Rows

/-!
This module contains what holds of the rows of all tables in every state that the server reaches, and
what no later state takes back.
-/

namespace Koval
namespace Db

variable {crates : Crates} {settings : Settings} {db db' db'' : Db}

/-- Rows are never taken away, but for counted requests, and keep what makes them up. -/
structure Lasts (db db' : Db) : Prop where
  tokens : ∀ id row, db.tokens.find? id = some row →
    ∃ row', db'.tokens.find? id = some row' ∧ (row'.isActive → row.isActive)
      ∧ { row' with isActive := row.isActive } = row
  jobs : ∀ id row, db.jobs.find? id = some row →
    ∃ row', db'.jobs.find? id = some row' ∧ row'.submitted = row.submitted
  pgoProfiles : ∀ id row, db.pgoProfiles.find? id = some row →
    ∃ row', db'.pgoProfiles.find? id = some row' ∧ (row.mergedPath.isSome → row'.mergedPath.isSome)
      ∧ { row' with mergedPath := row.mergedPath } = row
  artifacts : ∀ id, db.artifacts.contains id → db'.artifacts.contains id
  webhooks : ∀ id row, db.webhooks.find? id = some row →
    ∃ row', db'.webhooks.find? id = some row' ∧ (row'.isActive → row.isActive)
      ∧ { row' with isActive := row.isActive } = row
  buildCache : ∀ cacheKey, db.buildCache.contains cacheKey → db'.buildCache.contains cacheKey
  lastTokenId : db.lastTokenId ≤ db'.lastTokenId
  lastWebhookId : db.lastWebhookId ≤ db'.lastWebhookId

theorem lasts_refl (db : Db) : db.Lasts db where
  tokens _ row hrow := ⟨row, hrow, id, rfl⟩
  jobs _ row hrow := ⟨row, hrow, rfl⟩
  pgoProfiles _ row hrow := ⟨row, hrow, id, rfl⟩
  artifacts _ := id
  webhooks _ row hrow := ⟨row, hrow, id, rfl⟩
  buildCache _ := id
  lastTokenId := le_refl _
  lastWebhookId := le_refl _

theorem Lasts.trans (h : db.Lasts db') (h' : db'.Lasts db'') : db.Lasts db'' where
  tokens := by
    intro id row hrow
    rcases h.tokens id row hrow with ⟨row', hrow', hactive, heq⟩
    rcases h'.tokens id row' hrow' with ⟨row'', hrow'', hactive', heq'⟩
    refine ⟨row'', hrow'', hactive ∘ hactive', ?_⟩
    rw [← heq, ← heq']
  jobs := by
    intro id row hrow
    rcases h.jobs id row hrow with ⟨row', hrow', heq⟩
    rcases h'.jobs id row' hrow' with ⟨row'', hrow'', heq'⟩
    exact ⟨row'', hrow'', heq'.trans heq⟩
  pgoProfiles := by
    intro id row hrow
    rcases h.pgoProfiles id row hrow with ⟨row', hrow', hmerged, heq⟩
    rcases h'.pgoProfiles id row' hrow' with ⟨row'', hrow'', hmerged', heq'⟩
    refine ⟨row'', hrow'', hmerged' ∘ hmerged, ?_⟩
    rw [← heq, ← heq']
  artifacts id := h'.artifacts id ∘ h.artifacts id
  webhooks := by
    intro id row hrow
    rcases h.webhooks id row hrow with ⟨row', hrow', hactive, heq⟩
    rcases h'.webhooks id row' hrow' with ⟨row'', hrow'', hactive', heq'⟩
    refine ⟨row'', hrow'', hactive ∘ hactive', ?_⟩
    rw [← heq, ← heq']
  buildCache cacheKey := h'.buildCache cacheKey ∘ h.buildCache cacheKey
  lastTokenId := h.lastTokenId.trans h'.lastTokenId
  lastWebhookId := h.lastWebhookId.trans h'.lastWebhookId

theorem Write.lasts (h : Write crates settings db db') : db.Lasts db' := by
  have hrefl := db.lasts_refl
  cases h with
  | insertToken _ _ hinsert =>
    refine { hrefl with tokens := ?_, lastTokenId := by dsimp only; omega }
    intro id row hrow
    exact ⟨row, Table.find?_of_insert?_of_some hinsert hrow, fun h => h, rfl⟩
  | revokeToken id =>
    refine { hrefl with tokens := ?_ }
    intro id' row hrow
    refine ⟨_, Table.find?_updateKey_of_some (by intro row; rfl) hrow, ?_, ?_⟩
    . split
      . intro h
        contradiction
      . exact fun h => h
    . split <;> rfl
  | insertJob _ _ hinsert =>
    refine { hrefl with jobs := ?_ }
    intro id row hrow
    exact ⟨row, Table.find?_of_insert?_of_some hinsert hrow, rfl⟩
  | updateJobStatus id status errorMsg hstarted hfinished =>
    refine { hrefl with jobs := ?_ }
    intro id' row hrow
    refine ⟨_, Table.find?_updateKey_of_some (by intro row; rfl) hrow, ?_⟩
    split <;> rfl
  | insertPgoProfile _ hinsert =>
    refine { hrefl with pgoProfiles := ?_ }
    intro id row hrow
    exact ⟨row, Table.find?_of_insert?_of_some hinsert hrow, fun h => h, rfl⟩
  | updatePgoMergedPath id mergedPath =>
    refine { hrefl with pgoProfiles := ?_ }
    intro id' row hrow
    refine ⟨_, Table.find?_updateKey_of_some (by intro row; rfl) hrow, ?_, ?_⟩
    . split
      . exact fun _ => rfl
      . exact fun h => h
    . split <;> rfl
  | insertArtifact _ fileSize content =>
    exact { hrefl with artifacts := fun _ => Table.contains_replace }
  | insertCacheEntry _ now =>
    exact { hrefl with buildCache := fun _ => Table.contains_replace }
  | incrementRateLimit _ now => exact { hrefl with }
  | pruneRateLimits beforeWindow => exact { hrefl with }
  | insertWebhook _ hinsert =>
    refine { hrefl with webhooks := ?_, lastWebhookId := by dsimp only; omega }
    intro id row hrow
    exact ⟨row, Table.find?_of_insert?_of_some hinsert hrow, fun h => h, rfl⟩
  | deactivateWebhook id tokenId =>
    refine { hrefl with webhooks := ?_ }
    intro id' row hrow
    refine ⟨_, Table.find?_updateKey_of_some (id_deactivate tokenId) hrow, ?_, ?_⟩
    . split
      . split
        . intro h
          contradiction
        . exact fun h => h
      . exact fun h => h
    . split
      . split <;> rfl
      . rfl

theorem Writes.lasts (h : db.Writes crates settings db') : db.Lasts db' :=
  h.relates lasts_refl (fun _ _ _ => Lasts.trans) fun _ _ => Write.lasts

theorem Lasts.contains_tokens (h : db.Lasts db') {id : Int} (hid : db.tokens.contains id)
    : db'.tokens.contains id := by
  rw [Table.contains_iff] at hid ⊢
  rcases hid with ⟨row, hrow⟩
  rcases h.tokens id row hrow with ⟨row', hrow', _⟩
  exact ⟨row', hrow'⟩

theorem Lasts.contains_jobs (h : db.Lasts db') {id : String} (hid : db.jobs.contains id)
    : db'.jobs.contains id := by
  rw [Table.contains_iff] at hid ⊢
  rcases hid with ⟨row, hrow⟩
  rcases h.jobs id row hrow with ⟨row', hrow', _⟩
  exact ⟨row', hrow'⟩

/-- The rows are such as the server writes, and what they refer to is there in `all`. -/
structure IsSoundIn (crates : Crates) (settings : Settings) (all db : Db) : Prop where
  tokens : ∀ row ∈ db.tokens.rows, (0 < row.id ∧ row.id ≤ all.lastTokenId)
    ∧ (∃ salt plaintext, crates.bcryptHash salt plaintext = .ok row.tokenHash)
    ∧ ∃ now : DateTime, row.createdAt = now.toRfc3339
  tokenHashes : (db.tokens.rows.map (·.tokenHash)).Nodup
  jobs : ∀ row ∈ db.jobs.rows, all.tokens.contains row.tokenId
    ∧ (∀ id, row.pgoSourceJobId = some id → all.jobs.contains id)
    ∧ (∃ hardware, row.hardwareJson = hardwareJson crates hardware)
    ∧ (∃ now : DateTime, row.queuedAt = now.toRfc3339)
    ∧ IsTime row.startedAt ∧ IsTime row.finishedAt
  pgoProfiles : ∀ row ∈ db.pgoProfiles.rows, all.jobs.contains row.instrumentJobId
    ∧ row.profilesDir = (profilesDir settings row.instrumentJobId).display
    ∧ ∃ now : DateTime, row.createdAt = now.toRfc3339
  artifacts : ∀ row ∈ db.artifacts.rows, all.jobs.contains row.jobId
    ∧ row.filePath = (settings.artifactsDir.join (.ofString (row.jobId ++ ".tar.gz"))).display
    ∧ ∃ content, row.sha256 = crates.sha256 content
  rateLimit : ∀ row ∈ db.rateLimit.rows, all.tokens.contains row.tokenId
    ∧ 0 < row.requestCount
    ∧ ∃ now : DateTime, row.windowStart = now.toRfc3339Millis
  webhooks : ∀ row ∈ db.webhooks.rows, all.tokens.contains row.tokenId
    ∧ (0 < row.id ∧ row.id ≤ all.lastWebhookId)
    ∧ ∃ now : DateTime, row.createdAt = now.toRfc3339
  buildCache : ∀ row ∈ db.buildCache.rows, all.jobs.contains row.jobId
    ∧ (∃ tuple : BuildTuple, row.cacheKey = tuple.cacheKey crates)
    ∧ ∃ now : DateTime, row.createdAt = now.toRfc3339
  lastTokenId : 0 ≤ all.lastTokenId
  lastWebhookId : 0 ≤ all.lastWebhookId

def IsSound (crates : Crates) (settings : Settings) (db : Db) : Prop := db.IsSoundIn crates settings db

theorem isSound_empty : IsSound crates settings {} := by
  constructor <;> first | exact List.nodup_nil | exact le_refl _ | (intro row hrow; contradiction)

theorem IsSoundIn.lasts {all all' : Db} (h : all.IsSoundIn crates settings db)
    (hlasts : all.Lasts all')
    : all'.IsSoundIn crates settings db where
  tokens := by
    intro row hrow
    have ⟨⟨hpos, hle⟩, hrest⟩ := h.tokens row hrow
    exact ⟨⟨hpos, hle.trans hlasts.lastTokenId⟩, hrest⟩
  tokenHashes := h.tokenHashes
  jobs := by
    intro row hrow
    have ⟨htoken, hsource, hrest⟩ := h.jobs row hrow
    exact ⟨hlasts.contains_tokens htoken, fun id hid => hlasts.contains_jobs (hsource id hid), hrest⟩
  pgoProfiles := by
    intro row hrow
    have ⟨hjob, hrest⟩ := h.pgoProfiles row hrow
    exact ⟨hlasts.contains_jobs hjob, hrest⟩
  artifacts := by
    intro row hrow
    have ⟨hjob, hrest⟩ := h.artifacts row hrow
    exact ⟨hlasts.contains_jobs hjob, hrest⟩
  rateLimit := by
    intro row hrow
    have ⟨htoken, hrest⟩ := h.rateLimit row hrow
    exact ⟨hlasts.contains_tokens htoken, hrest⟩
  webhooks := by
    intro row hrow
    have ⟨htoken, ⟨hpos, hle⟩, hrest⟩ := h.webhooks row hrow
    exact ⟨hlasts.contains_tokens htoken, ⟨hpos, hle.trans hlasts.lastWebhookId⟩, hrest⟩
  buildCache := by
    intro row hrow
    have ⟨hjob, hrest⟩ := h.buildCache row hrow
    exact ⟨hlasts.contains_jobs hjob, hrest⟩
  lastTokenId := h.lastTokenId.trans hlasts.lastTokenId
  lastWebhookId := h.lastWebhookId.trans hlasts.lastWebhookId

theorem Write.isSound (h : Write crates settings db db') (hdb : db.IsSound crates settings)
    : db'.IsSound crates settings := by
  have hlasts := h.lasts
  have hold : db'.IsSoundIn crates settings db := IsSoundIn.lasts hdb hlasts
  cases h with
  | @insertToken salt plaintext _ _ now _ hhash hunique hinsert =>
    refine { hold with tokens := ?_, tokenHashes := ?_ }
    . apply Table.forall_of_insert? hinsert hold.tokens
      have hlast := hdb.lastTokenId
      refine ⟨⟨?_, le_refl _⟩, ⟨salt, plaintext, hhash⟩, now, rfl⟩
      dsimp only
      omega
    . dsimp only
      rw [Table.rows_of_insert? hinsert, List.map_append, List.nodup_append']
      refine ⟨hdb.tokenHashes, List.nodup_singleton _, ?_⟩
      intro tokenHash hmem hnew
      rw [List.mem_map] at hmem
      rcases hmem with ⟨token, htoken, rfl⟩
      exact hunique token htoken (List.mem_singleton.mp hnew)
  | revokeToken id =>
    refine { hold with tokens := ?_, tokenHashes := ?_ }
    . exact Table.forall_updateKey (by intro row; rfl) hold.tokens fun _ h => h
    . have hhashes : (db.tokens.updateKey id (fun row => { row with isActive := false })
          (by intro row; rfl)).rows.map (·.tokenHash) = db.tokens.rows.map (·.tokenHash) := by
        unfold Table.updateKey
        rw [Table.rows_update, List.map_map]
        apply List.map_congr_left
        intro row _
        dsimp only [Function.comp]
        split <;> rfl
      dsimp only
      rw [hhashes]
      exact hdb.tokenHashes
  | @insertJob job now _ htoken hsource hinsert =>
    refine { hold with jobs := Table.forall_of_insert? hinsert hold.jobs ?_ }
    refine ⟨htoken, ?_, ⟨job.hardware, rfl⟩, ⟨now, rfl⟩, isTime_none, isTime_none⟩
    intro id hid
    rcases hsource id hid with hjob | rfl
    . exact Table.contains_of_insert? hinsert hjob
    . exact Table.contains_key_of_insert? hinsert
  | updateJobStatus id status errorMsg hstarted hfinished =>
    refine { hold with
      jobs := Table.forall_updateKey (JobRow.id_setStatus _ _ _ _) hold.jobs ?_ }
    rintro row ⟨htoken, hsource, hhardware, hqueued, hbefore, _⟩
    exact ⟨htoken, hsource, hhardware, hqueued, isTime_orElse hstarted hbefore, hfinished⟩
  | @insertPgoProfile instrumentJobId now _ hjob hinsert =>
    exact { hold with
      pgoProfiles := Table.forall_of_insert? hinsert hold.pgoProfiles ⟨hjob, rfl, now, rfl⟩ }
  | updatePgoMergedPath id mergedPath =>
    exact { hold with
      pgoProfiles := Table.forall_updateKey (by intro row; rfl) hold.pgoProfiles fun _ h => h }
  | insertArtifact hjob fileSize content =>
    exact { hold with
      artifacts := Table.forall_replace hold.artifacts ⟨hjob, rfl, content, rfl⟩ }
  | @insertCacheEntry job hjob now =>
    exact { hold with
      buildCache := Table.forall_replace hold.buildCache ⟨hjob, ⟨job.tuple, rfl⟩, now, rfl⟩ }
  | incrementRateLimit htoken now =>
    refine { hold with rateLimit := Table.forall_upsert hold.rateLimit ?_ ?_ }
    . exact ⟨htoken, Nat.one_pos, now, rfl⟩
    . rintro row ⟨htoken, _, hnow⟩
      exact ⟨htoken, Nat.succ_pos _, hnow⟩
  | pruneRateLimits beforeWindow =>
    refine { hold with rateLimit := ?_ }
    intro row hrow
    exact hold.rateLimit row (List.mem_filter.mp hrow).left
  | @insertWebhook tokenId _ _ now _ htoken hinsert =>
    refine { hold with webhooks := Table.forall_of_insert? hinsert hold.webhooks ?_ }
    have hlast := hdb.lastWebhookId
    refine ⟨htoken, ⟨?_, le_refl _⟩, now, rfl⟩
    dsimp only
    omega
  | deactivateWebhook id tokenId =>
    refine { hold with webhooks := Table.forall_updateKey (id_deactivate tokenId) hold.webhooks ?_ }
    intro row h
    split <;> exact h

end Db

variable {crates : Crates} {settings : Settings}

theorem System.Reachable.isSound {system : System} (h : system.Reachable crates settings)
    : system.state.db.IsSound crates settings :=
  h.writes.left.preserves (fun _ _ => Db.Write.isSound) Db.isSound_empty

end Koval
