import Koval.Log.SlidingWindow
import Koval.Server.Auth
import Koval.Server.DbLemmas
import Koval.Server.Samples

namespace Koval

-- A request that showed a valid token.
structure AuthCall where
  tokenId : Int
  now : DateTime
  deriving DecidableEq, Repr

def AuthCall.window : SlidingWindow AuthCall Int Int where
  key := AuthCall.tokenId
  time call := call.now.floorMillis
  since call := (call.now.minusSeconds 60).floorMillis

namespace authenticateAndRateLimit

open SlidingWindow AuthCall

/-- The table holds, summed up by millisecond, what the log has not forgotten. -/
structure Refines (db : Db) (log : List (Decided AuthCall)) : Prop where
  inRange : ∀ call ∈ window.survivors log, call.now.InRange
  sum_eq : ∀ p : Int × String → Bool,
    db.rateLimit.sum (·.requestCount) p
      =
    (window.survivors log).countP fun call => p (call.tokenId, call.now.toRfc3339Millis)

theorem refines_nil {db : Db} (h : db.rateLimit = .empty) : Refines db [] where
  inRange := by
    intro call hcall
    contradiction
  sum_eq := by
    intro p
    rw [h]
    rfl

theorem lt_since_iff {now now' : DateTime} (h : now.InRange) (h' : now'.InRange)
    : now'.toRfc3339Millis < (now.minusSeconds 60).toRfc3339
        ↔
      now'.floorMillis < (now.minusSeconds 60).floorMillis := by
  apply DateTime.toRfc3339Millis_lt_toRfc3339_iff h'
  have := h.right
  unfold DateTime.minusSeconds DateTime.seconds at *
  dsimp
  omega

theorem since_le_iff {now now' : DateTime} (h : now.InRange) (h' : now'.InRange)
    : (now.minusSeconds 60).toRfc3339 ≤ now'.toRfc3339Millis
        ↔
      (now.minusSeconds 60).floorMillis ≤ now'.floorMillis := by
  rw [← not_lt, ← not_lt, lt_since_iff h h']

def prunedTable (now : DateTime) (db : Db) : Table RateLimitRow.key :=
  db.rateLimit.filter fun row => !decide (row.windowStart < (now.minusSeconds 60).toRfc3339)

def currentRequests (call : AuthCall) (db : Db) : Nat :=
  (prunedTable call.now db).sum (·.requestCount) fun (id, windowStart) =>
    id = call.tokenId && windowStart ≥ (call.now.minusSeconds 60).toRfc3339

def countedTable (call : AuthCall) (db : Db) : Table RateLimitRow.key :=
  (prunedTable call.now db).upsert ⟨call.tokenId, call.now.toRfc3339Millis, 1⟩
    RateLimitRow.increment RateLimitRow.key_increment

theorem sum_countedTable (call : AuthCall) (db : Db) (p : Int × String → Bool)
    : (countedTable call db).sum (·.requestCount) p
        =
      (prunedTable call.now db).sum (·.requestCount) p
        + if p (call.tokenId, call.now.toRfc3339Millis) then 1 else 0 := by
  apply Table.sum_upsert
  intro row
  rfl

section

variable {db : Db} {log : List (Decided AuthCall)} (h : Refines db log)
variable {call : AuthCall} (hcall : call.now.InRange)

include h hcall

theorem sum_prunedTable (p : Int × String → Bool)
    : (prunedTable call.now db).sum (·.requestCount) p
        =
      ((window.survivors log).filter fun old => window.since call ≤ window.time old).countP
        fun old => p (old.tokenId, old.now.toRfc3339Millis) := by
  have hsum := db.rateLimit.sum_filter (·.requestCount)
    (fun (_, windowStart) => !decide (windowStart < (call.now.minusSeconds 60).toRfc3339)) p
  unfold prunedTable
  rw [List.countP_filter]
  apply hsum.trans
  rw [h.sum_eq]
  apply List.countP_congr
  intro old hold
  have hiff := lt_since_iff hcall (h.inRange old hold)
  simp only [Bool.and_eq_true, Bool.not_eq_true', decide_eq_false_iff_not, hiff, not_lt,
    decide_eq_true_eq]
  exact And.comm

theorem currentRequests_eq : currentRequests call db = window.survivingCount log call := by
  unfold currentRequests survivingCount
  rw [sum_prunedTable h hcall, List.countP_filter]
  apply List.countP_congr
  intro old hold
  have hiff := since_le_iff hcall (h.inRange old hold)
  simp only [Bool.and_eq_true, decide_eq_true_eq, ge_iff_le, hiff]
  unfold Hits
  constructor
  . rintro ⟨hhits, _⟩
    exact hhits
  . intro hhits
    exact ⟨hhits, hhits.right⟩

theorem refines_pruned {db' : Db} (hdb : db'.rateLimit = prunedTable call.now db)
    : Refines db' (log ++ [⟨call, false⟩]) where
  inRange := by
    intro old hold
    simp only [survivors_append_singleton, List.mem_append, List.mem_filter] at hold
    apply h.inRange
    simp at hold
    exact hold.left
  sum_eq := by
    intro p
    rw [hdb, sum_prunedTable h hcall, survivors_append_singleton]
    simp

theorem refines_counted {db' : Db} (hdb : db'.rateLimit = countedTable call db)
    : Refines db' (log ++ [⟨call, true⟩]) where
  inRange := by
    intro old hold
    simp only [survivors_append_singleton, List.mem_append, List.mem_filter, ite_true,
      List.mem_singleton] at hold
    cases hold with
    | inl hold => exact h.inRange old hold.left
    | inr hold =>
      rw [hold]
      exact hcall
  sum_eq := by
    intro p
    rw [hdb, sum_countedTable, sum_prunedTable h hcall, survivors_append_singleton,
      List.countP_append]
    simp

end

theorem run_go_none {ext : Crates} {rawToken : String} {now : DateTime} {limit : Nat} {db : Db}
    (hmatched : matchedToken ext rawToken (db.tokens.rows.filter (·.isActive)) = none)
    : (go ext rawToken now limit).run .none db = (.ok (.error .invalidToken), db) := by
  unfold go
  rw [Sql.run_bind, Db.run_getActiveTokens]
  simp only [hmatched]
  rfl

theorem run_go_some {ext : Crates} {rawToken : String} {now : DateTime} {limit : Nat} {db : Db}
    {token : Token}
    (hmatched : matchedToken ext rawToken (db.tokens.rows.filter (·.isActive)) = some token)
    : (go ext rawToken now limit).run .none db
        =
      if currentRequests ⟨token.id, now⟩ db < limit then
        (.ok (.ok token), { db with rateLimit := countedTable ⟨token.id, now⟩ db })
      else
        (.ok (.error .rateLimitExceeded), { db with rateLimit := prunedTable now db }) := by
  have hmem := List.mem_of_find?_eq_some hmatched
  rw [List.mem_filter] at hmem
  have hcontains : db.tokens.contains token.id := by
    unfold Table.contains
    rw [Table.find?_of_mem hmem.left]
    rfl
  unfold go
  rw [Sql.run_bind, Db.run_getActiveTokens]
  simp only [hmatched, hmem.right, Bool.not_true, Bool.false_eq_true, ite_false]
  rw [Sql.run_bind, Db.run_pruneRateLimits]
  dsimp only
  rw [Sql.run_bind, Db.run_getSlidingWindowCount]
  dsimp only
  change (if currentRequests ⟨token.id, now⟩ db ≥ limit then _ else _ : DbM _).run _ _ = _
  split
  . next hge =>
    rw [if_neg (Nat.not_lt.mpr hge)]
    rfl
  . next hlt =>
    rw [if_pos (Nat.not_le.mp hlt), Sql.run_bind, Db.run_incrementRateLimit]
    . rfl
    . exact hcontains

theorem step_refines {ext : Crates} {rawToken : String} {now : DateTime} (limit : Nat) {db : Db}
    {log : List (Decided AuthCall)} (h : Refines db log) (hnow : now.InRange) {token : Token}
    (hmatched : matchedToken ext rawToken (db.tokens.rows.filter (·.isActive)) = some token)
    : ∃ db', authenticateAndRateLimit ext rawToken now limit .none db
          = (if window.survivingCount log ⟨token.id, now⟩ < limit then .ok token
             else .error .rateLimitExceeded, db')
        ∧ db'.tokens = db.tokens
        ∧ Refines db'
            (log ++ [⟨⟨token.id, now⟩, window.survivingCount log ⟨token.id, now⟩ < limit⟩]) := by
  unfold authenticateAndRateLimit
  rw [run_go_some hmatched, ← currentRequests_eq h hnow]
  by_cases hlt : currentRequests ⟨token.id, now⟩ db < limit
  . rw [decide_eq_true hlt, if_pos hlt, if_pos hlt]
    exact ⟨_, rfl, rfl, refines_counted h hnow rfl⟩
  . rw [decide_eq_false hlt, if_neg hlt, if_neg hlt]
    exact ⟨_, rfl, rfl, refines_pruned h hnow rfl⟩

end authenticateAndRateLimit

end Koval
