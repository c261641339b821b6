import Koval.Server.AdminToken

/-!
This module contains how the routes turn away requests that authentication does not let through.
-/

namespace Koval

open Prog

namespace authenticateAndRateLimit

variable {ext : Crates} {rawToken : String} {now : DateTime} {limit : Nat} {faults : Faults Stmt}
variable {db : Db}

theorem eq_invalidToken (hactive : faults .getActiveTokens = none)
    (hunknown : ∀ token ∈ db.tokens.rows, token.isActive → verify ext rawToken token.tokenHash = false)
    : (authenticateAndRateLimit ext rawToken now limit faults db).fst = .error .invalidToken := by
  have hmatched : matchedToken ext rawToken (db.tokens.rows.filter (·.isActive)) = none := by
    unfold matchedToken
    rw [List.find?_eq_none]
    intro token htoken
    rw [List.mem_filter] at htoken
    rw [hunknown token htoken.left htoken.right]
    exact Bool.false_ne_true
  unfold authenticateAndRateLimit go
  rw [Sql.run_bind, Db.getActiveTokens, Sql.run_query_of_none hactive]
  simp only [hmatched]
  rfl

theorem eq_rateLimitExceeded {token : Token}
    (hmatched : matchedToken ext rawToken (db.tokens.rows.filter (·.isActive)) = some token)
    (hactive : faults .getActiveTokens = none) (hprune : faults .pruneRateLimits = none)
    (hcount : faults .getSlidingWindowCount = none)
    (hfull : limit ≤ currentRequests ⟨token.id, now⟩ db)
    : (authenticateAndRateLimit ext rawToken now limit faults db).fst
        = .error .rateLimitExceeded := by
  have hmem := List.mem_of_find?_eq_some hmatched
  rw [List.mem_filter] at hmem
  have hrun : (go ext rawToken now limit).run faults db
      = (.ok (.error .rateLimitExceeded), { db with rateLimit := prunedTable now db }) := by
    unfold go
    rw [Sql.run_bind, Db.getActiveTokens, Sql.run_query_of_none hactive]
    simp only [hmatched, hmem.right, Bool.not_true, Bool.false_eq_true, ite_false]
    rw [Sql.run_bind, Db.pruneRateLimits, Sql.run_execute_of_none hprune]
    dsimp only
    rw [Sql.run_bind, Db.getSlidingWindowCount, Sql.run_query_of_none hcount]
    dsimp only
    change (if currentRequests ⟨token.id, now⟩ db ≥ limit then _ else _ : DbM _).run _ _ = _
    rw [if_pos hfull]
    rfl
  unfold authenticateAndRateLimit
  rw [hrun]

theorem keeps_go {γ : Type} {view : Db → γ}
    (hview : ∀ db rateLimit, view { db with rateLimit } = view db)
    : Sql.Keeps view (go ext rawToken now limit) := by
  unfold go
  apply Sql.Keeps.bind (Sql.keeps_query _ _ _)
  intro activeTokens
  split
  . exact Sql.keeps_pure _ _
  . split
    . exact Sql.keeps_pure _ _
    . apply Sql.Keeps.bind
      . apply Sql.keeps_execute
        intro db db' hchange
        injection hchange with hchange
        rw [← hchange]
        exact hview _ _
      . intro _
        apply Sql.Keeps.bind (Sql.keeps_query _ _ _)
        intro currentRequests
        split
        . exact Sql.keeps_pure _ _
        . apply Sql.Keeps.bind
          . apply Sql.keeps_execute
            intro db db' hchange
            split at hchange
            . injection hchange with hchange
              rw [← hchange]
              exact hview _ _
            . contradiction
          . intro _
            exact Sql.keeps_pure _ _

theorem db_eq (db : Db)
    : (authenticateAndRateLimit ext rawToken now limit faults db).snd
        =
      { db with
        rateLimit := (authenticateAndRateLimit ext rawToken now limit faults db).snd.rateLimit } := by
  have h := @keeps_go ext rawToken now limit Db (fun db => { db with rateLimit := .empty })
    (fun _ _ => rfl) faults db
  have hsnd : (authenticateAndRateLimit ext rawToken now limit faults db).snd
      = ((go ext rawToken now limit).run faults db).snd := by
    unfold authenticateAndRateLimit
    split
    . next hrun => rw [hrun]
    . next hrun => rw [hrun]
  rw [hsnd]
  generalize ((go ext rawToken now limit).run faults db).snd = db' at h ⊢
  exact congrArg (fun old : Db => { old with rateLimit := db'.rateLimit }) h

end authenticateAndRateLimit

variable (ext : Crates) (settings : Settings) (ambient : Ambient)

/-- Why authentication does not let a request through, and the status that says so. -/
inductive Refused (s : State) : StatusCode → Prop where
  | bearer (hbearer : bearerToken ambient.authorization = none) : Refused s .unauthorized
  | unknown {secret : String} (hbearer : bearerToken ambient.authorization = some secret)
    (hactive : ambient.faults 0 .getActiveTokens = none)
    (hunknown : ∀ token ∈ s.db.tokens.rows, token.isActive →
      verify ext secret token.tokenHash = false) : Refused s .unauthorized
  | full {secret : String} {token : Token}
    (hbearer : bearerToken ambient.authorization = some secret)
    (hmatched : authenticateAndRateLimit.matchedToken ext secret
      (s.db.tokens.rows.filter (·.isActive)) = some token)
    (hactive : ambient.faults 0 .getActiveTokens = none)
    (hprune : ambient.faults 0 .pruneRateLimits = none)
    (hcount : ambient.faults 0 .getSlidingWindowCount = none)
    (hfull : settings.rateLimitLimit
      ≤ authenticateAndRateLimit.currentRequests ⟨token.id, ambient.now⟩ s.db) :
    Refused s .tooManyRequests
  | database {secret msg : String} (hbearer : bearerToken ambient.authorization = some secret)
    (herror : (authenticateAndRateLimit ext secret ambient.now settings.rateLimitLimit
      (ambient.faults 0) s.db).fst = .error (.databaseError msg)) :
    Refused s .internalServerError

/-- The routes whose handlers tell the errors of authentication apart. -/
def Request.tellsCause (request : Request) : Bool :=
  match request with
  | .build _ | .forgeInstall .. | .uploadProfiles .. | .status _ | .binary _ => true
  | _ => false

def AuthError.status (err : AuthError) : StatusCode :=
  match err with
  | .invalidToken | .inactiveToken => .unauthorized
  | .rateLimitExceeded => .tooManyRequests
  | .databaseError _ => .internalServerError

def Request.refuse (request : Request) : AuthError → Response :=
  match request with
  | .build _ | .forgeInstall .. | .uploadProfiles .. | .status _ | .binary _ => refuseByCause
  | .getMergedProfile _ => refuseAll
  | _ => refuseByText

variable {ext : Crates} {settings : Settings} {ambient : Ambient} {request : Request} {s : State}
variable {status : StatusCode}

theorem runAlone_authenticate_none {refuse : AuthError → Response}
    (hbearer : bearerToken ambient.authorization = none)
    : (authenticate ext settings ambient refuse).run.runAlone s
        = (.error (.text .unauthorized "Missing or invalid authorization header"), s) := by
  unfold authenticate
  rw [hbearer]
  rfl

theorem runAlone_authenticate_error {refuse : AuthError → Response} {secret : String}
    {err : AuthError} (hbearer : bearerToken ambient.authorization = some secret)
    (herror : (authenticateAndRateLimit ext secret ambient.now settings.rateLimitLimit
      (ambient.faults 0) s.db).fst = .error err)
    : (authenticate ext settings ambient refuse).run.runAlone s
        =
      (.error (refuse err), { s with
        db := (authenticateAndRateLimit ext secret ambient.now settings.rateLimitLimit
          (ambient.faults 0) s.db).snd }) := by
  unfold authenticate
  rw [hbearer]
  dsimp only
  rw [runAlone_bindExcept]
  change Prog.runAlone _ _ = _
  dsimp only
  rw [herror]
  rfl

theorem runAlone_bindExcept_error {α β : Type} {prog : Handler α} {next : α → Handler β}
    {response : Response} {s' : State} (h : prog.run.runAlone s = (.error response, s'))
    : (prog >>= next).run.runAlone s = (.error response, s') := by
  rw [runAlone_bindExcept, h]

theorem runAlone_route_error {response : Response} {s' : State}
    (h : (authenticate ext settings ambient request.refuse).run.runAlone s = (.error response, s'))
    : (route ext settings request ambient).run.runAlone s = (.error response, s') := by
  cases request with
  | createToken => exact runAlone_bindExcept_error (runAlone_bindExcept_error h)
  | listTokens => exact runAlone_bindExcept_error (runAlone_bindExcept_error h)
  | deleteToken => exact runAlone_bindExcept_error (runAlone_bindExcept_error h)
  | _ => exact runAlone_bindExcept_error h

theorem runAlone_respond_error {handler : Handler Response} {response : Response} {s' : State}
    (h : handler.run.runAlone s = (.error response, s'))
    : handler.respond.runAlone s = (response, s') := by
  unfold Handler.respond
  rw [runAlone_bind, h]
  rfl

theorem Refused.outcome (h : Refused ext settings ambient s status)
    : bearerToken ambient.authorization = none ∧ status = .unauthorized
        ∨
      ∃ secret err,
        bearerToken ambient.authorization = some secret
          ∧
        (authenticateAndRateLimit ext secret ambient.now settings.rateLimitLimit (ambient.faults 0)
          s.db).fst = .error err
          ∧
        status = err.status := by
  cases h with
  | bearer hbearer => exact .inl ⟨hbearer, rfl⟩
  | unknown hbearer hactive hunknown =>
    exact .inr ⟨_, _, hbearer, authenticateAndRateLimit.eq_invalidToken hactive hunknown, rfl⟩
  | full hbearer hmatched hactive hprune hcount hfull =>
    exact .inr ⟨_, _, hbearer,
      authenticateAndRateLimit.eq_rateLimitExceeded hmatched hactive hprune hcount hfull, rfl⟩
  | database hbearer herror => exact .inr ⟨_, _, hbearer, herror, rfl⟩

theorem status_refuse (request : Request) (err : AuthError)
    : (request.refuse err).status = if request.tellsCause then err.status else .unauthorized := by
  cases request <;> cases err <;> rfl

theorem runAlone_route_of_refused (request : Request) (h : Refused ext settings ambient s status)
    : let (response, s') := (route ext settings request ambient).respond.runAlone s
      response.status = (if request.tellsCause then status else .unauthorized)
        ∧
      s' = { s with db := { s.db with rateLimit := s'.db.rateLimit } } := by
  rcases h.outcome with ⟨hbearer, rfl⟩ | ⟨secret, err, hbearer, herror, rfl⟩
  . have hnone : (authenticate ext settings ambient request.refuse).run.runAlone s = _ :=
      runAlone_authenticate_none hbearer
    have hrun := runAlone_route_error hnone
    rw [runAlone_respond_error hrun]
    exact ⟨(ite_self _).symm, rfl⟩
  . have hauth : (authenticate ext settings ambient request.refuse).run.runAlone s = _ :=
      runAlone_authenticate_error hbearer herror
    have hrun := runAlone_route_error hauth
    rw [runAlone_respond_error hrun]
    refine ⟨status_refuse request err, ?_⟩
    dsimp only
    rw [← authenticateAndRateLimit.db_eq]

/--
All that a refusal changes is what authentication counts. It has the status of its cause iff the
route tells the causes apart, or the cause is neither a full window nor an error of the database.
-/
theorem refused_with_status_iff (ext : Crates) (settings : Settings) (ambient : Ambient)
    (request : Request) (s : State)
    : ((∀ status, Refused ext settings ambient s status →
          ((route ext settings request ambient).respond.runAlone s).fst.status = status)
        ↔
      request.tellsCause
        ∨ ¬Refused ext settings ambient s .tooManyRequests
          ∧ ¬Refused ext settings ambient s .internalServerError)
        ∧
      ∀ status, Refused ext settings ambient s status →
        ∃ rateLimit,
          ((route ext settings request ambient).respond.runAlone s).snd
            = { s with db := { s.db with rateLimit } } := by
  refine ⟨⟨?_, ?_⟩, ?_⟩
  . intro hstatus
    cases htells : request.tellsCause with
    | true => exact .inl rfl
    | false =>
      have hnot : ∀ status, Refused ext settings ambient s status → .unauthorized = status := by
        intro status h
        have hrun := (runAlone_route_of_refused request h).left
        rw [htells, hstatus status h] at hrun
        exact hrun.symm
      refine .inr ⟨fun h => ?_, fun h => ?_⟩
      . exact absurd (hnot _ h) (by decide)
      . exact absurd (hnot _ h) (by decide)
  . rintro htells status h
    have hrun := (runAlone_route_of_refused request h).left
    rcases htells with htells | ⟨hfull, hdatabase⟩
    . rw [htells] at hrun
      exact hrun
    . cases h with
      | bearer | unknown => exact hrun.trans (ite_self _)
      | full => exact absurd (Refused.full ‹_› ‹_› ‹_› ‹_› ‹_› ‹_›) hfull
      | database => exact absurd (Refused.database ‹_› ‹_›) hdatabase
  . intro status h
    exact ⟨_, (runAlone_route_of_refused request h).right⟩

namespace Samples

def busyAlice : State := {
  db := { aliceAndBob with
    rateLimit := ⟨[⟨1, "2026-05-17T16:53:00.500Z", 20⟩], by decide⟩ }
  queue := .new 10
}

theorem busyAlice_refused
    : Refused github.crates Samples.settings (Samples.ambient "") busyAlice .tooManyRequests := by
  apply @Refused.full _ _ _ _ "alice-token" (busyAlice.db.tokens.rows.head (by decide))
  all_goals decide

end Samples

theorem refused_with_status_iff_status
    : ((route Samples.github.crates Samples.settings (.status "") (Samples.ambient "")).respond.runAlone
        Samples.busyAlice).fst.status = .tooManyRequests :=
  (refused_with_status_iff Samples.github.crates Samples.settings (Samples.ambient "") (.status "")
    Samples.busyAlice).left.mpr (.inl rfl) _ Samples.busyAlice_refused

theorem refused_with_wrong_status
    : ¬ ∀ (ext : Crates) (settings : Settings) (ambient : Ambient) (request : Request) (s : State)
        (status : StatusCode),
      Refused ext settings ambient s status →
        ((route ext settings request ambient).respond.runAlone s).fst.status = status := by
  intro h
  have := h _ _ _ .listJobs _ _ Samples.busyAlice_refused
  exact absurd this (by decide)

end Koval
