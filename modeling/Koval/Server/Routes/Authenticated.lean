import Koval.Server.Routes.Refusals

/-!
This module contains what the routes do with requests that authentication lets through.
-/

namespace Koval

open Prog

variable (ext : Crates) (settings : Settings) (ambient : Ambient)

/-- Authentication takes the request for one of the token, within its limit. -/
def AuthenticatesAs (s : State) (token : Token) : Prop :=
  ∃ secret,
    bearerToken ambient.authorization = some secret
      ∧
    (authenticateAndRateLimit ext secret ambient.now settings.rateLimitLimit (ambient.faults 0)
      s.db).fst = .ok token

variable {ext : Crates} {settings : Settings} {ambient : Ambient} {s : State} {token : Token}

theorem AuthenticatesAs.runAlone_bind (h : AuthenticatesAs ext settings ambient s token)
    (refuse : AuthError → Response) (next : String × Token → Handler Response)
    : ∃ secret rateLimit,
        (authenticate ext settings ambient refuse >>= next).respond.runAlone s
          =
        (next (secret, token)).respond.runAlone { s with db := { s.db with rateLimit } } := by
  rcases h with ⟨secret, hbearer, hok⟩
  have hrun : (authenticate ext settings ambient refuse).run.runAlone s
      = (.ok (secret, token), { s with
          db := (authenticateAndRateLimit ext secret ambient.now settings.rateLimitLimit
            (ambient.faults 0) s.db).snd }) := by
    unfold authenticate
    rw [hbearer]
    dsimp only
    rw [runAlone_bindExcept]
    change Prog.runAlone _ _ = _
    dsimp only
    rw [hok]
    rfl
  refine ⟨secret, (authenticateAndRateLimit ext secret ambient.now settings.rateLimitLimit
    (ambient.faults 0) s.db).snd.rateLimit, ?_⟩
  rw [authenticateAndRateLimit.db_eq] at hrun
  unfold Handler.respond
  rw [Prog.runAlone_bind, runAlone_bindExcept, hrun, Prog.runAlone_bind]

theorem AuthenticatesAs.mem_tokens (h : AuthenticatesAs ext settings ambient s token)
    : token ∈ s.db.tokens.rows := by
  rcases h with ⟨secret, _, hok⟩
  have ⟨hmatched, _⟩ := authenticate_eq_ok hok
  exact (List.mem_filter.mp (List.mem_of_find?_eq_some hmatched)).left

theorem runAlone_lockDb_bind {α : Type} (faults : Faults Stmt) (program : DbM α)
    (next : Except SqlError α → Handler Response) (s : State)
    : Prog.runAlone (Handler.respond (ExceptT.lift (lockDb faults program) >>= next)) s
        =
      (next (program.run faults s.db).fst).respond.runAlone
        { s with db := (program.run faults s.db).snd } := by
  unfold Handler.respond
  rw [Prog.runAlone_bind, runAlone_bindExcept, Prog.runAlone_bind]
  rfl

theorem runAlone_query_bind {α : Type} (faults : Faults Stmt) (tag : Stmt) (select : Db → α)
    (next : Except SqlError α → Handler Response) (s : State)
    : Prog.runAlone (Handler.respond (ExceptT.lift (lockDb faults (Sql.query tag select)) >>= next)) s
        =
      (next (match faults tag with
        | some msg => .error (.failure msg)
        | none => .ok (select s.db))).respond.runAlone s := by
  rw [runAlone_lockDb_bind]
  have hdb : ((Sql.query tag select).run faults s.db).snd = s.db :=
    Sql.keeps_query id tag select faults s.db
  rw [hdb]
  unfold Sql.run Sql.query
  cases faults tag <;> rfl

end Koval
