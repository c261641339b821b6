import Koval.Server.Worker.ProcessJobLemmas

/-!
This module contains what the steps of the workers leave as it is.
-/

namespace Koval
namespace processJob

open Prog

variable {crates : Crates} {settings : Settings} {externals : Externals} {job : Job} {α : Type}
  {R : State → State → Prop}

theorem works_of_always {prog : Worker α} (h : Always R prog.run)
    : Works (fun (_ : Unit) s _ s' => R s s') (fun _ _ => True) () prog := by
  apply (h.follows fun _ _ hstep => hstep).weaken
  intro _ res _
  cases res with
  | ok a => rfl
  | error outcome => trivial

theorem always_tryDb (res : Except SqlError α) : Always R (tryDb res).run := by
  unfold tryDb
  split
  . exact always_pure _
  . exact always_throw _

section Db

variable (hspares : ∀ s s' : State, s.db.Spares s'.db → R s s')
include hspares

theorem always_runDb {program : DbM α} (h : Sql.Moves Db.Spares program) (faults : Faults Stmt)
    : Always R (lockDb faults program) :=
  (spares_lockDb h faults).mono fun _ _ h => hspares _ _ h.db

theorem always_perform (effect : Effect) : Always R (perform effect) := by
  apply always_atomic
  intro s
  exact hspares _ _ s.db.spares_refl

theorem always_deliver (payload : WebhookPayload) (webhooks : List (String × String))
    : Always R (deliver payload webhooks) := by
  unfold deliver
  split
  . exact always_pure _
  . exact always_perform hspares _

theorem always_start : Always R (start settings externals job).run := by
  unfold start
  apply Always.bindExcept (always_runDb hspares (Db.moves_updateJobStatus _ _ _ _ _) _).liftExcept
  intro res
  apply Always.bindExcept (always_tryDb res)
  intro _
  split
  . exact (always_perform hspares _).liftExcept
  . exact always_pure _

theorem always_failJob (errMsg : String)
    : Always R (failJob settings externals job errMsg : Worker α).run := by
  unfold failJob
  apply Always.bindExcept (always_runDb hspares (Sql.moves_query Db.spares_refl _ _) _).liftExcept
  intro webhooks
  apply Always.bindExcept (always_runDb hspares (Db.moves_updateJobStatus _ _ _ _ _) _).liftExcept
  intro res
  apply Always.bindExcept (always_tryDb res)
  intro _
  apply Always.bindExcept (always_perform hspares _).liftExcept
  intro _
  apply Always.bindExcept (always_deliver hspares _ _).liftExcept
  intro _
  exact always_throw _

theorem always_processJob
    (hgo : ∀ s s' fileSize sha256,
      s'.db = ((complete.go crates settings job externals.finished.toRfc3339 fileSize sha256).run
        (externals.faults 3) s.db).snd → R s s')
    : Always R (processJob crates settings externals job) := by
  have rules : Rules settings externals job (fun (_ : Unit) s _ s' => R s s') (fun _ _ => True) () := by
    constructor
    . intro s s' h
      exact hspares _ _ h.db
    . intro _ _
      trivial
    . intro _ errMsg _
      exact works_of_always (always_failJob hspares errMsg)
  apply Follows.always
  apply follows_processJob_of rules
  . apply rules.works_rustflags
    intro _ errMsg _
    exact works_of_always (always_failJob hspares errMsg)
  . exact works_of_always (always_start hspares)
  . intro fileSize sha256
    apply works_of_always
    unfold complete
    apply Always.bindExcept (always_runDb hspares (Sql.moves_query Db.spares_refl _ _) _).liftExcept
    intro webhooks
    apply Always.bindExcept
    . apply Always.liftExcept
      apply always_atomic
      intro s
      apply hgo s _ fileSize sha256
      dsimp only
      split <;> rfl
    . intro res
      apply Always.bindExcept (always_tryDb res)
      intro _
      exact (always_deliver hspares _ _).liftExcept
  . intro s s' h
    exact hspares _ _ h.db
  . trivial

end Db

end processJob
end Koval
