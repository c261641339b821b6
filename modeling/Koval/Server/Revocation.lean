import Koval.Server.TokenLemmas

/-!
This module contains when a revoked token stays revoked.
-/

namespace Koval

def Label.revokes? (label : Label) : Option Int :=
  match label with
  | handler (.deleteToken id) _ => some id
  | _ => none

-- The UUID that comes with the action, if any, is another one.
def Action.AvoidsUuid (uuid : String) (action : Action) : Prop :=
  match action with
  | request _ ambient => ambient.uuid ≠ uuid
  | restart boot => boot.uuid ≠ uuid
  | _ => True

variable {crates : Crates} {settings : Settings} {secret : String} {id : Int} {i : Nat}
  {system system' : System}

/-- A step of `DELETE /tokens/{id}` that revokes the one token with the secret. -/
structure Revokes (crates : Crates) (settings : Settings) (secret : String) (id : Int) (i : Nat)
    (system system' : System) : Prop where
  step : system.step crates settings (.run i) = some system'
  label : (system.threads[i]?.bind fun thread => thread.label.revokes?) = some id
  held : ∃ token ∈ system.state.db.tokens.rows,
    token.id = id ∧ token.isActive ∧ verify crates secret token.tokenHash
  only : ∀ token ∈ system.state.db.tokens.rows,
    token.isActive → verify crates secret token.tokenHash → token.id = id
  revoked : ∀ token ∈ system'.state.db.tokens.rows, token.id = id → token.isActive = false

structure Gone (crates : Crates) (secret : String) (system : System) : Prop where
  deeds : Pool.AllAlways (Deed crates) system.threads
  tokens : ¬ system.state.db.Admits crates secret
  mints : system.MintsOther secret

theorem Gone.step (hexact : crates.HashesExactly) {action : Action} (h : Gone crates secret system)
    (hstep : system.step crates settings action = some system') (hfresh : action.AvoidsUuid secret)
    (hrestart : ∀ boot, action = .restart boot → boot.adminToken = some secret →
      ∃ token ∈ system.state.db.tokens.rows, token.isActive)
    : Gone crates secret system' := by
  have ⟨hturn, hdeeds⟩ := turn_of_step h.deeds hstep
  refine ⟨hdeeds, ?_, ?_⟩
  . rintro ⟨token, htoken, hactive, hverify⟩
    cases hturn.origin htoken with
    | row hold hid hhash hsame =>
      rw [hsame hactive] at hold
      exact h.tokens ⟨token, hold, hactive, hverify⟩
    | minted _ hthread hdone hmints _ hhash =>
      rw [hexact _ _ _ hhash] at hverify
      rw [← hverify] at hmints
      exact h.mints _ (List.mem_of_getElem? hthread) hdone hmints
    | @booted boot haction hnone _ hhash =>
      rw [hexact _ _ _ hhash] at hverify
      rw [haction] at hfresh
      cases hadmin : boot.adminToken with
      | none =>
        rw [hadmin] at hverify
        exact hfresh hverify.symm
      | some plaintext =>
        rw [hadmin] at hverify
        have hverify : secret = plaintext := hverify
        rw [← hverify] at hadmin
        rcases hrestart boot haction hadmin with ⟨old, hold, holdActive⟩
        rw [hnone old hold] at holdActive
        contradiction
  . apply h.mints.step hstep
    rintro payload ambient rfl
    exact hfresh

theorem Revokes.gone (h : Revokes crates settings secret id i system system')
    (hreachable : system.Reachable crates settings) (hmints : system'.MintsOther secret)
    : Gone crates secret system' := by
  have ⟨hturn, hdeeds⟩ := turn_of_step hreachable.allAlways h.step
  refine ⟨hdeeds, ?_, hmints⟩
  rintro ⟨token, htoken, hactive, hverify⟩
  cases hturn.origin htoken with
  | row hold hid hhash hsame =>
    rw [hsame hactive] at hold
    have hinactive := h.revoked token htoken (h.only token hold hactive hverify)
    rw [hinactive] at hactive
    contradiction
  | @minted j thread _ _ haction hthread _ hmints =>
    injection haction with haction
    have hlabel := h.label
    rw [haction, hthread, Option.bind_some] at hlabel
    unfold Label.revokes? at hlabel
    split at hlabel
    . next heq =>
      rw [heq] at hmints
      contradiction
    . contradiction
  | booted haction => contradiction

/--
A token that has been revoked is never accepted again, provided that no restart finds all tokens
revoked and this one in its environment.
-/
theorem System.Reachable.revoked_for_good (hexact : crates.HashesExactly)
    (hreachable : system.Reachable crates settings)
    (hrevokes : Revokes crates settings secret id i system system')
    (hmints : system'.MintsOther secret)
    {actions : List Action} {later : System}
    (hrun : Machine.run (System.step crates settings) system' actions = some later)
    (hfresh : ∀ action ∈ actions, action.AvoidsUuid secret)
    (hrestarts : ∀ t boot t',
      (t, .restart boot, t') ∈ Machine.transitions (System.step crates settings) system' actions →
        boot.adminToken = some secret → ∃ token ∈ t.state.db.tokens.rows, token.isActive)
    : ∀ now limit faults token,
        (authenticateAndRateLimit crates secret now limit faults later.state.db).fst ≠ .ok token := by
  have hgone : Gone crates secret later := by
    apply Machine.invariant_of_transitions _ (hrevokes.gone hreachable hmints) hrun
    intro t action t' hmem h
    apply h.step hexact (Machine.step_of_mem_transitions hmem)
    . rcases Machine.mem_transitions_iff.mp hmem with ⟨before, after, heq, _⟩
      apply hfresh
      rw [heq]
      simp
    . rintro boot rfl
      exact hrestarts t boot t' hmem
  intro now limit faults token hok
  exact hgone.tokens (Db.admits_of_authenticate hok)

namespace Samples

theorem exists_of_revoked (actions : List Action) (i : Nat) (id : Int) (secret : String)
    (actions' : List Action) (Q : System → Prop) [DecidablePred Q]
    (h : ((main salted Samples.settings adminBoot (.empty Samples.settings)).bind fun system =>
        Machine.run (System.step salted Samples.settings) system actions).any fun system =>
      (system.step salted Samples.settings (.run i)).any fun system' =>
        ((system.threads[i]?.bind fun thread => thread.label.revokes?) = some id
          ∧ (∃ token ∈ system.state.db.tokens.rows,
              token.id = id ∧ token.isActive ∧ verify salted secret token.tokenHash)
          ∧ (∀ token ∈ system.state.db.tokens.rows,
              token.isActive → verify salted secret token.tokenHash → token.id = id)
          ∧ (∀ token ∈ system'.state.db.tokens.rows, token.id = id → token.isActive = false)
          ∧ (∀ thread ∈ system'.threads, thread.prog.isDone = false →
              thread.label.mints? ≠ some secret) : Bool)
        && (Machine.run (System.step salted Samples.settings) system' actions').any fun later => Q later)
    : ∃ system system' later,
        system.Reachable salted Samples.settings
          ∧
        Revokes salted Samples.settings secret id i system system'
          ∧
        system'.MintsOther secret
          ∧
        Machine.run (System.step salted Samples.settings) system' actions' = some later
          ∧
        Q later := by
  rw [Option.any_eq_true] at h
  rcases h with ⟨system, hsystem, h⟩
  rw [Option.bind_eq_some_iff] at hsystem
  rcases hsystem with ⟨system₀, hmain, hrun⟩
  rw [Option.any_eq_true] at h
  rcases h with ⟨system', hstep, h⟩
  rw [Bool.and_eq_true, decide_eq_true_eq, Option.any_eq_true] at h
  rcases h with ⟨⟨hlabel, hheld, honly, hrevoked, hmints⟩, later, hlater, hQ⟩
  exact ⟨system, system', later, ⟨adminBoot, system₀, actions, hmain, hrun⟩,
    ⟨hstep, hlabel, hheld, honly, hrevoked⟩, hmints, hlater, of_decide_eq_true hQ⟩

end Samples

theorem System.Reachable.revoked_for_good_minted
    : ∃ later : System,
        later.state.db.tokens.rows.length = 2
          ∧
        ∀ now limit faults token,
          (authenticateAndRateLimit Samples.salted "8b7a3c52-1f60-4b0e-9a41-5d2f3f9e6c10" now limit
            faults later.state.db).fst ≠ .ok token := by
  rcases Samples.exists_of_revoked
      [.request (.createToken ⟨"ci"⟩) (Samples.adminAmbient "8b7a3c52-1f60-4b0e-9a41-5d2f3f9e6c10"),
        .run 0, .run 0, .request (.deleteToken 2) (Samples.adminAmbient "4c1e"), .run 1]
      1 2 "8b7a3c52-1f60-4b0e-9a41-5d2f3f9e6c10" [.restart Samples.adminBoot]
      (fun later => later.state.db.tokens.rows.length = 2) (by decide +kernel) with
    ⟨system, system', later, hreachable, hrevokes, hmints, hrun, hlength⟩
  refine ⟨later, hlength, ?_⟩
  apply System.Reachable.revoked_for_good Samples.salted_hashesExactly hreachable hrevokes hmints hrun
  . intro action haction
    rw [List.mem_singleton] at haction
    rw [haction]
    change Samples.adminBoot.uuid ≠ _
    decide
  . intro t boot t' hmem hadmin
    rcases Machine.mem_transitions_iff.mp hmem with ⟨before, after, heq, _⟩
    have hboot : Action.restart boot ∈ [Action.restart Samples.adminBoot] := by
      rw [heq]
      simp
    rw [List.mem_singleton] at hboot
    injection hboot with hboot
    rw [hboot] at hadmin
    contradiction

/-- The token from the environment is back after a restart, if it was the last one. -/
theorem revoked_comes_back
    : ¬ ∀ crates settings system system' i id secret actions later,
        crates.HashesExactly →
        System.Reachable crates settings system →
        Revokes crates settings secret id i system system' →
        system'.MintsOther secret →
        Machine.run (System.step crates settings) system' actions = some later →
        (∀ action ∈ actions, action.AvoidsUuid secret) →
          ∀ now limit faults token,
            (authenticateAndRateLimit crates secret now limit faults later.state.db).fst
              ≠ .ok token := by
  intro hall
  rcases Samples.exists_of_revoked
      [.request (.deleteToken 1) (Samples.adminAmbient "4c1e"), .run 0] 0 1 adminToken
      [.restart { Samples.adminBoot with salt := "zyxwvutsrqponmlkjihgfe" }]
      (fun later =>
        (authenticateAndRateLimit Samples.salted adminToken (Samples.time 60) 20 .none
          later.state.db).fst.isOk)
      (by decide +kernel) with
    ⟨system, system', later, hreachable, hrevokes, hmints, hrun, hok⟩
  cases hres : (authenticateAndRateLimit Samples.salted adminToken (Samples.time 60) 20 .none
      later.state.db).fst with
  | error err =>
    rw [hres] at hok
    contradiction
  | ok token =>
    apply hall _ _ _ _ _ _ _ _ _ Samples.salted_hashesExactly hreachable hrevokes hmints hrun _
      _ _ _ _ hres
    intro action haction
    rw [List.mem_singleton] at haction
    rw [haction]
    change Samples.adminBoot.uuid ≠ _
    decide

end Koval
