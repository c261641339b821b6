import Koval.Server.AuthLemmas
import Koval.Server.Revocation

/-!
This module contains when the token that the start of the server inserts opens the routes for tokens.
-/

namespace Koval

open Prog

/-- The two checks that the routes for tokens make on the token of a request. -/
def passesAdmin (crates : Crates) (settings : Settings) (tokenStr : String) (now : DateTime)
    (faults : Faults Stmt) (db : Db) : Bool :=
  (authenticateAndRateLimit crates tokenStr now settings.rateLimitLimit faults db).fst.isOk
    && tokenStr = adminToken

-- What a process that has ended, or none yet, has left.
def State.IsLeft (crates : Crates) (settings : Settings) (s : State) : Prop :=
  s = .empty settings ∨ ∃ system : System, system.Reachable crates settings ∧ system.state = s

/--
In every run, the secret passes as long as the token with the id is active and within its limit, and
no other secret that is minted does.
-/
def IsAdminToken (crates : Crates) (settings : Settings) (system₀ : System) (id : Int)
    (secret : String) : Prop :=
  ∀ actions system,
    Machine.run (System.step crates settings) system₀ actions = some system →
    (∀ payload ambient, .request (.createToken payload) ambient ∈ actions →
      ambient.uuid ≠ secret) →
      (∀ now,
        (∃ token ∈ system.state.db.tokens.rows, token.id = id ∧ token.isActive) →
        authenticateAndRateLimit.currentRequests ⟨id, now⟩ system.state.db < settings.rateLimitLimit →
          passesAdmin crates settings secret now .none system.state.db)
        ∧
      (∀ payload ambient, .request (.createToken payload) ambient ∈ actions →
        ∀ now faults, !passesAdmin crates settings ambient.uuid now faults system.state.db)

variable {crates : Crates} {settings : Settings} {system system' : System}

theorem runAlone_authenticate {ambient : Ambient} {tokenStr : String}
    (h : bearerToken ambient.authorization = some tokenStr) (refuse : AuthError → Response) (s : State)
    : ((authenticate crates settings ambient refuse).run.runAlone s).fst
        =
      match (authenticateAndRateLimit crates tokenStr ambient.now settings.rateLimitLimit
        (ambient.faults 0) s.db).fst with
      | .ok token => .ok (tokenStr, token)
      | .error err => .error (refuse err) := by
  unfold authenticate
  rw [h]
  dsimp only
  rw [runAlone_bindExcept]
  change (Prog.runAlone _ _).fst = _
  dsimp only
  cases (authenticateAndRateLimit crates tokenStr ambient.now settings.rateLimitLimit
      (ambient.faults 0) s.db).fst <;> rfl

theorem isOk_authenticateAdmin {ambient : Ambient} {tokenStr : String}
    (h : bearerToken ambient.authorization = some tokenStr) (s : State)
    : ((authenticateAdmin crates settings ambient).run.runAlone s).fst.isOk
        =
      passesAdmin crates settings tokenStr ambient.now (ambient.faults 0) s.db := by
  have hauth := @runAlone_authenticate crates settings ambient tokenStr h refuseByText s
  unfold authenticateAdmin passesAdmin
  rw [runAlone_bindExcept]
  cases hrun : (authenticate crates settings ambient refuseByText).run.runAlone s with
  | mk res s' =>
    rw [hrun] at hauth
    cases hres : (authenticateAndRateLimit crates tokenStr ambient.now settings.rateLimitLimit
        (ambient.faults 0) s.db).fst with
    | error err =>
      rw [hres] at hauth
      have hauth : res = .error (refuseByText err) := hauth
      rw [hauth]
      rfl
    | ok token =>
      rw [hres] at hauth
      have hauth : res = .ok (tokenStr, token) := hauth
      rw [hauth]
      dsimp only
      by_cases htoken : tokenStr = adminToken
      . rw [decide_eq_true htoken, if_neg (not_not.mpr htoken)]
        rfl
      . rw [decide_eq_false htoken, if_pos htoken]
        rfl

theorem snd_authenticateAdmin (ambient : Ambient) (s : State)
    : ((authenticateAdmin crates settings ambient).run.runAlone s).snd.db.tokens = s.db.tokens := by
  have hstill : Always (fun s s' : State => s'.db.tokens = s.db.tokens)
      (authenticateAdmin crates settings ambient).run := by
    apply Always.bindExcept ((still_authenticate _).mono fun _ _ h => h.db.tokens)
    rintro ⟨tokenStr, token⟩
    dsimp only
    split
    . exact always_throw _
    . exact always_pure _
  have hends := @ends_runAlone State _ (fun s s' => s'.db.tokens = s.db.tokens) (fun _ => rfl)
    (authenticateAdmin crates settings ambient).run s
  exact hstill.ends (fun _ _ _ h h' => h'.trans h) (fun _ _ h => h) hends

theorem tokens_of_authenticateAdmin {ambient : Ambient} {tokenStr : String} {s : State}
    (hbearer : bearerToken ambient.authorization = some tokenStr)
    (hpass : passesAdmin crates settings tokenStr ambient.now (ambient.faults 0) s.db = false)
    (next : Handler Response)
    : ((do authenticateAdmin crates settings ambient
           next : Handler Response).respond.runAlone s).snd.db.tokens = s.db.tokens := by
  have hok := @isOk_authenticateAdmin crates settings ambient tokenStr hbearer s
  have htokens := @snd_authenticateAdmin crates settings ambient s
  rw [hpass] at hok
  unfold Handler.respond
  rw [runAlone_bind, runAlone_bindExcept]
  cases hrun : (authenticateAdmin crates settings ambient).run.runAlone s with
  | mk res s' =>
    rw [hrun] at hok htokens
    cases res with
    | ok _ => contradiction
    | error response => exact htokens

/-- With a secret that does not pass, tokens are neither created nor revoked. -/
theorem tokens_of_not_passesAdmin {ambient : Ambient} {tokenStr : String} {s : State}
    (hbearer : bearerToken ambient.authorization = some tokenStr)
    (hpass : passesAdmin crates settings tokenStr ambient.now (ambient.faults 0) s.db = false)
    : (∀ payload, ((route crates settings (.createToken payload) ambient).respond.runAlone
          s).snd.db.tokens = s.db.tokens)
        ∧
      ∀ id, ((route crates settings (.deleteToken id) ambient).respond.runAlone s).snd.db.tokens
        = s.db.tokens :=
  ⟨fun _ => tokens_of_authenticateAdmin hbearer hpass _,
    fun _ => tokens_of_authenticateAdmin hbearer hpass _⟩

def Db.CountsTokens (db : Db) : Prop :=
  ∀ row ∈ db.rateLimit.rows, db.tokens.contains row.tokenId

theorem Boots.rateLimit_eq {boot : Boot} {db db' : Db} (h : Boots crates boot db db')
    : db'.rateLimit = db.rateLimit := by
  cases h <;> rfl

theorem Boots.countsTokens {boot : Boot} {db db' : Db} (h : Boots crates boot db db')
    (hdb : db.CountsTokens)
    : db'.CountsTokens := by
  intro row hrow
  rw [h.rateLimit_eq] at hrow
  exact h.contains (hdb row hrow)

theorem Deed.countsTokens {label : Label} {s s' : State} (h : Deed crates label s s')
    (hs : s.db.CountsTokens)
    : s'.db.CountsTokens := by
  intro row hrow
  apply h.tokens.contains
  rcases h.rates row hrow with ⟨old, hold, hid⟩ | hcontains
  . rw [← hid]
    exact hs old hold
  . exact hcontains

theorem Turn.countsTokens {action : Action} (h : Turn crates system system' action)
    (hsystem : system.state.db.CountsTokens)
    : system'.state.db.CountsTokens := by
  cases h with
  | run hthread hdone hdeed => exact hdeed.countsTokens hsystem
  | restart hboots => exact hboots.countsTokens hsystem
  | quiet hdb =>
    rw [hdb]
    exact hsystem

theorem countsTokens_empty : (State.empty settings).db.CountsTokens := by
  intro row hrow
  contradiction

theorem System.Reachable.countsTokens (h : system.Reachable crates settings)
    : system.state.db.CountsTokens := by
  refine (h.of_turns ?_ fun _ _ _ hturn => hturn.countsTokens).right
  intro boot system₀ hmain
  exact (boots_main hmain).left.countsTokens countsTokens_empty

theorem State.IsLeft.countsTokens {s : State} (h : s.IsLeft crates settings) : s.db.CountsTokens := by
  rcases h with rfl | ⟨system, hreachable, rfl⟩
  . exact countsTokens_empty
  . exact hreachable.countsTokens

structure IsRooted (crates : Crates) (id : Int) (secret : String) (system : System) : Prop where
  deeds : Pool.AllAlways (Deed crates) system.threads
  mints : system.MintsOther secret
  contains : system.state.db.tokens.contains id
  verifies : ∀ token ∈ system.state.db.tokens.rows, token.id = id →
    verify crates secret token.tokenHash
  only : ∀ root ∈ system.state.db.tokens.rows, root.id = id → root.isActive →
    ∀ token ∈ system.state.db.tokens.rows, token.isActive →
      verify crates secret token.tokenHash → token.id = id

theorem IsRooted.step (hexact : crates.HashesExactly) {id : Int} {secret : String} {action : Action}
    (h : IsRooted crates id secret system)
    (hstep : system.step crates settings action = some system')
    (haction : ∀ payload ambient, action = .request (.createToken payload) ambient →
      ambient.uuid ≠ secret)
    : IsRooted crates id secret system' := by
  have ⟨hturn, hdeeds⟩ := turn_of_step h.deeds hstep
  have hfresh : ∀ {token : Token}, system.state.db.tokens.find? token.id = none → token.id ≠ id := by
    rintro token hnone rfl
    have hcontains := h.contains
    unfold Table.contains at hcontains
    rw [hnone] at hcontains
    contradiction
  refine ⟨hdeeds, h.mints.step hstep haction, hturn.contains h.contains, ?_, ?_⟩
  . intro token htoken hid
    cases hturn.origin htoken with
    | row hold hid' hhash hsame =>
      rw [← hhash]
      exact h.verifies _ hold (hid'.trans hid)
    | minted _ _ _ _ hnew => exact absurd hid (hfresh hnew)
    | booted _ _ hnew => exact absurd hid (hfresh hnew)
  . intro root hroot hrootId hrootActive token htoken hactive hverify
    cases hturn.origin hroot with
    | row hold hid hhash hsame =>
      rw [hsame hrootActive] at hold
      cases hturn.origin htoken with
      | row hold' hid' hhash' hsame' =>
        rw [hsame' hactive] at hold'
        exact h.only root hold hrootId hrootActive token hold' hactive hverify
      | minted _ hthread hdone hmints _ hhash' =>
        rw [hexact _ _ _ hhash'] at hverify
        rw [← hverify] at hmints
        exact absurd hmints (h.mints _ (List.mem_of_getElem? hthread) hdone)
      | booted _ hnone =>
        rw [hnone root hold] at hrootActive
        contradiction
    | minted _ _ _ _ hnew => exact absurd hrootId (hfresh hnew)
    | booted _ _ hnew => exact absurd hrootId (hfresh hnew)

section Main

variable {boot : Boot} {s₀ : State} {secret : String}
  (hmain : main crates settings boot s₀ = some system)
  (hreturns : (s₀.runDb boot.faults (bootstrapAdminToken crates boot)).fst = .ok (.ok (some secret)))
include hmain hreturns

theorem inserts_of_returns
    : ∃ row : Token,
        row.id = s₀.db.lastTokenId + 1
          ∧ row.isActive
          ∧ crates.bcryptHash boot.salt secret = .ok row.tokenHash
          ∧ (∀ old ∈ s₀.db.tokens.rows, old.isActive = false)
          ∧ s₀.db.tokens.insert? row = some system.state.db.tokens := by
  have hnone : s₀.db.tokens.rows.any (·.isActive) = false ∧ secret = boot.adminToken.getD boot.uuid := by
    cases hrun : s₀.runDb boot.faults (bootstrapAdminToken crates boot) with
    | mk res s₁ =>
      rw [hrun] at hreturns
      have hreturns : res = .ok (.ok (some secret)) := hreturns
      rw [hreturns] at hrun
      have ⟨_, hplaintext⟩ := boots_bootstrapAdminToken (run_of_runDb hrun).left
      split at hplaintext
      . contradiction
      . next hany =>
        injection hplaintext with hplaintext
        exact ⟨Bool.eq_false_iff.mpr hany, hplaintext⟩
  have hboots := (boots_main hmain).left
  generalize hdb : system.state.db = db at hboots
  cases hboots with
  | stay hmem hactive =>
    rw [List.any_eq_false] at hnone
    exact absurd hactive (hnone.left _ hmem)
  | insert hinactive hhash hinsert =>
    rw [← hnone.right] at hhash
    exact ⟨_, rfl, rfl, hhash, hinactive, hinsert⟩

theorem isRooted_main (hexact : crates.HashesExactly)
    : IsRooted crates (s₀.db.lastTokenId + 1) secret system := by
  rcases inserts_of_returns hmain hreturns with ⟨row, hid, hactive, hhash, hnone, hinsert⟩
  have hrows := Table.rows_of_insert? hinsert
  have hfind := Table.find?_of_insert? hinsert
  have hthreads := (main_eq_some hmain).left
  constructor
  . rw [hthreads]
    intro thread hthread
    contradiction
  . unfold System.MintsOther
    rw [hthreads]
    intro thread hthread
    contradiction
  . unfold Table.contains
    rw [hfind, ← hid, if_pos rfl]
    rfl
  . intro token htoken htokenId
    have hrow : token = row := by
      have := Table.find?_of_mem htoken
      rw [hfind, htokenId, hid, if_pos rfl] at this
      injection this with this
      exact this.symm
    rw [hrow, hexact _ _ _ hhash]
  . intro _ _ _ _ token htoken htokenActive _
    rw [hrows, List.mem_append, List.mem_singleton] at htoken
    rcases htoken with hold | rfl
    . rw [hnone token hold] at htokenActive
      contradiction
    . exact hid

theorem isActive_main
    : ∃ token ∈ system.state.db.tokens.rows, token.id = s₀.db.lastTokenId + 1 ∧ token.isActive := by
  rcases inserts_of_returns hmain hreturns with ⟨row, hid, hactive, _, _, hinsert⟩
  refine ⟨row, ?_, hid, hactive⟩
  rw [Table.rows_of_insert? hinsert]
  simp

theorem currentRequests_main (hcounts : s₀.db.CountsTokens) (now : DateTime)
    : authenticateAndRateLimit.currentRequests ⟨s₀.db.lastTokenId + 1, now⟩ system.state.db = 0 := by
  rcases inserts_of_returns hmain hreturns with ⟨row, hid, _, _, _, hinsert⟩
  apply Table.sum_eq_zero
  intro old hold
  have hold : old ∈ s₀.db.rateLimit.rows := by
    rw [← (boots_main hmain).left.rateLimit_eq]
    exact (List.mem_filter.mp hold).left
  have hne : old.tokenId ≠ s₀.db.lastTokenId + 1 := by
    intro heq
    have hcontains := hcounts old hold
    unfold Table.contains at hcontains
    rw [heq, ← hid, Table.find?_fresh_of_insert? hinsert] at hcontains
    contradiction
  simp [RateLimitRow.key, hne]

theorem IsAdminToken.eq_adminToken (hleft : s₀.IsLeft crates settings)
    (hpos : 0 < settings.rateLimitLimit)
    (h : IsAdminToken crates settings system (s₀.db.lastTokenId + 1) secret)
    : secret = adminToken := by
  have ⟨hpasses, _⟩ := h [] system rfl (by simp)
  have hcount := currentRequests_main hmain hreturns hleft.countsTokens boot.now
  have hpass := hpasses boot.now (isActive_main hmain hreturns) (by omega)
  unfold passesAdmin at hpass
  rw [Bool.and_eq_true, decide_eq_true_eq] at hpass
  exact hpass.right

end Main

theorem IsRooted.matchedToken {id : Int} {secret : String} (h : IsRooted crates id secret system)
    (hactive : ∃ token ∈ system.state.db.tokens.rows, token.id = id ∧ token.isActive)
    : ∃ token,
        authenticateAndRateLimit.matchedToken crates secret
            (system.state.db.tokens.rows.filter (·.isActive)) = some token
          ∧ token.id = id := by
  rcases hactive with ⟨root, hroot, hid, hrootActive⟩
  cases hfind : authenticateAndRateLimit.matchedToken crates secret
      (system.state.db.tokens.rows.filter (·.isActive)) with
  | none =>
    have := List.find?_eq_none.mp hfind root (List.mem_filter.mpr ⟨hroot, hrootActive⟩)
    exact absurd (h.verifies root hroot hid) this
  | some token =>
    have hmem := List.mem_of_find?_eq_some hfind
    rw [List.mem_filter] at hmem
    have hverify : verify crates secret token.tokenHash := by
      have := List.find?_some hfind
      exact this
    exact ⟨token, rfl, h.only root hroot hid hrootActive token hmem.left hmem.right hverify⟩

theorem IsRooted.authenticates {id : Int} {secret : String} (h : IsRooted crates id secret system)
    (hactive : ∃ token ∈ system.state.db.tokens.rows, token.id = id ∧ token.isActive)
    {now : DateTime} {limit : Nat}
    (hlimit : authenticateAndRateLimit.currentRequests ⟨id, now⟩ system.state.db < limit)
    : (authenticateAndRateLimit crates secret now limit .none system.state.db).fst.isOk := by
  rcases h.matchedToken hactive with ⟨token, hmatched, hid⟩
  rw [← hid] at hlimit
  unfold authenticateAndRateLimit
  rw [authenticateAndRateLimit.run_go_some hmatched, if_pos hlimit]
  rfl

/--
What the start of the server inserts is the admin token, if and only if it is the one secret that the
handlers know, or if nothing is ever within the limit.
-/
theorem bootstrapped_is_admin_iff (hexact : crates.HashesExactly) {boot : Boot} {s₀ : State}
    {secret : String} (hleft : s₀.IsLeft crates settings)
    (hmain : main crates settings boot s₀ = some system)
    (hreturns : (s₀.runDb boot.faults (bootstrapAdminToken crates boot)).fst
      = .ok (.ok (some secret)))
    : IsAdminToken crates settings system (s₀.db.lastTokenId + 1) secret
        ↔
      secret = adminToken ∨ settings.rateLimitLimit = 0 := by
  constructor
  . intro h
    rcases Nat.eq_zero_or_pos settings.rateLimitLimit with hzero | hpos
    . exact .inr hzero
    . exact .inl (h.eq_adminToken hmain hreturns hleft hpos)
  . intro hcases actions later hrun hmints
    have hlater : IsRooted crates (s₀.db.lastTokenId + 1) secret later := by
      apply Machine.invariant_of_run (I := IsRooted crates (s₀.db.lastTokenId + 1) secret) _
        (isRooted_main hmain hreturns hexact) hrun
      rintro action hmem system system' h hstep
      apply h.step hexact hstep
      rintro payload ambient rfl
      exact hmints payload ambient hmem
    refine ⟨?_, ?_⟩
    . intro now hactive hlimit
      rcases hcases with hadmin | hzero
      . unfold passesAdmin
        rw [hlater.authenticates hactive hlimit, decide_eq_true hadmin]
        rfl
      . omega
    . intro payload ambient hmem now faults
      rw [Bool.not_eq_true', Bool.eq_false_iff]
      intro hpass
      unfold passesAdmin at hpass
      rw [Bool.and_eq_true, decide_eq_true_eq] at hpass
      have ⟨hok, hadmin⟩ := hpass
      rcases hcases with hsecret | hzero
      . exact hmints payload ambient hmem (hadmin.trans hsecret.symm)
      . cases hres : (authenticateAndRateLimit crates ambient.uuid now settings.rateLimitLimit faults
            later.state.db).fst with
        | error err =>
          rw [hres] at hok
          contradiction
        | ok token =>
          have ⟨_, hpos⟩ := authenticate_eq_ok hres
          omega

-- The operator has chosen that secret.
theorem bootstrapped_is_admin_iff_chosen
    : ∃ system,
        main Samples.salted Samples.settings Samples.adminBoot (.empty Samples.settings)
            = some system
          ∧
        IsAdminToken Samples.salted Samples.settings system 1 adminToken := by
  have hsome : (main Samples.salted Samples.settings Samples.adminBoot
      (.empty Samples.settings)).isSome := by decide +kernel
  rw [Option.isSome_iff_exists] at hsome
  rcases hsome with ⟨system, hmain⟩
  have hiff := bootstrapped_is_admin_iff Samples.salted_hashesExactly (.inl rfl) hmain rfl
  exact ⟨system, hmain, hiff.mpr (.inl rfl)⟩

-- KOVAL_ADMIN_TOKEN is not set.
def Samples.generatedBoot : Boot :=
  { boot with adminToken := none, uuid := "8b7a3c52-1f60-4b0e-9a41-5d2f3f9e6c10" }

/-- A generated token opens none of the routes for tokens. -/
theorem bootstrapped_is_refused
    : ¬ ∀ crates settings boot s₀ system secret,
        crates.HashesExactly →
        State.IsLeft crates settings s₀ →
        main crates settings boot s₀ = some system →
        (s₀.runDb boot.faults (bootstrapAdminToken crates boot)).fst = .ok (.ok (some secret)) →
          IsAdminToken crates settings system (s₀.db.lastTokenId + 1) secret := by
  intro hall
  have hsome : (main Samples.salted Samples.settings Samples.generatedBoot
      (.empty Samples.settings)).isSome := by decide +kernel
  rw [Option.isSome_iff_exists] at hsome
  rcases hsome with ⟨system, hmain⟩
  have hadmin := hall _ _ _ _ system "8b7a3c52-1f60-4b0e-9a41-5d2f3f9e6c10"
    Samples.salted_hashesExactly (.inl rfl) hmain rfl
  have heq := hadmin.eq_adminToken hmain rfl (.inl rfl) (by decide)
  contradiction

end Koval
