import Koval.Server.JobLists
import Koval.Server.TokenLemmas
import Mathlib.Data.List.Pairwise

/-!
This module contains what the secret of a token opens, from the request that mints it on.
-/

namespace Koval

open Prog

variable {crates : Crates} {settings : Settings} {ambient : Ambient} {system system' : System}
  {s s' : State}

def System.labels (system : System) : List Label := system.threads.map (·.label)

theorem System.labels_of_run {i : Nat} (h : system.runThread i = some system')
    : system'.labels = system.labels := Pool.map_label_of_runThread h

theorem Label.jobId_of_mints? {label : Label} {uuid : String} (h : label.mints? = some uuid)
    : label.jobId = uuid := by
  unfold mints? at h
  split at h
  . injection h
  . contradiction

def Label.IsApart (label label' : Label) : Prop :=
  ∀ uuid, label.mints? = some uuid → label'.mints? ≠ some uuid

instance : Std.Symm Label.IsApart where
  symm _ _ h uuid hmints' hmints := h uuid hmints hmints'

theorem System.pairwise_labels_of_step {action : Action}
    (hstep : system.step crates settings action = some system')
    (h : system.labels.Pairwise Label.IsApart)
    : system'.labels.Pairwise Label.IsApart := by
  unfold labels at *
  cases System.stepsTo hstep with
  | @request request ambient hfresh =>
    simp only [Pool.spawn, List.map_append, List.map_cons, List.map_nil]
    rw [List.pairwise_append]
    refine ⟨h, List.pairwise_singleton _ _, ?_⟩
    intro label hlabel label' hlabel' uuid hmints hmints'
    rw [List.mem_singleton] at hlabel'
    rw [hlabel'] at hmints'
    rcases List.mem_map.mp hlabel with ⟨thread, hthread, rfl⟩
    unfold System.isFresh at hfresh
    rw [Bool.and_eq_true, List.all_eq_true] at hfresh
    have hne := hfresh.right thread hthread
    rw [Label.jobId_of_mints? hmints, ← Label.jobId_of_mints? hmints'] at hne
    exact absurd rfl (bne_iff_ne.mp hne)
  | recv =>
    simp only [Pool.spawn, List.map_append, List.map_cons, List.map_nil]
    rw [List.pairwise_append]
    refine ⟨h, List.pairwise_singleton _ _, ?_⟩
    intro label _ label' hlabel' uuid _ hmints'
    rw [List.mem_singleton] at hlabel'
    rw [hlabel'] at hmints'
    contradiction
  | run hrun =>
    have hlabels := System.labels_of_run hrun
    unfold labels at hlabels
    rw [hlabels]
    exact h
  | changeFiles => exact h
  | restart hthreads =>
    rw [hthreads]
    exact .nil

theorem System.mem_labels_of_step {action : Action}
    (hstep : system.step crates settings action = some system') {request : Request}
    (hlabel : .handler request ambient ∈ system'.labels)
    : action.isRestart = false
        ∧ (.handler request ambient ∈ system.labels ∨ action = .request request ambient) := by
  cases System.stepsTo hstep with
  | request =>
    simp only [labels, Pool.spawn, List.map_append, List.map_cons, List.map_nil, List.mem_append,
      List.mem_singleton] at hlabel
    rcases hlabel with hlabel | hlabel
    . exact ⟨rfl, .inl hlabel⟩
    . injection hlabel with hrequest hambient
      rw [hrequest, hambient]
      exact ⟨rfl, .inr rfl⟩
  | recv =>
    simp only [labels, Pool.spawn, List.map_append, List.map_cons, List.map_nil, List.mem_append,
      List.mem_singleton] at hlabel
    rcases hlabel with hlabel | hlabel
    . exact ⟨rfl, .inl hlabel⟩
    . contradiction
  | run hrun =>
    rw [labels_of_run hrun] at hlabel
    exact ⟨rfl, .inl hlabel⟩
  | changeFiles => exact ⟨rfl, .inl hlabel⟩
  | restart hthreads =>
    unfold labels at hlabel
    rw [hthreads] at hlabel
    contradiction

theorem Turn.active_cases {action : Action} (h : Turn crates system system' action)
    : (∀ row ∈ system'.state.db.tokens.rows, row.isActive → row ∈ system.state.db.tokens.rows)
        ∨
      (∃ payload ambient row,
        action.isRestart = false
          ∧ (∀ request ambient', action ≠ .request request ambient')
          ∧ .handler (.createToken payload) ambient ∈ system.labels
          ∧ crates.bcryptHash ambient.salt ambient.uuid = .ok row.tokenHash
          ∧ system'.state.db.tokens.rows = system.state.db.tokens.rows ++ [row])
        ∨
      (action.isRestart ∧ (∀ row ∈ system.state.db.tokens.rows, row.isActive = false)
        ∧ ∃ row, system'.state.db.tokens.rows = system.state.db.tokens.rows ++ [row]) := by
  cases h with
  | @run i thread hthread hdone hdeed =>
    have htokens := hdeed.tokens
    have hmem : thread.label ∈ system.labels := List.mem_map_of_mem (List.mem_of_getElem? hthread)
    generalize hlabel : thread.label = label at htokens hmem
    cases htokens with
    | stay htokens =>
      left
      intro row hrow _
      rw [htokens] at hrow
      exact hrow
    | insert hhash hinsert =>
      exact .inr (.inl ⟨_, _, _, rfl, fun _ _ => Action.noConfusion, hmem, hhash,
        Table.rows_of_insert? hinsert⟩)
    | revoke htokens =>
      left
      intro row hrow hactive
      rw [htokens] at hrow
      rcases Table.exists_of_mem_updateKey (by intro row; rfl) hrow with ⟨old, hold, rfl⟩
      split at hactive
      . contradiction
      . next hne =>
        rw [if_neg hne]
        exact hold
  | restart hboots =>
    generalize hdb : system'.state.db = db at hboots
    cases hboots with
    | stay =>
      left
      intro row hrow _
      exact hrow
    | insert hnone _ hinsert => exact .inr (.inr ⟨rfl, hnone, _, Table.rows_of_insert? hinsert⟩)
  | quiet hdb =>
    left
    intro row hrow _
    rw [hdb] at hrow
    exact hrow

structure System.Distinguishes (crates : Crates) (system : System) : Prop where
  only : ∀ row ∈ system.state.db.tokens.rows, row.isActive →
    ∀ row' ∈ system.state.db.tokens.rows, row'.isActive →
      ∀ secret, verify crates secret row.tokenHash → verify crates secret row'.tokenHash → row = row'
  minted : ∀ payload ambient, .handler (.createToken payload) ambient ∈ system.labels →
    ∀ row ∈ system.state.db.tokens.rows, row.isActive → verify crates ambient.uuid row.tokenHash →
      crates.bcryptHash ambient.salt ambient.uuid = .ok row.tokenHash
  apart : system.labels.Pairwise Label.IsApart

theorem System.Distinguishes.step (hexact : crates.HashesExactly) {action : Action}
    (h : system.Distinguishes crates) (hreachable : system.Reachable crates settings)
    (hstep : system.step crates settings action = some system')
    (hmints : ∀ payload ambient, action = .request (.createToken payload) ambient →
      ¬ system.state.db.Admits crates ambient.uuid)
    : system'.Distinguishes crates := by
  have ⟨hturn, _⟩ := turn_of_step hreachable.allAlways hstep
  have hhashes := (hreachable.step hstep).isSound.tokenHashes
  have hapart := System.pairwise_labels_of_step hstep h.apart
  rcases hturn.active_cases with
    hsub | ⟨payload, ambient, new, _, hrequest, hlabel, hhash, hrows⟩ | ⟨hrestart, hnone, new, hrows⟩
  . refine ⟨?_, ?_, hapart⟩
    . intro row hrow hactive row' hrow' hactive'
      exact h.only row (hsub row hrow hactive) hactive row' (hsub row' hrow' hactive') hactive'
    . intro payload ambient hlabel row hrow hactive hverify
      rcases System.mem_labels_of_step hstep hlabel with ⟨_, hold | haction⟩
      . exact h.minted payload ambient hold row (hsub row hrow hactive) hactive hverify
      . exact absurd ⟨row, hsub row hrow hactive, hactive, hverify⟩ (hmints payload ambient haction)
  . -- A row that the secret of the new one opens has the same hash.
    have hne : ∀ row ∈ system.state.db.tokens.rows, row.isActive → ∀ secret,
        verify crates secret row.tokenHash → ¬ verify crates secret new.tokenHash := by
      intro row hrow hactive secret hverify hnew
      rw [hexact _ _ _ hhash] at hnew
      rw [hnew] at hverify
      have hsame := h.minted payload ambient hlabel row hrow hactive hverify
      rw [hhash] at hsame
      injection hsame with hsame
      rw [hrows, List.map_append, List.nodup_append'] at hhashes
      apply hhashes.right.right (List.mem_map_of_mem hrow)
      rw [← hsame]
      exact List.mem_singleton_self _
    refine ⟨?_, ?_, hapart⟩
    . intro row hrow hactive row' hrow' hactive' secret hverify hverify'
      rw [hrows, List.mem_append, List.mem_singleton] at hrow hrow'
      rcases hrow with hrow | rfl
      . rcases hrow' with hrow' | rfl
        . exact h.only row hrow hactive row' hrow' hactive' secret hverify hverify'
        . exact absurd hverify' (hne row hrow hactive secret hverify)
      . rcases hrow' with hrow' | rfl
        . exact absurd hverify (hne row' hrow' hactive' secret hverify')
        . rfl
    . intro payload' ambient' hlabel' row hrow hactive hverify
      rcases System.mem_labels_of_step hstep hlabel' with ⟨_, hold | haction⟩
      swap
      . exact absurd haction (hrequest _ _)
      rw [hrows, List.mem_append, List.mem_singleton] at hrow
      rcases hrow with hrow | rfl
      . exact h.minted payload' ambient' hold row hrow hactive hverify
      . rw [hexact _ _ _ hhash] at hverify
        by_cases hsame : Label.handler (.createToken payload') ambient'
            = .handler (.createToken payload) ambient
        . injection hsame with _ hsame
          rw [hsame]
          exact hhash
        . have hother := h.apart.forall hold hlabel hsame ambient'.uuid rfl
          rw [hverify] at hother
          exact absurd rfl hother
  . have hactive_eq : ∀ row ∈ system'.state.db.tokens.rows, row.isActive → row = new := by
      intro row hrow hactive
      rw [hrows, List.mem_append, List.mem_singleton] at hrow
      rcases hrow with hrow | hrow
      . rw [hnone row hrow] at hactive
        contradiction
      . exact hrow
    refine ⟨?_, ?_, hapart⟩
    . intro row hrow hactive row' hrow' hactive' _ _ _
      rw [hactive_eq row hrow hactive, hactive_eq row' hrow' hactive']
    . intro payload ambient hlabel
      have ⟨hfalse, _⟩ := System.mem_labels_of_step hstep hlabel
      rw [hfalse] at hrestart
      contradiction

def MintsUnheld (crates : Crates) (settings : Settings) (system₀ : System) (actions : List Action) :
    Prop :=
  ∀ t payload ambient t',
    (t, .request (.createToken payload) ambient, t')
        ∈ Machine.transitions (System.step crates settings) system₀ actions →
      ¬ t.state.db.Admits crates ambient.uuid

theorem System.distinguishes_main {boot : Boot}
    (hmain : main crates settings boot (.empty settings) = some system)
    : system.Distinguishes crates := by
  have hlabels : system.labels = [] := by
    unfold labels
    rw [(main_eq_some hmain).left]
    rfl
  have hrows : ∀ row ∈ system.state.db.tokens.rows, ∀ row' ∈ system.state.db.tokens.rows,
      row = row' := by
    have ⟨hboots, _⟩ := boots_main hmain
    generalize hdb : system.state.db = db at hboots
    cases hboots with
    | stay hmem => contradiction
    | insert _ _ hinsert =>
      dsimp only
      rw [Table.rows_of_insert? hinsert]
      intro row hrow row' hrow'
      have hrow := List.mem_singleton.mp hrow
      rw [hrow, List.mem_singleton.mp hrow']
  refine ⟨fun row hrow _ row' hrow' _ _ _ _ => hrows row hrow row' hrow', ?_, ?_⟩
  . intro payload ambient hlabel
    rw [hlabels] at hlabel
    contradiction
  . rw [hlabels]
    exact .nil

theorem System.distinguishes_of_run (hexact : crates.HashesExactly) {boot : Boot}
    {system₀ : System} (hmain : main crates settings boot (.empty settings) = some system₀)
    {actions : List Action}
    (hrun : Machine.run (System.step crates settings) system₀ actions = some system)
    (hmints : MintsUnheld crates settings system₀ actions)
    : system.Reachable crates settings ∧ system.Distinguishes crates := by
  apply Machine.invariant_of_transitions
    (I := fun t => System.Reachable crates settings t ∧ t.Distinguishes crates) _
    ⟨⟨boot, system₀, [], hmain, rfl⟩, distinguishes_main hmain⟩ hrun
  rintro t action t' hmem ⟨hreachable, h⟩
  have hstep := Machine.step_of_mem_transitions hmem
  refine ⟨hreachable.step hstep, h.step hexact hreachable hstep ?_⟩
  rintro payload ambient rfl
  exact hmints t payload ambient t' hmem

theorem System.Distinguishes.matchedToken (h : system.Distinguishes crates) {secret : String}
    {tokens : List Token} (hperm : tokens.Perm (system.state.db.tokens.rows.filter (·.isActive)))
    {row : Token}
    : authenticateAndRateLimit.matchedToken crates secret tokens = some row
        ↔ row ∈ system.state.db.tokens.rows ∧ row.isActive ∧ verify crates secret row.tokenHash := by
  have hmem : ∀ {row : Token}, row ∈ tokens ↔ row ∈ system.state.db.tokens.rows ∧ row.isActive := by
    intro row
    rw [hperm.mem_iff, List.mem_filter]
  unfold authenticateAndRateLimit.matchedToken
  constructor
  . intro hfind
    have ⟨hrow, hactive⟩ := hmem.mp (List.mem_of_find?_eq_some hfind)
    have hverify := @List.find?_some _ (fun t : Token => verify crates secret t.tokenHash) _ _ hfind
    exact ⟨hrow, hactive, hverify⟩
  . rintro ⟨hrow, hactive, hverify⟩
    cases hfind : tokens.find? fun t => verify crates secret t.tokenHash with
    | none => exact absurd hverify (List.find?_eq_none.mp hfind row (hmem.mpr ⟨hrow, hactive⟩))
    | some found =>
      have ⟨hfound, hfoundActive⟩ := hmem.mp (List.mem_of_find?_eq_some hfind)
      have hverify' := @List.find?_some _ (fun t : Token => verify crates secret t.tokenHash) _ _ hfind
      rw [h.only found hfound hfoundActive row hrow hactive secret hverify' hverify]

/--
No secret opens two active tokens, so that whatever order the database lists them in, the same one is
found, and it is the one that has the secret.
-/
theorem System.secrets_open_one (hexact : crates.HashesExactly) {boot : Boot}
    {system₀ : System} (hmain : main crates settings boot (.empty settings) = some system₀)
    {actions : List Action}
    (hrun : Machine.run (System.step crates settings) system₀ actions = some system)
    (hmints : MintsUnheld crates settings system₀ actions)
    : ∀ (secret : String) (tokens : List Token),
        tokens.Perm (system.state.db.tokens.rows.filter (·.isActive)) →
          ∀ row, authenticateAndRateLimit.matchedToken crates secret tokens = some row
            ↔ row ∈ system.state.db.tokens.rows ∧ row.isActive
              ∧ verify crates secret row.tokenHash := by
  have ⟨_, h⟩ := System.distinguishes_of_run hexact hmain hrun hmints
  intro secret tokens hperm row
  exact h.matchedToken hperm

namespace Samples

def mintsUnheld (crates : Crates) (system₀ : System) (actions : List Action) : Bool :=
  (Machine.transitions (System.step crates Samples.settings) system₀ actions).all
    fun (t, action, _) =>
      match action with
      | .request (.createToken _) ambient =>
        t.state.db.tokens.rows.all fun token =>
          !(token.isActive && verify crates ambient.uuid token.tokenHash)
      | _ => true

theorem mintsUnheld_of_all {system₀ : System} {actions : List Action}
    (h : mintsUnheld crates system₀ actions)
    : MintsUnheld crates Samples.settings system₀ actions := by
  rintro t payload ambient t' hmem ⟨token, htoken, hactive, hverify⟩
  unfold mintsUnheld at h
  have hnone := List.all_eq_true.mp (List.all_eq_true.mp h _ hmem) token htoken
  rw [hactive, hverify] at hnone
  contradiction

-- The admin has a token minted, which the handler takes two steps for.
def mint : Action :=
  .request (.createToken ⟨"ci"⟩) (adminAmbient "8b7a3c52-1f60-4b0e-9a41-5d2f3f9e6c10")

end Samples

theorem System.secrets_open_one_minted
    : ∃ system : System,
        system.state.db.tokens.rows.length = 2
          ∧
        ∀ (secret : String) (tokens : List Token),
          tokens.Perm (system.state.db.tokens.rows.filter (·.isActive)) →
            ∀ row, authenticateAndRateLimit.matchedToken Samples.salted secret tokens = some row
              ↔ row ∈ system.state.db.tokens.rows ∧ row.isActive
                ∧ verify Samples.salted secret row.tokenHash := by
  have hruns : (main Samples.salted Samples.settings Samples.adminBoot (.empty Samples.settings)).any
      fun system₀ =>
        Samples.mintsUnheld Samples.salted system₀ [Samples.mint, .run 0, .run 0]
          && (Machine.run (System.step Samples.salted Samples.settings) system₀
            [Samples.mint, .run 0, .run 0]).any fun system =>
              system.state.db.tokens.rows.length = 2 := by
    decide +kernel
  rw [Option.any_eq_true] at hruns
  rcases hruns with ⟨system₀, hmain, hruns⟩
  rw [Bool.and_eq_true, Option.any_eq_true] at hruns
  rcases hruns with ⟨hmints, system, hrun, hlength⟩
  refine ⟨system, of_decide_eq_true hlength, ?_⟩
  exact System.secrets_open_one Samples.salted_hashesExactly hmain hrun
    (Samples.mintsUnheld_of_all hmints)

abbrev LastsIn (s s' : State) : Prop := s.db.Lasts s'.db

theorem lastsIn_refl (s : State) : LastsIn s s := s.db.lasts_refl

theorem lastsIn_trans (s s' s'' : State) (h : LastsIn s s') (h' : LastsIn s' s'') : LastsIn s s'' :=
  h.trans h'

theorem ends_authenticateAdmin_error {code : StatusCode} (hunauthorized : .unauthorized ≠ code)
    (hforbidden : .forbidden ≠ code) {response : Response}
    (h : Ends LastsIn (authenticateAdmin crates settings ambient).run s (.error response) s')
    : response.status ≠ code := by
  rcases h.of_bindExcept lastsIn_refl with ⟨⟨secret, token⟩, _, _, h⟩ | ⟨err, _, hauth, herr, _⟩
  . dsimp only at h
    split at h
    . have ⟨heq, _⟩ := ends_ret_iff.mp h
      injection heq with heq
      rw [heq]
      exact hforbidden
    . have ⟨heq, _⟩ := ends_ret_iff.mp h
      contradiction
  . injection herr with herr
    rw [herr]
    exact ends_authenticate_error lastsIn_refl hunauthorized (refuseByText_ne hunauthorized) hauth

theorem Db.run_insertToken_eq_ok {tokenHash name createdAt : String} {faults : Faults Stmt}
    {db db' : Db} {id : Int}
    (h : (insertToken tokenHash name createdAt).run faults db = (.ok id, db'))
    : id = db.lastTokenId + 1
        ∧ db.tokens.insert? ⟨id, tokenHash, name, createdAt, true⟩ = some db'.tokens := by
  rcases Sql.run_bind_eq_ok h with ⟨_, mid, _, hquery⟩
  have ⟨hid, hdb'⟩ := Sql.run_query_eq_ok hquery
  rcases run_insertToken_cases h with ⟨tokens, hinsert, hmid⟩ | ⟨_, herr, _⟩
  . have hlast : id = db.lastTokenId + 1 := by
      rw [hid, ← hdb', hmid]
    rw [hlast, hmid]
    exact ⟨rfl, hinsert⟩
  . contradiction

theorem ends_createTokenHandler {payload : TokenRequest} {res : Except Response Response}
    (h : Ends LastsIn (createTokenHandler crates settings ambient payload).run s res s')
    : (∃ response, res = .error response ∧ response.status ≠ .created)
        ∨
      ∃ row : Token,
        res = .ok ⟨.created, .token ⟨row.id, ambient.uuid, payload.name⟩, []⟩
          ∧ s.db.lastTokenId < row.id
          ∧ crates.bcryptHash ambient.salt ambient.uuid = .ok row.tokenHash
          ∧ row.name = payload.name
          ∧ row.createdAt = ambient.now.toRfc3339
          ∧ s'.db.tokens.find? row.id = some row := by
  rcases h.of_bindExcept lastsIn_refl with ⟨_, s₁, hauth, h⟩ | ⟨response, _, hauth, hres, _⟩
  swap
  . exact .inl ⟨response, hres,
      ends_authenticateAdmin_error StatusCode.noConfusion StatusCode.noConfusion hauth⟩
  have hlasts₁ : LastsIn s s₁ := by
    apply Always.ends lastsIn_trans (fun _ _ => id) _ hauth
    exact handles_of_authenticateAdmin.mono fun _ _ h => h.writes.lasts
  dsimp only at h
  split at h
  . rcases ends_ret_iff.mp h with ⟨hres, _⟩
    exact .inl ⟨_, hres, StatusCode.noConfusion⟩
  next tokenHash hhash =>
  rcases h.of_bindExcept lastsIn_refl with ⟨inserted, s₂, hinsert, h⟩ | ⟨_, _, hinsert, _, _⟩
  swap
  . rcases hinsert.of_liftAtomic lastsIn_refl with ⟨_, _, _, hok, _⟩
    contradiction
  rcases hinsert.of_liftAtomic lastsIn_refl with ⟨t, t', hrely, hok, hrely', hrely''⟩
  injection hok with hok
  cases inserted with
  | error err =>
    rcases ends_ret_iff.mp h with ⟨hres, _⟩
    exact .inl ⟨_, hres, StatusCode.noConfusion⟩
  | ok id =>
    right
    rcases ends_ret_iff.mp h with ⟨hres, hlasts₃⟩
    have hrunDb : t.runDb (ambient.faults 1)
        (Db.insertToken tokenHash payload.name ambient.now.toRfc3339) = (.ok id, _) :=
      Prod.ext hok.symm rfl
    rcases Db.run_insertToken_eq_ok (run_of_runDb hrunDb).left with ⟨hid, hinserted⟩
    have hfound := Table.find?_of_insert? hinserted id
    rw [if_pos rfl] at hfound
    have hlasts := lastsIn_trans _ _ _ hrely' (lastsIn_trans _ _ _ hrely'' hlasts₃)
    rcases hlasts.tokens id _ hfound with ⟨row, hrow, _, hsame⟩
    have hrowId : row.id = id := Table.key_of_find? hrow
    refine ⟨row, ?_, ?_, ?_, (congrArg Token.name hsame :), (congrArg Token.createdAt hsame :), ?_⟩
    . rw [hrowId]
      exact hres
    . rw [hrowId, hid]
      have := (hlasts₁.trans hrely).lastTokenId
      omega
    . rw [show row.tokenHash = tokenHash from (congrArg Token.tokenHash hsame :)]
      exact hhash
    . rw [hrowId]
      exact hrow

structure System.Leaves (id : Int) (system : System) : Prop where
  labels : ∀ ambient, .handler (.deleteToken id) ambient ∉ system.labels
  active : ∀ row, system.state.db.tokens.find? id = some row → row.isActive

theorem active_of_insert? {tokens tokens' : Table Token.id} {new : Token} {id : Int}
    (hinsert : tokens.insert? new = some tokens') (hnew : new.isActive)
    (h : ∀ row, tokens.find? id = some row → row.isActive) (row : Token)
    (hrow : tokens'.find? id = some row)
    : row.isActive := by
  rw [Table.find?_of_insert? hinsert] at hrow
  split at hrow
  . injection hrow with hrow
    rw [← hrow]
    exact hnew
  . exact h row hrow

theorem System.Leaves.step {id : Int} {action : Action} (h : system.Leaves id)
    (hreachable : system.Reachable crates settings)
    (hstep : system.step crates settings action = some system')
    (haction : ∀ ambient, action ≠ .request (.deleteToken id) ambient)
    : system'.Leaves id where
  labels := by
    intro ambient hlabel
    rcases System.mem_labels_of_step hstep hlabel with ⟨_, hold | hrequest⟩
    . exact h.labels ambient hold
    . exact haction ambient hrequest
  active := by
    have ⟨hturn, _⟩ := turn_of_step hreachable.allAlways hstep
    cases hturn with
    | @run i thread hthread _ hdeed =>
      have htokens := hdeed.tokens
      have hmem : thread.label ∈ system.labels := List.mem_map_of_mem (List.mem_of_getElem? hthread)
      generalize thread.label = label at htokens hmem
      cases htokens with
      | stay htokens =>
        rw [htokens]
        exact h.active
      | insert _ hinsert => exact active_of_insert? hinsert rfl h.active
      | @revoke id' ambient _ _ htokens =>
        intro row hrow
        have hne : id ≠ id' := by
          rintro rfl
          exact h.labels ambient hmem
        rw [htokens, Table.find?_updateKey, if_neg hne] at hrow
        exact h.active row hrow
    | restart hboots =>
      generalize hdb : system'.state.db = db at hboots
      cases hboots with
      | stay => exact h.active
      | insert _ _ hinsert => exact active_of_insert? hinsert rfl h.active
    | quiet hdb =>
      rw [hdb]
      exact h.active

/-- Who has the secret of the token is that token, or is turned away for other reasons. -/
def Token.IsAnswered (token : Token) (res : Except AuthError Token) : Prop :=
  match res with
  | .ok token' => token' = token
  | .error err => err = .rateLimitExceeded ∨ ∃ msg, err = .databaseError msg

theorem isAnswered_authenticate {secret : String} {db : Db} {token : Token}
    (hmatched : authenticateAndRateLimit.matchedToken crates secret
      (db.tokens.rows.filter (·.isActive)) = some token)
    (now : DateTime) (limit : Nat) (faults : Faults Stmt)
    : token.IsAnswered (authenticateAndRateLimit crates secret now limit faults db).fst := by
  have hactive : token.isActive :=
    (List.mem_filter.mp (List.mem_of_find?_eq_some hmatched)).right
  unfold authenticateAndRateLimit
  split
  . next res db' hrun =>
    rcases Sql.run_bind_eq_ok hrun with ⟨activeTokens, mid, hquery, hrest⟩
    have ⟨htokens, _⟩ := Sql.run_query_eq_ok hquery
    rw [htokens, hmatched] at hrest
    dsimp only at hrest
    rw [hactive] at hrest
    rcases Sql.run_bind_eq_ok hrest with ⟨_, _, _, hrest⟩
    rcases Sql.run_bind_eq_ok hrest with ⟨currentRequests, _, _, hrest⟩
    split at hrest
    . have ⟨hres, _⟩ := Sql.run_pure_eq_ok hrest
      rw [hres]
      exact .inl rfl
    . rcases Sql.run_bind_eq_ok hrest with ⟨_, _, _, hrest⟩
      have ⟨hres, _⟩ := Sql.run_pure_eq_ok hrest
      rw [hres]
      exact rfl
  . exact .inr ⟨_, rfl⟩

/--
The secret that a request for a token is answered with opens that token and no other, in all later
states in which the token is active, and it is active until somebody asks for it to be revoked.
-/
theorem System.minted_token_opens (hexact : crates.HashesExactly) {boot : Boot}
    {system₀ : System} (hmain : main crates settings boot (.empty settings) = some system₀)
    {before : List Action}
    (hbefore : Machine.run (System.step crates settings) system₀ before = some system)
    {payload : TokenRequest} {started : System}
    (hrequest : system.step crates settings (.request (.createToken payload) ambient) = some started)
    {actions : List Action} (hrestart : ∀ action ∈ actions, action.isRestart = false)
    (hrun : Machine.run (System.step crates settings) started actions = some system')
    {token : TokenResponse} {headers : List (String × String)}
    (hanswer : system'.threads[system.threads.length]?
      = some ⟨.handler (.createToken payload) ambient,
          .ret (.response ⟨.created, .token token, headers⟩)⟩)
    {later : List Action} {system'' : System}
    (hlater : Machine.run (System.step crates settings) system' later = some system'')
    (hmints : MintsUnheld crates settings system₀
      (before ++ .request (.createToken payload) ambient :: (actions ++ later)))
    : ∃ row,
        system''.state.db.tokens.find? token.id = some row
          ∧
        row.name = payload.name ∧ token.name = payload.name
          ∧
        row.createdAt = ambient.now.toRfc3339
          ∧
        verify crates token.plaintextToken row.tokenHash
          ∧
        (row.isActive → ∀ now limit faults,
          row.IsAnswered
            (authenticateAndRateLimit crates token.plaintextToken now limit faults system''.state.db).fst)
          ∧
        ((∀ ambient, .handler (.deleteToken token.id) ambient ∉ system.labels) →
          (∀ action ∈ actions ++ later, ∀ ambient,
            action ≠ .request (.deleteToken token.id) ambient) →
            row.isActive) := by
  have hreachable : system.Reachable crates settings := ⟨boot, system₀, before, hmain, hbefore⟩
  have hends := hreachable.ends_of_request lastsIn_refl lastsIn_trans
    (fun _ _ _ ht hstep => System.Reachable.lasts ht hstep) hrequest hrestart hrun hanswer
  rcases ends_of_respond lastsIn_refl lastsIn_trans hends with ⟨res, mid, hhandler, hmid, hres⟩
  have hrunLater : Machine.run (System.step crates settings) started (actions ++ later)
      = some system'' := Machine.run_trans hrun hlater
  have hrunAll : Machine.run (System.step crates settings) system₀
      (before ++ .request (.createToken payload) ambient :: (actions ++ later)) = some system'' := by
    apply Machine.run_trans hbefore
    rw [Machine.run_cons hrequest]
    exact hrunLater
  have ⟨_, hdistinguishes⟩ := System.distinguishes_of_run hexact hmain hrunAll hmints
  rcases ends_createTokenHandler hhandler with
    ⟨refusal, hrefusal, hne⟩ | ⟨row, hcreated, hid, hhash, hname, hcreatedAt, hrow⟩
  . rw [hrefusal] at hres
    rcases hres with hres | hres
    . contradiction
    . injection hres with hres
      rw [hres] at hne
      exact absurd rfl hne
  rw [hcreated] at hres
  rcases hres with hres | hres
  swap
  . contradiction
  injection hres with hres
  injection hres with _ hbody
  injection hbody with htoken
  rw [← htoken]
  have hstarted := hreachable.step hrequest
  have hlasts : mid.db.Lasts system''.state.db :=
    hmid.trans ((hstarted.run hrun).writes_of_run hlater).lasts
  rcases hlasts.tokens row.id row hrow with ⟨row', hrow', _, hsame⟩
  have hname' : row'.name = row.name := (congrArg Token.name hsame :)
  have hcreatedAt' : row'.createdAt = row.createdAt := (congrArg Token.createdAt hsame :)
  have hhash' : row'.tokenHash = row.tokenHash := (congrArg Token.tokenHash hsame :)
  have hverify : verify crates ambient.uuid row'.tokenHash := by
    rw [hhash', hexact _ _ _ hhash]
  refine ⟨row', hrow', hname'.trans hname, rfl, hcreatedAt'.trans hcreatedAt, hverify, ?_, ?_⟩
  . intro hactive now limit faults
    apply isAnswered_authenticate
    exact (hdistinguishes.matchedToken (.refl _)).mpr
      ⟨Table.mem_of_find? hrow', hactive, hverify⟩
  . intro hlabels hactions
    have hleaves : system.Leaves row.id := by
      refine ⟨hlabels, ?_⟩
      intro old hold
      have ⟨⟨_, hle⟩, _⟩ := hreachable.isSound.tokens old (Table.mem_of_find? hold)
      have hold : old.id = row.id := Table.key_of_find? hold
      omega
    have hleavesStarted := hleaves.step hreachable hrequest (by rintro ambient ⟨⟩)
    have hinv : system''.Reachable crates settings ∧ system''.Leaves row.id := by
      apply Machine.invariant_of_run
        (I := fun t => System.Reachable crates settings t ∧ System.Leaves row.id t) _
        ⟨hstarted, hleavesStarted⟩ hrunLater
      rintro action haction t t' ⟨ht, hleaves⟩ hstep
      exact ⟨ht.step hstep, hleaves.step ht hstep (hactions action haction)⟩
    exact hinv.right.active row' hrow'

theorem System.minted_token_opens_restarted
    : ∃ (system : System) (row : Token),
        system.threads = []
          ∧
        row ∈ system.state.db.tokens.rows ∧ row.isActive
          ∧
        ∀ now limit faults,
          row.IsAnswered (authenticateAndRateLimit Samples.salted
            "8b7a3c52-1f60-4b0e-9a41-5d2f3f9e6c10" now limit faults system.state.db).fst := by
  rcases Samples.exists_answered Samples.salted Samples.adminBoot [] (.createToken ⟨"ci"⟩)
      (Samples.adminAmbient "8b7a3c52-1f60-4b0e-9a41-5d2f3f9e6c10") 0 2
      (fun response => response
        = ⟨.created, .token ⟨2, "8b7a3c52-1f60-4b0e-9a41-5d2f3f9e6c10", "ci"⟩, []⟩)
      (by decide +kernel) with
    ⟨system₀, system, started, system', response, hmain, hbefore, hrequest, hrun, hanswer, rfl⟩
  have hlater : (main Samples.salted Samples.settings Samples.adminBoot (.empty Samples.settings)).all
      fun system₀ =>
        Samples.mintsUnheld Samples.salted system₀
            [Samples.mint, .run 0, .run 0, .restart Samples.adminBoot]
          && (Machine.run (System.step Samples.salted Samples.settings) system₀
            [Samples.mint, .run 0, .run 0, .restart Samples.adminBoot]).any fun system =>
              system.threads.isEmpty := by
    decide +kernel
  rw [hmain, Option.all_some, Bool.and_eq_true, Option.any_eq_true] at hlater
  rcases hlater with ⟨hmints, system'', hall, hthreads⟩
  have hsystem : system₀ = system := Option.some.inj hbefore
  have hminted : Machine.run (System.step Samples.salted Samples.settings) system₀
      [Samples.mint, .run 0, .run 0] = some system' := by
    rw [hsystem]
    unfold Samples.mint
    rw [Machine.run_cons hrequest]
    exact hrun
  have hlater : Machine.run (System.step Samples.salted Samples.settings) system'
      [.restart Samples.adminBoot] = some system'' := by
    rcases Machine.run_append_eq_some_iff.mp (show Machine.run _ system₀
      ([Samples.mint, .run 0, .run 0] ++ [.restart Samples.adminBoot]) = _ from hall) with
      ⟨mid, hmid, hlater⟩
    rw [hminted] at hmid
    rw [Option.some.inj hmid]
    exact hlater
  have hrestart : ∀ action ∈ List.replicate 2 (Action.run 0), action.isRestart = false := by decide
  rcases System.minted_token_opens Samples.salted_hashesExactly hmain hbefore hrequest hrestart hrun
      hanswer hlater (Samples.mintsUnheld_of_all hmints) with
    ⟨row, hrow, _, _, _, _, hopens, hactive⟩
  have hrowActive : row.isActive := by
    apply hactive
    . intro ambient
      rw [← hsystem, System.labels, (main_eq_some hmain).left]
      exact List.not_mem_nil
    . intro action haction ambient hdelete
      rw [hdelete] at haction
      rcases List.mem_append.mp haction with haction | haction
      . have := List.eq_of_mem_replicate haction
        contradiction
      . have := List.mem_singleton.mp haction
        contradiction
  exact ⟨system'', row, List.isEmpty_iff.mp hthreads, Table.mem_of_find? hrow, hrowActive,
    hopens hrowActive⟩

end Koval
