import Koval.Server.Routes.Authenticated
import Koval.Server.Routes.RouteFrames
import Mathlib.Data.Set.Insert

/-!
This module contains the set of endpoints that the routes for webhooks keep.
-/

namespace Koval

open Prog

structure Endpoint where
  id : Int
  tokenId : Int
  url : String
  secret : String

/-- What the routes are for: the endpoints that are served, and the ids that have been given. -/
structure Endpoints where
  active : Set Endpoint
  used : Set Int

namespace Endpoints

def add (endpoints : Endpoints) (endpoint : Endpoint) : Endpoints :=
  ⟨insert endpoint endpoints.active, insert endpoint.id endpoints.used⟩

def remove (endpoints : Endpoints) (endpoint : Endpoint) : Endpoints :=
  ⟨endpoints.active \ {endpoint}, endpoints.used⟩

def Lists (endpoints : Endpoints) (tokenId : Int) (elements : List Endpoint) : Prop :=
  elements.Nodup
    ∧
  ∀ endpoint, endpoint ∈ elements ↔ endpoint ∈ endpoints.active ∧ endpoint.tokenId = tokenId

end Endpoints

inductive WebhookCall where
  | register (payload : WebhookRequest)
  | list
  | delete (id : Int)

def WebhookCall.request (call : WebhookCall) : Request :=
  match call with
  | register payload => .registerWebhook payload
  | list => .listWebhooks
  | delete id => .deleteWebhook id

/-- How the set answers a call of the token, and what becomes of it. -/
inductive Serves (tokenId : Int) (before : Endpoints) :
    WebhookCall → Response → Endpoints → Prop where
  | registered {payload : WebhookRequest} {id : Int} (hfresh : id ∉ before.used) :
    Serves tokenId before (.register payload) ⟨.created, .webhookId id, []⟩
      (before.add ⟨id, tokenId, payload.url, payload.secret⟩)
  | listed {list : List WebhookRecord} {elements : List Endpoint}
    (helements : before.Lists tokenId elements)
    (hlist : list.map (fun record => (record.id, record.url, record.isActive))
      = elements.map fun endpoint => (endpoint.id, endpoint.url, true)) :
    Serves tokenId before .list ⟨.ok, .webhooks list, []⟩ before
  | deleted {endpoint : Endpoint} (hactive : endpoint ∈ before.active)
    (howner : endpoint.tokenId = tokenId) :
    Serves tokenId before (.delete endpoint.id) ⟨.noContent, .empty, []⟩ (before.remove endpoint)
  | missing {id : Int} {response : Response}
    (hnone : ∀ endpoint ∈ before.active, endpoint.tokenId = tokenId → endpoint.id ≠ id)
    (hstatus : response.status = .notFound) :
    Serves tokenId before (.delete id) response before

def WebhookRow.endpoint (row : WebhookRow) : Endpoint := ⟨row.id, row.tokenId, row.url, row.secret⟩

namespace Db

def endpoints (db : Db) : Endpoints where
  active := { endpoint | ∃ row ∈ db.webhooks.rows, row.isActive ∧ row.endpoint = endpoint }
  used := { id | ∃ row ∈ db.webhooks.rows, row.id = id }

/-- The call deletes a webhook of the token that has been deleted before. -/
def DeletesAgain (db : Db) (tokenId : Int) (call : WebhookCall) : Prop :=
  match call with
  | .delete id =>
    ∃ row ∈ db.webhooks.rows, row.id = id ∧ row.tokenId = tokenId ∧ row.isActive = false
  | _ => False

end Db

def webhookStep (ext : Crates) (settings : Settings) (action : WebhookCall × Ambient) (s : State) :
    Option State :=
  let (call, ambient) := action
  some ((route ext settings call.request ambient).respond.runAlone s).snd

variable {ext : Crates} {settings : Settings} {ambient : Ambient} {s s' : State} {db db' : Db}
variable {token : Token} {tokenId : Int}

namespace Db

def elements (db : Db) (tokenId : Int) : List Endpoint :=
  (db.webhooks.rows.filter fun row => row.tokenId = tokenId && row.isActive).map
    WebhookRow.endpoint

theorem lists_elements (db : Db) (tokenId : Int)
    : db.endpoints.Lists tokenId (db.elements tokenId) := by
  constructor
  . apply List.Nodup.of_map Endpoint.id
    unfold elements
    rw [List.map_map]
    exact db.webhooks.nodup.sublist (List.filter_sublist.map WebhookRow.id)
  . intro endpoint
    unfold elements
    rw [List.mem_map]
    constructor
    . rintro ⟨row, hrow, rfl⟩
      rw [List.mem_filter, Bool.and_eq_true, decide_eq_true_eq] at hrow
      exact ⟨⟨row, hrow.left, hrow.right.right, rfl⟩, hrow.right.left⟩
    . rintro ⟨⟨row, hrow, hactive, rfl⟩, howner⟩
      refine ⟨row, ?_, rfl⟩
      rw [List.mem_filter, Bool.and_eq_true, decide_eq_true_eq]
      exact ⟨hrow, howner, hactive⟩

theorem run_getWebhooksDeliveryInfo (db : Db) (tokenId : Int)
    : ((getWebhooksDeliveryInfo tokenId).run .none db).fst
        =
      .ok ((db.elements tokenId).map fun endpoint => (endpoint.url, endpoint.secret)) := by
  unfold getWebhooksDeliveryInfo elements
  rw [Sql.run_query_none, List.map_map]
  rfl

theorem endpoints_of_insert? {row : WebhookRow} {webhooks : Table WebhookRow.id}
    (hinsert : db.webhooks.insert? row = some webhooks) (hactive : row.isActive)
    (lastWebhookId : Int)
    : { db with webhooks, lastWebhookId }.endpoints = db.endpoints.add row.endpoint := by
  have hrows := Table.rows_of_insert? hinsert
  unfold endpoints Endpoints.add
  simp only [hrows, List.mem_append, List.mem_singleton, Endpoints.mk.injEq, Set.ext_iff,
    Set.mem_ofPred_eq, Set.mem_insert_iff]
  constructor
  . intro endpoint
    constructor
    . rintro ⟨old, hold | rfl, hold', rfl⟩
      . exact .inr ⟨old, hold, hold', rfl⟩
      . exact .inl rfl
    . rintro (rfl | ⟨old, hold, hold', rfl⟩)
      . exact ⟨row, .inr rfl, hactive, rfl⟩
      . exact ⟨old, .inl hold, hold', rfl⟩
  . intro id
    constructor
    . rintro ⟨old, hold | rfl, rfl⟩
      . exact .inr ⟨old, hold, rfl⟩
      . exact .inl rfl
    . rintro (rfl | ⟨old, hold, rfl⟩)
      . exact ⟨row, .inr rfl, rfl⟩
      . exact ⟨old, .inl hold, rfl⟩

theorem endpoints_deactivated {row : WebhookRow} (hrow : row ∈ db.webhooks.rows)
    : (db.deactivated row.id row.tokenId).endpoints = db.endpoints.remove row.endpoint := by
  unfold endpoints Endpoints.remove
  simp only [rows_deactivated, List.mem_map, Endpoints.mk.injEq, Set.ext_iff, Set.mem_ofPred_eq,
    Set.mem_sdiff, Set.mem_singleton_iff]
  constructor
  . intro endpoint
    constructor
    . rintro ⟨_, ⟨old, hold, rfl⟩, hactive, rfl⟩
      split at hactive
      . contradiction
      . next hother =>
        rw [if_neg hother]
        refine ⟨⟨old, hold, hactive, rfl⟩, ?_⟩
        intro hsame
        injection hsame with hid howner
        exact hother ⟨hid, howner⟩
    . rintro ⟨⟨old, hold, hactive, rfl⟩, hother⟩
      refine ⟨old, ⟨old, hold, ?_⟩, hactive, rfl⟩
      rw [if_neg]
      rintro ⟨hid, _⟩
      apply hother
      rw [Table.key_inj hold hrow hid]
  . intro id
    constructor
    . rintro ⟨_, ⟨old, hold, rfl⟩, rfl⟩
      refine ⟨old, hold, ?_⟩
      split <;> rfl
    . rintro ⟨old, hold, rfl⟩
      refine ⟨_, ⟨old, hold, rfl⟩, ?_⟩
      split <;> rfl

theorem run_deactivateWebhook (db : Db) (id tokenId : Int)
    : (deactivateWebhook id tokenId).run .none db
        =
      if db.webhooks.rows.any fun row => row.id = id && row.tokenId = tokenId then
        (.ok (), db.deactivated id tokenId)
      else
        (.error .queryReturnedNoRows, db) := by
  unfold deactivateWebhook
  rw [Sql.run_execute_none]
  cases db.webhooks.rows.any fun row => row.id = id && row.tokenId = tokenId <;> rfl

theorem run_insertWebhook (hcounts : db.CountsWebhooks) (howner : db.tokens.contains tokenId)
    (url secret createdAt : String)
    : ∃ webhooks,
        db.webhooks.insert? ⟨db.lastWebhookId + 1, tokenId, url, secret, createdAt, true⟩
            = some webhooks
          ∧
        (insertWebhook tokenId url secret createdAt).run .none db
            =
          (.ok (db.lastWebhookId + 1),
            { db with webhooks, lastWebhookId := db.lastWebhookId + 1 }) := by
  cases hinsert : db.webhooks.insert?
      ⟨db.lastWebhookId + 1, tokenId, url, secret, createdAt, true⟩ with
  | none =>
    rw [Table.insert?_eq_none_iff, Table.contains, Option.isSome_iff_exists] at hinsert
    rcases hinsert with ⟨row, hfind⟩
    have hle := hcounts row (Table.mem_of_find? hfind)
    have hid : row.id = db.lastWebhookId + 1 := Table.key_of_find? hfind
    omega
  | some webhooks =>
    refine ⟨webhooks, rfl, ?_⟩
    unfold insertWebhook
    rw [Sql.run_bind, Sql.run_execute_none]
    simp only [hinsert, inserted, howner, if_true]
    rfl

end Db

def Counting (s s' : State) : Prop := s.db.CountsWebhooks → s'.db.CountsWebhooks

theorem counts_step {action : WebhookCall × Ambient} (h : s.db.CountsWebhooks)
    (hstep : webhookStep ext settings action s = some s')
    : s'.db.CountsWebhooks := by
  rcases action with ⟨call, ambient⟩
  injection hstep with hstep
  rw [← hstep]
  have hends := @ends_runAlone State Response Eq (fun _ => rfl)
    (route ext settings call.request ambient).respond s
  have hcounts : Always Counting (route ext settings call.request ambient).respond := by
    apply Always.bind ((deed_route call.request).mono fun _ _ hdeed => hdeed.counts)
    intro res
    split <;> exact always_pure _
  have htrans : ∀ s s' s'' : State, Counting s s' → Counting s' s'' → Counting s s'' :=
    fun _ _ _ h h' => h' ∘ h
  exact hcounts.ends htrans (by rintro s _ rfl; exact id) hends h

section Steps

variable (hauth : AuthenticatesAs ext settings ambient s token) (hfaults : ambient.faults 1 = .none)
include hauth hfaults

theorem runAlone_register (hcounts : s.db.CountsWebhooks) (payload : WebhookRequest)
    : let (response, s') :=
        (route ext settings (.registerWebhook payload) ambient).respond.runAlone s
      Serves token.id s.db.endpoints (.register payload) response s'.db.endpoints := by
  rcases hauth.runAlone_bind refuseByText _ with ⟨secret, rateLimit, hrun⟩
  have howner : s.db.tokens.contains token.id := by
    unfold Table.contains
    rw [Table.find?_of_mem hauth.mem_tokens]
    rfl
  have hcounts' : Db.CountsWebhooks { s.db with rateLimit } := hcounts
  rcases Db.run_insertWebhook hcounts' howner payload.url payload.secret ambient.now.toRfc3339 with
    ⟨webhooks, hinsert, hinserted⟩
  have hrun : (route ext settings (.registerWebhook payload) ambient).respond.runAlone s
      = (⟨.created, .webhookId (s.db.lastWebhookId + 1), []⟩, { s with db := { s.db with
          rateLimit, webhooks, lastWebhookId := s.db.lastWebhookId + 1 } }) := by
    refine hrun.trans ?_
    rw [runAlone_lockDb_bind, hfaults, hinserted]
    rfl
  rw [hrun]
  have hadd := Db.endpoints_of_insert? hinsert rfl (s.db.lastWebhookId + 1)
  dsimp only at hadd ⊢
  rw [hadd]
  apply Serves.registered
  rintro ⟨row, hrow, hid⟩
  have := hcounts row hrow
  omega

theorem runAlone_list
    : let (response, s') := (route ext settings .listWebhooks ambient).respond.runAlone s
      Serves token.id s.db.endpoints .list response s'.db.endpoints := by
  rcases hauth.runAlone_bind refuseByText _ with ⟨secret, rateLimit, hrun⟩
  have hrun : (route ext settings .listWebhooks ambient).respond.runAlone s
      = (⟨.ok, .webhooks ((s.db.webhooks.rows.filter fun row =>
          row.tokenId = token.id && row.isActive).map fun row =>
            ⟨row.id, row.url, row.createdAt, row.isActive⟩), []⟩,
          { s with db := { s.db with rateLimit } }) := by
    refine hrun.trans ?_
    rw [runAlone_lockDb_bind, hfaults]
    rfl
  rw [hrun]
  apply Serves.listed (s.db.lists_elements token.id)
  unfold Db.elements
  rw [List.map_map, List.map_map]
  apply List.map_congr_left
  intro row hrow
  rw [List.mem_filter, Bool.and_eq_true] at hrow
  simp [hrow.right.right, WebhookRow.endpoint]

theorem runAlone_delete_of_mem {row : WebhookRow} (hrow : row ∈ s.db.webhooks.rows)
    (howner : row.tokenId = token.id)
    : let (response, s') := (route ext settings (.deleteWebhook row.id) ambient).respond.runAlone s
      response = ⟨.noContent, .empty, []⟩
        ∧
      s'.db.endpoints = s.db.endpoints.remove row.endpoint := by
  rcases hauth.runAlone_bind refuseByText _ with ⟨secret, rateLimit, hrun⟩
  have hany : ((s.db.webhooks.rows.any fun old => old.id = row.id && old.tokenId = token.id)) := by
    rw [List.any_eq_true]
    exact ⟨row, hrow, by simp [howner]⟩
  have hrun : (route ext settings (.deleteWebhook row.id) ambient).respond.runAlone s
      = (⟨.noContent, .empty, []⟩,
          { s with db := Db.deactivated { s.db with rateLimit } row.id token.id }) := by
    refine hrun.trans ?_
    rw [runAlone_lockDb_bind, hfaults, Db.run_deactivateWebhook, if_pos hany]
    rfl
  rw [hrun]
  refine ⟨rfl, ?_⟩
  rw [← howner]
  exact Db.endpoints_deactivated hrow

theorem runAlone_delete_of_notMem {id : Int}
    (hnone : ∀ row ∈ s.db.webhooks.rows, row.tokenId = token.id → row.id ≠ id)
    : let (response, s') := (route ext settings (.deleteWebhook id) ambient).respond.runAlone s
      response.status = .notFound ∧ s'.db.endpoints = s.db.endpoints := by
  rcases hauth.runAlone_bind refuseByText _ with ⟨secret, rateLimit, hrun⟩
  have hany : ¬ (s.db.webhooks.rows.any fun row => row.id = id && row.tokenId = token.id) := by
    rw [List.any_eq_true]
    rintro ⟨row, hrow, h⟩
    rw [Bool.and_eq_true, decide_eq_true_eq, decide_eq_true_eq] at h
    exact hnone row hrow h.right h.left
  have hrun : (route ext settings (.deleteWebhook id) ambient).respond.runAlone s
      = (.text .notFound "Webhook not found or does not belong to token",
          { s with db := { s.db with rateLimit } }) := by
    refine hrun.trans ?_
    rw [runAlone_lockDb_bind, hfaults, Db.run_deactivateWebhook, if_neg hany]
    rfl
  rw [hrun]
  exact ⟨rfl, rfl⟩

theorem runAlone_delete_iff (id : Int)
    : let (response, s') := (route ext settings (.deleteWebhook id) ambient).respond.runAlone s
      Serves token.id s.db.endpoints (.delete id) response s'.db.endpoints
        ↔
      ¬ s.db.DeletesAgain token.id (.delete id) := by
  by_cases howned : ∃ row ∈ s.db.webhooks.rows, row.tokenId = token.id ∧ row.id = id
  . rcases howned with ⟨row, hrow, howner, rfl⟩
    rcases runAlone_delete_of_mem hauth hfaults hrow howner with ⟨hresponse, hendpoints⟩
    dsimp only
    rw [hresponse, hendpoints]
    have hsame : ∀ old ∈ s.db.webhooks.rows, old.id = row.id → old = row :=
      fun old hold hid => Table.key_inj hold hrow hid
    constructor
    . rintro hserves ⟨old, hold, hid, _, hinactive⟩
      rw [hsame old hold hid] at hinactive
      generalize hcall : WebhookCall.delete row.id = call at hserves
      generalize hafter : s.db.endpoints.remove row.endpoint = after at hserves
      cases hserves with
      | deleted hactive howner =>
        injection hcall with hid
        rcases hactive with ⟨old, hold, hactive, rfl⟩
        rw [hsame old hold hid.symm, hinactive] at hactive
        contradiction
      | missing hnone hstatus => contradiction
    . intro hfirst
      have hactive : row.isActive := by
        cases hactive : row.isActive with
        | true => rfl
        | false => exact absurd ⟨row, hrow, rfl, howner, hactive⟩ hfirst
      have hmem : row.endpoint ∈ s.db.endpoints.active := ⟨row, hrow, hactive, rfl⟩
      exact Serves.deleted hmem howner
  . have hnone : ∀ row ∈ s.db.webhooks.rows, row.tokenId = token.id → row.id ≠ id :=
      fun row hrow howner hid => howned ⟨row, hrow, howner, hid⟩
    rcases runAlone_delete_of_notMem hauth hfaults hnone with ⟨hstatus, hendpoints⟩
    dsimp only
    rw [hendpoints]
    constructor
    . rintro _ ⟨row, hrow, hid, howner, _⟩
      exact hnone row hrow howner hid
    . intro _
      apply Serves.missing _ hstatus
      rintro _ ⟨row, hrow, _, rfl⟩ howner
      exact hnone row hrow howner

end Steps

/--
After any sequence of calls, the next one that authentication lets through is served as the set of
endpoints says iff it deletes no webhook for the second time; the deliveries always go to the set.
-/
theorem webhooks_refine_endpoints (ext : Crates) (settings : Settings) {s₀ s : State}
    {actions : List (WebhookCall × Ambient)} (hcounts : s₀.db.CountsWebhooks)
    (hrun : Machine.run (webhookStep ext settings) s₀ actions = some s)
    : (∀ tokenId, ∃ elements,
          s.db.endpoints.Lists tokenId elements
            ∧
          ((Db.getWebhooksDeliveryInfo tokenId).run .none s.db).fst
            = .ok (elements.map fun endpoint => (endpoint.url, endpoint.secret)))
        ∧
      ∀ call ambient token,
        AuthenticatesAs ext settings ambient s token → ambient.faults 1 = .none →
          let (response, s') := (route ext settings call.request ambient).respond.runAlone s
          Serves token.id s.db.endpoints call response s'.db.endpoints
            ↔
          ¬ s.db.DeletesAgain token.id call := by
  constructor
  . intro tokenId
    exact ⟨_, s.db.lists_elements tokenId, s.db.run_getWebhooksDeliveryInfo tokenId⟩
  . intro call ambient token hauth hfaults
    cases call with
    | register payload =>
      have hcounts : s.db.CountsWebhooks :=
        Machine.invariant_of_run (fun _ _ _ _ h hstep => counts_step h hstep) hcounts hrun
      exact iff_of_true (runAlone_register hauth hfaults hcounts payload) id
    | list => exact iff_of_true (runAlone_list hauth hfaults) id
    | delete id => exact runAlone_delete_iff hauth hfaults id

namespace Samples

def hook : WebhookRequest := ⟨"https://ci.example.com/hooks/koval", "my_webhook_secret_key_123"⟩

def afterCalls (calls : List WebhookCall) : Option State :=
  Machine.run (webhookStep github.crates Samples.settings)
    { db := aliceAndBob, queue := .new 10 } (calls.map fun call => (call, Samples.ambient ""))

def alice : Token :=
  ⟨1, "$2b$04$abcdefghijklmnopqrstuuArP79ZimpZdq6gzc6nBv1/CtF9GW0Ua", "alice",
    "2026-05-17T16:00:00+00:00", true⟩

end Samples

theorem webhooks_refine_endpoints_twice
    : ∃ s,
        Samples.afterCalls [.register Samples.hook, .register Samples.hook, .delete 1] = some s
          ∧
        let (response, s') := (route Samples.github.crates Samples.settings (.deleteWebhook 2)
          (Samples.ambient "")).respond.runAlone s
        Serves 1 s.db.endpoints (.delete 2) response s'.db.endpoints := by
  refine ⟨_, rfl, ?_⟩
  apply ((webhooks_refine_endpoints Samples.github.crates Samples.settings _
    (rfl : Samples.afterCalls [.register Samples.hook, .register Samples.hook, .delete 1]
      = _)).right (.delete 2) (Samples.ambient "") Samples.alice ⟨"alice-token", by decide, by decide⟩
      rfl).mpr
  . change ¬ ∃ row ∈ _, _
    decide
  . intro row hrow
    contradiction

theorem webhooks_do_not_refine
    : ¬ ∀ (ext : Crates) (settings : Settings) (s₀ s : State)
        (actions : List (WebhookCall × Ambient)),
      s₀.db.CountsWebhooks → Machine.run (webhookStep ext settings) s₀ actions = some s →
        ∀ call ambient token,
          AuthenticatesAs ext settings ambient s token → ambient.faults 1 = .none →
            let (response, s') := (route ext settings call.request ambient).respond.runAlone s
            Serves token.id s.db.endpoints call response s'.db.endpoints := by
  intro h
  have hauth : AuthenticatesAs Samples.github.crates Samples.settings (Samples.ambient "")
      ((Samples.afterCalls [.register Samples.hook, .delete 1]).get (by decide)) Samples.alice :=
    ⟨"alice-token", by decide, by decide⟩
  have hserves := h _ _ _ _ _ (by intro row hrow; contradiction)
    (rfl : Samples.afterCalls [.register Samples.hook, .delete 1] = _) (.delete 1) _ _ hauth rfl
  apply (runAlone_delete_iff hauth rfl 1).mp hserves
  change ∃ row ∈ _, _
  decide

end Koval
