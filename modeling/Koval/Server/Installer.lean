import Koval.Server.AuthRuns
import Koval.Server.Routes.Handler

/-!
This module contains what the install script asks the server for, one request after the other, and how
the rate limit treats it.
-/

namespace Koval

namespace authenticateAndRateLimit

open SlidingWindow AuthCall

variable (ext : Crates) (limit : Nat) (tokens : Table Token.id) (tokenId : Int)

def AcceptsAll (served : List Served) : Prop :=
  ∀ s ∈ served, ofToken ext tokens tokenId s.req → s.acceptedFor tokenId

def Expires (old : AuthRequest) (later : List AuthRequest) : Prop :=
  ∃ req ∈ later, (tokenOf ext tokens req.bearer).isSome
    ∧ old.now.floorMillis < (req.now.minusSeconds 60).floorMillis

def Expiring (n : Nat) (requests : List AuthRequest) : Prop :=
  ∀ pre old mid req post, requests = pre ++ old :: (mid ++ req :: post) →
    ofToken ext tokens tokenId old → ofToken ext tokens tokenId req →
      mid.countP (ofToken ext tokens tokenId) = n → Expires ext tokens old (mid ++ [req])

def InOrder (requests : List AuthRequest) : Prop :=
  requests.Pairwise fun r r' => ofToken ext tokens tokenId r → ofToken ext tokens tokenId r' →
    r.now.nanos ≤ r'.now.nanos

variable {ext tokens tokenId}

theorem expiring_of_length_le {n : Nat} {requests : List AuthRequest} (h : requests.length ≤ n + 1)
    : Expiring ext tokens tokenId n requests := by
  intro pre old mid req post heq _ _ hcount
  have hle : mid.countP (ofToken ext tokens tokenId) ≤ mid.length := List.countP_le_length
  rw [heq] at h
  simp only [List.length_append, List.length_cons] at h
  omega

theorem acceptsAll_append_singleton (served : List Served) (s : Served)
    : AcceptsAll ext tokens tokenId (served ++ [s])
        ↔
      AcceptsAll ext tokens tokenId served
        ∧ (ofToken ext tokens tokenId s.req → s.acceptedFor tokenId) := by
  simp [AcceptsAll, or_imp, forall_and]

theorem expiring_append_singleton (n : Nat) (requests : List AuthRequest) (req : AuthRequest)
    : Expiring ext tokens tokenId n (requests ++ [req])
        ↔
      Expiring ext tokens tokenId n requests
        ∧ (ofToken ext tokens tokenId req →
            ∀ pre old later, requests = pre ++ old :: later → ofToken ext tokens tokenId old →
              later.countP (ofToken ext tokens tokenId) = n →
                Expires ext tokens old (later ++ [req])) := by
  constructor
  . intro h
    refine ⟨?_, ?_⟩
    . intro pre old mid req' post heq
      apply h pre old mid req' (post ++ [req])
      simp [heq]
    . intro hreq pre old later heq hold
      apply h pre old later req [] _ hold hreq
      simp [heq]
  . rintro ⟨hbefore, hlast⟩ pre old mid req' post heq hold hreq'
    rcases List.eq_nil_or_concat post with rfl | ⟨post, last, rfl⟩
    . have heq' : requests ++ [req] = (pre ++ old :: mid) ++ [req'] := by simp [heq]
      rw [List.append_singleton_inj] at heq'
      rw [heq'.right] at hlast
      exact hlast hreq' pre old mid heq'.left hold
    . have heq' : requests ++ [req] = (pre ++ old :: (mid ++ req' :: post)) ++ [last] := by
        simp [heq]
      rw [List.append_singleton_inj] at heq'
      exact hbefore pre old mid req' post heq'.left hold hreq'

-- What the log of the decisions says about the requests

theorem countKey_decided (served : List Served)
    : window.countKey (served.filterMap (decided ext tokens)) tokenId
        =
      (served.map (·.req)).countP (ofToken ext tokens tokenId) := by
  unfold countKey
  rw [List.countP_filterMap, List.countP_map]
  apply List.countP_congr
  intro s _
  unfold decided
  rw [Function.comp_apply, ofToken]
  cases htoken : tokenOf ext tokens s.req.bearer with
  | none => rfl
  | some token => rfl

theorem forgets_decided {old : AuthRequest} {later : List Served} {req : AuthRequest}
    (hreq : (tokenOf ext tokens req.bearer).isSome) (id id' : Int)
    : window.Forgets ⟨id, old.now⟩ (later.filterMap (decided ext tokens)) ⟨id', req.now⟩
        ↔
      Expires ext tokens old (later.map (·.req) ++ [req]) := by
  unfold Forgets Expires
  constructor
  . rintro (hnow | ⟨d, hd, hlt⟩)
    . exact ⟨req, by simp, hreq, hnow⟩
    . rw [List.mem_filterMap] at hd
      rcases hd with ⟨s, hs, hsd⟩
      unfold decided at hsd
      rw [Option.map_eq_some_iff] at hsd
      rcases hsd with ⟨token, htoken, rfl⟩
      refine ⟨s.req, List.mem_append_left _ (List.mem_map_of_mem hs), ?_, hlt⟩
      rw [htoken]
      rfl
  . rintro ⟨r, hr, htoken, hlt⟩
    rw [List.mem_append, List.mem_singleton, List.mem_map] at hr
    rcases hr with ⟨s, hs, rfl⟩ | rfl
    . rw [Option.isSome_iff_exists] at htoken
      rcases htoken with ⟨token, htoken⟩
      refine Or.inr ⟨⟨⟨token.id, s.req.now⟩, s.acceptedFor token.id⟩, ?_, hlt⟩
      rw [List.mem_filterMap]
      refine ⟨s, hs, ?_⟩
      unfold decided
      rw [htoken]
      rfl
    . exact Or.inl hlt

theorem steady_decided {served : List Served} {requests : List AuthRequest}
    (hrequests : served.map (·.req) = requests) (haccepts : AcceptsAll ext tokens tokenId served)
    (hsorted : InOrder ext tokens tokenId requests)
    : window.Steady (served.filterMap (decided ext tokens)) tokenId := by
  have hdecided : ∀ {s : Served} {d : Decided AuthCall}, decided ext tokens s = some d →
      window.key d.req = tokenId →
        ofToken ext tokens tokenId s.req ∧ d.req.now = s.req.now
          ∧ d.admitted = s.acceptedFor tokenId := by
    intro s d hd hkey
    unfold decided at hd
    rw [Option.map_eq_some_iff] at hd
    rcases hd with ⟨token, htoken, rfl⟩
    change token.id = tokenId at hkey
    refine ⟨?_, rfl, ?_⟩
    . unfold ofToken
      simp [htoken, hkey]
    . rw [← hkey]
  constructor
  . intro d hd hkey
    rw [List.mem_filterMap] at hd
    rcases hd with ⟨s, hs, hd⟩
    have ⟨hof, _, hadmitted⟩ := hdecided hd hkey
    rw [hadmitted]
    exact haccepts s hs hof
  . unfold InOrder at hsorted
    rw [← hrequests, List.pairwise_map] at hsorted
    rw [List.pairwise_filterMap]
    apply hsorted.imp
    intro s s' hle d hd d' hd' hkey hkey'
    have ⟨hof, hnow, _⟩ := hdecided hd hkey
    have ⟨hof', hnow', _⟩ := hdecided hd' hkey'
    have hle := hle hof hof'
    change d.req.now.floorMillis ≤ d'.req.now.floorMillis
    rw [hnow, hnow']
    unfold DateTime.floorMillis
    omega

theorem accepted_iff {served : List Served} {requests : List AuthRequest}
    (hrequests : served.map (·.req) = requests)
    (haccepts : AcceptsAll ext tokens tokenId served) (hsorted : InOrder ext tokens tokenId requests)
    {req : AuthRequest} (hreq : ofToken ext tokens tokenId req) (n : Nat)
    : (⟨req, tableDecision ext (n + 1) tokens served req⟩ : Served).acceptedFor tokenId
        ↔
      ∀ pre old later, requests = pre ++ old :: later → ofToken ext tokens tokenId old →
        later.countP (ofToken ext tokens tokenId) = n → Expires ext tokens old (later ++ [req]) := by
  unfold ofToken at hreq
  rw [Option.any_eq_true] at hreq
  rcases hreq with ⟨token, htoken, hid⟩
  rw [decide_eq_true_eq] at hid
  have hsome : (tokenOf ext tokens req.bearer).isSome := by
    rw [htoken]
    rfl
  have hdecision : (⟨req, tableDecision ext (n + 1) tokens served req⟩ : Served).acceptedFor tokenId
      ↔ window.survivingCount (served.filterMap (decided ext tokens)) ⟨token.id, req.now⟩ ≤ n := by
    unfold Served.acceptedFor tableDecision
    rw [htoken, ← Nat.lt_succ_iff]
    dsimp only
    by_cases hlt : window.survivingCount (served.filterMap (decided ext tokens))
        ⟨token.id, req.now⟩ < n + 1
    . rw [if_pos hlt]
      exact iff_of_true (decide_eq_true hid) hlt
    . rw [if_neg hlt]
      exact iff_of_false Bool.false_ne_true hlt
  have hsteady := steady_decided hrequests haccepts hsorted
  rw [← hid] at hsteady
  rw [hdecision, survivingCount_le_iff window n hsteady]
  subst hid
  constructor
  . intro hforgets pre old later heq hold hcount
    rw [heq, List.map_eq_append_iff] at hrequests
    rcases hrequests with ⟨spre, srest, hserved, _, hrest⟩
    rw [List.map_eq_cons_iff] at hrest
    rcases hrest with ⟨s, slater, rfl, rfl, rfl⟩
    unfold ofToken at hold
    rw [Option.any_eq_true] at hold
    rcases hold with ⟨token', htoken', hid'⟩
    rw [decide_eq_true_eq] at hid'
    have hs : decided ext tokens s = some ⟨⟨token'.id, s.req.now⟩, s.acceptedFor token'.id⟩ := by
      unfold decided
      rw [htoken']
      rfl
    apply (forgets_decided hsome token'.id token.id).mp
    apply hforgets (spre.filterMap (decided ext tokens)) ⟨_, s.acceptedFor token'.id⟩
    . rw [hserved, List.filterMap_append, List.filterMap_cons, hs]
    . exact hid'
    . rw [← hcount]
      exact countKey_decided slater
  . intro hexpires pre d later heq hkey hcount
    rw [List.filterMap_eq_append_iff] at heq
    rcases heq with ⟨spre, srest, hserved, _, hrest⟩
    rw [List.filterMap_eq_cons_iff] at hrest
    rcases hrest with ⟨skipped, s, slater, hrest, _, hs, rfl⟩
    unfold decided at hs
    rw [Option.map_eq_some_iff] at hs
    rcases hs with ⟨token', htoken', rfl⟩
    change token'.id = token.id at hkey
    apply (forgets_decided hsome token'.id token.id).mpr
    apply hexpires ((spre ++ skipped).map (·.req)) s.req (slater.map (·.req))
    . rw [← hrequests, hserved, hrest]
      simp
    . unfold ofToken
      simp [htoken', hkey]
    . rw [← countKey_decided]
      exact hcount

theorem InOrder.init {requests : List AuthRequest} {req : AuthRequest}
    (h : InOrder ext tokens tokenId (requests ++ [req]))
    : InOrder ext tokens tokenId requests :=
  (List.pairwise_append.mp h).left

theorem serveAll_acceptsAll_iff {db : Db} (hempty : db.rateLimit = .empty)
    {requests : List AuthRequest} (hrange : ∀ req ∈ requests, req.now.InRange)
    (hsorted : InOrder ext db.tokens tokenId requests) (n : Nat)
    : AcceptsAll ext db.tokens tokenId (serveAll ext (n + 1) db requests).fst
        ↔
      Expiring ext db.tokens tokenId n requests := by
  induction requests using List.reverseRecOn with
  | nil =>
    apply iff_of_true
    . intro s hs
      contradiction
    . exact expiring_of_length_le (Nat.zero_le _)
  | append_singleton requests req ih =>
    have hrange' : ∀ r ∈ requests, r.now.InRange := by
      intro r hr
      exact hrange r (List.mem_append_left _ hr)
    have ih := ih hrange' hsorted.init
    have hrunning := serveAll_running ext (n + 1) hempty hrange'
    have ⟨db', hserve, _⟩ := serve_eq (n + 1) hrunning (hrange req (by simp))
    rw [serveAll_append, hserve, acceptsAll_append_singleton, expiring_append_singleton, ← ih]
    apply and_congr_right
    intro haccepts
    apply forall_congr'
    intro hreq
    exact accepted_iff (serveAll_map_req ext (n + 1) db requests) haccepts hsorted.init hreq n

theorem acceptedFor_iff_isOk {db : Db} {served : List Served} (h : Running ext tokens served db)
    {s : Served} (hs : s ∈ served) (hof : ofToken ext tokens tokenId s.req)
    : s.acceptedFor tokenId ↔ s.result.isOk := by
  unfold Served.acceptedFor
  cases hresult : s.result with
  | error err => exact Iff.rfl
  | ok token =>
    unfold ofToken at hof
    rw [h.accepted s hs token hresult] at hof
    exact iff_of_true hof rfl

end authenticateAndRateLimit

def defaultRateLimit : Nat := 20

-- What the install script asks for with its token.
inductive Ask where
  | install
  | status
  | binary
  deriving DecidableEq, Repr

inductive Installer where
  | asks (ask : Ask)
  | unpacks
  -- after an error message of its own
  | exits
  -- `curl -f` failed, and with it the script, which runs under `set -e`
  | aborts (ask : Ask) (status : StatusCode)
  deriving DecidableEq, Repr

/-- What the server gets, in the order in which requests get the database lock. -/
inductive Arrival where
  -- `status` is what the script finds in the response if the request is let through
  | script (now : DateTime) (status : String)
  | other (req : AuthRequest)
  deriving DecidableEq, Repr

structure Call where
  -- none if it is not the script that asks
  ask : Option Ask
  req : AuthRequest
  deriving DecidableEq, Repr

namespace Installer

open authenticateAndRateLimit

def next (ask : Ask) (status : String) : Installer :=
  match ask with
  | .install =>
    if status = "cached" then .asks .binary
    else if status = "building" then .asks .status
    else .exits
  | .status =>
    if status = "completed" || status = "done" then .asks .binary
    else if status = "failed" then .exits
    else .asks .status
  | .binary => .unpacks

structure Run where
  db : Db
  script : Installer := .asks .install
  answers : List (Ask × Except AuthError Token) := []

variable (ext : Crates) (limit : Nat) (secret : String)

def step (run : Run) (arrival : Arrival) : Run :=
  match arrival, run.script with
  | .other req, _ =>
    { run with db := (authenticateAndRateLimit ext req.bearer req.now limit .none run.db).snd }
  | .script now status, .asks ask =>
    let (result, db) := authenticateAndRateLimit ext secret now limit .none run.db
    let script :=
      match result with
      | .ok _ => next ask status
      | .error err => .aborts ask (refuseByCause err).status
    ⟨db, script, run.answers ++ [(ask, result)]⟩
  | .script _ _, _ => run

def run (db : Db) (arrivals : List Arrival) : Run := arrivals.foldl (step ext limit secret) { db }

def Run.Survives (run : Run) : Prop :=
  (∀ answer ∈ run.answers, answer.snd.isOk) ∧ ∀ ask status, run.script ≠ .aborts ask status

def call? (script : Installer) (arrival : Arrival) : Option Call :=
  match arrival, script with
  | .other req, _ => some ⟨none, req⟩
  | .script now _, .asks ask => some ⟨some ask, ⟨secret, now⟩⟩
  | .script _ _, _ => none

def after (script : Installer) (arrival : Arrival) : Installer :=
  match arrival, script with
  | .script _ status, .asks ask => next ask status
  | _, script => script

def calls (script : Installer) (arrivals : List Arrival) : List Call :=
  match arrivals with
  | [] => []
  | arrival :: arrivals =>
    (call? secret script arrival).toList ++ calls (script.after arrival) arrivals

def requests (arrivals : List Arrival) : List AuthRequest :=
  (calls secret (.asks .install) arrivals).map (·.req)

-- Before each poll the script sleeps for 2 seconds.
def Paced (arrivals : List Arrival) : Prop :=
  ((calls secret (.asks .install) arrivals).filter (·.ask.isSome)).IsChain fun before call =>
    if call.ask = some .status then
      before.req.now.nanos ≤ (call.req.now.minusSeconds 2).nanos
    else
      before.req.now.nanos ≤ call.req.now.nanos

variable {ext limit secret}

theorem calls_append_singleton (script : Installer) (arrivals : List Arrival) (arrival : Arrival)
    : calls secret script (arrivals ++ [arrival])
        =
      calls secret script arrivals ++ (call? secret (arrivals.foldl after script) arrival).toList := by
  induction arrivals generalizing script with
  | nil => simp [calls]
  | cons before arrivals ih => simp [calls, ih]

theorem requests_append_singleton (arrivals : List Arrival) (arrival : Arrival)
    : requests secret (arrivals ++ [arrival])
        =
      requests secret arrivals
        ++ ((call? secret (arrivals.foldl after (.asks .install)) arrival).map (·.req)).toList := by
  unfold requests
  rw [calls_append_singleton, List.map_append, Option.toList_map]

theorem run_append_singleton (db : Db) (arrivals : List Arrival) (arrival : Arrival)
    : run ext limit secret db (arrivals ++ [arrival])
        =
      step ext limit secret (run ext limit secret db arrivals) arrival := by
  unfold run
  rw [List.foldl_append]
  rfl

structure Run.Undisturbed (run : Run) (served : List Served × Db) (script : Installer) : Prop where
  script : run.script = script
  db : run.db = served.snd
  survives : run.Survives

def Run.Aborted (run : Run) : Prop := ∃ ask status, run.script = .aborts ask status

theorem Run.Aborted.not_survives {run : Run} (h : run.Aborted) : ¬ run.Survives := by
  rcases h with ⟨ask, status, hscript⟩
  intro hsurvives
  exact hsurvives.right ask status hscript

theorem Run.Aborted.step {run : Run} (h : run.Aborted) (arrival : Arrival)
    : (step ext limit secret run arrival).Aborted := by
  rcases h with ⟨ask, status, hscript⟩
  refine ⟨ask, status, ?_⟩
  cases arrival with
  | other req => exact hscript
  | script now text =>
    unfold Installer.step
    rw [hscript]
    exact hscript

section Ended

variable {script : Installer} (hasks : ∀ ask, script ≠ .asks ask) {now : DateTime} {status : String}
include hasks

theorem call?_of_ended : call? secret script (.script now status) = none := by
  unfold call?
  split
  . contradiction
  . exact absurd rfl (hasks _)
  . rfl

theorem after_of_ended : after script (.script now status) = script := by
  unfold after
  split
  . exact absurd rfl (hasks _)
  . rfl

end Ended

theorem step_of_ended {run : Run} (hasks : ∀ ask, run.script ≠ .asks ask) {now : DateTime}
    {status : String}
    : step ext limit secret run (.script now status) = run := by
  unfold step
  split
  . contradiction
  . next h => exact absurd h (hasks _)
  . rfl

-- Only the script shows the token.
def OnlyScript (ext : Crates) (tokens : Table Token.id) (tokenId : Int) (arrivals : List Arrival) :
    Prop :=
  ∀ req, Arrival.other req ∈ arrivals → ¬ ofToken ext tokens tokenId req

theorem step_other {run : Run} {served : List Served} {db : Db} {script : Installer}
    (h : run.Undisturbed (served, db) script) (req : AuthRequest)
    : (step ext limit secret run (.other req)).Undisturbed (serve ext limit (served, db) req)
        script where
  script := h.script
  db := by
    unfold step serve
    rw [h.db]
  survives := h.survives

theorem step_script_ok {run : Run} {served : List Served} {db : Db} {ask : Ask}
    (h : run.Undisturbed (served, db) (.asks ask)) (now : DateTime) (status : String)
    (hok : (authenticateAndRateLimit ext secret now limit .none db).fst.isOk)
    : (step ext limit secret run (.script now status)).Undisturbed
        (serve ext limit (served, db) ⟨secret, now⟩) (next ask status) := by
  have hdb : run.db = db := h.db
  generalize hauth : authenticateAndRateLimit ext secret now limit .none db = auth at hok
  rcases auth with ⟨_ | token, db'⟩
  . contradiction
  . unfold step serve
    simp only [h.script, hdb, hauth]
    refine ⟨rfl, rfl, ?_, ?_⟩
    . intro answer hanswer
      rw [List.mem_append, List.mem_singleton] at hanswer
      rcases hanswer with hanswer | rfl
      . exact h.survives.left answer hanswer
      . rfl
    . intro ask' status'
      unfold next
      dsimp only
      repeat' split
      all_goals simp

theorem step_script_error {run : Run} {served : List Served} {db : Db} {ask : Ask}
    (h : run.Undisturbed (served, db) (.asks ask)) (now : DateTime) (status : String)
    (herror : ¬ (authenticateAndRateLimit ext secret now limit .none db).fst.isOk)
    : (step ext limit secret run (.script now status)).Aborted := by
  have hdb : run.db = db := h.db
  generalize hauth : authenticateAndRateLimit ext secret now limit .none db = auth at herror
  rcases auth with ⟨err | token, db'⟩
  . unfold step
    simp only [h.script, hdb, hauth]
    exact ⟨ask, (refuseByCause err).status, rfl⟩
  . exact absurd rfl herror

theorem acceptsAll_serve {tokens : Table Token.id} {tokenId : Int} (served : List Served × Db)
    (req : AuthRequest)
    : AcceptsAll ext tokens tokenId (serve ext limit served req).fst
        ↔
      AcceptsAll ext tokens tokenId served.fst
        ∧ (ofToken ext tokens tokenId req →
            (⟨req, (authenticateAndRateLimit ext req.bearer req.now limit .none served.snd).fst⟩
              : Served).acceptedFor tokenId) :=
  acceptsAll_append_singleton _ _

theorem run_cases {db : Db} (hempty : db.rateLimit = .empty) {token : Token}
    (htoken : tokenOf ext db.tokens secret = some token) {arrivals : List Arrival}
    (hrange : ∀ req ∈ requests secret arrivals, req.now.InRange)
    (hothers : OnlyScript ext db.tokens token.id arrivals)
    : AcceptsAll ext db.tokens token.id
          (serveAll ext limit db (requests secret arrivals)).fst
        ∧ (run ext limit secret db arrivals).Undisturbed
            (serveAll ext limit db (requests secret arrivals)) (arrivals.foldl after (.asks .install))
      ∨
      ¬ AcceptsAll ext db.tokens token.id
          (serveAll ext limit db (requests secret arrivals)).fst
        ∧ (run ext limit secret db arrivals).Aborted := by
  have hof : ∀ now, ofToken ext db.tokens token.id ⟨secret, now⟩ := by
    intro now
    unfold ofToken
    simp [htoken]
  induction arrivals using List.reverseRecOn with
  | nil =>
    left
    refine ⟨?_, rfl, rfl, ?_, ?_⟩
    . intro s hs
      contradiction
    . intro answer hanswer
      contradiction
    . intro ask status h
      contradiction
  | append_singleton arrivals arrival ih =>
    have hrange' : ∀ req ∈ requests secret arrivals, req.now.InRange := by
      intro req hreq
      apply hrange
      rw [requests_append_singleton]
      exact List.mem_append_left _ hreq
    have ih := ih hrange' (fun req hreq => hothers req (List.mem_append_left _ hreq))
    have hrunning := serveAll_running ext limit hempty hrange
    rw [requests_append_singleton] at hrunning ⊢
    rw [run_append_singleton, List.foldl_append, List.foldl_cons, List.foldl_nil]
    generalize arrivals.foldl after (.asks .install) = script at *
    cases arrival with
    | other req =>
      have hreq := hothers req (by simp)
      have hcall : ((call? secret script (.other req)).map (·.req)).toList = [req] := rfl
      rw [hcall, serveAll_append, acceptsAll_serve]
      rcases ih with ⟨haccepts, hrun⟩ | ⟨hrefuses, hrun⟩
      . exact Or.inl ⟨⟨haccepts, fun hof => absurd hof hreq⟩, step_other hrun req⟩
      . exact Or.inr ⟨fun haccepts => hrefuses haccepts.left, hrun.step _⟩
    | script now status =>
      by_cases hasks : ∃ ask, script = .asks ask
      . rcases hasks with ⟨ask, rfl⟩
        have hcall : ((call? secret (.asks ask) (.script now status)).map (·.req)).toList
            = [⟨secret, now⟩] := rfl
        rw [hcall, serveAll_append] at hrunning
        rw [hcall, serveAll_append, acceptsAll_serve]
        rcases ih with ⟨haccepts, hrun⟩ | ⟨hrefuses, hrun⟩
        . generalize serveAll ext limit db (requests secret arrivals) = served at *
          have hiff := acceptedFor_iff_isOk hrunning (List.mem_append_right _ List.mem_cons_self)
            (hof now)
          by_cases hok : (authenticateAndRateLimit ext secret now limit .none served.snd).fst.isOk
          . exact Or.inl ⟨⟨haccepts, fun _ => hiff.mpr hok⟩, step_script_ok hrun now status hok⟩
          . refine Or.inr ⟨?_, step_script_error hrun now status hok⟩
            intro hboth
            exact hok (hiff.mp (hboth.right (hof now)))
        . exact Or.inr ⟨fun haccepts => hrefuses haccepts.left, hrun.step _⟩
      . rw [not_exists] at hasks
        have hcall : ((call? secret script (.script now status)).map (·.req)).toList = [] := by
          rw [call?_of_ended hasks]
          rfl
        rw [hcall, List.append_nil, after_of_ended hasks]
        rcases ih with ⟨haccepts, hrun⟩ | ⟨hrefuses, hrun⟩
        . refine Or.inl ⟨haccepts, ?_⟩
          rw [← hrun.script] at hasks
          rw [step_of_ended hasks]
          exact hrun
        . exact Or.inr ⟨hrefuses, hrun.step _⟩

theorem mem_other_of_mem_calls {script : Installer} {arrivals : List Arrival} {call : Call}
    (hcall : call ∈ calls secret script arrivals) (hask : call.ask = none)
    : Arrival.other call.req ∈ arrivals := by
  induction arrivals generalizing script with
  | nil => contradiction
  | cons arrival arrivals ih =>
    unfold calls at hcall
    rw [List.mem_append, Option.mem_toList] at hcall
    rcases hcall with hcall | hcall
    . unfold call? at hcall
      split at hcall
      . injection hcall with hcall
        rw [← hcall]
        exact List.mem_cons_self
      . injection hcall with hcall
        rw [← hcall] at hask
        contradiction
      . contradiction
    . exact List.mem_cons_of_mem _ (ih hcall)

theorem inOrder_of_paced {tokens : Table Token.id} {tokenId : Int} {arrivals : List Arrival}
    (hpaced : Paced secret arrivals) (hothers : OnlyScript ext tokens tokenId arrivals)
    : InOrder ext tokens tokenId (requests secret arrivals) := by
  have hchain : ((calls secret (.asks .install) arrivals).filter (·.ask.isSome)).IsChain
      fun before call => before.req.now.nanos ≤ call.req.now.nanos := by
    apply hpaced.imp
    intro before call hle
    split at hle
    . unfold DateTime.minusSeconds at hle
      dsimp at hle
      omega
    . exact hle
  let before (c c' : Call) : Prop := c.req.now.nanos ≤ c'.req.now.nanos
  have : Trans before before before := ⟨le_trans⟩
  have hpairs := List.pairwise_filter.mp (List.isChain_iff_pairwise.mp hchain)
  have hscript : ∀ call ∈ calls secret (.asks .install) arrivals,
      ofToken ext tokens tokenId call.req → call.ask.isSome := by
    intro call hcall hof
    by_contra hask
    rw [Bool.not_eq_true, Option.isSome_eq_false_iff, Option.isNone_iff_eq_none] at hask
    exact hothers call.req (mem_other_of_mem_calls hcall hask) hof
  unfold InOrder requests
  rw [List.pairwise_map]
  apply hpairs.imp_of_mem
  intro call call' hcall hcall' hle hof hof'
  exact hle (hscript call hcall hof) (hscript call' hcall' hof')

theorem survives_iff_acceptsAll {db : Db} (hempty : db.rateLimit = .empty) {token : Token}
    (htoken : tokenOf ext db.tokens secret = some token) {arrivals : List Arrival}
    (hrange : ∀ req ∈ requests secret arrivals, req.now.InRange)
    (hothers : OnlyScript ext db.tokens token.id arrivals)
    : (run ext limit secret db arrivals).Survives
        ↔
      AcceptsAll ext db.tokens token.id (serveAll ext limit db (requests secret arrivals)).fst := by
  rcases run_cases hempty htoken hrange hothers with ⟨haccepts, hrun⟩ | ⟨hrefuses, hrun⟩
  . exact iff_of_true hrun.survives haccepts
  . exact iff_of_false hrun.not_survives hrefuses

theorem survives_iff {db : Db} (hempty : db.rateLimit = .empty) {token : Token}
    (htoken : tokenOf ext db.tokens secret = some token) {arrivals : List Arrival}
    (hrange : ∀ req ∈ requests secret arrivals, req.now.InRange)
    (hothers : OnlyScript ext db.tokens token.id arrivals) (hpaced : Paced secret arrivals)
    : (run ext defaultRateLimit secret db arrivals).Survives
        ↔
      Expiring ext db.tokens token.id (defaultRateLimit - 1) (requests secret arrivals) := by
  rw [survives_iff_acceptsAll hempty htoken hrange hothers]
  exact serveAll_acceptsAll_iff hempty hrange (inOrder_of_paced hpaced hothers) _

theorem survives_iff_short
    : let arrivals : List Arrival := [
        .script (Samples.time 0) "building", .other ⟨"bob-token", Samples.time 1⟩,
        .script (Samples.time 3) "building", .script (Samples.time 5) "done",
        .script (Samples.time 6) ""]
      (run Samples.github.crates defaultRateLimit "alice-token" Samples.aliceAndBob arrivals).Survives
        ↔
      Expiring Samples.github.crates Samples.aliceAndBob.tokens 1 (defaultRateLimit - 1)
        (requests "alice-token" arrivals) := by
  intro arrivals
  have htoken : tokenOf Samples.github.crates Samples.aliceAndBob.tokens "alice-token"
      = some (Samples.aliceAndBob.tokens.rows.head (by decide)) := by rfl
  apply survives_iff rfl htoken (by decide)
  . intro req hreq
    have : req = ⟨"bob-token", Samples.time 1⟩ := by simpa [arrivals] using hreq
    rw [this]
    decide
  . unfold Paced
    decide

def slowBuild : List Arrival :=
  .script (Samples.time 0) "building"
    :: (List.range 21).map (fun i => .script (Samples.time (2 * i + 2)) "building")
    ++ [.script (Samples.time 44) "done", .script (Samples.time 44) ""]

theorem aborts_while_building
    : ¬ ∀ (ext : Crates) (secret : String) (db : Db) (token : Token), db.rateLimit = .empty →
        tokenOf ext db.tokens secret = some token →
          ∀ arrivals : List Arrival, (∀ req ∈ requests secret arrivals, req.now.InRange) →
            OnlyScript ext db.tokens token.id arrivals → Paced secret arrivals →
              (run ext defaultRateLimit secret db arrivals).Survives := by
  intro h
  have htoken : tokenOf Samples.github.crates Samples.aliceAndBob.tokens "alice-token"
      = some (Samples.aliceAndBob.tokens.rows.head (by decide)) := by rfl
  have hrange : ∀ req ∈ requests "alice-token" slowBuild, req.now.InRange := by decide
  have hothers : OnlyScript Samples.github.crates Samples.aliceAndBob.tokens 1 slowBuild := by
    intro req hreq
    simp [slowBuild] at hreq
  have hpaced : Paced "alice-token" slowBuild := by
    unfold Paced
    decide
  have hsurvives := h Samples.github.crates "alice-token" Samples.aliceAndBob _ rfl htoken slowBuild
    hrange hothers hpaced
  rw [survives_iff_acceptsAll rfl htoken hrange hothers] at hsurvives
  have hexpiring := (serveAll_acceptsAll_iff rfl hrange (inOrder_of_paced hpaced hothers)
    (defaultRateLimit - 1)).mp hsurvives
  -- the 21st request comes after 40 seconds
  have ⟨req, hreq, _, hlt⟩ := hexpiring [] _ (((requests "alice-token" slowBuild).drop 1).take 19) _
    ((requests "alice-token" slowBuild).drop 21) rfl (by decide) (by decide) (by decide)
  revert req
  decide

end Installer

end Koval
