import Koval.Server.AuthLemmas

/-!
This module contains runs of requests that get the database lock one after the other.
-/

namespace Koval

structure AuthRequest where
  bearer : String
  now : DateTime
  deriving DecidableEq, Repr

structure Served where
  req : AuthRequest
  result : Except AuthError Token

namespace Served

def acceptedFor (served : Served) (tokenId : Int) : Bool :=
  match served.result with
  | .ok token => token.id = tokenId
  | .error _ => false

end Served

namespace authenticateAndRateLimit

open SlidingWindow AuthCall

variable (ext : Crates) (limit : Nat)

def tokenOf (tokens : Table Token.id) (bearer : String) : Option Token :=
  matchedToken ext bearer (tokens.rows.filter (·.isActive))

def serve (state : List Served × Db) (req : AuthRequest) : List Served × Db :=
  let (result, db) := authenticateAndRateLimit ext req.bearer req.now limit .none state.snd
  (state.fst ++ [⟨req, result⟩], db)

def serveAll (db : Db) (requests : List AuthRequest) : List Served × Db :=
  requests.foldl (serve ext limit) ([], db)

def acceptedSince (served : List Served) (tokenId : Int) (since : DateTime) : Nat :=
  served.countP fun s => s.acceptedFor tokenId && since.floorMillis ≤ s.req.now.floorMillis

/-- The limit by a log of all that was served. -/
def logDecision (tokens : Table Token.id) (served : List Served) (req : AuthRequest) :
    Except AuthError Token :=
  match tokenOf ext tokens req.bearer with
  | none => .error .invalidToken
  | some token =>
    if acceptedSince served token.id (req.now.minusSeconds 60) < limit then
      .ok token
    else
      .error .rateLimitExceeded

def logServe (tokens : Table Token.id) (served : List Served) (req : AuthRequest) : List Served :=
  served ++ [⟨req, logDecision ext limit tokens served req⟩]

def decided (tokens : Table Token.id) (served : Served) : Option (Decided AuthCall) :=
  (tokenOf ext tokens served.req.bearer).map fun token =>
    ⟨⟨token.id, served.req.now⟩, served.acceptedFor token.id⟩

structure Running (tokens : Table Token.id) (served : List Served) (db : Db) : Prop where
  tokens_eq : db.tokens = tokens
  refines : Refines db (served.filterMap (decided ext tokens))
  accepted : ∀ s ∈ served, ∀ token, s.result = .ok token →
    tokenOf ext tokens s.req.bearer = some token

theorem running_nil {db : Db} (h : db.rateLimit = .empty) : Running ext db.tokens [] db where
  tokens_eq := rfl
  refines := refines_nil h
  accepted := by
    intro s hs
    contradiction

variable {ext} {tokens : Table Token.id} {served : List Served} {db : Db}

theorem tokenOf_of_acceptedFor (h : Running ext tokens served db) {s : Served} (hs : s ∈ served)
    {tokenId : Int} (haccepted : s.acceptedFor tokenId)
    : ∃ token, tokenOf ext tokens s.req.bearer = some token ∧ token.id = tokenId := by
  unfold Served.acceptedFor at haccepted
  split at haccepted
  . next token htoken =>
    rw [decide_eq_true_eq] at haccepted
    exact ⟨token, h.accepted s hs token htoken, haccepted⟩
  . contradiction

theorem count_eq_acceptedSince (h : Running ext tokens served db) (call : AuthCall)
    : window.count (served.filterMap (decided ext tokens)) call
        =
      acceptedSince served call.tokenId (call.now.minusSeconds 60) := by
  unfold count acceptedSince
  rw [List.countP_filterMap]
  apply List.countP_congr
  intro s hs
  unfold decided
  cases htoken : tokenOf ext tokens s.req.bearer with
  | none =>
    have : ¬ s.acceptedFor call.tokenId := by
      intro haccepted
      have ⟨token, htoken', _⟩ := tokenOf_of_acceptedFor h hs haccepted
      rw [htoken] at htoken'
      contradiction
    simp [this]
  | some token =>
    by_cases hid : token.id = call.tokenId
    . simp [Hits, window, hid]
    . have : ¬ s.acceptedFor call.tokenId := by
        intro haccepted
        have ⟨token', htoken', hid'⟩ := tokenOf_of_acceptedFor h hs haccepted
        rw [htoken] at htoken'
        injection htoken' with heq
        rw [heq] at hid
        contradiction
      simp [Hits, window, hid, this]

variable (ext tokens served) in
/-- The limit by what the table has not forgotten. -/
def tableDecision (req : AuthRequest) : Except AuthError Token :=
  match tokenOf ext tokens req.bearer with
  | none => .error .invalidToken
  | some token =>
    if window.survivingCount (served.filterMap (decided ext tokens)) ⟨token.id, req.now⟩ < limit then
      .ok token
    else
      .error .rateLimitExceeded

theorem accepted_append (h : Running ext tokens served db) (req : AuthRequest)
    : ∀ s ∈ served ++ [⟨req, tableDecision ext limit tokens served req⟩], ∀ token,
        s.result = .ok token → tokenOf ext tokens s.req.bearer = some token := by
  intro s hs token hresult
  rw [List.mem_append, List.mem_singleton] at hs
  cases hs with
  | inl hs => exact h.accepted s hs token hresult
  | inr hs =>
    rw [hs] at hresult ⊢
    unfold tableDecision at hresult
    dsimp at hresult
    split at hresult
    . contradiction
    . next token' htoken =>
      split at hresult
      . injection hresult with heq
        rw [← heq]
        exact htoken
      . contradiction

theorem serve_eq (h : Running ext tokens served db) {req : AuthRequest} (hnow : req.now.InRange)
    : ∃ db', serve ext limit (served, db) req
          = (served ++ [⟨req, tableDecision ext limit tokens served req⟩], db')
        ∧ Running ext tokens (served ++ [⟨req, tableDecision ext limit tokens served req⟩]) db' := by
  have haccepted := accepted_append limit h req
  unfold serve
  generalize hdecision : tableDecision ext limit tokens served req = decision at *
  unfold tableDecision at hdecision
  split at hdecision
  . next hnone =>
    refine ⟨db, ?_, ?_⟩
    . unfold authenticateAndRateLimit
      unfold tokenOf at hnone
      rw [← h.tokens_eq] at hnone
      rw [run_go_none hnone, hdecision]
    . refine ⟨h.tokens_eq, ?_, haccepted⟩
      rw [List.filterMap_append]
      simpa [decided, hnone] using h.refines
  . next token hsome =>
    have hmatched := hsome
    unfold tokenOf at hmatched
    rw [← h.tokens_eq] at hmatched
    have ⟨db', hauth, htokens, hrefines⟩ := step_refines limit h.refines hnow hmatched
    refine ⟨db', ?_, ?_⟩
    . rw [hauth, hdecision]
    . refine ⟨htokens.trans h.tokens_eq, ?_, haccepted⟩
      rw [List.filterMap_append]
      have : [(⟨req, decision⟩ : Served)].filterMap (decided ext tokens)
          = [⟨⟨token.id, req.now⟩,
              window.survivingCount (served.filterMap (decided ext tokens)) ⟨token.id, req.now⟩
                < limit⟩] := by
        simp only [decided, hsome, Option.map_some, List.filterMap_cons, List.filterMap_nil,
          ← hdecision]
        unfold Served.acceptedFor
        by_cases hlt : window.survivingCount (served.filterMap (decided ext tokens))
            ⟨token.id, req.now⟩ < limit <;> simp [hlt]
      rw [this]
      exact hrefines

def StepRemembers (ext : Crates) (tokens : Table Token.id) (served : List Served)
    (req : AuthRequest) : Prop :=
  ∀ token, tokenOf ext tokens req.bearer = some token →
    ∀ pre old later, served = pre ++ old :: later → old.acceptedFor token.id →
      (req.now.minusSeconds 60).floorMillis ≤ old.req.now.floorMillis →
        ∀ s ∈ later, (tokenOf ext tokens s.req.bearer).isSome →
          (s.req.now.minusSeconds 60).floorMillis ≤ old.req.now.floorMillis

theorem remembers_of_stepRemembers {req : AuthRequest} {token : Token}
    (htoken : tokenOf ext tokens req.bearer = some token)
    (h : StepRemembers ext tokens served req)
    : window.Remembers (served.filterMap (decided ext tokens)) ⟨token.id, req.now⟩ := by
  intro pre' old' later' heq hadmitted hhits d hd
  rw [List.filterMap_eq_append_iff] at heq
  rcases heq with ⟨pre, rest, hserved, _, hrest⟩
  rw [List.filterMap_eq_cons_iff] at hrest
  rcases hrest with ⟨skipped, old, later, hrest, _, hold, hlater⟩
  rw [← hlater, List.mem_filterMap] at hd
  rcases hd with ⟨s, hs, hsd⟩
  unfold decided at hold hsd
  rw [Option.map_eq_some_iff] at hold hsd
  rcases hold with ⟨oldToken, _, rfl⟩
  rcases hsd with ⟨sToken, hsToken, rfl⟩
  have hkey : oldToken.id = token.id := hhits.left
  dsimp at hadmitted
  rw [hkey] at hadmitted
  apply h token htoken (pre ++ skipped) old later
  . rw [hserved, hrest, List.append_assoc]
  . exact hadmitted
  . exact hhits.right
  . exact hs
  . rw [hsToken]
    rfl

theorem tableDecision_eq_logDecision (h : Running ext tokens served db) {req : AuthRequest}
    (hstep : StepRemembers ext tokens served req)
    : tableDecision ext limit tokens served req = logDecision ext limit tokens served req := by
  unfold tableDecision logDecision
  cases htoken : tokenOf ext tokens req.bearer with
  | none => rfl
  | some token =>
    dsimp only
    rw [survivingCount_eq_count window (remembers_of_stepRemembers htoken hstep),
      count_eq_acceptedSince h]

variable (ext)

theorem serveAll_append (db : Db) (requests : List AuthRequest) (req : AuthRequest)
    : serveAll ext limit db (requests ++ [req])
        =
      serve ext limit (serveAll ext limit db requests) req := by
  unfold serveAll
  rw [List.foldl_append]
  rfl

theorem serveAll_running {db : Db} (hempty : db.rateLimit = .empty) {requests : List AuthRequest}
    (hrange : ∀ req ∈ requests, req.now.InRange)
    : Running ext db.tokens (serveAll ext limit db requests).fst
        (serveAll ext limit db requests).snd := by
  induction requests using List.reverseRecOn with
  | nil => exact running_nil ext hempty
  | append_singleton requests req ih =>
    have ih := ih fun req hreq => hrange req (List.mem_append_left _ hreq)
    have ⟨db', hserve, hrunning⟩ := serve_eq limit ih (hrange req (by simp))
    rw [serveAll_append, hserve]
    exact hrunning

theorem serveAll_map_req (db : Db) (requests : List AuthRequest)
    : (serveAll ext limit db requests).fst.map (·.req) = requests := by
  induction requests using List.reverseRecOn with
  | nil => rfl
  | append_singleton requests req ih =>
    rw [serveAll_append]
    unfold serve
    rw [List.map_append, ih]
    rfl

def RunRemembers (db : Db) (requests : List AuthRequest) : Prop :=
  ∀ pre req post, requests = pre ++ req :: post →
    StepRemembers ext db.tokens (serveAll ext limit db pre).fst req

theorem RunRemembers.init {requests : List AuthRequest} {req : AuthRequest}
    (h : RunRemembers ext limit db (requests ++ [req]))
    : RunRemembers ext limit db requests := by
  intro pre req' post heq
  apply h pre req' (post ++ [req])
  rw [heq, List.append_assoc, List.cons_append]

theorem serveAll_step {db : Db} (hempty : db.rateLimit = .empty) {requests : List AuthRequest}
    {req : AuthRequest} (hrange : ∀ r ∈ requests ++ [req], r.now.InRange)
    (hremembers : RunRemembers ext limit db (requests ++ [req]))
    : (serveAll ext limit db (requests ++ [req])).fst
        =
      logServe ext limit db.tokens (serveAll ext limit db requests).fst req := by
  have hrunning := serveAll_running ext limit hempty fun r hr => hrange r (List.mem_append_left _ hr)
  have ⟨db', hserve, _⟩ := serve_eq limit hrunning (hrange req (by simp))
  rw [serveAll_append, hserve, tableDecision_eq_logDecision limit hrunning]
  . rfl
  . exact hremembers requests req [] rfl

theorem serveAll_eq_foldl_logServe {db : Db} (hempty : db.rateLimit = .empty)
    {requests : List AuthRequest} (hrange : ∀ req ∈ requests, req.now.InRange)
    (hremembers : RunRemembers ext limit db requests)
    : (serveAll ext limit db requests).fst
        =
      requests.foldl (logServe ext limit db.tokens) [] := by
  induction requests using List.reverseRecOn with
  | nil => rfl
  | append_singleton requests req ih =>
    have ih := ih (fun r hr => hrange r (List.mem_append_left _ hr)) (hremembers.init ext limit)
    rw [serveAll_step ext limit hempty hrange hremembers, List.foldl_append, ih]
    rfl

theorem runRemembers_of_pairwise {requests : List AuthRequest}
    (hsorted : requests.Pairwise fun r r' => r.now.nanos ≤ r'.now.nanos)
    : RunRemembers ext limit db requests := by
  intro pre req post heq token _ pre' old later hserved _ hsince s hs _
  have hreq : s.req ∈ pre := by
    rw [← serveAll_map_req ext limit db pre, hserved]
    simp only [List.map_append, List.map_cons, List.mem_append, List.mem_cons]
    exact Or.inr (Or.inr (List.mem_map_of_mem hs))
  have hle : s.req.now.nanos ≤ req.now.nanos := by
    rw [heq, List.pairwise_append] at hsorted
    exact hsorted.right.right s.req hreq req List.mem_cons_self
  unfold DateTime.floorMillis DateTime.minusSeconds at *
  dsimp at *
  omega

theorem runRemembers_of_close {requests : List AuthRequest}
    (hclose : ∀ r ∈ requests, ∀ r' ∈ requests,
      (r.now.minusSeconds 60).floorMillis ≤ r'.now.floorMillis)
    : RunRemembers ext limit db requests := by
  intro pre req post heq token _ pre' old later hserved _ _ s hs _
  have hmem : ∀ s ∈ (serveAll ext limit db pre).fst, s.req ∈ requests := by
    intro s hs
    have := List.mem_map_of_mem (f := fun s : Served => s.req) hs
    rw [serveAll_map_req ext limit db pre] at this
    rw [heq]
    exact List.mem_append_left _ this
  rw [hserved] at hmem
  apply hclose
  . exact hmem s (by simp [hs])
  . exact hmem old (by simp)

def ofToken (tokens : Table Token.id) (tokenId : Int) (req : AuthRequest) : Bool :=
  (tokenOf ext tokens req.bearer).any (·.id = tokenId)

theorem acceptedFor_logDecision {req : AuthRequest} {tokenId : Int}
    (h : (⟨req, logDecision ext limit tokens served req⟩ : Served).acceptedFor tokenId)
    : ofToken ext tokens tokenId req := by
  unfold Served.acceptedFor logDecision at h
  unfold ofToken
  cases htoken : tokenOf ext tokens req.bearer with
  | none => simp [htoken] at h
  | some token =>
    rw [htoken] at h
    dsimp at h
    split at h
    . next heq =>
      split at heq
      . injection heq with heq
        rw [heq]
        exact h
      . contradiction
    . contradiction

theorem acceptedSince_filter_ofToken {served : List Served} {tokenId : Int}
    (h : ∀ s ∈ served, s.acceptedFor tokenId → ofToken ext tokens tokenId s.req) (since : DateTime)
    : acceptedSince (served.filter fun s => ofToken ext tokens tokenId s.req) tokenId since
        =
      acceptedSince served tokenId since := by
  unfold acceptedSince
  rw [List.countP_filter]
  apply List.countP_congr
  intro s hs
  have := h s hs
  simp only [Bool.and_eq_true]
  tauto

theorem acceptedFor_foldl_logServe (tokens : Table Token.id) (requests : List AuthRequest)
    (tokenId : Int)
    : ∀ s ∈ requests.foldl (logServe ext limit tokens) [],
        s.acceptedFor tokenId → ofToken ext tokens tokenId s.req := by
  induction requests using List.reverseRecOn with
  | nil =>
    intro s hs
    contradiction
  | append_singleton requests req ih =>
    intro s hs haccepted
    rw [List.foldl_append, List.foldl_cons, List.foldl_nil] at hs
    unfold logServe at hs
    rw [List.mem_append, List.mem_singleton] at hs
    cases hs with
    | inl hs => exact ih s hs haccepted
    | inr hs =>
      rw [hs] at haccepted ⊢
      exact acceptedFor_logDecision ext limit haccepted

theorem foldl_logServe_filter_ofToken (tokens : Table Token.id) (requests : List AuthRequest)
    (tokenId : Int)
    : (requests.foldl (logServe ext limit tokens) []).filter
          (fun s => ofToken ext tokens tokenId s.req)
        =
      (requests.filter (ofToken ext tokens tokenId)).foldl (logServe ext limit tokens) [] := by
  induction requests using List.reverseRecOn with
  | nil => rfl
  | append_singleton requests req ih =>
    rw [List.foldl_append, List.foldl_cons, List.foldl_nil, List.filter_append, List.foldl_append,
      ← ih]
    have haccepted := acceptedFor_foldl_logServe ext limit tokens requests tokenId
    generalize requests.foldl (logServe ext limit tokens) [] = served at *
    unfold logServe
    rw [List.filter_append]
    cases hof : ofToken ext tokens tokenId req with
    | false => simp [hof]
    | true =>
      have hdecision : logDecision ext limit tokens served req
          = logDecision ext limit tokens (served.filter fun s => ofToken ext tokens tokenId s.req)
              req := by
        unfold logDecision
        unfold ofToken at hof
        cases htoken : tokenOf ext tokens req.bearer with
        | none => rfl
        | some token =>
          simp only [htoken, Option.any_some, decide_eq_true_eq] at hof
          dsimp only
          rw [hof, acceptedSince_filter_ofToken ext haccepted]
      simp [hof, ← hdecision]

theorem serveAll_refines_log {db : Db} (hempty : db.rateLimit = .empty)
    {requests : List AuthRequest} (hrange : ∀ req ∈ requests, req.now.InRange)
    (hsorted : requests.Pairwise fun r r' => r.now.nanos ≤ r'.now.nanos)
    : (serveAll ext limit db requests).fst = requests.foldl (logServe ext limit db.tokens) []
        ∧
      ∀ tokenId : Int,
        (serveAll ext limit db requests).fst.filter (fun s => ofToken ext db.tokens tokenId s.req)
          =
        (serveAll ext limit db (requests.filter (ofToken ext db.tokens tokenId))).fst := by
  have hrun := serveAll_eq_foldl_logServe ext limit hempty hrange
    (runRemembers_of_pairwise ext limit hsorted)
  refine ⟨hrun, ?_⟩
  intro tokenId
  have hrange' : ∀ req ∈ requests.filter (ofToken ext db.tokens tokenId), req.now.InRange := by
    intro req hreq
    exact hrange req (List.mem_filter.mp hreq).left
  rw [hrun, foldl_logServe_filter_ofToken]
  exact (serveAll_eq_foldl_logServe ext limit hempty hrange'
    (runRemembers_of_pairwise ext limit (hsorted.filter _))).symm

theorem serveAll_refines_log_alice_bob
    : let ext := Samples.github.crates
      let db := Samples.aliceAndBob
      let requests : List AuthRequest := [
        ⟨"alice-token", Samples.time 0⟩, ⟨"bob-token", Samples.time 30⟩,
        ⟨"alice-token", Samples.time 59⟩, ⟨"alice-token", Samples.time 61⟩]
      (serveAll ext 1 db requests).fst = requests.foldl (logServe ext 1 db.tokens) []
        ∧
      ∀ tokenId : Int,
        (serveAll ext 1 db requests).fst.filter (fun s => ofToken ext db.tokens tokenId s.req)
          =
        (serveAll ext 1 db (requests.filter (ofToken ext db.tokens tokenId))).fst := by
  intro ext db requests
  apply serveAll_refines_log ext 1 rfl
  . decide
  . decide

-- The requests accepted for the token in the 60 seconds from `start`, both ends included.
def acceptedWithin (served : List Served) (tokenId : Int) (start : DateTime) : Nat :=
  served.countP fun s =>
    s.acceptedFor tokenId
      && decide (start.nanos ≤ s.req.now.nanos ∧ (s.req.now.minusSeconds 60).nanos ≤ start.nanos)

theorem acceptedWithin_le_between (h : Running ext tokens served db) (tokenId : Int)
    (start : DateTime)
    : acceptedWithin served tokenId start
        ≤ window.between (served.filterMap (decided ext tokens)) tokenId start.floorMillis
            (start.floorMillis + 60000) := by
  unfold acceptedWithin between
  rw [List.countP_filterMap]
  apply List.countP_mono_left
  intro s hs hwithin
  rw [Bool.and_eq_true, decide_eq_true_eq] at hwithin
  have ⟨token, htoken, hid⟩ := tokenOf_of_acceptedFor h hs hwithin.left
  have hwithin := hwithin.right
  unfold DateTime.minusSeconds at hwithin
  dsimp at hwithin
  have htime : start.floorMillis ≤ s.req.now.floorMillis
      ∧ s.req.now.floorMillis ≤ start.floorMillis + 60000 := by
    unfold DateTime.floorMillis
    omega
  unfold decided
  simp_all [window]

theorem between_serveAll_le {db : Db} (hempty : db.rateLimit = .empty)
    {requests : List AuthRequest} (hrange : ∀ req ∈ requests, req.now.InRange)
    (hremembers : RunRemembers ext limit db requests) (tokenId lo : Int)
    : window.between ((serveAll ext limit db requests).fst.filterMap (decided ext db.tokens)) tokenId
        lo (lo + 60000) ≤ limit := by
  induction requests using List.reverseRecOn with
  | nil => exact Nat.zero_le limit
  | append_singleton requests req ih =>
    have hrange' : ∀ r ∈ requests, r.now.InRange := by
      intro r hr
      exact hrange r (List.mem_append_left _ hr)
    have ih := ih hrange' (hremembers.init ext limit)
    have hrunning := serveAll_running ext limit hempty hrange'
    rw [serveAll_step ext limit hempty hrange hremembers]
    unfold logServe
    rw [List.filterMap_append]
    cases htoken : tokenOf ext db.tokens req.bearer with
    | none => simpa [decided, htoken] using ih
    | some token =>
      simp only [List.filterMap_cons, List.filterMap_nil, decided, htoken, Option.map_some]
      apply between_append_singleton_le _ _ _ ih
      . intro hhi
        unfold window DateTime.floorMillis DateTime.minusSeconds at *
        dsimp at *
        omega
      . intro hadmitted
        rw [count_eq_acceptedSince hrunning]
        unfold Served.acceptedFor logDecision at hadmitted
        rw [htoken] at hadmitted
        by_contra hge
        dsimp at hadmitted hge
        rw [if_neg hge] at hadmitted
        contradiction

theorem serveAll_within_limit {db : Db} (hempty : db.rateLimit = .empty)
    {requests : List AuthRequest} (hrange : ∀ req ∈ requests, req.now.InRange)
    (hremembers : RunRemembers ext limit db requests)
    : ∀ (tokenId : Int) (start : DateTime),
        acceptedWithin (serveAll ext limit db requests).fst tokenId start ≤ limit := by
  intro tokenId start
  have hrunning := serveAll_running ext limit hempty hrange
  apply Nat.le_trans (acceptedWithin_le_between ext hrunning tokenId start)
  exact between_serveAll_le ext limit hempty hrange hremembers tokenId start.floorMillis

theorem serveAll_within_limit_out_of_order
    : let ext := Samples.github.crates
      let requests : List AuthRequest := [
        ⟨"alice-token", Samples.time 20⟩, ⟨"bob-token", Samples.time 50⟩,
        ⟨"alice-token", Samples.time 10⟩]
      ∀ (tokenId : Int) (start : DateTime),
        acceptedWithin (serveAll ext 1 Samples.aliceAndBob requests).fst tokenId start ≤ 1 := by
  intro ext requests
  apply serveAll_within_limit ext 1 rfl
  . decide
  . apply runRemembers_of_close
    decide

theorem serveAll_exceeds_limit_out_of_order
    : ¬ ∀ (ext : Crates) (limit : Nat) (db : Db), db.rateLimit = .empty →
        ∀ (requests : List AuthRequest), (∀ req ∈ requests, req.now.InRange) →
          ∀ (tokenId : Int) (start : DateTime),
            acceptedWithin (serveAll ext limit db requests).fst tokenId start ≤ limit := by
  intro h
  -- bob's request makes the table forget what the last of alice's has to count
  let requests : List AuthRequest := [
    ⟨"alice-token", Samples.time 0⟩, ⟨"bob-token", Samples.time 61⟩,
    ⟨"alice-token", Samples.time 59⟩]
  have hle := h Samples.github.crates 1 Samples.aliceAndBob rfl requests (by decide) 1
    (Samples.time 0)
  revert hle
  decide +kernel

end authenticateAndRateLimit

end Koval
