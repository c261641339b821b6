import Koval.Server.Samples
import Koval.Server.SystemFrames

/-!
This module contains the secrets that the token table stands for, and how they come into it.
-/

namespace Koval

variable {crates : Crates} {settings : Settings} {system system' : System}

/-- A hash is verified by the secret that it was made from, and by no other. -/
def Crates.HashesExactly (crates : Crates) : Prop :=
  ∀ salt secret tokenHash, crates.bcryptHash salt secret = .ok tokenHash →
    ∀ rawToken, verify crates rawToken tokenHash ↔ rawToken = secret

namespace Samples

-- With the salts that the hashes were made with.
def saltedHashes : List ((String × String) × String) := [
  (("abcdefghijklmnopqrstuu", "koval_tkn_default_admin"),
    "$2b$04$abcdefghijklmnopqrstuuF58/LsiwXslEogzf36qpcKYUuIf6kGe"),
  (("zyxwvutsrqponmlkjihgfe", "koval_tkn_default_admin"),
    "$2b$04$zyxwvutsrqponmlkjihgfekU4ls6ff1kiszZxxDf5ou/AiqdUQX1a"),
  (("abcdefghijklmnopqrstuu", "8b7a3c52-1f60-4b0e-9a41-5d2f3f9e6c10"),
    "$2b$04$abcdefghijklmnopqrstuuBbQqmAMngPJgpFWVrPq.XnLWXFScV3.")
]

def salted : Crates := { github.crates with
  bcryptVerify raw tokenHash :=
    .ok (saltedHashes.any fun ((_, secret), hash) => secret = raw && hash = tokenHash)
  bcryptHash salt raw :=
    match saltedHashes.lookup (salt, raw) with
    | some tokenHash => .ok tokenHash
    | none => .error "no sample" }

theorem salted_hashesExactly : salted.HashesExactly := by
  have hdistinct : (saltedHashes.map Prod.snd).Nodup := by decide
  intro salt secret tokenHash hhash rawToken
  have hmem : ((salt, secret), tokenHash) ∈ saltedHashes := by
    simp only [salted] at hhash
    split at hhash
    . next hlookup =>
      injection hhash with hhash
      rw [← hhash]
      rcases List.lookup_eq_some_iff.mp hlookup with ⟨before, after, heq, _⟩
      rw [heq]
      simp
    . contradiction
  simp only [verify, salted, List.any_eq_true, Bool.and_eq_true, decide_eq_true_eq]
  constructor
  . rintro ⟨entry, hentry, hraw, hsame⟩
    have heq := List.inj_on_of_nodup_map hdistinct hentry hmem hsame
    rw [heq] at hraw
    exact hraw.symm
  . rintro rfl
    exact ⟨_, hmem, rfl, rfl⟩

-- The operator has chosen the one secret that the routes for tokens are open to.
def adminBoot : Boot := { boot with adminToken := some adminToken }

def adminAmbient (uuid : String) : Ambient :=
  { ambient uuid with authorization := some (asBytes ("Bearer " ++ adminToken)) }

end Samples

def Db.Admits (crates : Crates) (secret : String) (db : Db) : Prop :=
  ∃ token ∈ db.tokens.rows, token.isActive ∧ verify crates secret token.tokenHash

theorem authenticate_eq_ok {secret : String} {now : DateTime} {limit : Nat}
    {faults : Faults Stmt} {db : Db} {token : Token}
    (h : (authenticateAndRateLimit crates secret now limit faults db).fst = .ok token)
    : authenticateAndRateLimit.matchedToken crates secret (db.tokens.rows.filter (·.isActive))
          = some token
        ∧ 0 < limit := by
  unfold authenticateAndRateLimit at h
  split at h
  . next res db' hrun =>
    have hres : res = .ok token := h
    rw [hres] at hrun
    rcases Sql.run_bind_eq_ok hrun with ⟨activeTokens, mid, hquery, hrest⟩
    have ⟨hactive, _⟩ := Sql.run_query_eq_ok hquery
    rw [← hactive]
    split at hrest
    . have ⟨herr, _⟩ := Sql.run_pure_eq_ok hrest
      contradiction
    . next matched hmatched =>
      rw [hmatched]
      split at hrest
      . have ⟨herr, _⟩ := Sql.run_pure_eq_ok hrest
        contradiction
      . rcases Sql.run_bind_eq_ok hrest with ⟨_, _, _, hrest⟩
        rcases Sql.run_bind_eq_ok hrest with ⟨currentRequests, _, _, hrest⟩
        split at hrest
        . have ⟨herr, _⟩ := Sql.run_pure_eq_ok hrest
          contradiction
        . next hlt =>
          rcases Sql.run_bind_eq_ok hrest with ⟨_, _, _, hrest⟩
          have ⟨hok, _⟩ := Sql.run_pure_eq_ok hrest
          injection hok with hok
          rw [hok]
          exact ⟨rfl, by omega⟩
  . contradiction

theorem Db.admits_of_authenticate {secret : String} {now : DateTime} {limit : Nat}
    {faults : Faults Stmt} {db : Db} {token : Token}
    (h : (authenticateAndRateLimit crates secret now limit faults db).fst = .ok token)
    : db.Admits crates secret := by
  have ⟨hmatched, _⟩ := authenticate_eq_ok h
  have hmem := List.mem_of_find?_eq_some hmatched
  have hverify := List.find?_some hmatched
  rw [List.mem_filter] at hmem
  exact ⟨token, hmem.left, hmem.right, hverify⟩

theorem TokensMove.contains {label : Label} {db db' : Db} (h : TokensMove crates label db db')
    {id : Int} (hid : db.tokens.contains id)
    : db'.tokens.contains id := by
  unfold Table.contains at *
  cases h with
  | stay htokens hlast =>
    rw [htokens]
    exact hid
  | insert hhash hinsert hlast =>
    rw [Table.find?_of_insert? hinsert]
    split
    . rfl
    . exact hid
  | revoke htokens hlast =>
    rw [htokens, Table.find?_updateKey]
    split
    . rw [Option.isSome_map]
      exact hid
    . exact hid

theorem Boots.contains {boot : Boot} {db db' : Db} (h : Boots crates boot db db') {id : Int}
    (hid : db.tokens.contains id)
    : db'.tokens.contains id := by
  cases h with
  | stay => exact hid
  | insert hnone hhash hinsert =>
    unfold Table.contains at *
    rw [Table.find?_of_insert? hinsert]
    split
    . rfl
    . exact hid

theorem Turn.contains {action : Action} (h : Turn crates system system' action) {id : Int}
    (hid : system.state.db.tokens.contains id)
    : system'.state.db.tokens.contains id := by
  cases h with
  | run hthread hdone hdeed => exact hdeed.tokens.contains hid
  | restart hboots => exact hboots.contains hid
  | quiet hdb =>
    rw [hdb]
    exact hid

def Label.mints? (label : Label) : Option String :=
  match label with
  | handler (.createToken _) ambient => some ambient.uuid
  | _ => none

/-- Where a row of the token table comes from, in a step of the server. -/
inductive TokenOrigin (crates : Crates) (system : System) (action : Action) (token : Token) :
    Prop where
  | row {old : Token} (hold : old ∈ system.state.db.tokens.rows) (hid : old.id = token.id)
    (hhash : old.tokenHash = token.tokenHash) (hactive : token.isActive → old = token) :
    TokenOrigin crates system action token
  | minted {i : Nat} {thread : Thread Label State Answer} {uuid salt : String}
    (haction : action = .run i) (hthread : system.threads[i]? = some thread)
    (hdone : thread.prog.isDone = false)
    (hmints : thread.label.mints? = some uuid)
    (hfresh : system.state.db.tokens.find? token.id = none)
    (hhash : crates.bcryptHash salt uuid = .ok token.tokenHash) :
    TokenOrigin crates system action token
  | booted {boot : Boot} (haction : action = .restart boot)
    (hnone : ∀ old ∈ system.state.db.tokens.rows, old.isActive = false)
    (hfresh : system.state.db.tokens.find? token.id = none)
    (hhash : crates.bcryptHash boot.salt (boot.adminToken.getD boot.uuid) = .ok token.tokenHash) :
    TokenOrigin crates system action token

theorem Boots.row_cases {boot : Boot} {db db' : Db} (h : Boots crates boot db db') {token : Token}
    (htoken : token ∈ db'.tokens.rows)
    : token ∈ db.tokens.rows
        ∨
      ((∀ old ∈ db.tokens.rows, old.isActive = false)
        ∧ db.tokens.find? token.id = none
        ∧ crates.bcryptHash boot.salt (boot.adminToken.getD boot.uuid) = .ok token.tokenHash) := by
  cases h with
  | stay => exact .inl htoken
  | insert hnone hhash hinsert =>
    change token ∈ Table.rows _ at htoken
    rw [Table.rows_of_insert? hinsert, List.mem_append, List.mem_singleton] at htoken
    rcases htoken with htoken | rfl
    . exact .inl htoken
    . exact .inr ⟨hnone, Table.find?_fresh_of_insert? hinsert, hhash⟩

theorem Turn.origin {action : Action} (h : Turn crates system system' action) {token : Token}
    (htoken : token ∈ system'.state.db.tokens.rows)
    : TokenOrigin crates system action token := by
  cases h with
  | @run _ thread hthread hdone hdeed =>
    have htokens := hdeed.tokens
    generalize hlabel : thread.label = label at htokens
    cases htokens with
    | stay htokens hlast =>
      rw [htokens] at htoken
      exact .row htoken rfl rfl fun _ => rfl
    | insert hhash hinsert hlast =>
      rw [Table.rows_of_insert? hinsert, List.mem_append, List.mem_singleton] at htoken
      rcases htoken with htoken | rfl
      . exact .row htoken rfl rfl fun _ => rfl
      . apply TokenOrigin.minted rfl hthread hdone _
          (Table.find?_fresh_of_insert? hinsert) hhash
        rw [hlabel]
        rfl
    | revoke htokens hlast =>
      rw [htokens] at htoken
      rcases Table.exists_of_mem_updateKey (by intro row; rfl) htoken with ⟨old, hold, rfl⟩
      split
      . exact .row hold rfl rfl fun hactive => Bool.noConfusion hactive
      . exact .row hold rfl rfl fun _ => rfl
  | restart hboots =>
    rcases hboots.row_cases htoken with hold | ⟨hnone, hfresh, hhash⟩
    . exact .row hold rfl rfl fun _ => rfl
    . exact .booted rfl hnone hfresh hhash
  | quiet hdb =>
    rw [hdb] at htoken
    exact .row htoken rfl rfl fun _ => rfl

def System.MintsOther (secret : String) (system : System) : Prop :=
  ∀ thread ∈ system.threads, thread.prog.isDone = false → thread.label.mints? ≠ some secret

theorem System.MintsOther.step {secret : String} {action : Action} (h : system.MintsOther secret)
    (hstep : system.step crates settings action = some system')
    (haction : ∀ payload ambient, action = .request (.createToken payload) ambient →
      ambient.uuid ≠ secret)
    : system'.MintsOther secret := by
  intro thread' hthread' hdone'
  rcases System.exists_of_step hstep hthread' with
    ⟨thread, hthread, hlabel, hsame⟩ | ⟨request, ambient, rfl, hlabel⟩ | ⟨job, hlabel⟩
  . rw [hlabel]
    apply h thread hthread
    cases hdone : thread.prog.isDone with
    | false => rfl
    | true =>
      rw [hsame hdone, hdone] at hdone'
      contradiction
  . rw [hlabel]
    cases request with
    | createToken payload =>
      intro huuid
      injection huuid with huuid
      exact haction payload ambient rfl huuid
    | _ =>
      intro huuid
      contradiction
  . rw [hlabel]
    intro huuid
    contradiction

end Koval
