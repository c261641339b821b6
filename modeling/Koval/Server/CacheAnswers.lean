import Koval.Server.JobLife
import Koval.Server.SystemFrames

/-!
This module contains that a handler which answers with an earlier build has found it in the build cache
with its last step.
-/

namespace Koval

open Prog

variable {crates : Crates} {settings : Settings} {ambient : Ambient} {request : Request}

/-- An answer to a request for `tuple` with the build `id`, which is not one that it has started. -/
inductive AnswersFromCache (ambient : Ambient) :
    Request → BuildTuple → Response → String → Prop where
  | build {payload : JobRequest} {id : String} (hid : id ≠ ambient.uuid) :
    AnswersFromCache ambient (.build payload) payload.tuple ⟨.accepted, .id id, []⟩ id
  | forgeInstall {params : ForgeInstallParams} {hardware : HardwareProfile} {id sha256 : String} :
    AnswersFromCache ambient (.forgeInstall params hardware) (params.tuple hardware)
      ⟨.ok, .cached ("/build/" ++ id ++ "/binary") sha256, []⟩ id

/-- What a handler finds in the cache is noted in the same step, and the last thing it does. -/
def Looks (found : Option (BuildTuple × String)) (s : State) (found' : Option (BuildTuple × String))
    (s' : State) : Prop :=
  found = none
    ∧ ∀ tuple id, found' = some (tuple, id) → s'.history = .answered tuple id :: s.history

def AnswersFound (label : Label) (found : Option (BuildTuple × String)) (answer : Answer) : Prop :=
  ∀ request ambient response, label = .handler request ambient → answer = .response response →
    ∀ tuple id, AnswersFromCache ambient request tuple response id → found = some (tuple, id)

def IsFound (ambient : Ambient) (request : Request) (found : Option (BuildTuple × String))
    (response : Response) : Prop :=
  ∀ tuple id, AnswersFromCache ambient request tuple response id → found = some (tuple, id)

theorem looks_none (s s' : State) : Looks none s none s' := ⟨rfl, fun _ _ h => nomatch h⟩

theorem isFound_text {found : Option (BuildTuple × String)} (status : StatusCode) (text : String)
    : IsFound ambient request found (.text status text) := by
  intro tuple id h
  cases h

theorem isFound_of_error {α : Type} {found : Option (BuildTuple × String)} {status : StatusCode}
    {text : String} {response : Response}
    (h : (.error (.text status text) : Except Response α) = .error response)
    : IsFound ambient request found response := by
  injection h with h
  rw [← h]
  exact isFound_text _ _

theorem follows_cacheLookup_looks (tuple : BuildTuple)
    : Follows Looks (fun found cached => found = cached.map fun (id, _) => (tuple, id))
        (cacheLookup crates ambient tuple) none := by
  apply follows_atomic
  intro s
  dsimp only
  split
  . next id filePath sha256 s' hrun =>
    have hhistory : s'.history = s.history :=
      (congrArg (fun res => res.snd.history) hrun).symm
    split
    . refine ⟨some (tuple, id), ⟨rfl, ?_⟩, rfl⟩
      rintro _ _ ⟨⟩
      exact congrArg (.answered tuple id :: ·) hhistory
    . exact ⟨none, looks_none _ _, rfl⟩
  . exact ⟨none, looks_none _ _, rfl⟩

theorem follows_submit_looks {job : Job} (scope : Nat) (queuedAt : DateTime) (insertError : String)
    {accept : String → Response} (haccept : IsFound ambient request none (accept job.id))
    : Follows Looks (Until (IsFound ambient request) (IsFound ambient request))
        (submit crates ambient scope job queuedAt insertError accept).run none := by
  have hstill : ∀ {α : Type} (prog : Prog State α),
      Follows Looks (fun found _ => found = none) prog none :=
    fun prog => follows_of_forall looks_none (fun _ => rfl) prog
  unfold submit
  apply Follows.bindExcept (hstill _).liftExcept
  rintro res _ rfl
  split
  . exact isFound_text _ _
  . apply Follows.bindExcept (m := fun found res => found = none ∧ ∀ id, res = .ok id → id = job.id)
    . apply Follows.liftExcept
      apply follows_atomic
      intro s
      refine ⟨none, looks_none _ _, rfl, ?_⟩
      dsimp only
      split
      . next id' hok =>
        rintro id ⟨⟩
        exact (JobQueue.jobs_enqueue (Prod.ext hok rfl)).left
      . intro id herror
        contradiction
    . rintro res _ ⟨rfl, hid⟩
      split
      . next id =>
        rw [hid id rfl]
        exact haccept
      . apply Follows.bindExcept (hstill _).liftExcept
        intro _ _ _
        exact isFound_text _ _
      . exact isFound_text _ _

theorem buildHandler.isFound_of_validate {payload : JobRequest} {response : Response}
    (h : validate payload = .error response)
    : IsFound ambient request none response := by
  unfold validate at h
  split at h
  . exact isFound_of_error h
  . split at h
    . exact isFound_of_error h
    . split at h
      . exact isFound_of_error h
      . split at h
        . contradiction
        . contradiction
        . exact isFound_of_error h

theorem forgeInstallHandler.isFound_of_validate {params : ForgeInstallParams} {response : Response}
    (h : validate params = .error response)
    : IsFound ambient request none response := by
  unfold validate at h
  split at h
  . exact isFound_of_error h
  . split at h
    . exact isFound_of_error h
    . contradiction

theorem follows_buildHandler_looks (payload : JobRequest)
    : Follows Looks (Until (IsFound ambient (.build payload)) (IsFound ambient (.build payload)))
        (buildHandler crates settings ambient payload).run none := by
  unfold buildHandler
  apply Follows.bindExcept (follows_authenticate (fun s s' _ => looks_none s s') (isFound_text _ _) _)
  . rintro ⟨_, token⟩ _ rfl
    dsimp only
    split
    . next hvalidate => exact follows_pure (buildHandler.isFound_of_validate hvalidate)
    . apply Follows.bindExcept
        (m := fun found cached => found = cached.map fun (id, _) => (payload.tuple, id))
      . unfold buildHandler.lookup
        split
        . exact (follows_cacheLookup_looks payload.tuple).liftExcept
        . exact follows_pure rfl
      . rintro cached _ rfl
        split
        . next id _ =>
          rintro _ _ ⟨⟩
          rfl
        . apply follows_submit_looks
          rintro _ _ (⟨hid⟩ | _)
          exact absurd rfl hid
  . intro err
    cases err <;> exact isFound_text _ _

theorem eq_of_binary_url {id id' : String}
    (h : "/build/" ++ id ++ "/binary" = "/build/" ++ id' ++ "/binary")
    : id = id' := by
  have h := congrArg String.toList h
  rw [← String.toList_inj]
  simpa using h

theorem follows_forgeInstallHandler_looks (params : ForgeInstallParams) (hardware : HardwareProfile)
    : Follows Looks
        (Until (IsFound ambient (.forgeInstall params hardware))
          (IsFound ambient (.forgeInstall params hardware)))
        (forgeInstallHandler crates settings ambient params hardware).run none := by
  unfold forgeInstallHandler
  apply Follows.bindExcept (follows_authenticate (fun s s' _ => looks_none s s') (isFound_text _ _) _)
  . rintro ⟨_, token⟩ _ rfl
    dsimp only
    split
    . next hvalidate => exact follows_pure (forgeInstallHandler.isFound_of_validate hvalidate)
    . apply Follows.bindExcept (follows_cacheLookup_looks (params.tuple hardware)).liftExcept
      rintro cached _ rfl
      split
      . next id sha256 =>
        generalize hresponse : Response.mk .ok (.cached ("/build/" ++ id ++ "/binary") sha256) []
          = response
        rintro _ id' h
        cases h with
        | forgeInstall =>
          injection hresponse with _ hbody
          injection hbody with hurl
          rw [eq_of_binary_url hurl]
          rfl
      . apply follows_submit_looks
        intro _ _ h
        cases h
  . intro err
    cases err <;> exact isFound_text _ _

theorem follows_answersFound (request : Request) (ambient : Ambient)
    : Follows Looks (AnswersFound (.handler request ambient))
        (do let response ← (route crates settings request ambient).respond
            pure (Answer.response response))
        none := by
  have hfound : ∀ found response, IsFound ambient request found response →
      AnswersFound (.handler request ambient) found (.response response) := by
    rintro found response h _ _ _ ⟨⟩ ⟨⟩
    exact h
  have hresponds : Follows Looks (Until (IsFound ambient request) (IsFound ambient request))
      (route crates settings request ambient).run none := by
    cases request with
    | build payload => exact follows_buildHandler_looks payload
    | forgeInstall params hardware => exact follows_forgeInstallHandler_looks params hardware
    | _ =>
      apply follows_of_forall looks_none
      intro res
      cases res <;> exact fun _ _ h => nomatch h
  apply Follows.bind (m := IsFound ambient request)
  . apply Follows.bind hresponds
    intro res found hres
    cases res <;> exact hres
  . intro response found h
    exact hfound found response h

variable {system system' : System}

theorem System.Reachable.exists_looks (h : system.Reachable crates settings)
    : ∃ found, Pool.Conforms Looks (fun _ _ => True) AnswersFound system.threads found := by
  rcases h with ⟨boot, system₀, actions, hmain, hrun⟩
  apply Machine.invariant_of_run
    (I := fun system => ∃ found, Pool.Conforms Looks (fun _ _ => True) AnswersFound
      (Pool.threads system) found) _ _ hrun
  . rintro action _ system system' ⟨found, hconforms⟩ hstep
    cases System.stepsTo hstep with
    | request => exact ⟨_, hconforms.spawn trivial (follows_answersFound _ _)⟩
    | @recv externals job queue _ _ =>
      refine ⟨found ++ [none], Pool.Conforms.spawn hconforms trivial ?_⟩
      apply follows_of_forall looks_none
      rintro _ _ _ _ ⟨⟩
    | run hrun =>
      rcases hconforms.runThread (fun _ _ _ _ _ _ _ => trivial) hrun with ⟨_, _, _, _, hconforms'⟩
      exact ⟨_, hconforms'⟩
    | changeFiles => exact ⟨found, hconforms⟩
    | restart hthreads =>
      refine ⟨[], ?_⟩
      rw [hthreads]
      exact Pool.conforms_nil
  . have ⟨hthreads, _⟩ := main_eq_some hmain
    refine ⟨[], ?_⟩
    rw [hthreads]
    exact Pool.conforms_nil

/-- The step with which a handler answers from the cache has found there what it answers. -/
theorem System.Reachable.answered_of_response (h : system.Reachable crates settings) {i : Nat}
    (hstep : system.step crates settings (.run i) = some system') {response : Response}
    (hthread : system'.threads[i]? = some ⟨.handler request ambient, .ret (.response response)⟩)
    {tuple : BuildTuple} {id : String} (hanswers : AnswersFromCache ambient request tuple response id)
    : system'.state.history = .answered tuple id :: system.state.history := by
  rcases h.exists_looks with ⟨found, hconforms⟩
  rcases hconforms.runThread (fun _ _ _ _ _ _ _ => trivial) hstep with
    ⟨phase, phase', hphase, ⟨_, hlooks⟩, hconforms'⟩
  rcases hconforms'.get? hthread with ⟨phase'', hphase'', _, hfound⟩
  rw [List.getElem?_set_self (List.getElem?_eq_some_iff.mp hphase).choose] at hphase''
  injection hphase'' with heq
  subst heq
  exact hlooks tuple id (hfound request ambient response rfl rfl tuple id hanswers)

end Koval
