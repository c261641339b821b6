import Koval.Conc.Matches
import Koval.Server.Routes.Build

/-!
This module contains the comparison of the two routes that builds are submitted on.
-/

namespace Koval

open Prog

variable {ext : Crates} {settings : Settings} {ambient : Ambient}

def ForgeInstallParams.request (params : ForgeInstallParams) (hardware : HardwareProfile) :
    JobRequest :=
  {
    hardware
    project := params.project
    gitRef := params.gitRef
    binary := params.binary
    package := params.package
    target := none
    pgoPhase := none
  }

def Response.IsRefusal (response : Response) : Prop :=
  response.status ≠ .ok ∧ response.status ≠ .accepted

inductive Alike : Response → Response → Prop where
  | refused {response : Response} (h : response.IsRefusal) : Alike response response
  | cached (id sha256 : String) :
    Alike ⟨.accepted, .id id, []⟩ ⟨.ok, .cached ("/build/" ++ id ++ "/binary") sha256, []⟩
  | queued (id : String) : Alike ⟨.accepted, .id id, []⟩ ⟨.ok, .building id, []⟩

def SameRefusal (response response' : Response) : Prop :=
  response.IsRefusal ∧ response = response'

theorem isRefusal_text {status : StatusCode} (hok : status ≠ .ok) (haccepted : status ≠ .accepted)
    (msg : String)
    : (Response.text status msg).IsRefusal := ⟨hok, haccepted⟩

theorem isRefusal_refuseByCause (err : AuthError) : (refuseByCause err).IsRefusal := by
  cases err <;> exact isRefusal_text (by decide) (by decide) _

theorem matches_throw {α α' : Type} {R : α → α' → Prop} {response : Response}
    (h : response.IsRefusal)
    : Matches (Both SameRefusal R) (throw response : Handler α).run (throw response : Handler α').run :=
  matches_pure (σ := State) (R := Both SameRefusal R) ⟨h, rfl⟩

theorem matches_authenticate
    : Matches (Both SameRefusal (· = ·)) (authenticate ext settings ambient refuseByCause).run
        (authenticate ext settings ambient refuseByCause).run := by
  unfold authenticate
  split
  . exact matches_throw (isRefusal_text (by decide) (by decide) _)
  . apply Matches.bindExcept (Matches.liftExcept (matches_self _))
    rintro res _ rfl
    split
    . exact matches_pure rfl
    . exact matches_throw (isRefusal_refuseByCause _)

theorem matches_submit {scope : Nat} {job : Job} {queuedAt : DateTime} {insertError : String}
    {accept accept' : String → Response} (haccept : ∀ id, Alike (accept id) (accept' id))
    : Matches (Both SameRefusal Alike) (submit ext ambient scope job queuedAt insertError accept).run
        (submit ext ambient scope job queuedAt insertError accept').run := by
  unfold submit
  apply Matches.bindExcept (Matches.liftExcept (matches_self _))
  rintro res _ rfl
  split
  . exact matches_throw (isRefusal_text (by decide) (by decide) _)
  . apply Matches.bindExcept (Matches.liftExcept (matches_self _))
    rintro res _ rfl
    split
    . exact matches_pure (haccept _)
    . apply Matches.bindExcept (Matches.liftExcept (matches_self _))
      rintro _ _ _
      exact matches_throw (isRefusal_text (by decide) (by decide) _)
    . exact matches_throw (isRefusal_text (by decide) (by decide) _)

theorem validate_request (params : ForgeInstallParams) (hardware : HardwareProfile)
    : buildHandler.validate (params.request hardware)
        =
      match forgeInstallHandler.validate params with
      | .error response => .error response
      | .ok () => .ok .standard := by
  unfold buildHandler.validate forgeInstallHandler.validate ForgeInstallParams.request
  dsimp only [Option.any_none]
  rw [if_neg (by decide)]
  split
  . rfl
  . split <;> rfl

theorem isRefusal_of_validate {params : ForgeInstallParams} {response : Response}
    (h : forgeInstallHandler.validate params = .error response)
    : response.IsRefusal := by
  unfold forgeInstallHandler.validate at h
  split at h
  . injection h with h
    rw [← h]
    exact isRefusal_text (by decide) (by decide) _
  . split at h
    . injection h with h
      rw [← h]
      exact isRefusal_text (by decide) (by decide) _
    . contradiction

theorem matches_forgeInstallHandler (params : ForgeInstallParams) (hardware : HardwareProfile)
    : Matches (Both SameRefusal Alike) (buildHandler ext settings ambient (params.request hardware)).run
        (forgeInstallHandler ext settings ambient params hardware).run := by
  unfold buildHandler forgeInstallHandler
  apply Matches.bindExcept matches_authenticate
  rintro ⟨_, token⟩ _ rfl
  dsimp only
  rw [validate_request]
  cases hvalidate : forgeInstallHandler.validate params with
  | error response => exact matches_throw (isRefusal_of_validate hvalidate)
  | ok =>
    dsimp only
    apply Matches.bindExcept (Matches.liftExcept (matches_self _))
    rintro found _ rfl
    cases found with
    | none => exact matches_submit .queued
    | some found => exact matches_pure (.cached found.1 found.2)

theorem matches_respond {handler handler' : Handler Response}
    (h : Matches (Both SameRefusal Alike) handler.run handler'.run)
    : Matches Alike handler.respond handler'.respond := by
  apply Matches.bind h
  intro res res' hres
  cases res with
  | ok response =>
    cases res' with
    | ok response' => exact matches_pure (R := Alike) hres
    | error => exact absurd hres id
  | error response =>
    cases res' with
    | ok => exact absurd hres id
    | error response' =>
      rcases hres with ⟨hrefusal, rfl⟩
      exact matches_pure (R := Alike) (.refused hrefusal)

/--
Whatever happens between two steps, both routes take the same steps and come to the same decision;
alone, they lead to the same state.
-/
theorem submission_paths_agree (ext : Crates) (settings : Settings) (ambient : Ambient)
    (params : ForgeInstallParams) (hardware : HardwareProfile)
    : Matches Alike (buildHandler ext settings ambient (params.request hardware)).respond
          (forgeInstallHandler ext settings ambient params hardware).respond
        ∧
      ∀ s,
        let (response, s') :=
          (buildHandler ext settings ambient (params.request hardware)).respond.runAlone s
        let (response', s'') :=
          (forgeInstallHandler ext settings ambient params hardware).respond.runAlone s
        Alike response response' ∧ s' = s'' := by
  have h := matches_respond (@matches_forgeInstallHandler ext settings ambient params hardware)
  exact ⟨h, h.runAlone⟩

end Koval
