import Koval.Server.Worker.JobEnds
import Koval.Text.Slices

/-!
This module contains which URLs of projects are accepted, and what becomes of the jobs with others.
-/

namespace Koval

-- The first eight characters, up to ASCII case.
def IsHttps (url : String) : Prop := (url.toList.take 8).map Char.toLower = "https://".toList

instance (url : String) : Decidable (IsHttps url) := inferInstanceAs (Decidable (_ = _))

theorem toNat_lt_of_toLower {c : Char} (h : c.toLower.toNat < 128) : c.toNat < 128 := by
  unfold Char.toLower at h
  split at h
  . next hupper =>
    have hle : c.val ≤ 'Z'.val := hupper.right
    have hle : c.toNat ≤ 90 := hle
    omega
  . exact h

theorem byteSize_eq_length {text : List Char} (h : ∀ c ∈ text, c.toNat < 128)
    : Text.byteSize text = text.length := by
  induction text with
  | nil => rfl
  | cons c text ih =>
    have hc : c.utf8Size = 1 := by
      rw [Char.utf8Size_eq_one_iff]
      exact Nat.le_of_lt_succ (h c List.mem_cons_self)
    rw [Text.byteSize_cons, hc, ih fun d hd => h d (List.mem_cons_of_mem c hd), List.length_cons]
    omega

-- A text that is ASCII up to case takes one byte for each character.
theorem byteSize_of_map_toLower {text lower : List Char} (h : text.map Char.toLower = lower)
    (hascii : ∀ c ∈ lower, c.toNat < 128)
    : Text.byteSize text = lower.length := by
  rw [byteSize_eq_length, ← h, List.length_map]
  intro c hc
  apply toNat_lt_of_toLower
  apply hascii
  rw [← h]
  exact List.mem_map_of_mem hc

theorem https_ascii : ∀ c ∈ "https://".toList, c.toNat < 128 := by
  have hall : "https://".toList.all fun c => c.toNat < 128 := by decide
  intro c hc
  exact of_decide_eq_true (List.all_eq_true.mp hall c hc)

theorem IsHttps.sliceTo {url : String} (h : IsHttps url)
    : Text.sliceTo url.toList 8 = some (url.toList.take 8) := by
  rw [Text.sliceTo_eq_some_iff]
  exact ⟨List.take_prefix 8 _, byteSize_of_map_toLower h https_ascii⟩

theorem isHttps_of_sliceTo {url : String} {start : List Char}
    (hslice : Text.sliceTo url.toList 8 = some start)
    (h : start.map Char.toLower = "https://".toList)
    : IsHttps url := by
  rw [Text.sliceTo_eq_some_iff] at hslice
  have hlength : start.length = 8 := by
    rw [← List.length_map Char.toLower, h]
    rfl
  unfold IsHttps
  rw [← hlength, ← List.prefix_iff_eq_take.mp hslice.left]
  exact h

def refusedUrl : String := "Only https:// project URLs are permitted"

def IsSliceable (url : String) : Prop :=
  url.utf8ByteSize < 8 ∨ (Text.sliceTo url.toList 8).isSome

theorem validateProjectUrl_eq (url : String)
    : validateProjectUrl url
        =
      if url.utf8ByteSize ≥ 8 ∧ Text.sliceTo url.toList 8 = none then
        none
      else if IsHttps url then
        some (.ok ())
      else
        some (.error refusedUrl) := by
  unfold validateProjectUrl
  dsimp only
  by_cases hsize : url.utf8ByteSize ≥ 8
  . rw [if_pos hsize]
    cases hslice : Text.sliceTo url.toList 8 with
    | none => rw [if_pos ⟨hsize, rfl⟩]
    | some start =>
      rw [if_neg (by simp)]
      dsimp only
      by_cases hhttps : IsHttps url
      . have hstart := hhttps.sliceTo
        rw [hslice] at hstart
        injection hstart with hstart
        rw [if_pos hhttps, hstart]
        exact if_pos hhttps
      . rw [if_neg hhttps, if_neg]
        . rfl
        . intro hlower
          exact hhttps (isHttps_of_sliceTo hslice hlower)
  . rw [if_neg hsize, if_neg (fun h => hsize h.left), if_neg]
    . rfl
    . intro hhttps
      have hle := Text.byteSize_le_of_prefix (List.take_prefix 8 url.toList)
      rw [byteSize_of_map_toLower hhttps https_ascii, ← Text.utf8ByteSize_eq] at hle
      exact hsize hle

theorem validateProjectUrl_eq_none_iff (url : String)
    : validateProjectUrl url = none ↔ ¬IsSliceable url := by
  rw [validateProjectUrl_eq]
  unfold IsSliceable
  rw [not_or, Nat.not_lt, Option.not_isSome_iff_eq_none]
  split
  . next h => exact iff_of_true rfl h
  . next h =>
    split
    . exact iff_of_false (by simp) h
    . exact iff_of_false (by simp) h

def KeepsRow (id : String) (s s' : State) : Prop := s'.db.jobs.find? id = s.db.jobs.find? id

def Records (id errMsg : String) (s : State) : Prop :=
  ∃ row, s.db.jobs.find? id = some row ∧ row.status = .failed ∧ row.errorMsg = some errMsg

def HasRow (id : String) (s : State) : Prop := ∃ row, s.db.jobs.find? id = some row

theorem stable_records (id errMsg : String) : Prog.Stable (KeepsRow id) (Records id errMsg) := by
  rintro s s' ⟨row, hrow, hrecorded⟩ hrely
  exact ⟨row, hrely.trans hrow, hrecorded⟩

theorem stable_hasRow (id : String) : Prog.Stable (KeepsRow id) (HasRow id) := by
  rintro s s' ⟨row, hrow⟩ hrely
  exact ⟨row, hrely.trans hrow⟩

theorem keepsRow_refl {id : String} (s : State) : KeepsRow id s s := rfl

namespace processJob

variable {crates : Crates} {settings : Settings} {externals : Externals} {job : Job}
  {errMsg : String} {α : Type}

abbrev Refuses (job : Job) (errMsg : String) (P : State → Prop) (prog : Worker α)
    (course : Course α) (Q : State → Prop) : Prop :=
  Prog.Takes (KeepsRow job.id) (Records job.id errMsg) (fun _ => False) P prog course Q

variable (hfaults : ∀ scope, externals.faults scope .updateJobStatus = none)
include hfaults

theorem refuses_start
    : Refuses job errMsg (HasRow job.id) (start settings externals job) (.goesOn ())
        (HasRow job.id) := by
  unfold start
  apply Prog.takes_atomic_bind keepsRow_refl (stable_hasRow _) (stable_hasRow _)
  . rintro s ⟨row, hrow⟩
    rw [runDb_updateJobStatus (hfaults 0)]
    exact ⟨_, find?_updateStatus hrow _ _ _ _⟩
  intro s hs
  rw [runDb_updateJobStatus (hfaults 0)]
  change Refuses job errMsg (HasRow job.id) (if _ then _ else pure ()) _ _
  split
  . exact Prog.takes_atomic keepsRow_refl (stable_hasRow _) (stable_hasRow _) fun s hs => ⟨rfl, hs⟩
  . exact Prog.takes_pure (stable_hasRow _) ()

theorem refuses_failJob
    : Refuses job errMsg (HasRow job.id) (failJob settings externals job errMsg : Worker α) .settles
        (HasRow job.id) := by
  unfold failJob
  apply Prog.takes_atomic_bind keepsRow_refl (stable_hasRow _) (stable_hasRow _)
  . intro s hs
    rw [Db.getWebhooksDeliveryInfo, runDb_query]
    exact hs
  intro s hs
  apply Prog.takes_atomic_bind keepsRow_refl (stable_hasRow _) (stable_records _ errMsg)
  . rintro s ⟨row, hrow⟩
    rw [runDb_updateJobStatus (hfaults 5)]
    exact ⟨_, find?_updateStatus hrow _ _ _ _, rfl, rfl⟩
  intro s hs
  rw [runDb_updateJobStatus (hfaults 5)]
  apply Prog.takes_atomic_bind keepsRow_refl (stable_records _ _) (stable_records _ errMsg)
  . intro s hs
    exact hs
  intro s hs
  have hthrow : Refuses job errMsg (Records job.id errMsg) (throw .ok : Worker α) .settles
      (HasRow job.id) := Prog.takes_throw_settles (stable_records _ _) _
  unfold deliver
  split
  . exact hthrow
  . apply Prog.takes_atomic_bind keepsRow_refl (stable_records _ _) (stable_records _ errMsg)
    . intro s hs
      exact hs
    . intro _ _
      exact hthrow

theorem records_of_refused {s s' : State} {outcome : Outcome}
    (hurl : validateProjectUrl job.project = some (.error errMsg)) (hrow : HasRow job.id s)
    (hends : Prog.Ends (KeepsRow job.id) (processJob crates settings externals job) s outcome s')
    : Records job.id errMsg s' := by
  have hfetch : Refuses job errMsg (HasRow job.id) (fetchSource settings externals job) .settles
      (HasRow job.id) := by
    unfold fetchSource
    rw [hurl]
    exact refuses_failJob hfaults
  have hstart : Refuses job errMsg (HasRow job.id) (start settings externals job) (.goesOn ())
      (HasRow job.id) := refuses_start hfaults
  rcases hends.of_bind keepsRow_refl with ⟨res, mid, hgo, hrest⟩
  have hrely : KeepsRow job.id mid s' := by
    cases res with
    | ok _ => exact (Prog.ends_ret_iff.mp hrest).right
    | error _ => exact (Prog.ends_ret_iff.mp hrest).right
  suffices hmid : Records job.id errMsg mid from stable_records _ _ mid s' hmid hrely
  rcases hgo.of_bindExcept keepsRow_refl with
    ⟨_, s₁, hstarted, hnext⟩ | ⟨e, s₁, hstarted, _, _⟩
  . have hs₁ := (hstart s _ s₁ hrow hstarted).right
    rcases hnext.of_bindExcept keepsRow_refl with
      ⟨_, s₂, hfetched, _⟩ | ⟨e, s₂, hfetched, _, hrely₂⟩
    . have ⟨_, hcontra⟩ := (hfetch s₁ _ s₂ hs₁ hfetched).left
      contradiction
    . exact stable_records _ _ s₂ mid (hfetch s₁ _ s₂ hs₁ hfetched).right hrely₂
  . have hcontra := (hstart s _ s₁ hrow hstarted).left
    contradiction

end processJob

/-- The URL is checked without a panic, and right. -/
structure ChecksUrl (url : String) (res : Except String Unit) : Prop where
  result : validateProjectUrl url = some res
  exact : res = .ok () ↔ IsHttps url
  -- safe as a positional argument
  positional : res = .ok () → url.toList.head? ≠ some '-'
  -- a job with another URL fails, and has the error in its row
  recorded : ∀ errMsg, res = .error errMsg →
    ∀ (crates : Crates) (settings : Settings) (externals : Externals) (job : Job) (s s' : State)
      (outcome : Outcome),
      job.project = url →
        (∀ scope, externals.faults scope .updateJobStatus = none) →
          HasRow job.id s →
            Prog.Ends (KeepsRow job.id) (processJob crates settings externals job) s outcome s' →
              Records job.id errMsg s'

theorem IsHttps.head?_ne {url : String} (h : IsHttps url) : url.toList.head? ≠ some '-' := by
  intro hhead
  rw [List.head?_eq_some_iff] at hhead
  rcases hhead with ⟨rest, hurl⟩
  unfold IsHttps at h
  rw [hurl, List.take_succ_cons, List.map_cons] at h
  injection h with hdash
  contradiction

/--
A URL is accepted iff it starts with https:// and refused with an error that its job records
otherwise, if and only if no character of it straddles its first eight bytes.
-/
theorem validateProjectUrl_exact_iff (url : String)
    : (∃ res, ChecksUrl url res) ↔ IsSliceable url := by
  constructor
  . rintro ⟨res, hres⟩
    rw [← not_not (a := IsSliceable url), ← validateProjectUrl_eq_none_iff, hres.result]
    simp
  . intro hsliceable
    have hvalidate := validateProjectUrl_eq url
    rw [← not_not (a := IsSliceable url), ← validateProjectUrl_eq_none_iff] at hsliceable
    have hrecorded : ∀ res, validateProjectUrl url = some res → ∀ errMsg, res = .error errMsg →
        ∀ (crates : Crates) (settings : Settings) (externals : Externals) (job : Job)
          (s s' : State) (outcome : Outcome), job.project = url →
          (∀ scope, externals.faults scope .updateJobStatus = none) → HasRow job.id s →
          Prog.Ends (KeepsRow job.id) (processJob crates settings externals job) s outcome s' →
            Records job.id errMsg s' := by
      rintro _ hresult errMsg rfl crates settings externals job s s' outcome rfl hfaults hrow hends
      exact processJob.records_of_refused hfaults hresult hrow hends
    split at hvalidate
    . exact absurd hvalidate hsliceable
    . split at hvalidate
      . next hhttps =>
        exact ⟨_, hvalidate, iff_of_true rfl hhttps, fun _ => hhttps.head?_ne,
          hrecorded _ hvalidate⟩
      . next hhttps =>
        exact ⟨_, hvalidate, iff_of_false (by simp) hhttps, by simp,
          hrecorded _ hvalidate⟩

/-- The eighth byte of the text is the first of the two that the last character takes. -/
theorem validateProjectUrl_panics : ¬∀ url, ∃ res, ChecksUrl url res := by
  intro hall
  rcases hall "https:/é" with ⟨res, hres⟩
  have hnone : validateProjectUrl "https:/é" = none := by
    rw [validateProjectUrl_eq_none_iff]
    unfold IsSliceable
    decide
  rw [hres.result] at hnone
  contradiction

end Koval
