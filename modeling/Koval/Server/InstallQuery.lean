import Koval.Server.Routes.Basic
import Koval.Text.FormUrlEncoded

/-!
This module contains the query that the installer sends, and what the server reads from it.
-/

namespace Koval

open FormUrlEncoded

/-- A field may be given once. -/
def formField (pairs : List (String × String)) (name : String) : Option (Option String) :=
  match pairs.filter (·.fst = name) with
  | [] => some none
  | [(_, value)] => some (some value)
  | _ => none

def ForgeInstallParams.ofQuery (query : String) : Option ForgeInstallParams :=
  let pairs := FormUrlEncoded.parse (asBytes query)
  match formField pairs "project", formField pairs "ref", formField pairs "binary",
    formField pairs "package" with
  | some (some project), some (some gitRef), some binary, some package =>
    some { project, gitRef, binary, package }
  | _, _, _, _ => none

-- What the script puts after the question mark of its request.
def installQuery (project ref : String) : String := "project=" ++ project ++ "&ref=" ++ ref

-- The rest of a URL is a fragment, which is not sent.
def upToFragment (query : String) : String := String.ofList (query.toList.takeWhile (· ≠ '#'))

/-- The text reaches the server as it is. -/
def Survives (s : String) : Prop := '#' ∉ s.toList ∧ '&' ∉ s.toList ∧ IsPlain s.toList

instance (s : String) : Decidable (Survives s) := by
  unfold Survives IsPlain
  infer_instance

theorem eq_of_formField {pairs : List (String × String)} {name value : String} {v : Option String}
    (hmem : (name, value) ∈ pairs) (h : formField pairs name = some v)
    : v = some value := by
  have hfilter : (name, value) ∈ pairs.filter (·.fst = name) := by
    rw [List.mem_filter]
    exact ⟨hmem, decide_eq_true rfl⟩
  unfold formField at h
  split at h
  . next hnil =>
    rw [hnil] at hfilter
    contradiction
  . next first value' hsingle =>
    rw [hsingle, List.mem_singleton] at hfilter
    injection hfilter with _ hvalue
    injection h with h
    rw [hvalue, h]
  . contradiction

theorem eq_of_ofQuery {query : String} {params : ForgeInstallParams} {name value : String}
    (h : ForgeInstallParams.ofQuery query = some params)
    (hmem : (name, value) ∈ FormUrlEncoded.parse (asBytes query))
    : (name = "project" → params.project = value) ∧ (name = "ref" → params.gitRef = value) := by
  unfold ForgeInstallParams.ofQuery at h
  dsimp only at h
  split at h
  . next project gitRef binary package hproject href hbinary hpackage =>
    injection h with h
    rw [← h]
    constructor
    . rintro rfl
      have := eq_of_formField hmem hproject
      injection this
    . rintro rfl
      have := eq_of_formField hmem href
      injection this
  . contradiction

theorem start_of_notMem {α : Type} {xs ys zs : List α} {sep : α} (h : xs <+: ys ++ sep :: zs)
    (hsep : sep ∉ xs)
    : xs <+: ys := by
  rcases List.prefix_or_prefix_of_prefix h (List.prefix_append ys (sep :: zs)) with hxs | hys
  . exact hxs
  . rcases hys with ⟨ts, rfl⟩
    rw [List.prefix_append_right_inj] at h
    cases ts with
    | nil => simp
    | cons t ts =>
      rw [List.cons_prefix_cons] at h
      rw [h.left] at hsep
      simp at hsep

theorem exists_parse {name : List Char} (hname : '=' ∉ name) (hname' : '&' ∉ name) (cs : List Char)
    : ∃ pairs,
        FormUrlEncoded.parse (bytes (name ++ '=' :: cs))
          = (decode (bytes name), decode (bytes (cs.takeWhile (· ≠ '&')))) :: pairs := by
  by_cases hmem : '&' ∈ cs
  . rcases List.eq_append_cons_of_mem hmem with ⟨value, rest, rfl, hvalue⟩
    have hparse := parse_bytes_append hname hname' hvalue rest
    rw [List.append_assoc, List.cons_append] at hparse
    rw [(takeWhile_ne_append hvalue rest).left]
    exact ⟨_, hparse⟩
  . rw [takeWhile_ne_of_notMem hmem]
    exact ⟨[], parse_bytes hname hname' hmem⟩

theorem asBytes_upToFragment (project ref : String)
    : asBytes (upToFragment (installQuery project ref))
        =
      bytes ("project".toList ++ '=' :: (project.toList ++ '&' ::
        ("ref".toList ++ '=' :: ref.toList)).takeWhile (· ≠ '#')) := by
  have hquery : (installQuery project ref).toList
      = "project".toList ++ '=' :: (project.toList ++ '&' :: ("ref".toList ++ '=' :: ref.toList)) := by
    simp [installQuery]
  unfold upToFragment
  rw [hquery]
  change Utf8.encode _ = _
  rw [Utf8.encode_eq_flatMap, String.toList_ofList]
  rfl

theorem ofQuery_of_survives {project ref : String} (hproject : Survives project)
    (href : Survives ref)
    : ForgeInstallParams.ofQuery (upToFragment (installQuery project ref))
        = some { project, gitRef := ref, binary := none, package := none } := by
  rcases hproject with ⟨hhash, hand, hplain⟩
  rcases href with ⟨hhash', hand', hplain'⟩
  have hparse : FormUrlEncoded.parse (asBytes (upToFragment (installQuery project ref)))
      = [("project", project), ("ref", ref)] := by
    rw [asBytes_upToFragment, takeWhile_ne_of_notMem]
    . rw [← List.cons_append, ← List.append_assoc,
        parse_bytes_append (by decide) (by decide) hand, parse_bytes (by decide) (by decide) hand',
        decode_bytes_eq_iff.mpr hplain, decode_bytes_eq_iff.mpr hplain']
      rfl
    . simp [hhash, hhash']
  unfold ForgeInstallParams.ofQuery
  rw [hparse]
  rfl

theorem survives_of_start {s : String} {cs : List Char} (hcs : cs <+: s.toList)
    (hhash : '#' ∉ cs) (hand : '&' ∉ cs) (hdecode : decode (bytes cs) = s)
    : Survives s ∧ cs = s.toList := by
  have heq : cs = s.toList := by
    apply hcs.eq_of_length_le
    rw [← hdecode]
    exact length_decode_bytes_le cs
  rw [heq] at hhash hand hdecode
  exact ⟨⟨hhash, hand, decode_bytes_eq_iff.mp hdecode⟩, heq⟩

theorem notMem_takeWhile_ne {α : Type} [DecidableEq α] (sep : α) (xs : List α)
    : sep ∉ xs.takeWhile (· ≠ sep) := by
  intro hmem
  have hall := @List.all_takeWhile _ (· ≠ sep) xs
  rw [List.all_eq_true] at hall
  exact of_decide_eq_true (hall sep hmem) rfl

theorem survives_of_ofQuery {project ref : String} {binary package : Option String}
    (h : ForgeInstallParams.ofQuery (upToFragment (installQuery project ref))
      = some { project, gitRef := ref, binary, package })
    : Survives project ∧ Survives ref := by
  have hread : ∀ {name value : String},
      (name, value) ∈ FormUrlEncoded.parse (asBytes (upToFragment (installQuery project ref))) →
        (name = "project" → project = value) ∧ (name = "ref" → ref = value) :=
    fun hmem => eq_of_ofQuery h hmem
  rw [asBytes_upToFragment] at hread
  -- what is sent of the value, and of what is after it
  generalize hsent : (project.toList ++ '&' :: ("ref".toList ++ '=' :: ref.toList)).takeWhile
    (· ≠ '#') = sent at hread
  have hhash : '#' ∉ sent := by
    rw [← hsent]
    exact notMem_takeWhile_ne _ _
  have hstarts : sent.takeWhile (· ≠ '&') <+: project.toList := by
    apply start_of_notMem _ (notMem_takeWhile_ne _ _)
    . exact "ref".toList ++ '=' :: ref.toList
    . apply (List.takeWhile_prefix _).trans
      rw [← hsent]
      exact List.takeWhile_prefix _
  have hproject : Survives project ∧ sent.takeWhile (· ≠ '&') = project.toList := by
    apply survives_of_start hstarts
    . exact fun hmem => hhash ((List.takeWhile_prefix _).subset hmem)
    . exact notMem_takeWhile_ne _ _
    . rcases @exists_parse "project".toList (by decide) (by decide) sent with ⟨pairs, hparse⟩
      rw [hparse] at hread
      exact ((hread List.mem_cons_self).left rfl).symm
  refine ⟨hproject.left, ?_⟩
  rcases hproject.left with ⟨hnone, hand, _⟩
  have hsent : sent = project.toList ++ '&' :: ("ref".toList ++ '=' ::
      ref.toList.takeWhile (· ≠ '#')) := by
    rw [← hsent, List.takeWhile_append_of_pos (ne_of_notMem hnone), List.takeWhile_cons_of_pos rfl,
      List.takeWhile_append_of_pos (ne_of_notMem (by decide)), List.takeWhile_cons_of_pos rfl]
  rcases @exists_parse "ref".toList (by decide) (by decide)
    (ref.toList.takeWhile (· ≠ '#')) with ⟨pairs, hparse⟩
  rw [hsent, ← List.cons_append, ← List.append_assoc,
    parse_bytes_append (by decide) (by decide) hand, hparse] at hread
  have hdecode := (hread (List.mem_cons_of_mem _ List.mem_cons_self)).right rfl
  have hsurvives := survives_of_start
    ((List.takeWhile_prefix _).trans (List.takeWhile_prefix _))
    (fun hmem => notMem_takeWhile_ne _ _ ((List.takeWhile_prefix _).subset hmem))
    (notMem_takeWhile_ne _ _) hdecode.symm
  exact hsurvives.left

/--
The server reads the values that the script has sent, and no others, iff neither has a character in it
that means something in a query.
-/
theorem install_query_round_trips_iff (project ref : String)
    : ForgeInstallParams.ofQuery (upToFragment (installQuery project ref))
          = some { project, gitRef := ref, binary := none, package := none }
        ↔
      Survives project ∧ Survives ref := by
  constructor
  . exact survives_of_ofQuery
  . rintro ⟨hproject, href⟩
    exact ofQuery_of_survives hproject href

theorem install_query_loses_plus
    : ¬ ∀ project ref : String,
      ForgeInstallParams.ofQuery (upToFragment (installQuery project ref))
        = some { project, gitRef := ref, binary := none, package := none } := by
  intro h
  have := survives_of_ofQuery (h "https://github.com/a/b" "feature/c++")
  exact absurd this.right (by decide)

end Koval
