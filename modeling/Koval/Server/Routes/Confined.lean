import Koval.Server.Routes.SaveParts

/-!
This module contains where in the file system an upload of profiles can write.
-/

namespace Koval
namespace uploadProfilesHandler

open Prog

variable {dir : Path}

def IsProfrawIn (dir path : Path) : Prop :=
  ∃ name, Path.IsName name ∧ Path.ofString ".profraw" <:+ name ∧ path = dir.join name

def WritesProfraws (dir : Path) (s s' : State) : Prop :=
  ∀ path, ¬IsProfrawIn dir path → s'.files.find? path = s.files.find? path

theorem writesProfraws_refl (s : State) : WritesProfraws dir s s := fun _ _ => rfl

theorem writesProfraws_write {name : Path} (hname : Path.IsName name)
    (hsuffix : Path.ofString ".profraw" <:+ name) (s : State) (data : Bytes)
    : WritesProfraws dir s (s.write (dir.join name) data) := by
  intro path hpath
  apply (Table.find?_replace _ _ _).trans
  rw [if_neg]
  intro heq
  exact hpath ⟨name, hname, hsuffix, heq⟩

theorem writesProfraws_saveParts (upload : Upload) (parts : List Part) (filesSaved : Nat)
    : Always (WritesProfraws dir) (saveParts upload dir parts filesSaved).run := by
  induction parts generalizing filesSaved with
  | nil => exact always_pure _
  | cons part parts ih =>
    unfold saveParts
    split
    . exact always_throw _
    . split
      . exact ih filesSaved
      . split
        . exact always_throw _
        . next hends =>
          split
          . exact always_throw _
          . rcases exists_cleanName (by simpa using hends) with ⟨name, hclean, hname, hsuffix⟩
            rw [hclean]
            apply Always.bindExcept
            . apply always_atomicExcept
              intro s
              split
              . exact writesProfraws_refl s
              . exact writesProfraws_write hname hsuffix s _
            . intro _
              exact ih (filesSaved + 1)

theorem isName_mergedProfdata : Path.IsName (.ofString "merged.profdata") := by
  constructor <;> decide

theorem not_isProfrawIn_mergedProfdata
    : ¬IsProfrawIn dir (dir.join (.ofString "merged.profdata")) := by
  rintro ⟨name, hname, hsuffix, heq⟩
  rw [Path.join_inj isName_mergedProfdata hname] at heq
  rw [← heq] at hsuffix
  revert hsuffix
  decide

/--
What a file is saved as is the name of a direct child of the directory, for every name that ends as
those of raw profiles do; so the upload writes nowhere else, and not over the merge result.
-/
theorem uploads_confined (dir : Path)
    : (∀ fileName, endsWith fileName ".profraw" →
        ∃ name, (Path.ofString fileName).fileName = some name
          ∧ Path.IsName name
          ∧ Path.ofString ".profraw" <:+ name
          ∧ name ≠ .ofString "merged.profdata"
          ∧ dir.childName? (dir.join name) = some name)
        ∧
      (∀ upload parts filesSaved,
        Prog.Always (WritesProfraws dir) (saveParts upload dir parts filesSaved).run)
        ∧
      ¬IsProfrawIn dir (dir.join (.ofString "merged.profdata")) := by
  refine ⟨?_, writesProfraws_saveParts, not_isProfrawIn_mergedProfdata⟩
  intro fileName hends
  rcases exists_cleanName hends with ⟨name, hclean, hname, hsuffix⟩
  refine ⟨name, hclean, hname, hsuffix, ?_, Path.childName?_join hname dir⟩
  rintro rfl
  exact @not_isProfrawIn_mergedProfdata dir ⟨_, hname, hsuffix, rfl⟩

end uploadProfilesHandler

end Koval
