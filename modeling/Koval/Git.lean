import Mathlib.Logic.Basic

/-!
This module contains what `git clone` and `git checkout -- PATHSPEC` leave in a directory.
-/

namespace Git

variable {π : Type u} {β : Type v}

/-- The files of a commit, or of a directory. -/
abbrev Tree (π : Type u) (β : Type v) := π → Option β

structure Remote (ν : Type w) (π : Type u) (β : Type v) where
  defaultBranch : ν
  -- the commits that names stand for
  trees : ν → Option (Tree π β)
  head : Tree π β
  trees_defaultBranch : trees defaultBranch = some head

structure Clone (π : Type u) (β : Type v) where
  head : Tree π β
  files : Tree π β

def Remote.clone {ν : Type w} (remote : Remote ν π β) : Clone π β := ⟨remote.head, remote.head⟩

def Tree.Matches (tree : Tree π β) (selects : π → Bool) : Prop :=
  ∃ path, selects path ∧ (tree path).isSome

/-- `checkout -- PATHSPEC`: the commit that is checked out stays. -/
def Clone.restore (clone : Clone π β) (selects : π → Bool) : Clone π β :=
  { clone with
    files path :=
      if selects path && (clone.head path).isSome then clone.head path else clone.files path }

theorem Remote.restore_clone {ν : Type w} (remote : Remote ν π β) (selects : π → Bool)
    : remote.clone.restore selects = remote.clone := by
  unfold Clone.restore clone
  simp

end Git
