import Koval.Git
import Koval.Server.Worker.JobEnds

/-!
This module contains which source a worker builds.
-/

namespace Koval

/-- The remotes by their URLs, and the paths that a pathspec selects. -/
structure GitHost where
  remotes : Path → Option (Git.Remote String Path Bytes)
  selects : Path → Path → Bool

namespace GitHost

variable (host : GitHost) (externals : Externals) (dir : Path)

def run (command : Command) (clone? : Option (Git.Clone Path Bytes)) :
    Option (Git.Clone Path Bytes) :=
  match command.args with
  | [subcommand, depth, url, target] =>
    if command.program = "git" ∧ subcommand = .ofString "clone" ∧ depth = .ofString "--depth=1"
        ∧ target = dir then
      (host.remotes url).map Git.Remote.clone
    else
      clone?
  | [flag, target, subcommand, dashes, pathspec] =>
    if command.program = "git" ∧ flag = .ofString "-C" ∧ target = dir
        ∧ subcommand = .ofString "checkout" ∧ dashes = .ofString "--" then
      clone?.map (·.restore (host.selects pathspec))
    else
      clone?
  | _ => clone?

def apply (effect : Effect) (clone? : Option (Git.Clone Path Bytes)) :
    Option (Git.Clone Path Bytes) :=
  match effect with
  | .run command =>
    if processJob.succeeds externals command then host.run dir command clone? else clone?
  | .removeDirAll path => if path = dir then none else clone?
  | .createDirAll _ | .deliver _ _ => clone?

def contents (effects : List Effect) : Option (Git.Clone Path Bytes) :=
  effects.foldr (host.apply externals dir) none

def Leaves (s s' : State) : Prop :=
  ∃ others, s'.effects = others ++ s.effects
    ∧ ∀ effect ∈ others, ∀ clone?, host.apply externals dir effect clone? = clone?

variable {host externals dir}

theorem leaves_refl (s : State) : host.Leaves externals dir s s := ⟨[], rfl, by simp⟩

theorem Leaves.contents_eq {s s' : State} (h : host.Leaves externals dir s s')
    : host.contents externals dir s'.effects = host.contents externals dir s.effects := by
  rcases h with ⟨others, heffects, hothers⟩
  rw [heffects, contents, List.foldr_append]
  change _ = List.foldr _ _ _
  generalize s.effects.foldr (host.apply externals dir) none = clone?
  clear heffects
  induction others with
  | nil => rfl
  | cons effect others ih =>
    rw [List.foldr_cons, hothers effect List.mem_cons_self]
    apply ih
    intro effect heffect
    exact hothers effect (List.mem_cons_of_mem _ heffect)

end GitHost

namespace processJob

open Prog

variable {host : GitHost} {settings : Settings} {externals : Externals} {job : Job} {dir : Path}
  {α : Type}

def GoesOnIf (host : GitHost) (externals : Externals) (dir : Path) (cond : Bool)
    (change : Option (Git.Clone Path Bytes) → Option (Git.Clone Path Bytes))
    (prog : Worker Unit) : Prop :=
  ∀ s res s', Ends (host.Leaves externals dir) prog.run s res s' →
    if cond then
      res = .ok ()
        ∧ host.contents externals dir s'.effects = change (host.contents externals dir s.effects)
    else
      ∃ e, res = .error e

theorem goesOnIf_bind {cond cond' : Bool}
    {change change' : Option (Git.Clone Path Bytes) → Option (Git.Clone Path Bytes)}
    {prog : Worker Unit} {next : Unit → Worker Unit}
    (h : GoesOnIf host externals dir cond change prog)
    (hnext : GoesOnIf host externals dir cond' change' (next ()))
    : GoesOnIf host externals dir (cond && cond') (change' ∘ change) (prog >>= next) := by
  intro s res s' hends
  rcases hends.of_bindExcept GitHost.leaves_refl with ⟨_, mid, hprog, hrest⟩ | ⟨e, mid, hprog, hres, _⟩
  . have hprog := h s _ mid hprog
    have hrest := hnext mid res s' hrest
    cases cond with
    | false =>
      rcases hprog with ⟨_, herror⟩
      contradiction
    | true =>
      cases cond' with
      | false => exact hrest
      | true => exact ⟨hrest.left, hrest.right.trans (congrArg change' hprog.right)⟩
  . have hprog := h s _ mid hprog
    cases cond with
    | false => exact ⟨e, hres⟩
    | true =>
      have hok := hprog.left
      contradiction

theorem goesOnIf_perform (effect : Effect)
    : GoesOnIf host externals dir true (host.apply externals dir effect)
        (ExceptT.lift (perform effect)) := by
  intro s res s' hends
  rcases hends.of_liftAtomic GitHost.leaves_refl with ⟨s₁, s₂, hrely₁, hres, hrely₂, hrely⟩
  refine ⟨hres, ?_⟩
  rw [hrely.contents_eq, hrely₂.contents_eq, ← hrely₁.contents_eq]
  rfl

theorem goesOnIf_pure : GoesOnIf host externals dir true id (pure ()) := by
  intro s res s' hends
  have ⟨hres, hrely⟩ := ends_ret_iff.mp hends
  exact ⟨hres, hrely.contents_eq⟩

theorem goesOnIf_false {change : Option (Git.Clone Path Bytes) → Option (Git.Clone Path Bytes)}
    {prog : Worker Unit} (h : Fails (host.Leaves externals dir) prog)
    : GoesOnIf host externals dir false change prog := h

theorem goesOnIf_expectSuccess (command : Command) (errMsg : String)
    : GoesOnIf host externals dir (succeeds externals command) (host.run dir command)
        (expectSuccess settings externals job command errMsg) := by
  have hgoes : GoesOnIf host externals dir (true && succeeds externals command)
      (id ∘ host.apply externals dir (.run command))
      (expectSuccess settings externals job command errMsg) := by
    unfold expectSuccess
    apply goesOnIf_bind (goesOnIf_perform _)
    unfold succeeds
    cases externals.status command with
    | error err => exact goesOnIf_false (fails_failJob GitHost.leaves_refl _)
    | ok status =>
      dsimp only
      cases status.success with
      | true => exact goesOnIf_pure
      | false => exact goesOnIf_false (fails_failJob GitHost.leaves_refl _)
  rw [Bool.true_and] at hgoes
  intro s res s' hends
  have hends := hgoes s res s' hends
  cases hsucceeds : succeeds externals command with
  | false =>
    rw [hsucceeds] at hends
    exact hends
  | true =>
    rw [hsucceeds] at hends
    refine ⟨hends.left, hends.right.trans ?_⟩
    simp [GitHost.apply, hsucceeds]

def cleared (externals : Externals) (dir : Path) (clone? : Option (Git.Clone Path Bytes)) :
    Option (Git.Clone Path Bytes) :=
  if externals.exists? dir then none else clone?

theorem goesOnIf_clear
    : GoesOnIf host externals dir true (cleared externals dir)
        (if externals.exists? dir then ExceptT.lift (perform (.removeDirAll dir)) else pure ()) := by
  have happly : host.apply externals dir (.removeDirAll dir) = fun _ => none := by
    funext clone?
    simp [GitHost.apply]
  unfold cleared
  cases externals.exists? dir with
  | true =>
    have hperform := @goesOnIf_perform host externals dir (.removeDirAll dir)
    rw [happly] at hperform
    exact hperform
  | false => exact goesOnIf_pure

theorem goesOnIf_start
    : GoesOnIf host externals (buildDir settings job)
        (externals.faults 0 .updateJobStatus).isNone (cleared externals (buildDir settings job))
        (start settings externals job) := by
  intro s res s' hends
  unfold start at hends
  rcases hends.of_bindExcept GitHost.leaves_refl with
    ⟨updated, s₁, hupdate, hrest⟩ | ⟨e, s₁, hupdate, _, _⟩
  . rcases hupdate.of_liftAtomic GitHost.leaves_refl with ⟨s₂, s₃, hrely₁, hok, hrely₂, hrely₃⟩
    injection hok with hupdated
    have heffects : (s₂.runDb (externals.faults 0) (Db.updateJobStatus job.id .building
        (some externals.now.toRfc3339) none none)).snd.effects = s₂.effects := rfl
    have hcontents : host.contents externals (buildDir settings job) s₁.effects
        = host.contents externals (buildDir settings job) s.effects := by
      rw [hrely₃.contents_eq, hrely₂.contents_eq, ← hrely₁.contents_eq, heffects]
    rw [hupdated] at hrest
    unfold State.runDb Db.updateJobStatus Sql.run Sql.execute at hrest
    cases hfault : externals.faults 0 .updateJobStatus with
    | some msg =>
      simp only [hfault] at hrest
      exact ⟨_, (ends_ret_iff.mp hrest).left⟩
    | none =>
      simp only [hfault] at hrest
      rw [Option.isNone_none, if_pos rfl, ← hcontents]
      exact goesOnIf_clear s₁ res s' hrest
  . rcases hupdate.of_liftAtomic GitHost.leaves_refl with ⟨_, _, _, herror, _⟩
    contradiction

theorem goesOnIf_fetchSource (hurl : validateProjectUrl job.project = some (.ok ()))
    : GoesOnIf host externals dir (fetches settings externals job)
        (host.run dir (checkoutCommand settings job) ∘ host.run dir (cloneCommand settings job))
        (fetchSource settings externals job) := by
  unfold fetchSource fetches
  rw [hurl]
  apply goesOnIf_bind (goesOnIf_expectSuccess _ _)
  cases validateGitRef job.gitRef with
  | error err => exact goesOnIf_false (fails_failJob GitHost.leaves_refl _)
  | ok _ => exact goesOnIf_expectSuccess _ _

theorem run_cloneCommand (clone? : Option (Git.Clone Path Bytes))
    : host.run dir (cloneCommand settings job) clone?
        =
      if Path.ofString (buildDir settings job).display = dir then
        (host.remotes (.ofString job.project)).map Git.Remote.clone
      else
        clone? := by
  simp [GitHost.run, cloneCommand]

theorem run_checkoutCommand (clone? : Option (Git.Clone Path Bytes))
    : host.run dir (checkoutCommand settings job) clone?
        =
      if Path.ofString (buildDir settings job).display = dir then
        clone?.map (·.restore (host.selects (.ofString job.gitRef)))
      else
        clone? := by
  simp [GitHost.run, checkoutCommand]

-- Steps 1 to 3
def fetch (settings : Settings) (externals : Externals) (job : Job) : Worker Unit := do
  start settings externals job
  fetchSource settings externals job

-- Steps 4 to 10
def afterFetch (crates : Crates) (settings : Settings) (externals : Externals) (job : Job) :
    Worker Unit := do
  let config ← loadConfig crates settings externals job
  let mode ← loadMode crates settings externals job
  let rustflags ← rustflags settings externals job config
  compile settings externals job (cargoCommand settings job config mode rustflags)
  pack settings externals job mode
  let (fileSize, sha256) ← measure crates settings externals job
  complete crates settings externals job fileSize sha256
  ExceptT.lift (perform (.removeDirAll (buildDir settings job)))

theorem go_eq_fetch (crates : Crates) (settings : Settings) (externals : Externals) (job : Job)
    : go crates settings externals job
        =
      (do fetch settings externals job
          afterFetch crates settings externals job) := by
  unfold go fetch
  rw [bind_assoc]
  rfl

/-- A worker that goes on has fetched its source. -/
theorem ends_go {crates : Crates} {rely : State → State → Prop} (hrefl : ∀ s, rely s s)
    {s s' : State} {res : Except Outcome Unit}
    (h : Ends rely (go crates settings externals job).run s res s')
    : (∃ s₁, Ends rely (fetch settings externals job).run s (.ok ()) s₁
          ∧ Ends rely (afterFetch crates settings externals job).run s₁ res s')
        ∨
      ∃ outcome s₁, Ends rely (fetch settings externals job).run s (.error outcome) s₁
        ∧ res = .error outcome ∧ rely s₁ s' := by
  rw [go_eq_fetch] at h
  rcases Ends.of_bindExcept hrefl h with ⟨_, s₁, hfetch, hrest⟩ | herror
  . exact .inl ⟨s₁, hfetch, hrest⟩
  . exact .inr herror

theorem goesOnIf_fetch (hurl : validateProjectUrl job.project = some (.ok ()))
    : GoesOnIf host externals (buildDir settings job)
        ((externals.faults 0 .updateJobStatus).isNone && fetches settings externals job)
        ((host.run (buildDir settings job) (checkoutCommand settings job)
            ∘ host.run (buildDir settings job) (cloneCommand settings job))
          ∘ cleared externals (buildDir settings job))
        (fetch settings externals job) :=
  goesOnIf_bind goesOnIf_start (goesOnIf_fetchSource hurl)

variable {remote : Git.Remote String Path Bytes}

/-- Some path of the commit that is cloned matches the ref, taken as a pathspec. -/
def RefMatches (host : GitHost) (remote : Git.Remote String Path Bytes) (job : Job) : Prop :=
  remote.head.Matches (host.selects (.ofString job.gitRef))

-- How `checkout` with a pathspec ends in the clone.
def RunsGit (host : GitHost) (remote : Git.Remote String Path Bytes) (settings : Settings)
    (job : Job) (externals : Externals) : Prop :=
  succeeds externals (checkoutCommand settings job) ↔ RefMatches host remote job

/--
After the checkout, the build directory has the files of the commit that the ref names, and a ref
that names the default branch is not refused.
-/
structure FetchesRef (host : GitHost) (remote : Git.Remote String Path Bytes) (settings : Settings)
    (job : Job) : Prop where
  contents : ∀ externals s s', RunsGit host remote settings job externals →
    Ends (host.Leaves externals (buildDir settings job)) (fetch settings externals job).run s
      (.ok ()) s' →
    ∃ tree, remote.trees job.gitRef = some tree
      ∧ (host.contents externals (buildDir settings job) s'.effects).map (·.files) = some tree
  branch : job.gitRef = remote.defaultBranch →
    ∀ externals s res s', RunsGit host remote settings job externals →
      externals.faults 0 .updateJobStatus = none →
      succeeds externals (cloneCommand settings job) →
      Ends (host.Leaves externals (buildDir settings job)) (fetch settings externals job).run s
        res s' →
      res = .ok ()

theorem cloneCommand_ne : cloneCommand settings job ≠ checkoutCommand settings job := by
  intro heq
  have hlength : 4 = 5 := congrArg (List.length ∘ Command.args) heq
  contradiction

theorem exists_runsGit (host : GitHost) (remote : Git.Remote String Path Bytes)
    (settings : Settings) (job : Job)
    : ∃ externals, RunsGit host remote settings job externals
        ∧ externals.faults 0 .updateJobStatus = none
        ∧ succeeds externals (cloneCommand settings job)
        ∧ externals.exists? (buildDir settings job) = false := by
  classical
  let status (command : Command) : Except IoError ExitStatus :=
    if command = checkoutCommand settings job ∧ ¬RefMatches host remote job then
      .ok (.code 1)
    else
      .ok (.code 0)
  refine ⟨{ Samples.externals with status, exists? := fun _ => false }, ?_, rfl, ?_, rfl⟩
  . unfold RunsGit succeeds
    by_cases hmatches : RefMatches host remote job
    . simp [status, hmatches, ExitStatus.success]
    . simp [status, hmatches, ExitStatus.success]
  . unfold succeeds
    simp [status, cloneCommand_ne, ExitStatus.success]

theorem FetchesRef.matches_of_branch (hurl : validateProjectUrl job.project = some (.ok ()))
    (h : FetchesRef host remote settings job) (hbranch : job.gitRef = remote.defaultBranch)
    : RefMatches host remote job := by
  rcases exists_runsGit host remote settings job with ⟨externals, hgit, hfault, hclone, _⟩
  have hends := ends_runAlone (@GitHost.leaves_refl host externals (buildDir settings job))
    (fetch settings externals job).run (.empty settings)
  have hok := h.branch hbranch externals _ _ _ hgit hfault hclone hends
  have hgoes := goesOnIf_fetch hurl _ _ _ hends
  by_contra hmatches
  unfold RunsGit at hgit
  rw [← hgit, Bool.not_eq_true] at hmatches
  have hfetches : fetches settings externals job = false := by
    unfold fetches
    rw [hmatches, Bool.and_false, Bool.and_false]
  rw [hfetches, Bool.and_false, hok] at hgoes
  rcases hgoes with ⟨_, herror⟩
  contradiction

theorem fetches_of_matches {externals : Externals} (href : validateGitRef job.gitRef = .ok ())
    (hgit : RunsGit host remote settings job externals)
    (hclone : succeeds externals (cloneCommand settings job))
    (hmatches : RefMatches host remote job)
    : fetches settings externals job := by
  unfold fetches
  rw [hclone, href, hgit.mpr hmatches]
  rfl

theorem FetchesRef.tree_of_matches (hurl : validateProjectUrl job.project = some (.ok ()))
    (href : validateGitRef job.gitRef = .ok ())
    (hremote : host.remotes (.ofString job.project) = some remote)
    (h : FetchesRef host remote settings job) (hmatches : RefMatches host remote job)
    : Path.ofString (buildDir settings job).display = buildDir settings job
        ∧ remote.trees job.gitRef = some remote.head := by
  rcases exists_runsGit host remote settings job with ⟨externals, hgit, hfault, hclone, hexists⟩
  have hends := ends_runAlone (@GitHost.leaves_refl host externals (buildDir settings job))
    (fetch settings externals job).run (.empty settings)
  have hgoes := goesOnIf_fetch hurl _ _ _ hends
  rw [hfault, fetches_of_matches href hgit hclone hmatches] at hgoes
  have ⟨hok, hcontents⟩ := hgoes
  rw [hok] at hends
  rcases h.contents externals _ _ hgit hends with ⟨tree, htree, hfiles⟩
  rw [hcontents, Function.comp_apply, Function.comp_apply, run_checkoutCommand, run_cloneCommand,
    cleared, hexists] at hfiles
  split at hfiles
  . next hdir =>
    rw [hremote, Option.map_some, Option.map_some, Git.Remote.restore_clone, Option.map_some] at hfiles
    refine ⟨hdir, ?_⟩
    rw [htree, ← hfiles]
    rfl
  . contradiction

/--
A worker builds what the ref names, for every remote and whatever else happens, if and only if the
name of the build directory is text and the names in the repository happen to fit: the default
branch is also a path in it, and another ref is a path only if it has the same files.
-/
theorem fetchesRef_iff (hurl : validateProjectUrl job.project = some (.ok ()))
    (href : validateGitRef job.gitRef = .ok ())
    (hremote : host.remotes (.ofString job.project) = some remote)
    : FetchesRef host remote settings job
        ↔
      (job.gitRef = remote.defaultBranch → RefMatches host remote job)
        ∧ (RefMatches host remote job →
            Path.ofString (buildDir settings job).display = buildDir settings job
              ∧ remote.trees job.gitRef = some remote.head) := by
  constructor
  . intro h
    exact ⟨h.matches_of_branch hurl, h.tree_of_matches hurl href hremote⟩
  . rintro ⟨hbranch, htree⟩
    constructor
    . intro externals s s' hgit hends
      have hgoes := goesOnIf_fetch hurl s _ s' hends
      split at hgoes
      . next hcond =>
        rw [Bool.and_eq_true] at hcond
        unfold fetches at hcond
        rw [Bool.and_eq_true, Bool.and_eq_true] at hcond
        have ⟨hdir, hhead⟩ := htree (hgit.mp hcond.right.right.right)
        refine ⟨remote.head, hhead, ?_⟩
        rw [hgoes.right, Function.comp_apply, Function.comp_apply, run_checkoutCommand,
          run_cloneCommand, if_pos hdir, if_pos hdir, hremote, Option.map_some, Option.map_some,
          Git.Remote.restore_clone]
        rfl
      . rcases hgoes with ⟨_, herror⟩
        contradiction
    . intro hdefault externals s res s' hgit hfault hclone hends
      have hgoes := goesOnIf_fetch hurl s res s' hends
      rw [hfault, fetches_of_matches href hgit hclone (hbranch hdefault)] at hgoes
      exact hgoes.left

-- A repository with one file besides the program, on its default branch "main".
def sampleRemote (name : String) : Git.Remote String Path Bytes where
  defaultBranch := "main"
  trees ref := if ref = "main" then some (sampleTree name) else none
  head := sampleTree name
  trees_defaultBranch := rfl
where
  sampleTree (name : String) (path : Path) : Option Bytes :=
    if path = .ofString name || path = .ofString "Cargo.toml" then some [] else none

def sampleHost (name : String) : GitHost where
  remotes _ := some (sampleRemote name)
  selects pathspec path :=
    path = pathspec || (pathspec ++ [Path.slash]).isPrefixOf path

theorem fetchesRef_iff_file
    : FetchesRef (sampleHost "main") (sampleRemote "main") Samples.settings
        (Samples.job "https://github.com/a/b") :=
  (fetchesRef_iff (by decide) (by decide) rfl).mpr
    ⟨fun _ => ⟨.ofString "main", by decide, by decide⟩, fun _ => ⟨by decide, rfl⟩⟩

/-- In a repository without a path of that name, the default branch is refused. -/
theorem branch_refused
    : ¬∀ (host : GitHost) (remote : Git.Remote String Path Bytes) (settings : Settings) (job : Job),
        validateProjectUrl job.project = some (.ok ()) → validateGitRef job.gitRef = .ok () →
          host.remotes (.ofString job.project) = some remote →
            FetchesRef host remote settings job := by
  intro hall
  have h := hall (sampleHost "README.md") (sampleRemote "README.md") Samples.settings
    (Samples.job "https://github.com/a/b") (by decide) (by decide) rfl
  rcases h.matches_of_branch (by decide) rfl with ⟨path, hselects, htracked⟩
  have hpath : path = .ofString "README.md" ∨ path = .ofString "Cargo.toml" := by
    change (sampleRemote.sampleTree "README.md" path).isSome = true at htracked
    unfold sampleRemote.sampleTree at htracked
    split at htracked
    . next hor =>
      simpa using hor
    . contradiction
  rcases hpath with rfl | rfl
  . exact absurd hselects (by decide)
  . exact absurd hselects (by decide)

end processJob

end Koval
