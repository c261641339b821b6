import Koval.Server.Archives
import Koval.Server.EndedJobs
import Koval.Server.WholeCompletion

/-!
This module contains what clients download: the archive as the worker has measured it, with its
digest, however the download is interleaved with everything else.
-/

namespace Koval

open Prog

variable {crates : Crates} {settings : Settings} {ambient : Ambient} {system system' : System}
  {s s' : State} {id : String}

def archiveResponse (jobId : String) (content : Bytes) (sha256 : String) : Response :=
  ⟨.ok, .bytes content, [
    octetStream,
    ("content-disposition", "attachment; filename=\"" ++ jobId ++ ".tar.gz\""),
    ("x-sha256", sha256)
  ]⟩

theorem Still.keepsArchives (hhandles : Handles crates settings s s') (h : Still s s')
    : KeepsArchives crates settings s s' :=
  hhandles.keepsArchives ((congrArg Core.artifacts h.core).trans rfl)

theorem keepsArchives_authenticate (refuse : AuthError → Response)
    : Always (KeepsArchives crates settings) (authenticate crates settings ambient refuse).run := by
  apply ((handles_of_authenticate refuse).and (still_authenticate refuse)).mono
  rintro s s' ⟨hhandles, hstill⟩
  exact hstill.keepsArchives hhandles

theorem ofString_display_archivePathOf {dir : String} (hdir : settings.artifactsDir = .ofString dir)
    (h : IsPlain id)
    : Path.ofString (archivePathOf settings id).display = archivePathOf settings id := by
  have htext : ∃ text, archivePathOf settings id = Path.ofString text := by
    unfold archivePathOf
    rw [Path.join_eq_append (isName_archive h), Path.join_nil, hdir]
    split
    . exact ⟨dir ++ (id ++ ".tar.gz"), (Utf8.encode_append _ _).symm⟩
    . refine ⟨dir ++ "/" ++ (id ++ ".tar.gz"), ?_⟩
      unfold Path.ofString
      rw [Utf8.encode_append (dir ++ "/"), Utf8.encode_append dir]
      rfl
  rcases htext with ⟨text, htext⟩
  rw [htext, Path.ofString_display]

theorem ends_binaryHandler {dir : String} (hdir : settings.artifactsDir = .ofString dir)
    (hs : s.HasArchives crates settings) {res : Except Response Response}
    (h : Ends (KeepsArchives crates settings) (binaryHandler crates settings ambient id).run s res s')
    : (∃ response, res = .error response ∧ response.status ≠ .ok)
        ∨
      ∃ row content,
        s'.HasArchives crates settings
          ∧
        s'.db.artifacts.find? id = some row
          ∧
        s'.files.find? (archivePathOf settings id) = some ⟨archivePathOf settings id, content⟩
          ∧
        row = ⟨id, (archivePathOf settings id).display, content.length, crates.sha256 content⟩
          ∧
        res = .ok (archiveResponse id content (crates.sha256 content)) := by
  have hrefl := @keepsArchives_refl crates settings
  have htrans := @KeepsArchives.trans crates settings
  rcases h.of_bindExcept hrefl with ⟨token, s₁, hauth, h⟩ | ⟨response, s₁, hauth, hres, _⟩
  swap
  . exact .inl ⟨response, hres, ends_authenticate_error hrefl StatusCode.noConfusion
      refuseByCause_ne_ok hauth⟩
  have hkeeps₁ := (keepsArchives_authenticate _).ends htrans (fun _ _ h => h) hauth
  rcases h.of_bindExcept hrefl with ⟨found, s₂, hread, h⟩ | ⟨response, s₂, hread, _, _⟩
  swap
  . rcases hread.of_liftAtomic hrefl with ⟨_, _, _, hok, _⟩
    contradiction
  rcases hread.of_liftAtomic hrefl with ⟨t, t', hrely, hok, hrely', hrely''⟩
  injection hok with hok
  rcases htrans _ _ _ hkeeps₁ hrely hs with ⟨ht, _⟩
  have hfound : found = (t.runDb (ambient.faults 1) (Db.getArtifact id)).fst := hok
  have ht' : (t.runDb (ambient.faults 1) (Db.getArtifact id)).snd = t := runDb_query _ _ _ _
  have hrely' : KeepsArchives crates settings t t' := ht' ▸ hrely'
  unfold Db.getArtifact at hfound
  rw [fst_runDb_query] at hfound
  split at hfound
  . rw [hfound] at h
    rcases ends_ret_iff.mp h with ⟨hres, _⟩
    exact .inl ⟨_, hres, StatusCode.noConfusion⟩
  cases hrow : t.db.artifacts.find? id with
  | none =>
    rw [hrow] at hfound
    rw [hfound] at h
    rcases ends_ret_iff.mp h with ⟨hres, _⟩
    exact .inl ⟨_, hres, StatusCode.noConfusion⟩
  | some row =>
    rw [hrow] at hfound
    rw [hfound] at h
    have hid : row.jobId = id := Table.key_of_find? hrow
    rcases ht.archives row (Table.mem_of_find? hrow) with ⟨content, hfile, heq⟩
    have hplain := ht.plain row (Table.mem_of_find? hrow)
    rw [hid] at hfile heq hplain
    have hpath : Path.ofString row.filePath = archivePathOf settings id := by
      rw [heq]
      exact ofString_display_archivePathOf hdir hplain
    have hsha256 : row.sha256 = crates.sha256 content := by
      rw [heq]
    dsimp only [Option.map] at h
    rw [hpath, hsha256] at h
    have hkeeps₂ := htrans _ _ _ hrely' hrely''
    rcases h.of_bindExcept hrefl with ⟨doesExist, s₃, hexists, h⟩ | ⟨response, s₃, hexists, _, _⟩
    swap
    . rcases hexists.of_liftAtomic hrefl with ⟨_, _, _, hok, _⟩
      contradiction
    rcases hexists.of_liftAtomic hrefl with ⟨t₂, t₃, hrely₂, _, hrely₃, hrely₄⟩
    have hkeeps₃ := htrans _ _ _ hkeeps₂ (htrans _ _ _ hrely₂ (htrans _ _ _ hrely₃ hrely₄))
    split at h
    . rcases ends_ret_iff.mp h with ⟨hres, _⟩
      exact .inl ⟨_, hres, StatusCode.noConfusion⟩
    rcases h.of_bindExcept hrefl with ⟨read, s₄, hbytes, h⟩ | ⟨response, s₄, hbytes, _, _⟩
    swap
    . rcases hbytes.of_liftAtomic hrefl with ⟨_, _, _, hok, _⟩
      contradiction
    rcases hbytes.of_liftAtomic hrefl with ⟨t₄, t₅, hrely₅, hok, hrely₆, hrely₇⟩
    injection hok with hok
    rcases htrans _ _ _ hkeeps₃ hrely₅ ht with ⟨_, hkept⟩
    have hfile₄ := (hkept id row hrow).right.trans hfile
    cases read with
    | error err =>
      rcases ends_ret_iff.mp h with ⟨hres, _⟩
      exact .inl ⟨_, hres, StatusCode.noConfusion⟩
    | ok bytes =>
      right
      have hbytes : ambient.readFault = none ∧ bytes = content := by
        cases hfault : ambient.readFault with
        | some err =>
          rw [hfault] at hok
          contradiction
        | none =>
          rw [hfault, hfile₄] at hok
          injection hok with hok
          exact ⟨rfl, hok⟩
      have hsame : KeepsArchives crates settings t₄ t₅ := by
        rw [hbytes.left, hfile₄] at hrely₆
        exact hrely₆
      rcases ends_ret_iff.mp h with ⟨hres, hrely₈⟩
      have hend := htrans _ _ _ (htrans _ _ _ hkeeps₃ hrely₅)
        (htrans _ _ _ hsame (htrans _ _ _ hrely₇ hrely₈))
      rcases hend ht with ⟨hs', hkept'⟩
      refine ⟨row, content, hs', (hkept' id row hrow).left, ?_, heq, ?_⟩
      . exact (hkept' id row hrow).right.trans hfile
      . rw [hres, hbytes.right]
        rfl

def System.StartsWith (crates : Crates) (settings : Settings) (label : Label)
    (prog : Prog State Answer) (s : State) : Prop :=
  s.HasArchives crates settings
    ∧
  ∀ request ambient, label = .handler request ambient →
    prog = do
      let response ← (route crates settings request ambient).respond
      pure (Answer.response response)

def System.Serves (crates : Crates) (settings : Settings) (system : System) : Prop :=
  (∃ phases packings, system.Stocks crates settings phases packings)
    ∧
  system.AllLead (KeepsArchives crates settings) (System.StartsWith crates settings)

theorem System.Serves.step {action : Action} (h : system.Serves crates settings)
    (hstep : system.step crates settings action = some system') (houtside : action.isOutside = false)
    (hrequest : ∀ request ambient, action = .request request ambient → IsPlain ambient.uuid)
    : system'.Serves crates settings := by
  rcases h with ⟨⟨phases, packings, hstocks⟩, hlead⟩
  rcases hstocks.step hstep houtside hrequest with ⟨phases', packings', hstocks', hkeeps⟩
  refine ⟨⟨phases', packings', hstocks'⟩, ?_⟩
  cases System.stepsTo hstep with
  | @request request ambient _ =>
    apply hlead.spawn keepsArchives_refl
    refine ⟨hstocks.stored, ?_⟩
    intro request' ambient' heq
    injection heq with hrequest hambient
    rw [hrequest, hambient]
  | @recv externals job queue _ _ =>
    let received : System := { system with state := { system.state with queue } }
    have hreceived : received.AllLead (KeepsArchives crates settings)
        (System.StartsWith crates settings) :=
      hlead.change KeepsArchives.trans rfl (keepsArchives_of_eq rfl rfl)
    apply hreceived.spawn keepsArchives_refl
    refine ⟨⟨hstocks.stored.plain, hstocks.stored.archives⟩, ?_⟩
    intro request ambient heq
    contradiction
  | run hrun => exact hlead.runThread keepsArchives_refl KeepsArchives.trans hrun hkeeps
  | changeFiles => contradiction
  | restart hthreads =>
    unfold Pool.AllLead
    rw [hthreads]
    intro thread hthread
    contradiction

theorem System.serves_of_run {boot : Boot} {system₀ : System} {actions : List Action}
    (hmain : main crates settings boot (.empty settings) = some system₀)
    (hrun : Machine.run (System.step crates settings) system₀ actions = some system)
    (houtside : ∀ action ∈ actions, action.isOutside = false)
    (hrequests : ∀ request ambient, .request request ambient ∈ actions → IsPlain ambient.uuid)
    : system.Serves crates settings := by
  have hserves₀ : system₀.Serves crates settings := by
    refine ⟨⟨[], [], stocks_of_main hmain⟩, ?_⟩
    unfold Pool.AllLead
    rw [(main_eq_some hmain).left]
    intro thread hthread
    contradiction
  apply Machine.invariant_of_run (I := System.Serves crates settings) _ hserves₀ hrun
  intro action haction t t' ht hstep
  apply ht.step hstep (houtside action haction)
  rintro request ambient rfl
  exact hrequests request ambient haction

/--
As long as nobody else changes the files, each stored archive stays on disk with the length and the
digest that are stored, and every download that succeeds delivers these bytes and this digest.
-/
theorem System.downloads_whole {boot : Boot} {system₀ : System} {actions : List Action} {dir : String}
    (hdir : settings.artifactsDir = .ofString dir)
    (hmain : main crates settings boot (.empty settings) = some system₀)
    (hrun : Machine.run (System.step crates settings) system₀ actions = some system)
    (houtside : ∀ action ∈ actions, action.isOutside = false)
    (hrequests : ∀ request ambient, .request request ambient ∈ actions → IsPlain ambient.uuid)
    : system.state.HasArchives crates settings
        ∧
      ∀ thread ∈ system.threads, ∀ jobId ambient response,
        thread.label = .handler (.binary jobId) ambient →
        thread.prog = .ret (.response response) → response.status = .ok →
          ∃ content,
            system.state.files.find? (archivePathOf settings jobId)
                = some ⟨archivePathOf settings jobId, content⟩
              ∧
            system.state.db.artifacts.find? jobId
                = some ⟨jobId, (archivePathOf settings jobId).display, content.length,
                    crates.sha256 content⟩
              ∧
            response = archiveResponse jobId content (crates.sha256 content) := by
  rcases System.serves_of_run hmain hrun houtside hrequests with ⟨⟨_, _, hstocks⟩, hlead⟩
  refine ⟨hstocks.stored, ?_⟩
  intro thread hthread jobId ambient response hlabel hprog hok
  rcases hlead thread hthread with ⟨prog, s, ⟨hs, hstarts⟩, hleads⟩
  rw [hstarts _ _ hlabel, hprog] at hleads
  have hends := hleads.ends_of_isDone keepsArchives_refl KeepsArchives.trans
  rcases ends_of_respond keepsArchives_refl KeepsArchives.trans hends with
    ⟨res, mid, hhandler, hrely, hres⟩
  rcases ends_binaryHandler hdir hs hhandler with
    ⟨refusal, hrefusal, hne⟩ | ⟨row, content, hmid, hrow, hfile, heq, hdelivered⟩
  . rw [hrefusal] at hres
    rcases hres with hres | hres
    . contradiction
    . injection hres with hres
      rw [hres] at hne
      exact absurd hok hne
  . rw [hdelivered] at hres
    have ⟨_, hkept⟩ := hrely hmid
    have ⟨hrow', hfile'⟩ := hkept jobId row hrow
    rw [heq] at hrow'
    refine ⟨content, hfile'.trans hfile, hrow', ?_⟩
    rcases hres with hres | hres
    . injection hres with hres
      exact hres.symm
    . contradiction

theorem System.downloads_whole_built
    : ∃ system : System,
        system.threads.any (Samples.delivers "4c1e")
          ∧
        system.state.HasArchives Samples.github.crates Samples.settings := by
  rcases Samples.exists_of_runs (Samples.downloaded Samples.externals 10)
      (fun system => system.threads.any (Samples.delivers "4c1e")) (by decide +kernel) with
    ⟨system₀, system, hmain, hrun, hdelivers⟩
  refine ⟨system, hdelivers, ?_⟩
  have hplain : IsPlain "4c1e" ∧ IsPlain "9b7d" := by
    unfold IsPlain
    decide
  have hactions : ∀ action ∈ Samples.downloaded Samples.externals 10, action.isOutside = false
      ∧ ∀ request ambient, action = .request request ambient → IsPlain ambient.uuid := by
    intro action haction
    simp only [Samples.downloaded, Samples.submitted, Samples.processed, List.mem_append,
      List.mem_cons, List.mem_replicate] at haction
    rcases haction with ((rfl | ⟨_, rfl⟩) | (rfl | ⟨_, rfl⟩)) | (rfl | ⟨_, rfl⟩)
    all_goals
      refine ⟨rfl, ?_⟩
      rintro request ambient ⟨⟩
    . exact hplain.left
    . exact hplain.right
  have hdir : Samples.settings.artifactsDir = .ofString "artifacts" := rfl
  refine (System.downloads_whole hdir hmain hrun ?_ ?_).left
  . intro action haction
    exact (hactions action haction).left
  . intro request ambient haction
    exact (hactions _ haction).right request ambient rfl

end Koval
