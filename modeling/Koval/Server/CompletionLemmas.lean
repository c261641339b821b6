import Koval.Server.RecordLemmas

/-!
This module contains what the rows of the build cache stand for.
-/

namespace Koval

variable {ext : Crates} {phase phase' : Phase} {others phases phases' : List Phase} {s s' : State}

/-- A row of the build cache names the last job that has completed with its key, or one that has not. -/
structure Cached (ext : Crates) (c : Core) : Prop where
  rows : ∀ cacheKey cacheRow, c.buildCache.find? cacheKey = some cacheRow →
    ∃ job ∈ c.recorded, job.id = cacheRow.jobId ∧ job.tuple.cacheKey ext = cacheKey
  latest : ∀ cacheKey cacheRow, c.buildCache.find? cacheKey = some cacheRow →
    c.statusOf cacheRow.jobId = some .done →
      ∃ job, c.lastCompleted ext cacheKey = some job ∧ job.id = cacheRow.jobId
  completed : ∀ job ∈ c.completed, job ∈ c.recorded ∧ c.statusOf job.id = some .done

theorem Cached.mono {c c' : Core} (h : Cached ext c) (hcache : c'.buildCache = c.buildCache)
    (hcompleted : c'.completed = c.completed) (hrecorded : ∀ job ∈ c.recorded, job ∈ c'.recorded)
    (hdone : ∀ id, c'.statusOf id = some .done ↔ c.statusOf id = some .done)
    : Cached ext c' where
  rows := by
    intro cacheKey cacheRow hrow
    rw [hcache] at hrow
    rcases h.rows cacheKey cacheRow hrow with ⟨job, hjob, hkey⟩
    exact ⟨job, hrecorded job hjob, hkey⟩
  latest := by
    intro cacheKey cacheRow hrow hstatus
    rw [hcache] at hrow
    rw [hdone] at hstatus
    unfold Core.lastCompleted
    rw [hcompleted]
    exact h.latest cacheKey cacheRow hrow hstatus
  completed := by
    intro job hjob
    rw [hcompleted] at hjob
    have ⟨hjob, hstatus⟩ := h.completed job hjob
    exact ⟨hrecorded job hjob, (hdone job.id).mpr hstatus⟩

theorem done_insert_iff {c : Core} {row : JobRow} {jobs : Table JobRow.id}
    (h : c.jobs.insert? row = some jobs) (hqueued : row.status = .queued) (id : String)
    : ({ c with jobs } : Core).statusOf id = some .done ↔ c.statusOf id = some .done := by
  by_cases hid : id = row.id
  . rw [hid, statusOf_insert h, hqueued]
    unfold Core.statusOf
    rw [Table.find?_fresh_of_insert? h]
    simp
  . unfold Core.statusOf
    dsimp only
    rw [Table.find?_of_insert? h, if_neg hid]

theorem done_setStatus_iff {c : Core} {id : String} {status : Status}
    {startedAt finishedAt errorMsg : Option String} (hstatus : status ≠ .done)
    (hid : c.statusOf id ≠ some .done) (id' : String)
    : (c.setStatus id status startedAt finishedAt errorMsg).statusOf id' = some .done
        ↔
      c.statusOf id' = some .done := by
  by_cases heq : id' = id
  . rw [heq, statusOf_setStatus, Option.map_eq_some_iff]
    constructor
    . rintro ⟨_, _, hdone⟩
      contradiction
    . intro hdone
      contradiction
  . unfold Core.statusOf
    rw [find?_setStatus, if_neg heq]

theorem Cached.setCache {c : Core} (h : Cached ext c) {job : Job} (hjob : job ∈ c.recorded)
    (hstatus : c.statusOf job.id ≠ some .done) (now : String)
    : Cached ext (c.setCache ⟨job.tuple.cacheKey ext, job.id, now⟩) where
  rows := by
    intro cacheKey cacheRow hrow
    have hrow := (Table.find?_replace _ _ _).symm.trans hrow
    split at hrow
    . next heq =>
      injection hrow with hrow
      rw [← hrow]
      exact ⟨job, hjob, rfl, heq.symm⟩
    . exact h.rows cacheKey cacheRow hrow
  latest := by
    intro cacheKey cacheRow hrow hdone
    have hrow := (Table.find?_replace _ _ _).symm.trans hrow
    split at hrow
    . next heq =>
      injection hrow with hrow
      rw [← hrow] at hdone
      contradiction
    . exact h.latest cacheKey cacheRow hrow hdone
  completed := h.completed

theorem Cached.complete {c : Core} (h : Cached ext c) {job : Job} (hjob : job ∈ c.recorded)
    (hinj : ∀ job' ∈ c.recorded, job'.id = job.id → job' = job)
    (hstatus : c.statusOf job.id = some .building) {cacheRow : CacheRow}
    (hrow : c.buildCache.find? (job.tuple.cacheKey ext) = some cacheRow)
    (hid : cacheRow.jobId = job.id) (startedAt finishedAt errorMsg : Option String)
    : Cached ext ((c.setStatus job.id .done startedAt finishedAt errorMsg).note (.completed job)) := by
  have hdone : ∀ id,
      (c.setStatus job.id .done startedAt finishedAt errorMsg).statusOf id = some .done ↔
        id = job.id ∨ c.statusOf id = some .done := by
    intro id
    by_cases heq : id = job.id
    . rw [heq, statusOf_setStatus, hstatus]
      simp
    . unfold Core.statusOf
      rw [find?_setStatus, if_neg heq]
      simp [heq]
  constructor
  . exact h.rows
  . intro cacheKey cacheRow' hrow' hstatus'
    have hrow' : c.buildCache.find? cacheKey = some cacheRow' := hrow'
    have hstatus' := (hdone cacheRow'.jobId).mp hstatus'
    change ∃ job', List.find? _ (job :: c.completed) = some job' ∧ _
    by_cases hkey : job.tuple.cacheKey ext = cacheKey
    . rw [List.find?_cons_of_pos (by simpa using hkey)]
      rw [← hkey, hrow] at hrow'
      injection hrow' with hrow'
      exact ⟨job, rfl, by rw [← hrow', hid]⟩
    . rw [List.find?_cons_of_neg (by simpa using hkey)]
      rcases hstatus' with heq | hstatus'
      . rcases h.rows cacheKey cacheRow' hrow' with ⟨job', hjob', hid', hkey'⟩
        have := hinj job' hjob' (hid'.trans heq)
        rw [this] at hkey'
        contradiction
      . exact h.latest cacheKey cacheRow' hrow' hstatus'
  . intro job' hjob'
    have hjob' : job' ∈ job :: c.completed := hjob'
    rw [List.mem_cons] at hjob'
    rcases hjob' with rfl | hjob'
    . exact ⟨hjob, (hdone job'.id).mpr (.inl rfl)⟩
    . rcases h.completed job' hjob' with ⟨hrecorded, hstatus'⟩
      exact ⟨hrecorded, (hdone job'.id).mpr (.inr hstatus')⟩

theorem Cached.thread (h : Cached ext s.core) (howned : Owned s.core (phase :: others))
    (hrec : Recorded ext s.core (phase :: others)) (htrans : Transition ext phase s phase' s')
    : Cached ext s'.core := by
  have hexpects := howned.phases phase List.mem_cons_self
  have hheld := hrec.held phase List.mem_cons_self
  cases htrans with
  | quiet hmoves hcore =>
    rw [hcore]
    exact h
  | read hcore =>
    rw [hcore]
    exact h
  | hit _ _ _ _ _ hcore =>
    rw [hcore]
    exact h.mono rfl rfl (fun _ hjob => hjob) (fun _ => Iff.rfl)
  | insert hmay hinsert hcore =>
    rw [hcore]
    apply h.mono
    . rfl
    . rfl
    . intro job hjob
      exact List.mem_cons_of_mem _ hjob
    . exact done_insert_iff hinsert rfl
  | enqueue hcore =>
    rw [hcore]
    exact h.mono rfl rfl (fun _ hjob => hjob) (fun _ => Iff.rfl)
  | setStatus hsets hcore =>
    rw [hcore]
    apply h.mono
    . rfl
    . rfl
    . intro job hjob
      exact hjob
    . apply done_setStatus_iff
      . cases hsets <;> simp
      . cases hsets with
        | start job now => simp [hexpects (some .queued) rfl]
        | fail job now msg => simp [hexpects (some .building) rfl]
        | failRefused job now msg => simp [hexpects (some .queued) rfl]
  | storeArtifact hartifact hcore =>
    rw [hcore]
    exact h.mono rfl rfl (fun _ hjob => hjob) (fun _ => Iff.rfl)
  | @storeCache job artifact now _ _ hartifact hcore =>
    have hstatus : s.core.statusOf job.id = some .building := hexpects (some .building) rfl
    have hstored := h.setCache (hheld job rfl) (by simp [hstatus]) now
    rw [hcore]
    exact hstored.mono rfl rfl (fun _ hjob => hjob) (fun _ => Iff.rfl)
  | @complete job artifact now _ _ hartifact hcore =>
    have hstatus : s.core.statusOf job.id = some .building := hexpects (some .building) rfl
    have hjob := hheld job rfl
    have hstored := h.setCache hjob (by simp [hstatus]) now
    have hcompleted := hstored.complete hjob
      (fun job' hjob' heq => hrec.inj job' hjob' job hjob heq) hstatus
      ((Table.find?_replace _ _ _).trans (if_pos rfl)) rfl none (some now) none
    rw [hcore]
    exact hcompleted.mono rfl rfl (fun _ hjob => hjob) (fun _ => Iff.rfl)

theorem Cached.advance (h : Cached ext s.core) (howned : Owned s.core phases)
    (hrec : Recorded ext s.core phases) (hadvance : Advance ext s phases s' phases')
    : Cached ext s'.core := by
  cases hadvance with
  | thread htrans => exact h.thread howned hrec htrans
  | spawn hjobs hphases => exact h
  | recv hwaiting hcore =>
    rw [hcore]
    exact h.mono rfl rfl (fun _ hjob => hjob) (fun _ => Iff.rfl)
  | outside hcore =>
    rw [hcore]
    exact h
  | restart hcore =>
    rw [hcore]
    exact h.mono rfl rfl (fun _ hjob => hjob) (fun _ => Iff.rfl)

end Koval
