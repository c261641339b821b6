import Koval.Server.SealedRows
import Koval.Text.Utf8Lemmas

/-!
This module contains that the archive of a job stays on disk as it was when its row was stored, as
long as nobody but the server touches the files.
-/

namespace Koval

variable {crates : Crates} {settings : Settings} {system system' : System} {s s' s'' : State}
  {packing packing' : Packing} {id id' : String}

theorem Path.ofString_display (text : String) : ofString (display (ofString text)) = ofString text := by
  unfold display ofString Utf8.toStringLossy
  rw [Utf8.decodeLossy_encode, String.ofList_toList]

/-- Such as UUIDs are. -/
def IsPlain (id : String) : Prop := Path.slash ∉ Path.ofString id

def archivePathOf (settings : Settings) (id : String) : Path :=
  settings.artifactsDir.join (.ofString (id ++ ".tar.gz"))

theorem isName_archive (h : IsPlain id) : Path.IsName (.ofString (id ++ ".tar.gz")) := by
  have hbytes : Path.ofString (id ++ ".tar.gz") = Path.ofString id ++ Path.ofString ".tar.gz" :=
    Utf8.encode_append id ".tar.gz"
  have hlength : 2 < (Path.ofString (id ++ ".tar.gz")).length := by
    rw [hbytes, List.length_append]
    have : (Path.ofString ".tar.gz").length = 7 := by decide
    omega
  constructor
  . intro hnil
    rw [hnil] at hlength
    contradiction
  . intro hdot
    rw [hdot] at hlength
    contradiction
  . intro hdots
    rw [hdots] at hlength
    contradiction
  . rw [hbytes, List.mem_append]
    rintro (hid | hsuffix)
    . exact h hid
    . revert hsuffix
      decide

theorem archivePathOf_inj (h : IsPlain id) (h' : IsPlain id')
    : archivePathOf settings id = archivePathOf settings id' ↔ id = id' := by
  unfold archivePathOf
  rw [Path.join_inj (isName_archive h) (isName_archive h')]
  constructor
  . intro heq
    have htexts := Utf8.encode_inj.mp heq
    rwa [String.append_left_inj] at htexts
  . rintro rfl
    rfl

theorem isArchive_archivePathOf (h : IsPlain id) : (archivePathOf settings id).IsArchive := by
  refine ⟨settings.artifactsDir.join [] ++ Path.ofString id, ?_⟩
  unfold archivePathOf
  rw [Path.join_eq_append (isName_archive h), List.append_assoc]
  exact congrArg _ (Utf8.encode_append id ".tar.gz").symm

structure System.Names (P : String → Prop) (system : System) : Prop where
  threads : ∀ thread ∈ system.threads, P thread.label.jobId
  rows : ∀ row ∈ system.state.db.jobs.rows, P row.id

theorem System.Names.step {P : String → Prop} {phases : List Phase} {action : Action}
    (h : system.Names P) (hlives : system.Lives crates phases)
    (hstep : system.step crates settings action = some system')
    (hrequest : ∀ request ambient, action = .request request ambient → P ambient.uuid)
    : system'.Names P := by
  cases System.stepsTo hstep with
  | @request request ambient _ =>
    refine ⟨?_, h.rows⟩
    intro thread hthread
    rw [Pool.spawn, List.mem_append, List.mem_singleton] at hthread
    rcases hthread with hthread | rfl
    . exact h.threads thread hthread
    . exact hrequest request ambient rfl
  | @recv externals job queue hjobs _ =>
    refine ⟨?_, h.rows⟩
    intro thread hthread
    rw [Pool.spawn, List.mem_append, List.mem_singleton] at hthread
    rcases hthread with hthread | rfl
    . exact h.threads thread hthread
    . have hwaiting : job ∈ system.state.core.waiting := by
        have hjobs : system.state.core.waiting = job :: queue.jobs := hjobs
        rw [hjobs]
        exact List.mem_cons_self
      have hqueued := hlives.right.owned.waiting job hwaiting
      unfold Core.statusOf at hqueued
      rcases Option.map_eq_some_iff.mp hqueued with ⟨row, hrow, _⟩
      have hid : row.id = job.id := Table.key_of_find? hrow
      change P job.id
      rw [← hid]
      exact h.rows row (Table.mem_of_find? hrow)
  | @run i _ hrun =>
    constructor
    . intro thread' hthread'
      rcases List.getElem?_of_mem hthread' with ⟨j, hj⟩
      rcases Pool.exists_of_runThread hrun hj with ⟨thread, hthread, hlabel, _⟩
      rw [hlabel]
      exact h.threads thread (List.mem_of_getElem? hthread)
    . intro row hrow
      rcases hlives.left.runThread Agrees.transition hrun with ⟨phase, phase', hphase, htrans, _⟩
      have hfind := Table.find?_of_mem hrow
      by_cases howned : phase.ownedId? = some row.id
      . -- The row is the thread's own.
        rcases hlives.left.getElem? hphase with ⟨thread, hthread, ⟨hid, _⟩, _⟩
        have := h.threads thread (List.mem_of_getElem? hthread)
        rw [hid, Phase.jobId_of_ownedId? howned] at this
        exact this
      . have hold : system.state.core.jobs.find? row.id = some row :=
          (htrans.find?_eq howned).symm.trans hfind
        exact h.rows row (Table.mem_of_find? hold)
  | changeFiles => exact ⟨h.threads, h.rows⟩
  | restart hthreads hcore =>
    have hjobs : system'.state.db.jobs = system.state.db.jobs :=
      (congrArg Core.jobs hcore).trans rfl
    constructor
    . rw [hthreads]
      intro thread hthread
      contradiction
    . rw [hjobs]
      exact h.rows

def State.HasArchive (crates : Crates) (settings : Settings) (s : State) (row : ArtifactRow) : Prop :=
  ∃ content,
    s.files.find? (archivePathOf settings row.jobId) = some ⟨archivePathOf settings row.jobId, content⟩
      ∧
    row = ⟨row.jobId, (archivePathOf settings row.jobId).display, content.length, crates.sha256 content⟩

structure State.HasArchives (crates : Crates) (settings : Settings) (s : State) : Prop where
  plain : ∀ row ∈ s.db.artifacts.rows, IsPlain row.jobId
  archives : ∀ row ∈ s.db.artifacts.rows, s.HasArchive crates settings row

def KeepsArchives (crates : Crates) (settings : Settings) (s s' : State) : Prop :=
  s.HasArchives crates settings →
    s'.HasArchives crates settings
      ∧
    ∀ id row, s.db.artifacts.find? id = some row →
      s'.db.artifacts.find? id = some row
        ∧ s'.files.find? (archivePathOf settings id) = s.files.find? (archivePathOf settings id)

theorem keepsArchives_refl (s : State) : KeepsArchives crates settings s s :=
  fun h => ⟨h, fun _ _ hrow => ⟨hrow, rfl⟩⟩

theorem KeepsArchives.trans (s s' s'' : State) (h : KeepsArchives crates settings s s')
    (h' : KeepsArchives crates settings s' s'')
    : KeepsArchives crates settings s s'' := by
  intro hs
  have ⟨hs', hkeeps⟩ := h hs
  have ⟨hs'', hkeeps'⟩ := h' hs'
  refine ⟨hs'', ?_⟩
  intro id row hrow
  have ⟨hrow', hfile⟩ := hkeeps id row hrow
  have ⟨hrow'', hfile'⟩ := hkeeps' id row hrow'
  exact ⟨hrow'', hfile'.trans hfile⟩

theorem keepsArchives_of_find? (hartifacts : s'.db.artifacts = s.db.artifacts)
    (hfiles : ∀ id, s.db.artifacts.contains id → IsPlain id →
      s'.files.find? (archivePathOf settings id) = s.files.find? (archivePathOf settings id))
    : KeepsArchives crates settings s s' := by
  intro hs
  have hfile : ∀ row ∈ s.db.artifacts.rows, s'.files.find? (archivePathOf settings row.jobId)
      = s.files.find? (archivePathOf settings row.jobId) := by
    intro row hrow
    exact hfiles row.jobId (Table.contains_iff.mpr ⟨row, Table.find?_of_mem hrow⟩) (hs.plain row hrow)
  refine ⟨⟨?_, ?_⟩, ?_⟩
  . rw [hartifacts]
    exact hs.plain
  . rw [hartifacts]
    intro row hrow
    unfold State.HasArchive
    rw [hfile row hrow]
    exact hs.archives row hrow
  . intro id row hrow
    rw [hartifacts]
    have hfile := hfile row (Table.mem_of_find? hrow)
    rw [Table.key_of_find? hrow] at hfile
    exact ⟨hrow, hfile⟩

theorem keepsArchives_of_eq (hartifacts : s'.db.artifacts = s.db.artifacts)
    (hfiles : s'.files = s.files)
    : KeepsArchives crates settings s s' := by
  apply keepsArchives_of_find? hartifacts
  intro id _ _
  rw [hfiles]

theorem Handles.keepsArchives (h : Handles crates settings s s')
    (hartifacts : s'.db.artifacts = s.db.artifacts)
    : KeepsArchives crates settings s s' := by
  apply keepsArchives_of_find? hartifacts
  intro id _ hplain
  exact h.archives _ (isArchive_archivePathOf hplain)

def Packing.Sees (settings : Settings) (packing : Packing) (s : State) : Prop :=
  match packing with
  | opened job content =>
    s.files.find? (archivePathOf settings job.id) = some ⟨archivePathOf settings job.id, content⟩
  | measured job content size =>
    s.files.find? (archivePathOf settings job.id) = some ⟨archivePathOf settings job.id, content⟩
      ∧ size = content.length
  | attending | .packing _ | closed _ => True

theorem Packing.sees_of_starts (h : packing.starts) (s : State) : packing.Sees settings s := by
  cases packing with
  | attending | packing => trivial
  | opened | measured | closed => contradiction

theorem Packing.Sees.of_find? (h : packing.Sees settings s)
    (hfile : ∀ job, packing.openJob? = some job →
      s'.files.find? (archivePathOf settings job.id) = s.files.find? (archivePathOf settings job.id))
    : packing.Sees settings s' := by
  cases packing with
  | attending | packing | closed => trivial
  | opened job content => exact (hfile job rfl).trans h
  | measured job content size => exact ⟨(hfile job rfl).trans h.left, h.right⟩

theorem Packs.sees (h : Packs crates settings packing s packing' s') (hsees : packing.Sees settings s)
    : packing'.Sees settings s' := by
  cases h with
  | attend | tar | store | close => trivial
  | stay _ hfiles =>
    apply hsees.of_find?
    intro job _
    rw [hfiles]
  | @«open» job _ _ file _ hfiles hfile =>
    have hpath : file.path = archivePathOf settings job.id := Table.key_of_find? hfile
    have hrow : some file = some ⟨archivePathOf settings job.id, file.content⟩ :=
      congrArg (fun path => some (⟨path, file.content⟩ : FileRow)) hpath
    have hfind : s.files.find? (archivePathOf settings job.id) = some file := hfile
    change s'.files.find? (archivePathOf settings job.id)
      = some ⟨archivePathOf settings job.id, file.content⟩
    rw [hfiles, hfind]
    exact hrow
  | @measure job content _ _ file _ hfiles hfile =>
    have hcontent : some file = some ⟨archivePathOf settings job.id, content⟩ := hfile.symm.trans hsees
    injection hcontent with hcontent
    refine ⟨?_, congrArg (fun file => file.content.length) hcontent⟩
    rw [hfiles]
    exact hsees

theorem Packs.find?_archive (h : Packs crates settings packing s packing' s') (hplain : IsPlain id)
    (hopen : ∀ job, packing.openJob? = some job → IsPlain job.id ∧ job.id ≠ id)
    : s'.files.find? (archivePathOf settings id) = s.files.find? (archivePathOf settings id) := by
  cases h with
  | attend hhandles => exact hhandles.archives _ (isArchive_archivePathOf hplain)
  | @tar job _ _ content _ hfiles =>
    have ⟨hplain', hne⟩ := hopen job rfl
    rw [hfiles, Table.find?_replace, if_neg]
    intro heq
    exact hne ((archivePathOf_inj hplain hplain').mp heq).symm
  | stay _ hfiles | «open» _ hfiles | measure _ hfiles | store _ hfiles | close _ _ hfiles => rw [hfiles]

structure System.Stocks (crates : Crates) (settings : Settings) (system : System)
    (phases : List Phase) (packings : List Packing) : Prop where
  seals : system.Seals crates settings phases packings
  names : system.Names IsPlain
  sees : ∀ packing ∈ packings, packing.Sees settings system.state
  stored : system.state.HasArchives crates settings

namespace System.Stocks

variable {phases : List Phase} {packings : List Packing}

theorem isPlain_of_open (h : system.Stocks crates settings phases packings)
    (hpacking : packing ∈ packings) {job : Job} (hopen : packing.openJob? = some job)
    : IsPlain job.id := by
  rcases h.seals.packs.getThread? hpacking with ⟨thread, hthread, hagrees, _⟩
  have hplain := h.names.threads thread hthread
  rw [Packing.label_of_openJob? hagrees hopen] at hplain
  exact hplain

theorem keepsArchives_of_packs (h : system.Stocks crates settings phases packings)
    (hpacking : packing ∈ packings) (hpacks : Packs crates settings packing system.state packing' s')
    : KeepsArchives crates settings system.state s' := by
  have hother : ∀ id, system.state.db.artifacts.contains id → IsPlain id →
      s'.files.find? (archivePathOf settings id)
        = system.state.files.find? (archivePathOf settings id) := by
    intro id hcontains hplain
    apply hpacks.find?_archive hplain
    intro job hopen
    refine ⟨h.isPlain_of_open hpacking hopen, ?_⟩
    rintro rfl
    rcases Table.contains_iff.mp hcontains with ⟨row, hrow⟩
    rw [h.seals.unstored packing hpacking job hopen] at hrow
    contradiction
  rcases hpacks.artifacts_cases with ⟨hsame, _⟩ | ⟨job, content, size, hopen, hclosed, hstored⟩
  . exact keepsArchives_of_find? hsame hother
  . -- The row is new, and its archive is as the worker has read it.
    have hnone := h.seals.unstored packing hpacking job hopen
    have hplain := h.isPlain_of_open hpacking hopen
    have hsees := h.sees packing hpacking
    have hrow : s'.HasArchive crates settings (archiveRow crates settings job content size) := by
      cases hpacks with
      | stay =>
        rw [hclosed] at hopen
        contradiction
      | attend | tar | «open» | measure => contradiction
      | @store job' content' size' _ _ hartifacts hfiles =>
        injection hopen with hopen
        subst hopen
        rw [hartifacts] at hstored
        have hsame : archiveRow crates settings job' content' size'
            = archiveRow crates settings job' content size := by
          have hfind := congrArg (·.find? job'.id) hstored
          beta_reduce at hfind
          rw [Table.find?_replace, Table.find?_replace, if_pos (by rfl), if_pos (by rfl)] at hfind
          exact Option.some.inj hfind
        rw [← hsame]
        refine ⟨content', ?_, ?_⟩
        . rw [hfiles]
          exact hsees.left
        . rw [hsees.right]
          rfl
      | close hopen' hartifacts hfiles =>
        rw [hartifacts] at hstored
        have hfind : system.state.db.artifacts.find? job.id
            = some (archiveRow crates settings job content size) := by
          rw [hstored, Table.find?_replace]
          exact if_pos rfl
        rw [hnone] at hfind
        contradiction
    intro hs
    let before : State := { s' with db := { s'.db with artifacts := system.state.db.artifacts } }
    have ⟨hold, hkeeps⟩ := @keepsArchives_of_find? crates settings system.state before rfl hother hs
    refine ⟨⟨?_, ?_⟩, ?_⟩
    . rw [hstored]
      exact Table.forall_replace hs.plain hplain
    . rw [hstored]
      exact Table.forall_replace hold.archives hrow
    . intro id row hid
      refine ⟨?_, (hkeeps id row hid).right⟩
      rw [hstored, Table.find?_replace, if_neg]
      . exact hid
      . rintro rfl
        have hnone : system.state.db.artifacts.find?
            (archiveRow crates settings job content size).jobId = none := hnone
        rw [hnone] at hid
        contradiction

theorem sees_of_packs (h : system.Stocks crates settings phases packings) {i : Nat}
    (hpacking : packings[i]? = some packing)
    (hpacks : Packs crates settings packing system.state packing' s')
    : ∀ other ∈ packings.set i packing', other.Sees settings s' := by
  have hlt := (List.getElem?_eq_some_iff.mp hpacking).choose
  have hmem := List.mem_of_getElem? hpacking
  intro other hother
  rcases List.getElem?_of_mem hother with ⟨j, hj⟩
  by_cases hij : i = j
  . subst hij
    rw [List.getElem?_set_self hlt] at hj
    injection hj with hj
    rw [← hj]
    exact hpacks.sees (h.sees packing hmem)
  . rw [List.getElem?_set_ne hij] at hj
    have hother := List.mem_of_getElem? hj
    apply (h.sees other hother).of_find?
    intro job' hopen'
    apply hpacks.find?_archive (h.isPlain_of_open hother hopen')
    intro job hopen
    exact ⟨h.isPlain_of_open hmem hopen, h.seals.ne_of_open hij hpacking hj hopen hopen'⟩

end System.Stocks

/-- Done by anyone but the server. -/
def Action.isOutside (action : Action) : Bool :=
  match action with
  | changeFiles _ => true
  | _ => false

theorem System.Stocks.step {phases : List Phase} {packings : List Packing} {action : Action}
    (h : system.Stocks crates settings phases packings)
    (hstep : system.step crates settings action = some system') (houtside : action.isOutside = false)
    (hrequest : ∀ request ambient, action = .request request ambient → IsPlain ambient.uuid)
    : ∃ phases' packings', system'.Stocks crates settings phases' packings'
        ∧ KeepsArchives crates settings system.state system'.state := by
  rcases h.seals.step hstep with ⟨phases', packings', hseals, hto, _⟩
  have hnames := h.names.step h.seals.lives hstep hrequest
  have hstocks : (∀ packing ∈ packings', packing.Sees settings system'.state) →
      KeepsArchives crates settings system.state system'.state →
      ∃ phases' packings', system'.Stocks crates settings phases' packings'
        ∧ KeepsArchives crates settings system.state system'.state :=
    fun hsees hkeeps =>
      ⟨phases', packings', ⟨hseals, hnames, hsees, (hkeeps h.stored).left⟩, hkeeps⟩
  cases hto with
  | spawn hstarts hartifacts hfiles =>
    apply hstocks
    . intro packing hpacking
      rw [List.mem_append, List.mem_singleton] at hpacking
      rcases hpacking with hpacking | rfl
      . apply (h.sees packing hpacking).of_find?
        intro job _
        rw [hfiles]
      . exact Packing.sees_of_starts hstarts _
    . exact keepsArchives_of_eq hartifacts hfiles
  | thread hpacking hpacks =>
    apply hstocks
    . exact h.sees_of_packs hpacking hpacks
    . exact h.keepsArchives_of_packs (List.mem_of_getElem? hpacking) hpacks
  | outside => contradiction
  | restart hartifacts hfiles =>
    apply hstocks
    . intro packing hpacking
      contradiction
    . exact keepsArchives_of_eq hartifacts hfiles

theorem stocks_of_main {boot : Boot} (hmain : main crates settings boot (.empty settings) = some system)
    : system.Stocks crates settings [] [] := by
  have ⟨hthreads, hcore⟩ := main_eq_some hmain
  have hartifacts : system.state.db.artifacts = .empty := (congrArg Core.artifacts hcore).trans rfl
  have hjobs : system.state.db.jobs = .empty := (congrArg Core.jobs hcore).trans rfl
  refine ⟨seals_of_main hmain, ⟨?_, ?_⟩, ?_, ⟨?_, ?_⟩⟩
  . rw [hthreads]
    intro thread hthread
    contradiction
  . rw [hjobs]
    intro row hrow
    contradiction
  . intro packing hpacking
    contradiction
  . rw [hartifacts]
    intro row hrow
    contradiction
  . rw [hartifacts]
    intro row hrow
    contradiction

end Koval
