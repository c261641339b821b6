import Koval.Server.Announcements

/-!
This module contains what the deliveries tell of the jobs, and what each step does to it.
-/

namespace Koval

open Prog

variable {s s' : State}

abbrev Delivery := WebhookPayload × List (String × String)

def State.Watches (s : State) (id : String) (webhook : String × String) : Prop :=
  ∀ row, s.db.jobs.find? id = some row → ¬ row.status.IsSettled →
    webhook ∈ s.db.deliveryInfo row.tokenId

instance (status : Status) : Decidable status.IsSettled := inferInstanceAs (Decidable (_ ∨ _))

instance (s : State) (id : String) (webhook : String × String) : Decidable (s.Watches id webhook) :=
  inferInstanceAs (Decidable (∀ row ∈ s.db.jobs.find? id, _))

def deliveriesOf (id : String) (deliveries : List Delivery) : List Delivery :=
  deliveries.filter fun delivery => delivery.fst.jobId = id

theorem Core.IsPending.step {c c' : Core} {id : String} (h : c.IsPending id)
    (hmoves : StatusMoves (c.statusOf id) (c'.statusOf id))
    (hsettled : ∀ status, status.IsSettled → c'.statusOf id = some status →
      c.statusOf id = some status)
    : c'.IsPending id := by
  rcases h with ⟨status, hstatus, hpending⟩
  rw [hstatus] at hmoves hsettled
  cases hnew : c'.statusOf id with
  | none =>
    rw [hnew] at hmoves
    contradiction
  | some status' =>
    refine ⟨status', hnew, ?_⟩
    intro hsettled'
    have heq := hsettled status' hsettled' hnew
    injection heq with heq
    rw [← heq] at hsettled'
    exact hpending hsettled'

theorem Core.IsPending.not_isSettled {c : Core} {id : String} (h : c.IsPending id) {status : Status}
    (hsettled : status.IsSettled)
    : c.statusOf id ≠ some status := by
  rcases h with ⟨status', hstatus', hpending⟩
  intro hstatus
  rw [hstatus'] at hstatus
  injection hstatus with heq
  rw [heq] at hpending
  exact hpending hsettled

namespace Notice

def isWorker (notice : Notice) : Bool :=
  match notice with
  | working _ | asked _ _ | due _ _ _ | told _ => true
  | _ => false

def jobId (notice : Notice) : String :=
  match notice with
  | calm uuid | recorded uuid | accepted uuid | refused uuid => uuid
  | working job | asked job _ | due job _ _ | told job => job.id

def ownedId? (notice : Notice) : Option String :=
  match notice with
  | accepted _ => none
  | _ => some notice.jobId

def Ends (notice : Notice) (id : String) : Prop :=
  match notice with
  | refused uuid => uuid = id
  | due job _ _ | told job => job.id = id
  | _ => False

/--
What a thread relies on, where `kept` webhooks are active all the time, `new` are the deliveries since
the jobs were as in `start`.
-/
def Holds (kept : String → String × String → Prop) (start : Core) (s : State) (new : List Delivery)
    (notice : Notice) : Prop :=
  match notice with
  | calm _ | accepted _ => True
  | recorded uuid => s.core.IsPending uuid
  | refused uuid => ∀ webhook, ¬ kept uuid webhook
  | working job => job ∈ s.core.recorded ∧ s.core.IsPending job.id
  | asked job webhooks =>
    s.core.IsPending job.id ∧ ∀ webhook, kept job.id webhook → webhook ∈ webhooks
  | due job status webhooks =>
    status.IsSettled
      ∧ s.core.statusOf job.id = some status
      ∧ start.statusOf job.id ≠ some status
      ∧ deliveriesOf job.id new = []
      ∧ ∀ webhook, kept job.id webhook → webhook ∈ webhooks
  | told job =>
    (∀ webhook, ¬ kept job.id webhook)
      ∨ ∃ delivery, deliveriesOf job.id new = [delivery]
          ∧ delivery.fst.status.IsSettled
          ∧ s.core.statusOf job.id = some delivery.fst.status
          ∧ ∀ webhook, kept job.id webhook → webhook ∈ delivery.snd

end Notice

theorem isWorker_ended (job : Job) (status : Status) (webhooks : List (String × String))
    : (Notice.ended job status webhooks).isWorker = true := by
  unfold Notice.ended
  split <;> rfl

theorem jobId_ended (job : Job) (status : Status) (webhooks : List (String × String))
    : (Notice.ended job status webhooks).jobId = job.id := by
  unfold Notice.ended
  split <;> rfl

theorem ownedId?_ended (job : Job) (status : Status) (webhooks : List (String × String))
    : (Notice.ended job status webhooks).ownedId? = some job.id := by
  unfold Notice.ended
  split <;> rfl

theorem ends_ended (job : Job) (status : Status) (webhooks : List (String × String))
    : (Notice.ended job status webhooks).Ends job.id := by
  unfold Notice.ended
  split <;> rfl

theorem jobId_of_ownedId? {notice : Notice} {id : String} (h : notice.ownedId? = some id)
    : notice.jobId = id := by
  cases notice with
  | accepted uuid => contradiction
  | _ => exact Option.some.inj h

variable {notice notice' : Notice} {others : List Notice}

theorem Announces.jobId_eq (h : Announces notice s notice' s') : notice'.jobId = notice.jobId := by
  cases h with
  | settle => exact jobId_ended _ _ _
  | _ => rfl

theorem Announces.isWorker_eq (h : Announces notice s notice' s')
    : notice'.isWorker = notice.isWorker := by
  cases h with
  | settle => exact isWorker_ended _ _ _
  | _ => rfl

theorem Announces.waiting_cases (h : Announces notice s notice' s')
    : (∃ uuid, notice.ownedId? = some uuid ∧ notice'.ownedId? = none
          ∧ s'.queue.jobs.map Job.id = s.queue.jobs.map Job.id ++ [uuid])
        ∨
      (notice'.ownedId? = notice.ownedId? ∧ s'.queue.jobs = s.queue.jobs) := by
  cases h with
  | enqueue _ _ hwaiting => exact .inl ⟨_, rfl, rfl, hwaiting⟩
  | settle hhushed => exact .inr ⟨ownedId?_ended _ _ _, hhushed.waiting⟩
  | deliver _ _ _ hwaiting => exact .inr ⟨rfl, hwaiting⟩
  | stay hhushed | record hhushed | refuse hhushed | fail hhushed | ask hhushed =>
    exact .inr ⟨rfl, hhushed.waiting⟩

theorem Hushed.settled_of_none (h : Hushed none s s') {id : String} {status : Status}
    (hsettled : status.IsSettled) (hstatus : s'.core.statusOf id = some status)
    : s.core.statusOf id = some status :=
  h.settled id status (by simp) hsettled hstatus

theorem Announces.settled_cases (h : Announces notice s notice' s') {id : String} {status : Status}
    (hsettled : status.IsSettled) (hstatus : s'.core.statusOf id = some status)
    : s.core.statusOf id = some status ∨ (notice.ownedId? = some id ∧ notice'.Ends id) := by
  cases h with
  | stay hhushed | record hhushed | refuse hhushed | ask hhushed =>
    exact .inl (hhushed.settled_of_none hsettled hstatus)
  | enqueue hjobs | deliver _ _ hjobs =>
    rw [statusOf_of_jobs hjobs] at hstatus
    exact .inl hstatus
  | @fail uuid _ _ hhushed =>
    by_cases hid : some uuid = some id
    . exact .inr ⟨hid, Option.some.inj hid⟩
    . exact .inl (hhushed.settled id status hid hsettled hstatus)
  | @settle job webhooks status' _ _ hhushed =>
    by_cases hid : some job.id = some id
    . rw [← Option.some.inj hid]
      exact .inr ⟨rfl, ends_ended _ _ _⟩
    . exact .inl (hhushed.settled id status hid hsettled hstatus)

theorem Announces.ends (h : Announces notice s notice' s') {id : String} (hends : notice.Ends id)
    : notice'.Ends id := by
  cases h with
  | stay | fail | deliver => exact hends
  | _ => contradiction

section Tells

variable {kept : String → String × String → Prop} {start : Core} {old new new' : List Delivery}
  {notices notices' : List Notice}

/-- The `new` deliveries announce what has come to its end since `start`. -/
structure Tells (kept : String → String × String → Prop) (start : Core) (old : List Delivery)
    (s : State) (notices : List Notice) (new : List Delivery) : Prop where
  deliveries : s.deliveries = new ++ old
  nodup : (s.queue.jobs.map Job.id ++ notices.filterMap Notice.ownedId?).Nodup
  holds : ∀ notice ∈ notices, notice.Holds kept start s new
  sound : ∀ delivery ∈ new, delivery.fst.status.IsSettled
    ∧ s.core.statusOf delivery.fst.jobId = some delivery.fst.status
    ∧ start.statusOf delivery.fst.jobId ≠ some delivery.fst.status
  complete : ∀ id status, status.IsSettled → s.core.statusOf id = some status →
    start.statusOf id = some status ∨ ∃ notice ∈ notices, notice.Ends id
  lasting : ∀ id status, status.IsSettled → start.statusOf id = some status →
    s.core.statusOf id = some status

theorem Tells.perm (h : Tells kept start old s notices new) (hperm : notices.Perm notices')
    : Tells kept start old s notices' new :=
  { h with
    nodup := ((hperm.filterMap Notice.ownedId?).append_left _).nodup h.nodup
    holds := by
      intro notice hnotice
      exact h.holds notice (hperm.mem_iff.mpr hnotice)
    complete := by
      intro id status hsettled hstatus
      rcases h.complete id status hsettled hstatus with hstart | ⟨notice, hnotice, hends⟩
      . exact .inl hstart
      . exact .inr ⟨notice, hperm.mem_iff.mp hnotice, hends⟩ }

theorem Tells.deliveriesOf_eq_nil (h : Tells kept start old s notices new) {id : String}
    (hpending : s.core.IsPending id)
    : deliveriesOf id new = [] := by
  unfold deliveriesOf
  rw [List.filter_eq_nil_iff]
  intro delivery hdelivery heq
  rw [decide_eq_true_eq] at heq
  have ⟨hsettled, hstatus, _⟩ := h.sound delivery hdelivery
  rw [heq] at hstatus
  exact hpending.not_isSettled hsettled hstatus

theorem Notice.Holds.mono (h : notice.Holds kept start s new)
    (hrecorded : s.core.recorded ⊆ s'.core.recorded)
    (hmoves : ∀ id, StatusMoves (s.core.statusOf id) (s'.core.statusOf id))
    (hothers : ∀ id, notice.ownedId? = some id →
      deliveriesOf id new' = deliveriesOf id new
        ∧ ∀ status, status.IsSettled → s'.core.statusOf id = some status →
            s.core.statusOf id = some status)
    : notice.Holds kept start s' new' := by
  cases notice with
  | calm uuid | accepted uuid => trivial
  | recorded uuid => exact Core.IsPending.step h (hmoves uuid) (hothers uuid rfl).right
  | refused uuid => exact h
  | working job =>
    exact ⟨hrecorded h.left, h.right.step (hmoves job.id) (hothers job.id rfl).right⟩
  | asked job webhooks => exact ⟨h.left.step (hmoves job.id) (hothers job.id rfl).right, h.right⟩
  | due job status webhooks =>
    rcases h with ⟨hsettled, hstatus, hstart, hnone, hkept⟩
    exact ⟨hsettled, (hmoves job.id).lasts hsettled hstatus, hstart,
      (hothers job.id rfl).left.trans hnone, hkept⟩
  | told job =>
    rcases h with hnone | ⟨delivery, hdelivery, hsettled, hstatus, hkept⟩
    . exact .inl hnone
    . exact .inr ⟨delivery, (hothers job.id rfl).left.trans hdelivery, hsettled,
        (hmoves job.id).lasts hsettled hstatus, hkept⟩

theorem Tells.update (h : Tells kept start old s (notice :: others) new)
    (htrans : Announces notice s notice' s') (hrecorded : s.core.recorded ⊆ s'.core.recorded)
    (hmoves : ∀ id, StatusMoves (s.core.statusOf id) (s'.core.statusOf id))
    (hdeliveries : s'.deliveries = new' ++ old)
    (hnew : ∀ delivery ∈ new', delivery ∈ new
      ∨ (delivery.fst.status.IsSettled
          ∧ s'.core.statusOf delivery.fst.jobId = some delivery.fst.status
          ∧ start.statusOf delivery.fst.jobId ≠ some delivery.fst.status))
    (hothers : ∀ id, notice.ownedId? ≠ some id → deliveriesOf id new' = deliveriesOf id new)
    (hholds : notice'.Holds kept start s' new')
    : Tells kept start old s' (notice' :: others) new' where
  deliveries := hdeliveries
  nodup := by
    have hnodup := h.nodup
    rcases htrans.waiting_cases with ⟨uuid, howned, howned', hwaiting⟩ | ⟨howned, hwaiting⟩
    . rw [hwaiting, List.filterMap_cons_none howned', List.append_assoc]
      rw [List.filterMap_cons_some howned] at hnodup
      exact hnodup
    . rw [hwaiting, List.filterMap_cons, howned]
      exact hnodup
  holds := by
    intro other hother
    rw [List.mem_cons] at hother
    rcases hother with rfl | hother
    . exact hholds
    . apply (h.holds other (List.mem_cons_of_mem notice hother)).mono hrecorded hmoves
      intro id howned
      -- No two threads own the same job.
      have hne : notice.ownedId? ≠ some id := by
        intro heq
        have hnodup := h.nodup
        rw [List.filterMap_cons_some heq, List.nodup_middle, List.nodup_cons, List.mem_append]
          at hnodup
        apply hnodup.left
        right
        rw [List.mem_filterMap]
        exact ⟨other, hother, howned⟩
      refine ⟨hothers id hne, ?_⟩
      intro status hsettled hstatus
      rcases htrans.settled_cases hsettled hstatus with hold | ⟨heq, _⟩
      . exact hold
      . exact absurd heq hne
  sound := by
    intro delivery hdelivery
    rcases hnew delivery hdelivery with hold | hsound
    . have ⟨hsettled, hstatus, hstart⟩ := h.sound delivery hold
      exact ⟨hsettled, (hmoves _).lasts hsettled hstatus, hstart⟩
    . exact hsound
  complete := by
    intro id status hsettled hstatus
    rcases htrans.settled_cases hsettled hstatus with hold | ⟨_, hends⟩
    . rcases h.complete id status hsettled hold with hstart | ⟨other, hother, hends⟩
      . exact .inl hstart
      . right
        rw [List.mem_cons] at hother
        rcases hother with rfl | hother
        . exact ⟨notice', List.mem_cons_self, htrans.ends hends⟩
        . exact ⟨other, List.mem_cons_of_mem _ hother, hends⟩
    . exact .inr ⟨notice', List.mem_cons_self, hends⟩
  lasting := by
    intro id status hsettled hstart
    exact (hmoves id).lasts hsettled (h.lasting id status hsettled hstart)

theorem Tells.hush (h : Tells kept start old s (notice :: others) new)
    (htrans : Announces notice s notice' s') (hrecorded : s.core.recorded ⊆ s'.core.recorded)
    (hmoves : ∀ id, StatusMoves (s.core.statusOf id) (s'.core.statusOf id))
    (hdeliveries : s'.deliveries = s.deliveries) (hholds : notice'.Holds kept start s' new)
    : Tells kept start old s' (notice' :: others) new :=
  h.update htrans hrecorded hmoves (hdeliveries.trans h.deliveries) (fun _ => .inl)
    (fun _ _ => rfl) hholds

theorem Tells.thread (h : Tells kept start old s (notice :: others) new)
    (htrans : Announces notice s notice' s') (hrecorded : s.core.recorded ⊆ s'.core.recorded)
    (hmoves : ∀ id, StatusMoves (s.core.statusOf id) (s'.core.statusOf id))
    (htokenId : ∀ job ∈ s.core.recorded, ∀ row, s.db.jobs.find? job.id = some row →
      row.tokenId = job.tokenId)
    (hwatches : ∀ id webhook, kept id webhook → s.Watches id webhook)
    (hroom : ∀ uuid, notice = .recorded uuid → ∀ row, s.db.jobs.find? uuid = some row →
      s.queue.jobs.length < s.queue.capacity ∨ s.db.deliveryInfo row.tokenId = [])
    : ∃ new', Tells kept start old s' (notice' :: others) new' := by
  have hholds := h.holds notice List.mem_cons_self
  have hwatched : ∀ {id : String}, s.core.IsPending id → ∃ row, s.db.jobs.find? id = some row
      ∧ ∀ webhook, kept id webhook → webhook ∈ s.db.deliveryInfo row.tokenId := by
    rintro id ⟨status, hstatus, hpending⟩
    unfold Core.statusOf at hstatus
    rw [Option.map_eq_some_iff] at hstatus
    rcases hstatus with ⟨row, hrow, rfl⟩
    exact ⟨row, hrow, fun webhook hkept => hwatches id webhook hkept row hrow hpending⟩
  cases htrans with
  | stay hhushed =>
    refine ⟨new, h.hush (.stay hhushed) hrecorded hmoves hhushed.deliveries ?_⟩
    apply hholds.mono hrecorded hmoves
    intro id _
    exact ⟨rfl, fun _ => hhushed.settled_of_none⟩
  | record hhushed hpending =>
    exact ⟨new, h.hush (.record hhushed hpending) hrecorded hmoves hhushed.deliveries hpending⟩
  | enqueue hjobs hdeliveries hwaiting =>
    exact ⟨new, h.hush (.enqueue hjobs hdeliveries hwaiting) hrecorded hmoves hdeliveries trivial⟩
  | refuse hhushed hfull =>
    refine ⟨new, h.hush (.refuse hhushed hfull) hrecorded hmoves hhushed.deliveries ?_⟩
    intro webhook hkept
    rcases hwatched hholds with ⟨row, hrow, hactive⟩
    rcases hroom _ rfl row hrow with hlt | hnil
    . exact hfull hlt
    . have := hactive webhook hkept
      rw [hnil] at this
      contradiction
  | fail hhushed =>
    exact ⟨new, h.hush (.fail hhushed) hrecorded hmoves hhushed.deliveries hholds⟩
  | @ask job _ _ hhushed =>
    refine ⟨new, h.hush (.ask hhushed) hrecorded hmoves hhushed.deliveries ⟨?_, ?_⟩⟩
    . exact hholds.right.step (hmoves job.id) fun _ => hhushed.settled_of_none
    . intro webhook hkept
      rcases hwatched hholds.right with ⟨row, hrow, hactive⟩
      rw [← htokenId job hholds.left row hrow]
      exact hactive webhook hkept
  | @settle job webhooks status _ _ hhushed hsettled hstatus =>
    refine ⟨new, h.hush (.settle hhushed hsettled hstatus) hrecorded hmoves hhushed.deliveries ?_⟩
    have ⟨hpending, hkept⟩ := hholds
    unfold Notice.ended
    split
    . next hnil =>
      left
      intro webhook hwebhook
      have := hkept webhook hwebhook
      rw [hnil] at this
      contradiction
    . refine ⟨hsettled, ?_, ?_, h.deliveriesOf_eq_nil hpending, hkept⟩
      . rcases hpending with ⟨status₀, hstatus₀, _⟩
        have hmove := hmoves job.id
        rw [hstatus₀] at hmove
        cases hnew : s'.core.statusOf job.id with
        | none =>
          rw [hnew] at hmove
          contradiction
        | some status' => rw [hstatus status' hnew]
      . intro hstart
        exact hpending.not_isSettled hsettled (h.lasting job.id status hsettled hstart)
  | @deliver job status webhooks payload _ _ hid hstatus hjobs hwaiting hdeliveries =>
    rcases hholds with ⟨hsettled, hdone, hstart, hnone, hkept⟩
    have hdone' : s'.core.statusOf job.id = some status := (hmoves job.id).lasts hsettled hdone
    refine ⟨(payload, webhooks) :: new,
      h.update (.deliver hid hstatus hjobs hwaiting hdeliveries) hrecorded hmoves ?_ ?_ ?_ ?_⟩
    . rw [hdeliveries, h.deliveries]
      rfl
    . intro delivery hdelivery
      rw [List.mem_cons] at hdelivery
      rcases hdelivery with rfl | hdelivery
      . dsimp only
        rw [hid, hstatus]
        exact .inr ⟨hsettled, hdone', hstart⟩
      . exact .inl hdelivery
    . intro id hne
      apply List.filter_cons_of_neg
      rw [decide_eq_true_eq]
      intro heq
      exact hne (congrArg some (hid.symm.trans heq))
    . right
      refine ⟨(payload, webhooks), ?_, ?_, ?_, hkept⟩
      . unfold deliveriesOf at hnone ⊢
        rw [List.filter_cons_of_pos, hnone]
        exact decide_eq_true hid
      . dsimp only
        rw [hstatus]
        exact hsettled
      . dsimp only
        rw [hstatus]
        exact hdone'

theorem Tells.spawn (h : Tells kept start old s notices new) {uuid : String}
    (hwaiting : uuid ∉ s.queue.jobs.map Job.id)
    (hnotices : ∀ notice ∈ notices, notice.ownedId? ≠ some uuid)
    : Tells kept start old s (.calm uuid :: notices) new :=
  { h with
    nodup := by
      have howned : (Notice.calm uuid).ownedId? = some uuid := rfl
      rw [List.filterMap_cons_some howned, List.nodup_middle, List.nodup_cons]
      refine ⟨?_, h.nodup⟩
      rw [List.mem_append, List.mem_filterMap]
      rintro (hmem | ⟨notice, hnotice, howned⟩)
      . exact hwaiting hmem
      . exact hnotices notice hnotice howned
    holds := by
      intro notice hnotice
      rw [List.mem_cons] at hnotice
      rcases hnotice with rfl | hnotice
      . trivial
      . exact h.holds notice hnotice
    complete := by
      intro id status hsettled hstatus
      rcases h.complete id status hsettled hstatus with hstart | ⟨notice, hnotice, hends⟩
      . exact .inl hstart
      . exact .inr ⟨notice, List.mem_cons_of_mem _ hnotice, hends⟩ }

theorem Tells.recv (h : Tells kept start old s notices new) {job : Job} {queue : JobQueue}
    (hqueue : s.queue.jobs = job :: queue.jobs) (hrecorded : job ∈ s.core.recorded)
    (hpending : s.core.IsPending job.id)
    : Tells kept start old { s with queue } (.working job :: notices) new where
  deliveries := h.deliveries
  nodup := by
    have hnodup := h.nodup
    rw [hqueue, List.map_cons, List.cons_append, ← List.nodup_middle] at hnodup
    exact hnodup
  holds := by
    intro notice hnotice
    rw [List.mem_cons] at hnotice
    rcases hnotice with rfl | hnotice
    . exact ⟨hrecorded, hpending⟩
    . exact h.holds notice hnotice
  sound := h.sound
  complete := by
    intro id status hsettled hstatus
    rcases h.complete id status hsettled hstatus with hstart | ⟨notice, hnotice, hends⟩
    . exact .inl hstart
    . exact .inr ⟨notice, List.mem_cons_of_mem _ hnotice, hends⟩
  lasting := h.lasting

end Tells

end Koval
