import Koval.Server.Cache

/-!
This module contains the queue of jobs between the handlers and the worker loop.
-/

namespace Koval

structure Job where
  id : String
  tokenId : Int
  project : String
  gitRef : String
  hardware : HardwareProfile
  binary : Option String
  package : Option String
  target : Option String
  jobType : JobType
  pgoSourceJobId : Option String
  deriving DecidableEq, Inhabited

def Job.tuple (job : Job) : BuildTuple :=
  ⟨job.hardware, job.project, job.gitRef, job.binary, job.package, job.target⟩

inductive QueueError where
  | queueFull
  | sendError (msg : String)
  deriving DecidableEq, Repr

-- Both ends of a bounded channel.
structure JobQueue where
  capacity : Nat
  jobs : List Job
  -- the receiving end is gone
  isClosed : Bool
  length_le : jobs.length ≤ capacity
  deriving DecidableEq

namespace JobQueue

def new (capacity : Nat) : JobQueue := ⟨capacity, [], false, Nat.zero_le capacity⟩

def enqueue (queue : JobQueue) (job : Job) : Except QueueError String × JobQueue :=
  if queue.isClosed then
    (.error (.sendError "Dispatcher queue closed"), queue)
  else if h : queue.jobs.length < queue.capacity then
    (.ok job.id, { queue with
      jobs := queue.jobs ++ [job]
      length_le := by
        rw [List.length_append, List.length_singleton]
        omega })
  else
    (.error .queueFull, queue)

def recv (queue : JobQueue) : Option (Job × JobQueue) :=
  match h : queue.jobs with
  | [] => none
  | job :: jobs =>
    some (job, { queue with
      jobs
      length_le := by
        have := queue.length_le
        rw [h, List.length_cons] at this
        omega })

theorem jobs_enqueue {queue queue' : JobQueue} {job : Job} {id : String}
    (h : queue.enqueue job = (.ok id, queue'))
    : id = job.id ∧ queue'.jobs = queue.jobs ++ [job] ∧ queue'.isClosed = queue.isClosed := by
  unfold enqueue at h
  split at h
  . simp at h
  . split at h
    . simp only [Prod.mk.injEq, Except.ok.injEq] at h
      rw [← h.left, ← h.right]
      exact ⟨rfl, rfl, rfl⟩
    . simp at h

theorem enqueue_error {queue queue' : JobQueue} {job : Job} {err : QueueError}
    (h : queue.enqueue job = (.error err, queue'))
    : queue' = queue := by
  unfold enqueue at h
  split at h
  . exact (congrArg Prod.snd h).symm
  . split at h
    . simp at h
    . exact (congrArg Prod.snd h).symm

theorem isClosed_of_sendError {queue queue' : JobQueue} {job : Job} {msg : String}
    (h : queue.enqueue job = (.error (.sendError msg), queue'))
    : queue.isClosed := by
  unfold enqueue at h
  split at h
  . assumption
  . split at h <;> simp at h

theorem jobs_recv {queue queue' : JobQueue} {job : Job} (h : queue.recv = some (job, queue'))
    : queue.jobs = job :: queue'.jobs ∧ queue'.isClosed = queue.isClosed := by
  unfold recv at h
  split at h
  . contradiction
  . next job' jobs heq =>
    simp only [Option.some.injEq, Prod.mk.injEq] at h
    rw [heq, ← h.left, ← h.right]
    exact ⟨rfl, rfl⟩

end JobQueue

end Koval
