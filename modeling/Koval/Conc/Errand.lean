import Mathlib.Data.List.Basic

/-!
This module contains errands: tasks that send requests, wait for the replies and sleep, each at its time, and
what one does that sends a request again until a reply is good.
-/

/-- What a task still does, where `ρ` are its requests and `α` the replies. -/
inductive Errand (ρ : Type u) (α : Type v) where
  | done
  | sleep (pause : Nat) (rest : Errand ρ α)
  | send (request : ρ) (next : α → Errand ρ α)

namespace Errand

variable {ρ : Type u} {α : Type v}

inductive Event (ρ : Type u) (α : Type v) where
  | sent (time : Nat) (request : ρ)
  | answered (time : Nat) (reply : α)

inductive Place (ρ : Type u) (α : Type v) where
  | ready (errand : Errand ρ α)
  | awaiting (next : α → Errand ρ α)

-- A task that has come to its place at the time `since`, with the latest event first.
structure Run (ρ : Type u) (α : Type v) where
  place : Place ρ α
  since : Nat
  events : List (Event ρ α)

def start (errand : Errand ρ α) (now : Nat) : Run ρ α := ⟨.ready errand, now, []⟩

def Run.step (now : Nat) (reply : α) (run : Run ρ α) : Option (Run ρ α) :=
  if now < run.since then
    none
  else
    match run.place with
    | .ready .done => none
    | .ready (.sleep pause rest) =>
      if run.since + pause ≤ now then some ⟨.ready rest, now, run.events⟩ else none
    | .ready (.send request next) => some ⟨.awaiting next, now, .sent now request :: run.events⟩
    | .awaiting next => some ⟨.ready (next reply), now, .answered now reply :: run.events⟩

def Run.isDone (run : Run ρ α) : Bool :=
  match run.place with
  | .ready .done => true
  | _ => false

def sentOf (event : Event ρ α) : Option (Nat × ρ) :=
  match event with
  | .sent time request => some (time, request)
  | .answered _ _ => none

def sends (events : List (Event ρ α)) : List (Nat × ρ) := events.filterMap sentOf

section Retry

variable (good : α → Bool) (request : ρ)

def attempts (pauses : List Nat) : Errand ρ α :=
  match pauses with
  | [] => .done
  | pause :: pauses =>
    .sleep pause (.send request fun reply => if good reply then .done else attempts pauses)

def orElse (pauses : List Nat) (reply : α) : Errand ρ α :=
  if good reply then .done else attempts good request pauses

def retry (pauses : List Nat) : Errand ρ α := .send request (orElse good request pauses)

inductive Failed (first : Nat) (all : List Nat) : List Nat → List (Event ρ α) → Nat → Prop where
  | none : Failed first all all [] first
  | again {pause : Nat} {pauses : List Nat} {events : List (Event ρ α)} {time sentAt answeredAt : Nat}
    {reply : α} (h : Failed first all (pause :: pauses) events time) (hsent : time + pause ≤ sentAt)
    (hanswered : sentAt ≤ answeredAt) (hbad : good reply = false) :
    Failed first all pauses (.answered answeredAt reply :: .sent sentAt request :: events) answeredAt

inductive Retries (first : Nat) (all : List Nat) : Run ρ α → Prop where
  | pausing {pauses : List Nat} {events : List (Event ρ α)} {time : Nat}
    (h : Failed good request first all pauses events time) :
    Retries first all ⟨.ready (attempts good request pauses), time, events⟩
  | paused {pause : Nat} {pauses : List Nat} {events : List (Event ρ α)} {time since : Nat}
    (h : Failed good request first all (pause :: pauses) events time) (hsince : time + pause ≤ since) :
    Retries first all ⟨.ready (.send request (orElse good request pauses)), since, events⟩
  | asking {pause : Nat} {pauses : List Nat} {events : List (Event ρ α)} {time sentAt : Nat}
    (h : Failed good request first all (pause :: pauses) events time) (hsent : time + pause ≤ sentAt) :
    Retries first all ⟨.awaiting (orElse good request pauses), sentAt, .sent sentAt request :: events⟩
  | succeeded {pause : Nat} {pauses : List Nat} {events : List (Event ρ α)}
    {time sentAt answeredAt : Nat} {reply : α}
    (h : Failed good request first all (pause :: pauses) events time) (hsent : time + pause ≤ sentAt)
    (hanswered : sentAt ≤ answeredAt) (hgood : good reply) :
    Retries first all
      ⟨.ready .done, answeredAt, .answered answeredAt reply :: .sent sentAt request :: events⟩

variable {good request} {first : Nat} {all pauses : List Nat} {run run' : Run ρ α}
  {events : List (Event ρ α)} {time : Nat}

theorem retries_start (pauses : List Nat) (now : Nat)
    : Retries good request now (0 :: pauses) (start (retry good request pauses) now) :=
  .paused .none (Nat.le_refl _)

theorem Retries.step {now : Nat} {reply : α} (h : Retries good request first all run)
    (hstep : run.step now reply = some run')
    : Retries good request first all run' := by
  unfold Run.step at hstep
  split at hstep
  . contradiction
  next hnow =>
  rw [Nat.not_lt] at hnow
  cases h with
  | @pausing pauses events time h =>
    cases pauses with
    | nil => contradiction
    | cons pause pauses =>
      dsimp only [attempts] at hstep
      split at hstep
      . next hsince =>
        injection hstep with hstep
        rw [← hstep]
        exact .paused h hsince
      . contradiction
  | paused h hsince =>
    injection hstep with hstep
    rw [← hstep]
    exact .asking h (Nat.le_trans hsince hnow)
  | @asking _ pauses _ _ _ h hsent =>
    injection hstep with hstep
    rw [← hstep]
    unfold orElse
    by_cases hgood : good reply
    . rw [if_pos hgood]
      exact .succeeded h hsent hnow hgood
    . rw [if_neg hgood]
      exact .pausing (.again h hsent hnow (Bool.not_eq_true _ ▸ hgood))
  | succeeded => contradiction

theorem Failed.length_eq (h : Failed good request first all pauses events time)
    : (sends events).length + pauses.length = all.length := by
  induction h with
  | none => exact Nat.zero_add _
  | again _ _ _ _ ih =>
    rw [List.length_cons] at ih
    change ((sends _).length + 1) + _ = _
    omega

theorem Failed.suffix (h : Failed good request first all pauses events time) : pauses <:+ all := by
  induction h with
  | none => exact List.suffix_refl _
  | again _ _ _ _ ih => exact (List.suffix_cons _ _).trans ih

theorem Failed.request_eq (h : Failed good request first all pauses events time) {sentAt : Nat}
    {request' : ρ} (hmem : .sent sentAt request' ∈ events)
    : request' = request := by
  induction h with
  | none => contradiction
  | again _ _ _ _ ih =>
    rw [List.mem_cons, List.mem_cons] at hmem
    rcases hmem with hmem | hmem | hmem
    . contradiction
    . injection hmem
    . exact ih hmem

theorem Failed.bad (h : Failed good request first all pauses events time) {answeredAt : Nat}
    {reply : α} (hmem : .answered answeredAt reply ∈ events)
    : good reply = false := by
  induction h with
  | none => contradiction
  | again _ _ _ hbad ih =>
    rw [List.mem_cons, List.mem_cons] at hmem
    rcases hmem with hmem | hmem | hmem
    . injection hmem with _ hreply
      rw [hreply]
      exact hbad
    . contradiction
    . exact ih hmem

theorem Failed.getElem?_all {pause : Nat}
    (h : Failed good request first all (pause :: pauses) events time)
    : all[(sends events).length]? = some pause := by
  rcases h.suffix with ⟨pre, rfl⟩
  have hlength := h.length_eq
  rw [List.length_append] at hlength
  have hpre : (sends events).length = pre.length := by omega
  rw [hpre, List.getElem?_append_right (Nat.le_refl _), Nat.sub_self]
  rfl

theorem Failed.of_cons {event : Event ρ α}
    (h : Failed good request first all pauses (event :: events) time)
    : ∃ answeredAt reply sentAt older,
        event = .answered answeredAt reply ∧ events = .sent sentAt request :: older
          ∧ answeredAt = time ∧ good reply = false ∧ sentAt ≤ answeredAt
          ∧ ∃ time' pause, Failed good request first all (pause :: pauses) older time'
              ∧ time' + pause ≤ sentAt := by
  cases h with
  | again h hsent hanswered hbad => exact ⟨_, _, _, _, rfl, rfl, rfl, hbad, hanswered, _, _, h, hsent⟩

-- Before each attempt but the first, one has failed, and its pause has gone by.
def Spaced (good : α → Bool) (all : List Nat) (events : List (Event ρ α)) : Prop :=
  ∀ newer older sentAt request event, events = newer ++ .sent sentAt request :: event :: older →
    ∃ answeredAt reply, event = .answered answeredAt reply ∧ good reply = false
      ∧ ∃ pause, all[(sends older).length]? = some pause ∧ answeredAt + pause ≤ sentAt

theorem spaced_sent {pause sentAt : Nat}
    (h : Failed good request first all (pause :: pauses) events time) (hsent : time + pause ≤ sentAt)
    (hspaced : Spaced good all events)
    : Spaced good all (.sent sentAt request :: events) := by
  intro newer older sentAt' request' event heq
  cases newer with
  | nil =>
    injection heq with hevent hevents
    injection hevent with hat
    subst hevents
    rcases h.of_cons with ⟨answeredAt, reply, _, _, hevent, _, htime, hbad, _⟩
    refine ⟨answeredAt, reply, hevent, hbad, pause, ?_, ?_⟩
    . rw [← h.getElem?_all, hevent]
      rfl
    . rw [htime, ← hat]
      exact hsent
  | cons _ newer =>
    injection heq with _ hevents
    exact hspaced newer older sentAt' request' event hevents

theorem spaced_answered {answeredAt : Nat} {reply : α} (h : Spaced good all events)
    : Spaced good all (.answered answeredAt reply :: events) := by
  intro newer older sentAt request event heq
  cases newer with
  | nil => injection heq; contradiction
  | cons _ newer =>
    injection heq with _ hevents
    exact h newer older sentAt request event hevents

theorem Failed.spaced (h : Failed good request first all pauses events time)
    : Spaced good all events := by
  induction h with
  | none =>
    intro newer older sentAt request event heq
    have := congrArg List.length heq
    rw [List.length_append] at this
    simp at this
  | again h hsent _ _ ih => exact spaced_answered (spaced_sent h hsent ih)

/-- What is seen of a task that tries again. -/
structure IsRetried (good : α → Bool) (request : ρ) (all : List Nat) (run : Run ρ α) : Prop where
  same : ∀ sentAt request', .sent sentAt request' ∈ run.events → request' = request
  atMost : (sends run.events).length ≤ all.length
  spaced : Spaced good all run.events
  stops : ∀ answeredAt reply, .answered answeredAt reply ∈ run.events → good reply →
    run.isDone ∧ run.events.head? = some (.answered answeredAt reply)
  tries : run.isDone → (∃ answeredAt reply, .answered answeredAt reply ∈ run.events ∧ good reply)
    ∨ (sends run.events).length = all.length

theorem Retries.isRetried (h : Retries good request first all run)
    : IsRetried good request all run := by
  cases h with
  | @pausing pauses events time h =>
    refine ⟨fun _ _ => h.request_eq, ?_, h.spaced, ?_, ?_⟩
    . have hlength := h.length_eq
      dsimp only
      omega
    . intro answeredAt reply hmem hgood
      rw [h.bad hmem] at hgood
      contradiction
    . intro hdone
      right
      cases pauses with
      | nil => exact h.length_eq
      | cons => contradiction
  | @paused pause pauses events time since h =>
    refine ⟨fun _ _ => h.request_eq, ?_, h.spaced, ?_, ?_⟩
    . have hlength := h.length_eq
      dsimp only
      omega
    . intro answeredAt reply hmem hgood
      rw [h.bad hmem] at hgood
      contradiction
    . intro hdone
      contradiction
  | @asking pause pauses events time sentAt h hsent =>
    refine ⟨?_, ?_, spaced_sent h hsent h.spaced, ?_, ?_⟩
    . intro sentAt' request' hmem
      rw [List.mem_cons] at hmem
      rcases hmem with hmem | hmem
      . injection hmem
      . exact h.request_eq hmem
    . have hlength := h.length_eq
      rw [List.length_cons] at hlength
      change (sends events).length + 1 ≤ _
      omega
    . intro answeredAt reply hmem hgood
      rw [List.mem_cons] at hmem
      rcases hmem with hmem | hmem
      . contradiction
      . rw [h.bad hmem] at hgood
        contradiction
    . intro hdone
      contradiction
  | @succeeded pause pauses events time sentAt answeredAt reply h hsent hanswered hgood =>
    refine ⟨?_, ?_, spaced_answered (spaced_sent h hsent h.spaced), ?_, ?_⟩
    . intro sentAt' request' hmem
      rw [List.mem_cons, List.mem_cons] at hmem
      rcases hmem with hmem | hmem | hmem
      . contradiction
      . injection hmem
      . exact h.request_eq hmem
    . have hlength := h.length_eq
      rw [List.length_cons] at hlength
      change (sends events).length + 1 ≤ _
      omega
    . intro answeredAt' reply' hmem hgood'
      rw [List.mem_cons, List.mem_cons] at hmem
      rcases hmem with hmem | hmem | hmem
      . rw [hmem]
        exact ⟨rfl, rfl⟩
      . contradiction
      . rw [h.bad hmem] at hgood'
        contradiction
    . intro _
      exact .inl ⟨answeredAt, reply, List.mem_cons_self, hgood⟩

end Retry

end Errand
