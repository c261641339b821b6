import Koval.Conc.Pool

/-!
This module contains what each step of a program does, whatever the state and the steps before it.
-/

namespace Prog

variable {σ : Type u} {α β ε : Type v} {R R' : σ → σ → Prop}

/-- Each step of the program, from every state, is one that `R` allows. -/
def Always (R : σ → σ → Prop) (prog : Prog σ α) : Prop :=
  match prog with
  | ret _ => True
  | act effect next => ∀ s, R s (effect s) ∧ Always R (next s)

theorem always_pure (a : α) : Always R (pure a) := trivial

theorem always_atomic {f : σ → α × σ} (h : ∀ s, R s (f s).snd) : Always R (atomic f) := by
  intro s
  exact ⟨h s, trivial⟩

theorem Always.bind {prog : Prog σ α} {next : α → Prog σ β} (h : Always R prog)
    (hnext : ∀ a, Always R (next a))
    : Always R (prog >>= next) := by
  change Always R (prog.bind next)
  induction prog with
  | ret a => exact hnext a
  | act effect rest ih =>
    intro s
    exact ⟨(h s).left, ih s (h s).right⟩

theorem Always.mono {prog : Prog σ α} (h : Always R prog) (hmono : ∀ s s', R s s' → R' s s')
    : Always R' prog := by
  induction prog with
  | ret a => trivial
  | act effect rest ih =>
    intro s
    exact ⟨hmono _ _ (h s).left, ih s (h s).right⟩

theorem Always.and {prog : Prog σ α} (h : Always R prog) (h' : Always R' prog)
    : Always (fun s s' => R s s' ∧ R' s s') prog := by
  induction prog with
  | ret a => trivial
  | act effect next ih =>
    intro s
    exact ⟨⟨(h s).left, (h' s).left⟩, ih s (h s).right (h' s).right⟩

theorem Always.follows {φ : Type w} {trans : φ → σ → φ → σ → Prop} {prog : Prog σ α} {phase : φ}
    (h : Always R prog) (htrans : ∀ s s', R s s' → trans phase s phase s')
    : Follows trans (fun phase' _ => phase' = phase) prog phase := by
  induction prog with
  | ret a => rfl
  | act effect next ih =>
    intro s
    exact ⟨phase, htrans _ _ (h s).left, ih s (h s).right⟩

theorem Follows.always {final : Unit → α → Prop} {prog : Prog σ α}
    (h : Follows (fun _ s _ s' => R s s') final prog ())
    : Always R prog := by
  induction prog with
  | ret a => trivial
  | act effect next ih =>
    intro s
    rcases h s with ⟨_, hstep, hnext⟩
    exact ⟨hstep, ih s hnext⟩

-- Programs that may end early.

theorem always_throw (e : ε) : Always R (throw e : ExceptT ε (Prog σ) α).run := trivial

theorem always_atomicExcept {f : σ → Except ε α × σ} (h : ∀ s, R s (f s).snd)
    : Always R (ExceptT.mk (atomic f)).run := always_atomic h

theorem Always.liftExcept {prog : Prog σ α} (h : Always R prog)
    : Always R (ExceptT.lift prog : ExceptT ε (Prog σ) α).run := by
  apply Always.bind h
  intro _
  trivial

theorem Always.bindExcept {prog : ExceptT ε (Prog σ) α} {next : α → ExceptT ε (Prog σ) β}
    (h : Always R prog.run) (hnext : ∀ a, Always R (next a).run)
    : Always R (prog >>= next).run := by
  apply Always.bind h
  intro res
  cases res with
  | ok a => exact hnext a
  | error e => trivial

theorem Always.ends (htrans : ∀ s s' s'', R s s' → R s' s'' → R s s'')
    {rely : σ → σ → Prop} (hrely : ∀ s s', rely s s' → R s s') {prog : Prog σ α}
    (h : Always R prog) {s s' : σ} {a : α} (hends : Ends rely prog s a s')
    : R s s' := by
  induction hends with
  | ret hs => exact hrely _ _ hs
  | @act _ _ _ s' _ _ hs _ ih =>
    have ⟨hstep, hrest⟩ := h s'
    exact htrans _ _ _ (hrely _ _ hs) (htrans _ _ _ hstep (ih hrest))

end Prog

namespace Pool

variable {ℓ : Type u} {σ : Type v} {α : Type w}

def AllAlways (R : ℓ → σ → σ → Prop) (threads : List (Thread ℓ σ α)) : Prop :=
  ∀ thread ∈ threads, Prog.Always (R thread.label) thread.prog

variable {R : ℓ → σ → σ → Prop}

theorem AllAlways.spawn {pool : Pool ℓ σ α} (h : AllAlways R pool.threads) {label : ℓ}
    {prog : Prog σ α} (hprog : Prog.Always (R label) prog)
    : AllAlways R (pool.spawn label prog).threads := by
  intro thread hthread
  rw [Pool.spawn, List.mem_append, List.mem_singleton] at hthread
  rcases hthread with hthread | rfl
  . exact h thread hthread
  . exact hprog

theorem AllAlways.runThread {pool pool' : Pool ℓ σ α} (h : AllAlways R pool.threads) {i : Nat}
    (hrun : pool.runThread i = some pool')
    : ∃ thread ∈ pool.threads,
        pool.threads[i]? = some thread
          ∧
        R thread.label pool.state pool'.state
          ∧
        AllAlways R pool'.threads := by
  unfold Pool.runThread at hrun
  split at hrun
  . next label effect next hthread =>
    injection hrun with hrun
    have hmem := List.mem_of_getElem? hthread
    have ⟨hstep, hnext⟩ := h _ hmem pool.state
    rw [← hrun]
    refine ⟨_, hmem, hthread, hstep, ?_⟩
    intro thread hthread
    rcases List.mem_or_eq_of_mem_set hthread with hthread | rfl
    . exact h thread hthread
    . exact hnext
  . contradiction

end Pool
