import Mathlib.Logic.Basic

/-!
This module contains sequential programs over a shared state. A program is a tree of atomic steps,
between two of which others may change the state.
-/

inductive Prog (σ : Type u) (α : Type v) where
  | ret (a : α)
  | act (effect : σ → σ) (next : σ → Prog σ α)

namespace Prog

variable {σ : Type u} {α β ε : Type v} {φ : Type w}

def bind (prog : Prog σ α) (next : α → Prog σ β) : Prog σ β :=
  match prog with
  | ret a => next a
  | act effect rest => act effect fun s => bind (rest s) next

instance : Monad (Prog σ) where
  pure := ret
  bind := bind

theorem bind_ret (prog : Prog σ α) : prog.bind ret = prog := by
  induction prog with
  | ret a => rfl
  | act effect next ih =>
    apply congrArg (act effect)
    funext s
    exact ih s

theorem bind_bind {γ : Type v} (prog : Prog σ α) (f : α → Prog σ β) (g : β → Prog σ γ)
    : (prog.bind f).bind g = prog.bind fun a => (f a).bind g := by
  induction prog with
  | ret a => rfl
  | act effect next ih =>
    apply congrArg (act effect)
    funext s
    exact ih s

instance : LawfulMonad (Prog σ) := LawfulMonad.mk' (Prog σ) bind_ret (fun _ _ => rfl) bind_bind

def atomic (f : σ → α × σ) : Prog σ α := act (fun s => (f s).snd) (fun s => ret (f s).fst)

def isDone (prog : Prog σ α) : Bool :=
  match prog with
  | ret _ => true
  | act .. => false

/--
From every state, each step of the program is a transition of a phase that `trans` allows, and what
the program returns agrees with the phase that it ends in.
-/
def Follows (trans : φ → σ → φ → σ → Prop) (final : φ → α → Prop) (prog : Prog σ α) (phase : φ) :
    Prop :=
  match prog with
  | ret a => final phase a
  | act effect next =>
    ∀ s, ∃ phase', trans phase s phase' (effect s) ∧ Follows trans final (next s) phase'

section Follows

variable {trans : φ → σ → φ → σ → Prop}

theorem Follows.bind {m : φ → α → Prop} {final : φ → β → Prop} {prog : Prog σ α}
    {next : α → Prog σ β} {phase : φ} (h : Follows trans m prog phase)
    (hnext : ∀ a phase, m phase a → Follows trans final (next a) phase)
    : Follows trans final (prog >>= next) phase := by
  change Follows trans final (prog.bind next) phase
  induction prog generalizing phase with
  | ret a => exact hnext a phase h
  | act effect rest ih =>
    intro s
    rcases h s with ⟨phase', htrans, hrest⟩
    exact ⟨phase', htrans, ih s hrest⟩

theorem Follows.weaken {final final' : φ → α → Prop} {prog : Prog σ α} {phase : φ}
    (h : Follows trans final prog phase) (hfinal : ∀ phase a, final phase a → final' phase a)
    : Follows trans final' prog phase := by
  induction prog generalizing phase with
  | ret a => exact hfinal phase a h
  | act effect rest ih =>
    intro s
    rcases h s with ⟨phase', htrans, hrest⟩
    exact ⟨phase', htrans, ih s hrest⟩

theorem follows_pure {final : φ → α → Prop} {a : α} {phase : φ} (h : final phase a)
    : Follows trans final (pure a) phase := h

theorem follows_atomic {final : φ → α → Prop} {f : σ → α × σ} {phase : φ}
    (h : ∀ s, ∃ phase', trans phase s phase' (f s).snd ∧ final phase' (f s).fst)
    : Follows trans final (atomic f) phase := h

theorem follows_of_exists {P : φ → Prop}
    (htrans : ∀ phase s s', P phase → ∃ phase', trans phase s phase' s' ∧ P phase')
    (prog : Prog σ α) {phase : φ} (h : P phase)
    : Follows trans (fun phase' _ => P phase') prog phase := by
  induction prog generalizing phase with
  | ret a => exact h
  | act effect next ih =>
    intro s
    rcases htrans phase s (effect s) h with ⟨phase', hstep, h'⟩
    exact ⟨phase', hstep, ih s h'⟩

theorem follows_of_forall {final : φ → α → Prop} {phase : φ}
    (htrans : ∀ s s', trans phase s phase s') (hfinal : ∀ a, final phase a) (prog : Prog σ α)
    : Follows trans final prog phase := by
  have h : Follows trans (fun phase' _ => phase' = phase) prog phase := by
    apply follows_of_exists (P := fun phase' => phase' = phase) _ prog rfl
    intro phase' s s' heq
    rw [heq]
    exact ⟨phase, htrans s s', rfl⟩
  apply h.weaken
  rintro _ a rfl
  exact hfinal a

-- Programs that may end early, with an `ε`.

/-- What a program must end with so that `next`, which starts with `mid`, ends with `final`. -/
def Until (mid : φ → α → Prop) (early : φ → ε → Prop) (phase : φ) (res : Except ε α) : Prop :=
  match res with
  | .ok a => mid phase a
  | .error e => early phase e

theorem Follows.bindExcept {m : φ → α → Prop} {early : φ → ε → Prop} {final : φ → β → Prop}
    {prog : ExceptT ε (Prog σ) α} {next : α → ExceptT ε (Prog σ) β} {phase : φ}
    (h : Follows trans (Until m early) prog.run phase)
    (hnext : ∀ a phase, m phase a → Follows trans (Until final early) (next a).run phase)
    : Follows trans (Until final early) (prog >>= next).run phase := by
  apply Follows.bind h
  intro res phase hres
  cases res with
  | ok a => exact hnext a phase hres
  | error e => exact hres

theorem Follows.liftExcept {mid : φ → α → Prop} {early : φ → ε → Prop} {prog : Prog σ α} {phase : φ}
    (h : Follows trans mid prog phase)
    : Follows trans (Until mid early) (ExceptT.lift prog).run phase := by
  apply Follows.bind h
  intro a phase ha
  exact ha

theorem Follows.untilKeeps {R : φ → Prop}
    (htrans : ∀ phase s phase' s', trans phase s phase' s' → R phase → R phase')
    {mid : φ → α → Prop} {early : φ → ε → Prop} {prog : ExceptT ε (Prog σ) α} {phase : φ}
    (h : Follows trans (Until mid early) prog.run phase) (hphase : R phase)
    : Follows trans (Until mid fun phase' _ => R phase') prog.run phase := by
  generalize prog.run = prog at h ⊢
  induction prog generalizing phase with
  | ret res =>
    cases res with
    | ok a => exact h
    | error e => exact hphase
  | act effect next ih =>
    intro s
    rcases h s with ⟨phase', hstep, hrest⟩
    exact ⟨phase', hstep, ih s (htrans _ _ _ _ hstep hphase) hrest⟩

end Follows

/-- What a program can return and leave when others change the state as `rely` says. -/
inductive Ends (rely : σ → σ → Prop) : Prog σ α → σ → α → σ → Prop where
  | ret {a : α} {s s' : σ} (hrely : rely s s') : Ends rely (ret a) s a s'
  | act {effect : σ → σ} {next : σ → Prog σ α} {s s' s'' : σ} {a : α} (hrely : rely s s')
    (hnext : Ends rely (next s') (effect s') a s'') : Ends rely (act effect next) s a s''

section Ends

variable {rely : σ → σ → Prop}

theorem ends_ret_iff {a b : α} {s s' : σ} : Ends rely (ret a) s b s' ↔ b = a ∧ rely s s' := by
  constructor
  . intro h
    cases h with
    | ret hrely => exact ⟨rfl, hrely⟩
  . rintro ⟨rfl, hrely⟩
    exact .ret hrely

def runAlone (prog : Prog σ α) (s : σ) : α × σ :=
  match prog with
  | ret a => (a, s)
  | act effect next => (next s).runAlone (effect s)

theorem runAlone_bind (prog : Prog σ α) (next : α → Prog σ β) (s : σ)
    : (prog >>= next).runAlone s = (next (prog.runAlone s).fst).runAlone (prog.runAlone s).snd := by
  change (prog.bind next).runAlone s = _
  induction prog generalizing s with
  | ret a => rfl
  | act effect rest ih => exact ih s (effect s)

theorem runAlone_bindExcept (prog : ExceptT ε (Prog σ) α) (next : α → ExceptT ε (Prog σ) β) (s : σ)
    : (prog >>= next).run.runAlone s
        =
      match prog.run.runAlone s with
      | (.ok a, s') => (next a).run.runAlone s'
      | (.error e, s') => (.error e, s') := by
  apply (runAlone_bind _ _ s).trans
  cases hrun : prog.run.runAlone s with
  | mk res s' =>
    have hrun : runAlone prog s = (res, s') := hrun
    rw [hrun]
    cases res <;> rfl

theorem ends_runAlone (hrefl : ∀ s, rely s s) (prog : Prog σ α) (s : σ)
    : Ends rely prog s (prog.runAlone s).fst (prog.runAlone s).snd := by
  induction prog generalizing s with
  | ret a => exact .ret (hrefl s)
  | act effect next ih => exact .act (hrefl s) (ih s (effect s))

theorem Ends.of_bind (hrefl : ∀ s, rely s s) {prog : Prog σ α} {next : α → Prog σ β} {s s'' : σ}
    {b : β} (h : Ends rely (prog >>= next) s b s'')
    : ∃ a s', Ends rely prog s a s' ∧ Ends rely (next a) s' b s'' := by
  change Ends rely (prog.bind next) s b s'' at h
  induction prog generalizing s with
  | ret a => exact ⟨a, s, .ret (hrefl s), h⟩
  | act effect rest ih =>
    cases h with
    | act hrely hnext =>
      rcases ih _ hnext with ⟨a, s', hrest, hb⟩
      exact ⟨a, s', .act hrely hrest, hb⟩

theorem Ends.of_atomic {f : σ → α × σ} {s s'' : σ} {a : α} (h : Ends rely (atomic f) s a s'')
    : ∃ s', rely s s' ∧ a = (f s').fst ∧ rely (f s').snd s'' := by
  cases h with
  | act hrely hnext =>
    rw [ends_ret_iff] at hnext
    exact ⟨_, hrely, hnext⟩

end Ends

end Prog
