import Koval.Conc.Prog

/-!
This module contains the comparison of two programs that take the same steps.
-/

namespace Prog

variable {σ : Type u} {α α' β β' ε : Type v} {R : α → α' → Prop} {Q : β → β' → Prop}

/-- From every state the programs take the same steps, and what they return is related. -/
def Matches (R : α → α' → Prop) (prog : Prog σ α) (prog' : Prog σ α') : Prop :=
  match prog, prog' with
  | ret a, ret a' => R a a'
  | act effect next, act effect' next' => effect = effect' ∧ ∀ s, Matches R (next s) (next' s)
  | _, _ => False

theorem matches_pure {a : α} {a' : α'} (h : R a a')
    : Matches R (pure a : Prog σ α) (pure a' : Prog σ α') := h

theorem matches_self (prog : Prog σ α) : Matches (fun a a' => a = a') prog prog := by
  induction prog with
  | ret a => rfl
  | act effect next ih => exact ⟨rfl, ih⟩

theorem Matches.bind {prog : Prog σ α} {prog' : Prog σ α'} {next : α → Prog σ β}
    {next' : α' → Prog σ β'} (h : Matches R prog prog')
    (hnext : ∀ a a', R a a' → Matches Q (next a) (next' a'))
    : Matches Q (prog >>= next) (prog' >>= next') := by
  change Matches Q (prog.bind next) (prog'.bind next')
  induction prog generalizing prog' with
  | ret a =>
    cases prog' with
    | ret a' => exact hnext a a' h
    | act => exact absurd h id
  | act effect rest ih =>
    cases prog' with
    | ret => exact absurd h id
    | act effect' rest' =>
      refine ⟨h.left, ?_⟩
      intro s
      exact ih s (h.right s)

theorem Matches.runAlone {prog : Prog σ α} {prog' : Prog σ α'} (h : Matches R prog prog') (s : σ)
    : R (prog.runAlone s).fst (prog'.runAlone s).fst
        ∧ (prog.runAlone s).snd = (prog'.runAlone s).snd := by
  induction prog generalizing prog' s with
  | ret a =>
    cases prog' with
    | ret a' => exact ⟨h, rfl⟩
    | act => exact absurd h id
  | act effect rest ih =>
    cases prog' with
    | ret => exact absurd h id
    | act effect' rest' =>
      rcases h with ⟨rfl, hnext⟩
      exact ih s (hnext s) (effect s)

variable {E : ε → ε → Prop}

def Both (E : ε → ε → Prop) (R : α → α' → Prop) (res : Except ε α) (res' : Except ε α') : Prop :=
  match res, res' with
  | .ok a, .ok a' => R a a'
  | .error e, .error e' => E e e'
  | _, _ => False

theorem Matches.bindExcept {prog : ExceptT ε (Prog σ) α} {prog' : ExceptT ε (Prog σ) α'}
    {next : α → ExceptT ε (Prog σ) β} {next' : α' → ExceptT ε (Prog σ) β'}
    (h : Matches (Both E R) prog.run prog'.run)
    (hnext : ∀ a a', R a a' → Matches (Both E Q) (next a).run (next' a').run)
    : Matches (Both E Q) (prog >>= next).run (prog' >>= next').run := by
  apply Matches.bind h
  intro res res' hres
  cases res with
  | ok a =>
    cases res' with
    | ok a' => exact hnext a a' hres
    | error e' => exact absurd hres id
  | error e =>
    cases res' with
    | ok a' => exact absurd hres id
    | error e' => exact hres

theorem Matches.liftExcept {prog : Prog σ α} {prog' : Prog σ α'} (h : Matches R prog prog')
    : Matches (Both E R) (ExceptT.lift prog).run (ExceptT.lift prog').run := by
  apply Matches.bind h
  intro a a' hR
  exact hR

end Prog
