import Koval.Conc.Prog

/-!
This module contains programs that make no difference between related states.
-/

namespace Prog

variable {σ : Type u} {α β ε : Type v} {R : σ → σ → Prop}

def Coincides (R : σ → σ → Prop) (prog : Prog σ α) : Prop :=
  ∀ s s', R s s' →
    (prog.runAlone s).fst = (prog.runAlone s').fst
      ∧
    R (prog.runAlone s).snd (prog.runAlone s').snd

theorem coincides_pure (a : α) : Coincides R (pure a) := by
  intro s s' h
  exact ⟨rfl, h⟩

theorem coincides_atomic {f : σ → α × σ}
    (h : ∀ s s', R s s' → (f s).fst = (f s').fst ∧ R (f s).snd (f s').snd)
    : Coincides R (atomic f) := h

theorem Coincides.bind {prog : Prog σ α} {next : α → Prog σ β} (h : Coincides R prog)
    (hnext : ∀ a, Coincides R (next a))
    : Coincides R (prog >>= next) := by
  intro s s' hR
  have ⟨hres, hmid⟩ := h s s' hR
  rw [runAlone_bind, runAlone_bind, ← hres]
  exact hnext _ _ _ hmid

-- Programs that may end early.

theorem coincides_throw (e : ε) : Coincides R (throw e : ExceptT ε (Prog σ) α).run :=
  coincides_pure (Except.error e)

theorem Coincides.liftExcept {prog : Prog σ α} (h : Coincides R prog)
    : Coincides R (ExceptT.lift prog : ExceptT ε (Prog σ) α).run := by
  apply Coincides.bind h
  intro a
  exact coincides_pure (Except.ok a)

theorem Coincides.bindExcept {prog : ExceptT ε (Prog σ) α} {next : α → ExceptT ε (Prog σ) β}
    (h : Coincides R prog.run) (hnext : ∀ a, Coincides R (next a).run)
    : Coincides R (prog >>= next).run := by
  apply Coincides.bind h
  intro res
  cases res with
  | ok a => exact hnext a
  | error e => exact coincides_pure (Except.error e)

end Prog
