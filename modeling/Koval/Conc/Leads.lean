import Koval.Conc.Pool

/-!
This module contains how far a thread has come with the program that it was started with, while
others change the state.
-/

namespace Prog

variable {σ : Type u} {α : Type v} {rely : σ → σ → Prop} {prog prog' : Prog σ α} {s s' s'' : σ}

/-- From a program in the first state to what is left of it in the second. -/
inductive Leads (rely : σ → σ → Prop) (prog : Prog σ α) (s : σ) : Prog σ α → σ → Prop where
  | stay {s' : σ} (hrely : rely s s') : Leads rely prog s prog s'
  | step {effect : σ → σ} {next : σ → Prog σ α} {s' s'' : σ}
    (h : Leads rely prog s (act effect next) s') (hrely : rely (effect s') s'') :
    Leads rely prog s (next s') s''

theorem Leads.wait (htrans : ∀ s s' s'', rely s s' → rely s' s'' → rely s s'')
    (h : Leads rely prog s prog' s') (hrely : rely s' s'')
    : Leads rely prog s prog' s'' := by
  cases h with
  | stay hstay => exact .stay (htrans _ _ _ hstay hrely)
  | step h hstep => exact .step h (htrans _ _ _ hstep hrely)

theorem Ends.early (htrans : ∀ s s' s'', rely s s' → rely s' s'' → rely s s'') {a : α}
    (hrely : rely s s') (h : Ends rely prog s' a s'')
    : Ends rely prog s a s'' := by
  cases h with
  | ret hret => exact .ret (htrans _ _ _ hrely hret)
  | act hact hnext => exact .act (htrans _ _ _ hrely hact) hnext

theorem Leads.ends (hrefl : ∀ s, rely s s)
    (htrans : ∀ s s' s'', rely s s' → rely s' s'' → rely s s'')
    (h : Leads rely prog s prog' s') {a : α} (hends : Ends rely prog' s' a s'')
    : Ends rely prog s a s'' := by
  induction h generalizing a s'' with
  | stay hrely => exact hends.early htrans hrely
  | step _ hrely ih => exact ih (.act (hrefl _) (hends.early htrans hrely))

theorem Leads.ends_of_isDone (hrefl : ∀ s, rely s s)
    (htrans : ∀ s s' s'', rely s s' → rely s' s'' → rely s s'') {a : α}
    (h : Leads rely prog s (ret a) s')
    : Ends rely prog s a s' :=
  h.ends hrefl htrans (.ret (hrefl s'))

end Prog

namespace Pool

variable {ℓ : Type u} {σ : Type v} {α : Type w} {rely : σ → σ → Prop} {pool pool' : Pool ℓ σ α}

theorem leads_of_runThread (hrefl : ∀ s, rely s s)
    (htrans : ∀ s s' s'', rely s s' → rely s' s'' → rely s s'') {i j : Nat}
    (hrun : pool.runThread j = some pool') (hrely : j ≠ i → rely pool.state pool'.state) {label : ℓ}
    {prog prog' : Prog σ α} {s : σ} (hthread : pool.threads[i]? = some ⟨label, prog'⟩)
    (h : prog.Leads rely s prog' pool.state)
    : ∃ prog'', pool'.threads[i]? = some ⟨label, prog''⟩ ∧ prog.Leads rely s prog'' pool'.state := by
  unfold runThread at hrun
  split at hrun
  . next label' effect next hnext =>
    injection hrun with hrun
    subst hrun
    by_cases hji : j = i
    . subst hji
      rw [hthread] at hnext
      injection hnext with hnext
      injection hnext with hlabel hprog
      subst hlabel hprog
      have hlt := (List.getElem?_eq_some_iff.mp hthread).choose
      refine ⟨next pool.state, ?_, .step h (hrefl _)⟩
      exact List.getElem?_set_self hlt
    . refine ⟨prog', ?_, h.wait htrans (hrely hji)⟩
      rw [← hthread]
      exact List.getElem?_set_ne hji
  . contradiction

def AllLead (rely : σ → σ → Prop) (starts : ℓ → Prog σ α → σ → Prop) (pool : Pool ℓ σ α) : Prop :=
  ∀ thread ∈ pool.threads,
    ∃ prog s, starts thread.label prog s ∧ prog.Leads rely s thread.prog pool.state

namespace AllLead

variable {starts : ℓ → Prog σ α → σ → Prop}

theorem spawn (hrefl : ∀ s, rely s s) (h : pool.AllLead rely starts) {label : ℓ}
    {prog : Prog σ α} (hstarts : starts label prog pool.state)
    : (pool.spawn label prog).AllLead rely starts := by
  intro thread hthread
  rw [Pool.spawn, List.mem_append, List.mem_singleton] at hthread
  rcases hthread with hthread | rfl
  . exact h thread hthread
  . exact ⟨prog, pool.state, hstarts, .stay (hrefl _)⟩

theorem change (htrans : ∀ s s' s'', rely s s' → rely s' s'' → rely s s'')
    (h : pool.AllLead rely starts) (hthreads : pool'.threads = pool.threads)
    (hrely : rely pool.state pool'.state)
    : pool'.AllLead rely starts := by
  intro thread hthread
  rw [hthreads] at hthread
  rcases h thread hthread with ⟨prog, s, hstarts, hleads⟩
  exact ⟨prog, s, hstarts, hleads.wait htrans hrely⟩

theorem runThread (hrefl : ∀ s, rely s s)
    (htrans : ∀ s s' s'', rely s s' → rely s' s'' → rely s s'') (h : pool.AllLead rely starts)
    {i : Nat} (hrun : pool.runThread i = some pool') (hrely : rely pool.state pool'.state)
    : pool'.AllLead rely starts := by
  intro thread' hthread'
  rcases List.getElem?_of_mem hthread' with ⟨j, hj⟩
  rcases exists_of_runThread hrun hj with ⟨thread, hthread, hlabel, _⟩
  rcases h thread (List.mem_of_getElem? hthread) with ⟨prog, s, hstarts, hleads⟩
  rcases leads_of_runThread hrefl htrans hrun (fun _ => hrely) hthread hleads with
    ⟨prog', hprog', hleads'⟩
  rw [hj] at hprog'
  injection hprog' with heq
  subst heq
  exact ⟨prog, s, hstarts, hleads'⟩

end AllLead

end Pool
