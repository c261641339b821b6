import Koval.Conc.Prog

/-!
This module contains triples for programs that others interfere with, and that may end early, in a
good or in a bad way.
-/

/-- How a program goes on, as far as its inputs decide it. -/
inductive Course (α : Type u) where
  | goesOn (a : α)
  | settles
  | breaks

namespace Course

variable {α β : Type u}

def bind (course : Course α) (next : α → Course β) : Course β :=
  match course with
  | goesOn a => next a
  | settles => settles
  | breaks => breaks

def ofOption (a? : Option α) : Course α :=
  match a? with
  | some a => goesOn a
  | none => settles

def ofBool (b : Bool) : Course Unit := if b then goesOn () else settles

def orBreaks (a? : Option α) : Course α :=
  match a? with
  | some a => goesOn a
  | none => breaks

theorem bind_eq_breaks_iff {course : Course α} {next : α → Course β}
    : course.bind next = breaks ↔ course = breaks ∨ ∃ a, course = goesOn a ∧ next a = breaks := by
  cases course <;> simp [bind]

theorem ofOption_ne_breaks (a? : Option α) : ofOption a? ≠ breaks := by
  cases a? <;> simp [ofOption]

theorem ofOption_eq_goesOn_iff {a? : Option α} {a : α} : ofOption a? = goesOn a ↔ a? = some a := by
  cases a? <;> simp [ofOption]

theorem ofOption_map (a? : Option α) (f : α → β)
    : ofOption (a?.map f) = (ofOption a?).bind fun a => goesOn (f a) := by
  cases a? <;> rfl

theorem ofBool_and (a b : Bool) : ofBool (a && b) = (ofBool a).bind fun _ => ofBool b := by
  cases a <;> simp [ofBool, bind]

theorem ofBool_ne_breaks (b : Bool) : ofBool b ≠ breaks := by
  cases b <;> simp [ofBool]

theorem ofBool_eq_goesOn_iff {b : Bool} {u : Unit} : ofBool b = goesOn u ↔ b = true := by
  cases b <;> simp [ofBool]

end Course

namespace Prog

variable {σ : Type u} {α β ε : Type v}

section Takes

variable (rely : σ → σ → Prop) (good bad : σ → Prop)

def EndsAs (course : Course α) (Q : σ → Prop) (res : Except ε α) (s : σ) : Prop :=
  match course with
  | .goesOn a => res = .ok a ∧ Q s
  | .settles => (∃ e, res = .error e) ∧ good s
  | .breaks => (∃ e, res = .error e) ∧ bad s

/-- From states with `P`, the program takes the course; if it goes on, then with `Q`. -/
def Takes (P : σ → Prop) (prog : ExceptT ε (Prog σ) α) (course : Course α) (Q : σ → Prop) : Prop :=
  ∀ s res s', P s → Ends rely prog.run s res s' → EndsAs good bad course Q res s'

def Stable (P : σ → Prop) : Prop := ∀ s s', P s → rely s s' → P s'

variable {rely good bad} {P Q R : σ → Prop} {course : Course α}

theorem takes_pure (hstable : Stable rely P) (a : α)
    : Takes rely good bad P (pure a : ExceptT ε (Prog σ) α) (.goesOn a) P := by
  intro s res s' hP hends
  have ⟨hres, hrely⟩ := ends_ret_iff.mp hends
  exact ⟨hres, hstable s s' hP hrely⟩

theorem takes_throw_settles (hgood : ∀ s s', P s → rely s s' → good s') (e : ε)
    : Takes rely good bad P (throw e : ExceptT ε (Prog σ) α) .settles Q := by
  intro s res s' hP hends
  have ⟨hres, hrely⟩ := ends_ret_iff.mp hends
  exact ⟨⟨e, hres⟩, hgood s s' hP hrely⟩

theorem takes_throw_breaks (hbad : ∀ s s', P s → rely s s' → bad s') (e : ε)
    : Takes rely good bad P (throw e : ExceptT ε (Prog σ) α) .breaks Q := by
  intro s res s' hP hends
  have ⟨hres, hrely⟩ := ends_ret_iff.mp hends
  exact ⟨⟨e, hres⟩, hbad s s' hP hrely⟩

theorem Ends.of_bindExcept (hrefl : ∀ s, rely s s) {prog : ExceptT ε (Prog σ) α}
    {next : α → ExceptT ε (Prog σ) β} {s s'' : σ} {res : Except ε β}
    (h : Ends rely (prog >>= next).run s res s'')
    : (∃ a s', Ends rely prog.run s (.ok a) s' ∧ Ends rely (next a).run s' res s'')
        ∨
      (∃ e s', Ends rely prog.run s (.error e) s' ∧ res = .error e ∧ rely s' s'') := by
  rcases Ends.of_bind hrefl h with ⟨mid, s', hprog, hnext⟩
  cases mid with
  | ok a => exact .inl ⟨a, s', hprog, hnext⟩
  | error e =>
    have ⟨hres, hrely⟩ := ends_ret_iff.mp hnext
    exact .inr ⟨e, s', hprog, hres, hrely⟩

theorem Takes.bind (hrefl : ∀ s, rely s s) (hgood : Stable rely good) (hbad : Stable rely bad)
    {prog : ExceptT ε (Prog σ) α} {next : α → ExceptT ε (Prog σ) β} {rest : α → Course β}
    (h : Takes rely good bad P prog course Q)
    (hnext : ∀ a, course = .goesOn a → Takes rely good bad Q (next a) (rest a) R)
    : Takes rely good bad P (prog >>= next) (course.bind rest) R := by
  intro s res s'' hP hends
  rcases hends.of_bindExcept hrefl with ⟨a, s', hprog, hrest⟩ | ⟨e, s', hprog, hres, hrely⟩
  . have hmid := h s _ s' hP hprog
    cases course with
    | goesOn b =>
      have ⟨heq, hQ⟩ := hmid
      injection heq with heq
      rw [heq] at hrest
      exact hnext b rfl s' res s'' hQ hrest
    | settles =>
      have ⟨_, heq⟩ := hmid.left
      contradiction
    | breaks =>
      have ⟨_, heq⟩ := hmid.left
      contradiction
  . have hmid := h s _ s' hP hprog
    cases course with
    | goesOn b =>
      have heq := hmid.left
      contradiction
    | settles => exact ⟨⟨e, hres⟩, hgood s' s'' hmid.right hrely⟩
    | breaks => exact ⟨⟨e, hres⟩, hbad s' s'' hmid.right hrely⟩

theorem takes_atomic_bind (hrefl : ∀ s, rely s s) (hP : Stable rely P) (hQ : Stable rely Q)
    {f : σ → α × σ} (hf : ∀ s, P s → Q (f s).snd) {next : α → ExceptT ε (Prog σ) β}
    {rest : Course β}
    (hnext : ∀ s, P s → Takes rely good bad Q (next (f s).fst) rest R)
    : Takes rely good bad P (ExceptT.lift (atomic f) >>= next) rest R := by
  intro s res s'' hs hends
  rcases Ends.of_bind hrefl hends with ⟨mid, s', hprog, hrest⟩
  rcases Ends.of_bind hrefl hprog with ⟨a, s₁, hatomic, hpure⟩
  have ⟨hmid, hrely⟩ := ends_ret_iff.mp hpure
  rcases hatomic.of_atomic with ⟨s₂, hrely₂, ha, hrely₁⟩
  have hs₂ := hP s s₂ hs hrely₂
  rw [hmid, ha] at hrest
  exact hnext s₂ hs₂ s' res s'' (hQ _ _ (hQ _ _ (hf s₂ hs₂) hrely₁) hrely) hrest

theorem takes_atomicExcept (hgood : Stable rely good) (hbad : Stable rely bad)
    (hP : Stable rely P) (hQ : Stable rely Q) {f : σ → Except ε α × σ}
    (hf : ∀ s, P s → EndsAs good bad course Q (f s).fst (f s).snd)
    : Takes rely good bad P (ExceptT.mk (atomic f)) course Q := by
  intro s res s' hs hends
  rcases hends.of_atomic with ⟨s₁, hrely₁, hres, hrely⟩
  have hmid := hf s₁ (hP s s₁ hs hrely₁)
  rw [← hres] at hmid
  cases course with
  | goesOn a => exact ⟨hmid.left, hQ _ s' hmid.right hrely⟩
  | settles => exact ⟨hmid.left, hgood _ s' hmid.right hrely⟩
  | breaks => exact ⟨hmid.left, hbad _ s' hmid.right hrely⟩

theorem takes_atomic (hrefl : ∀ s, rely s s) (hP : Stable rely P) (hQ : Stable rely Q)
    {f : σ → α × σ} {a : α} (hf : ∀ s, P s → (f s).fst = a ∧ Q (f s).snd)
    : Takes rely good bad P (ExceptT.lift (atomic f) : ExceptT ε (Prog σ) α) (.goesOn a) Q := by
  intro s res s' hs hends
  rcases Ends.of_bind hrefl hends with ⟨b, s₁, hatomic, hpure⟩
  have ⟨hres, hrely⟩ := ends_ret_iff.mp hpure
  rcases hatomic.of_atomic with ⟨s₂, hrely₂, hb, hrely₁⟩
  have ⟨hfst, hsnd⟩ := hf s₂ (hP s s₂ hs hrely₂)
  rw [hb, hfst] at hres
  exact ⟨hres, hQ _ _ (hQ _ _ hsnd hrely₁) hrely⟩

theorem Takes.weaken {P' Q' : σ → Prop} {prog : ExceptT ε (Prog σ) α}
    (h : Takes rely good bad P prog course Q) (hP : ∀ s, P' s → P s) (hQ : ∀ s, Q s → Q' s)
    : Takes rely good bad P' prog course Q' := by
  intro s res s' hs hends
  have hmid := h s res s' (hP s hs) hends
  cases course with
  | goesOn a => exact ⟨hmid.left, hQ s' hmid.right⟩
  | settles => exact hmid
  | breaks => exact hmid

end Takes

theorem Ends.of_liftAtomic {rely : σ → σ → Prop} (hrefl : ∀ s, rely s s) {f : σ → α × σ} {s s' : σ}
    {res : Except ε α}
    (h : Ends rely (ExceptT.lift (atomic f) : ExceptT ε (Prog σ) α).run s res s')
    : ∃ s₁ s₂, rely s s₁ ∧ res = .ok (f s₁).fst ∧ rely (f s₁).snd s₂ ∧ rely s₂ s' := by
  rcases Ends.of_bind hrefl h with ⟨a, s₂, hatomic, hpure⟩
  have ⟨hres, hrely⟩ := ends_ret_iff.mp hpure
  rcases hatomic.of_atomic with ⟨s₁, hrely₁, ha, hrely₂⟩
  rw [ha] at hres
  exact ⟨s₁, s₂, hrely₁, hres, hrely₂, hrely⟩

/-- Whatever others do, the program ends early. -/
def Fails (rely : σ → σ → Prop) (prog : ExceptT ε (Prog σ) α) : Prop :=
  ∀ s res s', Ends rely prog.run s res s' → ∃ e, res = .error e

theorem fails_throw {rely : σ → σ → Prop} (e : ε)
    : Fails rely (throw e : ExceptT ε (Prog σ) α) := by
  intro s res s' hends
  exact ⟨e, (ends_ret_iff.mp hends).left⟩

theorem fails_bind {rely : σ → σ → Prop} (hrefl : ∀ s, rely s s) {prog : ExceptT ε (Prog σ) α}
    {next : α → ExceptT ε (Prog σ) β} (hnext : ∀ a, Fails rely (next a))
    : Fails rely (prog >>= next) := by
  intro s res s' hends
  rcases hends.of_bindExcept hrefl with ⟨a, mid, _, hrest⟩ | ⟨e, mid, _, hres, _⟩
  . exact hnext a mid res s' hrest
  . exact ⟨e, hres⟩

end Prog
