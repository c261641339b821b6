import Koval.Server.Worker.RunCargoBuild

namespace Koval
namespace runCargoBuild

variable {capacity : Nat}

theorem bytesOf_cons (stream stream' : Stream) (b : UInt8) (writes : List (Stream × UInt8))
    : bytesOf stream ((stream', b) :: writes)
        =
      if stream' = stream then b :: bytesOf stream writes else bytesOf stream writes := by
  unfold bytesOf
  rw [List.filterMap_cons]
  split <;> simp_all

def Child.output (child : Child) : Output :=
  ⟨child.status, bytesOf .stdout child.writes, bytesOf .stderr child.writes⟩

def Inv (child : Child) (state : State capacity) : Prop :=
  match state.parent with
  | .waiting =>
    (state.exited = none ∨ (state.exited = some child.status ∧ state.pending = []))
      ∧ state.stdout.content ++ bytesOf .stdout state.pending = bytesOf .stdout child.writes
      ∧ state.stderr.content ++ bytesOf .stderr state.pending = bytesOf .stderr child.writes
  | .readingStdout status stdoutBuf =>
    state.exited = some child.status ∧ status = child.status
      ∧ stdoutBuf ++ state.stdout.content = bytesOf .stdout child.writes
      ∧ state.stderr.content = bytesOf .stderr child.writes
  | .readingStderr status stdoutBuf stderrBuf =>
    state.exited = some child.status ∧ status = child.status
      ∧ stdoutBuf = bytesOf .stdout child.writes
      ∧ stderrBuf ++ state.stderr.content = bytesOf .stderr child.writes
  | .killing => True
  | .finished (.ok output) => state.exited = some child.status ∧ output = child.output
  | .finished (.error _) => True

theorem inv_init (child : Child) : Inv child (init child : State capacity) := by
  refine ⟨Or.inl rfl, ?_, ?_⟩ <;> rfl

inductive Stepped (child : Child) (state : State capacity) : Action → State capacity → Prop where
  | writeStdout (b : UInt8) (pending : List (Stream × UInt8)) (stdout : Pipe UInt8 capacity)
    (hexited : state.exited = none) (hpending : state.pending = (.stdout, b) :: pending)
    (hcontent : stdout.content = state.stdout.content ++ [b])
    : Stepped child state .write { state with pending, stdout }
  | writeStderr (b : UInt8) (pending : List (Stream × UInt8)) (stderr : Pipe UInt8 capacity)
    (hexited : state.exited = none) (hpending : state.pending = (.stderr, b) :: pending)
    (hcontent : stderr.content = state.stderr.content ++ [b])
    : Stepped child state .write { state with pending, stderr }
  | exit (hexited : state.exited = none) (hpending : state.pending = [])
    : Stepped child state .exit { state with exited := some child.status }
  | waitReturns (status : ExitStatus) (hexited : state.exited = some status)
    (hparent : state.parent = .waiting)
    : Stepped child state .waitReturns { state with parent := .readingStdout status [] }
  | readStdout (n : Nat) (status : ExitStatus) (stdoutBuf : Bytes)
    (hparent : state.parent = .readingStdout status stdoutBuf)
    (hcontent : 0 < state.stdout.content.length) (hn : 0 < n)
    : Stepped child state (.read n) { state with
        stdout := state.stdout.drop n
        parent := .readingStdout status (stdoutBuf ++ state.stdout.content.take n) }
  | readStderr (n : Nat) (status : ExitStatus) (stdoutBuf stderrBuf : Bytes)
    (hparent : state.parent = .readingStderr status stdoutBuf stderrBuf)
    (hcontent : 0 < state.stderr.content.length) (hn : 0 < n)
    : Stepped child state (.read n) { state with
        stderr := state.stderr.drop n
        parent := .readingStderr status stdoutBuf (stderrBuf ++ state.stderr.content.take n) }
  | endOfStdout (status : ExitStatus) (stdoutBuf : Bytes)
    (hparent : state.parent = .readingStdout status stdoutBuf) (hempty : state.stdout.content = [])
    : Stepped child state .endOfFile { state with parent := .readingStderr status stdoutBuf [] }
  | endOfStderr (status : ExitStatus) (stdoutBuf stderrBuf : Bytes)
    (hparent : state.parent = .readingStderr status stdoutBuf stderrBuf)
    (hempty : state.stderr.content = [])
    : Stepped child state .endOfFile
        { state with parent := .finished (.ok ⟨status, stdoutBuf, stderrBuf⟩) }
  | timeout (hparent : state.parent = .waiting)
    : Stepped child state .timeout { state with parent := .killing }
  | kill (hparent : state.parent = .killing)
    : Stepped child state .kill { state with
        exited := state.exited <|> some (.signal 9)
        parent := .finished (.error (.timedOut "Cargo compilation timed out")) }

theorem stepped_of_step {child : Child} {action : Action} {state state' : State capacity}
    (h : step child action state = some state')
    : Stepped child state action state' := by
  cases action with
  | write =>
    simp only [step, writeStep] at h
    split at h
    . next b pending hexited hpending =>
      rw [Option.map_eq_some_iff] at h
      rcases h with ⟨stdout, hwrite, rfl⟩
      exact .writeStdout b pending stdout hexited hpending (Pipe.content_of_write? hwrite)
    . next b pending hexited hpending =>
      rw [Option.map_eq_some_iff] at h
      rcases h with ⟨stderr, hwrite, rfl⟩
      exact .writeStderr b pending stderr hexited hpending (Pipe.content_of_write? hwrite)
    . contradiction
  | exit =>
    simp only [step, exitStep] at h
    split at h
    . next hexited hpending =>
      injection h with h
      rw [← h]
      exact .exit hexited hpending
    . contradiction
  | waitReturns =>
    simp only [step] at h
    split at h
    . next status hparent hexited =>
      injection h with h
      rw [← h]
      exact .waitReturns status hexited hparent
    . contradiction
  | read n =>
    simp only [step, readStep] at h
    split at h
    . next status stdoutBuf hparent =>
      split at h
      . contradiction
      . next hread =>
        injection h with h
        rw [← h]
        exact .readStdout n status stdoutBuf hparent
          (List.length_pos_of_ne_nil (not_or.mp hread).left) (Nat.pos_of_ne_zero (not_or.mp hread).right)
    . next status stdoutBuf stderrBuf hparent =>
      split at h
      . contradiction
      . next hread =>
        injection h with h
        rw [← h]
        exact .readStderr n status stdoutBuf stderrBuf hparent
          (List.length_pos_of_ne_nil (not_or.mp hread).left) (Nat.pos_of_ne_zero (not_or.mp hread).right)
    . contradiction
  | endOfFile =>
    simp only [step, endOfFileStep] at h
    split at h
    . next status stdoutBuf _ hparent _ =>
      split at h
      . next hempty =>
        injection h with h
        rw [← h]
        exact .endOfStdout status stdoutBuf hparent hempty
      . contradiction
    . next status stdoutBuf stderrBuf _ hparent _ =>
      split at h
      . next hempty =>
        injection h with h
        rw [← h]
        exact .endOfStderr status stdoutBuf stderrBuf hparent hempty
      . contradiction
    . contradiction
  | timeout =>
    simp only [step] at h
    split at h
    . next hparent =>
      injection h with h
      rw [← h]
      exact .timeout hparent
    . contradiction
  | kill =>
    simp only [step] at h
    split at h
    . next hparent =>
      injection h with h
      rw [← h]
      exact .kill hparent
    . contradiction

theorem inv_step {child : Child} (action : Action) (state state' : State capacity)
    (h : Inv child state) (hstep : step child action state = some state')
    : Inv child state' := by
  cases stepped_of_step hstep with
  | writeStdout b pending stdout hexited hpending hcontent =>
    unfold Inv at *
    cases hparent : state.parent <;> simp_all [bytesOf_cons]
  | writeStderr b pending stderr hexited hpending hcontent =>
    unfold Inv at *
    cases hparent : state.parent <;> simp_all [bytesOf_cons]
  | exit hexited hpending =>
    unfold Inv at *
    cases hparent : state.parent with
    | finished result => cases result <;> simp_all
    | _ => simp_all
  | waitReturns status hexited hparent =>
    simp only [Inv, hparent, hexited] at h
    rcases h with ⟨hexit, hstdout, hstderr⟩
    cases hexit with
    | inl hexit => contradiction
    | inr hexit =>
      injection hexit.left with hstatus
      rw [hexit.right] at hstdout hstderr
      simp only [bytesOf, List.filterMap_nil, List.append_nil] at hstdout hstderr
      rw [hstatus] at hexited ⊢
      exact ⟨hexited, rfl, hstdout, hstderr⟩
  | readStdout n status stdoutBuf hparent _ _ =>
    simp only [Inv, hparent] at h
    simp only [Inv, Pipe.drop, List.append_assoc, List.take_append_drop]
    exact h
  | readStderr n status stdoutBuf stderrBuf hparent _ _ =>
    simp only [Inv, hparent] at h
    simp only [Inv, Pipe.drop, List.append_assoc, List.take_append_drop]
    exact h
  | endOfStdout status stdoutBuf hparent hempty =>
    simp only [Inv, hparent, hempty, List.append_nil] at h
    simpa only [Inv, List.nil_append] using h
  | endOfStderr status stdoutBuf stderrBuf hparent hempty =>
    simp only [Inv, hparent, hempty, List.append_nil] at h
    simp [Inv, Child.output, h]
  | timeout hparent => trivial
  | kill hparent => trivial

theorem inv_run {child : Child} {actions : List Action} {state : State capacity}
    (h : run child actions = some state)
    : Inv child state :=
  Machine.invariant_of_run (fun action _ => inv_step action) (inv_init child) h

def Running (state : State capacity) : Prop :=
  state.parent ≠ .killing ∧ ∀ err, state.parent ≠ .finished (.error err)

theorem running_step {child : Child} {action : Action} (haction : action ≠ .timeout)
    {state state' : State capacity} (h : Running state) (hstep : step child action state = some state')
    : Running state' := by
  unfold Running at *
  cases stepped_of_step hstep with
  | timeout => contradiction
  | kill hparent => exact absurd hparent h.left
  | writeStdout => exact h
  | writeStderr => exact h
  | exit => exact h
  | _ => simp

theorem running_run {child : Child} {actions : List Action} {state : State capacity}
    (hactions : .timeout ∉ actions) (h : run child actions = some state)
    : Running state := by
  apply Machine.invariant_of_run _ _ h
  . intro action haction state state' hrunning hstep
    apply running_step _ hrunning hstep
    intro heq
    rw [heq] at haction
    contradiction
  . unfold Running init
    simp

def rank (parent : Parent) : Nat :=
  match parent with
  | .waiting => 4
  | .readingStdout .. => 3
  | .readingStderr .. => 2
  | .killing => 1
  | .finished _ => 0

-- A write fills a pipe by less than it takes from what is pending.
def measure (state : State capacity) : Nat :=
  2 * state.pending.length + state.stdout.content.length + state.stderr.content.length
    + (if state.exited = none then 1 else 0) + rank state.parent

theorem measure_step {child : Child} {action : Action} {state state' : State capacity}
    (hstep : step child action state = some state')
    : measure state' < measure state := by
  unfold measure
  cases stepped_of_step hstep with
  | writeStdout b pending stdout hexited hpending hcontent =>
    rw [hcontent, hpending]
    simp only [List.length_append, List.length_cons, List.length_nil]
    omega
  | writeStderr b pending stderr hexited hpending hcontent =>
    rw [hcontent, hpending]
    simp only [List.length_append, List.length_cons, List.length_nil]
    omega
  | exit hexited hpending =>
    rw [hexited]
    simp
  | readStdout n status stdoutBuf hparent hcontent hn =>
    rw [hparent]
    simp only [Pipe.drop, List.length_drop, rank]
    omega
  | readStderr n status stdoutBuf stderrBuf hparent hcontent hn =>
    rw [hparent]
    simp only [Pipe.drop, List.length_drop, rank]
    omega
  | kill hparent =>
    rw [hparent]
    cases state.exited with
    | none =>
      have hsome : (none <|> some (ExitStatus.signal 9)) ≠ none := Option.some_ne_none _
      rw [if_neg hsome, if_pos rfl]
      simp only [rank]
      omega
    | some => simp [rank]
  | waitReturns status hexited hparent =>
    rw [hparent]
    simp [rank]
  | endOfStdout status stdoutBuf hparent =>
    rw [hparent]
    simp [rank]
  | endOfStderr status stdoutBuf stderrBuf hparent =>
    rw [hparent]
    simp [rank]
  | timeout hparent =>
    rw [hparent]
    simp [rank]

-- Both outputs, as far as the child will write them, go into their pipes.
def Fits (capacity : Nat) (child : Child) : Prop :=
  (bytesOf .stdout child.writes).length ≤ capacity
    ∧ (bytesOf .stderr child.writes).length ≤ capacity

theorem exists_child_step {child : Child} (hfits : Fits capacity child) {state : State capacity}
    (hinv : Inv child state) (hparent : state.parent = .waiting) (hexited : state.exited = none)
    : ∃ action, action ≠ .timeout ∧ (step child action state).isSome := by
  simp only [Inv, hparent] at hinv
  rcases hinv with ⟨_, hstdout, hstderr⟩
  have hstdout := congrArg List.length hstdout
  have hstderr := congrArg List.length hstderr
  rw [List.length_append] at hstdout hstderr
  cases hpending : state.pending with
  | nil =>
    refine ⟨.exit, by simp, ?_⟩
    simp [step, exitStep, hexited, hpending]
  | cons write pending =>
    refine ⟨.write, by simp, ?_⟩
    rw [hpending] at hstdout hstderr
    rcases write with ⟨stream, b⟩
    cases stream with
    | stdout =>
      rw [bytesOf_cons, if_pos rfl, List.length_cons] at hstdout
      have hlt : state.stdout.content.length < capacity := by
        have := hfits.left
        omega
      simp [step, writeStep, hexited, hpending, Pipe.write?_isSome_iff, hlt]
    | stderr =>
      rw [bytesOf_cons, if_pos rfl, List.length_cons] at hstderr
      have hlt : state.stderr.content.length < capacity := by
        have := hfits.right
        omega
      simp [step, writeStep, hexited, hpending, Pipe.write?_isSome_iff, hlt]

theorem exists_parent_step {child : Child} {state : State capacity} (hrunning : Running state)
    {status : ExitStatus} (hexited : state.exited = some status)
    (hfinished : ∀ output, state.parent ≠ .finished (.ok output))
    : ∃ action, action ≠ .timeout ∧ (step child action state).isSome := by
  cases hparent : state.parent with
  | waiting =>
    refine ⟨.waitReturns, by simp, ?_⟩
    simp [step, hparent, hexited]
  | readingStdout status stdoutBuf =>
    by_cases hempty : state.stdout.content = []
    . refine ⟨.endOfFile, by simp, ?_⟩
      simp [step, endOfFileStep, hparent, hexited, hempty]
    . refine ⟨.read 1, by simp, ?_⟩
      simp [step, readStep, hparent, hempty]
  | readingStderr status stdoutBuf stderrBuf =>
    by_cases hempty : state.stderr.content = []
    . refine ⟨.endOfFile, by simp, ?_⟩
      simp [step, endOfFileStep, hparent, hexited, hempty]
    . refine ⟨.read 1, by simp, ?_⟩
      simp [step, readStep, hparent, hempty]
  | killing => exact absurd hparent hrunning.left
  | finished result =>
    cases result with
    | ok output => exact absurd hparent (hfinished output)
    | error err => exact absurd hparent (hrunning.right err)

theorem parent_of_not_exited {child : Child} {state : State capacity} (hinv : Inv child state)
    (hrunning : Running state) (hexited : state.exited = none)
    : state.parent = .waiting := by
  cases hparent : state.parent with
  | waiting => rfl
  | readingStdout => simp [Inv, hparent, hexited] at hinv
  | readingStderr => simp [Inv, hparent, hexited] at hinv
  | killing => exact absurd hparent hrunning.left
  | finished result =>
    cases result with
    | ok output => simp [Inv, hparent, hexited] at hinv
    | error err => exact absurd hparent (hrunning.right err)

theorem exists_step {child : Child} (hfits : Fits capacity child) {state : State capacity}
    (hinv : Inv child state) (hrunning : Running state)
    (hfinished : ∀ output, state.parent ≠ .finished (.ok output))
    : ∃ action, action ≠ .timeout ∧ (step child action state).isSome := by
  cases hexited : state.exited with
  | none =>
    have hparent := parent_of_not_exited hinv hrunning hexited
    exact exists_child_step hfits hinv hparent hexited
  | some status => exact exists_parent_step hrunning hexited hfinished

theorem exists_run_finished {child : Child} (hfits : Fits capacity child) (state : State capacity)
    (hinv : Inv child state) (hrunning : Running state)
    : ∃ actions state', .timeout ∉ actions
        ∧ Machine.run (step child) state actions = some state'
        ∧ state'.parent = .finished (.ok child.output) := by
  by_cases hfinished : ∃ output, state.parent = .finished (.ok output)
  . rcases hfinished with ⟨output, hparent⟩
    refine ⟨[], state, by simp, rfl, ?_⟩
    simp only [Inv, hparent] at hinv
    rw [hparent, hinv.right]
  . have ⟨action, haction, hsome⟩ := exists_step hfits hinv hrunning (not_exists.mp hfinished)
    rw [Option.isSome_iff_exists] at hsome
    rcases hsome with ⟨next, hnext⟩
    have := measure_step hnext
    have ⟨actions, state', hactions, hrun, hparent⟩ := exists_run_finished hfits next
      (inv_step action state next hinv hnext) (running_step haction hrunning hnext)
    refine ⟨action :: actions, state', ?_, ?_, hparent⟩
    . rw [List.mem_cons]
      rintro (heq | hmem)
      . exact haction heq.symm
      . exact hactions hmem
    . rw [Machine.run_cons hnext]
      exact hrun
termination_by measure state

theorem exists_run_writes (child : Child) (pending : List (Stream × UInt8))
    (state : State capacity) (hpending : state.pending = pending) (hexited : state.exited = none)
    : ∃ actions state', (∀ action ∈ actions, action = .write)
        ∧ Machine.run (step child) state actions = some state'
        ∧ state'.parent = state.parent ∧ state'.exited = none
        ∧ (state'.pending = [] ∨ (state'.pending ≠ [] ∧ writeStep state' = none)) := by
  induction pending generalizing state with
  | nil => exact ⟨[], state, by simp, rfl, rfl, hexited, Or.inl hpending⟩
  | cons write pending ih =>
    cases hstep : writeStep state with
    | none =>
      refine ⟨[], state, by simp, rfl, rfl, hexited, Or.inr ⟨?_, hstep⟩⟩
      rw [hpending]
      simp
    | some next =>
      have hstep : step child .write state = some next := hstep
      have hnext : next.pending = pending ∧ next.exited = none ∧ next.parent = state.parent := by
        cases stepped_of_step hstep with
        | writeStdout b pending' stdout _ hpending' _ =>
          rw [hpending] at hpending'
          injection hpending' with _ heq
          exact ⟨heq.symm, hexited, rfl⟩
        | writeStderr b pending' stderr _ hpending' _ =>
          rw [hpending] at hpending'
          injection hpending' with _ heq
          exact ⟨heq.symm, hexited, rfl⟩
      have ⟨actions, state', hactions, hrun, hparent, hexited', hend⟩ :=
        ih next hnext.left hnext.right.left
      refine ⟨.write :: actions, state', ?_, ?_, hparent.trans hnext.right.right, hexited', hend⟩
      . intro action haction
        rw [List.mem_cons] at haction
        cases haction with
        | inl heq => exact heq
        | inr hmem => exact hactions action hmem
      . rw [Machine.run_cons hstep]
        exact hrun

/-- Before the timeout, something can happen until the child exits. -/
def Progresses (capacity : Nat) (child : Child) : Prop :=
  ∀ (actions : List Action) (state : State capacity), run child actions = some state →
    .timeout ∉ actions → state.exited = none →
      ∃ action, action ≠ .timeout ∧ (step child action state).isSome

theorem fits_of_progresses {child : Child} (h : Progresses capacity child)
    : Fits capacity child := by
  have ⟨actions, state, hactions, hrun, hparent, hexited, hend⟩ :=
    exists_run_writes child child.writes (init child : State capacity) rfl rfl
  have hinv := inv_run hrun
  simp only [Inv, hparent, init] at hinv
  cases hend with
  | inl hdone =>
    rw [hdone] at hinv
    simp only [bytesOf, List.filterMap_nil, List.append_nil] at hinv
    refine ⟨?_, ?_⟩
    . have := state.stdout.length_le
      rw [hinv.right.left] at this
      exact this
    . have := state.stderr.length_le
      rw [hinv.right.right] at this
      exact this
  | inr hstuck =>
    have htimeout : .timeout ∉ actions := by
      intro hmem
      have := hactions _ hmem
      contradiction
    have ⟨action, haction, hsome⟩ := h actions state hrun htimeout hexited
    rw [Option.isSome_iff_exists] at hsome
    rcases hsome with ⟨next, hnext⟩
    have hblocked : ∀ next, step child .write state ≠ some next := by
      intro next hnext
      have hnext : writeStep state = some next := hnext
      rw [hstuck.right] at hnext
      contradiction
    cases stepped_of_step hnext with
    | writeStdout => exact absurd hnext (hblocked _)
    | writeStderr => exact absurd hnext (hblocked _)
    | exit _ hpending => exact absurd hpending hstuck.left
    | waitReturns _ hexited' => rw [hexited] at hexited'; contradiction
    | readStdout _ _ _ hparent' => rw [hparent] at hparent'; contradiction
    | readStderr _ _ _ _ hparent' => rw [hparent] at hparent'; contradiction
    | endOfStdout _ _ hparent' => rw [hparent] at hparent'; contradiction
    | endOfStderr _ _ _ hparent' => rw [hparent] at hparent'; contradiction
    | timeout => contradiction
    | kill hparent' => rw [hparent] at hparent'; contradiction

/-- Whatever happened before the timeout, the output can still be returned without it. -/
def Finishes (capacity : Nat) (child : Child) : Prop :=
  ∀ (actions : List Action) (state : State capacity), run child actions = some state →
    .timeout ∉ actions →
      ∃ actions' state', .timeout ∉ actions'
        ∧ run child (actions ++ actions') = some (state' : State capacity)
        ∧ state'.parent = .finished (.ok child.output)

def ReturnsOutput (capacity : Nat) (child : Child) : Prop :=
  ∀ (actions : List Action) (state : State capacity) (output : Output),
    run child actions = some state → state.parent = .finished (.ok output) → output = child.output

theorem returnsOutput (capacity : Nat) (child : Child) : ReturnsOutput capacity child := by
  intro actions state output hrun hparent
  have hinv := inv_run hrun
  simp only [Inv, hparent] at hinv
  exact hinv.right

theorem progresses_of_fits {child : Child} (h : Fits capacity child)
    : Progresses capacity child := by
  intro actions state hrun htimeout hexited
  have hinv := inv_run hrun
  have hparent := parent_of_not_exited hinv (running_run htimeout hrun) hexited
  exact exists_child_step h hinv hparent hexited

theorem finishes_of_fits {child : Child} (h : Fits capacity child) : Finishes capacity child := by
  intro actions state hrun htimeout
  have ⟨actions', state', htimeout', hrun', hparent⟩ :=
    exists_run_finished h state (inv_run hrun) (running_run htimeout hrun)
  exact ⟨actions', state', htimeout', Machine.run_trans hrun hrun', hparent⟩

theorem runs_well_iff_fits (capacity : Nat) (child : Child)
    : (Progresses capacity child ∧ Finishes capacity child ∧ ReturnsOutput capacity child)
        ↔
      Fits capacity child := by
  constructor
  . rintro ⟨hprogresses, _, _⟩
    exact fits_of_progresses hprogresses
  . intro h
    exact ⟨progresses_of_fits h, finishes_of_fits h, returnsOutput capacity child⟩

theorem length_bytesOf_replicate (stream : Stream) (n : Nat) (b : UInt8)
    : (bytesOf stream (List.replicate n (stream, b))).length = n := by
  induction n with
  | zero => rfl
  | succ n ih => rw [List.replicate_succ, bytesOf_cons, if_pos rfl, List.length_cons, ih]

-- A pipe of 64 KiB and one byte more of warnings.
theorem blocks_on_full_pipe
    : ¬ ∀ (capacity : Nat), 1 ≤ capacity → ∀ (child : Child),
        Progresses capacity child ∧ Finishes capacity child ∧ ReturnsOutput capacity child := by
  intro h
  let child : Child := ⟨List.replicate 65537 (.stderr, 32), .code 0⟩
  have hfits := fits_of_progresses (h 65536 (by omega) child).left
  have hlength := length_bytesOf_replicate .stderr 65537 32
  have hle : (bytesOf .stderr (List.replicate 65537 (.stderr, 32))).length ≤ 65536 := hfits.right
  omega

end runCargoBuild
end Koval
