import JbOrchestrator.Lib.Machine
import JbOrchestrator.Lib.Transaction

/-!
# Coroutines — programs that await, share a state and may stop anywhere

A task goes on from one `await` to the next: it issues a statement, the statement is answered at some
later time, and at some time after that the task is resumed with the reply.  Between any two of these
steps the tasks of the other slots may take theirs, and a task may be interrupted for good.  A slot
runs one task after the other.

`Safe` is what is left to show of a program: whatever the other slots do within `rely`, each statement
is issued as `issue` asks and a legal answer changes the shared state as `guar` allows.  `trace_spec`
carries it to every run of all slots whose answers are legal.
-/

namespace Lib

/-- The statements that tasks await and the programs that slots run.  How a statement is answered
depends on the shared state and on a choice of the world. -/
structure Coroutines (Q : Type) (R : Q → Type) (S ε κ γ α : Type) where
  Choice : Q → Type
  serve : (statement : Q) → Choice statement → S → R statement × S
  admits : κ → γ → Bool
  program : κ → γ → Program Q R ε α

namespace Coroutines

variable {Q : Type} {R : Q → Type} {S ε κ γ α β δ : Type} (M : Coroutines Q R S ε κ γ α)

/-! ## 1. Tasks and their steps -/

/-- A task that is `ready` can be resumed; one that is not awaits the answer to its next statement.
`began` is the shared state at the start of the call. -/
structure Task (M : Coroutines Q R S ε κ γ α) where
  call : γ
  began : S
  program : Program Q R ε α
  ready : Bool

structure Config (M : Coroutines Q R S ε κ γ α) where
  shared : S
  tasks : κ → Option M.Task

inductive Input (M : Coroutines Q R S ε κ γ α) where
  | start (slot : κ) (call : γ)
  | resume (slot : κ)
  | answer (slot : κ) (choice : ∀ statement, M.Choice statement)
  | interrupt (slot : κ)

inductive Output (Q S ε κ γ α : Type) where
  | ignored
  | started (slot : κ) (call : γ)
  | issued (slot : κ) (call : γ) (began : S) (statement : Q)
  | answered (slot : κ) (call : γ) (began : S) (statement : Q)
  | returned (slot : κ) (call : γ) (began : S) (result : Except ε α)
  | interrupted (slot : κ) (call : γ)

def initial (s : S) : M.Config := ⟨s, fun _ => none⟩

section

variable [DecidableEq κ]

def Config.put {M : Coroutines Q R S ε κ γ α} (c : M.Config) (slot : κ) (task : Option M.Task) :
    M.Config :=
  { c with tasks := Function.update c.tasks slot task }

def resume (c : M.Config) (slot : κ) (task : M.Task) : Output Q S ε κ γ α × M.Config :=
  match task.program with
  | .done value => (.returned slot task.call task.began (.ok value), c.put slot none)
  | .raise error => (.returned slot task.call task.began (.error error), c.put slot none)
  | .ask statement _ =>
    (.issued slot task.call task.began statement, c.put slot (some { task with ready := false }))

def answer (c : M.Config) (slot : κ) (task : M.Task) (choice : ∀ statement, M.Choice statement) :
    Output Q S ε κ γ α × M.Config :=
  match task.program with
  | .ask statement next =>
    let served := M.serve statement (choice statement) c.shared
    (.answered slot task.call task.began statement,
      { c.put slot (some { task with program := next served.1, ready := true }) with
        shared := served.2 })
  | _ => (.ignored, c)

def machine : Machine M.Config M.Input (Output Q S ε κ γ α) where
  step c input :=
    match input with
    | .start slot call =>
      if M.admits slot call && (c.tasks slot).isNone then
        (.started slot call, c.put slot (some ⟨call, c.shared, M.program slot call, true⟩))
      else (.ignored, c)
    | .resume slot =>
      match c.tasks slot with
      | none => (.ignored, c)
      | some task => if task.ready then M.resume c slot task else (.ignored, c)
    | .answer slot choice =>
      match c.tasks slot with
      | none => (.ignored, c)
      | some task => if task.ready then (.ignored, c) else M.answer c slot task choice
    | .interrupt slot =>
      match c.tasks slot with
      | none => (.ignored, c)
      | some task => (.interrupted slot task.call, c.put slot none)

abbrev Step := Transition M.Config M.Input (Output Q S ε κ γ α)

@[simp] theorem put_shared (c : M.Config) (slot : κ) (task : Option M.Task) :
    (c.put slot task).shared = c.shared := rfl

theorem put_tasks_self (c : M.Config) (slot : κ) (task : Option M.Task) :
    (c.put slot task).tasks slot = task := by
  simp [Config.put]

theorem put_tasks_of_ne (c : M.Config) {slot other : κ} (task : Option M.Task) (h : other ≠ slot) :
    (c.put slot task).tasks other = c.tasks other := by
  simp [Config.put, h]

section

variable {M} {c : M.Config} {slot : κ} {task : M.Task}

theorem step_start {call : γ} (hadmits : M.admits slot call = true) (h : c.tasks slot = none) :
    M.machine.step c (.start slot call) =
      (.started slot call, c.put slot (some ⟨call, c.shared, M.program slot call, true⟩)) := by
  simp [machine, hadmits, h]

theorem step_resume (h : c.tasks slot = some task) (hready : task.ready = true) :
    M.machine.step c (.resume slot) = M.resume c slot task := by
  simp [machine, h, hready]

theorem step_answer (choice : ∀ statement, M.Choice statement) (h : c.tasks slot = some task)
    (hready : task.ready = false) :
    M.machine.step c (.answer slot choice) = M.answer c slot task choice := by
  simp [machine, h, hready]

/-- A statement is answered to a task that awaits the answer, by the shared state that the step
finds. -/
theorem answered_spec {i : M.Input} {call : γ} {began : S} {statement : Q}
    (h : (M.machine.step c i).1 = .answered slot call began statement) :
    ∃ task next choice, c.tasks slot = some task ∧ task.call = call ∧ task.began = began ∧
      task.program = .ask statement next ∧
      (M.machine.step c i).2.shared = (M.serve statement choice c.shared).2 := by
  cases i with
  | start slot' call' =>
    simp only [machine] at h
    split at h <;> cases h
  | interrupt slot' =>
    simp only [machine] at h
    split at h <;> cases h
  | resume slot' =>
    simp only [machine] at h
    split at h
    · cases h
    · split at h
      · unfold resume at h
        split at h <;> cases h
      · cases h
  | answer slot' choice =>
    simp only [machine] at h ⊢
    split at h
    · cases h
    · rename_i task htask
      split at h
      · cases h
      · rename_i hready
        rw [if_neg hready]
        unfold answer at h ⊢
        split at h
        · rename_i statement' next hprogram
          cases h
          exact ⟨task, next, choice statement, htask, rfl, rfl, hprogram, rfl⟩
        · cases h

theorem answered_serve {i : M.Input} {call : γ} {began : S} {statement : Q}
    (h : (M.machine.step c i).1 = .answered slot call began statement) :
    ∃ choice, (M.machine.step c i).2.shared = (M.serve statement choice c.shared).2 := by
  obtain ⟨task, next, choice, -, -, -, -, hserve⟩ := answered_spec h
  exact ⟨choice, hserve⟩

end

end

/-! ## 2. Programs among interfering tasks -/

section

variable (legal : ∀ statement, M.Choice statement → Prop) (I : S → Prop) (rely guar : S → S → Prop)
  (issue : S → Q → Prop)

def Safe (E : ε → S → Prop) (P : β → S → Prop) : Program Q R ε β → S → Prop
  | .done value, s => P value s
  | .raise error, s => E error s
  | .ask statement next, s => ∀ s', I s' → rely s s' → issue s' statement ∧
      ∀ choice, legal statement choice → guar s' (M.serve statement choice s').2 ∧
        Safe E P (next (M.serve statement choice s').1) (M.serve statement choice s').2

variable {legal I rely guar issue} {issue' : S → Q → Prop} {E E' : ε → S → Prop}
  {P P' : β → S → Prop} {p : Program Q R ε β} {s s' : S}

theorem safe_mono (hissue : ∀ s statement, issue s statement → issue' s statement)
    (hE : ∀ error s, E error s → E' error s) (hP : ∀ value s, P value s → P' value s)
    (h : M.Safe legal I rely guar issue E P p s) : M.Safe legal I rely guar issue' E' P' p s := by
  induction p generalizing s with
  | done value => exact hP value s h
  | raise error => exact hE error s h
  | ask statement next ih =>
    intro s' hs' hrely
    have hsafe := h s' hs' hrely
    refine ⟨hissue s' statement hsafe.1, fun choice hchoice => ?_⟩
    have hnext := hsafe.2 choice hchoice
    exact ⟨hnext.1, ih _ hnext.2⟩

theorem safe_bind {f : β → Program Q R ε δ} {P' : δ → S → Prop}
    (hp : M.Safe legal I rely guar issue E P p s)
    (hf : ∀ value s, P value s → M.Safe legal I rely guar issue E P' (f value) s) :
    M.Safe legal I rely guar issue E P' (p >>= f) s := by
  induction p generalizing s with
  | done value => exact hf value s hp
  | raise error => exact hp
  | ask statement next ih =>
    intro s' hs' hrely
    have hissue := hp s' hs' hrely
    refine ⟨hissue.1, fun choice hchoice => ?_⟩
    have hnext := hissue.2 choice hchoice
    exact ⟨hnext.1, ih _ hnext.2⟩

theorem safe_ofExcept {x : Except ε β} (hok : ∀ value, x = .ok value → P value s)
    (herror : ∀ error, x = .error error → E error s) :
    M.Safe legal I rely guar issue E P (Program.ofExcept x) s := by
  cases x with
  | ok value => exact hok value rfl
  | error error => exact herror error rfl

theorem safe_ensuring {cleanup : Program Q R ε Unit}
    (h : M.Safe legal I rely guar issue
      (fun error s => M.Safe legal I rely guar issue E P (cleanup.bind fun _ => .raise error) s)
      (fun value s => M.Safe legal I rely guar issue E P (cleanup.bind fun _ => .done value) s) p s) :
    M.Safe legal I rely guar issue E P (p.ensuring cleanup) s := by
  induction p generalizing s with
  | done value => exact h
  | raise error => exact h
  | ask statement next ih =>
    intro s' hs' hrely
    have hissue := h s' hs' hrely
    refine ⟨hissue.1, fun choice hchoice => ?_⟩
    have hnext := hissue.2 choice hchoice
    exact ⟨hnext.1, ih _ hnext.2⟩

/-- What the other slots do before the next statement keeps a program safe. -/
theorem safe_stable (htrans : ∀ s s' s'', rely s s' → rely s' s'' → rely s s'')
    (hE : ∀ error s s', rely s s' → E error s → E error s')
    (hP : ∀ value s s', rely s s' → P value s → P value s') (hrely : rely s s')
    (h : M.Safe legal I rely guar issue E P p s) : M.Safe legal I rely guar issue E P p s' := by
  cases p with
  | done value => exact hP value s s' hrely h
  | raise error => exact hE error s s' hrely h
  | ask statement next =>
    intro s'' hs'' hrely'
    exact h s'' hs'' (htrans s s' s'' hrely hrely')

end

/-! ## 3. Runs of safe programs -/

variable (legal : ∀ statement, M.Choice statement → Prop) (I : S → Prop)
  (rely guar : κ → S → S → Prop) (issue : κ → γ → S → S → Q → Prop)
  (returns : κ → γ → S → S → Except ε α → Prop)

/-- The program of a call that began at `began` goes on safely from `s`, and what it ends with is as
`returns` asks, whenever the task is resumed for the last time. -/
def Goes (slot : κ) (call : γ) (began : S) (p : Program Q R ε α) (s : S) : Prop :=
  M.Safe legal I (rely slot) (guar slot) (issue slot call began)
    (fun error s => ∀ s', I s' → rely slot s s' → returns slot call began s' (.error error))
    (fun value s => ∀ s', I s' → rely slot s s' → returns slot call began s' (.ok value)) p s

/-- Every task of a configuration goes on safely. -/
structure Coherent (c : M.Config) : Prop where
  shared : I c.shared
  goes : ∀ slot task, c.tasks slot = some task →
    M.Goes legal I rely guar issue returns slot task.call task.began task.program c.shared

/-- The condition on a step: a statement is answered as `legal` allows. -/
def Lawful (t : M.Step) : Prop :=
  ∀ slot choice task statement next, t.input = .answer slot choice →
    t.before.tasks slot = some task → task.program = .ask statement next → task.ready = false →
    legal statement (choice statement)

/-- What a step does to the shared state. -/
def Meets (t : M.Step) : Prop :=
  match t.output with
  | .issued slot call began statement =>
    issue slot call began t.before.shared statement ∧ t.after.shared = t.before.shared
  | .answered slot _ _ _ => guar slot t.before.shared t.after.shared
  | .returned slot call began result =>
    returns slot call began t.before.shared result ∧ t.after.shared = t.before.shared
  | _ => t.after.shared = t.before.shared

variable {M legal I rely guar issue returns}

theorem coherent_initial {s : S} (hs : I s) : M.Coherent legal I rely guar issue returns (M.initial s) where
  shared := hs
  goes _ _ h := by cases h

section

variable (hrefl : ∀ slot s, rely slot s s)
  (htrans : ∀ slot s s' s'', rely slot s s' → rely slot s' s'' → rely slot s s'')
  (hguar : ∀ slot s s', I s → guar slot s s' → I s' ∧ ∀ other, other ≠ slot → rely other s s')
  (hsafe : ∀ slot call s, I s → M.admits slot call = true →
    M.Goes legal I rely guar issue returns slot call s (M.program slot call) s)

include htrans in
theorem goes_stable {slot : κ} {call : γ} {began : S} {p : Program Q R ε α} {s s' : S}
    (hrely : rely slot s s') (h : M.Goes legal I rely guar issue returns slot call began p s) :
    M.Goes legal I rely guar issue returns slot call began p s' := by
  apply M.safe_stable (htrans slot) _ _ hrely h
  · intro error s s' hrely hE s'' hs'' hrely'
    exact hE s'' hs'' (htrans slot s s' s'' hrely hrely')
  · intro value s s' hrely hP s'' hs'' hrely'
    exact hP s'' hs'' (htrans slot s s' s'' hrely hrely')

variable [DecidableEq κ]

/-- A slot that gets another task, or none, changes nothing for the others. -/
theorem Coherent.put {c : M.Config} (hc : M.Coherent legal I rely guar issue returns c) {slot : κ}
    {task : Option M.Task} (htask : ∀ task', task = some task' →
      M.Goes legal I rely guar issue returns slot task'.call task'.began task'.program c.shared) :
    M.Coherent legal I rely guar issue returns (c.put slot task) where
  shared := hc.shared
  goes other task' h := by
    by_cases hother : other = slot
    · subst hother
      rw [M.put_tasks_self] at h
      exact htask task' h
    · rw [M.put_tasks_of_ne c task hother] at h
      exact hc.goes other task' h

include hrefl in
theorem Coherent.resume {c : M.Config} (hc : M.Coherent legal I rely guar issue returns c) {slot : κ}
    {task : M.Task} (h : c.tasks slot = some task) (i : M.Input) :
    M.Coherent legal I rely guar issue returns (M.resume c slot task).2 ∧
      M.Meets guar issue returns ⟨c, i, (M.resume c slot task).1, (M.resume c slot task).2⟩ := by
  have hgoes := hc.goes slot task h
  have hended : M.Coherent legal I rely guar issue returns (c.put slot none) := by
    apply hc.put
    intro task' htask'
    cases htask'
  obtain ⟨call, began, program, ready⟩ := task
  cases program with
  | done value => exact ⟨hended, hgoes c.shared hc.shared (hrefl slot c.shared), rfl⟩
  | raise error => exact ⟨hended, hgoes c.shared hc.shared (hrefl slot c.shared), rfl⟩
  | ask statement next =>
    have hissue := hgoes c.shared hc.shared (hrefl slot c.shared)
    refine ⟨hc.put ?_, hissue.1, rfl⟩
    intro task' htask'
    obtain rfl := Option.some.inj htask'
    exact hgoes

include hrefl in
/-- A statement is still as `issue` asks when it is answered. -/
theorem Coherent.issued {c : M.Config} (hc : M.Coherent legal I rely guar issue returns c)
    {i : M.Input} {slot : κ} {call : γ} {began : S} {statement : Q}
    (h : (M.machine.step c i).1 = .answered slot call began statement) :
    issue slot call began c.shared statement := by
  obtain ⟨task, next, choice, htask, rfl, rfl, hprogram, -⟩ := answered_spec h
  have hgoes := hc.goes slot task htask
  rw [hprogram] at hgoes
  exact (hgoes c.shared hc.shared (hrefl slot c.shared)).1

include hrefl htrans hguar in
theorem Coherent.answer {c : M.Config} (hc : M.Coherent legal I rely guar issue returns c) {slot : κ}
    {task : M.Task} (h : c.tasks slot = some task) {choice : ∀ statement, M.Choice statement}
    (hlegal : ∀ statement next, task.program = .ask statement next →
      legal statement (choice statement)) (i : M.Input) :
    M.Coherent legal I rely guar issue returns (M.answer c slot task choice).2 ∧
      M.Meets guar issue returns
        ⟨c, i, (M.answer c slot task choice).1, (M.answer c slot task choice).2⟩ := by
  have hgoes := hc.goes slot task h
  obtain ⟨call, began, program, ready⟩ := task
  cases program with
  | done value => exact ⟨hc, rfl⟩
  | raise error => exact ⟨hc, rfl⟩
  | ask statement next =>
    have hissue := hgoes c.shared hc.shared (hrefl slot c.shared)
    have hnext := hissue.2 (choice statement) (hlegal statement next rfl)
    have hkept := hguar slot _ _ hc.shared hnext.1
    refine ⟨⟨hkept.1, ?_⟩, hnext.1⟩
    intro other task' hother
    -- the answering slot goes on from the new state, the others rely on the change
    by_cases hslot : other = slot
    · subst hslot
      obtain rfl : _ = task' := Option.some.inj ((M.put_tasks_self c other _).symm.trans hother)
      exact hnext.2
    · have hold : c.tasks other = some task' := (M.put_tasks_of_ne c _ hslot).symm.trans hother
      exact goes_stable htrans (hkept.2 other hslot) (hc.goes other task' hold)

include hrefl htrans hguar hsafe

/-- One step of a coherent configuration. -/
theorem Coherent.step {c : M.Config} (hc : M.Coherent legal I rely guar issue returns c) {i : M.Input}
    (hlawful : M.Lawful legal (M.machine.fire c i)) :
    M.Coherent legal I rely guar issue returns (M.machine.step c i).2 ∧
      M.Meets guar issue returns (M.machine.fire c i) := by
  unfold Machine.fire
  cases i with
  | start slot call =>
    by_cases hstart : (M.admits slot call && (c.tasks slot).isNone) = true
    · simp only [machine, hstart, if_true]
      refine ⟨hc.put ?_, rfl⟩
      intro task htask
      obtain rfl := Option.some.inj htask
      exact hsafe slot call c.shared hc.shared (Bool.and_eq_true_iff.mp hstart).1
    · simp only [machine, hstart]
      exact ⟨hc, rfl⟩
  | resume slot =>
    cases h : c.tasks slot with
    | none =>
      simp only [machine, h]
      exact ⟨hc, rfl⟩
    | some task =>
      by_cases hready : task.ready = true
      · rw [step_resume h hready]
        exact hc.resume hrefl h _
      · simp only [machine, h, hready]
        exact ⟨hc, rfl⟩
  | answer slot choice =>
    cases h : c.tasks slot with
    | none =>
      simp only [machine, h]
      exact ⟨hc, rfl⟩
    | some task =>
      by_cases hready : task.ready = true
      · simp only [machine, h, hready, if_true]
        exact ⟨hc, rfl⟩
      · rw [step_answer choice h (by simpa using hready)]
        apply hc.answer hrefl htrans hguar h
        intro statement next hprogram
        exact hlawful slot choice task statement next rfl h hprogram (by simpa using hready)
  | interrupt slot =>
    cases h : c.tasks slot with
    | none =>
      simp only [machine, h]
      exact ⟨hc, rfl⟩
    | some task =>
      simp only [machine, h]
      refine ⟨hc.put ?_, rfl⟩
      intro task' htask'
      cases htask'

/-- Every step of a run of safe programs does to the shared state what its slot guarantees. -/
theorem trace_spec {c : M.Config} (hc : M.Coherent legal I rely guar issue returns c)
    {inputs : List M.Input} (hlawful : ∀ t ∈ M.machine.trace c inputs, M.Lawful legal t) :
    ∀ t ∈ M.machine.trace c inputs, I t.before.shared ∧ M.Meets guar issue returns t := by
  induction inputs generalizing c with
  | nil => simp
  | cons i inputs ih =>
    rw [Machine.trace_cons, List.forall_mem_cons] at hlawful
    have hstep := hc.step hrefl htrans hguar hsafe hlawful.1
    rw [Machine.trace_cons, List.forall_mem_cons]
    exact ⟨⟨hc.shared, hstep.2⟩, ih hstep.1 hlawful.2⟩

/-- In a run of safe programs every statement is as `issue` asks when it is answered. -/
theorem trace_answers {c : M.Config} (hc : M.Coherent legal I rely guar issue returns c)
    {inputs : List M.Input} (hlawful : ∀ t ∈ M.machine.trace c inputs, M.Lawful legal t) :
    ∀ t ∈ M.machine.trace c inputs, ∀ slot call began statement,
      t.output = .answered slot call began statement →
        issue slot call began t.before.shared statement := by
  induction inputs generalizing c with
  | nil => simp
  | cons i inputs ih =>
    rw [Machine.trace_cons, List.forall_mem_cons] at hlawful
    have hstep := hc.step hrefl htrans hguar hsafe hlawful.1
    rw [Machine.trace_cons, List.forall_mem_cons]
    refine ⟨?_, ih hstep.1 hlawful.2⟩
    intro slot call began statement hanswered
    exact hc.issued hrefl hanswered

end

end Coroutines

end Lib
