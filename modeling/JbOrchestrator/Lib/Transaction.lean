import JbOrchestrator.Lib.Machine
import Mathlib.Data.Set.Lattice
import Mathlib.Logic.Function.Basic
import Mathlib.Order.CompletePartialOrder

/-!
# Transaction — programs over a store, alone and interleaved

A program asks one statement after the other and ends with a value or an error.  A store says what a
statement answers on the committed state, which row locks it takes, and what a commit does.  A
program can run alone (`serve`) or as one of many sessions whose statements interleave (`machine`);
a session sees the commits of the others between its own statements, except on rows it has locked.

`wp` is the rely-guarantee weakest precondition of a program: what is left to show when every
statement meets a state that others may have changed as `rely` allows.  `wp_serve` and `trace_spec`
carry it to the serial and to the interleaved runs.
-/

namespace Lib

/-! ## 1. Programs -/

inductive Program (Q : Type) (R : Q → Type) (ε α : Type) where
  | done (value : α)
  | raise (error : ε)
  | ask (statement : Q) (next : R statement → Program Q R ε α)

namespace Program

variable {Q : Type} {R : Q → Type} {ε α β : Type}

def bind : Program Q R ε α → (α → Program Q R ε β) → Program Q R ε β
  | done value, f => f value
  | raise error, _ => raise error
  | ask statement next, f => ask statement fun reply => bind (next reply) f

instance : Monad (Program Q R ε) where
  pure := done
  bind := bind

/-- One statement. -/
def perform (statement : Q) : Program Q R ε (R statement) := ask statement done

def ofExcept : Except ε α → Program Q R ε α
  | .ok value => done value
  | .error error => raise error

def ofOption (error : ε) : Option α → Program Q R ε α
  | some value => done value
  | none => raise error

/-- Run `f` on the members of a list, from the left. -/
def forEach (f : β → Program Q R ε α) : List β → Program Q R ε (List α)
  | [] => done []
  | x :: xs => f x >>= fun value => forEach f xs >>= fun values => done (value :: values)

/-- The program and, however it ends, `cleanup` behind it. -/
def ensuring : Program Q R ε α → Program Q R ε Unit → Program Q R ε α
  | done value, cleanup => cleanup.bind fun _ => done value
  | raise error, cleanup => cleanup.bind fun _ => raise error
  | ask statement next, cleanup => ask statement fun reply => (next reply).ensuring cleanup

/-- The program with faults from outside: in front of statement number `n`, or of the end behind `n`
statements, it raises what `faults n` says. -/
def interruptible : Program Q R ε α → (ℕ → Option ε) → Program Q R ε α
  | done value, faults =>
    match faults 0 with
    | some error => raise error
    | none => done value
  | raise error, _ => raise error
  | ask statement next, faults =>
    match faults 0 with
    | some error => raise error
    | none => ask statement fun reply => (next reply).interruptible fun n => faults (n + 1)

/-- Every statement is among `allowed` and every error among `errors`. -/
def Within (allowed : Q → Prop) (errors : ε → Prop) : Program Q R ε α → Prop
  | done _ => True
  | raise error => errors error
  | ask statement next => allowed statement ∧ ∀ reply, Within allowed errors (next reply)

section

variable {allowed : Q → Prop} {errors : ε → Prop}

theorem within_bind {p : Program Q R ε α} {f : α → Program Q R ε β} (hp : p.Within allowed errors)
    (hf : ∀ value, (f value).Within allowed errors) : (p >>= f).Within allowed errors := by
  induction p with
  | done value => exact hf value
  | raise error => exact hp
  | ask statement next ih => exact ⟨hp.1, fun reply => ih reply (hp.2 reply)⟩

theorem within_perform {statement : Q} (h : allowed statement) :
    (perform statement : Program Q R ε (R statement)).Within allowed errors :=
  ⟨h, fun _ => trivial⟩

theorem within_ofExcept {x : Except ε α} (h : ∀ error, x = .error error → errors error) :
    (ofExcept x : Program Q R ε α).Within allowed errors := by
  cases x with
  | ok value => trivial
  | error error => exact h error rfl

theorem within_ofOption {x : Option α} {error : ε} (h : errors error) :
    (ofOption error x : Program Q R ε α).Within allowed errors := by
  cases x with
  | some value => trivial
  | none => exact h

theorem within_forEach {f : β → Program Q R ε α} (hf : ∀ x, (f x).Within allowed errors)
    (xs : List β) : (forEach f xs).Within allowed errors := by
  induction xs with
  | nil => trivial
  | cons x xs ih => exact within_bind (hf x) fun value => within_bind ih fun values => trivial

end

/-- Whatever the statements reply, the program ends as `P` says or raises. -/
def Ends {S : Type} (replies : S → (statement : Q) → R statement → S → Prop) (P : S → α → Prop) :
    Program Q R ε α → S → Prop
  | done value, s => P s value
  | raise _, _ => True
  | ask statement next, s => ∀ reply s', replies s statement reply s' → Ends replies P (next reply) s'

section

variable {S : Type} {replies : S → (statement : Q) → R statement → S → Prop} {s : S}

theorem ends_bind {p : Program Q R ε α} {f : α → Program Q R ε β} {P : S → β → Prop}
    (h : p.Ends replies (fun s value => (f value).Ends replies P s) s) :
    (p >>= f).Ends replies P s := by
  induction p generalizing s with
  | done value => exact h
  | raise error => trivial
  | ask statement next ih => exact fun reply s' hreply => ih reply (h reply s' hreply)

theorem Ends.mono {p : Program Q R ε α} {P P' : S → α → Prop} (h : p.Ends replies P s)
    (hP : ∀ s value, P s value → P' s value) : p.Ends replies P' s := by
  induction p generalizing s with
  | done value => exact hP s value h
  | raise error => trivial
  | ask statement next ih => exact fun reply s' hreply => ih reply (h reply s' hreply)

theorem ends_ofExcept {x : Except ε α} {P : S → α → Prop} (h : ∀ value, x = .ok value → P s value) :
    (ofExcept x : Program Q R ε α).Ends replies P s := by
  cases x with
  | ok value => exact h value rfl
  | error error => trivial

theorem ends_ofOption {x : Option α} {error : ε} {P : S → α → Prop}
    (h : ∀ value, x = some value → P s value) :
    (ofOption error x : Program Q R ε α).Ends replies P s := by
  cases x with
  | some value => exact h value rfl
  | none => trivial

/-- A program whose statements leave the session as it is. -/
theorem Within.ends {allowed : Q → Prop} {errors : ε → Prop} {p : Program Q R ε α}
    {P : S → α → Prop} (hp : p.Within allowed errors)
    (hquiet : ∀ statement reply s', allowed statement → replies s statement reply s' → s' = s)
    (hP : ∀ value, P s value) : p.Ends replies P s := by
  induction p with
  | done value => exact hP value
  | raise error => trivial
  | ask statement next ih =>
    intro reply s' hreply
    obtain rfl := hquiet statement reply s' hp.1 hreply
    exact ih reply (hp.2 reply)

end

end Program

/-! ## 2. Stores -/

/-- What a database does.  `exec` answers a statement of a session with the next local state of the
session and the locks the statement took, or waits for a lock that another session has taken.  A lock
it takes was free, and nobody waits while no lock is taken. -/
structure Store (Q : Type) (R : Q → Type) (D S L ε γ α : Type) where
  exec : D → (L → Bool) → S → (statement : Q) → Option (R statement × S × List L)
  commit : γ → α → S → D → Except ε D
  program : γ → Program Q R ε α
  start : S
  exec_free : ∀ {d taken s statement reply s' acquired},
    exec d taken s statement = some (reply, s', acquired) → ∀ l ∈ acquired, taken l = false
  exec_isSome : ∀ d s statement, (exec d (fun _ => false) s statement).isSome

namespace Store

variable {Q : Type} {R : Q → Type} {D S L ε γ α β : Type} (M : Store Q R D S L ε γ α)

/-- A program on its own. -/
def serve : Program Q R ε β → S → D → Except ε (β × S)
  | .done value, s, _ => .ok (value, s)
  | .raise error, _, _ => .error error
  | .ask statement next, s, d =>
    let answer := (M.exec d (fun _ => false) s statement).get (M.exec_isSome d s statement)
    serve (next answer.1) answer.2.1 d

def call (d : D) (c : γ) : Except ε (α × D) :=
  match M.serve (M.program c) M.start d with
  | .error error => .error error
  | .ok (value, s) => (M.commit c value s d).map fun d' => (value, d')

/-- One call after the other; a call that raises changes nothing. -/
def serial : Machine D γ (Except ε α) where
  step d c :=
    match M.call d c with
    | .ok (value, d') => (.ok value, d')
    | .error error => (.error error, d)

/-! ## 3. Weakest preconditions -/

section

variable (rely : Set L → D → D → Prop) (guard : D → S → Q → Prop)

def wp (E : Set L → S → ε → D → Prop) (P : Set L → S → β → D → Prop) :
    Program Q R ε β → Set L → S → D → Prop
  | .done value, held, s, d => P held s value d
  | .raise error, held, s, d => E held s error d
  | .ask statement next, held, s, d =>
    ∀ d', rely held d d' → guard d' s statement → ∀ taken reply s' acquired,
      M.exec d' taken s statement = some (reply, s', acquired) →
      wp E P (next reply) (held ∪ {l | l ∈ acquired}) s' d'

variable {rely guard} {E E' : Set L → S → ε → D → Prop} {P P' : Set L → S → β → D → Prop}
  {p : Program Q R ε β} {held : Set L} {s : S} {d : D}

theorem wp_bind {δ : Type} (f : δ → Program Q R ε β) (p : Program Q R ε δ) (held : Set L) (s : S)
    (d : D) : M.wp rely guard E P (p >>= f) held s d ↔
      M.wp rely guard E (fun held s value d => M.wp rely guard E P (f value) held s d) p held s d := by
  induction p generalizing held s d with
  | done value => exact Iff.rfl
  | raise error => exact Iff.rfl
  | ask statement next ih =>
    show (∀ d', rely held d d' → guard d' s statement → ∀ taken reply s' acquired,
      M.exec d' taken s statement = some (reply, s', acquired) →
      M.wp rely guard E P (next reply >>= f) (held ∪ {l | l ∈ acquired}) s' d') ↔ _
    simp only [ih]
    exact Iff.rfl

theorem wp_mono (hE : ∀ held s error d, E held s error d → E' held s error d)
    (hP : ∀ held s value d, P held s value d → P' held s value d)
    (h : M.wp rely guard E P p held s d) : M.wp rely guard E' P' p held s d := by
  induction p generalizing held s d with
  | done value => exact hP _ _ _ _ h
  | raise error => exact hE _ _ _ _ h
  | ask statement next ih =>
    intro d' hrely hguard taken reply s' acquired hexec
    exact ih reply (h d' hrely hguard taken reply s' acquired hexec)

theorem wp_and (h : M.wp rely guard E P p held s d) (h' : M.wp rely guard E' P' p held s d) :
    M.wp rely guard (fun held s error d => E held s error d ∧ E' held s error d)
      (fun held s value d => P held s value d ∧ P' held s value d) p held s d := by
  induction p generalizing held s d with
  | done value => exact ⟨h, h'⟩
  | raise error => exact ⟨h, h'⟩
  | ask statement next ih =>
    intro d' hrely hguard taken reply s' acquired hexec
    exact ih reply (h d' hrely hguard taken reply s' acquired hexec)
      (h' d' hrely hguard taken reply s' acquired hexec)

/-- What others may do before the next statement keeps the precondition. -/
theorem wp_stable (htrans : ∀ held d d' d'', rely held d d' → rely held d' d'' → rely held d d'')
    (hE : ∀ held s error d d', rely held d d' → E held s error d → E held s error d')
    (hP : ∀ held s value d d', rely held d d' → P held s value d → P held s value d')
    {d' : D} (hrely : rely held d d') (h : M.wp rely guard E P p held s d) :
    M.wp rely guard E P p held s d' := by
  cases p with
  | done value => exact hP _ _ _ _ _ hrely h
  | raise error => exact hE _ _ _ _ _ hrely h
  | ask statement next =>
    intro d'' hrely'
    exact h d'' (htrans _ _ _ _ hrely hrely')

theorem wp_perform {statement : Q} {P : Set L → S → R statement → D → Prop}
    (h : ∀ d', rely held d d' → guard d' s statement → ∀ taken reply s' acquired,
      M.exec d' taken s statement = some (reply, s', acquired) →
      P (held ∪ {l | l ∈ acquired}) s' reply d') :
    M.wp rely guard E P (Program.perform statement) held s d := h

theorem wp_ofExcept {x : Except ε β} (hok : ∀ value, x = .ok value → P held s value d)
    (herror : ∀ error, x = .error error → E held s error d) :
    M.wp rely guard E P (Program.ofExcept x) held s d := by
  cases x with
  | ok value => exact hok value rfl
  | error error => exact herror error rfl

theorem wp_ofOption {x : Option β} {error : ε} (hsome : ∀ value, x = some value → P held s value d)
    (hnone : x = none → E held s error d) :
    M.wp rely guard E P (Program.ofOption error x) held s d := by
  cases x with
  | some value => exact hsome value rfl
  | none => exact hnone rfl

/-- Faults are harmless where every error of theirs is. -/
theorem wp_interruptible {faults : ℕ → Option ε}
    (hfaults : ∀ n error, faults n = some error → ∀ held s d, E held s error d)
    (h : M.wp rely guard E P p held s d) : M.wp rely guard E P (p.interruptible faults) held s d := by
  induction p generalizing faults held s d with
  | raise error => exact h
  | done value =>
    unfold Program.interruptible
    cases hfault : faults 0 with
    | some error => exact hfaults 0 error hfault held s d
    | none => exact h
  | ask statement next ih =>
    unfold Program.interruptible
    cases hfault : faults 0 with
    | some error => exact hfaults 0 error hfault held s d
    | none =>
      intro d' hrely hguard taken reply s' acquired hexec
      exact ih reply (fun n => hfaults (n + 1)) (h d' hrely hguard taken reply s' acquired hexec)

/-- A condition on the locks and the committed state that the others keep, and an end that depends on
nothing else. -/
theorem wp_ends {replies : S → (statement : Q) → R statement → S → Prop} {P' : S → β → Prop}
    {Fixed : Set L → D → Prop}
    (hreplies : ∀ {d taken s statement reply s' acquired},
      M.exec d taken s statement = some (reply, s', acquired) → replies s statement reply s')
    (hfixed : ∀ held d d', Fixed held d → rely held d d' → Fixed held d')
    (hgrow : ∀ held held' d, held ⊆ held' → Fixed held d → Fixed held' d)
    (hE : ∀ held s error d, Fixed held d → E held s error d)
    (hP : ∀ held s value d, Fixed held d → P' s value → P held s value d)
    (h : p.Ends replies P' s) (hd : Fixed held d) : M.wp rely guard E P p held s d := by
  induction p generalizing held s d with
  | done value => exact hP held s value d hd h
  | raise error => exact hE held s error d hd
  | ask statement next ih =>
    intro d' hrely _ taken reply s' acquired hexec
    exact ih reply (h reply s' (hreplies hexec))
      (hgrow _ _ _ Set.subset_union_left (hfixed _ _ _ hd hrely))

/-- A precondition that every end satisfies. -/
theorem wp_always (hP : ∀ held s value d, P held s value d) (hE : ∀ held s error d, E held s error d) :
    M.wp rely guard E P p held s d := by
  induction p generalizing held s d with
  | done value => exact hP held s value d
  | raise error => exact hE held s error d
  | ask statement next ih =>
    intro d' _ _ taken reply s' acquired _
    exact ih reply

/-- What every call of `f` returns, for the members of a list. -/
theorem wp_forEach {δ : Type} {f : δ → Program Q R ε β} {Good : δ → β → Prop} {xs : List δ}
    (hE : ∀ held s error d, E held s error d)
    (hf : ∀ x held s d, M.wp rely guard E (fun _ _ value _ => Good x value) (f x) held s d) :
    M.wp rely guard E (fun _ _ values _ => List.Forall₂ Good xs values) (Program.forEach f xs) held s
      d := by
  induction xs generalizing held s d with
  | nil => exact List.Forall₂.nil
  | cons x xs ih =>
    refine (M.wp_bind _ (f x) held s d).mpr (M.wp_mono (fun held s error d _ => hE held s error d) ?_
      (hf x held s d))
    intro held s value d hvalue
    refine (M.wp_bind _ _ held s d).mpr (M.wp_mono (fun held s error d _ => hE held s error d) ?_ ih)
    intro held s values d hvalues
    exact List.Forall₂.cons hvalue hvalues

/-- A program whose statements take no lock and leave the session as it is. -/
theorem wp_within {allowed : Q → Prop} {errors : ε → Prop} (hp : p.Within allowed errors)
    (hquiet : ∀ {d taken s statement reply s' acquired}, allowed statement →
      M.exec d taken s statement = some (reply, s', acquired) → s' = s ∧ acquired = [])
    (hrefl : ∀ held d, rely held d d)
    (htrans : ∀ held d d' d'', rely held d d' → rely held d' d'' → rely held d d'')
    (hP : ∀ value d', rely held d d' → P held s value d')
    (hE : ∀ error d', errors error → rely held d d' → E held s error d') :
    M.wp rely guard E P p held s d := by
  induction p generalizing d with
  | done value => exact hP value d (hrefl held d)
  | raise error => exact hE error d hp (hrefl held d)
  | ask statement next ih =>
    intro d' hrely _ taken reply s' acquired hexec
    obtain ⟨rfl, rfl⟩ := hquiet hp.1 hexec
    rw [show held ∪ {l | l ∈ ([] : List L)} = held by simp]
    exact ih reply (hp.2 reply) (fun value d'' h => hP value d'' (htrans _ _ _ _ hrely h))
      fun error d'' herror h => hE error d'' herror (htrans _ _ _ _ hrely h)

/-- What the others keep, more locks keep and every statement of the program keeps. -/
theorem wp_keeps {allowed : Q → Prop} {Keeps : Set L → S → D → Prop}
    (hp : p.Within allowed fun _ => True)
    (hrely : ∀ held s d d', rely held d d' → Keeps held s d → Keeps held s d')
    (hexec : ∀ {held d taken s statement reply s' acquired}, allowed statement →
      M.exec d taken s statement = some (reply, s', acquired) → Keeps held s d →
      Keeps (held ∪ {l | l ∈ acquired}) s' d)
    (h : Keeps held s d) :
    M.wp rely guard (fun _ _ _ _ => True) (fun held s _ d => Keeps held s d) p held s d := by
  induction p generalizing held s d with
  | done value => exact h
  | raise error => trivial
  | ask statement next ih =>
    intro d' hd' _ taken reply s' acquired hanswer
    exact ih reply (hp.2 reply) (hexec hp.1 hanswer (hrely _ _ _ _ hd' h))

/-- A program on its own meets its precondition where nobody interferes. -/
theorem wp_serve (hrefl : ∀ held d, rely held d d) (hguard : ∀ d s statement, guard d s statement)
    (h : M.wp rely guard E P p held s d) :
    match M.serve p s d with
    | .ok (value, s') => ∃ held', P held' s' value d
    | .error error => ∃ held' s', E held' s' error d := by
  induction p generalizing held s with
  | done value => exact ⟨held, h⟩
  | raise error => exact ⟨held, s, h⟩
  | ask statement next ih =>
    exact ih _ (h d (hrefl held d) (hguard _ _ _) _ _ _ _ (Option.some_get _).symm)

end

/-! ### Serial runs of a program, step by step -/

section

variable {δ : Type} {p : Program Q R ε δ} {f : δ → Program Q R ε β} {s s' : S} {d : D} {error : ε}

theorem serve_bind (p : Program Q R ε δ) (f : δ → Program Q R ε β) (s : S) (d : D) :
    M.serve (p >>= f) s d =
      match M.serve p s d with
      | .ok (value, s') => M.serve (f value) s' d
      | .error error => .error error := by
  induction p generalizing s with
  | done value => rfl
  | raise error => rfl
  | ask statement next ih => exact ih _ _

theorem serve_bind_ok {value : δ} (h : M.serve p s d = .ok (value, s')) :
    M.serve (p >>= f) s d = M.serve (f value) s' d := by
  rw [serve_bind, h]

theorem serve_bind_error (h : M.serve p s d = .error error) :
    M.serve (p >>= f) s d = .error error := by
  rw [serve_bind, h]

theorem serve_ofOption {x : Option δ} {value : δ} (h : x = some value) :
    M.serve (Program.ofOption error x) s d = .ok (value, s) := by
  rw [h]
  rfl

/-- A loop whose every round returns and leaves the session as it is. -/
theorem serve_forEach {xs : List β} {g : β → Program Q R ε δ}
    (h : ∀ x ∈ xs, ∃ value, M.serve (g x) s d = .ok (value, s)) :
    ∃ values, M.serve (Program.forEach g xs) s d = .ok (values, s) := by
  induction xs with
  | nil => exact ⟨[], rfl⟩
  | cons x xs ih =>
    rw [List.forall_mem_cons] at h
    obtain ⟨value, hvalue⟩ := h.1
    obtain ⟨values, hvalues⟩ := ih h.2
    refine ⟨value :: values, ?_⟩
    show M.serve (g x >>= fun value => Program.forEach g xs >>= fun values => pure (value :: values))
      s d = _
    rw [M.serve_bind_ok hvalue, M.serve_bind_ok hvalues]
    rfl

/-- A loop whose rounds only look something up. -/
theorem serve_forEach_eq {g : β → Program Q R ε δ} {f : β → Except ε δ}
    (h : ∀ x, M.serve (g x) s d = (f x).map (·, s)) (xs : List β) :
    M.serve (Program.forEach g xs) s d = (xs.mapM f).map (·, s) := by
  induction xs with
  | nil => rfl
  | cons x xs ih =>
    show M.serve (g x >>= fun value => Program.forEach g xs >>= fun values => pure (value :: values))
      s d = _
    rw [List.mapM_cons, serve_bind, h]
    cases f x with
    | error error => rfl
    | ok value =>
      show M.serve (Program.forEach g xs >>= fun values => pure (value :: values)) s d = _
      rw [serve_bind, ih]
      cases xs.mapM f with
      | error error => rfl
      | ok values => rfl

end

/-! ## 4. Verified calls -/

section

variable (rely : Set L → D → D → Prop) (guard : γ → D → S → Q → Prop) (I : D → Prop)
  (Commits : γ → α → Set L → D → D → Prop) (Raises : γ → ε → D → Prop)

/-- The commit of a finished program does what `Commits` says or raises as `Raises` says. -/
def Finishes (c : γ) (held : Set L) (s : S) (value : α) (d : D) : Prop :=
  ∀ d', rely held d d' → I d' →
    match M.commit c value s d' with
    | .ok d'' => Commits c value held d' d''
    | .error error => Raises c error d'

/-- A program that raised did so as `Raises` says. -/
def Fails (c : γ) (held : Set L) (_ : S) (error : ε) (d : D) : Prop :=
  ∀ d', rely held d d' → I d' → Raises c error d'

def Verified (c : γ) : Prop :=
  ∀ d, I d → M.wp rely (guard c) (Fails rely I Raises c) (M.Finishes rely I Commits Raises c)
    (M.program c) ∅ M.start d

variable {rely guard I Commits Raises}

/-- The serial run of a verified call. -/
theorem Verified.call {c : γ} (h : M.Verified rely guard I Commits Raises c)
    (hrefl : ∀ held d, rely held d d) (hguard : ∀ d s statement, guard c d s statement) {d : D}
    (hd : I d) :
    match M.call d c with
    | .ok (value, d') => ∃ held, Commits c value held d d'
    | .error error => Raises c error d := by
  have hserve := M.wp_serve hrefl hguard (h d hd)
  unfold Store.call
  cases hrun : M.serve (M.program c) M.start d with
  | error error =>
    rw [hrun] at hserve
    obtain ⟨held, s, hfails⟩ := hserve
    exact hfails d (hrefl held d) hd
  | ok result =>
    obtain ⟨value, s⟩ := result
    rw [hrun] at hserve
    obtain ⟨held, hfinishes⟩ := hserve
    have hcommit := hfinishes d (hrefl held d) hd
    cases hd' : M.commit c value s d with
    | error error =>
      rw [hd'] at hcommit
      simpa only [hd', Except.map] using hcommit
    | ok d' =>
      rw [hd'] at hcommit
      simp only [hd', Except.map]
      exact ⟨held, hcommit⟩

variable (Commits Raises) in
/-- What a serial call does to the state. -/
def Serves (t : Transition D γ (Except ε α)) : Prop :=
  match t.output with
  | .ok value => ∃ held, Commits t.input value held t.before t.after
  | .error error => Raises t.input error t.before ∧ t.after = t.before

/-- Serial runs of verified calls. -/
theorem serial_spec (hrefl : ∀ held d, rely held d d)
    (hguard : ∀ c d s statement, guard c d s statement)
    (hcommits : ∀ {c value held d d'}, I d → Commits c value held d d' → I d')
    (hverified : ∀ c, M.Verified rely guard I Commits Raises c) {d : D} (hd : I d) (calls : List γ) :
    I (M.serial.run d calls) ∧
      ∀ t ∈ M.serial.trace d calls, I t.before ∧ Serves Commits Raises t := by
  have hstep : ∀ d c, I d → match M.call d c with
      | .ok (value, d') => ∃ held, Commits c value held d d'
      | .error error => Raises c error d :=
    fun d c hd => (hverified c).call M hrefl (hguard c) hd
  have hkeeps : ∀ d c, I d → I (M.serial.step d c).2 := by
    intro d c hd
    have hcall := hstep d c hd
    simp only [serial]
    split at hcall
    · rename_i value d' hok
      obtain ⟨held, hcommit⟩ := hcall
      simpa only [hok] using hcommits hd hcommit
    · rename_i error herror
      simpa only [herror] using hd
  refine ⟨M.serial.run_invariant hkeeps hd calls, fun t ht => ?_⟩
  obtain ⟨hbefore, hfire⟩ := M.serial.trace_invariant hkeeps hd ht
  refine ⟨hbefore, ?_⟩
  have hcall := hstep t.before t.input hbefore
  rw [hfire]
  simp only [Serves, Machine.fire, serial]
  split at hcall
  · rename_i value d' hok
    simpa only [hok] using hcall
  · rename_i error herror
    simpa only [herror, and_true] using hcall

end

/-! ## 5. Interleaved sessions -/

structure Session (M : Store Q R D S L ε γ α) where
  call : γ
  «local» : S
  program : Program Q R ε α

/-- The committed state, the open sessions and the holder of each lock. -/
structure Config (M : Store Q R D S L ε γ α) where
  shared : D
  sessions : ℕ → Option M.Session
  holder : L → Option ℕ

inductive Input (γ : Type) where
  | «open» (session : ℕ) (call : γ)
  | advance (session : ℕ)

inductive Output (ε γ α : Type) where
  | ignored
  | opened
  | blocked
  | answered
  | committed (call : γ) (value : α)
  | raised (call : γ) (error : ε)

namespace Config

variable {M} (c : M.Config)

/-- Another session than `i` holds the lock. -/
def taken (i : ℕ) (l : L) : Bool := (c.holder l).any fun j => decide (j ≠ i)

def held (i : ℕ) : Set L := {l | c.holder l = some i}

def close (i : ℕ) : M.Config :=
  { c with
    sessions := Function.update c.sessions i none
    holder := fun l => if c.holder l = some i then none else c.holder l }

def answer [DecidableEq L] (i : ℕ) (session : M.Session) (acquired : List L) : M.Config :=
  { c with
    sessions := Function.update c.sessions i (some session)
    holder := fun l => if l ∈ acquired then some i else c.holder l }

end Config

def initial (d : D) : M.Config := ⟨d, fun _ => none, fun _ => none⟩

section

variable [DecidableEq L]

def advance (c : M.Config) (i : ℕ) (session : M.Session) : Output ε γ α × M.Config :=
  match session.program with
  | .ask statement next =>
    match M.exec c.shared (c.taken i) session.local statement with
    | none => (.blocked, c)
    | some (reply, s, acquired) =>
      (.answered, c.answer i ⟨session.call, s, next reply⟩ acquired)
  | .raise error => (.raised session.call error, c.close i)
  | .done value =>
    match M.commit session.call value session.local c.shared with
    | .ok d => (.committed session.call value, { c.close i with shared := d })
    | .error error => (.raised session.call error, c.close i)

/-- Sessions open at any time and take their statements in any order. -/
def machine : Machine M.Config (Input γ) (Output ε γ α) where
  step c input :=
    match input with
    | .«open» i call =>
      match c.sessions i with
      | some _ => (.ignored, c)
      | none => (.opened, c.answer i ⟨call, M.start, M.program call⟩ [])
    | .advance i =>
      match c.sessions i with
      | none => (.ignored, c)
      | some session => M.advance c i session

abbrev Step := Transition M.Config (Input γ) (Output ε γ α)

namespace Config

variable {M} {c : M.Config} {i j : ℕ}

theorem held_answer_self (session : M.Session) (acquired : List L) :
    (c.answer i session acquired).held i = c.held i ∪ {l | l ∈ acquired} := by
  ext l
  show (if l ∈ acquired then some i else c.holder l) = some i ↔ c.holder l = some i ∨ l ∈ acquired
  by_cases hl : l ∈ acquired <;> simp [hl]

/-- A lock that was free does not leave another session. -/
theorem held_answer_of_ne (session : M.Session) {acquired : List L} (hne : j ≠ i)
    (hfree : ∀ l ∈ acquired, c.taken i l = false) :
    (c.answer i session acquired).held j = c.held j := by
  ext l
  show (if l ∈ acquired then some i else c.holder l) = some j ↔ c.holder l = some j
  by_cases hl : l ∈ acquired
  · have hother := hfree l hl
    simp only [hl, if_true, Option.some.injEq]
    refine iff_of_false (Ne.symm hne) fun hj => ?_
    simp [taken, hj, hne] at hother
  · simp [hl]

omit [DecidableEq L] in
theorem held_close_of_ne (hne : j ≠ i) : (c.close i).held j = c.held j := by
  ext l
  show (if c.holder l = some i then none else c.holder l) = some j ↔ c.holder l = some j
  by_cases hl : c.holder l = some i <;> simp [hl, Ne.symm hne]

omit [DecidableEq L] in
theorem held_close_self : (c.close i).held i = ∅ := by
  ext l
  show (if c.holder l = some i then none else c.holder l) = some i ↔ False
  by_cases hl : c.holder l = some i <;> simp [hl]

omit [DecidableEq L] in
theorem held_disjoint (hne : j ≠ i) : Disjoint (c.held i) (c.held j) := by
  rw [Set.disjoint_left]
  intro l hi hj
  exact hne (Option.some.inj (Eq.trans (Eq.symm hj) hi))

end Config

/-! ## 6. Interleaved runs of verified calls -/

variable (rely : Set L → D → D → Prop) (guard : γ → D → S → Q → Prop) (I : D → Prop)
  (Commits : γ → α → Set L → D → D → Prop) (Raises : γ → ε → D → Prop)

/-- The condition on a step: a statement that is answered meets `guard`. -/
def Guarded (t : M.Step) : Prop :=
  ∀ i session statement next, t.input = .advance i → t.before.sessions i = some session →
    session.program = .ask statement next → t.output = .answered →
    guard session.call t.before.shared session.local statement

/-- `Guarded`, computed from the step. -/
def meets (check : γ → D → S → Q → Bool) (t : M.Step) : Bool :=
  match t.input, t.output with
  | .advance i, .answered =>
    match t.before.sessions i with
    | some ⟨call, s, .ask statement _⟩ => check call t.before.shared s statement
    | _ => true
  | _, _ => true

omit [DecidableEq L] in
variable {M guard} in
theorem guarded_of_meets {check : γ → D → S → Q → Bool}
    (hcheck : ∀ call d s statement, check call d s statement = true → guard call d s statement)
    {t : M.Step} (h : M.meets check t = true) : M.Guarded guard t := by
  rintro i ⟨call, s, program⟩ statement next hinput hsession rfl houtput
  simp only [meets, hinput, houtput, hsession] at h
  exact hcheck _ _ _ _ h

/-- What a step does to the committed state. -/
def Respects (t : M.Step) : Prop :=
  match t.output with
  | .committed c value => ∃ held, Commits c value held t.before.shared t.after.shared
  | .raised c error => Raises c error t.before.shared ∧ t.after.shared = t.before.shared
  | _ => t.after.shared = t.before.shared

/-- The invariant of an interleaved run: every open session can go on. -/
structure Coherent (c : M.Config) : Prop where
  shared : I c.shared
  idle : ∀ i, c.sessions i = none → c.held i = ∅
  ready : ∀ i session, c.sessions i = some session →
    M.wp rely (guard session.call) (Fails rely I Raises session.call)
      (M.Finishes rely I Commits Raises session.call) session.program (c.held i) session.local
      c.shared

omit [DecidableEq L] in
theorem coherent_initial {d : D} (hd : I d) :
    M.Coherent rely guard I Commits Raises (M.initial d) where
  shared := hd
  idle i _ := by
    ext l
    simp [initial, Config.held]
  ready _ _ h := by cases h

variable {M rely guard I Commits Raises}

section

variable {c : M.Config} {i : ℕ} (hc : M.Coherent rely guard I Commits Raises c)
include hc

omit [DecidableEq L] in
/-- Closing a session changes nothing for the others. -/
theorem Coherent.close : M.Coherent rely guard I Commits Raises (c.close i) where
  shared := hc.shared
  idle j hj := by
    by_cases hji : j = i
    · subst hji
      exact Config.held_close_self
    · rw [Config.held_close_of_ne hji]
      exact hc.idle j (by simpa [Config.close, hji] using hj)
  ready j session hj := by
    have hji : j ≠ i := by
      rintro rfl
      simp [Config.close] at hj
    rw [Config.held_close_of_ne hji]
    exact hc.ready j session (by simpa [Config.close, hji] using hj)

/-- A session that goes on to `session` with new locks. -/
theorem Coherent.answer {session : M.Session} {acquired : List L}
    (hfree : ∀ l ∈ acquired, c.taken i l = false)
    (hready : M.wp rely (guard session.call) (Fails rely I Raises session.call)
      (M.Finishes rely I Commits Raises session.call) session.program
      (c.held i ∪ {l | l ∈ acquired}) session.local c.shared) :
    M.Coherent rely guard I Commits Raises (c.answer i session acquired) where
  shared := hc.shared
  idle j hj := by
    have hji : j ≠ i := by
      rintro rfl
      simp [Config.answer] at hj
    rw [Config.held_answer_of_ne session hji hfree]
    exact hc.idle j (by simpa [Config.answer, hji] using hj)
  ready j session' hj := by
    by_cases hji : j = i
    · subst hji
      obtain rfl : session = session' := by simpa [Config.answer] using hj
      rw [Config.held_answer_self]
      exact hready
    · rw [Config.held_answer_of_ne session hji hfree]
      exact hc.ready j session' (by simpa [Config.answer, hji] using hj)

omit [DecidableEq L] in
/-- A commit that the others may rely on. -/
theorem Coherent.commit
    (htrans : ∀ held d d' d'', rely held d d' → rely held d' d'' → rely held d d'') {d : D}
    (hd : I d) (hrely : ∀ held, Disjoint (c.held i) held → rely held c.shared d) :
    M.Coherent rely guard I Commits Raises { c.close i with shared := d } where
  shared := hd
  idle j hj := hc.close.idle j hj
  ready j session hj := by
    have hji : j ≠ i := by
      rintro rfl
      simp [Config.close] at hj
    have hready := hc.close.ready j session hj
    show M.wp rely _ _ _ _ ((c.close i).held j) _ _
    refine M.wp_stable htrans ?_ ?_ ?_ hready
    · intro held s error d d' hd' hfails d'' hrely' hI
      exact hfails d'' (htrans _ _ _ _ hd' hrely') hI
    · intro held s value d d' hd' hfinishes d'' hrely' hI
      exact hfinishes d'' (htrans _ _ _ _ hd' hrely') hI
    · rw [Config.held_close_of_ne hji]
      exact hrely _ (Config.held_disjoint hji)

end

section

variable (hrefl : ∀ held d, rely held d d)
  (htrans : ∀ held d d' d'', rely held d d' → rely held d' d'' → rely held d d'')
  (hcommits : ∀ {c value held d d'}, I d → Commits c value held d d' →
    I d' ∧ ∀ held', Disjoint held held' → rely held' d d')
  (hverified : ∀ c, M.Verified rely guard I Commits Raises c)
include hrefl htrans hcommits hverified

/-- One step of a coherent configuration. -/
theorem Coherent.step {c : M.Config} (hc : M.Coherent rely guard I Commits Raises c)
    (input : Input γ) (hguard : M.Guarded guard (M.machine.fire c input)) :
    M.Coherent rely guard I Commits Raises (M.machine.step c input).2 ∧
      M.Respects Commits Raises (M.machine.fire c input) := by
  unfold Respects Machine.fire
  cases input with
  | «open» i call =>
    cases hopen : c.sessions i with
    | some session =>
      simp only [machine, hopen]
      exact ⟨hc, trivial⟩
    | none =>
      simp only [machine, hopen]
      refine ⟨hc.answer (by simp) ?_, rfl⟩
      have hheld : c.held i ∪ {l | l ∈ ([] : List L)} = ∅ := by simp [hc.idle i hopen]
      rw [hheld]
      exact hverified call c.shared hc.shared
  | advance i =>
    cases hopen : c.sessions i with
    | none =>
      simp only [machine, hopen]
      exact ⟨hc, trivial⟩
    | some session =>
      have hready := hc.ready i session hopen
      obtain ⟨call, s, program⟩ := session
      cases program with
      | raise error =>
        simp only [machine, hopen, advance]
        exact ⟨hc.close, hready c.shared (hrefl _ _) hc.shared, rfl⟩
      | done value =>
        have hfinishes := hready c.shared (hrefl _ _) hc.shared
        cases hcommit : M.commit call value s c.shared with
        | error error =>
          rw [hcommit] at hfinishes
          simp only [machine, hopen, advance, hcommit]
          exact ⟨hc.close, hfinishes, rfl⟩
        | ok d =>
          rw [hcommit] at hfinishes
          simp only [machine, hopen, advance, hcommit]
          obtain ⟨hd, hrely⟩ := hcommits hc.shared hfinishes
          exact ⟨hc.commit htrans hd hrely, _, hfinishes⟩
      | ask statement next =>
        cases hexec : M.exec c.shared (c.taken i) s statement with
        | none =>
          simp only [machine, hopen, advance, hexec]
          exact ⟨hc, trivial⟩
        | some answer =>
          obtain ⟨reply, s', acquired⟩ := answer
          have hmeets : guard call c.shared s statement := by
            refine hguard i _ statement next rfl hopen rfl ?_
            simp [Machine.fire, machine, hopen, advance, hexec]
          simp only [machine, hopen, advance, hexec]
          exact ⟨hc.answer (M.exec_free hexec)
            (hready c.shared (hrefl _ _) hmeets _ _ _ _ hexec), rfl⟩

/-- Every step of a run whose statements meet `guard` respects the committed state. -/
theorem trace_spec {c : M.Config} (hc : M.Coherent rely guard I Commits Raises c)
    {inputs : List (Input γ)} (hguarded : ∀ t ∈ M.machine.trace c inputs, M.Guarded guard t) :
    I (M.machine.run c inputs).shared ∧
      ∀ t ∈ M.machine.trace c inputs, I t.before.shared ∧ M.Respects Commits Raises t := by
  induction inputs generalizing c with
  | nil => exact ⟨hc.shared, by simp⟩
  | cons input inputs ih =>
    rw [Machine.trace_cons, List.forall_mem_cons] at hguarded
    obtain ⟨hnext, hrespects⟩ := hc.step hrefl htrans hcommits hverified input hguarded.1
    obtain ⟨hrun, htrace⟩ := ih hnext hguarded.2
    rw [Machine.trace_cons, List.forall_mem_cons]
    exact ⟨hrun, ⟨hc.shared, hrespects⟩, htrace⟩

end

end

end Store

end Lib
