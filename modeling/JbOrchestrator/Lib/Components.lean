import JbOrchestrator.Lib.Coroutines

/-!
# Components — a system of coroutines as a part of a larger one

The statements of the part are statements of the whole, which keeps the state of the part in its own.  A
program of the part that is safe there is safe in the whole (`safe_embed`): what the whole relies on
includes what the part relies on, what the part guarantees is enough for the whole, and what else is known
of the whole is a `frame` that neither of them breaks.
-/

namespace Lib

/-! ## 1. Programs of a part -/

namespace Program

variable {Q Q' : Type} {R : Q → Type} {R' : Q' → Type} {ε ε' α β : Type}

/-- The program with its statements asked of the whole, and what it ends with as a value. -/
def embed (statement : Q → Q') (reply : ∀ q, R' (statement q) → R q) :
    Program Q R ε α → Program Q' R' ε' (Except ε α)
  | done value => done (.ok value)
  | raise error => done (.error error)
  | ask q next => ask (statement q) fun answer => (next (reply q answer)).embed statement reply

/-- `try`: what the program ends with as a value. -/
def outcome : Program Q R ε α → Program Q R ε (Except ε α)
  | done value => done (.ok value)
  | raise error => done (.error error)
  | ask q next => ask q fun answer => (next answer).outcome

end Program

namespace Coroutines

variable {Q : Type} {R : Q → Type} {S ε κ γ α : Type} {M : Coroutines Q R S ε κ γ α}
  {Q' : Type} {R' : Q' → Type} {S' ε' κ' γ' α' : Type} {M' : Coroutines Q' R' S' ε' κ' γ' α'} {β : Type}

/-! ## 2. Parts -/

/-- The whole serves the statements of the part as the part does. -/
structure Part (M : Coroutines Q R S ε κ γ α) (M' : Coroutines Q' R' S' ε' κ' γ' α') where
  statement : Q → Q'
  reply : ∀ q, R' (statement q) → R q
  choice : ∀ q, M'.Choice (statement q) → M.Choice q
  state : S' → S
  serve_reply : ∀ q c s,
    reply q (M'.serve (statement q) c s).1 = (M.serve q (choice q c) (state s)).1
  serve_state : ∀ q c s,
    state (M'.serve (statement q) c s).2 = (M.serve q (choice q c) (state s)).2

section

variable (part : Part M M') {legal : ∀ q, M.Choice q → Prop} {legal' : ∀ q, M'.Choice q → Prop}
  {I : S → Prop} {I' : S' → Prop} {rely guar : S → S → Prop} {rely' guar' : S' → S' → Prop}
  {issue : S → Q → Prop} {issue' : S' → Q' → Prop} {E : ε → S → Prop} {E' : ε' → S' → Prop} {P : β → S → Prop}

/-- What an embedded program ends with. -/
def Embedded (E : ε → S → Prop) (P : β → S → Prop) (frame : S' → Prop) (result : Except ε β) (s : S') :
    Prop :=
  (∀ value, result = .ok value → P value (part.state s)) ∧
    (∀ error, result = .error error → E error (part.state s)) ∧ frame s

theorem safe_embed {frame : S' → Prop} (hI : ∀ s, I' s → I (part.state s))
    (hrely : ∀ s s', rely' s s' → rely (part.state s) (part.state s'))
    (hlegal : ∀ q c, legal' (part.statement q) c → legal q (part.choice q c))
    (hissue : ∀ s q, I' s → frame s → issue (part.state s) q → issue' s (part.statement q))
    (hguar : ∀ q c s, I' s → frame s → issue (part.state s) q →
      guar (part.state s) (part.state (M'.serve (part.statement q) c s).2) →
      guar' s (M'.serve (part.statement q) c s).2 ∧ frame (M'.serve (part.statement q) c s).2)
    (hframe : ∀ s s', rely' s s' → frame s → frame s') {p : Program Q R ε β} {s : S'}
    (h : M.Safe legal I rely guar issue E P p (part.state s)) (hs : frame s) :
    M'.Safe legal' I' rely' guar' issue' E' (Embedded part E P frame)
      (p.embed part.statement part.reply) s := by
  induction p generalizing s with
  | done value =>
    refine ⟨fun value' hvalue => ?_, nofun, hs⟩
    obtain rfl := Except.ok.inj hvalue
    exact h
  | raise error =>
    refine ⟨nofun, fun error' herror => ?_, hs⟩
    obtain rfl := Except.error.inj herror
    exact h
  | ask q next ih =>
    intro s' hs' hrelied
    have hframed := hframe s s' hrelied hs
    obtain ⟨hissued, hnext⟩ := h (part.state s') (hI s' hs') (hrely s s' hrelied)
    refine ⟨hissue s' q hs' hframed hissued, fun c hc => ?_⟩
    obtain ⟨hkept, hsafe⟩ := hnext (part.choice q c) (hlegal q c hc)
    rw [← part.serve_state] at hkept hsafe
    rw [← part.serve_reply] at hsafe
    obtain ⟨hwhole, hframed'⟩ := hguar q c s' hs' hframed hissued hkept
    exact ⟨hwhole, ih _ hsafe hframed'⟩

end

/-! ## 3. Handlers and statements -/

section

variable {legal : ∀ q, M.Choice q → Prop} {I : S → Prop} {rely guar : S → S → Prop}
  {issue : S → Q → Prop} {P : β → S → Prop}

/-- What a handled program ends with. -/
def Handled (E : ε → S → Prop) (P : β → S → Prop) (result : Except ε β) (s : S) : Prop :=
  (∀ value, result = .ok value → P value s) ∧ ∀ error, result = .error error → E error s

theorem safe_outcome {E E' : ε → S → Prop} {p : Program Q R ε β} {s : S}
    (h : M.Safe legal I rely guar issue E P p s) :
    M.Safe legal I rely guar issue E' (Handled E P) p.outcome s := by
  induction p generalizing s with
  | done value =>
    refine ⟨fun value' hvalue => ?_, nofun⟩
    obtain rfl := Except.ok.inj hvalue
    exact h
  | raise error =>
    refine ⟨nofun, fun error' herror => ?_⟩
    obtain rfl := Except.error.inj herror
    exact h
  | ask q next ih =>
    intro s' hs' hrely
    obtain ⟨hissued, hnext⟩ := h s' hs' hrely
    exact ⟨hissued, fun c hc => ⟨(hnext c hc).1, ih _ (hnext c hc).2⟩⟩

/-- A safe program that asks allowed statements only. -/
theorem safe_within {allowed : Q → Prop} {errors : ε → Prop} {E : ε → S → Prop} {p : Program Q R ε β}
    {s : S} (hp : p.Within allowed errors) (h : M.Safe legal I rely guar issue E P p s) :
    M.Safe legal I rely guar (fun s q => issue s q ∧ allowed q) E P p s := by
  induction p generalizing s with
  | done value => exact h
  | raise error => exact h
  | ask q next ih =>
    intro s' hs' hrely
    obtain ⟨hissued, hnext⟩ := h s' hs' hrely
    exact ⟨⟨hissued, hp.1⟩, fun c hc => ⟨(hnext c hc).1, ih _ (hp.2 _) (hnext c hc).2⟩⟩

end

end Coroutines

end Lib
