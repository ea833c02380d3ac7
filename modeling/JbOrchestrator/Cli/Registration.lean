import JbOrchestrator.Cli.Bundles
import JbOrchestrator.Lib.Results

/-!
# Registration — what a catalog answers for a payload it registered

A value comes back as its constructor and its columns left it.  It is the payload again exactly where
nothing was left to normalize: costs in the normal form their columns keep, capability lists sorted
and without duplicates.
-/

open Lib

namespace JbOrchestrator.Cli

open Workflows WorkerPresence Api

/-! ## 1. What comes back -/

/-- A cost its column answers as it was written. -/
def CostCanonical (cost : Numeral) : Prop :=
  cost.Normal contextPrecision ∧ cost.negative = false ∧ -6 ≤ cost.exponent

def ModelCanonical (model : ModelProfileCreate) : Prop :=
  CostCanonical model.inputCostPerMillion ∧ CostCanonical model.outputCostPerMillion ∧
    model.capabilities.Pairwise (· < ·) ∧ model.executorKeys.Pairwise (· < ·)

def RoutingCanonical (routing : ModelRoutingPayload) : Prop :=
  routing.requiredCapabilities.Pairwise (· < ·) ∧
    ∀ cost ∈ routing.maxCostUsd, cost.Normal contextPrecision

def WorkflowCanonical (workflow : WorkflowDefinitionCreate) : Prop :=
  ∀ node ∈ workflow.nodes, ∀ routing ∈ node.modelRouting, RoutingCanonical routing

theorem sortedSet_pairwise (values : List String) : (sortedSet values).Pairwise (· < ·) := by
  have hle : (sortedSet values).Pairwise (· ≤ ·) := List.pairwise_insertionSort _ _
  have hne : (sortedSet values).Nodup :=
    (List.perm_insertionSort _ _).nodup_iff.mpr (List.nodup_dedup _)
  exact (hle.and hne).imp fun h => lt_of_le_of_ne h.1 h.2

theorem sortedSet_eq_iff {values : List String} :
    sortedSet values = values ↔ values.Pairwise (· < ·) := by
  constructor
  · intro h
    rw [← h]
    exact sortedSet_pairwise values
  · intro h
    have hnodup : values.Nodup := h.imp ne_of_lt
    rw [sortedSet, hnodup.dedup]
    exact List.Pairwise.insertionSort_eq (h.imp le_of_lt)

theorem sortedSet_sortedSet (values : List String) : sortedSet (sortedSet values) = sortedSet values :=
  sortedSet_eq_iff.mpr (sortedSet_pairwise values)

theorem normalizedCost_normalizedCost (cost : Numeral) :
    normalizedCost (normalizedCost cost) = normalizedCost cost :=
  Numeral.normalize_normalize (by decide) cost

theorem str_eq_iff {a b : Numeral} : a.str = b.str ↔ a = b :=
  ⟨Numeral.str_injective, fun h => h ▸ rfl⟩

theorem routing_pyEq_iff (routing : ModelRoutingPayload) :
    routing.normalized.normalized.pyEq routing = true ↔ RoutingCanonical routing := by
  have hcost : (routing.normalized.normalized.maxCostUsd.map Numeral.str =
      routing.maxCostUsd.map Numeral.str) ↔
        ∀ cost ∈ routing.maxCostUsd, cost.Normal contextPrecision := by
    unfold ModelRoutingPayload.normalized
    cases routing.maxCostUsd with
    | none => simp
    | some cost =>
      simp only [Option.map_some, Option.some.injEq, Option.mem_some_iff, forall_eq',
        normalizedCost_normalizedCost, str_eq_iff]
      exact Numeral.normalize_eq_iff (by decide)
  have hcapabilities : routing.normalized.normalized.requiredCapabilities =
      routing.requiredCapabilities ↔ routing.requiredCapabilities.Pairwise (· < ·) := by
    show sortedSet (sortedSet _) = _ ↔ _
    rw [sortedSet_sortedSet]
    exact sortedSet_eq_iff
  unfold ModelRoutingPayload.pyEq RoutingCanonical
  simp only [Bool.and_eq_true, decide_eq_true_eq, hcost, hcapabilities]
  simp [ModelRoutingPayload.normalized]

theorem node_pyEq_iff (node : WorkflowNodePayload) :
    node.normalized.normalized.pyEq node = true ↔
      ∀ routing ∈ node.modelRouting, RoutingCanonical routing := by
  have hrouting : eqOption ModelRoutingPayload.pyEq node.normalized.normalized.modelRouting
      node.modelRouting = true ↔ ∀ routing ∈ node.modelRouting, RoutingCanonical routing := by
    unfold WorkflowNodePayload.normalized
    cases node.modelRouting with
    | none => simp [eqOption]
    | some routing =>
      simp only [Option.map_some, eqOption, Option.mem_some_iff, forall_eq']
      exact routing_pyEq_iff routing
  unfold WorkflowNodePayload.pyEq
  simp only [Bool.and_eq_true, hrouting]
  simp [WorkflowNodePayload.normalized, Json.pyEq_refl]

theorem workflow_contains_iff (workflow : WorkflowDefinitionCreate) :
    workflow.normalized.normalized.contains workflow = true ↔ WorkflowCanonical workflow := by
  have hnodes : workflow.normalized.normalized.nodes.isEqv workflow.nodes
      WorkflowNodePayload.pyEq = true ↔ WorkflowCanonical workflow := by
    show ((workflow.nodes.map _).map _).isEqv _ _ = true ↔ _
    rw [List.map_map, isEqv_map_iff]
    exact forall₂_congr fun node _ => node_pyEq_iff node
  have hedges := isEqv_refl edge_pyEq_refl workflow.edges
  unfold WorkflowDefinitionCreate.contains
  simp only [Bool.and_eq_true, hnodes]
  simp [WorkflowDefinitionCreate.normalized, hedges]

/-- A cost column answers the text of the payload for the canonical costs only. -/
theorem cost_str_iff {cost : Numeral} {units : ℕ}
    (h : (normalizedCost cost).toColumn 18 6 = some units) :
    (normalizedCost (.ofColumn 6 units)).str = cost.str ↔ CostCanonical cost := by
  rw [str_eq_iff]
  exact Numeral.ofColumn_eq_iff (by decide) (by decide) h

theorem model_contains_iff {model : ModelProfileCreate} {record : ModelProfileRecord}
    (h : model.normalized.toRecord = some record) :
    (profileFromRecord record).contains model = true ↔ ModelCanonical model := by
  obtain ⟨input, hinput, h⟩ := Option.bind_eq_some_iff.mp h
  obtain ⟨output, houtput, h⟩ := Option.bind_eq_some_iff.mp h
  obtain rfl := Option.some.inj h
  unfold ModelProfileCreate.contains ModelCanonical
  rw [← cost_str_iff hinput, ← cost_str_iff houtput, ← sortedSet_eq_iff, ← sortedSet_eq_iff]
  simp [profileFromRecord, ModelProfileCreate.normalized, Json.pyEq_refl, sortedSet_sortedSet,
    and_assoc]

/-! ## 2. One catalog -/

/-- What the proofs use of a catalog: its rows are a component of the control plane, a row keeps the
identity of its payload, and it answers what the payload expects exactly where `kept` holds. -/
structure CatalogLaws {α ρ : Type} (catalog : Catalog α ρ) (kept : α → Prop) : Prop where
  rows_setRows : ∀ s rows, catalog.rows (catalog.setRows s rows) = rows
  setRows_setRows : ∀ s rows rows',
    catalog.setRows (catalog.setRows s rows) rows' = catalog.setRows s rows'
  setRows_rows : ∀ s, catalog.setRows s (catalog.rows s) = s
  identity_record : ∀ payload value record, catalog.postInit payload = .ok value →
    catalog.toRecord value = some record → catalog.identity (catalog.fromRecord record) =
      catalog.identity payload ∧ catalog.identity value = catalog.identity payload
  contains_iff : ∀ payload value record, catalog.postInit payload = .ok value →
    catalog.toRecord value = some record →
      (catalog.contains (catalog.fromRecord record) payload = true ↔ kept payload)

theorem ok_of_map {ε α β : Type} {f : α → β} {x : Except ε α} {b : β} (h : f <$> x = .ok b) :
    ∃ a, x = .ok a ∧ f a = b := by
  cases x with
  | error error => cases h
  | ok a => exact ⟨a, rfl, Except.ok.inj h⟩

theorem ok_of_mapError {ε ε' α : Type} {f : ε → ε'} {x : Except ε α} {a : α}
    (h : x.mapError f = .ok a) : x = .ok a := by
  cases x with
  | error error => cases h
  | ok b => exact congrArg _ (Except.ok.inj h)

theorem skill_postInit_eq {skill value : SkillCreate} (h : skill.postInit = .ok value) :
    value = skill := by
  unfold SkillCreate.postInit at h
  simp only [check_bind_eq_ok] at h
  exact (Except.ok.inj h.2.2.2.2.2.2).symm

theorem model_postInit_eq {model value : ModelProfileCreate} (h : model.postInit = .ok value) :
    value = model.normalized := by
  unfold ModelProfileCreate.postInit at h
  simp only [check_bind_eq_ok] at h
  exact (Except.ok.inj h.2.2.2.2.2.2.2).symm

theorem phasePack_postInit_eq {pack value : PhasePackCreate} (h : pack.postInit = .ok value) :
    value = pack := by
  unfold PhasePackCreate.postInit at h
  simp only [check_bind_eq_ok] at h
  exact (Except.ok.inj h.2.2.2.2.2.2.2).symm

theorem workflow_postInit_eq {workflow value : WorkflowDefinitionCreate}
    (h : workflow.postInit = .ok value) : value = workflow.normalized := by
  unfold WorkflowDefinitionCreate.postInit at h
  simp only [check_bind_eq_ok] at h
  exact (Except.ok.inj h.2.2.2.2).symm

theorem skillCatalog_laws : CatalogLaws skillCatalog fun _ => True where
  rows_setRows _ _ := rfl
  setRows_setRows _ _ _ := rfl
  setRows_rows _ := rfl
  identity_record payload value record h hrecord := by
    obtain rfl := skill_postInit_eq h
    obtain rfl := Option.some.inj hrecord
    exact ⟨rfl, rfl⟩
  contains_iff payload value record h hrecord := by
    obtain rfl := skill_postInit_eq h
    obtain rfl := Option.some.inj hrecord
    exact iff_true_intro value.contains_refl

theorem modelCatalog_laws : CatalogLaws modelCatalog ModelCanonical where
  rows_setRows _ _ := rfl
  setRows_setRows _ _ _ := rfl
  setRows_rows _ := rfl
  identity_record payload value record h hrecord := by
    obtain rfl := model_postInit_eq h
    obtain ⟨input, -, hrecord⟩ := Option.bind_eq_some_iff.mp hrecord
    obtain ⟨output, -, hrecord⟩ := Option.bind_eq_some_iff.mp hrecord
    obtain rfl := Option.some.inj hrecord
    exact ⟨rfl, rfl⟩
  contains_iff payload value record h hrecord := by
    obtain rfl := model_postInit_eq h
    exact model_contains_iff hrecord

variable (env : Environment)

theorem phasePackCatalog_postInit_eq {env : Surroundings} {pack value : PhasePackCreate}
    (h : (phasePackCatalog env).postInit pack = .ok value) : value = pack := by
  obtain ⟨checked, hchecked, hrest⟩ := bind_ok h
  obtain ⟨_, -, hvalue⟩ := bind_ok hrest
  rw [← Except.ok.inj hvalue]
  exact phasePack_postInit_eq hchecked

theorem phasePackCatalog_laws (env : Surroundings) :
    CatalogLaws (phasePackCatalog env) fun _ => True where
  rows_setRows _ _ := rfl
  setRows_setRows _ _ _ := rfl
  setRows_rows _ := rfl
  identity_record payload value record h hrecord := by
    obtain rfl := phasePackCatalog_postInit_eq h
    obtain rfl := Option.some.inj hrecord
    exact ⟨rfl, rfl⟩
  contains_iff payload value record h hrecord := by
    obtain rfl := phasePackCatalog_postInit_eq h
    obtain rfl := Option.some.inj hrecord
    exact iff_true_intro (PhasePackCreate.contains_refl _)

theorem workflowCatalog_laws (env : Surroundings) :
    CatalogLaws (workflowCatalog env) WorkflowCanonical where
  rows_setRows _ _ := rfl
  setRows_setRows _ _ _ := rfl
  setRows_rows _ := rfl
  identity_record payload value record h hrecord := by
    obtain rfl := workflow_postInit_eq h
    obtain rfl := Option.some.inj hrecord
    exact ⟨rfl, rfl⟩
  contains_iff payload value record h hrecord := by
    obtain rfl := workflow_postInit_eq h
    obtain rfl := Option.some.inj hrecord
    exact workflow_contains_iff payload

section OneCatalog

variable {α ρ : Type} {catalog : Catalog α ρ} {kept : α → Prop}

theorem get_congr {s t : ControlPlane} (h : catalog.rows s = catalog.rows t)
    (identity : String × ℕ) : catalog.get s identity = catalog.get t identity := by
  unfold Catalog.get
  rw [h]

theorem get_identity {s : ControlPlane} {identity : String × ℕ} {value : α}
    (h : catalog.get s identity = some value) : catalog.identity value = identity := by
  unfold Catalog.get at h
  simpa using List.find?_some h

/-- What is registered stays, and every payload of `values` is there as its row. -/
structure Grown (catalog : Catalog α ρ) (values : List α) (s t : ControlPlane) : Prop where
  stable : ∀ identity value, catalog.get s identity = some value →
    catalog.get t identity = some value
  created : ∀ payload ∈ values,
    ∃ value record, catalog.postInit payload = .ok value ∧ catalog.toRecord value = some record ∧
      catalog.get t (catalog.identity payload) = some (catalog.fromRecord record)

theorem Grown.refl (s : ControlPlane) : Grown catalog [] s s :=
  ⟨fun _ _ h => h, fun _ h => nomatch h⟩

theorem Grown.trans {values values' : List α} {s t u : ControlPlane}
    (h : Grown catalog values s t) (h' : Grown catalog values' t u) :
    Grown catalog (values ++ values') s u where
  stable identity value hvalue := h'.stable identity value (h.stable identity value hvalue)
  created payload hpayload := by
    rcases List.mem_append.mp hpayload with hmem | hmem
    · obtain ⟨value, record, hvalue, hrecord, hget⟩ := h.created payload hmem
      exact ⟨value, record, hvalue, hrecord, h'.stable _ _ hget⟩
    · exact h'.created payload hmem

theorem Grown.congr {values : List α} {s s' t t' : ControlPlane} (h : Grown catalog values s t)
    (hs : catalog.rows s = catalog.rows s') (ht : catalog.rows t = catalog.rows t') :
    Grown catalog values s' t' where
  stable identity value hvalue := by
    rw [← get_congr ht]
    apply h.stable
    rw [get_congr hs]
    exact hvalue
  created payload hpayload := by
    obtain ⟨value, record, hvalue, hrecord, hget⟩ := h.created payload hpayload
    exact ⟨value, record, hvalue, hrecord, (get_congr ht _).symm.trans hget⟩

theorem register_ok (laws : CatalogLaws catalog kept) {s t : ControlPlane} {payload : α}
    (h : catalog.register s payload = .ok t) :
    catalog.get s (catalog.identity payload) = none ∧
      ∃ value record, catalog.postInit payload = .ok value ∧ catalog.toRecord value = some record ∧
        t = catalog.setRows s (catalog.rows s ++ [record]) := by
  obtain ⟨value, hvalue, h⟩ := bind_ok h
  have hvalue := ok_of_mapError hvalue
  split at h
  · cases h
  · rename_i hfree
    obtain ⟨_, _, h⟩ := bind_ok h
    cases hrecord : catalog.toRecord value with
    | none =>
      rw [hrecord] at h
      cases h
    | some record =>
      rw [hrecord] at h
      have hidentity := (laws.identity_record payload value record hvalue hrecord).2
      rw [hidentity, Option.isSome_iff_ne_none, not_not] at hfree
      exact ⟨hfree, value, record, hvalue, hrecord, (Except.ok.inj h).symm⟩

theorem get_append (laws : CatalogLaws catalog kept) (s : ControlPlane) (record : ρ)
    (identity : String × ℕ) :
    catalog.get (catalog.setRows s (catalog.rows s ++ [record])) identity =
      (catalog.get s identity).or
        (if catalog.identity (catalog.fromRecord record) = identity then
          some (catalog.fromRecord record) else none) := by
  unfold Catalog.get
  rw [laws.rows_setRows, List.map_append, List.find?_append]
  congr 1
  by_cases h : catalog.identity (catalog.fromRecord record) = identity
  · simp [h]
  · simp [h]

theorem register_grown (laws : CatalogLaws catalog kept) {s t : ControlPlane} {payload : α}
    (h : catalog.register s payload = .ok t) : Grown catalog [payload] s t := by
  obtain ⟨hfree, value, record, hvalue, hrecord, rfl⟩ := register_ok laws h
  have hidentity := (laws.identity_record payload value record hvalue hrecord).1
  constructor
  · intro identity found hfound
    rw [get_append laws, hfound, Option.some_or]
  · intro p hp
    rw [List.mem_singleton.mp hp]
    refine ⟨value, record, hvalue, hrecord, ?_⟩
    rw [get_append laws, hfree, Option.none_or, if_pos hidentity]

/-! ## 3. Requests -/

theorem client_bind_ok {β γ : Type} {x : Client β} {f : β → Client γ} {session session' : Session}
    {c : γ} (h : (x >>= f) session = .ok c session') :
    ∃ b middle, x session = .ok b middle ∧ f b middle = .ok c session' := by
  have hbind : (x >>= f) session = EStateM.bind x f session := rfl
  rw [hbind, EStateM.bind] at h
  cases hx : x session with
  | error error middle =>
    rw [hx] at h
    cases h
  | ok b middle =>
    rw [hx] at h
    exact ⟨b, middle, rfl, h⟩

theorem client_bind_of_ok {β γ : Type} {x : Client β} (f : β → Client γ)
    {session middle : Session} {b : β} (h : x session = .ok b middle) :
    (x >>= f) session = f b middle := by
  have hbind : (x >>= f) session = EStateM.bind x f session := rfl
  rw [hbind, EStateM.bind, h]

theorem send_ok {β : Type} {write : WriteRequest}
    {handler : ControlPlane → Except ProblemDetail (β × ControlPlane)} {session session' : Session}
    {answer : β} (h : send env write handler session = .ok answer session') :
    handler session.server = .ok (answer, session'.server) := by
  unfold send at h
  dsimp only at h
  split at h
  · cases h
  · split at h
    · cases h
    · rename_i answer' server hhandler
      cases h
      exact hhandler

theorem postCatalog_ok {payload : α} {session session' : Session}
    (h : postCatalog env catalog payload session = .ok () session') :
    catalog.register session.server payload = .ok session'.server := by
  obtain ⟨server, hregister, hserver⟩ := ok_of_map (send_ok env h)
  rw [hregister, ← (Prod.mk.inj hserver).2]

/-- The payloads of the loop that the plan wants to create. -/
def toCreate (catalog : Catalog α ρ) (plan : BundlePlan) (values : List α) : List α :=
  values.filter fun value => plan.actionOf (catalogResource catalog value) = some .create

/-- The loop changes the rows of its own catalog only. -/
theorem createAll_ok (laws : CatalogLaws catalog kept) {plan : BundlePlan} {values : List α}
    {session session' : Session} (h : createAll env catalog plan values session = .ok () session') :
    Grown catalog (toCreate catalog plan values) session.server session'.server ∧
      ∃ rows, session'.server = catalog.setRows session.server rows := by
  induction values generalizing session with
  | nil =>
    cases h
    exact ⟨Grown.refl _, _, (laws.setRows_rows _).symm⟩
  | cons value values ih =>
    rw [createAll] at h
    by_cases hcreate : plan.actionOf (catalogResource catalog value) = some .create
    · rw [if_pos hcreate] at h
      obtain ⟨_, middle, hfirst, hrest⟩ := client_bind_ok h
      obtain ⟨hgrown, rows, hrows⟩ := ih hrest
      have hregister := postCatalog_ok env hfirst
      have hlist : toCreate catalog plan (value :: values) =
          [value] ++ toCreate catalog plan values := by
        simp [toCreate, hcreate]
      rw [hlist]
      constructor
      · exact (register_grown laws hregister).trans hgrown
      · obtain ⟨-, _, record, -, -, hmiddle⟩ := register_ok laws hregister
        use rows
        rw [hrows, hmiddle, laws.setRows_setRows]
    · rw [if_neg hcreate] at h
      have hlist : toCreate catalog plan (value :: values) = toCreate catalog plan values := by
        simp [toCreate, hcreate]
      rw [hlist]
      exact ih h

end OneCatalog

end JbOrchestrator.Cli
