import JbOrchestrator.Lib.Results
import JbOrchestrator.WorkerPresence.Readiness

/-!
# Alerts — the ledger of alerts against the issues an evaluation finds

An evaluation opens an alert for every issue without a row and resolves the ACTIVE alerts of its page
that have no issue.  A row that is RESOLVED already stays so, and ACTIVE alerts beyond the page are
not looked at; but for these two the ACTIVE alerts are the issues.
-/

open Lib

namespace JbOrchestrator.WorkerPresence

open Domain Workflows

/-! ## 1. What of an alert decides -/

/-- The columns that the queries of an evaluation compare. -/
structure Standing where
  occurrence : Occurrence
  id : UUID
  projectId : UUID
  status : WorkerReadinessAlertStatus
  firstDetectedAt : Instant

def WorkerReadinessAlert.standing (alert : WorkerReadinessAlert) : Standing where
  occurrence := alert.toOccurrence
  id := alert.id
  projectId := alert.projectId
  status := alert.status
  firstDetectedAt := alert.firstDetectedAt

/-- What the primary key and the constraint on occurrences promise, and that an alert belongs to the
project of its execution. -/
structure LedgerOk (projectOf : UUID → UUID) (alerts : List WorkerReadinessAlert) : Prop where
  ids_nodup : (alerts.map fun alert => alert.id).Nodup
  occurrences_nodup : (alerts.map fun alert => alert.toOccurrence).Nodup
  project : ∀ alert ∈ alerts, alert.projectId = projectOf alert.workflowExecutionId

theorem listAlerts_standing {alerts alerts' : List WorkerReadinessAlert}
    (h : alerts.map WorkerReadinessAlert.standing = alerts'.map WorkerReadinessAlert.standing)
    (projectId : UUID) (status : Option WorkerReadinessAlertStatus) (limit : ℕ) :
    (listAlerts alerts projectId status limit).map WorkerReadinessAlert.standing =
      (listAlerts alerts' projectId status limit).map WorkerReadinessAlert.standing := by
  let upTo (a b : Standing) : Prop :=
    b.firstDetectedAt < a.firstDetectedAt ∨ (a.firstDetectedAt = b.firstDetectedAt ∧ a.id ≤ b.id)
  have hquery : ∀ rows : List WorkerReadinessAlert,
      (listAlerts rows projectId status limit).map WorkerReadinessAlert.standing =
        ((((rows.map WorkerReadinessAlert.standing).filter fun row => row.projectId = projectId
          ).filter fun row => status.all fun status => row.status = status).insertionSort
            upTo).take limit := by
    intro rows
    rw [listAlerts, List.map_take, List.map_insertionSort WorkerReadinessAlert.upTo upTo
      WorkerReadinessAlert.standing _ fun _ _ _ _ => Iff.rfl, List.filter_map, List.filter_map]
    rfl
  rw [hquery, hquery, h]

theorem mem_of_mem_listAlerts {alerts : List WorkerReadinessAlert} {projectId : UUID}
    {status : Option WorkerReadinessAlertStatus} {limit : ℕ} {alert : WorkerReadinessAlert}
    (h : alert ∈ listAlerts alerts projectId status limit) : alert ∈ alerts := by
  have hmem := List.mem_of_mem_take h
  rw [List.mem_insertionSort] at hmem
  exact List.mem_of_mem_filter (List.mem_of_mem_filter hmem)

theorem getOccurrence_eq_none_iff {alerts : List WorkerReadinessAlert} {occurrence : Occurrence} :
    getOccurrence alerts occurrence = none ↔
      occurrence ∉ alerts.map fun alert => alert.toOccurrence := by
  simp [getOccurrence]

theorem getOccurrence_eq_some {alerts : List WorkerReadinessAlert} {occurrence : Occurrence}
    {alert : WorkerReadinessAlert} (h : getOccurrence alerts occurrence = some alert) :
    alert ∈ alerts ∧ alert.toOccurrence = occurrence :=
  ⟨List.mem_of_find?_eq_some h, by simpa using List.find?_some h⟩

/-! ## 2. The loop over the issues -/

namespace Evaluation

variable (evaluation : Evaluation)

/-- The alerts the loop opens: one for every issue whose occurrence has no row yet. -/
def newAlerts : List WorkerReadinessAlert → List WorkerReadinessIssue → List WorkerReadinessAlert
  | _, [] => []
  | alerts, issue :: issues =>
    match getOccurrence alerts issue.toOccurrence with
    | some _ => newAlerts alerts issues
    | none =>
      evaluation.openAlert issue :: newAlerts (alerts ++ [evaluation.openAlert issue]) issues

variable {evaluation}

theorem mem_newAlerts {alerts : List WorkerReadinessAlert} {issues : List WorkerReadinessIssue}
    {alert : WorkerReadinessAlert} (h : alert ∈ evaluation.newAlerts alerts issues) :
    ∃ issue ∈ issues, alert = evaluation.openAlert issue := by
  induction issues generalizing alerts with
  | nil => cases h
  | cons issue issues ih =>
    rw [newAlerts] at h
    split at h
    · obtain ⟨found, hfound, heq⟩ := ih h
      exact ⟨found, List.mem_cons_of_mem _ hfound, heq⟩
    · rcases List.mem_cons.mp h with rfl | h
      · exact ⟨issue, List.mem_cons_self, rfl⟩
      · obtain ⟨found, hfound, heq⟩ := ih h
        exact ⟨found, List.mem_cons_of_mem _ hfound, heq⟩

/-- Behind the loop every issue has a row. -/
theorem exists_row_of_issue {alerts : List WorkerReadinessAlert}
    {issues : List WorkerReadinessIssue} {issue : WorkerReadinessIssue} (h : issue ∈ issues) :
    ∃ row ∈ alerts ++ evaluation.newAlerts alerts issues,
      row.toOccurrence = issue.toOccurrence := by
  induction issues generalizing alerts with
  | nil => cases h
  | cons first issues ih =>
    rw [newAlerts]
    cases hrow : getOccurrence alerts first.toOccurrence with
    | some row =>
      rcases List.mem_cons.mp h with rfl | h
      · obtain ⟨hmem, heq⟩ := getOccurrence_eq_some hrow
        exact ⟨row, List.mem_append_left _ hmem, heq⟩
      · exact ih h
    | none =>
      rcases List.mem_cons.mp h with rfl | h
      · exact ⟨evaluation.openAlert issue, by simp, rfl⟩
      · obtain ⟨row, hmem, heq⟩ := @ih (alerts ++ [evaluation.openAlert first]) h
        rw [List.append_assoc] at hmem
        exact ⟨row, hmem, heq⟩

theorem newAlerts_congr {alerts alerts' : List WorkerReadinessAlert}
    (h : alerts.map (fun alert => alert.toOccurrence) =
      alerts'.map fun alert => alert.toOccurrence) (issues : List WorkerReadinessIssue) :
    evaluation.newAlerts alerts issues = evaluation.newAlerts alerts' issues := by
  induction issues generalizing alerts alerts' with
  | nil => rfl
  | cons issue issues ih =>
    rw [newAlerts, newAlerts]
    have hiff : getOccurrence alerts issue.toOccurrence = none ↔
        getOccurrence alerts' issue.toOccurrence = none := by
      rw [getOccurrence_eq_none_iff, getOccurrence_eq_none_iff, h]
    cases hrow : getOccurrence alerts issue.toOccurrence with
    | none =>
      rw [hiff.mp hrow]
      simp only [List.cons.injEq, true_and]
      apply ih
      rw [List.map_append, List.map_append, h]
    | some row =>
      cases hrow' : getOccurrence alerts' issue.toOccurrence with
      | none =>
        rw [hiff.mpr hrow'] at hrow
        cases hrow
      | some row' => exact ih h

end Evaluation

theorem Session.add_ok {session session' : Session} {alert : WorkerReadinessAlert}
    (h : session.add alert = .ok session') :
    session'.alerts = session.alerts ++ [alert] ∧
      ∀ row ∈ session.alerts, row.id ≠ alert.id ∧ row.toOccurrence ≠ alert.toOccurrence := by
  unfold Session.add at h
  split at h
  · cases h
  · rename_i hnone
    obtain rfl := Except.ok.inj h
    refine ⟨rfl, fun row hrow => ?_⟩
    rw [← not_or]
    exact fun heq => hnone ⟨row, hrow, heq⟩

theorem Session.save_ok {session session' : Session} {alert : WorkerReadinessAlert}
    (h : session.save alert = .ok session') :
    session'.alerts = put (fun row => row.id) alert session.alerts := by
  unfold Session.save at h
  split at h
  · cases h
  · obtain rfl := Except.ok.inj h
    rfl

theorem WorkerReadinessAlert.escalate_ok {alert alert' : WorkerReadinessAlert} {seconds : ℚ}
    {escalatedAt : Instant} {escalated : Bool}
    (h : alert.escalate seconds escalatedAt = .ok (escalated, alert')) :
    alert'.standing = alert.standing := by
  unfold WorkerReadinessAlert.escalate at h
  split at h
  · cases h
  · split at h
    · cases h
      rfl
    · split at h <;> cases h <;> rfl

/-- A change that keeps identifiers, occurrences and projects keeps the promises of the ledger. -/
theorem LedgerOk.of_map {projectOf : UUID → UUID} {alerts alerts' : List WorkerReadinessAlert}
    {f : Standing → Standing} (hid : ∀ row, (f row).id = row.id)
    (hoccurrence : ∀ row, (f row).occurrence = row.occurrence)
    (hproject : ∀ row, (f row).projectId = row.projectId) (h : LedgerOk projectOf alerts)
    (heq : alerts'.map WorkerReadinessAlert.standing = alerts.map fun row => f row.standing) :
    LedgerOk projectOf alerts' := by
  refine ⟨?_, ?_, ?_⟩
  · have hids := congrArg (List.map Standing.id) heq
    rw [List.map_map, List.map_map] at hids
    have hsame : Standing.id ∘ (fun row : WorkerReadinessAlert => f row.standing) =
        fun row => row.id := by
      funext row
      exact hid row.standing
    rw [hsame] at hids
    exact hids ▸ h.ids_nodup
  · have hoccurrences := congrArg (List.map Standing.occurrence) heq
    rw [List.map_map, List.map_map] at hoccurrences
    have hsame : Standing.occurrence ∘ (fun row : WorkerReadinessAlert => f row.standing) =
        fun row => row.toOccurrence := by
      funext row
      exact hoccurrence row.standing
    rw [hsame] at hoccurrences
    exact hoccurrences ▸ h.occurrences_nodup
  · intro alert halert
    have hmem : alert.standing ∈ alerts.map fun row => f row.standing := by
      rw [← heq]
      exact List.mem_map_of_mem halert
    obtain ⟨row, hrow, hstanding⟩ := List.mem_map.mp hmem
    have hproject' : row.projectId = alert.projectId := by
      rw [← show (f row.standing).projectId = row.projectId from hproject _, hstanding]
      rfl
    have hoccurrence' : row.toOccurrence = alert.toOccurrence := by
      rw [← show (f row.standing).occurrence = row.toOccurrence from hoccurrence _, hstanding]
      rfl
    rw [← hproject', ← hoccurrence']
    exact h.project row hrow

theorem LedgerOk.of_standing {projectOf : UUID → UUID} {alerts alerts' : List WorkerReadinessAlert}
    (h : LedgerOk projectOf alerts)
    (heq : alerts'.map WorkerReadinessAlert.standing = alerts.map WorkerReadinessAlert.standing) :
    LedgerOk projectOf alerts' :=
  h.of_map (f := id) (fun _ => rfl) (fun _ => rfl) (fun _ => rfl) heq

section Issues

variable {projectOf : UUID → UUID} {evaluation : Evaluation} {session session' : Session}

/-- Saving a row under its own identity leaves what decides as it is. -/
theorem save_standing (hok : LedgerOk projectOf session.alerts)
    {alert alert' : WorkerReadinessAlert} (hmem : alert ∈ session.alerts)
    (hstanding : alert'.standing = alert.standing) (h : session.save alert' = .ok session') :
    session'.alerts.map WorkerReadinessAlert.standing =
      session.alerts.map WorkerReadinessAlert.standing := by
  rw [Session.save_ok h]
  exact map_put_of_eq hok.ids_nodup hmem (congrArg Standing.id hstanding).symm hstanding

/-- One issue: a new row when its occurrence has none, otherwise nothing that decides. -/
theorem observeIssue_ok (hok : LedgerOk projectOf session.alerts) {issue : WorkerReadinessIssue}
    (hproject : projectOf issue.workflowExecutionId = evaluation.projectId)
    (h : evaluation.observeIssue session issue = .ok session') :
    LedgerOk projectOf session'.alerts ∧
      session'.alerts.map WorkerReadinessAlert.standing =
        (session.alerts ++ evaluation.newAlerts session.alerts [issue]).map
          WorkerReadinessAlert.standing := by
  unfold Evaluation.observeIssue at h
  rw [Evaluation.newAlerts]
  split at h
  · rename_i hnone
    obtain ⟨added, hadd, h⟩ := bind_ok h
    obtain rfl := Except.ok.inj h
    obtain ⟨halerts, hfresh⟩ := Session.add_ok hadd
    rw [hnone]
    show LedgerOk projectOf added.alerts ∧ added.alerts.map _ = _
    rw [halerts]
    refine ⟨⟨?_, ?_, ?_⟩, rfl⟩
    · rw [List.map_append, List.nodup_append]
      refine ⟨hok.ids_nodup, by simp, ?_⟩
      simp only [List.forall_mem_map, List.mem_singleton, forall_eq]
      exact fun row hrow => (hfresh row hrow).1
    · rw [List.map_append, List.nodup_append]
      refine ⟨hok.occurrences_nodup, by simp, ?_⟩
      simp only [List.forall_mem_map, List.mem_singleton, forall_eq]
      exact fun row hrow => (hfresh row hrow).2
    · intro row hrow
      rcases List.mem_append.mp hrow with hrow | hrow
      · exact hok.project row hrow
      · obtain rfl := List.mem_singleton.mp hrow
        exact hproject.symm
  · rename_i alert hsome
    obtain ⟨hmem, -⟩ := getOccurrence_eq_some hsome
    obtain ⟨⟨escalated, alert'⟩, hescalate, h⟩ := bind_ok h
    obtain ⟨saved, hsave, h⟩ := bind_ok h
    have hstanding : alert'.standing = alert.standing :=
      (WorkerReadinessAlert.escalate_ok hescalate).trans rfl
    have hsaved := save_standing hok hmem hstanding hsave
    have halerts : session'.alerts = saved.alerts := by
      obtain rfl := Except.ok.inj h
      split <;> split <;> rfl
    rw [hsome, halerts]
    refine ⟨hok.of_standing hsaved, ?_⟩
    rw [hsaved]
    show _ = (session.alerts ++ []).map _
    rw [List.append_nil]

theorem newAlerts_cons (alerts : List WorkerReadinessAlert) (issue : WorkerReadinessIssue)
    (issues : List WorkerReadinessIssue) :
    evaluation.newAlerts alerts (issue :: issues) = evaluation.newAlerts alerts [issue] ++
      evaluation.newAlerts (alerts ++ evaluation.newAlerts alerts [issue]) issues := by
  simp only [Evaluation.newAlerts]
  cases getOccurrence alerts issue.toOccurrence with
  | none => rfl
  | some row =>
    show _ = [] ++ evaluation.newAlerts (alerts ++ []) issues
    rw [List.append_nil, List.nil_append]

theorem observeIssues_ok (hok : LedgerOk projectOf session.alerts)
    {issues : List WorkerReadinessIssue}
    (hproject : ∀ issue ∈ issues, projectOf issue.workflowExecutionId = evaluation.projectId)
    (h : evaluation.observeIssues issues session = .ok session') :
    LedgerOk projectOf session'.alerts ∧
      session'.alerts.map WorkerReadinessAlert.standing =
        (session.alerts ++ evaluation.newAlerts session.alerts issues).map
          WorkerReadinessAlert.standing := by
  induction issues generalizing session with
  | nil =>
    obtain rfl := Except.ok.inj h
    refine ⟨hok, ?_⟩
    show _ = (session.alerts ++ []).map _
    rw [List.append_nil]
  | cons issue issues ih =>
    rw [List.forall_mem_cons] at hproject
    obtain ⟨middle, hfirst, h⟩ := bind_ok h
    obtain ⟨hok', hmiddle⟩ := observeIssue_ok hok hproject.1 hfirst
    obtain ⟨hok'', hlast⟩ := ih hok' hproject.2 h
    refine ⟨hok'', ?_⟩
    have hoccurrences : middle.alerts.map (fun alert => alert.toOccurrence) =
        (session.alerts ++ evaluation.newAlerts session.alerts [issue]).map
          fun alert => alert.toOccurrence := by
      have hmap := congrArg (List.map Standing.occurrence) hmiddle
      rwa [List.map_map, List.map_map] at hmap
    rw [hlast, List.map_append, hmiddle, Evaluation.newAlerts_congr hoccurrences,
      newAlerts_cons session.alerts issue issues, ← List.map_append, List.append_assoc]

/-! ## 3. The loop over the active alerts -/

/-- The row as the loop leaves it when `ids` are the alerts without an issue. -/
def Standing.after (ids : List UUID) (row : Standing) : Standing :=
  if row.id ∈ ids then { row with status := .resolved } else row

theorem resolve_standing (alert : WorkerReadinessAlert) (resolvedAt : Instant) :
    (alert.resolve resolvedAt).standing = { alert.standing with status := .resolved } := by
  unfold WorkerReadinessAlert.resolve
  split
  · rename_i hresolved
    rw [WorkerReadinessAlert.standing, hresolved]
  · rfl

theorem resolveAlerts_ok (hids : (session.alerts.map fun alert => alert.id).Nodup)
    {current : List Occurrence} {listed : List WorkerReadinessAlert}
    (hlisted : ∀ alert ∈ listed, alert ∈ session.alerts)
    (hnodup : (listed.map fun alert => alert.id).Nodup)
    (h : evaluation.resolveAlerts current listed session = .ok session') :
    session'.alerts.map WorkerReadinessAlert.standing =
      session.alerts.map fun row => row.standing.after
        ((listed.filter fun alert => alert.toOccurrence ∉ current).map fun alert => alert.id) := by
  induction listed generalizing session with
  | nil =>
    obtain rfl := Except.ok.inj h
    simp [Standing.after]
  | cons alert listed ih =>
    rw [List.forall_mem_cons] at hlisted
    rw [List.map_cons, List.nodup_cons] at hnodup
    obtain ⟨middle, hfirst, h⟩ := bind_ok h
    unfold Evaluation.resolveAlert at hfirst
    split at hfirst
    · rename_i hcurrent
      obtain rfl := Except.ok.inj hfirst
      rw [List.filter_cons_of_neg (by simpa using hcurrent)]
      exact ih hids hlisted.2 hnodup.2 h
    · rename_i hcurrent
      obtain ⟨saved, hsave, hfirst⟩ := bind_ok hfirst
      obtain rfl := Except.ok.inj hfirst
      have hput := Session.save_ok hsave
      have hid : (alert.resolve evaluation.checkedAt).id = alert.id :=
        congrArg Standing.id (resolve_standing alert evaluation.checkedAt)
      have hids' : (saved.alerts.map fun alert => alert.id).Nodup := by
        rw [hput, map_key_put]
        exact hids
      have hlisted' : ∀ other ∈ listed, other ∈ saved.alerts := by
        intro other hother
        rw [hput]
        apply mem_put_of_ne (hlisted.2 other hother)
        rw [hid]
        exact fun heq => hnodup.1 (heq ▸ List.mem_map_of_mem hother)
      refine (ih ?_ ?_ hnodup.2 h).trans ?_
      · exact hids'
      · exact hlisted'
      rw [List.filter_cons_of_pos (by simpa using hcurrent), List.map_cons]
      show saved.alerts.map _ = _
      rw [hput, put, List.map_map]
      apply List.map_congr_left
      intro row hrow
      have hnot : alert.id ∉ (listed.filter fun alert => decide
          (alert.toOccurrence ∉ current)).map fun alert => alert.id := by
        intro hin
        obtain ⟨other, hother, heq⟩ := List.mem_map.mp hin
        exact hnodup.1 (heq ▸ List.mem_map_of_mem (List.mem_of_mem_filter hother))
      by_cases hrow' : row.id = alert.id
      · obtain rfl := eq_of_key hids hrow hlisted.1 hrow'
        simp only [Function.comp_apply, hid, if_true]
        rw [resolve_standing]
        exact (if_neg hnot).trans (if_pos List.mem_cons_self).symm
      · simp only [Function.comp_apply, hid, if_neg hrow']
        simp only [Standing.after, List.mem_cons, show row.standing.id = row.id from rfl, hrow',
          false_or]

end Issues

/-! ## 4. One evaluation -/

/-- The occurrences of the ACTIVE alerts of the project are those of the issues. -/
def Mirrors (alerts : List WorkerReadinessAlert) (projectId : UUID)
    (issues : List WorkerReadinessIssue) : Prop :=
  ∀ occurrence, (∃ alert ∈ alerts, alert.projectId = projectId ∧ alert.status = .active ∧
      alert.toOccurrence = occurrence) ↔
    ∃ issue ∈ issues, issue.toOccurrence = occurrence

/-- No issue meets a RESOLVED alert of its occurrence, and the ACTIVE alerts without an issue are in
the first 500 of those that are ACTIVE when the new ones are there. -/
structure Evaluation.Settles (evaluation : Evaluation) (alerts : List WorkerReadinessAlert)
    (issues : List WorkerReadinessIssue) : Prop where
  no_recurrence : ∀ alert ∈ alerts, alert.status = .resolved →
    ∀ issue ∈ issues, issue.toOccurrence ≠ alert.toOccurrence
  page_covers : ∀ alert ∈ alerts, alert.projectId = evaluation.projectId →
    alert.status = .active → (∀ issue ∈ issues, issue.toOccurrence ≠ alert.toOccurrence) →
      alert ∈ listAlerts (alerts ++ evaluation.newAlerts alerts issues) evaluation.projectId
        (some .active) 500

/-- The issues of an inspection are about executions of the project. -/
theorem inspectProject_issues {projectOf : UUID → UUID} {tables : Tables}
    {alerts : List WorkerReadinessAlert} {projectId : UUID} {staleAfterSeconds : ℚ}
    {checkedAt : Instant} {report : ProjectWorkerReadiness}
    (h : inspectProject projectOf tables alerts projectId staleAfterSeconds checkedAt =
      .ok report) :
    ∀ issue ∈ report.issues, projectOf issue.workflowExecutionId = projectId := by
  unfold inspectProject at h
  split at h
  · cases h
  obtain ⟨coverages, -, h⟩ := bind_ok h
  obtain ⟨statuses, -, h⟩ := bind_ok h
  obtain rfl := Except.ok.inj h
  intro issue hissue
  obtain ⟨⟨execution, node⟩, hready, hissue⟩ := List.mem_filterMap.mp hissue
  rw [List.mem_insertionSort, readyNodes, List.mem_flatMap] at hready
  obtain ⟨execution', hexecution, hnode⟩ := hready
  obtain ⟨node', -, hpair⟩ := List.mem_map.mp hnode
  obtain ⟨rfl, rfl⟩ := Prod.mk.inj hpair
  have hmem := List.mem_of_mem_take hexecution
  rw [List.mem_insertionSort] at hmem
  have hselected : projectOf execution'.id = projectId ∧ execution'.status = .running := by
    simpa using (List.mem_filter.mp hmem).2
  unfold issueOf at hissue
  split at hissue
  · cases hissue
  · split at hissue
    · obtain rfl := Option.some_injective _ hissue
      exact hselected.1
    · cases hissue

section Run

variable {projectOf : UUID → UUID} {evaluation : Evaluation} {tables : Tables}
  {alerts : List WorkerReadinessAlert} {report : ProjectWorkerReadiness}

/-- The rows behind the loop over the issues. -/
abbrev Evaluation.rows (evaluation : Evaluation) (alerts : List WorkerReadinessAlert)
    (issues : List WorkerReadinessIssue) : List WorkerReadinessAlert :=
  alerts ++ evaluation.newAlerts alerts issues

/-- The identifiers of the alerts that the second loop resolves. -/
def Evaluation.resolvedIds (evaluation : Evaluation) (alerts : List WorkerReadinessAlert)
    (issues : List WorkerReadinessIssue) : List UUID :=
  ((listAlerts (evaluation.rows alerts issues) evaluation.projectId (some .active) 500).filter
    fun alert => alert.toOccurrence ∉ issues.map fun issue => issue.toOccurrence).map
      fun alert => alert.id

theorem listAlerts_nodup (hok : LedgerOk projectOf alerts) (projectId : UUID)
    (status : Option WorkerReadinessAlertStatus) (limit : ℕ) :
    ((listAlerts alerts projectId status limit).map fun alert => alert.id).Nodup := by
  have hsorted : ∀ rows : List WorkerReadinessAlert, (rows.map fun alert => alert.id).Nodup →
      ((rows.insertionSort WorkerReadinessAlert.upTo).map fun alert => alert.id).Nodup := by
    intro rows hrows
    exact ((List.perm_insertionSort _ rows).map _).nodup_iff.mpr hrows
  refine (hsorted _ ?_).sublist ((List.take_sublist _ _).map _)
  exact hok.ids_nodup.sublist ((List.filter_sublist.trans List.filter_sublist).map _)

/-- What a committed evaluation leaves, column by column. -/
theorem run_ok (hok : LedgerOk projectOf alerts) (hacquired : evaluation.acquired = true)
    (hreport : inspectProject projectOf tables alerts evaluation.projectId
      evaluation.staleAfterSeconds evaluation.checkedAt = .ok report)
    {final : ProjectWorkerReadiness} {session : Session}
    (hrun : evaluation.run projectOf tables alerts = .ok (final, session)) :
    LedgerOk projectOf (evaluation.rows alerts report.issues) ∧
      session.alerts.map WorkerReadinessAlert.standing =
        (evaluation.rows alerts report.issues).map fun row =>
          row.standing.after (evaluation.resolvedIds alerts report.issues) := by
  unfold Evaluation.run at hrun
  rw [hreport] at hrun
  obtain ⟨report', hreport', hrun⟩ := bind_ok hrun
  obtain rfl := Except.ok.inj hreport'
  rw [if_pos hacquired] at hrun
  obtain ⟨observed, hobserve, hrun⟩ := bind_ok hrun
  obtain ⟨resolved, hresolve, hrun⟩ := bind_ok hrun
  obtain ⟨final', -, hrun⟩ := bind_ok hrun
  obtain ⟨-, rfl⟩ := Prod.mk.inj (Except.ok.inj hrun)
  obtain ⟨hokObserved, hobserved⟩ :=
    observeIssues_ok hok (inspectProject_issues hreport) hobserve
  have hokRows : LedgerOk projectOf (evaluation.rows alerts report.issues) :=
    hokObserved.of_standing hobserved.symm
  refine ⟨hokRows, ?_⟩
  have hlisted : ∀ alert ∈ listAlerts observed.alerts evaluation.projectId (some .active) 500,
      alert ∈ observed.alerts := fun alert halert => mem_of_mem_listAlerts halert
  have hresolved := resolveAlerts_ok hokObserved.ids_nodup hlisted
    (listAlerts_nodup hokObserved _ _ _) hresolve
  have hids : ((listAlerts observed.alerts evaluation.projectId (some .active) 500).filter
      fun alert => decide (alert.toOccurrence ∉ report.issues.map fun issue =>
        issue.toOccurrence)).map (fun alert => alert.id) =
      evaluation.resolvedIds alerts report.issues := by
    have hstanding : ∀ rows : List WorkerReadinessAlert,
        (rows.filter fun alert => decide (alert.toOccurrence ∉ report.issues.map fun issue =>
          issue.toOccurrence)).map (fun alert => alert.id) =
        ((rows.map WorkerReadinessAlert.standing).filter fun row => decide (row.occurrence ∉
          report.issues.map fun issue => issue.toOccurrence)).map Standing.id := by
      intro rows
      rw [List.filter_map, List.map_map]
      rfl
    rw [Evaluation.resolvedIds, hstanding, hstanding, listAlerts_standing hobserved]
  have hafter := congrArg
    (List.map (Standing.after (evaluation.resolvedIds alerts report.issues))) hobserved
  rw [List.map_map, List.map_map] at hafter
  rw [hresolved, hids]
  exact hafter

theorem mem_resolvedIds {issues : List WorkerReadinessIssue}
    (hok : LedgerOk projectOf (evaluation.rows alerts issues)) {row : WorkerReadinessAlert}
    (hrow : row ∈ evaluation.rows alerts issues) :
    row.id ∈ evaluation.resolvedIds alerts issues ↔
      row ∈ listAlerts (evaluation.rows alerts issues) evaluation.projectId (some .active) 500 ∧
        ∀ issue ∈ issues, issue.toOccurrence ≠ row.toOccurrence := by
  unfold Evaluation.resolvedIds
  simp only [List.mem_map, List.mem_filter, decide_eq_true_eq, not_exists, not_and]
  constructor
  · rintro ⟨listed, ⟨hlisted, hstale⟩, hid⟩
    obtain rfl := eq_of_key hok.ids_nodup (mem_of_mem_listAlerts hlisted) hrow hid
    exact ⟨hlisted, hstale⟩
  · rintro ⟨hlisted, hstale⟩
    exact ⟨row, ⟨hlisted, hstale⟩, rfl⟩

/-- A committed evaluation leaves the issues as the ACTIVE alerts exactly when it settles them. -/
theorem mirrors_iff_settles (hok : LedgerOk projectOf alerts)
    (hacquired : evaluation.acquired = true)
    (hreport : inspectProject projectOf tables alerts evaluation.projectId
      evaluation.staleAfterSeconds evaluation.checkedAt = .ok report)
    {final : ProjectWorkerReadiness} {session : Session}
    (hrun : evaluation.run projectOf tables alerts = .ok (final, session)) :
    Mirrors session.alerts evaluation.projectId report.issues ↔
      evaluation.Settles alerts report.issues := by
  obtain ⟨hrows, hstanding⟩ := run_ok hok hacquired hreport hrun
  have hissues := inspectProject_issues hreport
  -- the ACTIVE alerts of the project behind the evaluation, by occurrence
  have hactive : ∀ occurrence, (∃ alert ∈ session.alerts,
      alert.projectId = evaluation.projectId ∧ alert.status = .active ∧
        alert.toOccurrence = occurrence) ↔
      ∃ row ∈ evaluation.rows alerts report.issues, row.projectId = evaluation.projectId ∧
        row.status = .active ∧ row.toOccurrence = occurrence ∧
          row.id ∉ evaluation.resolvedIds alerts report.issues := by
    intro occurrence
    have hleft : (∃ alert ∈ session.alerts, alert.projectId = evaluation.projectId ∧
        alert.status = .active ∧ alert.toOccurrence = occurrence) ↔
        ∃ row ∈ session.alerts.map WorkerReadinessAlert.standing,
          row.projectId = evaluation.projectId ∧ row.status = .active ∧
            row.occurrence = occurrence := by
      simp [WorkerReadinessAlert.standing]
    rw [hleft, hstanding]
    simp only [List.mem_map, exists_exists_and_eq_and, Standing.after]
    apply exists_congr
    intro row
    by_cases hresolved : row.id ∈ evaluation.resolvedIds alerts report.issues
    · rw [if_pos (by exact hresolved)]
      simp [hresolved]
    · rw [if_neg (by exact hresolved)]
      simp [hresolved, WorkerReadinessAlert.standing]
  have hold : ∀ alert ∈ alerts, alert ∈ evaluation.rows alerts report.issues :=
    fun alert halert => List.mem_append_left _ halert
  constructor
  · intro hmirrors
    constructor
    · intro alert halert hresolved issue hissue heq
      obtain ⟨row, hrow, -, hrowActive, hoccurrence, -⟩ :=
        (hactive _).mp ((hmirrors issue.toOccurrence).mpr ⟨issue, hissue, rfl⟩)
      obtain rfl := eq_of_key hrows.occurrences_nodup hrow (hold alert halert)
        (hoccurrence.trans heq)
      rw [hresolved] at hrowActive
      cases hrowActive
    · intro alert halert hproject hstatus hstale
      by_contra hbeyond
      have hkept : alert.id ∉ evaluation.resolvedIds alerts report.issues := by
        rw [mem_resolvedIds hrows (hold alert halert)]
        exact fun h => hbeyond h.1
      obtain ⟨issue, hissue, heq⟩ := (hmirrors alert.toOccurrence).mp
        ((hactive _).mpr ⟨alert, hold alert halert, hproject, hstatus, rfl, hkept⟩)
      exact hstale issue hissue heq
  · intro hsettles occurrence
    rw [hactive]
    constructor
    · rintro ⟨row, hrow, hproject, hstatus, rfl, hkept⟩
      rcases List.mem_append.mp hrow with halert | hnew
      · by_contra hnone
        push Not at hnone
        apply hkept
        rw [mem_resolvedIds hrows hrow]
        exact ⟨hsettles.page_covers row halert hproject hstatus hnone, hnone⟩
      · obtain ⟨issue, hissue, rfl⟩ := Evaluation.mem_newAlerts hnew
        exact ⟨issue, hissue, rfl⟩
    · rintro ⟨issue, hissue, rfl⟩
      obtain ⟨row, hrow, hoccurrence⟩ : ∃ row ∈ evaluation.rows alerts report.issues,
          row.toOccurrence = issue.toOccurrence := Evaluation.exists_row_of_issue hissue
      have hproject : row.projectId = evaluation.projectId := by
        rw [hrows.project row hrow, hoccurrence]
        exact hissues issue hissue
      have hstatus : row.status = .active := by
        rcases List.mem_append.mp hrow with halert | hnew
        · cases hrowStatus : row.status with
          | active => rfl
          | resolved =>
            exact absurd hoccurrence.symm
              (hsettles.no_recurrence row halert hrowStatus issue hissue)
        · obtain ⟨_, -, rfl⟩ := Evaluation.mem_newAlerts hnew
          rfl
      refine ⟨row, hrow, hproject, hstatus, hoccurrence, ?_⟩
      rw [mem_resolvedIds hrows hrow]
      exact fun h => h.2 issue hissue hoccurrence.symm

/-- Every evaluation keeps the promises of the ledger. -/
theorem ledgerOk_of_run (hok : LedgerOk projectOf alerts) {final : ProjectWorkerReadiness}
    {session : Session} (hrun : evaluation.run projectOf tables alerts = .ok (final, session)) :
    LedgerOk projectOf session.alerts := by
  by_cases hacquired : evaluation.acquired = true
  · obtain ⟨report, hreport, -⟩ := bind_ok hrun
    obtain ⟨hrows, hstanding⟩ := run_ok hok hacquired hreport hrun
    refine hrows.of_map ?_ ?_ ?_ hstanding
    all_goals
      intro row
      unfold Standing.after
      split <;> rfl
  · obtain ⟨report, -, hrun⟩ := bind_ok hrun
    rw [if_neg hacquired] at hrun
    obtain ⟨-, rfl⟩ := Prod.mk.inj (Except.ok.inj hrun)
    exact hok

end Run

/-! ## 5. Histories -/

/-- The issues an evaluation finds when it starts. -/
def Evaluation.issues (evaluation : Evaluation) (projectOf : UUID → UUID) (world : World) :
    List WorkerReadinessIssue :=
  match inspectProject projectOf world.tables world.alerts evaluation.projectId
    evaluation.staleAfterSeconds evaluation.checkedAt with
  | .ok report => report.issues
  | .error _ => []

/-- The transition is an evaluation under the lock of its project that committed. -/
def Commits (t : Transition World Happening (Option (Except ReadinessError ProjectWorkerReadiness)))
    (evaluation : Evaluation) : Prop :=
  t.input = .evaluate evaluation ∧ evaluation.acquired = true ∧
    ∃ report, t.output = some (.ok report)

/-- After every committed evaluation the ACTIVE alerts of its project are the issues it found. -/
def MirrorsAlways (projectOf : UUID → UUID) (world : World) (happenings : List Happening) : Prop :=
  ∀ t ∈ (readiness projectOf).trace world happenings, ∀ evaluation, Commits t evaluation →
    Mirrors t.after.alerts evaluation.projectId (evaluation.issues projectOf t.before)

/-- Every committed evaluation settles the issues it found. -/
def SettlesAlways (projectOf : UUID → UUID) (world : World) (happenings : List Happening) : Prop :=
  ∀ t ∈ (readiness projectOf).trace world happenings, ∀ evaluation, Commits t evaluation →
    evaluation.Settles t.before.alerts (evaluation.issues projectOf t.before)

section Step

variable {projectOf : UUID → UUID} {world : World} {evaluation : Evaluation}

theorem step_error {error : ReadinessError}
    (h : evaluation.run projectOf world.tables world.alerts = .error error) :
    World.step projectOf world (.evaluate evaluation) = (some (.error error), world) := by
  simp only [World.step, h]

theorem step_ok {result : ProjectWorkerReadiness × Session}
    (h : evaluation.run projectOf world.tables world.alerts = .ok result) :
    World.step projectOf world (.evaluate evaluation) =
      (some (.ok result.1), {
        tables := evaluation.finalTables
        alerts := result.2.alerts
        events := world.events ++ result.2.events }) := by
  simp only [World.step, h]

end Step

theorem step_ledgerOk {projectOf : UUID → UUID} (world : World) (happening : Happening)
    (hok : LedgerOk projectOf world.alerts) :
    LedgerOk projectOf ((readiness projectOf).step world happening).2.alerts := by
  cases happening with
  | change tables => exact hok
  | evaluate evaluation =>
    show LedgerOk projectOf (World.step projectOf world (.evaluate evaluation)).2.alerts
    cases hrun : evaluation.run projectOf world.tables world.alerts with
    | error error =>
      rw [step_error hrun]
      exact hok
    | ok result =>
      rw [step_ok hrun]
      exact ledgerOk_of_run hok hrun

/-- In every history an occurrence has one alert row at most, and the ACTIVE alerts mirror the issues
exactly when every evaluation settles what it found. -/
theorem alerts_mirror_issues (projectOf : UUID → UUID) (world : World)
    (hok : LedgerOk projectOf world.alerts) (happenings : List Happening) :
    (∀ t ∈ (readiness projectOf).trace world happenings,
      (t.after.alerts.map fun alert => alert.toOccurrence).Nodup) ∧
    (MirrorsAlways projectOf world happenings ↔ SettlesAlways projectOf world happenings) := by
  have hinvariant : ∀ t ∈ (readiness projectOf).trace world happenings,
      LedgerOk projectOf t.before.alerts ∧ t = (readiness projectOf).fire t.before t.input :=
    fun t ht => (readiness projectOf).trace_invariant step_ledgerOk hok ht
  constructor
  · intro t ht
    obtain ⟨hbefore, heq⟩ := hinvariant t ht
    rw [heq]
    exact (step_ledgerOk t.before t.input hbefore).occurrences_nodup
  · refine forall₂_congr fun t ht => forall₂_congr fun evaluation hcommits => ?_
    obtain ⟨hinput, hacquired, final, houtput⟩ := hcommits
    obtain ⟨hbefore, heq⟩ := hinvariant t ht
    rw [hinput] at heq
    rw [heq] at houtput ⊢
    change (World.step projectOf t.before (.evaluate evaluation)).1 = _ at houtput
    show Mirrors (World.step projectOf t.before (.evaluate evaluation)).2.alerts _
      (evaluation.issues projectOf t.before) ↔
        evaluation.Settles t.before.alerts (evaluation.issues projectOf t.before)
    cases hrun : evaluation.run projectOf t.before.tables t.before.alerts with
    | error error =>
      rw [step_error hrun] at houtput
      cases houtput
    | ok result =>
      obtain ⟨report, hreport, -⟩ := bind_ok hrun
      have hissues : evaluation.issues projectOf t.before = report.issues := by
        rw [Evaluation.issues, hreport]
      rw [hissues, step_ok hrun]
      exact mirrors_iff_settles hbefore hacquired hreport hrun

/-! ## 6. A worker that goes, comes back and goes again -/

/-- An execution whose only task is READY since instant 0. -/
def waitingExecution : WorkflowExecution where
  snapshot := {
    entryNode := "work"
    nodes := [
      { key := "work", kind := .task, executorKey := some "openclaw" },
      { key := "done", kind := .terminal, terminalStatus := some .succeeded }]
    edges := [⟨"work", .success, "done", none⟩]
    runId := 7, definitionId := 6, definitionKey := "delivery", definitionVersion := 1 }
  id := 1
  status := .running
  nodes := Dict.ofList NodeExecution.nodeKey id [
    { id := 2
      workflowExecutionId := 1
      nodeKey := "work"
      executorKey := "openclaw"
      status := .ready
      visitCount := 1
      updatedAt := 0 },
    { id := 3, workflowExecutionId := 1, nodeKey := "done", updatedAt := 0 }]
  updatedAt := 0

/-- The execution and one worker that was last seen at the given second. -/
def seenAt (second : ℤ) : Tables where
  projects := [0]
  executions := [waitingExecution]
  workers := [{
    id := 4
    workerId := "worker-openclaw"
    kind := .execution
    capabilities := ["openclaw"]
    lastSeenAt := 1000000 * second }]

def evaluateAt (second : ℤ) (tables : Tables) : Evaluation where
  projectId := 0
  checkedAt := 1000000 * second
  newId := fun _ => 9
  finalTables := tables

/-- Stale at second 100, back at 110, stale again at 210; the task is READY all the time. -/
def flapping : List Happening :=
  [.change (seenAt 0), .evaluate (evaluateAt 100 (seenAt 0)), .change (seenAt 110),
    .evaluate (evaluateAt 110 (seenAt 110)), .evaluate (evaluateAt 210 (seenAt 110))]

theorem emptyLedger_ok (projectOf : UUID → UUID) :
    LedgerOk projectOf ({} : World).alerts :=
  ⟨.nil, .nil, by simp⟩

instance (evaluation : Evaluation) (alerts : List WorkerReadinessAlert)
    (issues : List WorkerReadinessIssue) : Decidable (evaluation.Settles alerts issues) :=
  decidable_of_iff
    ((∀ alert ∈ alerts, alert.status = .resolved →
      ∀ issue ∈ issues, issue.toOccurrence ≠ alert.toOccurrence) ∧
    ∀ alert ∈ alerts, alert.projectId = evaluation.projectId → alert.status = .active →
      (∀ issue ∈ issues, issue.toOccurrence ≠ alert.toOccurrence) →
        alert ∈ listAlerts (alerts ++ evaluation.newAlerts alerts issues) evaluation.projectId
          (some .active) 500)
    ⟨fun h => ⟨h.1, h.2⟩, fun h => ⟨h.no_recurrence, h.page_covers⟩⟩

/-- Until the worker goes again, the alert follows the issue. -/
theorem alerts_mirror_issues_flapping :
    MirrorsAlways (fun _ => 0) {} (flapping.take 4) := by
  apply (alerts_mirror_issues (fun _ => 0) {} (emptyLedger_ok _) (flapping.take 4)).2.mpr
  intro t ht evaluation hcommits
  have hinput := hcommits.1
  simp only [flapping, List.take, Machine.trace_cons, Machine.trace_nil, List.mem_cons,
    List.not_mem_nil, or_false] at ht
  rcases ht with rfl | rfl | rfl | rfl
  · cases hinput
  · obtain rfl := Happening.evaluate.inj hinput
    decide +kernel
  · cases hinput
  · obtain rfl := Happening.evaluate.inj hinput
    decide +kernel

/-- The issue of the last evaluation has an alert, but it stays RESOLVED. -/
theorem recurrence_not_alerted :
    ¬∀ (projectOf : UUID → UUID) (world : World), LedgerOk projectOf world.alerts →
      ∀ happenings, MirrorsAlways projectOf world happenings := by
  intro hclaim
  let before := (readiness fun _ => 0).run {} (flapping.take 4)
  let last := (readiness fun _ => 0).fire before (.evaluate (evaluateAt 210 (seenAt 110)))
  have hlast : last ∈ (readiness fun _ => 0).trace {} flapping := by
    show last ∈ (readiness fun _ => 0).trace {} (flapping.take 4 ++ [_])
    rw [Machine.trace_append]
    exact List.mem_append_right _ List.mem_cons_self
  have hcommits : Commits last (evaluateAt 210 (seenAt 110)) := by
    have hanswered : last.output.any Except.isOk = true := by decide +kernel
    obtain ⟨answer, houtput, hok⟩ := (Option.any_eq_true _ _).mp hanswered
    cases answer with
    | error => cases hok
    | ok report => exact ⟨rfl, rfl, report, houtput⟩
  have hmirrors := hclaim (fun _ => 0) {} (emptyLedger_ok _) flapping last hlast _ hcommits
  have hissue : (evaluateAt 210 (seenAt 110)).issues (fun _ => 0) before ≠ [] := by
    decide +kernel
  obtain ⟨issue, hissue⟩ := List.exists_mem_of_ne_nil _ hissue
  obtain ⟨alert, halert, -, hactive, -⟩ := (hmirrors issue.toOccurrence).mpr ⟨issue, hissue, rfl⟩
  have hresolved : ∀ alert ∈ last.after.alerts, alert.status = .resolved := by decide +kernel
  rw [hresolved alert halert] at hactive
  cases hactive

end JbOrchestrator.WorkerPresence
