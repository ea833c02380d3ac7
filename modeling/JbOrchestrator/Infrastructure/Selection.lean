import JbOrchestrator.Workflows.Models

/-!
# Selection — the rows that workers and lease recovery ask for

The `WHERE` clauses of `get_ready_for_update` and `get_expired_for_update`, on a node row joined with
its execution row.
-/

namespace JbOrchestrator.Infrastructure

open Workflows

/-- The filter of `get_ready_for_update`. -/
def readyForUpdate (executorKeys : Option (List String)) (execution : WorkflowExecution)
    (node : NodeExecution) : Bool :=
  decide (node.status = .ready) && decide (execution.status = .running) &&
    executorKeys.all fun keys => decide (node.executorKey ∈ keys)

/-- The filter of `get_expired_for_update`. -/
def expiredForUpdate (changedAt : Instant) (execution : WorkflowExecution)
    (node : NodeExecution) : Bool :=
  decide (node.status = .running) &&
    (node.leaseExpiresAt.any fun expiresAt => decide (expiresAt ≤ changedAt)) &&
    decide (execution.status = .running)

end JbOrchestrator.Infrastructure
