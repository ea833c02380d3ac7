import JbOrchestrator.Application.Records
import JbOrchestrator.Infrastructure.Events
import JbOrchestrator.Lib.Machine
import JbOrchestrator.Lib.Results

/-!
# EventStreams — streams that resume behind the last delivered event

An event gets its sequence number when its row is inserted and becomes visible when its transaction
commits.  A stream polls the visible events behind its cursor and moves the cursor over every event
it yields.  It loses the events of transactions that were still open when a page with a greater
sequence number was read.
-/

open Lib

namespace JbOrchestrator.Api

open Infrastructure Application

variable {β : Type}

/-! ## 1. Polls -/

/-- `external_execution_event_stream` and `project_event_stream`.  The tables of a project are those
at the end of the run: owner columns do not change, and the row of an aggregate is committed no
later than its events. -/
inductive Stream where
  | externalExecutions
  | project (tables : Tables) (projectId : UUID)

/-- The limit that `list_events` has by default. -/
def pageLimit : ℕ := 100

/-- `events.get` of a cursor. -/
def cursorEvent (committed : List (EventRecord β)) :
    Option UUID → Except ServiceError (Option (EventRecord β))
  | none => .ok none
  | some id =>
    match committed.find? (·.id = id) with
    | none => .error (notFound "event cursor" id)
    | some event => .ok (some event)

/-- `_require_project`. -/
def Stream.requireProject : Stream → Except ServiceError Unit
  | .externalExecutions => .ok ()
  | .project tables projectId =>
    if tables.projects projectId then .ok () else .error (notFound "project" projectId)

def Stream.list (stream : Stream) (committed : List (EventRecord β))
    (after : Option (EventRecord β)) : List (EventRecord β) :=
  match stream with
  | .externalExecutions => listAfter committed "external_execution" after pageLimit
  | .project tables projectId => listProjectAfter tables committed projectId after pageLimit

/-- `list_events` of `ExternalExecutionService` and of `ProjectObservationService`. -/
def Stream.listEvents (stream : Stream) (committed : List (EventRecord β))
    (cursor : Option UUID) : Except ServiceError (List (EventRecord β)) := do
  stream.requireProject
  let after ← cursorEvent committed cursor
  .ok (stream.list committed after)

/-! ## 2. Transactions and the stream -/

structure World (β : Type) where
  /-- The next value of the sequence. -/
  next : ℕ := 1
  /-- The rows that are inserted and not committed, with their transaction. -/
  pending : List (ℕ × EventRecord β) := []
  committed : List (EventRecord β) := []
  cursor : Option UUID
  /-- The events of the last poll that are not yielded yet. -/
  page : List (EventRecord β) := []
  /-- A history variable: the events that were pending at that poll. -/
  pendingAtPoll : List (EventRecord β) := []
  yielded : List (EventRecord β) := []

inductive Happening (β : Type) where
  | append (transaction : ℕ) (id : UUID) (aggregateType : String) (aggregateId : UUID) (body : β)
  | commit (transaction : ℕ)
  | rollback (transaction : ℕ)
  /-- The stream has yielded its page, or a client has connected, and events are listed. -/
  | poll
  | yield
  /-- The client is gone and will resume behind the last event it got. -/
  | disconnect

namespace World

/-- All rows, visible or not. -/
def rows (world : World β) : List (EventRecord β) := world.pending.map Prod.snd ++ world.committed

/-- An insert; the identifiers of events are unique. -/
def append (world : World β) (transaction : ℕ) (id : UUID) (aggregateType : String)
    (aggregateId : UUID) (body : β) : World β :=
  if id ∈ world.rows.map (·.id) then world
  else { world with
    next := world.next + 1
    pending := world.pending ++
      [(transaction, ⟨world.next, id, aggregateType, aggregateId, body⟩)] }

def commit (world : World β) (transaction : ℕ) : World β :=
  { world with
    pending := world.pending.filter (·.1 ≠ transaction)
    committed := world.committed ++
      (world.pending.filter (·.1 = transaction)).map Prod.snd }

def rollback (world : World β) (transaction : ℕ) : World β :=
  { world with pending := world.pending.filter (·.1 ≠ transaction) }

def poll (stream : Stream) (world : World β) : World β :=
  if world.page ≠ [] then world
  else
    match stream.listEvents world.committed world.cursor with
    | .error _ => world
    | .ok events =>
      { world with page := events, pendingAtPoll := world.pending.map Prod.snd }

def yield (world : World β) : World β :=
  match world.page with
  | [] => world
  | event :: page =>
    { world with cursor := some event.id, page := page, yielded := world.yielded ++ [event] }

def disconnect (world : World β) : World β := { world with page := [] }

def step (stream : Stream) (world : World β) : Happening β → World β
  | .append transaction id aggregateType aggregateId body =>
    world.append transaction id aggregateType aggregateId body
  | .commit transaction => world.commit transaction
  | .rollback transaction => world.rollback transaction
  | .poll => world.poll stream
  | .yield => world.yield
  | .disconnect => world.disconnect

end World

def streaming (stream : Stream) : Machine (World β) (Happening β) Unit where
  step world happening := ((), world.step stream happening)

/-! ## 3. Delivery -/

/-- The `WHERE` clause of the query. -/
def Stream.selects : Stream → EventRecord β → Bool
  | .externalExecutions, event => event.aggregateType = "external_execution"
  | .project tables projectId, event => ofProject tables projectId event

/-- The event is about an external execution, or about a resource of the project. -/
def Stream.Concerns : Stream → EventRecord β → Prop
  | .externalExecutions, event => event.aggregateType = "external_execution"
  | .project tables projectId, event => BelongsTo tables projectId event

def Stream.ForeignKeys : Stream → Prop
  | .externalExecutions => True
  | .project tables _ => tables.ForeignKeys

/-- The event stands behind the cursor. -/
def Behind (committed : List (EventRecord β)) (cursor : Option UUID) (event : EventRecord β) :
    Prop :=
  ∀ id ∈ cursor, ∃ at_ ∈ committed, at_.id = id ∧ at_.sequence < event.sequence

/-- All transactions have finished, and the poll after the last page answers nothing. -/
def Settled (stream : Stream) (world : World β) : Prop :=
  world.pending = [] ∧ world.page = [] ∧
    stream.listEvents world.committed world.cursor = .ok []

/-- Exactly the events of the stream behind the initial cursor are yielded, each once. -/
def Delivered (stream : Stream) (start : Option UUID) (world : World β) : Prop :=
  world.yielded.Nodup ∧ ∀ event, event ∈ world.yielded ↔
    event ∈ world.committed ∧ stream.Concerns event ∧ Behind world.committed start event

/-- The transition yields an event from a page that was read while a transaction was open that
committed an event of the stream with a smaller sequence number in the end. -/
def Overtakes (stream : Stream) (final : World β)
    (t : Transition (World β) (Happening β) Unit) : Prop :=
  t.input = .yield ∧ ∃ event ∈ t.before.page.head?, ∃ passed ∈ t.before.pendingAtPoll,
    stream.selects passed = true ∧ Behind t.before.committed t.before.cursor passed ∧
      passed.sequence < event.sequence ∧ passed ∈ final.committed

/-! ## 4. What a poll reads -/

/-- The project of the stream is registered. -/
def Stream.Ready : Stream → Prop
  | .externalExecutions => True
  | .project tables projectId => tables.projects projectId = true

theorem Stream.concerns_of_selects {stream : Stream} (hkeys : stream.ForeignKeys)
    (hready : stream.Ready) {event : EventRecord β} (h : stream.selects event = true) :
    stream.Concerns event := by
  cases stream with
  | externalExecutions =>
    simp only [Stream.selects, decide_eq_true_eq] at h
    exact h
  | project tables projectId => exact ((ofProject_iff hkeys hready event).mp h).1

theorem Stream.ready_of_requireProject {stream : Stream}
    (h : stream.requireProject = .ok ()) : stream.Ready := by
  cases stream with
  | externalExecutions => trivial
  | project tables projectId =>
    simp only [Stream.requireProject] at h
    split at h
    · assumption
    · cases h

theorem Stream.list_eq (stream : Stream) (committed : List (EventRecord β))
    (after : Option (EventRecord β)) :
    stream.list committed after = selectEvents stream.selects after pageLimit committed := by
  cases stream <;> rfl

theorem Stream.listEvents_ok {stream : Stream} {committed events : List (EventRecord β)}
    {cursor : Option UUID} (h : stream.listEvents committed cursor = .ok events) :
    stream.Ready ∧ ∃ after, cursorEvent committed cursor = .ok after ∧
      events = selectEvents stream.selects after pageLimit committed := by
  obtain ⟨_, hproject, h⟩ := bind_ok h
  obtain ⟨after, hafter, h⟩ := bind_ok h
  exact ⟨stream.ready_of_requireProject hproject, after, hafter,
    (Except.ok.inj h).symm.trans (stream.list_eq committed after)⟩

theorem eq_of_id {rows : List (EventRecord β)} (hids : (rows.map (·.id)).Nodup)
    {e e' : EventRecord β} (he : e ∈ rows) (he' : e' ∈ rows) (h : e.id = e'.id) : e = e' :=
  List.inj_on_of_nodup_map hids he he' h

theorem behind_iff {committed : List (EventRecord β)} (hids : (committed.map (·.id)).Nodup)
    {cursor : Option UUID} {after : Option (EventRecord β)}
    (h : cursorEvent committed cursor = .ok after) (event : EventRecord β) :
    Behind committed cursor event ↔
      isBehind EventRecord.sequence (after.map (·.sequence)) event = true := by
  cases cursor with
  | none =>
    obtain rfl := Except.ok.inj h
    simp [Behind, isBehind]
  | some id =>
    simp only [cursorEvent] at h
    split at h
    · cases h
    · rename_i found hfind
      obtain rfl := Except.ok.inj h
      have hmem := List.mem_of_find?_eq_some hfind
      have hid : found.id = id := by simpa using List.find?_some hfind
      constructor
      · intro hbehind
        obtain ⟨at_, hat, hatid, hlt⟩ := hbehind id rfl
        rw [eq_of_id hids hat hmem (hatid.trans hid.symm)] at hlt
        simpa [isBehind] using hlt
      · intro hlt id' hid'
        obtain rfl := Option.some.inj hid'
        exact ⟨found, hmem, hid, by simpa [isBehind] using hlt⟩

theorem Behind.mono {committed committed' : List (EventRecord β)} {cursor : Option UUID}
    {event : EventRecord β} (h : Behind committed cursor event) (hsub : committed ⊆ committed') :
    Behind committed' cursor event := by
  intro id hid
  obtain ⟨at_, hat, hatid, hlt⟩ := h id hid
  exact ⟨at_, hsub hat, hatid, hlt⟩

/-- A cursor that is visible stays where it is. -/
theorem Behind.back {committed committed' : List (EventRecord β)}
    (hids : (committed'.map (·.id)).Nodup) (hsub : committed ⊆ committed')
    {cursor : Option UUID} {event event' : EventRecord β} (h : Behind committed' cursor event)
    (hvisible : Behind committed cursor event') : Behind committed cursor event := by
  intro id hid
  obtain ⟨at_, hat, hatid, -⟩ := hvisible id hid
  obtain ⟨at', hat', hatid', hlt⟩ := h id hid
  rw [eq_of_id hids hat' (hsub hat) (hatid'.trans hatid.symm)] at hlt
  exact ⟨at_, hat, hatid, hlt⟩

theorem Behind.trans {committed : List (EventRecord β)} {cursor : Option UUID}
    {event event' : EventRecord β} (h : Behind committed cursor event)
    (hlt : event.sequence < event'.sequence) : Behind committed cursor event' := by
  intro id hid
  obtain ⟨at_, hat, hatid, hat_lt⟩ := h id hid
  exact ⟨at_, hat, hatid, hat_lt.trans hlt⟩

/-! ## 5. The invariant -/

structure Inv (stream : Stream) (start : Option UUID) (world : World β) : Prop where
  ids : (world.rows.map (·.id)).Nodup
  sequences : (world.rows.map (·.sequence)).Nodup
  next : ∀ row ∈ world.rows, row.sequence < world.next
  page : ∀ event ∈ world.page, event ∈ world.committed ∧ stream.selects event = true ∧
    stream.Concerns event ∧ Behind world.committed world.cursor event
  pageSorted : world.page.Pairwise (·.sequence < ·.sequence)
  /-- What is missing from the page was pending when the page was read. -/
  pageClosed : ∀ event ∈ world.page, ∀ row ∈ world.rows, stream.selects row = true →
    Behind world.committed world.cursor row → row.sequence < event.sequence →
    row ∈ world.page ∨ row ∈ world.pendingAtPoll
  yielded : ∀ event ∈ world.yielded, event ∈ world.committed ∧ stream.selects event = true ∧
    stream.Concerns event ∧ Behind world.committed start event
  yieldedSorted : world.yielded.Pairwise (·.sequence < ·.sequence)
  cursor : world.cursor = (world.yielded.getLast?.map (·.id)).or start

namespace Inv

variable {stream : Stream} {start : Option UUID} {world : World β}

theorem committed_ids (h : Inv stream start world) : (world.committed.map (·.id)).Nodup := by
  have hids := h.ids
  rw [World.rows, List.map_append] at hids
  exact (List.nodup_append.mp hids).2.1

theorem committed_sequences (h : Inv stream start world) :
    (world.committed.map (·.sequence)).Nodup := by
  have hsequences := h.sequences
  rw [World.rows, List.map_append] at hsequences
  exact (List.nodup_append.mp hsequences).2.1

theorem initial (stream : Stream) (start : Option UUID) :
    Inv stream start ({ cursor := start } : World β) where
  ids := List.nodup_nil
  sequences := List.nodup_nil
  next _ hrow := absurd hrow List.not_mem_nil
  page _ hevent := absurd hevent List.not_mem_nil
  pageSorted := .nil
  pageClosed _ hevent := absurd hevent List.not_mem_nil
  yielded _ hevent := absurd hevent List.not_mem_nil
  yieldedSorted := .nil
  cursor := rfl

/-- The rows may change where the new ones have greater numbers and nothing visible goes. -/
theorem of_rows (h : Inv stream start world) {world' : World β}
    (hids : (world'.rows.map (·.id)).Nodup) (hsequences : (world'.rows.map (·.sequence)).Nodup)
    (hnext : ∀ row ∈ world'.rows, row.sequence < world'.next)
    (hcommitted : world.committed ⊆ world'.committed)
    (hrows : ∀ row ∈ world'.rows, row ∈ world.rows ∨ world.next ≤ row.sequence)
    (hstream : world'.cursor = world.cursor ∧ world'.page = world.page ∧
      world'.pendingAtPoll = world.pendingAtPoll ∧ world'.yielded = world.yielded) :
    Inv stream start world' := by
  obtain ⟨hcursor, hpage, hpending, hyielded⟩ := hstream
  have hids' : (world'.committed.map (·.id)).Nodup := by
    rw [World.rows, List.map_append] at hids
    exact (List.nodup_append.mp hids).2.1
  refine ⟨hids, hsequences, hnext, ?_, ?_, ?_, ?_, ?_, ?_⟩
  · intro event hevent
    rw [hpage] at hevent
    obtain ⟨hmem, hselects, hconcerns, hbehind⟩ := h.page event hevent
    exact ⟨hcommitted hmem, hselects, hconcerns, hcursor ▸ hbehind.mono hcommitted⟩
  · rw [hpage]
    exact h.pageSorted
  · intro event hevent row hrow hselects hbehind hlt
    rw [hpage] at hevent ⊢
    rw [hpending]
    rw [hcursor] at hbehind
    obtain ⟨hmem, -, -, hevent_behind⟩ := h.page event hevent
    rcases hrows row hrow with hold | hnew
    · exact h.pageClosed event hevent row hold hselects
        (hbehind.back hids' hcommitted hevent_behind) hlt
    · have := h.next event (List.mem_append_right _ hmem)
      omega
  · intro event hevent
    rw [hyielded] at hevent
    obtain ⟨hmem, hselects, hconcerns, hbehind⟩ := h.yielded event hevent
    exact ⟨hcommitted hmem, hselects, hconcerns, hbehind.mono hcommitted⟩
  · rw [hyielded]
    exact h.yieldedSorted
  · rw [hcursor, hyielded]
    exact h.cursor

theorem append (h : Inv stream start world) (transaction : ℕ) (id : UUID) (aggregateType : String)
    (aggregateId : UUID) (body : β) :
    Inv stream start (world.append transaction id aggregateType aggregateId body) := by
  unfold World.append
  split
  · exact h
  · rename_i hfresh
    let row : EventRecord β := ⟨world.next, id, aggregateType, aggregateId, body⟩
    have hrows : ((world.pending ++ [(transaction, row)]).map Prod.snd ++ world.committed).Perm
        (row :: world.rows) := by
      rw [List.map_append, List.append_assoc]
      exact List.perm_middle
    have hnumber : world.next ∉ world.rows.map (·.sequence) := by
      intro hmem
      obtain ⟨old, hold, heq⟩ := List.mem_map.mp hmem
      have := h.next old hold
      omega
    apply h.of_rows
    · exact (hrows.map _).nodup_iff.mpr (List.nodup_cons.mpr ⟨hfresh, h.ids⟩)
    · exact (hrows.map _).nodup_iff.mpr (List.nodup_cons.mpr ⟨hnumber, h.sequences⟩)
    · intro r hr
      show r.sequence < world.next + 1
      rcases List.mem_cons.mp (hrows.subset hr) with rfl | hold
      · exact Nat.lt_succ_self _
      · exact (h.next r hold).trans (Nat.lt_succ_self _)
    · exact List.Subset.refl _
    · intro r hr
      rcases List.mem_cons.mp (hrows.subset hr) with rfl | hold
      · exact .inr le_rfl
      · exact .inl hold
    · exact ⟨rfl, rfl, rfl, rfl⟩

theorem commit_rows (world : World β) (transaction : ℕ) :
    (world.commit transaction).rows.Perm world.rows := by
  have hsplit := List.filter_append_perm
    (fun entry : ℕ × EventRecord β => decide (entry.1 = transaction)) world.pending
  have hswap := (List.perm_append_comm.trans hsplit).map Prod.snd
  rw [List.map_append] at hswap
  have hrows : (world.commit transaction).rows.Perm
      ((((world.pending.filter fun entry => !decide (entry.1 = transaction)).map Prod.snd) ++
        (world.pending.filter fun entry => decide (entry.1 = transaction)).map Prod.snd) ++
        world.committed) := by
    rw [List.append_assoc]
    simp only [World.rows, World.commit, ne_eq, decide_not]
    exact List.perm_append_comm.append_left _
  exact hrows.trans (hswap.append_right _)

theorem commit (h : Inv stream start world) (transaction : ℕ) :
    Inv stream start (world.commit transaction) := by
  have hrows := commit_rows world transaction
  apply h.of_rows
  · exact (hrows.map _).nodup_iff.mpr h.ids
  · exact (hrows.map _).nodup_iff.mpr h.sequences
  · exact fun row hrow => h.next row (hrows.subset hrow)
  · exact List.subset_append_left _ _
  · exact fun row hrow => .inl (hrows.subset hrow)
  · exact ⟨rfl, rfl, rfl, rfl⟩

theorem rollback (h : Inv stream start world) (transaction : ℕ) :
    Inv stream start (world.rollback transaction) := by
  have hrows : (world.rollback transaction).rows.Sublist world.rows :=
    (List.filter_sublist.map _).append_right _
  apply h.of_rows
  · exact (hrows.map _).nodup h.ids
  · exact (hrows.map _).nodup h.sequences
  · exact fun row hrow => h.next row (hrows.subset hrow)
  · exact List.Subset.refl _
  · exact fun row hrow => .inl (hrows.subset hrow)
  · exact ⟨rfl, rfl, rfl, rfl⟩

theorem poll (hkeys : stream.ForeignKeys) (h : Inv stream start world) :
    Inv stream start (world.poll stream) := by
  unfold World.poll
  split
  · exact h
  split
  · exact h
  · rename_i events hevents
    obtain ⟨hready, after, hafter, rfl⟩ := Stream.listEvents_ok hevents
    have hbehind := behind_iff h.committed_ids hafter
    refine { h with page := ?_, pageSorted := ?_, pageClosed := ?_ }
    · intro event hevent
      obtain ⟨hmem, hselects, hafter⟩ := OrderedPage.mem_of_mem hevent
      exact ⟨hmem, hselects, Stream.concerns_of_selects hkeys hready hselects,
        (hbehind event).mpr hafter⟩
    · exact OrderedPage.pairwise h.committed_sequences
    · intro event hevent row hrow hselects hrow_behind hlt
      rcases List.mem_append.mp hrow with hpending | hcommitted
      · exact .inr hpending
      · exact .inl (OrderedPage.mem_of_lt h.committed_sequences hcommitted hselects
          ((hbehind row).mp hrow_behind) hevent hlt)

theorem disconnect (h : Inv stream start world) : Inv stream start world.disconnect :=
  { h with
    page := fun _ hevent => absurd hevent List.not_mem_nil
    pageSorted := .nil
    pageClosed := fun _ hevent => absurd hevent List.not_mem_nil }

/-- Behind the cursor is behind everything that is yielded. -/
theorem lt_of_behind (h : Inv stream start world) {event : EventRecord β}
    (hevent : Behind world.committed world.cursor event) :
    (∀ old ∈ world.yielded, old.sequence < event.sequence) ∧
      Behind world.committed start event := by
  have hcursor := h.cursor
  rcases List.eq_nil_or_concat world.yielded with hnone | ⟨front, last, hyielded⟩
  · have hstart : world.cursor = start := by
      rw [hcursor, hnone]
      rfl
    rw [hstart] at hevent
    exact ⟨by simp [hnone], hevent⟩
  · rw [hyielded, List.concat_eq_append, List.getLast?_concat] at hcursor
    have hlast : last ∈ world.yielded := by simp [hyielded]
    obtain ⟨at_, hat, hatid, hlt⟩ := hevent last.id hcursor
    obtain ⟨hmem, -, -, hstart⟩ := h.yielded last hlast
    rw [eq_of_id h.committed_ids hat hmem hatid] at hlt
    refine ⟨?_, hstart.trans hlt⟩
    intro old hold
    have hsorted := h.yieldedSorted
    rw [hyielded, List.concat_eq_append] at hsorted hold
    rcases List.mem_append.mp hold with hfront | hold
    · exact ((List.pairwise_append.mp hsorted).2.2 old hfront last List.mem_cons_self).trans hlt
    · rwa [List.mem_singleton.mp hold]

theorem behind_yielded (h : Inv stream start world) {event row : EventRecord β}
    (hevent : event ∈ world.committed) :
    Behind world.committed (some event.id) row ↔ event.sequence < row.sequence := by
  constructor
  · intro hbehind
    obtain ⟨at_, hat, hatid, hlt⟩ := hbehind event.id rfl
    rwa [eq_of_id h.committed_ids hat hevent hatid] at hlt
  · intro hlt id hid
    obtain rfl := Option.some.inj hid
    exact ⟨event, hevent, rfl, hlt⟩

theorem yield (h : Inv stream start world) : Inv stream start world.yield := by
  unfold World.yield
  split
  · exact h
  · rename_i event rest hpage
    have hhead : event ∈ world.page := by simp [hpage]
    have htail : ∀ {x}, x ∈ rest → x ∈ world.page := by
      intro x hx
      simp [hpage, hx]
    obtain ⟨hmem, hselects, hconcerns, hbehind⟩ := h.page event hhead
    obtain ⟨hgreater, hstart⟩ := h.lt_of_behind hbehind
    have hsorted := h.pageSorted
    rw [hpage, List.pairwise_cons] at hsorted
    refine { h with
      page := ?_
      pageSorted := hsorted.2
      pageClosed := ?_
      yielded := ?_
      yieldedSorted := ?_
      cursor := ?_ }
    · intro x hx
      obtain ⟨hx_mem, hx_selects, hx_concerns, -⟩ := h.page x (htail hx)
      exact ⟨hx_mem, hx_selects, hx_concerns, (h.behind_yielded hmem).mpr (hsorted.1 x hx)⟩
    · intro x hx row hrow hrow_selects hrow_behind hlt
      have hrow_lt := (h.behind_yielded hmem).mp hrow_behind
      rcases h.pageClosed x (htail hx) row hrow hrow_selects (hbehind.trans hrow_lt) hlt with
        hrow_page | hrow_pending
      · rw [hpage] at hrow_page
        rcases List.mem_cons.mp hrow_page with rfl | hrow_rest
        · exact absurd hrow_lt (lt_irrefl _)
        · exact .inl hrow_rest
      · exact .inr hrow_pending
    · intro x hx
      rcases List.mem_append.mp hx with hold | hnew
      · exact h.yielded x hold
      · rw [List.mem_singleton.mp hnew]
        exact ⟨hmem, hselects, hconcerns, hstart⟩
    · rw [List.pairwise_append]
      refine ⟨h.yieldedSorted, List.pairwise_singleton _ _, ?_⟩
      intro old hold x hx
      rw [List.mem_singleton.mp hx]
      exact hgreater old hold
    · rw [List.getLast?_concat]
      rfl

theorem step (hkeys : stream.ForeignKeys) (h : Inv stream start world)
    (happening : Happening β) : Inv stream start (world.step stream happening) := by
  cases happening with
  | append transaction id aggregateType aggregateId body =>
    exact h.append transaction id aggregateType aggregateId body
  | commit transaction => exact h.commit transaction
  | rollback transaction => exact h.rollback transaction
  | poll => exact h.poll hkeys
  | yield => exact h.yield
  | disconnect => exact h.disconnect

theorem run (hkeys : stream.ForeignKeys) (h : Inv stream start world)
    (happenings : List (Happening β)) :
    Inv stream start ((streaming stream).run world happenings) :=
  (streaming stream).run_invariant (fun _ happening hinv => hinv.step hkeys happening) h happenings

end Inv

/-! ## 6. Histories -/

/-- Visible rows stay, new rows have greater numbers, and nothing yielded is taken back. -/
structure Later (world world' : World β) : Prop where
  next : world.next ≤ world'.next
  committed : world.committed ⊆ world'.committed
  rows : ∀ row ∈ world'.rows, row ∈ world.rows ∨ world.next ≤ row.sequence
  yielded : world.yielded <+: world'.yielded

namespace Later

variable {stream : Stream} {world world' world'' : World β}

theorem refl (world : World β) : Later world world :=
  ⟨le_rfl, List.Subset.refl _, fun _ hrow => .inl hrow, List.prefix_rfl⟩

theorem trans (h : Later world world') (h' : Later world' world'') : Later world world'' := by
  refine ⟨h.next.trans h'.next, List.Subset.trans h.committed h'.committed, ?_, h.yielded.trans h'.yielded⟩
  intro row hrow
  rcases h'.rows row hrow with hold | hnew
  · exact h.rows row hold
  · exact .inr (h.next.trans hnew)

theorem step (stream : Stream) (world : World β) (happening : Happening β) :
    Later world (world.step stream happening) := by
  cases happening with
  | append transaction id aggregateType aggregateId body =>
    show Later world (world.append transaction id aggregateType aggregateId body)
    unfold World.append
    split
    · exact .refl world
    · refine ⟨Nat.le_succ _, List.Subset.refl _, ?_, List.prefix_rfl⟩
      intro row hrow
      simp only [World.rows, List.map_append, List.map_cons, List.map_nil, List.append_assoc,
        List.mem_append, List.mem_cons, List.not_mem_nil, or_false] at hrow ⊢
      rcases hrow with hrow | rfl | hrow
      · exact .inl (.inl hrow)
      · exact .inr le_rfl
      · exact .inl (.inr hrow)
  | commit transaction =>
    exact ⟨le_rfl, List.subset_append_left _ _,
      fun row hrow => .inl ((Inv.commit_rows world transaction).subset hrow), List.prefix_rfl⟩
  | rollback transaction =>
    exact ⟨le_rfl, List.Subset.refl _,
      fun row hrow => .inl (((List.filter_sublist.map _).append_right _).subset hrow),
      List.prefix_rfl⟩
  | poll =>
    show Later world (world.poll stream)
    unfold World.poll
    split
    · exact .refl world
    split
    · exact .refl world
    · exact ⟨le_rfl, List.Subset.refl _, fun _ hrow => .inl hrow, List.prefix_rfl⟩
  | yield =>
    show Later world world.yield
    unfold World.yield
    split
    · exact .refl world
    · exact ⟨le_rfl, List.Subset.refl _, fun _ hrow => .inl hrow, List.prefix_append _ _⟩
  | disconnect => exact ⟨le_rfl, List.Subset.refl _, fun _ hrow => .inl hrow, List.prefix_rfl⟩

theorem run (stream : Stream) (world : World β) (happenings : List (Happening β)) :
    Later world ((streaming stream).run world happenings) :=
  (streaming stream).run_invariant (fun s happening h => h.trans (step stream s happening))
    (.refl world) happenings

end Later

/-- A transition of a run stands between the start and the end. -/
theorem transition_between {stream : Stream} {start : Option UUID} (hkeys : stream.ForeignKeys)
    {world : World β} (hinv : Inv stream start world) {happenings : List (Happening β)}
    {t : Transition (World β) (Happening β) Unit}
    (ht : t ∈ (streaming stream).trace world happenings) :
    Inv stream start t.before ∧ t.after = t.before.step stream t.input ∧
      Later t.before ((streaming stream).run world happenings) ∧
      Later t.after ((streaming stream).run world happenings) := by
  obtain ⟨front, happening, back, rfl, rfl⟩ := (streaming stream).mem_trace ht
  have hafter : Later ((streaming stream).fire ((streaming stream).run world front) happening).after
      ((streaming stream).run world (front ++ happening :: back)) := by
    rw [Machine.run_append]
    exact Later.run stream _ back
  exact ⟨hinv.run hkeys front, rfl, (Later.step stream _ happening).trans hafter, hafter⟩

/-! ## 7. Lost events -/

section Delivery

variable {stream : Stream} {start : Option UUID} {final : World β}

/-- The event is yielded, or the cursor has not passed it. -/
def NotPassed (final : World β) (event : EventRecord β) (world : World β) : Prop :=
  event ∈ world.yielded ∨
    ∀ at_ ∈ final.committed, world.cursor = some at_.id → at_.sequence < event.sequence

/-- A yield passes an event only if it was pending when the page was read. -/
theorem notPassed_yield {world : World β} (hinv : Inv stream start world)
    (hfinal : Inv stream start final) (hlater : Later world final) {passed : EventRecord β}
    (hcommitted : passed ∈ final.committed) (hselects : stream.selects passed = true)
    (hnot : NotPassed final passed world) :
    NotPassed final passed world.yield ∨
      ∃ event ∈ world.page.head?, passed ∈ world.pendingAtPoll ∧
        Behind world.committed world.cursor passed ∧ passed.sequence < event.sequence := by
  unfold World.yield
  split
  · exact .inl hnot
  · rename_i event rest hpage
    have hhead : event ∈ world.page := by simp [hpage]
    obtain ⟨hmem, -, -, hbehind⟩ := hinv.page event hhead
    rcases hnot with hyielded | hcursor
    · exact .inl (.inl (List.mem_append_left _ hyielded))
    rcases lt_trichotomy event.sequence passed.sequence with hlt | heq | hgt
    · refine .inl (.inr ?_)
      intro at_ hat hid
      rw [eq_of_id hfinal.committed_ids hat (hlater.committed hmem) (Option.some.inj hid).symm]
      exact hlt
    · have hsame : event = passed := List.inj_on_of_nodup_map hfinal.committed_sequences
        (hlater.committed hmem) hcommitted heq
      exact .inl (.inl (by simp [hsame]))
    · right
      have hpassed : Behind world.committed world.cursor passed := by
        intro id hid
        obtain ⟨at_, hat, hatid, -⟩ := hbehind id hid
        exact ⟨at_, hat, hatid, hcursor at_ (hlater.committed hat) (hatid ▸ hid)⟩
      have hrow : passed ∈ world.rows := by
        rcases hlater.rows passed (List.mem_append_right _ hcommitted) with hrow | hnew
        · exact hrow
        · have := hinv.next event (List.mem_append_right _ hmem)
          omega
      refine ⟨event, by simp [hpage], ?_, hpassed, hgt⟩
      rcases hinv.pageClosed event hhead passed hrow hselects hpassed hgt with hin | hpending
      · have hsorted := hinv.pageSorted
        rw [hpage, List.pairwise_cons] at hsorted
        rw [hpage] at hin
        rcases List.mem_cons.mp hin with rfl | hin
        · exact absurd hgt (lt_irrefl _)
        · exact absurd (hsorted.1 passed hin) (lt_asymm hgt)
      · exact hpending

/-- Without an overtaking yield no event of the stream is passed. -/
theorem notPassed_step {world : World β} (hinv : Inv stream start world)
    (hfinal : Inv stream start final) (hlater : Later world final) {event : EventRecord β}
    (hcommitted : event ∈ final.committed) (hselects : stream.selects event = true)
    {happening : Happening β}
    (hguard : ¬Overtakes stream final ((streaming stream).fire world happening))
    (hnot : NotPassed final event world) :
    NotPassed final event (world.step stream happening) := by
  cases happening with
  | yield =>
    rcases notPassed_yield hinv hfinal hlater hcommitted hselects hnot with h | h
    · exact h
    · obtain ⟨head, hhead, hpending, hbehind, hlt⟩ := h
      exact absurd ⟨rfl, head, hhead, event, hpending, hselects, hbehind, hlt, hcommitted⟩ hguard
  | append transaction id aggregateType aggregateId body =>
    show NotPassed final event (world.append transaction id aggregateType aggregateId body)
    unfold World.append
    split <;> exact hnot
  | commit transaction => exact hnot
  | rollback transaction => exact hnot
  | poll =>
    show NotPassed final event (world.poll stream)
    unfold World.poll
    split
    · exact hnot
    split <;> exact hnot
  | disconnect => exact hnot

/-- At the end of a settled run the cursor has passed every event of the stream. -/
theorem Settled.yielded_of_notPassed (hsettled : Settled stream final)
    (hinv : Inv stream start final) {event : EventRecord β} (hcommitted : event ∈ final.committed)
    (hselects : stream.selects event = true) (hnot : NotPassed final event final) :
    event ∈ final.yielded := by
  rcases hnot with hyielded | hcursor
  · exact hyielded
  · obtain ⟨-, after, hafter, hempty⟩ := Stream.listEvents_ok hsettled.2.2
    have hbehind := (OrderedPage.eq_nil_iff (by decide)).mp hempty.symm event hcommitted hselects
    rw [Bool.eq_false_iff, ne_eq, ← behind_iff hinv.committed_ids hafter] at hbehind
    refine absurd ?_ hbehind
    intro id hid
    rw [Option.mem_def.mp hid] at hafter
    simp only [cursorEvent] at hafter
    split at hafter
    · cases hafter
    · rename_i found hfind
      have hfound := List.mem_of_find?_eq_some hfind
      have hfoundId : found.id = id := by simpa using List.find?_some hfind
      exact ⟨found, hfound, hfoundId, hcursor found hfound (hfoundId ▸ hid)⟩

/-- What a yield has passed is never yielded. -/
theorem Overtakes.lost {t : Transition (World β) (Happening β) Unit}
    (h : Overtakes stream final t) (hbefore : Inv stream start t.before)
    (hafter : t.after = t.before.step stream t.input) (hfinal : Inv stream start final)
    (hlater : Later t.after final) :
    ∃ passed ∈ final.committed, stream.selects passed = true ∧
      Behind t.before.committed start passed ∧ passed ∉ final.yielded := by
  obtain ⟨hinput, event, hhead, passed, -, hselects, hbehind, hlt, hcommitted⟩ := h
  obtain ⟨hgreater, hstart⟩ := hbefore.lt_of_behind hbehind
  refine ⟨passed, hcommitted, hselects, hstart, ?_⟩
  have hyielded : t.after.yielded = t.before.yielded ++ [event] := by
    obtain ⟨rest, hpage⟩ := List.head?_eq_some_iff.mp hhead
    rw [hafter, hinput]
    show t.before.yield.yielded = _
    rw [World.yield, hpage]
  obtain ⟨later, hfinal_yielded⟩ := hlater.yielded
  have hsorted := hfinal.yieldedSorted
  rw [← hfinal_yielded, hyielded, List.pairwise_append] at hsorted
  rw [← hfinal_yielded, hyielded]
  intro hmem
  rcases List.mem_append.mp hmem with hold | hnew
  · rcases List.mem_append.mp hold with hold | hevent
    · exact absurd (hgreater passed hold) (lt_irrefl _)
    · rw [List.mem_singleton.mp hevent] at hlt
      exact absurd hlt (lt_irrefl _)
  · have := hsorted.2.2 event (by simp) passed hnew
    exact absurd hlt (lt_asymm this)

end Delivery

/-- A settled stream has delivered its events exactly if its query selects all of them and no event
was yielded from a page that was read while a transaction was open that committed a smaller one. -/
theorem delivered_iff {stream : Stream} (hkeys : stream.ForeignKeys) (start : Option UUID)
    (happenings : List (Happening β))
    (hsettled : Settled stream ((streaming stream).run { cursor := start } happenings)) :
    let final := (streaming stream).run ({ cursor := start } : World β) happenings
    Delivered stream start final ↔
      (∀ event ∈ final.committed, stream.Concerns event → Behind final.committed start event →
        stream.selects event = true) ∧
      ∀ t ∈ (streaming stream).trace ({ cursor := start } : World β) happenings,
        ¬Overtakes stream final t := by
  intro final
  have hfirst := Inv.initial (β := β) stream start
  have hinv : Inv stream start final := hfirst.run hkeys happenings
  obtain ⟨hready, -⟩ := Stream.listEvents_ok hsettled.2.2
  constructor
  · rintro ⟨-, hdelivered⟩
    constructor
    · intro event hcommitted hconcerns hbehind
      exact (hinv.yielded event ((hdelivered event).mpr ⟨hcommitted, hconcerns, hbehind⟩)).2.1
    · intro t ht hovertakes
      obtain ⟨hbefore, hafter, hlater, hlater'⟩ := transition_between hkeys hfirst ht
      obtain ⟨passed, hcommitted, hselects, hbehind, hlost⟩ :=
        hovertakes.lost hbefore hafter hinv hlater'
      exact hlost ((hdelivered passed).mpr ⟨hcommitted,
        Stream.concerns_of_selects hkeys hready hselects, hbehind.mono hlater.committed⟩)
  · rintro ⟨hall, hguard⟩
    refine ⟨hinv.yieldedSorted.imp fun h heq => absurd (heq ▸ h) (lt_irrefl _), ?_⟩
    intro event
    constructor
    · intro hyielded
      obtain ⟨hcommitted, -, hconcerns, hbehind⟩ := hinv.yielded event hyielded
      exact ⟨hcommitted, hconcerns, hbehind⟩
    · rintro ⟨hcommitted, hconcerns, hbehind⟩
      have hselects := hall event hcommitted hconcerns hbehind
      have hstart : NotPassed final event ({ cursor := start } : World β) := by
        right
        intro at_ hat hid
        obtain ⟨at', hat', hatid', hlt⟩ := hbehind at_.id hid
        rwa [eq_of_id hinv.committed_ids hat hat' hatid'.symm]
      apply hsettled.yielded_of_notPassed hinv hcommitted hselects
      refine ((streaming stream).trace_keeps hstart ?_).1
      intro t ht hnot
      obtain ⟨hbefore, hafter, hlater, -⟩ := transition_between hkeys hfirst ht
      rw [hafter]
      have hfire : t = (streaming stream).fire t.before t.input := by
        obtain ⟨front, happening, back, -, rfl⟩ := (streaming stream).mem_trace ht
        rfl
      have hquiet := hguard t ht
      rw [hfire] at hquiet
      exact notPassed_step hbefore hinv hlater hcommitted hselects hquiet hnot

/-- One transaction after the other. -/
def inTurn : List (Happening Unit) :=
  [.append 1 100 "external_execution" 7 (), .commit 1, .poll, .yield,
    .append 2 101 "external_execution" 7 (), .commit 2, .poll, .yield, .poll]

theorem delivered_iff_inTurn :
    let final := (streaming .externalExecutions).run { cursor := none } inTurn
    Delivered .externalExecutions none final := by
  have hkeys : Stream.externalExecutions.ForeignKeys := trivial
  refine (delivered_iff hkeys none inTurn ⟨rfl, rfl, by decide +kernel⟩).mpr ⟨?_, ?_⟩
  · intro event _ hconcerns _
    exact decide_eq_true hconcerns
  · rintro t ht ⟨-, -, -, passed, hpending, -⟩
    have hnone : ∀ t ∈ (streaming .externalExecutions).trace { cursor := none } inTurn,
        t.before.pendingAtPoll = [] := by
      decide +kernel
    rw [hnone t ht] at hpending
    cases hpending

/-- The first event commits after the second is yielded. -/
def outOfTurn : List (Happening Unit) :=
  [.append 1 100 "external_execution" 7 (), .append 2 101 "external_execution" 8 (), .commit 2,
    .poll, .yield, .commit 1, .poll]

/-- The event of the transaction that commits last is not delivered. -/
theorem late_commit_lost : ¬∀ (start : Option UUID) (happenings : List (Happening Unit)),
    let final := (streaming .externalExecutions).run { cursor := start } happenings
    Settled .externalExecutions final → Delivered .externalExecutions start final := by
  intro hclaim
  have hdelivered := hclaim none outOfTurn ⟨rfl, rfl, by decide +kernel⟩
  have hlost : (⟨1, 100, "external_execution", 7, ()⟩ : EventRecord Unit) ∉
      ((streaming .externalExecutions).run { cursor := none } outOfTurn).yielded := by
    decide +kernel
  refine hlost ((hdelivered.2 _).mpr ⟨?_, rfl, fun _ h => by cases h⟩)
  decide +kernel

end JbOrchestrator.Api
