import JbOrchestrator.Api.EventStreams
import JbOrchestrator.Lib.JsonReading
import JbOrchestrator.Lib.JsonText
import JbOrchestrator.Lib.ServerSentEvents

/-!
# Wire — event streams as their clients read them

A stream sends an event as a message, and a heartbeat when there is none.  The connection may break
off behind any character.  The client then connects again with the id of the last message it has read
whole, and the server goes on behind that event.
-/

open Lib ServerSentEvents

namespace JbOrchestrator.Api

open Infrastructure Application

/-! ## 1. Messages -/

/-- The columns of an event that no query reads. -/
structure EventBody where
  eventType : String
  payload : JsonObject
  occurredAt : Datetime

def eventBody (event : EventRecord EventBody) : JsonObject :=
  [("id", Json.uuid event.id),
    ("sequence", Json.number event.sequence),
    ("type", Json.text event.body.eventType),
    ("aggregate_type", Json.text event.aggregateType),
    ("aggregate_id", Json.uuid event.aggregateId),
    ("occurred_at", Json.datetime event.body.occurredAt),
    ("payload", .dict event.body.payload)] ++
  if event.aggregateType = "external_execution" then
    [("external_execution_id", Json.uuid event.aggregateId)]
  else []

section Encoding

variable (style : JsonText.Style)

/-- `ensure_ascii=False, separators=(",", ":")`. -/
def dense : JsonText.Style := { style with ensureAscii := false, blanks := 0 }

def eventData (event : EventRecord EventBody) : List Char :=
  JsonText.dumps (dense style) (.dict (eventBody event))

def encodeServerSentEvent (event : EventRecord EventBody) : List Char :=
  ['i', 'd', ':', ' '] ++ Uuid.text event.id ++
    ['\n', 'e', 'v', 'e', 'n', 't', ':', ' '] ++ event.body.eventType.toList ++
    ['\n', 'd', 'a', 't', 'a', ':', ' '] ++ eventData style event ++ ['\n', '\n']

def heartbeat : List Char :=
  [':', ' ', 'h', 'e', 'a', 'r', 't', 'b', 'e', 'a', 't', '\n', '\n']

/-- What a client reads of an event. -/
def eventMessage (event : EventRecord EventBody) : Message :=
  ⟨Uuid.text event.id, event.body.eventType.toList, eventData style event⟩

theorem encodeServerSentEvent_eq (event : EventRecord EventBody) :
    encodeServerSentEvent style event = (Frame.message (eventMessage style event)).encode := by
  simp [encodeServerSentEvent, Frame.encode, Frame.lines, eventMessage]

theorem heartbeat_eq :
    heartbeat = (Frame.comment ['h', 'e', 'a', 'r', 't', 'b', 'e', 'a', 't']).encode := rfl

end Encoding

/-! ## 2. Connections -/

/-- The cursor of `stream_project_events` and of `stream_external_execution_events`. -/
def streamCursor (after lastEventId : Option UUID) : Except ServiceError (Option UUID) :=
  if after ≠ none ∧ lastEventId ≠ none ∧ after ≠ lastEventId then
    .error (.domain (.domainValidationError "after and Last-Event-ID cursors must match"))
  else .ok (lastEventId.or after)

/-- A server, the text it has sent on the open connection, and the messages that the client has read
on the connections before. -/
structure Link where
  world : World EventBody
  sent : List Char := []
  received : List Message := []

inductive Occurrence where
  | happens (happening : Happening EventBody)
  /-- Nothing has been sent for a while. -/
  | heartbeat
  /-- The connection breaks off behind the given number of characters, perhaps within the bytes of the
  next one, and the client connects again. -/
  | cut (characters : ℕ) (broken : Bool)

namespace Link

/-- What decoding makes of a character that is not complete. -/
def remnant (broken : Bool) : List Char := if broken then ['\uFFFD'] else []

/-- The client keeps the id of its last message; before the first it has the one it starts with. -/
def lastEventId (start : Option UUID) (received : List Message) : Option (List Char) :=
  (received.getLast?.map (·.id)).or (start.map Uuid.text)

/-- The header of a new connection; no `after` is sent with it. -/
def reconnect (start : Option UUID) (received : List Message) : Option (Option UUID) := do
  let id ← (lastEventId start received).mapM Uuid.ofText
  (streamCursor none id).toOption

/-- The next connection, if the header is accepted.  Of the history, only the events that the client
has read stay yielded. -/
def resume (link : Link) (received : List Message) : Option (Option UUID) → Link
  | none => { link with world := link.world.disconnect, sent := [], received := received }
  | some cursor =>
    { world := { link.world with
        cursor := cursor, page := [], yielded := link.world.yielded.take received.length }
      sent := []
      received := received }

def cut (start : Option UUID) (link : Link) (characters : ℕ) (broken : Bool) : Link :=
  let received := link.received ++ read (link.sent.take characters ++ remnant broken)
  link.resume received (reconnect start received)

def step (style : JsonText.Style) (stream : Stream) (start : Option UUID) (link : Link) :
    Occurrence → Link
  | .happens .yield =>
    { link with
      world := link.world.yield
      sent := link.sent ++ (link.world.page.take 1).flatMap (encodeServerSentEvent style) }
  | .happens happening => { link with world := link.world.step stream happening }
  | .heartbeat => if link.world.page = [] then { link with sent := link.sent ++ heartbeat } else link
  | .cut characters broken => link.cut start characters broken

/-- All messages that the client has read when it has read what is sent. -/
def messages (link : Link) : List Message := link.received ++ read link.sent

end Link

def linked (style : JsonText.Style) (stream : Stream) (start : Option UUID) :
    Machine Link Occurrence Unit where
  step link occurrence := ((), link.step style stream start occurrence)

/-- The ids have 128 bits, the type of an event is a name on one line, and every float of a payload is
written exactly. -/
def SoundRow (style : JsonText.Style) (id : UUID) (body : EventBody) : Prop :=
  id < 2 ^ 128 ∧ OneLine body.eventType.toList ∧ body.eventType ≠ "" ∧
    style.Readable (JsonText.entryScalars body.payload)

def Occurrence.Sound (style : JsonText.Style) : Occurrence → Prop
  | .happens (.append _ id _ _ body) => SoundRow style id body
  | _ => True

/-! ## 3. One message for each event -/

section Messages

variable {style : JsonText.Style} {event : EventRecord EventBody}

theorem oneLine_of_printable {text : List Char} (h : JsonText.Printable text) : OneLine text :=
  ⟨fun hmem => absurd (h _ hmem) (by decide), fun hmem => absurd (h _ hmem) (by decide)⟩

theorem printable_uuid (id : UUID) : JsonText.Printable (Uuid.text id) := by
  intro c hc
  by_cases hhyphen : c = '-'
  · rw [hhyphen]
    decide
  · have hhex : c ∈ Uuid.hex id := by
      rw [← Uuid.filter_text, List.mem_filter]
      exact ⟨hc, decide_eq_true hhyphen⟩
    obtain ⟨hdigit, -⟩ := Uuid.hex_chars hhex
    simp only [Text.isHexDigit, Text.isDigit, Bool.or_eq_true, Bool.and_eq_true,
      decide_eq_true_eq] at hdigit
    omega

theorem readable_eventBody (h : SoundRow style event.id event.body) :
    (dense style).Readable (JsonText.scalars (.dict (eventBody event))) := by
  obtain ⟨-, -, -, hpayload⟩ := h
  refine JsonText.Style.readable_entries.mpr fun entry hentry => ?_
  have hscalar : ∀ s : String, (dense style).Readable (JsonText.scalars (Json.text s)) := by
    intro s value hvalue
    cases List.mem_singleton.mp hvalue
  have hnumber : ∀ n : ℕ, (dense style).Readable (JsonText.scalars (Json.number n)) := by
    intro n value hvalue
    cases List.mem_singleton.mp hvalue
  simp only [eventBody, List.mem_append, List.mem_cons, List.not_mem_nil, or_false] at hentry
  rcases hentry with (rfl | rfl | rfl | rfl | rfl | rfl | rfl) | hentry
  · exact hscalar _
  · exact hnumber _
  · exact hscalar _
  · exact hscalar _
  · exact hscalar _
  · exact hscalar _
  · exact hpayload
  · split at hentry
    · rw [List.mem_singleton.mp hentry]
      exact hscalar _
    · cases hentry

/-- The data of a message is the body of its event. -/
theorem loads_eventData (h : SoundRow style event.id event.body) :
    JsonText.loads (dense style) (eventData style event) = some (.dict (eventBody event)) :=
  JsonText.loads_dumps (readable_eventBody h)

theorem sound_eventMessage (h : SoundRow style event.id event.body) :
    (Frame.message (eventMessage style event)).Sound := by
  have hdata := JsonText.printable_dumps _ (readable_eventBody h)
  obtain ⟨-, hline, hne, -⟩ := h
  refine ⟨oneLine_of_printable (printable_uuid _), ?_, hline, ?_, oneLine_of_printable hdata⟩
  · exact fun hmem => absurd (printable_uuid _ _ hmem) (by decide)
  · intro hnil
    exact hne (String.toList_eq_nil_iff.mp hnil)

theorem oneLine_remnant (broken : Bool) : OneLine (Link.remnant broken) := by
  cases broken <;> exact ⟨by decide, by decide⟩

end Messages

/-! ## 4. The invariant -/

/-- The server's side is as without breaks, and the client has read a part of what is yielded; the open
connection carries the rest. -/
structure Link.Inv (style : JsonText.Style) (stream : Stream) (start : Option UUID) (link : Link) :
    Prop where
  world : Api.Inv stream start link.world
  rows : ∀ row ∈ link.world.rows, SoundRow style row.id row.body
  received : link.received =
    (link.world.yielded.take link.received.length).map (eventMessage style)
  sent : ∃ frames, (∀ frame ∈ frames, Frame.Sound frame) ∧ link.sent = wire frames ∧
    frames.flatMap Frame.messages =
      (link.world.yielded.drop link.received.length).map (eventMessage style)

namespace Link.Inv

variable {style : JsonText.Style} {stream : Stream} {start : Option UUID} {link : Link}

theorem initial (style : JsonText.Style) (stream : Stream) (start : Option UUID) :
    Link.Inv style stream start { world := { cursor := start } } where
  world := Api.Inv.initial stream start
  rows _ hrow := absurd hrow List.not_mem_nil
  received := rfl
  sent := ⟨[], by simp, rfl, rfl⟩

/-- The client has read, or will read, one message for each event that is yielded. -/
theorem messages_eq (h : Link.Inv style stream start link) :
    link.messages = link.world.yielded.map (eventMessage style) := by
  obtain ⟨frames, hsound, hsent, hframes⟩ := h.sent
  have hreceived := h.received
  generalize link.received.length = k at hreceived hframes
  rw [Link.messages, hsent, read_wire hsound, hframes, hreceived, ← List.map_append,
    List.take_append_drop]

theorem received_le (h : Link.Inv style stream start link) :
    link.received.length ≤ link.world.yielded.length := by
  have hlength := congrArg List.length h.received
  rw [List.length_map, List.length_take] at hlength
  omega

theorem yielded_sound (h : Link.Inv style stream start link) {event : EventRecord EventBody}
    (hevent : event ∈ link.world.yielded) : SoundRow style event.id event.body :=
  h.rows event (List.mem_append_right _ (h.world.yielded event hevent).1)

/-- A step of the database or a poll, which send nothing. -/
theorem of_world (h : Link.Inv style stream start link) {world : World EventBody}
    (hworld : Api.Inv stream start world) (hyielded : world.yielded = link.world.yielded)
    (hrows : ∀ row ∈ world.rows, row ∈ link.world.rows ∨ SoundRow style row.id row.body) :
    Link.Inv style stream start { link with world := world } where
  world := hworld
  rows row hrow := (hrows row hrow).elim (h.rows row) id
  received := by
    rw [hyielded]
    exact h.received
  sent := by
    rw [hyielded]
    exact h.sent

theorem yield (h : Link.Inv style stream start link) :
    Link.Inv style stream start (link.step style stream start (.happens .yield)) := by
  have hworld := h.world.yield
  obtain ⟨frames, hsound, hsent, hframes⟩ := h.sent
  cases hpage : link.world.page with
  | nil =>
    have hsame : link.step style stream start (.happens .yield) = link := by
      simp [Link.step, World.yield, hpage]
    rw [hsame]
    exact h
  | cons event page =>
    have hyield : link.world.yield = { link.world with
        cursor := some event.id, page := page, yielded := link.world.yielded ++ [event] } := by
      rw [World.yield, hpage]
    have hevent : SoundRow style event.id event.body := by
      have hmem : event ∈ link.world.page := by simp [hpage]
      exact h.rows event (List.mem_append_right _ (h.world.page event hmem).1)
    have hle := h.received_le
    refine ⟨hworld, ?_, ?_, frames ++ [.message (eventMessage style event)], ?_, ?_, ?_⟩
    · intro row hrow
      simp only [Link.step, hyield] at hrow
      exact h.rows row hrow
    · simp only [Link.step, hyield]
      rw [List.take_append_of_le_length hle]
      exact h.received
    · intro frame hframe
      rcases List.mem_append.mp hframe with hold | hnew
      · exact hsound frame hold
      · rw [List.mem_singleton.mp hnew]
        exact sound_eventMessage hevent
    · simp [Link.step, hpage, hsent, wire, encodeServerSentEvent_eq]
    · simp only [Link.step, hyield]
      rw [List.drop_append_of_le_length hle, List.map_append, List.flatMap_append, hframes]
      rfl

theorem heartbeat (h : Link.Inv style stream start link) :
    Link.Inv style stream start (link.step style stream start .heartbeat) := by
  obtain ⟨frames, hsound, hsent, hframes⟩ := h.sent
  simp only [Link.step]
  split
  · refine { h with sent := ⟨frames ++ [.comment ['h', 'e', 'a', 'r', 't', 'b', 'e', 'a', 't']], ?_, ?_, ?_⟩ }
    · intro frame hframe
      rcases List.mem_append.mp hframe with hold | hnew
      · exact hsound frame hold
      · rw [List.mem_singleton.mp hnew]
        exact ⟨by decide, by decide⟩
    · simp [hsent, wire, heartbeat_eq]
    · rw [List.flatMap_append, hframes]
      simp [Frame.messages]
  · exact h

end Link.Inv

/-- The history of a server may be cut behind any of its events. -/
theorem Inv.rewind {β : Type} {stream : Stream} {start : Option UUID} {world : World β}
    (h : Inv stream start world) (count : ℕ) :
    Inv stream start { world with
      cursor := ((world.yielded.take count).getLast?.map (·.id)).or start
      page := []
      yielded := world.yielded.take count } where
  ids := h.ids
  sequences := h.sequences
  next := h.next
  page _ hevent := absurd hevent List.not_mem_nil
  pageSorted := .nil
  pageClosed _ hevent := absurd hevent List.not_mem_nil
  yielded event hevent := h.yielded event (List.mem_of_mem_take hevent)
  yieldedSorted := h.yieldedSorted.sublist (List.take_sublist count _)
  cursor := rfl

/-- The header names the last event that the client has read. -/
theorem Link.reconnect_eq {style : JsonText.Style} {start : Option UUID}
    (hstart : ∀ id ∈ start, id < 2 ^ 128) {events : List (EventRecord EventBody)}
    (hevents : ∀ event ∈ events, event.id < 2 ^ 128) :
    Link.reconnect start (events.map (eventMessage style)) =
      some ((events.getLast?.map (·.id)).or start) := by
  unfold reconnect lastEventId
  rw [List.getLast?_map]
  cases hlast : events.getLast? with
  | some event =>
    have hid := hevents event (List.mem_of_getLast? hlast)
    simp [eventMessage, Uuid.ofText_text hid, streamCursor, Except.toOption]
  | none =>
    cases start with
    | none => simp [streamCursor, Except.toOption]
    | some id => simp [Uuid.ofText_text (hstart id rfl), streamCursor, Except.toOption]

namespace Link.Inv

variable {style : JsonText.Style} {stream : Stream} {start : Option UUID} {link : Link}

/-- What the client has read after a break are the messages of the first events. -/
theorem received_cut (h : Link.Inv style stream start link) (characters : ℕ) (broken : Bool) :
    let received := link.received ++ read (link.sent.take characters ++ remnant broken)
    received = (link.world.yielded.take received.length).map (eventMessage style) := by
  intro received
  obtain ⟨frames, hsound, hsent, hframes⟩ := h.sent
  have hread : received = link.received ++ (whole frames characters).flatMap Frame.messages := by
    show link.received ++ read (link.sent.take characters ++ remnant broken) = _
    rw [hsent, read_cut hsound characters (oneLine_remnant broken)]
  have hprefix : received <+: link.world.yielded.map (eventMessage style) := by
    obtain ⟨rest, hrest⟩ := whole_prefix frames characters
    refine ⟨rest.flatMap Frame.messages, ?_⟩
    rw [hread, List.append_assoc, ← List.flatMap_append, hrest, hframes]
    have hreceived := h.received
    generalize link.received.length = k at hreceived
    rw [hreceived, ← List.map_append, List.take_append_drop]
  rw [List.map_take]
  exact List.prefix_iff_eq_take.mp hprefix

/-- A break takes back what the client has not read whole. -/
theorem cut_eq (h : Link.Inv style stream start link) (hstart : ∀ id ∈ start, id < 2 ^ 128)
    (characters : ℕ) (broken : Bool) :
    let received := link.received ++ read (link.sent.take characters ++ remnant broken)
    let yielded := link.world.yielded.take received.length
    link.cut start characters broken =
      { world := { link.world with
          cursor := (yielded.getLast?.map (·.id)).or start, page := [], yielded := yielded }
        sent := []
        received := received } := by
  intro received yielded
  have hevents : ∀ event ∈ yielded, event.id < 2 ^ 128 :=
    fun event hevent => (h.yielded_sound (List.mem_of_mem_take hevent)).1
  have hreconnect : reconnect start received = some ((yielded.getLast?.map (·.id)).or start) := by
    rw [show received = yielded.map (eventMessage style) from h.received_cut characters broken]
    exact reconnect_eq hstart hevents
  show link.resume received (reconnect start received) = _
  rw [hreconnect]
  rfl

theorem cut (h : Link.Inv style stream start link) (hstart : ∀ id ∈ start, id < 2 ^ 128)
    (characters : ℕ) (broken : Bool) :
    Link.Inv style stream start (link.cut start characters broken) := by
  rw [h.cut_eq hstart]
  have hreceived := h.received_cut characters broken
  refine ⟨h.world.rewind _, h.rows, ?_, [], by simp, rfl, ?_⟩
  · simp only [List.take_take, min_self]
    exact hreceived
  · have hlength := congrArg List.length hreceived
    rw [List.length_map] at hlength
    rw [List.drop_eq_nil_of_le hlength.ge]
    rfl

theorem step (hkeys : stream.ForeignKeys) (hstart : ∀ id ∈ start, id < 2 ^ 128)
    (h : Link.Inv style stream start link) {occurrence : Occurrence}
    (hsound : occurrence.Sound style) :
    Link.Inv style stream start (link.step style stream start occurrence) := by
  cases occurrence with
  | heartbeat => exact h.heartbeat
  | cut characters broken => exact h.cut hstart characters broken
  | happens happening =>
    have hworld := h.world.step hkeys happening
    cases happening with
    | yield => exact h.yield
    | append transaction id aggregateType aggregateId body =>
      refine h.of_world hworld ?_ ?_
      · show (link.world.append transaction id aggregateType aggregateId body).yielded = _
        unfold World.append
        split <;> rfl
      · intro row hrow
        have hrow : row ∈ (link.world.append transaction id aggregateType aggregateId body).rows := hrow
        unfold World.append at hrow
        split at hrow
        · exact .inl hrow
        · simp only [World.rows, List.map_append, List.append_assoc, List.mem_append] at hrow ⊢
          rcases hrow with hrow | hrow | hrow
          · exact .inl (.inl hrow)
          · rw [List.mem_singleton.mp hrow]
            exact .inr hsound
          · exact .inl (.inr hrow)
    | commit transaction =>
      exact h.of_world hworld rfl fun row hrow =>
        .inl ((Api.Inv.commit_rows link.world transaction).subset hrow)
    | rollback transaction =>
      exact h.of_world hworld rfl fun row hrow =>
        .inl (((List.filter_sublist.map _).append_right _).subset hrow)
    | poll =>
      have hpoll : (link.world.poll stream).yielded = link.world.yielded ∧
          (link.world.poll stream).rows = link.world.rows := by
        unfold World.poll
        split
        · exact ⟨rfl, rfl⟩
        split <;> exact ⟨rfl, rfl⟩
      exact h.of_world hworld hpoll.1 fun row hrow => .inl (hpoll.2 ▸ hrow)
    | disconnect => exact h.of_world hworld rfl fun row hrow => .inl hrow

theorem run (hkeys : stream.ForeignKeys) (hstart : ∀ id ∈ start, id < 2 ^ 128)
    (h : Link.Inv style stream start link) {occurrences : List Occurrence}
    (hsound : ∀ occurrence ∈ occurrences, occurrence.Sound style) :
    Link.Inv style stream start ((linked style stream start).run link occurrences) :=
  (linked style stream start).run_among h fun _ _ hoccurrence hinv =>
    hinv.step hkeys hstart (hsound _ hoccurrence)

end Link.Inv

/-! ## 5. Complete streams -/

/-- Visible rows stay, and new rows have greater numbers. -/
structure Grown {β : Type} (world world' : World β) : Prop where
  next : world.next ≤ world'.next
  committed : world.committed ⊆ world'.committed
  rows : ∀ row ∈ world'.rows, row ∈ world.rows ∨ world.next ≤ row.sequence

namespace Grown

variable {β : Type} {world world' world'' : World β}

theorem refl (world : World β) : Grown world world :=
  ⟨le_rfl, List.Subset.refl _, fun _ hrow => .inl hrow⟩

theorem trans (h : Grown world world') (h' : Grown world' world'') : Grown world world'' := by
  refine ⟨h.next.trans h'.next, List.Subset.trans h.committed h'.committed, ?_⟩
  intro row hrow
  rcases h'.rows row hrow with hold | hnew
  · exact h.rows row hold
  · exact .inr (h.next.trans hnew)

theorem of_later (h : Later world world') : Grown world world' := ⟨h.next, h.committed, h.rows⟩

end Grown

section Completeness

variable {style : JsonText.Style} {stream : Stream} {start : Option UUID} {link : Link}

theorem Link.grown_step (h : Link.Inv style stream start link) (hstart : ∀ id ∈ start, id < 2 ^ 128)
    (occurrence : Occurrence) :
    Grown link.world (link.step style stream start occurrence).world := by
  cases occurrence with
  | happens happening =>
    have hlater := Later.step stream link.world happening
    cases happening <;> exact .of_later hlater
  | heartbeat =>
    simp only [Link.step]
    split <;> exact .refl _
  | cut characters broken =>
    show Grown link.world (link.cut start characters broken).world
    rw [h.cut_eq hstart]
    exact ⟨le_rfl, List.Subset.refl _, fun _ hrow => .inl hrow⟩

/-- A step of the server passes no event unless it overtakes one.  What a break has taken back before
the end does not matter here. -/
theorem Link.Inv.notPassed_happens (h : Link.Inv style stream start link) {final : World EventBody}
    (hfinal : Api.Inv stream start final) (hgrown : Grown link.world final)
    {event : EventRecord EventBody} (hcommitted : event ∈ final.committed)
    (hselects : stream.selects event = true) {happening : Happening EventBody}
    (hguard : ¬Overtakes stream final ((streaming stream).fire link.world happening))
    (hnot : NotPassed final event link.world) :
    NotPassed final event (link.world.step stream happening) := by
  -- the end of the run with what is yielded so far is a later world
  let frozen : World EventBody :=
    { final with cursor := link.world.cursor, page := [], yielded := link.world.yielded }
  have hfrozen : Api.Inv stream start frozen :=
    { ids := hfinal.ids
      sequences := hfinal.sequences
      next := hfinal.next
      page := fun _ hevent => absurd hevent List.not_mem_nil
      pageSorted := .nil
      pageClosed := fun _ hevent => absurd hevent List.not_mem_nil
      yielded := by
        intro old hold
        obtain ⟨hmem, hselects, hconcerns, hbehind⟩ := h.world.yielded old hold
        exact ⟨hgrown.committed hmem, hselects, hconcerns, hbehind.mono hgrown.committed⟩
      yieldedSorted := h.world.yieldedSorted
      cursor := h.world.cursor }
  have hlater : Later link.world frozen :=
    ⟨hgrown.next, hgrown.committed, hgrown.rows, List.prefix_rfl⟩
  exact notPassed_step h.world hfrozen hlater hcommitted hselects hguard hnot

/-- A break moves the cursor back. -/
theorem Inv.notPassed_rewind {β : Type} {world final : World β} (h : Inv stream start world)
    (hfinal : Inv stream start final) (hcommitted : world.committed ⊆ final.committed)
    {event : EventRecord β} (hbehind : Behind final.committed start event)
    (hnot : NotPassed final event world) (count : ℕ) :
    NotPassed final event { world with
      cursor := ((world.yielded.take count).getLast?.map (·.id)).or start
      page := []
      yielded := world.yielded.take count } := by
  by_cases hread : event ∈ world.yielded.take count
  · exact .inl hread
  right
  intro at_ hat hid
  cases hlast : (world.yielded.take count).getLast? with
  | none =>
    -- the cursor is the initial one
    rw [hlast] at hid
    obtain ⟨at', hat', hatid', hlt⟩ := hbehind at_.id hid
    rwa [eq_of_id hfinal.committed_ids hat hat' hatid'.symm]
  | some last =>
    rw [hlast] at hid
    have hmem : last ∈ world.yielded.take count := List.mem_of_getLast? hlast
    have hyielded : last ∈ world.yielded := List.mem_of_mem_take hmem
    have hsame : at_ = last :=
      eq_of_id hfinal.committed_ids hat (hcommitted (h.yielded last hyielded).1)
        (Option.some.inj hid).symm
    rw [hsame]
    have hsorted := h.yieldedSorted
    rcases hnot with hold | hcursor
    · -- the event is taken back with those behind the last one
      rw [← List.take_append_drop count world.yielded] at hsorted hold
      rcases List.mem_append.mp hold with hfront | hback
      · exact absurd hfront hread
      · exact (List.pairwise_append.mp hsorted).2.2 last hmem event hback
    · -- the cursor was no lower before
      cases hend : world.yielded.getLast? with
      | none =>
        rw [List.getLast?_eq_none_iff.mp hend] at hyielded
        cases hyielded
      | some top =>
        have htop : top ∈ world.yielded := List.mem_of_getLast? hend
        have hcursor_top : world.cursor = some top.id := by
          rw [h.cursor, hend]
          rfl
        have hlt := hcursor top (hcommitted (h.yielded top htop).1) hcursor_top
        have hle : last.sequence ≤ top.sequence := by
          obtain ⟨front, hfront⟩ := List.getLast?_eq_some_iff.mp hend
          rw [hfront, List.pairwise_append] at hsorted
          rw [hfront] at hyielded
          rcases List.mem_append.mp hyielded with hold | hnew
          · exact (hsorted.2.2 last hold top List.mem_cons_self).le
          · rw [List.mem_singleton.mp hnew]
        exact lt_of_le_of_lt hle hlt

/-- No step of a server that overtakes nothing passes an event of the stream, and no break does. -/
theorem Link.Inv.notPassed_step (h : Link.Inv style stream start link)
    (hstart : ∀ id ∈ start, id < 2 ^ 128) {final : World EventBody}
    (hfinal : Api.Inv stream start final) (hgrown : Grown link.world final)
    {event : EventRecord EventBody} (hcommitted : event ∈ final.committed)
    (hselects : stream.selects event = true) (hbehind : Behind final.committed start event)
    {occurrence : Occurrence}
    (hguard : occurrence = .happens .yield →
      ¬Overtakes stream final ((streaming stream).fire link.world .yield))
    (hnot : NotPassed final event link.world) :
    NotPassed final event (link.step style stream start occurrence).world := by
  cases occurrence with
  | heartbeat =>
    simp only [Link.step]
    split <;> exact hnot
  | cut characters broken =>
    show NotPassed final event (link.cut start characters broken).world
    rw [h.cut_eq hstart]
    exact h.world.notPassed_rewind hfinal hgrown.committed hbehind hnot _
  | happens happening =>
    have hquiet : ¬Overtakes stream final ((streaming stream).fire link.world happening) := by
      intro hovertakes
      obtain ⟨hyield, -⟩ := id hovertakes
      obtain rfl : happening = .yield := hyield
      exact hguard rfl hovertakes
    have hpassed := h.notPassed_happens hfinal hgrown hcommitted hselects hquiet hnot
    cases happening <;> exact hpassed

theorem Link.grown_run (hkeys : stream.ForeignKeys) (hstart : ∀ id ∈ start, id < 2 ^ 128)
    (h : Link.Inv style stream start link) {occurrences : List Occurrence}
    (hsound : ∀ occurrence ∈ occurrences, occurrence.Sound style) :
    Grown link.world ((linked style stream start).run link occurrences).world := by
  induction occurrences generalizing link with
  | nil => exact .refl _
  | cons occurrence occurrences ih =>
    rw [List.forall_mem_cons] at hsound
    exact (Link.grown_step h hstart occurrence).trans (ih (h.step hkeys hstart hsound.1) hsound.2)

/-- However often the connection breaks off, the client reads each event once, in order and undamaged.
It reads all of them if the query selects them and the server yields none over an open transaction. -/
theorem messages_delivered (hkeys : stream.ForeignKeys) (hstart : ∀ id ∈ start, id < 2 ^ 128)
    {occurrences : List Occurrence} (hsound : ∀ occurrence ∈ occurrences, occurrence.Sound style) :
    let first : Link := { world := { cursor := start } }
    let final := (linked style stream start).run first occurrences
    let committed := final.world.committed
    ∃ events : List (EventRecord EventBody), final.messages = events.map (eventMessage style) ∧
      events.Pairwise (·.sequence < ·.sequence) ∧
      (∀ event ∈ events, event ∈ committed ∧ stream.Concerns event ∧ Behind committed start event ∧
        JsonText.loads (dense style) (eventData style event) = some (.dict (eventBody event))) ∧
      (Settled stream final.world →
        (∀ event ∈ committed, stream.Concerns event → Behind committed start event →
          stream.selects event = true) →
        (∀ t ∈ (linked style stream start).trace first occurrences, t.input = .happens .yield →
          ¬Overtakes stream final.world ((streaming stream).fire t.before.world .yield)) →
        ∀ event ∈ committed, stream.Concerns event → Behind committed start event →
          event ∈ events) := by
  intro first final committed
  have hfirst := Link.Inv.initial style stream start
  have hfinal : Link.Inv style stream start final := hfirst.run hkeys hstart hsound
  refine ⟨final.world.yielded, hfinal.messages_eq, hfinal.world.yieldedSorted, ?_, ?_⟩
  · intro event hevent
    obtain ⟨hmem, -, hconcerns, hbehind⟩ := hfinal.world.yielded event hevent
    exact ⟨hmem, hconcerns, hbehind, loads_eventData (hfinal.yielded_sound hevent)⟩
  · intro hsettled hall hguard event hcommitted hconcerns hbehind
    have hselects := hall event hcommitted hconcerns hbehind
    have hnot : NotPassed final.world event first.world := by
      right
      intro at_ hat hid
      obtain ⟨at', hat', hatid', hlt⟩ := hbehind at_.id hid
      rwa [eq_of_id hfinal.world.committed_ids hat hat' hatid'.symm]
    apply hsettled.yielded_of_notPassed hfinal.world hcommitted hselects
    refine ((linked style stream start).trace_keeps (Q := fun link => NotPassed final.world event link.world)
      hnot ?_).1
    intro t ht hbefore
    have hyields := hguard t ht
    obtain ⟨front, occurrence, back, hsplit, rfl⟩ := (linked style stream start).mem_trace ht
    have hsounds : ∀ x ∈ front ++ occurrence :: back, x.Sound style := hsplit ▸ hsound
    have hinv := hfirst.run hkeys hstart fun x hx => hsounds x (List.mem_append_left _ hx)
    have hgrown : Grown ((linked style stream start).run first front).world final.world := by
      show Grown _ ((linked style stream start).run first occurrences).world
      rw [hsplit, Machine.run_append]
      exact Link.grown_run hkeys hstart hinv fun x hx => hsounds x (List.mem_append_right _ hx)
    exact hinv.notPassed_step hstart hfinal.world hgrown hcommitted hselects hbehind hyields hbefore

end Completeness

/-- An event, a poll, and a connection that breaks off within the message. -/
def brokenOff : List Occurrence :=
  [.happens (.append 1 100 "external_execution" 7
      ⟨"external_execution.accepted", [], ⟨2026, 3, 1, ⟨9, 30, 0, 0⟩, some 0⟩⟩),
    .happens (.commit 1), .heartbeat, .happens .poll, .happens .yield, .cut 30 true, .happens .poll,
    .happens .yield, .happens .poll]

/-- No float is written. -/
def withoutFloats : JsonText.Style where
  float _ := []
  readFloat _ := none

theorem messages_delivered_brokenOff :
    let first : Link := { world := { cursor := none } }
    let final := (linked withoutFloats .externalExecutions none).run first brokenOff
    final.messages.map (·.id) = [Uuid.text 100] ∧
      ∃ events : List (EventRecord EventBody),
        final.messages = events.map (eventMessage withoutFloats) := by
  have hsound : ∀ occurrence ∈ brokenOff, occurrence.Sound withoutFloats := by
    have hrow : SoundRow withoutFloats 100
        ⟨"external_execution.accepted", [], ⟨2026, 3, 1, ⟨9, 30, 0, 0⟩, some 0⟩⟩ :=
      ⟨by decide, ⟨by decide, by decide⟩, by decide, fun _ h => absurd h List.not_mem_nil⟩
    simp only [brokenOff, List.forall_mem_cons, Occurrence.Sound]
    simpa using hrow
  obtain ⟨events, hevents, -⟩ := @messages_delivered withoutFloats .externalExecutions none trivial
    (fun _ h => by cases h) brokenOff hsound
  exact ⟨by decide +kernel, events, hevents⟩

end JbOrchestrator.Api
