import Mathlib.Data.List.Basic
import Mathlib.Data.Nat.Notation
import Mathlib.Tactic.SplitIfs

/-!
# ServerSentEvents — event streams and their readers

The text format `text/event-stream` of the HTML standard.  A reader consumes a stream character by
character and dispatches a message at each blank line; what stands behind the last blank line of a
connection that breaks off is lost.
-/

namespace Lib.ServerSentEvents

structure Message where
  id : List Char
  type : List Char
  data : List Char
  deriving DecidableEq, Repr

/-! ## 1. Readers -/

/-- A reader between two characters: the unfinished line and the buffers of the unfinished message. -/
structure Reader where
  line : List Char := []
  /-- The last character was a carriage return; a line feed behind it belongs to it. -/
  afterReturn : Bool := false
  data : List Char := []
  type : List Char := []
  id : List Char := []
  messages : List Message := []

namespace Reader

/-- At a blank line; a message without data is dropped. -/
def dispatch (r : Reader) : Reader :=
  if r.data = [] then { r with type := [] }
  else
    let type := if r.type = [] then ['m', 'e', 's', 's', 'a', 'g', 'e'] else r.type
    { r with data := [], type := [], messages := r.messages ++ [⟨r.id, type, r.data.dropLast⟩] }

/-- The value behind the colon, without the blank that may lead it. -/
def valueOf : List Char → List Char
  | ':' :: ' ' :: value => value
  | ':' :: value => value
  | value => value

/-- Other fields say nothing about messages. -/
def field (r : Reader) (name value : List Char) : Reader :=
  if name = ['e', 'v', 'e', 'n', 't'] then { r with type := value }
  else if name = ['d', 'a', 't', 'a'] then { r with data := r.data ++ value ++ ['\n'] }
  else if name = ['i', 'd'] then if '\x00' ∈ value then r else { r with id := value }
  else r

/-- A line that starts with a colon is a comment. -/
def endLine (r : Reader) : Reader :=
  if r.line = [] then r.dispatch
  else if r.line.head? = some ':' then { r with line := [] }
  else
    let name := r.line.takeWhile (· ≠ ':')
    { r.field name (valueOf (r.line.dropWhile (· ≠ ':'))) with line := [] }

def feed (r : Reader) (c : Char) : Reader :=
  if c = '\n' then if r.afterReturn then { r with afterReturn := false } else r.endLine
  else if c = '\r' then { r.endLine with afterReturn := true }
  else { r with line := r.line ++ [c], afterReturn := false }

def run (r : Reader) (text : List Char) : Reader := text.foldl feed r

end Reader

/-- The messages of a connection that sent the text. -/
def read (text : List Char) : List Message := (Reader.run {} text).messages

/-! ## 2. Frames -/

/-- What a server sends at a time. -/
inductive Frame where
  | message (m : Message)
  | comment (text : List Char)

namespace Frame

/-- The lines of a frame, without the blank line that ends it. -/
def lines : Frame → List Char
  | .message m =>
    'i' :: 'd' :: ':' :: ' ' :: (m.id ++ '\n' ::
      'e' :: 'v' :: 'e' :: 'n' :: 't' :: ':' :: ' ' :: (m.type ++ '\n' ::
        'd' :: 'a' :: 't' :: 'a' :: ':' :: ' ' :: (m.data ++ ['\n'])))
  | .comment text => ':' :: ' ' :: (text ++ ['\n'])

def encode (frame : Frame) : List Char := frame.lines ++ ['\n']

def messages : Frame → List Message
  | .message m => [m]
  | .comment _ => []

end Frame

def wire (frames : List Frame) : List Char := frames.flatMap Frame.encode

/-- The frames that arrive whole with the first `n` characters. -/
def whole : List Frame → ℕ → List Frame
  | [], _ => []
  | frame :: frames, n =>
    if frame.encode.length ≤ n then frame :: whole frames (n - frame.encode.length) else []

/-- The text has no line end. -/
def OneLine (text : List Char) : Prop := '\n' ∉ text ∧ '\r' ∉ text

/-- The fields of the frame fit on lines of their own. -/
def Frame.Sound : Frame → Prop
  | .message m => OneLine m.id ∧ '\x00' ∉ m.id ∧ OneLine m.type ∧ m.type ≠ [] ∧ OneLine m.data
  | .comment text => OneLine text

/-! ## 3. What is read of a frame -/

namespace Reader

variable {r : Reader}

theorem run_append (r : Reader) (front back : List Char) :
    r.run (front ++ back) = (r.run front).run back := List.foldl_append

theorem run_cons (r : Reader) (c : Char) (text : List Char) :
    r.run (c :: text) = (r.feed c).run text := rfl

/-- The characters of a line are collected. -/
theorem run_oneLine {text : List Char} (htext : OneLine text) (h : r.afterReturn = false) :
    r.run text = { r with line := r.line ++ text } := by
  induction text generalizing r with
  | nil => simp [run]
  | cons c text ih =>
    obtain ⟨hnewline, hreturn⟩ := htext
    rw [List.mem_cons, not_or] at hnewline hreturn
    have hfeed : r.feed c = { r with line := r.line ++ [c], afterReturn := false } := by
      unfold feed
      rw [if_neg (Ne.symm hnewline.1), if_neg (Ne.symm hreturn.1)]
    rw [run_cons, ih ⟨hnewline.2, hreturn.2⟩ (by rw [hfeed]), hfeed]
    simp only [List.append_assoc, List.cons_append, List.nil_append, h]

/-- A line is handled at its end. -/
theorem run_line {text : List Char} (htext : OneLine text) (h : r.afterReturn = false)
    (rest : List Char) :
    r.run (text ++ '\n' :: rest) = ({ r with line := r.line ++ text } : Reader).endLine.run rest := by
  rw [run_append, run_oneLine htext h, run_cons]
  simp [feed, h]

/-- The line of a field. -/
theorem endLine_field {name value : List Char} (hname : name ≠ []) (hcolon : ':' ∉ name)
    (hline : r.line = name ++ ':' :: ' ' :: value) :
    r.endLine = { r.field name value with line := [] } := by
  have hpass : ∀ c ∈ name, decide (c ≠ ':') = true := by
    intro c hc
    exact decide_eq_true fun heq => hcolon (heq ▸ hc)
  have htake : r.line.takeWhile (· ≠ ':') = name := by
    rw [hline, List.takeWhile_append_of_pos hpass]
    simp
  have hdrop : r.line.dropWhile (· ≠ ':') = ':' :: ' ' :: value := by
    rw [hline, List.dropWhile_append_of_pos hpass]
    simp
  have hhead : r.line.head? ≠ some ':' := by
    cases name with
    | nil => exact absurd rfl hname
    | cons c name =>
      intro heq
      rw [hline] at heq
      exact hcolon (Option.some.inj heq ▸ List.mem_cons_self)
  have hne : r.line ≠ [] := by
    rw [hline]
    simp
  unfold endLine
  rw [if_neg hne, if_neg hhead, htake, hdrop]
  rfl

/-- Between two frames nothing is buffered. -/
structure Between (r : Reader) : Prop where
  line : r.line = []
  afterReturn : r.afterReturn = false
  data : r.data = []
  type : r.type = []

/-- The buffers behind the lines of a frame. -/
def holding (r : Reader) : Frame → Reader
  | .message m => { r with id := m.id, type := m.type, data := m.data ++ ['\n'] }
  | .comment _ => r

theorem run_lines (h : r.Between) {frame : Frame} (hsound : frame.Sound) :
    r.run frame.lines = r.holding frame := by
  obtain ⟨line, afterReturn, data, type, id, messages⟩ := r
  obtain ⟨rfl, rfl, rfl, rfl⟩ := h
  cases frame with
  | comment text =>
    have hline : OneLine (':' :: ' ' :: text) := by simpa [Frame.Sound, OneLine] using hsound
    show run _ ((':' :: ' ' :: text) ++ '\n' :: []) = _
    rw [run_line hline rfl]
    simp [endLine, run, holding]
  | message m =>
    obtain ⟨hid, hnull, htype, -, hdata⟩ := hsound
    have hidLine : OneLine (['i', 'd'] ++ ':' :: ' ' :: m.id) := by simpa [OneLine] using hid
    have htypeLine : OneLine (['e', 'v', 'e', 'n', 't'] ++ ':' :: ' ' :: m.type) := by
      simpa [OneLine] using htype
    have hdataLine : OneLine (['d', 'a', 't', 'a'] ++ ':' :: ' ' :: m.data) := by
      simpa [OneLine] using hdata
    have hsplit : (Frame.message m).lines = (['i', 'd'] ++ ':' :: ' ' :: m.id) ++ '\n' ::
        ((['e', 'v', 'e', 'n', 't'] ++ ':' :: ' ' :: m.type) ++ '\n' ::
          ((['d', 'a', 't', 'a'] ++ ':' :: ' ' :: m.data) ++ '\n' :: [])) := by
      simp [Frame.lines]
    rw [hsplit, run_line hidLine rfl, endLine_field (by simp) (by simp) rfl,
      run_line htypeLine (by simp [field, hnull]), endLine_field (by simp) (by simp) rfl,
      run_line hdataLine (by simp [field, hnull]), endLine_field (by simp) (by simp) rfl]
    simp [field, hnull, run, holding]

/-- A whole frame adds its messages, and the reader stands between two frames. -/
theorem run_encode (h : r.Between) {frame : Frame} (hsound : frame.Sound) :
    (r.run frame.encode).Between ∧
      (r.run frame.encode).messages = r.messages ++ frame.messages := by
  have hrun : r.run frame.encode = (r.holding frame).endLine := by
    have hreturn : (r.holding frame).afterReturn = false := by
      cases frame <;> exact h.afterReturn
    rw [Frame.encode, run_append, run_lines h hsound]
    simp [run, feed, hreturn]
  obtain ⟨line, afterReturn, data, type, id, messages⟩ := r
  obtain ⟨rfl, rfl, rfl, rfl⟩ := h
  rw [hrun]
  cases frame with
  | comment text => exact ⟨⟨rfl, rfl, rfl, rfl⟩, (List.append_nil _).symm⟩
  | message m =>
    obtain ⟨-, -, -, htype, -⟩ := hsound
    simp [holding, endLine, dispatch, htype, Frame.messages]
    exact ⟨rfl, rfl, rfl, rfl⟩

/-! ## 4. Connections that break off -/

theorem messages_field (r : Reader) (name value : List Char) :
    (r.field name value).messages = r.messages := by
  unfold field
  split_ifs <;> rfl

theorem messages_endLine (r : Reader) : r.messages <+: r.endLine.messages := by
  unfold endLine
  split
  · unfold dispatch
    split
    · exact List.prefix_rfl
    · exact List.prefix_append _ _
  split
  · exact List.prefix_rfl
  · show r.messages <+: (r.field _ _).messages
    exact (messages_field r _ _).symm ▸ List.prefix_rfl

theorem messages_feed (r : Reader) (c : Char) : r.messages <+: (r.feed c).messages := by
  unfold feed
  split
  · split
    · exact List.prefix_rfl
    · exact messages_endLine r
  split
  · exact messages_endLine r
  · exact List.prefix_rfl

/-- A message that is dispatched is not taken back. -/
theorem messages_run (r : Reader) (text : List Char) : r.messages <+: (r.run text).messages := by
  induction text generalizing r with
  | nil => exact List.prefix_rfl
  | cons c text ih => exact (messages_feed r c).trans (ih (r.feed c))

/-- Nothing is dispatched within a line. -/
theorem messages_oneLine {text : List Char} (htext : OneLine text) :
    (r.run text).messages = r.messages := by
  induction text generalizing r with
  | nil => rfl
  | cons c text ih =>
    obtain ⟨hnewline, hreturn⟩ := htext
    rw [List.mem_cons, not_or] at hnewline hreturn
    rw [run_cons, ih ⟨hnewline.2, hreturn.2⟩]
    unfold feed
    rw [if_neg (Ne.symm hnewline.1), if_neg (Ne.symm hreturn.1)]

/-- A frame that does not arrive whole adds no message. -/
theorem messages_cut (h : r.Between) {frame : Frame} (hsound : frame.Sound) {n : ℕ}
    (hn : n < frame.encode.length) {broken : List Char} (hbroken : OneLine broken) :
    (r.run (frame.encode.take n ++ broken)).messages = r.messages := by
  have hlines : frame.encode.take n = frame.lines.take n := by
    rw [Frame.encode, List.length_append, List.length_singleton] at hn
    rw [Frame.encode, List.take_append_of_le_length (by omega)]
  have hfront : (r.run (frame.lines.take n)).messages = r.messages := by
    have hwhole : (r.run frame.lines).messages = r.messages := by
      rw [run_lines h hsound]
      cases frame <;> rfl
    have hrest := messages_run (r.run (frame.lines.take n)) (frame.lines.drop n)
    rw [← run_append, List.take_append_drop, hwhole] at hrest
    exact (hrest.eq_of_length_le (messages_run r _).length_le)
  rw [run_append, messages_oneLine hbroken, hlines, hfront]

/-- From the start of a frame on, the frames that arrive whole are read, and no other. -/
theorem messages_wire {frames : List Frame} (hsound : ∀ frame ∈ frames, frame.Sound)
    (h : r.Between) (n : ℕ) {broken : List Char} (hbroken : OneLine broken) :
    (r.run ((wire frames).take n ++ broken)).messages =
      r.messages ++ (whole frames n).flatMap Frame.messages := by
  induction frames generalizing r n with
  | nil => simp [wire, whole, messages_oneLine hbroken]
  | cons frame frames ih =>
    rw [List.forall_mem_cons] at hsound
    have hwire : wire (frame :: frames) = frame.encode ++ wire frames := rfl
    by_cases hn : frame.encode.length ≤ n
    · obtain ⟨hbetween, hmessages⟩ := run_encode h hsound.1
      have htake : (wire (frame :: frames)).take n =
          frame.encode ++ (wire frames).take (n - frame.encode.length) := by
        rw [hwire, List.take_append, List.take_of_length_le hn]
      rw [htake, List.append_assoc, run_append, ih hsound.2 hbetween, hmessages, whole, if_pos hn,
        List.flatMap_cons, List.append_assoc]
    · have hlt : n < frame.encode.length := by omega
      have htake : (wire (frame :: frames)).take n = frame.encode.take n := by
        rw [hwire, List.take_append_of_le_length (Nat.le_of_lt hlt)]
      rw [htake, messages_cut h hsound.1 hlt hbroken, whole, if_neg hn]
      simp

end Reader

theorem between_new : Reader.Between {} := ⟨rfl, rfl, rfl, rfl⟩

/-- A connection that breaks off is read up to its last whole frame. -/
theorem read_cut {frames : List Frame} (hsound : ∀ frame ∈ frames, frame.Sound) (n : ℕ)
    {broken : List Char} (hbroken : OneLine broken) :
    read ((wire frames).take n ++ broken) = (whole frames n).flatMap Frame.messages := by
  rw [read, Reader.messages_wire hsound between_new n hbroken]
  rfl

theorem whole_prefix (frames : List Frame) (n : ℕ) : whole frames n <+: frames := by
  induction frames generalizing n with
  | nil => exact List.prefix_rfl
  | cons frame frames ih =>
    rw [whole]
    split
    · exact (List.prefix_cons_inj frame).mpr (ih _)
    · exact List.nil_prefix

theorem whole_wire (frames : List Frame) : whole frames (wire frames).length = frames := by
  induction frames with
  | nil => rfl
  | cons frame frames ih =>
    have hlength : (wire (frame :: frames)).length = frame.encode.length + (wire frames).length :=
      List.length_append
    rw [whole, hlength, if_pos (Nat.le_add_right _ _), Nat.add_sub_cancel_left, ih]

/-- A connection is read frame by frame. -/
theorem read_wire {frames : List Frame} (hsound : ∀ frame ∈ frames, frame.Sound) :
    read (wire frames) = frames.flatMap Frame.messages := by
  have hempty : OneLine [] := ⟨by simp, by simp⟩
  have hcut := read_cut hsound (wire frames).length hempty
  rwa [List.take_length, List.append_nil, whole_wire] at hcut

end Lib.ServerSentEvents
