import Runbook.Proofs.Happens
import Runbook.Proofs.Run.Live

/-!
# Watching a run

A run makes itself known through its record and its log stream. Its thread writes to them piece by piece
(`Writing`), and between any two of these pieces others may take pictures of the record, read the stream
or ask the run to stop. A `Watch` is what they share with the thread; a history of it is any order in
which they take turns.

Whatever the order, the record and the stream are what the thread wrote so far: `Traced` says so for the
record, `Waits` for the stream. A reader that takes the mark of the end holds it for a moment before it
puts the mark back, and `Waits` has a case for that moment.
-/

set_option autoImplicit false

namespace Runbook.Run

/-! ## What the thread writes -/

/-- One piece of what a thread writes about its run. -/
inductive Writing where
  /-- An entry goes to the log of the record. -/
  | append (e : Entry)
  /-- A line goes to the stream. -/
  | put (line : String)
  /-- The record gets a terminal status. -/
  | finish (status : Status)
  /-- The stream is closed. -/
  | close
  /-- The record is marked as done. -/
  | markDone
  deriving DecidableEq

/-- What a thread writes to make an event known. -/
def Event.writings : Event → List Writing
  | .entry e _ => [.append e, .put e.message]
  | .finished status _ => [.finish status]
  | .closed => [.close, .markDone]
  | _ => []

/-- Writes one piece, unless it is refused. -/
def Writing.perform (now : Timestamp) (l : Live) : Writing → Option Live
  | .append e => some { l with record := l.record.append now e }
  | .put line => (l.stream.put line).map fun stream => { l with stream := stream }
  | .finish status =>
    match l.record.finish now status with
    | .ok (record, _) => some { l with record := record }
    | .error _ => none
  | .close => some { l with stream := l.stream.close.1 }
  | .markDone => some { l with record := l.record.markDone }

/-- The world lets an outermost run write all of an event at once, if nothing of it is refused. -/
theorem Live.see_eq_of_writings {l l' : Live} {now : Timestamp} {run : Identity} {event : Event}
    (hdepth : run.depth = 0) (hnobody : l.cancelOn = none)
    (h : event.writings.foldlM (Writing.perform now) l = some l') : l.see now run event = l' := by
  unfold Live.see
  rw [if_neg (by simp [hdepth])]
  cases event with
  | entry e isOutput =>
      simp only [Event.writings, List.foldlM_cons, List.foldlM_nil, Writing.perform,
        Option.bind_eq_bind, Option.bind_some] at h
      cases hput : l.stream.put e.message with
      | none =>
          rw [hput] at h
          cases h
      | some stream =>
          rw [hput] at h
          rw [← Option.some.inj h]
          simp [Live.append, hput, hnobody]
  | finished status stepId =>
      simp only [Event.writings, List.foldlM_cons, List.foldlM_nil, Writing.perform,
        Option.bind_eq_bind] at h
      cases hfinish : l.record.finish now status with
      | error refusal =>
          rw [hfinish] at h
          cases h
      | ok result =>
          rw [hfinish] at h
          dsimp only
          rw [hfinish, ← Option.some.inj h]
  | closed => exact Option.some.inj h
  | passedOver why => exact Option.some.inj h
  | crashed crash => exact Option.some.inj h

/-- The entries that were written. -/
def entriesOf (writings : List Writing) : List Entry :=
  writings.filterMap fun
    | .append e => some e
    | _ => none

/-- The lines that were written. -/
def linesOf (writings : List Writing) : List String :=
  writings.filterMap fun
    | .put line => some line
    | _ => none

/-- The first status that was written. -/
def statusOf? (writings : List Writing) : Option Status :=
  writings.findSome? fun
    | .finish status => some status
    | _ => none

@[simp] theorem entriesOf_append (writings more : List Writing) :
    entriesOf (writings ++ more) = entriesOf writings ++ entriesOf more := List.filterMap_append

@[simp] theorem linesOf_append (writings more : List Writing) :
    linesOf (writings ++ more) = linesOf writings ++ linesOf more := List.filterMap_append

@[simp] theorem statusOf?_append (writings more : List Writing) :
    statusOf? (writings ++ more) = (statusOf? writings).or (statusOf? more) :=
  List.findSome?_append

/-! ## Those who watch -/

/-- What the thread of a run shares with those who watch it; `pending` is what the thread is still to
write, `holders` are the readers who have taken the mark of the end and not put it back yet. -/
structure Watch where
  live : Live
  pending : List Writing
  holders : List Nat := []

namespace Watch

/-- What can happen next. -/
inductive Move where
  /-- The thread writes something. -/
  | wrote (writing : Writing)
  /-- Somebody takes a picture. -/
  | picture (execution : Execution)
  /-- A reader takes a line. -/
  | line (reader : Nat) (text : String)
  /-- A reader takes the mark of the end. -/
  | mark (reader : Nat)
  /-- A reader puts the mark back, and knows that it has read everything. -/
  | ended (reader : Nat)
  /-- Somebody asks the run to stop. -/
  | cancel

/-- One step of the thread or of somebody who watches the run. -/
inductive Step : Watch → Move → Watch → Prop
  | wrote {live live' : Live} {writing : Writing} {pending : List Writing} {holders : List Nat}
      (now : Timestamp) : writing.perform now live = some live' →
      Step ⟨live, writing :: pending, holders⟩ (.wrote writing) ⟨live', pending, holders⟩
  | picture (s : Watch) : Step s (.picture s.live.record.snapshot) s
  | line {live : Live} {pending : List Writing} {holders : List Nat} {reader : Nat} {text : String}
      {stream : Stream} : live.stream.take = some (.line text, stream) →
      Step ⟨live, pending, holders⟩ (.line reader text)
        ⟨{ live with stream := stream }, pending, holders⟩
  | mark {live : Live} {pending : List Writing} {holders : List Nat} {reader : Nat}
      {stream : Stream} : live.stream.take = some (.endMark, stream) →
      Step ⟨live, pending, holders⟩ (.mark reader)
        ⟨{ live with stream := stream }, pending, reader :: holders⟩
  | ended {live : Live} {pending : List Writing} {holders : List Nat} {reader : Nat} :
      reader ∈ holders →
      Step ⟨live, pending, holders⟩ (.ended reader)
        ⟨{ live with stream := live.stream.giveBack }, pending, holders.erase reader⟩
  | cancel {live : Live} {pending : List Writing} {holders : List Nat} :
      Step ⟨live, pending, holders⟩ .cancel
        ⟨{ live with record := live.record.cancel }, pending, holders⟩

/-- What a thread writes in one go is a part of a history. -/
theorem happens_of_foldlM {writings rest : List Writing} {live live' : Live} {now : Timestamp}
    {holders : List Nat} (h : writings.foldlM (Writing.perform now) live = some live') :
    Happens Step ⟨live, writings ++ rest, holders⟩ (writings.map .wrote) ⟨live', rest, holders⟩ :=
  .of_foldlM (fun live pending => Watch.mk live pending holders) (Step.wrote now) h

/-- What the world does when an outermost run makes an event known is such a part. -/
theorem happens_see {rest : List Writing} {live live' : Live} {now : Timestamp}
    {holders : List Nat} {run : Identity} {event : Event} (hdepth : run.depth = 0)
    (hnobody : live.cancelOn = none)
    (h : event.writings.foldlM (Writing.perform now) live = some live') :
    Happens Step ⟨live, event.writings ++ rest, holders⟩ (event.writings.map .wrote)
      ⟨live.see now run event, rest, holders⟩ := by
  rw [Live.see_eq_of_writings hdepth hnobody h]
  exact happens_of_foldlM h

/-- What the thread wrote. -/
def written (moves : List Move) : List Writing :=
  moves.filterMap fun
    | .wrote writing => some writing
    | _ => none

/-- The lines that were read, by whomever. -/
def read (moves : List Move) : List String :=
  moves.filterMap fun
    | .line _ text => some text
    | _ => none

/-- The lines that one reader got. -/
def readBy (reader : Nat) (moves : List Move) : List String :=
  moves.filterMap fun
    | .line who text => if who = reader then some text else none
    | _ => none

/-! ### What was written so far -/

section Written

variable {moves more : List Move} {m : Move} {s s' : Watch}

@[simp] theorem written_append (moves more : List Move) :
    written (moves ++ more) = written moves ++ written more := List.filterMap_append

@[simp] theorem read_append (moves more : List Move) :
    read (moves ++ more) = read moves ++ read more := List.filterMap_append

/-- The thread writes what is pending, in order. -/
theorem written_append_pending (h : Happens Step s moves s') :
    written moves ++ s'.pending = s.pending := by
  induction h with
  | nothing => rfl
  | further _ hstep ih =>
      rw [written_append, List.append_assoc]
      cases hstep with
      | wrote now _ => exact ih
      | picture s => exact ih
      | line _ => exact ih
      | mark _ => exact ih
      | ended _ => exact ih
      | cancel => exact ih

/-- A reader who reads alone gets all that is read. -/
theorem readBy_eq_read {reader : Nat}
    (halone : ∀ who text, Move.line who text ∈ moves → who = reader) :
    readBy reader moves = read moves := by
  refine List.filterMap_congr fun m hm => ?_
  cases m with
  | line who text => exact if_pos (halone who text hm)
  | _ => rfl

end Written

/-! ### The record -/

/-- The record is what was written. -/
structure Traced (writings : List Writing) (r : Record) : Prop where
  entries : r.logs.map TimedEntry.entry = entriesOf writings
  status : r.status = (statusOf? writings).getD .running
  terminal : ∀ status, statusOf? writings = some status → status.isTerminal = true
  endTime : r.endTime.isSome = r.status.isTerminal
  done : r.done = true ↔ .markDone ∈ writings

/-- A later state of a record: it has the same beginning, a longer log, and another status only if it
was running. -/
structure Leads (r r' : Record) : Prop where
  id : r'.id = r.id
  workflowId : r'.workflowId = r.workflowId
  scope : r'.scope = r.scope
  startTime : r'.startTime = r.startTime
  logs : r.logs <+: r'.logs
  ending : r.status = .running ∨ r'.status = r.status ∧ r'.endTime = r.endTime

section Record

variable {writings : List Writing} {writing : Writing} {r r' r'' : Record} {l l' : Live}
  {now : Timestamp}

theorem Leads.refl (r : Record) : Leads r r :=
  ⟨rfl, rfl, rfl, rfl, List.prefix_rfl, .inr ⟨rfl, rfl⟩⟩

theorem Leads.trans (h : Leads r r') (h' : Leads r' r'') : Leads r r'' where
  id := h'.id.trans h.id
  workflowId := h'.workflowId.trans h.workflowId
  scope := h'.scope.trans h.scope
  startTime := h'.startTime.trans h.startTime
  logs := h.logs.trans h'.logs
  ending := by
    rcases h.ending with hrunning | ⟨hstatus, hend⟩
    · exact .inl hrunning
    · rw [← hstatus, ← hend]
      exact h'.ending

/-- What says nothing of the record changes nothing about it. -/
theorem Traced.silent (h : Traced writings r) (hentries : entriesOf [writing] = [])
    (hstatus : statusOf? writings ≠ none ∨ statusOf? [writing] = none)
    (hnot : writing ≠ .markDone) : Traced (writings ++ [writing]) r := by
  have hsame : statusOf? (writings ++ [writing]) = statusOf? writings := by
    rw [statusOf?_append]
    rcases hstatus with hbefore | hnone
    · obtain ⟨status, hstatus⟩ := Option.ne_none_iff_exists'.1 hbefore
      rw [hstatus]
      rfl
    · rw [hnone, Option.or_none]
  refine ⟨?_, hsame ▸ h.status, hsame ▸ h.terminal, h.endTime, ?_⟩
  · rw [entriesOf_append, hentries, List.append_nil]
    exact h.entries
  · rw [h.done, List.mem_append, List.mem_singleton]
    exact (or_iff_left (Ne.symm hnot)).symm

theorem Traced.append (h : Traced writings r) (now : Timestamp) (e : Entry) :
    Traced (writings ++ [.append e]) (r.append now e) := by
  have hstatus : statusOf? (writings ++ [.append e]) = statusOf? writings := by
    rw [statusOf?_append]
    exact Option.or_none
  refine ⟨?_, hstatus ▸ h.status, hstatus ▸ h.terminal, h.endTime, ?_⟩
  · rw [Record.append, List.map_append, h.entries, entriesOf_append]
    rfl
  · rw [Record.append, h.done]
    simp

/-- Of several statuses that are written the first one counts. -/
theorem Traced.finish (h : Traced writings r) {status : Status} {changed : Bool}
    (hfinish : r.finish now status = .ok (r', changed)) :
    Traced (writings ++ [.finish status]) r' ∧ Leads r r' := by
  obtain ⟨hterminal, ⟨hended, rfl⟩ | ⟨hrunning, rfl⟩⟩ := Record.finish_cases hfinish
  · refine ⟨h.silent rfl (.inl fun hnone => ?_) (by rintro ⟨⟩), .refl r'⟩
    rw [h.status, hnone] at hended
    cases hended
  -- no status was written yet, since the first one would have been taken
  · have hnone : statusOf? writings = none := by
      cases hbefore : statusOf? writings with
      | none => rfl
      | some first =>
          have hfirst := h.terminal first hbefore
          rw [h.status, hbefore] at hrunning
          rw [show first = .running from hrunning] at hfirst
          cases hfirst
    have hstatus : statusOf? (writings ++ [.finish status]) = some status := by
      rw [statusOf?_append, hnone]
      rfl
    refine ⟨⟨?_, ?_, ?_, hterminal.symm, ?_⟩, ?_⟩
    · rw [entriesOf_append]
      exact h.entries.trans (List.append_nil _).symm
    · rw [hstatus]
      rfl
    · rw [hstatus]
      rintro _ ⟨⟩
      exact hterminal
    · rw [h.done]
      simp
    · exact ⟨rfl, rfl, rfl, rfl, List.prefix_rfl, .inl hrunning⟩

theorem Traced.markDone (h : Traced writings r) :
    Traced (writings ++ [.markDone]) r.markDone := by
  have hstatus : statusOf? (writings ++ [.markDone]) = statusOf? writings := by
    rw [statusOf?_append]
    exact Option.or_none
  refine ⟨?_, hstatus ▸ h.status, hstatus ▸ h.terminal, h.endTime, ?_⟩
  · rw [entriesOf_append]
    exact h.entries.trans (List.append_nil _).symm
  · simp [Record.markDone]

/-- What is written goes on with what was written before. -/
theorem Traced.perform (h : Traced writings l.record)
    (hperform : writing.perform now l = some l') :
    Traced (writings ++ [writing]) l'.record ∧ Leads l.record l'.record := by
  cases writing with
  | append e =>
      obtain rfl := Option.some.inj hperform
      exact ⟨h.append now e, rfl, rfl, rfl, rfl, List.prefix_append .., .inr ⟨rfl, rfl⟩⟩
  | put line =>
      obtain ⟨stream, -, rfl⟩ := Option.map_eq_some_iff.1 hperform
      exact ⟨h.silent rfl (.inr rfl) (by rintro ⟨⟩), .refl _⟩
  | finish status =>
      simp only [Writing.perform] at hperform
      split at hperform
      · rename_i record changed hfinish
        obtain rfl := Option.some.inj hperform
        exact h.finish hfinish
      · cases hperform
  | close =>
      obtain rfl := Option.some.inj hperform
      exact ⟨h.silent rfl (.inr rfl) (by rintro ⟨⟩), .refl _⟩
  | markDone =>
      obtain rfl := Option.some.inj hperform
      exact ⟨h.markDone, rfl, rfl, rfl, rfl, List.prefix_rfl, .inr ⟨rfl, rfl⟩⟩

end Record

/-! ### The stream -/

/-- What waits in a stream: the lines that are left, and behind them the mark of the end, if the stream
is closed and no reader holds the mark. -/
inductive Waits : List String → Stream → List Nat → Prop
  | opened (left : List String) : Waits left ⟨left.map .line, false⟩ []
  | closed (left : List String) : Waits left ⟨left.map .line ++ [.endMark], true⟩ []
  | held (reader : Nat) : Waits [] ⟨[], true⟩ [reader]

section Stream

variable {left : List String} {stream stream' : Stream} {holders : List Nat}

/-- A line goes behind those that are left. -/
theorem Waits.put (h : Waits left stream holders) {text : String}
    (hput : stream.put text = some stream') :
    Waits (left ++ [text]) stream' holders ∧ stream'.closed = stream.closed := by
  cases h with
  | opened =>
      obtain rfl := Option.some.inj hput
      refine ⟨?_, rfl⟩
      have hwaiting := Waits.opened (left ++ [text])
      rwa [List.map_append] at hwaiting
  | closed => cases hput
  | held => cases hput

theorem Waits.close (h : Waits left stream holders) :
    Waits left stream.close.1 holders ∧ stream.close.1.closed = true := by
  cases h with
  | opened => exact ⟨.closed left, rfl⟩
  | closed => exact ⟨.closed left, rfl⟩
  | held reader => exact ⟨.held reader, rfl⟩

/-- A reader takes the first line that is left. -/
theorem Waits.line (h : Waits left stream holders) {text : String}
    (htake : stream.take = some (.line text, stream')) :
    ∃ rest, left = text :: rest ∧ Waits rest stream' holders ∧
      stream'.closed = stream.closed := by
  cases h with
  | opened =>
      cases left with
      | nil => cases htake
      | cons first rest =>
          cases htake
          exact ⟨rest, rfl, .opened rest, rfl⟩
  | closed =>
      cases left with
      | nil => cases htake
      | cons first rest =>
          cases htake
          exact ⟨rest, rfl, .closed rest, rfl⟩
  | held => cases htake

/-- A reader takes the mark only when no lines are left. -/
theorem Waits.mark (h : Waits left stream holders)
    (htake : stream.take = some (.endMark, stream')) :
    left = [] ∧ holders = [] ∧ stream' = ⟨[], true⟩ ∧ stream.closed = true := by
  cases h with
  | opened =>
      cases left with
      | nil => cases htake
      | cons first rest => cases htake
  | closed =>
      cases left with
      | nil =>
          cases htake
          exact ⟨rfl, rfl, rfl, rfl⟩
      | cons first rest => cases htake
  | held => cases htake

/-- A reader who holds the mark is the only one, and puts it back where it was. -/
theorem Waits.giveBack (h : Waits left stream holders) {reader : Nat} (hreader : reader ∈ holders) :
    left = [] ∧ Waits [] stream.giveBack (holders.erase reader) ∧ stream.closed = true ∧
      stream.giveBack.closed = true := by
  cases h with
  | opened => cases hreader
  | closed => cases hreader
  | held holder =>
      obtain rfl := List.mem_singleton.1 hreader
      rw [List.erase_cons_head]
      exact ⟨rfl, .closed [], rfl, rfl⟩

end Stream

/-! ### Histories -/

/-- The record and the stream are what the thread wrote, less the lines that were read. -/
structure Kept (moves : List Move) (s : Watch) : Prop where
  traced : Traced (written moves) s.live.record
  closed : s.live.stream.closed = true ↔ .close ∈ written moves
  waits : ∃ left, Waits left s.live.stream s.holders ∧ read moves ++ left = linesOf (written moves)

section Kept

variable {moves more : List Move} {m : Move} {s s' : Watch}

/-- The thread writes. -/
theorem Kept.wrote {live live' : Live} {writing : Writing} {pending : List Writing}
    {holders : List Nat} {now : Timestamp} (h : Kept moves ⟨live, writing :: pending, holders⟩)
    (hperform : writing.perform now live = some live') :
    Kept (moves ++ [.wrote writing]) ⟨live', pending, holders⟩ := by
  have hwritten : written (moves ++ [.wrote writing]) = written moves ++ [writing] :=
    written_append ..
  have hread : read (moves ++ [.wrote writing]) = read moves :=
    (read_append ..).trans (List.append_nil _)
  obtain ⟨left, hwaits, hleft⟩ := h.waits
  have htraced := (h.traced.perform hperform).1
  -- what is neither put nor closes the stream leaves it alone
  have hleave : live'.stream = live.stream → linesOf [writing] = [] → writing ≠ .close →
      Kept (moves ++ [.wrote writing]) ⟨live', pending, holders⟩ := by
    intro hstream hlines hnot
    refine ⟨hwritten ▸ htraced, ?_, left, ?_, ?_⟩
    · rw [hstream, hwritten, h.closed, List.mem_append, List.mem_singleton]
      exact (or_iff_left (Ne.symm hnot)).symm
    · rw [hstream]
      exact hwaits
    · rw [hread, hwritten, linesOf_append, hlines, List.append_nil]
      exact hleft
  cases writing with
  | append e =>
      obtain rfl := Option.some.inj hperform
      exact hleave rfl rfl (by rintro ⟨⟩)
  | put line =>
      obtain ⟨stream, hput, rfl⟩ := Option.map_eq_some_iff.1 hperform
      obtain ⟨hwaits', hclosed⟩ := hwaits.put hput
      refine ⟨hwritten ▸ htraced, ?_, left ++ [line], hwaits', ?_⟩
      · rw [hclosed, hwritten, h.closed]
        simp
      · rw [hread, hwritten, linesOf_append, ← List.append_assoc, hleft]
        rfl
  | finish status =>
      refine hleave ?_ rfl (by rintro ⟨⟩)
      simp only [Writing.perform] at hperform
      split at hperform
      · rw [← Option.some.inj hperform]
      · cases hperform
  | close =>
      obtain rfl := Option.some.inj hperform
      obtain ⟨hwaits', hclosed⟩ := hwaits.close
      refine ⟨hwritten ▸ htraced, ?_, left, hwaits', ?_⟩
      · rw [hwritten]
        exact iff_of_true hclosed (List.mem_append_right _ (List.mem_singleton_self _))
      · rw [hread, hwritten, linesOf_append]
        exact hleft.trans (List.append_nil _).symm
  | markDone =>
      obtain rfl := Option.some.inj hperform
      exact hleave rfl rfl (by rintro ⟨⟩)

/-- Somebody else takes a step, who may read of the lines that are left. -/
theorem Kept.beside (h : Kept moves s) {left left' : List String}
    (hleft : read moves ++ left = linesOf (written moves)) (hm : written [m] = [])
    (htraced : Traced (written moves) s'.live.record)
    (hclosed : s'.live.stream.closed = s.live.stream.closed)
    (hwaits : Waits left' s'.live.stream s'.holders) (hread : read [m] ++ left' = left) :
    Kept (moves ++ [m]) s' := by
  have hwritten : written (moves ++ [m]) = written moves := by
    rw [written_append, hm, List.append_nil]
  refine ⟨hwritten ▸ htraced, ?_, left', hwaits, ?_⟩
  · rw [hclosed, hwritten]
    exact h.closed
  · rw [read_append, List.append_assoc, hread, hwritten]
    exact hleft

/-- Each step keeps the record and the stream what was written. -/
theorem Kept.step (h : Kept moves s) (hstep : Step s m s') :
    Kept (moves ++ [m]) s' ∧ Leads s.live.record s'.live.record := by
  obtain ⟨left, hwaits, hleft⟩ := h.waits
  cases hstep with
  | wrote now hperform => exact ⟨h.wrote hperform, (h.traced.perform hperform).2⟩
  | picture s => exact ⟨h.beside hleft rfl h.traced rfl hwaits rfl, .refl _⟩
  | line htake =>
      obtain ⟨rest, rfl, hwaits', hclosed⟩ := hwaits.line htake
      exact ⟨h.beside hleft rfl h.traced hclosed hwaits' rfl, .refl _⟩
  -- the mark stands behind all lines, so its taker and the one who puts it back leave none unread
  | @mark live pending holders reader stream htake =>
      obtain ⟨rfl, rfl, rfl, hclosed⟩ := hwaits.mark htake
      exact ⟨h.beside hleft rfl h.traced hclosed.symm (.held reader) rfl, .refl _⟩
  | ended hreader =>
      obtain ⟨rfl, hwaits', hclosed, hclosed'⟩ := hwaits.giveBack hreader
      exact ⟨h.beside hleft rfl h.traced (hclosed'.trans hclosed.symm) hwaits' rfl, .refl _⟩
  | cancel =>
      have htraced := h.traced
      refine ⟨h.beside hleft rfl ?_ rfl hwaits rfl, ?_⟩
      · exact ⟨htraced.entries, htraced.status, htraced.terminal, htraced.endTime, htraced.done⟩
      · exact ⟨rfl, rfl, rfl, rfl, List.prefix_rfl, .inr ⟨rfl, rfl⟩⟩

/-- So does each history, and the record leads from where it was. -/
theorem Kept.happens (h : Kept moves s) (hmore : Happens Step s more s') :
    Kept (moves ++ more) s' ∧ Leads s.live.record s'.live.record := by
  induction hmore with
  | nothing =>
      rw [List.append_nil]
      exact ⟨h, .refl _⟩
  | further _ hstep ih =>
      obtain ⟨hkept, hleads⟩ := ih
      obtain ⟨hkept', hleads'⟩ := hkept.step hstep
      rw [← List.append_assoc]
      exact ⟨hkept', hleads.trans hleads'⟩

/-- Whoever has read to the end has read all that was written, and the stream is closed. -/
theorem Kept.of_ended (h : Kept moves s) {reader : Nat} (hstep : Step s (.ended reader) s') :
    read moves = linesOf (written moves) ∧ .close ∈ written moves := by
  obtain ⟨left, hwaits, hleft⟩ := h.waits
  cases hstep with
  | ended hreader =>
      obtain ⟨rfl, -, hclosed, -⟩ := hwaits.giveBack hreader
      exact ⟨(List.append_nil _).symm.trans hleft, h.closed.1 hclosed⟩

end Kept

end Watch

end Runbook.Run
