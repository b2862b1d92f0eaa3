import Runbook.Proofs.Run.NestedRun
import Runbook.Proofs.Run.Watch

/-!
# What observers see of a run

Whichever way a run ends, its thread writes the same things in the same order: each entry of its log to
the record and then to the stream, then its status, and only then it closes the stream and marks the
record as done (`writings_of_ran`). So there are four stages at which others may come in between
(`Stage`), and what they see follows from the stage at which they look.

`observers_see_one_run` says this of every run and of every order in which its thread, those who take
pictures of it and those who read its stream take turns. Pictures follow upon each other (`Precedes`) and
are true to the run (`Portrays`); who reads to the end has read the log.
-/

set_option autoImplicit false

namespace Runbook.Run

open Course (Parting firstRemark)

/-! ## What a run writes -/

/-- What is written of entries. -/
def body (entries : List Entry) : List Writing :=
  entries.flatMap fun e => [.append e, .put e.message]

/-- What is written last. -/
def lastWritings : Except Break Status → List Writing
  | .ok status => [.finish status, .close, .markDone]
  | .error _ => []

theorem body_append (entries more : List Entry) :
    body (entries ++ more) = body entries ++ body more := List.flatMap_append

/-- Events that do not end the run are written as their entries. -/
theorem writings_of_quiet {events : List Event} (h : Quiet events) :
    events.flatMap Event.writings = body (logOf events) := by
  induction events with
  | nil => rfl
  | cons event events ih =>
      obtain ⟨hevent, hrest⟩ := quiet_cons_iff.1 h
      rw [List.flatMap_cons, ih hrest]
      cases event with
      | entry e isOutput => rfl
      | passedOver why => rfl
      | _ => cases hevent

/-- The last events of a run are written as the last entry and the status. -/
theorem writings_of_parting {w : Workflow} {course : Transcript Task.Reply} {during last : List Event}
    {status : Status} (h : Parting w course during status last) :
    last.flatMap Event.writings = body (logOf last) ++ [.finish status] ∧
      status.isTerminal = true := by
  cases h with
  | passed => exact ⟨rfl, rfl⟩
  | byCondition => exact ⟨rfl, rfl⟩
  | byHook => exact ⟨rfl, rfl⟩
  | failed => exact ⟨rfl, rfl⟩
  | crashed => exact ⟨rfl, rfl⟩
  | cancelled => exact ⟨rfl, rfl⟩

/-- What is told by a run that broke off does not end it. -/
theorem quiet_told_of_broke {rounds depth : Nat} {k : Call} {c : Context} {deeds : List Deed}
    {t : Transcript Query.Reply} {b : Break} (h : k.Ran rounds depth c deeds t (.error b)) :
    Quiet (told c.run t) := by
  obtain ⟨first, hbegins, rfl⟩ := h.begins
  have hplace : c.run.depth < c.chain.length := by
    rw [h.place.2]
    exact Nat.lt_succ_self _
  rw [told_append, hbegins.told_eq_nil, List.nil_append]
  refine quiet_told_deeds hplace h.does ?_
  have hwhole := h.whole
  generalize hcourse : deeds.map Prod.fst = course at hwhole
  cases hwhole with
  | outOfRounds hlaps =>
      refine Course.still_append_iff.2 ⟨Course.still_said_iff.2 ?_, hlaps.error_calm.1⟩
      exact quiet_cons_iff.2 ⟨isQuiet_remark (by decide), quiet_nil⟩

/-- A run writes its log, and at its end its status, which is terminal. -/
theorem writings_of_ran {rounds depth : Nat} {k : Call} {c : Context} {deeds : List Deed}
    {t : Transcript Query.Reply} {r : Except Break Status} (h : k.Ran rounds depth c deeds t r) :
    (told c.run t).flatMap Event.writings = body (logOf (told c.run t)) ++ lastWritings r ∧
      ∀ status, r = .ok status → status.isTerminal = true ∧
        ∃ line, (logOf (told c.run t)).getLast? = some line ∧
          terminalLines (told c.run t) = [line.message] := by
  cases r with
  | error b =>
      refine ⟨?_, by rintro _ ⟨⟩⟩
      rw [writings_of_quiet (quiet_told_of_broke h)]
      exact (List.append_nil _).symm
  | ok status =>
      obtain ⟨during, last, htold, hquiet, hparting⟩ := told_of_ran h
      obtain ⟨line, hline, hterminal⟩ := hparting.line
      obtain ⟨hlast, hstatus⟩ := writings_of_parting hparting
      have hfirst : Quiet (firstRemark c.workflow :: during) :=
        quiet_cons_iff.2 ⟨isQuiet_remark (by decide), hquiet⟩
      have hlog : logOf (told c.run t) = logOf (firstRemark c.workflow :: during) ++ [line] := by
        rw [htold, logOf_append, logOf_append, hline]
        exact List.append_nil _
      constructor
      · rw [hlog, htold, List.flatMap_append, List.flatMap_append, writings_of_quiet hfirst, hlast,
          body_append, hline, List.append_assoc, List.append_assoc, List.append_assoc]
        rfl
      · rintro _ ⟨⟩
        refine ⟨hstatus, line, ?_, ?_⟩
        · rw [hlog, List.getLast?_concat]
        · have hlines : terminalLines (told c.run t) =
              terminalLines (firstRemark c.workflow :: during) ++ terminalLines last ++
                terminalLines [.closed] := by
            simp only [htold, terminalLines, List.filterMap_append]
          rw [hlines, hterminal, terminalLines_of_quiet hfirst]
          rfl

/-! ## Stages -/

/-- How far the thread is, which has written the first pieces and is still to write the others. -/
inductive Stage (entries : List Entry) :
    Except Break Status → List Writing → List Writing → Prop
  | writing {r : Except Break Status} {ws more : List Writing} : ws ++ more = body entries →
      Stage entries r ws (more ++ lastWritings r)
  | finished (status : Status) :
      Stage entries (.ok status) (body entries ++ [.finish status]) [.close, .markDone]
  | closed (status : Status) :
      Stage entries (.ok status) (body entries ++ [.finish status, .close]) [.markDone]
  | done (status : Status) :
      Stage entries (.ok status) (body entries ++ [.finish status, .close, .markDone]) []

section Stage

variable {entries : List Entry} {r : Except Break Status} {ws rest : List Writing}

theorem stage_of_append (h : ws ++ rest = body entries ++ lastWritings r) :
    Stage entries r ws rest := by
  have hbody : Stage entries r (body entries ++ []) ([] ++ lastWritings r) :=
    .writing ((List.append_nil _).trans (List.append_nil _))
  -- the thread stands among its entries, or they are written and it stands among the last pieces
  rcases List.append_eq_append_iff.1 h with ⟨more, hmore, rfl⟩ | ⟨more, rfl, hlast⟩
  · exact .writing hmore.symm
  · cases r with
    | error b =>
        obtain ⟨rfl, rfl⟩ := List.nil_eq_append_iff.1 hlast
        exact hbody
    | ok status =>
        match more with
        | [] =>
            obtain rfl := hlast
            exact hbody
        | [_] =>
            cases hlast
            exact .finished status
        | [_, _] =>
            cases hlast
            exact .closed status
        | [_, _, _] =>
            cases hlast
            exact .done status
        | _ :: _ :: _ :: _ :: _ => cases hlast

/-- Among the pieces that are written of entries there are only entries and lines. -/
theorem mem_body_cases {writing : Writing} (h : writing ∈ body entries) :
    (∃ e, writing = .append e) ∨ ∃ line, writing = .put line := by
  obtain ⟨e, -, hwriting⟩ := List.mem_flatMap.1 h
  rcases List.mem_cons.1 hwriting with rfl | hwriting
  · exact .inl ⟨e, rfl⟩
  · exact .inr ⟨e.message, List.mem_singleton.1 hwriting⟩

theorem entriesOf_body (entries : List Entry) : entriesOf (body entries) = entries := by
  induction entries with
  | nil => rfl
  | cons e entries ih => exact congrArg (e :: ·) ih

theorem linesOf_body (entries : List Entry) :
    linesOf (body entries) = entries.map Entry.message := by
  induction entries with
  | nil => rfl
  | cons e entries ih => exact congrArg (e.message :: ·) ih

/-- While entries are written the run has no status and its stream is open. -/
theorem still_in_body (h : ∀ writing ∈ ws, writing ∈ body entries) :
    statusOf? ws = none ∧ .close ∉ ws ∧ .markDone ∉ ws := by
  refine ⟨List.findSome?_eq_none_iff.2 fun writing hmem => ?_, fun hmem => ?_, fun hmem => ?_⟩
  · rcases mem_body_cases (h writing hmem) with ⟨e, rfl⟩ | ⟨line, rfl⟩
    · rfl
    · rfl
  · rcases mem_body_cases (h _ hmem) with ⟨e, ⟨⟩⟩ | ⟨line, ⟨⟩⟩
  · rcases mem_body_cases (h _ hmem) with ⟨e, ⟨⟩⟩ | ⟨line, ⟨⟩⟩

/-- A run that has a status has written all of its log. -/
theorem Stage.ended (h : Stage entries r ws rest) {status : Status}
    (hstatus : statusOf? ws = some status) :
    r = .ok status ∧ entriesOf ws = entries ∧ linesOf ws = entries.map Entry.message := by
  have hnone : statusOf? (body entries) = none := (still_in_body fun _ hmem => hmem).1
  have hlast : ∀ {last : Status} {tail : List Writing}, statusOf? tail = some last →
      entriesOf tail = [] → linesOf tail = [] → statusOf? (body entries ++ tail) = some status →
      last = status ∧ entriesOf (body entries ++ tail) = entries ∧
        linesOf (body entries ++ tail) = entries.map Entry.message := by
    intro last tail hlast hentries hlines hstatus
    rw [statusOf?_append, hnone, hlast] at hstatus
    refine ⟨Option.some.inj hstatus, ?_, ?_⟩
    · rw [entriesOf_append, entriesOf_body, hentries, List.append_nil]
    · rw [linesOf_append, linesOf_body, hlines, List.append_nil]
  cases h with
  | @writing _ _ more hbody =>
      have hsub : ∀ writing ∈ ws, writing ∈ body entries := fun writing hmem =>
        hbody ▸ List.mem_append_left more hmem
      rw [(still_in_body hsub).1] at hstatus
      cases hstatus
  | finished last =>
      obtain ⟨rfl, hall⟩ := hlast rfl rfl rfl hstatus
      exact ⟨rfl, hall⟩
  | closed last =>
      obtain ⟨rfl, hall⟩ := hlast rfl rfl rfl hstatus
      exact ⟨rfl, hall⟩
  | done last =>
      obtain ⟨rfl, hall⟩ := hlast rfl rfl rfl hstatus
      exact ⟨rfl, hall⟩

/-- The stream is closed at most once, only when the run has a status, and the record is marked as done
only when the stream is closed. -/
theorem Stage.order (h : Stage entries r ws rest) :
    ws.count .close ≤ 1 ∧ (.close ∈ ws → statusOf? ws ≠ none) ∧ (.markDone ∈ ws → .close ∈ ws) := by
  obtain ⟨-, hopen, hundone⟩ := still_in_body fun _ (hmem : _ ∈ body entries) => hmem
  cases h with
  | @writing _ _ more hbody =>
      have hsub : ∀ writing ∈ ws, writing ∈ body entries := fun writing hmem =>
        hbody ▸ List.mem_append_left more hmem
      obtain ⟨-, hopen', hundone'⟩ := still_in_body hsub
      rw [List.count_eq_zero_of_not_mem hopen']
      exact ⟨Nat.zero_le _, fun h => absurd h hopen', fun h => absurd h hundone'⟩
  | finished last => simp [List.count_eq_zero_of_not_mem hopen, hopen, hundone]
  | closed last => simp [List.count_eq_zero_of_not_mem hopen, statusOf?]
  | done last => simp [List.count_eq_zero_of_not_mem hopen, statusOf?]

/-- A thread that has nothing more to write has closed the stream and marked the record as done. -/
theorem Stage.complete {status : Status} (h : Stage entries (.ok status) ws []) :
    ws.count .close = 1 ∧ .markDone ∈ ws ∧ statusOf? ws = some status := by
  obtain ⟨hnone, hopen, -⟩ := still_in_body fun _ (hmem : _ ∈ body entries) => hmem
  generalize hr : Except.ok status = r at h
  generalize hrest : ([] : List Writing) = rest at h
  cases h with
  | writing hbody =>
      rw [← hr] at hrest
      simp [lastWritings] at hrest
  | finished last => cases hrest
  | closed last => cases hrest
  | done last =>
      cases hr
      refine ⟨?_, by simp, ?_⟩
      · simp [List.count_eq_zero_of_not_mem hopen]
      · rw [statusOf?_append, hnone]
        rfl

/-- What is written next is not refused: a line comes before the stream is closed, and a status is the
one with which the run ends. -/
theorem Stage.next {writing : Writing} (h : Stage entries r ws (writing :: rest)) :
    (∀ line, writing = .put line → .close ∉ ws) ∧
      ∀ status, writing = .finish status → r = .ok status := by
  generalize hpending : writing :: rest = pending at h
  cases h with
  | @writing r _ more hbody =>
      have hsub : ∀ writing ∈ ws, writing ∈ body entries := fun writing hmem =>
        hbody ▸ List.mem_append_left more hmem
      refine ⟨fun _ _ => (still_in_body hsub).2.1, ?_⟩
      rintro status rfl
      -- a status is none of the entries, so the thread has come to their end
      cases more with
      | nil =>
          cases r with
          | error b => cases hpending
          | ok last =>
              cases hpending
              rfl
      | cons next more =>
          cases hpending
          have hmem : Writing.finish status ∈ body entries :=
            hbody ▸ List.mem_append_right ws (List.mem_cons_self ..)
          exact absurd (mem_body_cases hmem) (by simp)
  | finished last =>
      cases hpending
      exact ⟨by rintro line ⟨⟩, by rintro status ⟨⟩⟩
  | closed last =>
      cases hpending
      exact ⟨by rintro line ⟨⟩, by rintro status ⟨⟩⟩
  | done last => cases hpending

end Stage

/-! ## Pictures -/

/-- Of two pictures the later one goes on with the earlier one, and is the same if the run had ended. -/
structure Precedes (e e' : Execution) : Prop where
  scope : e'.scope = e.scope
  logs : e.logs <+: e'.logs
  status : e'.status ≠ e.status → e.status = .running
  final : e.status.isTerminal = true → e' = e

/-- A picture is true to a run: it has an end exactly if the run has ended, and then it shows its log,
with the one terminal line at the end. -/
structure Portrays (c : Context) (t : Transcript Query.Reply) (e : Execution) : Prop where
  id : e.id = c.run.executionId ∧ e.workflowId = c.workflow.id ∧ e.scope = c.scope
  endTime : e.endTime.isSome = e.status.isTerminal
  log : e.status.isTerminal = true → e.logs.map TimedEntry.entry = logOf (told c.run t)
  last : e.status.isTerminal = true → ∃ line, (e.logs.map TimedEntry.entry).getLast? = some line ∧
    terminalLines (told c.run t) = [line.message]

/-- A run that has just begun, with all that its thread is going to write. -/
def Watch.start (c : Context) (t : Transcript Query.Reply) (now : Timestamp) : Watch where
  live := { record := newRecord c.run.executionId c.workflow.id c.scope now }
  pending := (told c.run t).flatMap Event.writings

namespace Watch

section Run

variable {rounds depth : Nat} {k : Call} {c : Context} {deeds : List Deed}
  {t : Transcript Query.Reply} {r : Except Break Status} {now : Timestamp}
  {moves more before after : List Move} {s s' : Watch}

theorem kept_start (c : Context) (t : Transcript Query.Reply) (now : Timestamp) :
    Kept [] (start c t now) where
  traced := ⟨rfl, rfl, by rintro status ⟨⟩, rfl, ⟨by rintro ⟨⟩, by rintro ⟨⟩⟩⟩
  closed := ⟨by rintro ⟨⟩, by rintro ⟨⟩⟩
  waits := ⟨[], .opened [], rfl⟩

theorem kept_of_happens (hmoves : Happens Step (start c t now) moves s) :
    Kept moves s ∧ Leads (start c t now).live.record s.live.record :=
  (kept_start c t now).happens hmoves

/-- At each moment of a history the thread is at one of the stages. -/
theorem stage_of_happens (h : k.Ran rounds depth c deeds t r)
    (hmoves : Happens Step (start c t now) moves s) :
    Stage (logOf (told c.run t)) r (written moves) s.pending :=
  stage_of_append ((written_append_pending hmoves).trans (writings_of_ran h).1)

/-- A run has a terminal status as soon as one is written. -/
theorem Traced.isTerminal_iff {writings : List Writing} {record : Record}
    (h : Traced writings record) :
    record.status.isTerminal = true ↔ statusOf? writings ≠ none := by
  rw [h.status]
  cases hstatus : statusOf? writings with
  | none => simp [Status.isTerminal]
  | some status => simpa using h.terminal status hstatus

/-- Once the run has ended, all of its log is written. -/
theorem log_of_terminal (h : k.Ran rounds depth c deeds t r)
    (hmoves : Happens Step (start c t now) moves s) (hended : statusOf? (written moves) ≠ none) :
    (∃ status, r = .ok status) ∧
      s.live.record.logs.map TimedEntry.entry = logOf (told c.run t) ∧
      linesOf (written moves) = messages c.run t := by
  obtain ⟨status, hstatus⟩ := Option.ne_none_iff_exists'.1 hended
  obtain ⟨hr, hentries, hlines⟩ := (stage_of_happens h hmoves).ended hstatus
  exact ⟨⟨status, hr⟩, (kept_of_happens hmoves).1.traced.entries.trans hentries, hlines⟩

/-- Every picture is true to the run. -/
theorem portrays_of_happens (h : k.Ran rounds depth c deeds t r)
    (hmoves : Happens Step (start c t now) moves s) :
    Portrays c t s.live.record.snapshot := by
  obtain ⟨hkept, hleads⟩ := kept_of_happens hmoves
  have hlog : s.live.record.status.isTerminal = true →
      (∃ status, r = .ok status) ∧
        s.live.record.logs.map TimedEntry.entry = logOf (told c.run t) := by
    intro hended
    obtain ⟨hr, hentries, -⟩ := log_of_terminal h hmoves (hkept.traced.isTerminal_iff.1 hended)
    exact ⟨hr, hentries⟩
  refine ⟨⟨hleads.id, hleads.workflowId, hleads.scope⟩, hkept.traced.endTime,
    fun hended => (hlog hended).2, fun hended => ?_⟩
  obtain ⟨⟨status, hr⟩, hentries⟩ := hlog hended
  obtain ⟨-, line, hline, hterminal⟩ := (writings_of_ran h).2 status hr
  exact ⟨line, (congrArg List.getLast? hentries).trans hline, hterminal⟩

/-- Of two pictures the later one goes on with the earlier one. -/
theorem precedes_of_happens (h : k.Ran rounds depth c deeds t r)
    (hmoves : Happens Step (start c t now) moves s) (hmore : Happens Step s more s') :
    Precedes s.live.record.snapshot s'.live.record.snapshot := by
  obtain ⟨hkept, -⟩ := kept_of_happens hmoves
  obtain ⟨-, hleads⟩ := hkept.happens hmore
  refine ⟨hleads.scope, hleads.logs, fun hchanged => ?_, fun hended => ?_⟩
  · exact hleads.ending.resolve_right fun hsame => hchanged hsame.1
  · have hnot : s.live.record.status ≠ .running := by
      intro hrunning
      rw [show s.live.record.snapshot.status = .running from hrunning] at hended
      cases hended
    obtain ⟨hstatus, hend⟩ := hleads.ending.resolve_left hnot
    -- both logs are the log of the run, so the longer one is no longer
    have hended' : s'.live.record.snapshot.status.isTerminal = true := by
      rw [show s'.live.record.snapshot.status = s.live.record.snapshot.status from hstatus]
      exact hended
    have hentries := ((portrays_of_happens h (hmoves.trans hmore)).log hended').trans
      ((portrays_of_happens h hmoves).log hended).symm
    have hlength := congrArg List.length hentries
    rw [List.length_map, List.length_map] at hlength
    have hlogs : s.live.record.logs = s'.live.record.logs :=
      hleads.logs.eq_of_length hlength.symm
    simp only [Record.snapshot, Execution.mk.injEq]
    exact ⟨hleads.id, hleads.workflowId, hstatus, hleads.scope, hlogs.symm, hleads.startTime, hend⟩

/-- What the thread is to write next is not refused. -/
theorem exists_of_pending (h : k.Ran rounds depth c deeds t r)
    (hmoves : Happens Step (start c t now) moves s) {writing : Writing} {rest : List Writing}
    (hpending : s.pending = writing :: rest) (later : Timestamp) :
    ∃ live, writing.perform later s.live = some live := by
  have hstage := stage_of_happens h hmoves
  rw [hpending] at hstage
  obtain ⟨hput, hfinish⟩ := hstage.next
  cases writing with
  | append e => exact ⟨_, rfl⟩
  | put line =>
      have hopen : s.live.stream.closed = false := by
        rw [Bool.eq_false_iff]
        exact fun hclosed => hput line rfl ((kept_of_happens hmoves).1.closed.1 hclosed)
      simp only [Writing.perform, Stream.put, hopen, Bool.false_eq_true, if_false]
      exact ⟨_, rfl⟩
  | finish status =>
      have hterminal := ((writings_of_ran h).2 status (hfinish status rfl)).1
      obtain ⟨record, changed, htaken⟩ : ∃ record changed,
          s.live.record.finish later status = .ok (record, changed) := by
        rw [Record.finish, hterminal, if_neg (by decide)]
        split
        · exact ⟨_, _, rfl⟩
        · exact ⟨_, _, rfl⟩
      rw [Writing.perform, htaken]
      exact ⟨_, rfl⟩
  | close => exact ⟨_, rfl⟩
  | markDone => exact ⟨_, rfl⟩

/-- A reader who has read to the end has read the log, and nothing is read after that. -/
theorem read_of_ended (h : k.Ran rounds depth c deeds t r) {reader : Nat}
    (hmoves : Happens Step (start c t now) (before ++ .ended reader :: after) s) :
    read before = messages c.run t ∧ read after = [] := by
  obtain ⟨s₁, s₂, hbefore, hstep, -⟩ := hmoves.split
  obtain ⟨hread, hclosed⟩ := (kept_of_happens hbefore).1.of_ended hstep
  -- the stream is closed only when all of the log is written
  have hall : ∀ {moves : List Move} {s : Watch}, Happens Step (start c t now) moves s →
      .close ∈ written moves → linesOf (written moves) = messages c.run t := by
    intro moves s hmoves hclosed
    have hended := (stage_of_happens h hmoves).order.2.1 hclosed
    exact (log_of_terminal h hmoves hended).2.2
  have hlines := hread.trans (hall hbefore hclosed)
  refine ⟨hlines, ?_⟩
  obtain ⟨left, -, hleft⟩ := (kept_of_happens hmoves).1.waits
  -- what is read later would have to be written later, and nothing is
  have hclosed' : .close ∈ written (before ++ .ended reader :: after) := by
    rw [written_append]
    exact List.mem_append_left _ hclosed
  rw [hall hmoves hclosed', read_append, hlines, List.append_assoc] at hleft
  exact (List.append_eq_nil_iff.1 (List.append_right_eq_self.1 hleft)).1

/-- The stream is closed at most once, and only when the run has ended; it is done only when the stream
is closed. -/
theorem order_of_happens (h : k.Ran rounds depth c deeds t r)
    (hmoves : Happens Step (start c t now) moves s) :
    (written moves).count .close ≤ 1 ∧
      (s.live.stream.closed = true → s.live.record.status.isTerminal = true) ∧
      (s.live.record.done = true → s.live.stream.closed = true) := by
  obtain ⟨hkept, -⟩ := kept_of_happens hmoves
  obtain ⟨hcount, hstatus, hclosed⟩ := (stage_of_happens h hmoves).order
  rw [hkept.closed, hkept.traced.done, hkept.traced.isTerminal_iff]
  exact ⟨hcount, hstatus, hclosed⟩

/-- When the thread of a run that ends has nothing more to write, all this has happened. -/
theorem complete_of_happens {status : Status} (h : k.Ran rounds depth c deeds t (.ok status))
    (hmoves : Happens Step (start c t now) moves s) (hpending : s.pending = []) :
    (written moves).count .close = 1 ∧ s.live.record.done = true ∧ s.live.record.status = status := by
  obtain ⟨hkept, -⟩ := kept_of_happens hmoves
  have hstage := stage_of_happens h hmoves
  rw [hpending] at hstage
  obtain ⟨hcount, hdone, hstatus⟩ := hstage.complete
  refine ⟨hcount, hkept.traced.done.2 hdone, ?_⟩
  rw [hkept.traced.status, hstatus]
  rfl

/-- The thread can write all that is pending, and then nobody holds the mark if nobody did before. -/
theorem exists_written (h : k.Ran rounds depth c deeds t r)
    (hmoves : Happens Step (start c t now) moves s) :
    ∃ more s', Happens Step s more s' ∧ s'.pending = [] ∧ s'.holders = s.holders ∧
      ∀ m ∈ more, ∃ writing, m = .wrote writing := by
  obtain ⟨live, pending, holders⟩ := s
  induction pending generalizing live moves with
  | nil => exact ⟨[], _, .nothing, rfl, rfl, List.forall_mem_nil _⟩
  | cons writing rest ih =>
      obtain ⟨live', hperform⟩ := exists_of_pending h hmoves rfl now
      have hstep : Step ⟨live, writing :: rest, holders⟩ (.wrote writing) ⟨live', rest, holders⟩ :=
        .wrote now hperform
      obtain ⟨more, s', hmore, hpending, hholders, hwrote⟩ := ih live' (hmoves.further hstep)
      refine ⟨.wrote writing :: more, s', (Happens.single hstep).trans hmore, hpending, hholders, ?_⟩
      exact List.forall_mem_cons.2 ⟨⟨writing, rfl⟩, hwrote⟩

/-- A reader can read all lines that are left in a closed stream, and then its end. -/
theorem exists_read_to_end (left : List String) (record : Record) (cancelOn : Option String)
    (pending : List Writing) (reader : Nat) :
    ∃ moves s, Happens Step
        ⟨⟨record, ⟨left.map .line ++ [.endMark], true⟩, cancelOn⟩, pending, []⟩
        (moves ++ [.ended reader]) s ∧
      s.pending = pending ∧ ∀ who text, .line who text ∈ moves → who = reader := by
  induction left with
  | nil =>
      have hmark : Step ⟨⟨record, ⟨[.endMark], true⟩, cancelOn⟩, pending, []⟩ (.mark reader)
          ⟨⟨record, ⟨[], true⟩, cancelOn⟩, pending, [reader]⟩ := .mark rfl
      have hended : Step ⟨⟨record, ⟨[], true⟩, cancelOn⟩, pending, [reader]⟩ (.ended reader)
          ⟨⟨record, (⟨[], true⟩ : Stream).giveBack, cancelOn⟩, pending, [reader].erase reader⟩ :=
        .ended (List.mem_singleton_self reader)
      exact ⟨[.mark reader], _, (Happens.single hmark).further hended, rfl, by simp⟩
  | cons text left ih =>
      obtain ⟨moves, s, hmoves, hpending, halone⟩ := ih
      have hline : Step
          ⟨⟨record, ⟨.line text :: (left.map .line ++ [.endMark]), true⟩, cancelOn⟩, pending, []⟩
          (.line reader text)
          ⟨⟨record, ⟨left.map .line ++ [.endMark], true⟩, cancelOn⟩, pending, []⟩ := .line rfl
      refine ⟨.line reader text :: moves, s, (Happens.single hline).trans hmoves, hpending, ?_⟩
      intro who other hmem
      rcases List.mem_cons.1 hmem with hfirst | hrest
      · cases hfirst
        rfl
      · exact halone who other hrest

/-- A run that ends can be watched until a reader has read to the end. -/
theorem exists_watched_to_end {status : Status} (h : k.Ran rounds depth c deeds t (.ok status))
    (now : Timestamp) (reader : Nat) :
    ∃ moves s, Happens Step (start c t now) (moves ++ [.ended reader]) s ∧ s.pending = [] ∧
      ∀ who text, .line who text ∈ moves → who = reader := by
  have hstart : Happens Step (start c t now) [] (start c t now) := .nothing
  obtain ⟨written, s, hmoves, hpending, hholders, hwrote⟩ := exists_written h hstart
  obtain ⟨hcount, hdone, -⟩ := complete_of_happens h hmoves hpending
  have hclosed := (order_of_happens h hmoves).2.2 hdone
  obtain ⟨left, hwaits, -⟩ := (kept_of_happens hmoves).1.waits
  obtain ⟨⟨record, stream, cancelOn⟩, pending, holders⟩ := s
  obtain rfl : holders = [] := hholders
  dsimp only at hpending hclosed hwaits
  subst hpending
  cases hwaits with
  | opened => cases hclosed
  | closed =>
      obtain ⟨moves, s', hread, hpending', halone⟩ :=
        exists_read_to_end left record cancelOn [] reader
      refine ⟨written ++ moves, s', ?_, hpending', ?_⟩
      · rw [List.append_assoc]
        exact hmoves.trans hread
      · intro who text hmem
        rcases List.mem_append.1 hmem with hmem | hmem
        · obtain ⟨writing, hm⟩ := hwrote _ hmem
          cases hm
        · exact halone who text hmem

end Run

/-- Whatever order the thread of a run, those who take pictures of it and those who read its stream take
turns in:

* the later of two pictures goes on with the earlier one, and is the same once the run has ended;
* each picture is true to the run;
* the stream is closed at most once and only when the run has ended, and the record is done only after
  that;
* what the thread writes is never refused, and when it has written everything, the stream was closed
  once, the record is done, and its status is that of the run;
* who has read to the end has read the messages of the log in order, if nobody else has read of them,
  and otherwise all readers together have; nothing is read after that. -/
theorem observers_see_one_run {rounds depth : Nat} {k : Call} {t : Transcript Query.Reply}
    {r : Except Break Status} (h : Yields (k.execute rounds (depth + 1)) t (r.map .ok)) :
    ∃ c deeds, k.Ran rounds depth c deeds t r ∧
      ∀ now moves s, Happens Step (start c t now) moves s →
        (∀ before e between e' after,
          moves = before ++ .picture e :: (between ++ .picture e' :: after) → Precedes e e') ∧
        (∀ e, .picture e ∈ moves → Portrays c t e) ∧
        ((written moves).count .close ≤ 1 ∧
          (s.live.stream.closed = true → s.live.record.status.isTerminal = true) ∧
          (s.live.record.done = true → s.live.stream.closed = true)) ∧
        ((∀ writing rest, s.pending = writing :: rest →
            ∀ later, ∃ live, writing.perform later s.live = some live) ∧
          ∀ status, r = .ok status → s.pending = [] →
            (written moves).count .close = 1 ∧ s.live.record.done = true ∧
              s.live.record.status = status) ∧
        ∀ before reader after, moves = before ++ .ended reader :: after →
          read before = messages c.run t ∧
          ((∀ who text, .line who text ∈ before → who = reader) →
            readBy reader before = messages c.run t) ∧
          read after = [] := by
  obtain ⟨c, deeds, hran⟩ := k.ran_of_yields h
  refine ⟨c, deeds, hran, fun now moves s hmoves => ⟨?_, ?_, order_of_happens hran hmoves,
    ⟨?_, ?_⟩, ?_⟩⟩
  · intro before e between e' after heq
    rw [heq] at hmoves
    obtain ⟨s₁, s₂, hbefore, hstep, hrest⟩ := hmoves.split
    obtain ⟨s₃, s₄, hbetween, hstep', -⟩ := hrest.split
    cases hstep
    cases hstep'
    exact precedes_of_happens hran hbefore
      (.trans (Happens.single (.picture s₁)) hbetween)
  · intro e he
    obtain ⟨before, after, rfl⟩ := List.append_of_mem he
    obtain ⟨s₁, s₂, hbefore, hstep, -⟩ := hmoves.split
    cases hstep
    exact portrays_of_happens hran hbefore
  · intro writing rest hpending later
    exact exists_of_pending hran hmoves hpending later
  · rintro status rfl hpending
    exact complete_of_happens hran hmoves hpending
  · rintro before reader after rfl
    obtain ⟨hread, hafter⟩ := read_of_ended hran hmoves
    exact ⟨hread, fun halone => (readBy_eq_read halone).trans hread, hafter⟩

/-! ### A run that is watched to its end -/

open Store.Workflows (smallStore) in
/-- A reader who reads alone gets the messages of a run that fails. -/
theorem observers_see_one_run_smallStore :
    let k : Call := ⟨[], "a", []⟩
    let t := (k.execute 3 2).run.transcript (steady smallStore.get? false (.refused ""))
    Yields (k.execute 3 2) t (.ok (.ok .failed)) ∧
      ∃ c deeds, k.Ran 3 1 c deeds t (.ok .failed) ∧ ∃ moves s,
        Happens Step (start c t (Timestamp.ofUnix 0 0)) (moves ++ [.ended 7]) s ∧ s.pending = [] ∧
        s.live.record.status = .failed ∧ readBy 7 moves = messages c.run t := by
  intro k t
  have hresult : (k.execute 3 2).run.result (steady smallStore.get? false (.refused "")) =
      .ok (.ok .failed) := rfl
  have h : Yields (k.execute 3 2) t (.ok (.ok .failed)) := hresult ▸ yields_transcript _ _
  obtain ⟨c, deeds, hran, hall⟩ := observers_see_one_run (r := .ok .failed) h
  obtain ⟨moves, s, hmoves, hpending, halone⟩ :=
    exists_watched_to_end hran (Timestamp.ofUnix 0 0) 7
  obtain ⟨-, -, -, ⟨-, hcomplete⟩, hread⟩ := hall _ _ _ hmoves
  obtain ⟨-, -, hstatus⟩ := hcomplete .failed rfl hpending
  exact ⟨h, c, deeds, hran, moves, s, hmoves, hpending, hstatus,
    (hread moves 7 [] rfl).2.1 halone⟩

end Watch

end Runbook.Run
