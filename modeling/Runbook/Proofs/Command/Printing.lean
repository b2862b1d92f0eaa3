import Runbook.Command.Answer
import Runbook.Proofs.Run.Observers

/-!
# Printing a run

A run of the command line has two threads. One makes the exchanges of the execution and writes what it
makes known, piece by piece; the other prints the lines of the stream as they come. The user may interrupt
the second one once, right behind a line. It then asks the run to stop, by which the interrupt reaches the
first one, and goes on printing. Having read to the end, it waits until the record is done, and exits. Between
any two of its steps the first thread may take any number of steps.

A history of such a `Printing` is a history of a `Watch` with one reader (`happens_watch`), whatever the
order in which the threads take turns. So all that holds of those who watch a run holds of what is printed.
-/

set_option autoImplicit false

namespace Runbook.Command

open Run (Live Writing Query Exchange Transcript Dialogue Break Identity Watch told)
open Run.Dialogue (Goes Ends)

/-- Where the thread is that prints. -/
inductive Phase where
  /-- It waits for a line. -/
  | reading
  /-- It has just printed a line. -/
  | printed
  /-- It was interrupted, and has not asked the run to stop yet. -/
  | interrupted
  /-- It has taken the mark of the end. -/
  | holding
  /-- It has put the mark back, and waits for the record to be done. -/
  | waiting
  | exited (code : Int)
  deriving DecidableEq, Repr

/-- Whether more lines may be printed. -/
def Phase.reads : Phase → Bool
  | reading | printed => true
  | _ => false

/-- Whether everything was read. -/
def Phase.over : Phase → Bool
  | waiting | exited _ => true
  | _ => false

theorem Phase.not_holding {phase : Phase} (h : phase.reads = true) : phase ≠ .holding := by
  rintro rfl
  cases h

/-- An execution that goes on while its lines are printed. -/
structure Printing where
  live : Live
  /-- What is still to be written of the event that is being made known. -/
  pending : List Writing := []
  /-- What is left of the execution. -/
  rest : Dialogue Query.Reply (Except Break (Except Failure Status))
  phase : Phase := .reading
  out : List String := []
  err : List String := []

namespace Printing

/-! ## Steps -/

/-- What can happen next. -/
inductive Move where
  /-- The execution asks something and gets a reply. -/
  | exchange (x : Exchange Query.Reply)
  /-- The thread of the execution writes something. -/
  | wrote (writing : Writing)
  /-- A line is printed. -/
  | line (text : String)
  /-- The user interrupts the printing. -/
  | interrupted
  /-- The interrupt reaches the run, which is asked to stop. -/
  | asked
  /-- The mark of the end is taken. -/
  | mark
  /-- The mark is put back. -/
  | ended
  | exit (code : Int)

/-- The replies that the record of the run allows: a check sees whether the run is to stop, and a command
is stopped only then. -/
def Fits (l : Live) : Exchange Query.Reply → Prop
  | ⟨.cancelRequested, requested⟩ => requested = l.record.cancelRequested
  | ⟨.wait _, stopped⟩ => stopped = true → l.record.cancelRequested = true
  | _ => True

/-- Asks the run to stop. -/
def cancelled (l : Live) : Live := { l with record := l.record.cancel }

/-- What a question does to the run: a command may ask it to stop. -/
def after (l : Live) : Query → Live
  | .cancel => cancelled l
  | _ => l

/-- One step of one of the threads; `own` is the run that is printed. -/
inductive Step (own : Identity) : Printing → Move → Printing → Prop
  | exchange {live : Live} {q : Query}
      {next : q.Reply → Dialogue Query.Reply (Except Break (Except Failure Status))} {phase : Phase}
      {out err : List String} (reply : q.Reply) : Fits live ⟨q, reply⟩ →
      Step own ⟨live, [], .ask q next, phase, out, err⟩ (.exchange ⟨q, reply⟩)
        ⟨after live q, (told own [⟨q, reply⟩]).flatMap Run.Event.writings, next reply, phase, out, err⟩
  | wrote {live live' : Live} {writing : Writing} {pending : List Writing}
      {rest : Dialogue Query.Reply (Except Break (Except Failure Status))} {phase : Phase}
      {out err : List String} (now : Timestamp) : writing.perform now live = some live' →
      Step own ⟨live, writing :: pending, rest, phase, out, err⟩ (.wrote writing)
        ⟨live', pending, rest, phase, out, err⟩
  | line {live : Live} {pending : List Writing}
      {rest : Dialogue Query.Reply (Except Break (Except Failure Status))} {phase : Phase}
      {out err : List String} {text : String} {stream : Run.Stream} : phase.reads = true →
      live.stream.take = some (.line text, stream) →
      Step own ⟨live, pending, rest, phase, out, err⟩ (.line text)
        ⟨{ live with stream := stream }, pending, rest, .printed, out ++ [text], err⟩
  | interrupted {live : Live} {pending : List Writing}
      {rest : Dialogue Query.Reply (Except Break (Except Failure Status))} {out : List String} :
      Step own ⟨live, pending, rest, .printed, out, []⟩ .interrupted
        ⟨live, pending, rest, .interrupted, out, ["Cancelling..."]⟩
  | asked {live : Live} {pending : List Writing}
      {rest : Dialogue Query.Reply (Except Break (Except Failure Status))} {out err : List String} :
      Step own ⟨live, pending, rest, .interrupted, out, err⟩ .asked
        ⟨cancelled live, pending, rest, .reading, out, err⟩
  | mark {live : Live} {pending : List Writing}
      {rest : Dialogue Query.Reply (Except Break (Except Failure Status))} {phase : Phase}
      {out err : List String} {stream : Run.Stream} : phase.reads = true →
      live.stream.take = some (.endMark, stream) →
      Step own ⟨live, pending, rest, phase, out, err⟩ .mark
        ⟨{ live with stream := stream }, pending, rest, .holding, out, err⟩
  | ended {live : Live} {pending : List Writing}
      {rest : Dialogue Query.Reply (Except Break (Except Failure Status))} {out err : List String} :
      Step own ⟨live, pending, rest, .holding, out, err⟩ .ended
        ⟨{ live with stream := live.stream.giveBack }, pending, rest, .waiting, out, err⟩
  | exit {live : Live} {pending : List Writing}
      {rest : Dialogue Query.Reply (Except Break (Except Failure Status))} {out err : List String} :
      live.record.done = true →
      Step own ⟨live, pending, rest, .waiting, out, err⟩ (.exit (exitOfStatus live.record.status))
        ⟨live, pending, rest, .exited (exitOfStatus live.record.status), out, err⟩

/-- What was exchanged. -/
def exchanges (moves : List Move) : Transcript Query.Reply :=
  moves.filterMap fun
    | .exchange x => some x
    | _ => none

variable {own : Identity} {moves more : List Move} {m : Move} {s s' : Printing}

@[simp] theorem exchanges_append (moves more : List Move) :
    exchanges (moves ++ more) = exchanges moves ++ exchanges more := List.filterMap_append

/-- The exchanges are those of the execution. -/
theorem goes_of_happens (h : Happens (Step own) s moves s') :
    Goes s.rest (exchanges moves) s'.rest := by
  induction h with
  | nothing => exact .here _
  | further _ hstep ih =>
      rw [exchanges_append]
      refine Run.Dialogue.goes_append_iff.2 ⟨_, ih, ?_⟩
      cases hstep with
      | @exchange live q next phase out err reply hfits => exact .ask q next reply (.here _)
      | wrote now hperform => exact .here _
      | line hreads htake => exact .here _
      | interrupted => exact .here _
      | asked => exact .here _
      | mark hreads htake => exact .here _
      | ended => exact .here _
      | exit hdone => exact .here _

/-! ## Being asked to stop -/

theorem perform_cancelRequested {now : Timestamp} {writing : Writing} {l l' : Live}
    (h : writing.perform now l = some l') :
    l'.record.cancelRequested = l.record.cancelRequested := by
  cases writing with
  | append e =>
      obtain rfl := Option.some.inj h
      rfl
  | put line =>
      obtain ⟨stream, -, rfl⟩ := Option.map_eq_some_iff.1 h
      rfl
  | finish status =>
      simp only [Writing.perform] at h
      split at h
      · rename_i record changed hfinish
        obtain rfl := Option.some.inj h
        obtain ⟨-, ⟨-, rfl⟩ | ⟨-, rfl⟩⟩ := Run.Record.finish_cases hfinish
        · rfl
        · rfl
      · cases h
  | close =>
      obtain rfl := Option.some.inj h
      rfl
  | markDone =>
      obtain rfl := Option.some.inj h
      rfl

/-- A run that is asked to stop is asked for good, and each check says so. -/
theorem isSet_of_cancelRequested (h : Happens (Step own) s moves s')
    (hasked : s.live.record.cancelRequested = true) :
    Run.IsSet (exchanges moves) ∧ s'.live.record.cancelRequested = true := by
  induction h with
  | nothing => exact ⟨by rintro ⟨⟩, hasked⟩
  | @further moves m s₁ s₂ _ hstep ih =>
      obtain ⟨hset, hstill⟩ := ih
      rw [exchanges_append, Run.isSet_append]
      cases hstep with
      | @exchange live q next phase out err reply hfits =>
          refine ⟨⟨hset, fun hmem => ?_⟩, ?_⟩
          · cases List.mem_singleton.1 hmem
            exact Bool.false_ne_true (hfits.trans hstill)
          · cases q with
            | cancel => rfl
            | _ => exact hstill
      | wrote now hperform =>
          exact ⟨⟨hset, by rintro ⟨⟩⟩, (perform_cancelRequested hperform).trans hstill⟩
      | line hreads htake => exact ⟨⟨hset, by rintro ⟨⟩⟩, hstill⟩
      | interrupted => exact ⟨⟨hset, by rintro ⟨⟩⟩, hstill⟩
      | asked => exact ⟨⟨hset, by rintro ⟨⟩⟩, rfl⟩
      | mark hreads htake => exact ⟨⟨hset, by rintro ⟨⟩⟩, hstill⟩
      | ended => exact ⟨⟨hset, by rintro ⟨⟩⟩, hstill⟩
      | exit hdone => exact ⟨⟨hset, by rintro ⟨⟩⟩, hstill⟩

/-! ## Watching -/

/-- What is seen of a printing, if `later` is what the execution is still to exchange. -/
def watch (own : Identity) (s : Printing) (later : Transcript Query.Reply) : Watch where
  live := s.live
  pending := s.pending ++ (told own later).flatMap Run.Event.writings
  holders := if s.phase = .holding then [0] else []

/-- What a move is for those who watch. -/
def seen : Move → List Watch.Move
  | .exchange ⟨.cancel, _⟩ => [.cancel]
  | .exchange _ => []
  | .wrote writing => [.wrote writing]
  | .line text => [.line 0 text]
  | .interrupted => []
  | .asked => [.cancel]
  | .mark => [.mark 0]
  | .ended => [.ended 0]
  | .exit _ => []

theorem told_cons (own : Identity) (x : Exchange Query.Reply) (t : Transcript Query.Reply) :
    told own (x :: t) = told own [x] ++ told own t := Run.told_append own [x] t

/-- Each step is a part of a history of the watch. -/
theorem happens_seen (hstep : Step own s m s') (later : Transcript Query.Reply) :
    Happens Watch.Step (s.watch own (exchanges [m] ++ later)) (seen m) (s'.watch own later) := by
  cases hstep with
  | @exchange live q next phase out err reply hfits =>
      have hsame : watch own ⟨live, [], .ask q next, phase, out, err⟩
          (exchanges [.exchange ⟨q, reply⟩] ++ later) =
            ⟨live, (told own [⟨q, reply⟩]).flatMap Run.Event.writings ++
              (told own later).flatMap Run.Event.writings, if phase = .holding then [0] else []⟩ := by
        show Watch.mk live ([] ++ (told own (⟨q, reply⟩ :: later)).flatMap Run.Event.writings) _ = _
        rw [told_cons, List.flatMap_append, List.nil_append]
      rw [hsame]
      cases q with
      | cancel => exact .single .cancel
      | _ => exact .nothing
  | wrote now hperform => exact .single (.wrote now hperform)
  | line hreads htake =>
      unfold watch
      rw [if_neg (Phase.not_holding hreads)]
      exact .single (.line htake)
  | interrupted => exact .nothing
  | asked => exact .single .cancel
  | mark hreads htake =>
      unfold watch
      rw [if_neg (Phase.not_holding hreads)]
      exact .single (.mark htake)
  | ended => exact .single (.ended (List.mem_singleton_self 0))
  | exit hdone => exact .nothing

/-- So is each history. -/
theorem happens_watch (h : Happens (Step own) s moves s') (later : Transcript Query.Reply) :
    Happens Watch.Step (s.watch own (exchanges moves ++ later)) (moves.flatMap seen)
      (s'.watch own later) := by
  induction h generalizing later with
  | nothing => exact .nothing
  | further _ hstep ih =>
      rw [exchanges_append, List.append_assoc, List.flatMap_append, List.flatMap_singleton]
      exact (ih _).trans (happens_seen hstep later)

/-! ## What is printed -/

/-- What is printed is what was read. -/
theorem out_of_happens (h : Happens (Step own) s moves s') :
    s'.out = s.out ++ Watch.read (moves.flatMap seen) := by
  induction h with
  | nothing => exact (List.append_nil _).symm
  | @further moves m s₁ s₂ _ hstep ih =>
      rw [List.flatMap_append, List.flatMap_singleton, Watch.read_append, ← List.append_assoc, ← ih]
      cases hstep with
      | @exchange live q next phase out err reply hfits =>
          cases q with
          | _ => exact (List.append_nil _).symm
      | wrote now hperform => exact (List.append_nil _).symm
      | line hreads htake => rfl
      | interrupted => exact (List.append_nil _).symm
      | asked => exact (List.append_nil _).symm
      | mark hreads htake => exact (List.append_nil _).symm
      | ended => exact (List.append_nil _).symm
      | exit hdone => exact (List.append_nil _).symm

/-- Once everything was read, the mark was put back. -/
theorem ended_of_over (h : Happens (Step own) s moves s') (hstart : s.phase.over = false)
    (hover : s'.phase.over = true) : .ended ∈ moves := by
  induction h with
  | nothing =>
      rw [hstart] at hover
      cases hover
  | @further moves m s₁ s₂ _ hstep ih =>
      cases hstep with
      | exchange reply hfits => exact List.mem_append_left _ (ih hover)
      | wrote now hperform => exact List.mem_append_left _ (ih hover)
      | line hreads htake => cases hover
      | interrupted => cases hover
      | asked => cases hover
      | mark hreads htake => cases hover
      | ended => exact List.mem_append_right _ (List.mem_singleton_self _)
      | exit hdone => exact List.mem_append_left _ (ih rfl)

/-- Whoever has exited did so with this code. -/
theorem exit_of_exited (h : Happens (Step own) s moves s') (hstart : ∀ code, s.phase ≠ .exited code)
    {code : Int} (hexited : s'.phase = .exited code) : .exit code ∈ moves := by
  induction h with
  | nothing => exact absurd hexited (hstart code)
  | @further moves m s₁ s₂ _ hstep ih =>
      cases hstep with
      | exchange reply hfits => exact List.mem_append_left _ (ih hexited)
      | wrote now hperform => exact List.mem_append_left _ (ih hexited)
      | line hreads htake => cases hexited
      | interrupted => cases hexited
      | asked => cases hexited
      | mark hreads htake => cases hexited
      | ended => cases hexited
      | exit hdone =>
          cases hexited
          exact List.mem_append_right _ (List.mem_singleton_self _)

/-! ## The run that is printed -/

open Run (Call Context Deed Yields messages)

/-- An execution that has begun, in the context of its run. -/
structure Begun (k : Call) (rounds depth : Nat) (c : Context) (first : Transcript Query.Reply)
    (rest : Dialogue Query.Reply (Except Break (Except Failure Status))) : Prop where
  begins : k.Begins c first
  goes : Goes (k.execute rounds (depth + 1)).run first rest

/-- The run has begun, and nothing is printed yet. -/
def start (c : Context) (rest : Dialogue Query.Reply (Except Break (Except Failure Status)))
    (now : Timestamp) : Printing where
  live := { record := Run.newRecord c.run.executionId c.workflow.id c.scope now }
  rest := rest

section Run

variable {k : Call} {rounds depth : Nat} {c : Context} {first t : Transcript Query.Reply}
  {rest : Dialogue Query.Reply (Except Break (Except Failure Status))}
  {r : Except Break (Except Failure Status)} {now : Timestamp}

/-- Whatever is exchanged after it has begun, it is the same run. -/
theorem Begun.ran (h : Begun k rounds depth c first rest) (hends : Ends rest t r) :
    ∃ deeds r', k.Ran rounds depth c deeds (first ++ t) r' ∧ r = r'.map .ok := by
  obtain ⟨⟨w, globals, executionId, rfl, rfl⟩, hgoes⟩ := h
  have hyields : Yields (k.execute rounds (depth + 1))
      (k.beginning w globals executionId ++ t) r := Run.Dialogue.goes_append_iff.2 ⟨_, hgoes, hends⟩
  have hmem : ⟨.globals, globals⟩ ∈ k.beginning w globals executionId ++ t :=
    List.mem_append_left _ (List.mem_cons_of_mem _ List.mem_cons_self)
  obtain ⟨c', deeds, r', hran, hr⟩ := k.ran_of_mem hyields hmem (by rintro id ⟨⟩)
  obtain ⟨_, ⟨w', globals', executionId', rfl, rfl⟩, ht⟩ := hran.begins
  -- the run that takes place begins with the same three exchanges
  obtain ⟨hfirst, -⟩ := List.append_inj ht rfl
  simp only [Call.beginning, List.cons.injEq, Sigma.mk.injEq] at hfirst
  obtain ⟨⟨-, hw⟩, ⟨-, hglobals⟩, ⟨-, hid⟩, -⟩ := hfirst
  cases hw
  cases hglobals
  cases hid
  exact ⟨deeds, r', hran, hr⟩

theorem told_first (h : Begun k rounds depth c first rest) (t : Transcript Query.Reply) :
    told c.run (first ++ t) = told c.run t := by
  rw [Run.told_append, h.begins.told_eq_nil, List.nil_append]

theorem watch_start (h : Begun k rounds depth c first rest) (t : Transcript Query.Reply) :
    (start c rest now).watch c.run t = Watch.start c (first ++ t) now := by
  rw [Watch.start, told_first h]
  rfl

/-- A history of the printing, seen by those who watch the run. -/
theorem happens_start (h : Begun k rounds depth c first rest)
    (hmoves : Happens (Step c.run) (start c rest now) moves s) (later : Transcript Query.Reply) :
    Happens Watch.Step (Watch.start c (first ++ (exchanges moves ++ later)) now)
      (moves.flatMap seen) (s.watch c.run later) := by
  rw [← watch_start h]
  exact happens_watch hmoves later

/-- What is left of the execution can be carried on to its end. -/
theorem exists_ran (h : Begun k rounds depth c first rest)
    (hmoves : Happens (Step c.run) (start c rest now) moves s) {later : Transcript Query.Reply}
    (hends : Ends s.rest later r) :
    ∃ deeds r', k.Ran rounds depth c deeds (first ++ (exchanges moves ++ later)) r' ∧
      r = r'.map .ok :=
  h.ran (Run.Dialogue.goes_append_iff.2 ⟨_, goes_of_happens hmoves, hends⟩)

/-- What is printed so far is the beginning of the log that the run has in the end. -/
theorem out_prefix (h : Begun k rounds depth c first rest)
    (hmoves : Happens (Step c.run) (start c rest now) moves s) {later : Transcript Query.Reply}
    {deeds : List Deed} {r : Except Break Status}
    (hran : k.Ran rounds depth c deeds (first ++ (exchanges moves ++ later)) r) :
    s.out <+: messages c.run (first ++ (exchanges moves ++ later)) := by
  have hwatch := happens_start h hmoves later
  obtain ⟨left, -, hleft⟩ := (Watch.kept_of_happens hwatch).1.waits
  have hall := congrArg Run.linesOf
    ((Watch.written_append_pending hwatch).trans (Run.writings_of_ran hran).1)
  have hlast : Run.linesOf (Run.lastWritings r) = [] := by
    cases r with
    | error b => rfl
    | ok status => rfl
  rw [Run.linesOf_append, Run.linesOf_append, Run.linesOf_body, hlast, List.append_nil,
    ← hleft, List.append_assoc] at hall
  rw [out_of_happens hmoves]
  exact ⟨_, hall⟩

/-- Whoever has read to the end has printed the whole log, and the run has ended. -/
theorem printed_of_over (h : Begun k rounds depth c first rest)
    (hmoves : Happens (Step c.run) (start c rest now) moves s) (hover : s.phase.over = true)
    {later : Transcript Query.Reply} {deeds : List Deed} {r : Except Break Status}
    (hran : k.Ran rounds depth c deeds (first ++ (exchanges moves ++ later)) r) :
    s.out = messages c.run (first ++ (exchanges moves ++ later)) ∧
      s.live.record.logs.map (·.entry.message) = s.out ∧ r = .ok s.live.record.status := by
  have hwatch := happens_start h hmoves later
  obtain ⟨before, after, hsplit⟩ := List.append_of_mem (ended_of_over hmoves rfl hover)
  have hseen : moves.flatMap seen = before.flatMap seen ++ .ended 0 :: after.flatMap seen := by
    rw [hsplit, List.flatMap_append, List.flatMap_cons]
    rfl
  rw [hseen] at hwatch
  obtain ⟨hread, hafter⟩ := Watch.read_of_ended hran hwatch
  have hout : s.out = messages c.run (first ++ (exchanges moves ++ later)) := by
    have hnone : Watch.read (.ended 0 :: after.flatMap seen) = Watch.read (after.flatMap seen) := rfl
    rw [out_of_happens hmoves, hseen, Watch.read_append, hnone, hread, hafter, List.append_nil]
    rfl
  -- the mark is read only when the status is written
  obtain ⟨s₁, s₂, hbefore, hstep, -⟩ := hwatch.split
  obtain ⟨-, hclosed⟩ := (Watch.kept_of_happens hbefore).1.of_ended hstep
  have hclosed' : .close ∈ Watch.written (before.flatMap seen ++ .ended 0 :: after.flatMap seen) := by
    rw [Watch.written_append]
    exact List.mem_append_left _ hclosed
  have hended := (Watch.stage_of_happens hran hwatch).order.2.1 hclosed'
  obtain ⟨-, hlogs, -⟩ := Watch.log_of_terminal hran hwatch hended
  obtain ⟨status, hstatus⟩ := Option.ne_none_iff_exists'.1 hended
  obtain ⟨hr, -, -⟩ := (Watch.stage_of_happens hran hwatch).ended hstatus
  refine ⟨hout, ?_, ?_⟩
  · have hmessages : s.live.record.logs.map (·.entry.message) =
        (s.live.record.logs.map TimedEntry.entry).map Entry.message := by
      rw [List.map_map]
      rfl
    rw [hmessages, hout]
    exact congrArg (List.map Entry.message) hlogs
  · have hsame : s.live.record.status = status := by
      rw [show s.live.record.status = _ from (Watch.kept_of_happens hwatch).1.traced.status, hstatus]
      rfl
    rw [hr, hsame]

/-- The exit code is that of the status with which the run ended. -/
theorem code_of_exited (h : Begun k rounds depth c first rest)
    (hmoves : Happens (Step c.run) (start c rest now) moves s) {code : Int}
    (hexited : s.phase = .exited code) {later : Transcript Query.Reply} {deeds : List Deed}
    {r : Except Break Status}
    (hran : k.Ran rounds depth c deeds (first ++ (exchanges moves ++ later)) r) :
    code = exitOfStatus s.live.record.status := by
  obtain ⟨before, after, rfl⟩ := List.append_of_mem (exit_of_exited hmoves (by rintro _ ⟨⟩) hexited)
  obtain ⟨s₁, s₂, hbefore, hstep, hafter⟩ := hmoves.split
  obtain ⟨-, -, hr⟩ := printed_of_over h hmoves (by rw [hexited]; rfl) hran
  rw [exchanges_append, List.append_assoc] at hran
  cases hstep with
  | exit hdone =>
      obtain ⟨-, -, hr'⟩ := printed_of_over h hbefore rfl hran
      rw [Except.ok.inj (hr.symm.trans hr')]

/-! ## Interrupting while a command runs -/

/-- A command was started, and since then no check was made of whether to stop. So it still runs, or
nobody has looked at its exit code yet. -/
def Running (t : Transcript Query.Reply) : Prop :=
  ∃ earlier command process meanwhile, t = earlier ++ Run.starts command process :: meanwhile ∧
    ∀ x ∈ meanwhile, x.1 ≠ .cancelRequested

/-- When a run that is running a command is asked to stop, no further command is started, and if no check
lets it go on later, it is cancelled. -/
theorem stops_of_asked (h : Begun k rounds depth c first rest)
    (hmoves : Happens (Step c.run) (start c rest now) (moves ++ .asked :: more) s)
    (hrunning : Running (exchanges moves)) :
    (exchanges more).countP Run.isLaunch = 0 ∧
      ∀ {later r}, Ends s.rest later r → Run.IsSet later → r = .ok (.ok .cancelled) := by
  obtain ⟨s₁, s₂, hbefore, hstep, hafter⟩ := hmoves.split
  obtain ⟨earlier, command, process, meanwhile, hcut, hnone⟩ := hrunning
  have hset : Run.IsSet (exchanges more) := by
    cases hstep with
    | asked => exact (isSet_of_cancelRequested hafter rfl).1
  have hset_meanwhile := Run.isSet_of_not_check hnone
  have hyields : ∀ {later r}, Ends s.rest later r → Yields (k.execute rounds (depth + 1))
      (first ++ earlier ++ Run.starts command process :: (meanwhile ++ (exchanges more ++ later)))
      r := by
    intro later r hends
    have hall := Run.Dialogue.goes_append_iff.2 ⟨_, h.goes,
      Run.Dialogue.goes_append_iff.2 ⟨_, goes_of_happens hmoves, hends⟩⟩
    have hmore : exchanges (.asked :: more) = exchanges more := rfl
    rwa [exchanges_append, hmore, hcut, List.append_assoc, List.append_assoc, List.cons_append,
      ← List.append_assoc] at hall
  constructor
  · obtain ⟨later, r, hends, hset_later⟩ := Run.exists_ends_isSet (d := s.rest)
    have happart := Run.apart_of_yields (hyields hends)
    rw [Run.signals_append, Run.signals_cons] at happart
    obtain ⟨busy, -, hafter⟩ := happart.of_append
    have hle := Run.countP_isLaunch_le hafter
      (Run.isSet_append.2 ⟨hset_meanwhile, Run.isSet_append.2 ⟨hset, hset_later⟩⟩)
    rw [List.countP_append, List.countP_append, if_pos rfl] at hle
    omega
  · intro later r hends hset_later
    exact (Run.cancelled_of_starts (hyields hends)
      (Run.isSet_append.2 ⟨hset_meanwhile, Run.isSet_append.2 ⟨hset, hset_later⟩⟩)).1

/-! ## Coming to an end -/

theorem exists_fits (l : Live) : ∀ q : Query, ∃ reply, Fits l ⟨q, reply⟩
  | .cancelRequested => ⟨_, rfl⟩
  | .workflow _ => ⟨none, trivial⟩
  | .globals => ⟨[], trivial⟩
  | .begin .. => ⟨"", trivial⟩
  | .launch _ => ⟨.refused "", trivial⟩
  | .wait _ => ⟨false, by rintro ⟨⟩⟩
  | .cancel => ⟨(), trivial⟩
  | .write _ => ⟨(), trivial⟩
  | .tell .. => ⟨(), trivial⟩

/-- What is to be written next is not refused. -/
theorem exists_perform (h : Begun k rounds depth c first rest) {live : Live} {writing : Writing}
    {pending : List Writing}
    {left : Dialogue Query.Reply (Except Break (Except Failure Status))} {phase : Phase}
    {out err : List String}
    (hmoves : Happens (Step c.run) (start c rest now) moves
      ⟨live, writing :: pending, left, phase, out, err⟩) (later : Timestamp) :
    ∃ live', writing.perform later live = some live' := by
  -- the rules speak of runs that have ended, so this one is carried on
  obtain ⟨u, r, hends, -⟩ := Run.exists_ends_isSet (d := left)
  obtain ⟨deeds, r, hran, -⟩ := exists_ran h hmoves hends
  exact Watch.exists_of_pending hran (happens_start h hmoves u) rfl later

/-- Nobody waits in vain: until the printing has exited there is always a next step, unless the run makes
too many rounds. -/
theorem exists_step (h : Begun k rounds depth c first rest)
    (hmoves : Happens (Step c.run) (start c rest now) moves s) :
    (∃ code, s.phase = .exited code) ∨ s.rest = .done (.error .outOfRounds) ∨
      ∃ m s', Step c.run s m s' := by
  obtain ⟨live, pending, left, phase, out, err⟩ := s
  cases pending with
  | cons writing pending =>
      obtain ⟨live', hperform⟩ := exists_perform h hmoves now
      exact .inr (.inr ⟨_, _, .wrote now hperform⟩)
  | nil =>
      cases left with
      | ask q next =>
          obtain ⟨reply, hfits⟩ := exists_fits live q
          exact .inr (.inr ⟨_, _, .exchange reply hfits⟩)
      | done ending =>
          obtain ⟨deeds, r, hran, hr⟩ := exists_ran h hmoves (.here _)
          have hwatch := happens_start h hmoves []
          obtain rfl : ending = r.map .ok := hr
          cases r with
          | error b =>
              obtain ⟨-, hyields⟩ := h
              have hall := Run.Dialogue.goes_append_iff.2 ⟨_, hyields, goes_of_happens hmoves⟩
              obtain rfl := Call.eq_outOfRounds_of_yields _ hall
              exact .inr (.inl rfl)
          -- all is written, so the stream is closed, and the record is done
          | ok status =>
              obtain ⟨-, hdone, -⟩ := Watch.complete_of_happens hran hwatch rfl
              have hclosed := (Watch.order_of_happens hran hwatch).2.2 hdone
              obtain ⟨unread, hwaits, -⟩ := (Watch.kept_of_happens hwatch).1.waits
              have hreads : phase.reads = true →
                  ∃ m s', Step c.run ⟨live, [], .done (.ok (.ok status)), phase, out, err⟩ m s' := by
                intro hreads
                have hnobody : (if phase = .holding then [0] else []) = ([] : List Nat) :=
                  if_neg (Phase.not_holding hreads)
                obtain ⟨record, stream, cancelOn⟩ := live
                dsimp only [watch] at hwaits hclosed
                rw [hnobody] at hwaits
                cases hwaits with
                | opened => cases hclosed
                | closed =>
                    cases unread with
                    | nil => exact ⟨_, _, .mark hreads rfl⟩
                    | cons text unread => exact ⟨_, _, .line hreads rfl⟩
              cases phase with
              | reading => exact .inr (.inr (hreads rfl))
              | printed => exact .inr (.inr (hreads rfl))
              | interrupted => exact .inr (.inr ⟨_, _, .asked⟩)
              | holding => exact .inr (.inr ⟨_, _, .ended⟩)
              | waiting => exact .inr (.inr ⟨_, _, .exit hdone⟩)
              | exited code => exact .inl ⟨code, rfl⟩

end Run

/-- What is left of a dialogue once a question has its reply. -/
def Left (d' d : Dialogue Query.Reply (Except Break (Except Failure Status))) : Prop :=
  ∃ q next reply, d = .ask q next ∧ d' = next reply

theorem wellFounded_left : WellFounded Left := by
  refine ⟨fun d => ?_⟩
  induction d with
  | done r => exact ⟨_, by rintro _ ⟨q, next, reply, ⟨⟩, -⟩⟩
  | ask q next ih =>
      refine ⟨_, ?_⟩
      rintro _ ⟨_, _, reply, hask, rfl⟩
      cases hask
      exact ih reply

/-- How many steps of the printing a phase counts for; an interrupt leads from `printed` back to `reading`. -/
def stepsOf : Phase → Nat
  | .reading => 5
  | .printed => 7
  | .interrupted => 6
  | .holding => 5
  | .waiting => 1
  | .exited _ => 0

/-- The steps of the printing that can come before the thread of the execution takes one. -/
def toGo (s : Printing) : Nat := 3 * s.live.stream.waiting.length + stepsOf s.phase

theorem length_of_take {stream stream' : Run.Stream} {item : Run.Item}
    (h : stream.take = some (item, stream')) :
    stream.waiting.length = stream'.waiting.length + 1 := by
  obtain ⟨waiting, closed⟩ := stream
  cases waiting with
  | nil => cases h
  | cons first others =>
      cases h
      rfl

/-- No history goes on for ever: what the execution asks gets less, then what it writes about it, then
what is printed of that. -/
theorem wellFounded_step (own : Identity) :
    WellFounded fun s' s : Printing => ∃ m, Step own s m s' := by
  have hwf : WellFounded (Prod.Lex Left (Prod.Lex (· < ·) (· < ·))) :=
    (Prod.lex ⟨Left, wellFounded_left⟩ (Prod.lex Nat.lt_wfRel Nat.lt_wfRel)).wf
  refine Subrelation.wf ?_ (InvImage.wf (fun s : Printing => (s.rest, s.pending.length, s.toGo)) hwf)
  rintro s' s ⟨m, hstep⟩
  -- the steps of the printing alone
  have hprints : ∀ {s s' : Printing}, s'.rest = s.rest → s'.pending = s.pending →
      s'.toGo < s.toGo →
      InvImage (Prod.Lex Left (Prod.Lex (· < ·) (· < ·)))
        (fun s : Printing => (s.rest, s.pending.length, s.toGo)) s' s := by
    intro s s' hrest hpending hless
    rw [InvImage, hrest, hpending]
    exact .right _ (.right _ hless)
  cases hstep with
  | exchange reply hfits => exact .left _ _ ⟨_, _, reply, rfl, rfl⟩
  | wrote now hperform => exact .right _ (.left _ _ (Nat.lt_succ_self _))
  | @line live pending rest phase out err text stream hreads htake =>
      refine hprints rfl rfl ?_
      have hlength := length_of_take htake
      cases phase with
      | reading => simp only [toGo, stepsOf]; omega
      | printed => simp only [toGo, stepsOf]; omega
      | _ => cases hreads
  | interrupted => exact hprints rfl rfl (Nat.lt_succ_self _)
  | asked => exact hprints rfl rfl (Nat.lt_succ_self _)
  | @mark live pending rest phase out err stream hreads htake =>
      refine hprints rfl rfl ?_
      have hlength := length_of_take htake
      cases phase with
      | reading => simp only [toGo, stepsOf]; omega
      | printed => simp only [toGo, stepsOf]; omega
      | _ => cases hreads
  | @ended live pending rest out err =>
      refine hprints rfl rfl ?_
      have hlength : live.stream.giveBack.waiting.length = live.stream.waiting.length + 1 :=
        List.length_append
      simp only [toGo, stepsOf]
      omega
  | exit hdone => exact hprints rfl rfl (Nat.lt_succ_self _)

end Printing

end Runbook.Command
