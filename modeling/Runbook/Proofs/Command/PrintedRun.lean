import Mathlib.Data.List.TakeDrop
import Mathlib.Data.List.TakeWhile
import Runbook.Proofs.Command.Printing

/-!
# What a printed run comes to

The command line prints a run of which the world keeps the record. That is a history of a `Printing` in
which each line is printed as soon as it is written, and the interrupt comes behind the first line upon
which it waits (`happens_runAndPrint`). So what holds of all histories holds of it.

`run_prints_its_log` says of all histories that the log is printed once, what the exit code is, that an
interrupt while a command runs cancels the run, and that the printing comes to its end.
-/

set_option autoImplicit false

namespace Runbook.Command.Printing

open Run (World Live Writing Query Exchange Transcript Dialogue Break Identity Watch Call Context told
  Yields messages)
open Run.Dialogue (Goes Ends)

/-! ## Lines that are printed at once -/

/-- Whether one of the lines is the one upon which the user waits. -/
def interrupts (interruptOn : Option String) (lines : List String) : Bool :=
  lines.any (some · == interruptOn)

/-- What the user is told of an interrupt behind one of the lines. -/
def cancelling (interruptOn : Option String) (lines : List String) : List String :=
  if interrupts interruptOn lines then ["Cancelling..."] else []

theorem interrupts_concat (interruptOn : Option String) (lines : List String) (line : String) :
    interrupts interruptOn (lines ++ [line]) =
      (interrupts interruptOn lines || interruptOn == some line) := by
  rw [interrupts, List.any_append, List.any_cons, List.any_nil, Bool.or_false, Bool.beq_comm]
  rfl

/-- What waits behind the lines of a stream. -/
def behind (closed : Bool) : List Run.Item := if closed then [.endMark] else []

/-- The world's state of a run, and one of the printing in which each line is printed at once; in the
world all lines wait. -/
inductive Shows (interruptOn : Option String) : Live → Printing → Prop
  | shows (record : Run.Record) (closed : Bool)
      (rest : Dialogue Query.Reply (Except Break (Except Failure Status))) {phase : Phase}
      {out : List String} : phase.reads = true →
      (interrupts interruptOn out = true → record.cancelRequested = true) →
      Shows interruptOn ⟨record, ⟨out.map .line ++ behind closed, closed⟩, interruptOn⟩
        ⟨⟨record, ⟨behind closed, closed⟩, none⟩, [], rest, phase, out, cancelling interruptOn out⟩

theorem Shows.record {interruptOn : Option String} {l : Live} {s : Printing}
    (h : Shows interruptOn l s) : s.live.record = l.record := by
  cases h
  rfl

theorem Shows.pending {interruptOn : Option String} {l : Live} {s : Printing}
    (h : Shows interruptOn l s) : s.pending = [] := by
  cases h
  rfl

/-- Nothing is printed yet of a run that has just begun. -/
theorem shows_start (interruptOn : Option String) (c : Context)
    (rest : Dialogue Query.Reply (Except Break (Except Failure Status))) (now : Timestamp) :
    Shows interruptOn ⟨(start c rest now).live.record, {}, interruptOn⟩ (start c rest now) :=
  @Shows.shows interruptOn (start c rest now).live.record false rest .reading [] rfl (by rintro ⟨⟩)

section Steps

variable {own : Identity} {interruptOn : Option String} {l live live' : Live} {s s' : Printing}
  {rest : Dialogue Query.Reply (Except Break (Except Failure Status))} {phase : Phase}
  {out err : List String} {pending : List Writing} {now : Timestamp}

/-- What a thread writes in one go is a part of a history. -/
theorem happens_of_foldlM {writings : List Writing}
    (h : writings.foldlM (Writing.perform now) live = some live') :
    Happens (Step own) ⟨live, writings ++ pending, rest, phase, out, err⟩ (writings.map .wrote)
      ⟨live', pending, rest, phase, out, err⟩ :=
  .of_foldlM (fun live pending => Printing.mk live pending rest phase out err) (Step.wrote now) h

/-- Behind a line that was printed the user interrupts if it is the first one upon which he waits. -/
theorem exists_shows_printed (record : Run.Record) {line : String}
    (hasked : interrupts interruptOn out = true → record.cancelRequested = true) :
    ∃ moves s', Happens (Step own)
        ⟨⟨record, ⟨[], false⟩, none⟩, [], rest, .printed, out ++ [line], cancelling interruptOn out⟩
        moves s' ∧
      Shows interruptOn ⟨if interruptOn == some line then record.cancel else record,
        ⟨(out ++ [line]).map .line ++ behind false, false⟩, interruptOn⟩ s' ∧ s'.rest = rest := by
  have hconcat := interrupts_concat interruptOn out line
  by_cases hfirst : interrupts interruptOn out = false ∧ (interruptOn == some line) = true
  · obtain ⟨hbefore, hupon⟩ := hfirst
    have hnothing : cancelling interruptOn out = [] := by
      rw [cancelling, hbefore, if_neg Bool.false_ne_true]
    have hcancelling : cancelling interruptOn (out ++ [line]) = ["Cancelling..."] := by
      rw [cancelling, hconcat, hupon, Bool.or_true, if_pos rfl]
    have hasked' : Happens (Step own)
        ⟨⟨record, ⟨[], false⟩, none⟩, [], rest, .printed, out ++ [line], []⟩ [.interrupted, .asked]
        ⟨⟨record.cancel, ⟨[], false⟩, none⟩, [], rest, .reading, out ++ [line], ["Cancelling..."]⟩ :=
      (Happens.single .interrupted).further .asked
    rw [if_pos hupon, hnothing]
    refine ⟨_, _, hasked', ?_, rfl⟩
    rw [← hcancelling]
    exact .shows record.cancel false rest rfl fun _ => rfl
  -- otherwise nothing happens, and what was asked before was asked for good
  · have hsame : interrupts interruptOn (out ++ [line]) = interrupts interruptOn out := by
      rw [hconcat]
      cases hbefore : interrupts interruptOn out with
      | true => rfl
      | false => exact Bool.eq_false_iff.2 fun hupon => hfirst ⟨hbefore, hupon⟩
    have hrecord : (if interruptOn == some line then record.cancel else record) = record := by
      split
      · rename_i hupon
        rw [hupon, Bool.or_true] at hconcat
        rw [Run.Record.cancel, ← hasked (hsame.symm.trans hconcat)]
      · rfl
    have hcancelling : cancelling interruptOn out = cancelling interruptOn (out ++ [line]) := by
      rw [cancelling, cancelling, hsame]
    rw [hrecord, hcancelling]
    exact ⟨[], _, .nothing, .shows record false rest rfl (hsame ▸ hasked), rfl⟩

/-- An entry that is written is printed at once. -/
theorem exists_shows_entry {e : Entry} {isOutput : Bool} (h : Shows interruptOn l s)
    (hwrite : (Run.Event.entry e isOutput).writings.foldlM (Writing.perform now) s.live = some live') :
    ∃ moves s', Happens (Step own) { s with pending := (Run.Event.entry e isOutput).writings } moves s' ∧
      Shows interruptOn (l.append now e) s' ∧ s'.rest = s.rest := by
  cases h with
  | @shows record closed rest phase out hreads hasked =>
      cases closed with
      | true => cases hwrite
      | false =>
          obtain rfl := Option.some.inj hwrite
          have hline : Step own
              ⟨⟨record.append now e, ⟨[.line e.message], false⟩, none⟩, [], rest, phase, out,
                cancelling interruptOn out⟩ (.line e.message)
              ⟨⟨record.append now e, ⟨[], false⟩, none⟩, [], rest, .printed, out ++ [e.message],
                cancelling interruptOn out⟩ := .line hreads rfl
          have happend : Live.append ⟨record, ⟨out.map .line ++ behind false, false⟩, interruptOn⟩ now e =
              ⟨if interruptOn == some e.message then (record.append now e).cancel
                else record.append now e,
                ⟨(out ++ [e.message]).map .line ++ behind false, false⟩, interruptOn⟩ := by
            have hput : Run.Stream.put ⟨out.map .line ++ behind false, false⟩ e.message =
                some ⟨(out ++ [e.message]).map .line ++ behind false, false⟩ := by
              simp [Run.Stream.put, behind]
            rw [Live.append, hput]
            split
            · rfl
            · rfl
          have hwritten := (happens_of_foldlM hwrite).further hline
          obtain ⟨moves, s', hmoves, hshows, hrest⟩ := exists_shows_printed (record.append now e) hasked
          rw [happend]
          exact ⟨_, s', hwritten.trans hmoves, hshows, hrest⟩

/-- What is no line of the log is written, and nothing is printed. -/
theorem exists_shows_silent {writings : List Writing}
    (hwrite : writings.foldlM (Writing.perform now) s.live = some live')
    (h : Shows interruptOn l ⟨live', [], s.rest, s.phase, s.out, s.err⟩) :
    ∃ moves s', Happens (Step own) { s with pending := writings } moves s' ∧
      Shows interruptOn l s' ∧ s'.rest = s.rest := by
  have hhappens : Happens (Step own) { s with pending := writings ++ [] } (writings.map .wrote)
      ⟨live', [], s.rest, s.phase, s.out, s.err⟩ := happens_of_foldlM hwrite
  rw [List.append_nil] at hhappens
  exact ⟨_, _, hhappens, h, rfl⟩

/-- So is everything that an outermost run makes known. -/
theorem exists_shows_see {event : Run.Event} (hdepth : own.depth = 0) (h : Shows interruptOn l s)
    (hwrite : event.writings.foldlM (Writing.perform now) s.live = some live') :
    ∃ moves s', Happens (Step own) { s with pending := event.writings } moves s' ∧
      Shows interruptOn (l.see now own event) s' ∧ s'.rest = s.rest := by
  have hown : ¬ (own.depth != 0) = true := by simp [hdepth]
  unfold Live.see
  rw [if_neg hown]
  cases h with
  | @shows record closed rest phase out hreads hasked =>
      cases event with
      | entry e isOutput => exact exists_shows_entry (.shows record closed rest hreads hasked) hwrite
      | finished status stepId =>
          have hfinished := hwrite
          simp only [Run.Event.writings, List.foldlM_cons, List.foldlM_nil, Writing.perform,
            Option.bind_eq_bind] at hfinished
          dsimp only
          cases hfinish : record.finish now status with
          | error refusal =>
              rw [hfinish] at hfinished
              cases hfinished
          | ok result =>
              obtain ⟨record', changed⟩ := result
              rw [hfinish] at hfinished
              obtain rfl := Option.some.inj hfinished
              refine exists_shows_silent hwrite (.shows record' closed rest hreads fun h => ?_)
              obtain ⟨-, ⟨-, rfl⟩ | ⟨-, rfl⟩⟩ := Run.Record.finish_cases hfinish
              · exact hasked h
              · exact hasked h
      | closed =>
          obtain rfl := Option.some.inj hwrite
          cases closed with
          | true =>
              exact exists_shows_silent hwrite (.shows record.markDone true rest hreads hasked)
          | false =>
              have hwaiting : out.map Run.Item.line ++ behind false ++ [.endMark] =
                  out.map .line ++ behind true := by
                simp [behind]
              refine exists_shows_silent hwrite ?_
              show Shows interruptOn
                ⟨_, ⟨out.map Run.Item.line ++ behind false ++ [.endMark], true⟩, interruptOn⟩ _
              rw [hwaiting]
              exact .shows record.markDone true rest hreads hasked
      | passedOver why =>
          obtain rfl := Option.some.inj hwrite
          exact exists_shows_silent hwrite (.shows record closed rest hreads hasked)
      | crashed crash =>
          obtain rfl := Option.some.inj hwrite
          exact exists_shows_silent hwrite (.shows record closed rest hreads hasked)

/-! ### Replies -/

theorem Shows.goOn (h : Shows interruptOn l s)
    (left : Dialogue Query.Reply (Except Break (Except Failure Status))) :
    Shows interruptOn l { s with rest := left } := by
  cases h with
  | shows record closed _ hreads hasked => exact .shows record closed left hreads hasked

/-- Most questions change nothing that can be seen. -/
theorem exists_shows_quiet {q : Query}
    {next : q.Reply → Dialogue Query.Reply (Except Break (Except Failure Status))}
    (h : Shows interruptOn l s) (hask : s.rest = .ask q next) {reply : q.Reply}
    (hfits : Fits s.live ⟨q, reply⟩) (hafter : after s.live q = s.live)
    (htold : told own [⟨q, reply⟩] = []) :
    ∃ s', Step own s (.exchange ⟨q, reply⟩) s' ∧ Shows interruptOn l s' ∧ s'.rest = next reply := by
  refine ⟨{ s with rest := next reply }, ?_, h.goOn (next reply), rfl⟩
  cases h with
  | @shows record closed _ phase out hreads hasked =>
      obtain rfl := hask
      have hstep : Step own
          ⟨⟨record, ⟨behind closed, closed⟩, none⟩, [], .ask q next, phase, out,
            cancelling interruptOn out⟩ (.exchange ⟨q, reply⟩) _ := .exchange reply hfits
      rwa [hafter, htold] at hstep

/-- A command may ask the run to stop. -/
theorem exists_shows_cancel
    {next : Unit → Dialogue Query.Reply (Except Break (Except Failure Status))}
    (h : Shows interruptOn l s) (hask : s.rest = .ask .cancel next) :
    ∃ s', Step own s (.exchange ⟨.cancel, ()⟩) s' ∧
      Shows interruptOn { l with record := l.record.cancel } s' ∧ s'.rest = next () := by
  cases h with
  | @shows record closed _ phase out hreads hasked =>
      obtain rfl := hask
      exact ⟨_, .exchange (q := .cancel) () trivial,
        .shows record.cancel closed (next ()) hreads fun _ => rfl, rfl⟩

/-- What the run makes known is to be written. -/
theorem step_tell {event : Run.Event}
    {next : Unit → Dialogue Query.Reply (Except Break (Except Failure Status))}
    (hpending : s.pending = []) (hask : s.rest = .ask (.tell own event) next) :
    Step own s (.exchange ⟨.tell own event, ()⟩)
      { s with pending := event.writings, rest := next () } := by
  obtain ⟨live, pending, rest, phase, out, err⟩ := s
  obtain rfl : pending = [] := hpending
  obtain rfl : rest = .ask (.tell own event) next := hask
  have hwritings : (told own [⟨.tell own event, ()⟩]).flatMap Run.Event.writings =
      event.writings := by
    rw [Run.told_cons_self]
    exact List.append_nil _
  rw [← hwritings]
  exact .exchange (q := .tell own event) () trivial

end Steps

/-! ## The world's history -/

section Run

variable {k : Call} {rounds depth : Nat} {c : Context} {first : Transcript Query.Reply}
  {rest : Dialogue Query.Reply (Except Break (Except Failure Status))} {now : Timestamp}
  {moves : List Move} {s : Printing} {interruptOn : Option String} {l : Live}

/-- All that is to be written can be written in one go. -/
theorem exists_foldlM (h : Begun k rounds depth c first rest) {live : Live} {pending : List Writing}
    {left : Dialogue Query.Reply (Except Break (Except Failure Status))} {phase : Phase}
    {out err : List String}
    (hmoves : Happens (Step c.run) (start c rest now) moves ⟨live, pending, left, phase, out, err⟩)
    (later : Timestamp) : ∃ live', pending.foldlM (Writing.perform later) live = some live' := by
  induction pending generalizing live moves with
  | nil => exact ⟨live, rfl⟩
  | cons writing pending ih =>
      obtain ⟨between, hperform⟩ := exists_perform h hmoves later
      obtain ⟨live', hothers⟩ := ih (hmoves.further (.wrote later hperform))
      refine ⟨live', ?_⟩
      rw [List.foldlM_cons, hperform]
      exact hothers

/-- Once the run has begun, the runs that begin are nested in it. -/
theorem ne_zero_of_begin (h : Begun k rounds depth c first rest)
    (hmoves : Happens (Step c.run) (start c rest now) moves s) {workflowId : String} {scope : Scope}
    {n : Nat} {next : (Query.begin workflowId scope n).Reply →
      Dialogue Query.Reply (Except Break (Except Failure Status))}
    (hask : s.rest = .ask (.begin workflowId scope n) next) : n ≠ 0 := by
  have hgoes := Run.Dialogue.goes_append_iff.2 ⟨_, h.goes, goes_of_happens hmoves⟩
  rw [hask] at hgoes
  have hnext := Run.Dialogue.goes_append_iff.2 ⟨_, hgoes, .ask _ next "" (.here _)⟩
  obtain ⟨w, globals, executionId, -, hfirst⟩ := h.begins
  have hlength : first.length = 3 := by
    rw [hfirst]
    rfl
  rcases Run.next_of_goes hnext with ⟨hless, -⟩ | ⟨w', globals', executionId', heq⟩ |
    ⟨_, _, _, _, -, hdeeper⟩
  · rw [List.length_append] at hless
    omega
  · have hlengths := congrArg List.length heq
    simp only [List.length_append, Call.beginning, List.length_cons, List.length_nil] at hlengths
    omega
  · have := hdeeper workflowId scope n rfl
    omega

/-- What another run makes known comes from a run nested in this one. -/
theorem ne_zero_of_tell (h : Begun k rounds depth c first rest)
    (hmoves : Happens (Step c.run) (start c rest now) moves s) {run : Identity} {event : Run.Event}
    {next : (Query.tell run event).Reply →
      Dialogue Query.Reply (Except Break (Except Failure Status))}
    (hask : s.rest = .ask (.tell run event) next) (hother : run ≠ c.run) : run.depth ≠ 0 := by
  obtain ⟨u, r, hends, -⟩ := Run.exists_ends_isSet (d := next ())
  have hends' : Ends s.rest (⟨.tell run event, ()⟩ :: u) r := by
    rw [hask]
    exact .ask _ next () hends
  obtain ⟨deeds, r', hran, -⟩ := exists_ran h hmoves hends'
  have hmem : ⟨.tell run event, ()⟩ ∈ first ++ (exchanges moves ++ ⟨.tell run event, ()⟩ :: u) :=
    List.mem_append_right _ (List.mem_append_right _ List.mem_cons_self)
  have := (hran.teller hmem).resolve_left hother
  omega

theorem depth_eq_zero (h : Begun k rounds depth c first rest) (hchain : k.chain = []) :
    c.run.depth = 0 := by
  obtain ⟨w, globals, executionId, rfl, -⟩ := h.begins
  exact congrArg List.length hchain

/-- What the world replies is a part of a history. -/
theorem exists_shows_reply (h : Begun k rounds depth c first rest) (hchain : k.chain = [])
    (hmoves : Happens (Step c.run) (start c rest now) moves s) (hshows : Shows interruptOn l s)
    (w : World) {q : Query}
    {next : q.Reply → Dialogue Query.Reply (Except Break (Except Failure Status))}
    (hask : s.rest = .ask q next) :
    ∃ more s', Happens (Step c.run) (start c rest now) (moves ++ more) s' ∧
      Shows interruptOn (Run.reply w l q).2.2 s' ∧ s'.rest = next (Run.reply w l q).1 := by
  have hquiet : ∀ reply : q.Reply, Fits s.live ⟨q, reply⟩ → after s.live q = s.live →
      told c.run [⟨q, reply⟩] = [] →
      ∃ more s', Happens (Step c.run) (start c rest now) (moves ++ more) s' ∧
        Shows interruptOn l s' ∧ s'.rest = next reply := by
    intro reply hfits hafter htold
    obtain ⟨s', hstep, hshows', hrest⟩ := exists_shows_quiet hshows hask hfits hafter htold
    exact ⟨_, s', hmoves.further hstep, hshows', hrest⟩
  cases q with
  | cancelRequested =>
      have hsame : l.record.cancelRequested = s.live.record.cancelRequested := by
        rw [hshows.record]
      exact hquiet _ hsame rfl rfl
  | workflow id => exact hquiet _ trivial rfl rfl
  | globals => exact hquiet _ trivial rfl rfl
  -- an outermost run has begun, so the runs that begin are nested in it, and its record stays
  | begin workflowId scope n =>
      have hn : (n == 0) = false := beq_eq_false_iff_ne.2 (ne_zero_of_begin h hmoves hask)
      simp only [Run.reply, hn]
      exact hquiet _ trivial rfl rfl
  | launch command => exact hquiet _ trivial rfl rfl
  | wait milliseconds =>
      cases hrequested : l.record.cancelRequested with
      | true =>
          simp only [Run.reply, hrequested, if_true]
          refine hquiet true (fun _ => ?_) rfl rfl
          rw [hshows.record]
          exact hrequested
      | false =>
          simp only [Run.reply, hrequested, Bool.false_eq_true, if_false]
          exact hquiet false (by rintro ⟨⟩) rfl rfl
  | cancel =>
      obtain ⟨s', hstep, hshows', hrest⟩ := exists_shows_cancel hshows hask
      exact ⟨_, s', hmoves.further hstep, hshows', hrest⟩
  | write change => exact hquiet _ trivial rfl rfl
  | tell run event =>
      by_cases hown : run = c.run
      · subst hown
        have hexchanged := hmoves.further (step_tell hshows.pending hask)
        obtain ⟨live', hwrite⟩ := exists_foldlM h hexchanged w.now.1
        obtain ⟨more, s', hmore, hshows', hrest⟩ :=
          exists_shows_see (depth_eq_zero h hchain) (hshows.goOn (next ())) hwrite
        refine ⟨[.exchange ⟨.tell c.run event, ()⟩] ++ more, s', ?_, hshows', hrest⟩
        rw [← List.append_assoc]
        exact hexchanged.trans hmore
      -- what other runs make known is not written to this record
      · have hnested : (run.depth != 0) = true :=
          bne_iff_ne.2 (ne_zero_of_tell h hmoves hask hown)
        simp only [Run.reply, Live.see, hnested, if_true]
        refine hquiet () trivial rfl (Run.told_eq_nil fun x hx event' => ?_)
        rw [List.mem_singleton.1 hx]
        rintro ⟨⟩
        exact hown rfl

/-- A run that is carried on to its end stops in front of no question. -/
theorem advance_ask {α : Type} (w : World) (l : Live) (q : Query)
    (next : q.Reply → Dialogue Query.Reply α) :
    Run.advance .whole w l (.ask q next) =
      Run.advance .whole (Run.reply w l q).2.1 (Run.reply w l q).2.2 (next (Run.reply w l q).1) := by
  have hnever : Run.Patience.stopsAt .whole l q = false := by
    cases q with
    | _ => rfl
  rw [Run.advance, hnever, if_neg Bool.false_ne_true]

/-- So is what comes of carrying the run on to its end. -/
theorem exists_shows_advance (h : Begun k rounds depth c first rest) (hchain : k.chain = [])
    (hmoves : Happens (Step c.run) (start c rest now) moves s) (hshows : Shows interruptOn l s)
    (w : World) :
    ∃ r w' l', Run.advance .whole w l s.rest = (.done r, w', l') ∧
      ∃ more s', Happens (Step c.run) (start c rest now) more s' ∧ Shows interruptOn l' s' ∧
        s'.rest = .done r := by
  generalize hrest : s.rest = left
  induction left generalizing moves s w l with
  | done r => exact ⟨r, w, l, rfl, moves, s, hmoves, hshows, hrest⟩
  | ask q next ih =>
      obtain ⟨more, s', hmore, hshows', hrest'⟩ :=
        exists_shows_reply h hchain hmoves hshows w hrest
      obtain ⟨r, w', l', hadvance, hend⟩ := ih _ hmore hshows' (Run.reply w l q).2.1 hrest'
      exact ⟨r, w', l', (advance_ask w l q next).trans hadvance, hend⟩

/-- A run that breaks off is left running. -/
theorem running_of_broke (h : Begun k rounds depth c first rest)
    (hmoves : Happens (Step c.run) (start c rest now) moves s) {later : Transcript Query.Reply}
    {deeds : List Run.Deed} {b : Break}
    (hran : k.Ran rounds depth c deeds (first ++ (exchanges moves ++ later)) (.error b)) :
    s.live.record.status = .running := by
  have hwatch := happens_start h hmoves later
  have htraced := (Watch.kept_of_happens hwatch).1.traced
  cases hstatus : Run.statusOf? (Watch.written (moves.flatMap seen)) with
  | none => rw [show s.live.record.status = _ from htraced.status, hstatus, Option.getD_none]
  | some status =>
      obtain ⟨⟨_, hr⟩, -⟩ := Watch.log_of_terminal hran hwatch (by rw [hstatus]; rintro ⟨⟩)
      cases hr

/-- When the run has ended, the printing exits. -/
theorem exists_exited (h : Begun k rounds depth c first rest)
    (hmoves : Happens (Step c.run) (start c rest now) moves s) (hshows : Shows interruptOn l s)
    {status : Status} (hended : s.rest = .done (.ok (.ok status))) :
    ∃ more s', Happens (Step c.run) (start c rest now) more s' ∧
      s'.phase = .exited (exitOfStatus l.record.status) ∧ s'.out = s.out ∧ s'.err = s.err := by
  cases hshows with
  | @shows record closed _ phase out hreads hasked =>
      obtain rfl := hended
      obtain ⟨deeds, r, hran, hr⟩ := exists_ran h hmoves (.here _)
      obtain rfl : r = .ok status := by
        cases r with
        | error b => cases hr
        | ok ending =>
            cases hr
            rfl
      have hwatch := happens_start h hmoves []
      obtain ⟨-, hdone, -⟩ := Watch.complete_of_happens hran hwatch rfl
      obtain rfl : closed = true := (Watch.order_of_happens hran hwatch).2.2 hdone
      have hmark : Step c.run
          ⟨⟨record, ⟨behind true, true⟩, none⟩, [], .done (.ok (.ok status)), phase, out,
            cancelling interruptOn out⟩ .mark
          ⟨⟨record, ⟨[], true⟩, none⟩, [], .done (.ok (.ok status)), .holding, out,
            cancelling interruptOn out⟩ := .mark hreads rfl
      exact ⟨_, _, ((hmoves.further hmark).further .ended).further (.exit hdone), rfl, rfl, rfl⟩

end Run

/-! ## What the command line answers -/

theorem lines_map_line (lines : List String) (closed : Bool) :
    Run.Stream.lines (lines.map .line ++ behind closed) = lines := by
  induction lines with
  | nil =>
      cases closed with
      | _ => rfl
  | cons line lines ih => exact congrArg (line :: ·) ih

/-- All lines are printed, and the user is told of the interrupt if it came. -/
theorem splitAtInterrupt_cases (interruptOn : Option String) (lines : List String) :
    (splitAtInterrupt interruptOn lines).1 ++ (splitAtInterrupt interruptOn lines).2.getD [] = lines ∧
      (splitAtInterrupt interruptOn lines).2.isSome = interrupts interruptOn lines := by
  have hall := List.takeWhile_append_dropWhile (p := (some · != interruptOn)) (l := lines)
  rw [splitAtInterrupt, List.span_eq_takeWhile_dropWhile]
  cases hdrop : lines.dropWhile (some · != interruptOn) with
  | nil =>
      rw [hdrop] at hall
      refine ⟨hall, Eq.symm (List.any_eq_false.2 fun line hline hupon => ?_)⟩
      have hother := List.dropWhile_eq_nil_iff.1 hdrop line hline
      rw [bne, hupon] at hother
      cases hother
  | cons line left =>
      rw [hdrop] at hall
      have hline : line ∈ lines := List.dropWhile_subset _ (hdrop ▸ List.mem_cons_self)
      have hupon := List.head?_dropWhile_not (some · != interruptOn) lines
      rw [hdrop] at hupon
      refine ⟨?_, Eq.symm (List.any_eq_true.2 ⟨line, hline, ?_⟩)⟩
      · exact (List.append_assoc _ [line] left).trans hall
      · simpa using hupon

/-- The answer is what was printed. -/
theorem printRun_of_shows {interruptOn : Option String} {l : Live} {s : Printing}
    (h : Shows interruptOn l s) :
    printRun interruptOn l = ⟨exitOfStatus l.record.status, s.out, s.err⟩ := by
  cases h with
  | @shows record closed rest phase out hreads hasked =>
      obtain ⟨hout, hinterrupted⟩ := splitAtInterrupt_cases interruptOn out
      have hlines : Run.Stream.drain ⟨out.map .line ++ behind closed, closed⟩ =
          (out, (Run.Stream.drain ⟨out.map .line ++ behind closed, closed⟩).2) :=
        Prod.ext (lines_map_line out closed) rfl
      rw [printRun, hlines]
      dsimp only
      rw [hout, hinterrupted]
      rfl

/-- What an outermost execution does once its run has begun. -/
def bodyOf (c : Context) : Dialogue Query.Reply (Except Break (Except Failure Status)) :=
  (do return .ok (← c.body (Run.execute Run.roundLimit 1999) Run.roundLimit) : Run.Act _).run

/-- An outermost execution asks for its workflow and the global variables, and then its run begins. -/
theorem outermost_eq (id : String) (inputs : Scope) :
    Run.outermost id inputs = .ask (.workflow id) fun
      | none => .done (.ok (.error (.workflowNotFound id)))
      | some w => .ask .globals fun globals =>
        .ask (.begin w.id (Run.resolve globals w.declared inputs) 0) fun executionId =>
          bodyOf ((⟨[], id, inputs⟩ : Call).context w globals executionId) := rfl

theorem advance_of_none {w : World} {id : String} (hnone : w.workflows.get? id = none)
    (interruptOn : Option String) (inputs : Scope) :
    Run.advance .whole w (Live.fresh false interruptOn) (Run.outermost id inputs) =
      (.done (.ok (.error (.workflowNotFound id))), w, Live.fresh false interruptOn) := by
  rw [outermost_eq, advance_ask]
  simp only [Run.reply, hnone]
  rfl

theorem advance_of_some {w : World} {id : String} {workflow : Workflow}
    (hfound : w.workflows.get? id = some workflow) (interruptOn : Option String) (inputs : Scope) :
    ∃ c first now w', Begun ⟨[], id, inputs⟩ Run.roundLimit 1999 c first (bodyOf c) ∧
      Run.advance .whole w (Live.fresh false interruptOn) (Run.outermost id inputs) =
        Run.advance .whole w' ⟨(start c (bodyOf c) now).live.record, {}, interruptOn⟩ (bodyOf c) := by
  let k : Call := ⟨[], id, inputs⟩
  let executionId := Run.executionId (w.begun + 1)
  let c := k.context workflow w.globals.scope executionId
  let first := k.beginning workflow w.globals.scope executionId
  have hbegun : Begun k Run.roundLimit 1999 c first (bodyOf c) := by
    refine ⟨⟨_, _, _, rfl, rfl⟩, ?_⟩
    have hgoes : Goes (Run.outermost id inputs) first (bodyOf c) := by
      rw [outermost_eq]
      refine .ask (R := Query.Reply) (.workflow id) _ (some workflow) ?_
      refine .ask (R := Query.Reply) .globals _ w.globals.scope ?_
      exact .ask (R := Query.Reply) (.begin _ _ 0) _ executionId (.here _)
    exact hgoes
  let began := Run.reply w (Live.fresh false interruptOn)
    (.begin workflow.id (Run.resolve w.globals.scope workflow.declared inputs) 0)
  refine ⟨c, first, ({ w with begun := w.begun + 1 } : World).now.1, began.2.1, hbegun, ?_⟩
  rw [outermost_eq, advance_ask]
  simp only [Run.reply, hfound]
  rw [advance_ask, advance_ask]
  rfl

/-- The world carries the run of a workflow that is there on to its end, and its record has the status with
which the run ended, unless it made too many rounds. -/
theorem exists_shows_outermost {w : World} {id : String} {workflow : Workflow}
    (hfound : w.workflows.get? id = some workflow) (interruptOn : Option String) (inputs : Scope) :
    ∃ c first now r w' live moves s, Begun ⟨[], id, inputs⟩ Run.roundLimit 1999 c first (bodyOf c) ∧
      Run.advance .whole w (Live.fresh false interruptOn) (Run.outermost id inputs) =
        (.done r, w', live) ∧
      Happens (Step c.run) (start c (bodyOf c) now) moves s ∧ Shows interruptOn live s ∧
      s.rest = .done r ∧
      (r = .error .outOfRounds ∧ live.record.status = .running ∨
        ∃ status, r = .ok (.ok status) ∧ live.record.status = status ∧ status.isTerminal = true) := by
  obtain ⟨c, first, now, w₁, hbegun, hstart⟩ := advance_of_some hfound interruptOn inputs
  obtain ⟨r, w', live, hadvance, moves, s, hmoves, hshows, hrest⟩ :=
    exists_shows_advance hbegun rfl .nothing (shows_start interruptOn c (bodyOf c) now) w₁
  have hends : Ends s.rest [] r := hrest ▸ .here _
  obtain ⟨deeds, r', hran, rfl⟩ := exists_ran hbegun hmoves hends
  refine ⟨c, first, now, _, w', live, moves, s, hbegun, hstart.trans hadvance, hmoves, hshows, hrest, ?_⟩
  have hwatch := happens_start hbegun hmoves []
  cases r' with
  | error b =>
      have hall := Run.Dialogue.goes_append_iff.2 ⟨_, hbegun.goes, goes_of_happens hmoves⟩
      rw [hrest] at hall
      obtain rfl := Call.eq_outOfRounds_of_yields _ hall
      have hrunning := running_of_broke hbegun hmoves hran
      rw [hshows.record] at hrunning
      exact .inl ⟨rfl, hrunning⟩
  | ok status =>
      have hpending : (s.watch c.run []).pending = [] := by
        rw [watch, hshows.pending]
        rfl
      obtain ⟨-, -, hstatus⟩ := Watch.complete_of_happens hran hwatch hpending
      have hrecord : (s.watch c.run []).live.record = live.record := hshows.record
      rw [hrecord] at hstatus
      exact .inr ⟨status, rfl, hstatus, ((Run.writings_of_ran hran).2 status rfl).1⟩

/-- What the command line answers is what such a history comes to, unless the run makes too many rounds. -/
theorem happens_runAndPrint {w w' : World} {interruptOn : Option String} {id : String}
    {assignments : List String} {answer : Answer}
    (h : runAndPrint w interruptOn id assignments = (w', .ok answer)) :
    ∃ inputs c first rest now moves s, readAssignments assignments = .ok inputs ∧
      Begun ⟨[], id, inputs⟩ Run.roundLimit 1999 c first rest ∧
      Happens (Step c.run) (start c rest now) moves s ∧ s.out = answer.out ∧ s.err = answer.err ∧
      (s.phase = .exited answer.exitCode ∨
        s.rest = .done (.error .outOfRounds) ∧ answer.exitCode = 4) := by
  rw [runAndPrint] at h
  cases hinputs : readAssignments assignments with
  | error fault =>
      rw [hinputs] at h
      cases h
  | ok inputs =>
      rw [hinputs] at h
      dsimp only at h
      rw [World.runWhole] at h
      cases hfound : w.workflows.get? id with
      | none =>
          rw [advance_of_none hfound] at h
          cases h
      | some workflow =>
          obtain ⟨c, first, now, r, w₁, live, moves, s, hbegun, hadvance, hmoves, hshows, hrest, hend⟩ :=
            exists_shows_outermost hfound interruptOn inputs
          rw [hadvance] at h
          rcases hend with ⟨rfl, hrunning⟩ | ⟨status, rfl, -, -⟩
          · cases h
            rw [printRun_of_shows hshows, hrunning]
            exact ⟨inputs, c, first, _, now, moves, s, rfl, hbegun, hmoves, rfl, rfl, .inr ⟨hrest, rfl⟩⟩
          · obtain ⟨more, s', hmore, hexited, hout, herr⟩ := exists_exited hbegun hmoves hshows hrest
            cases h
            rw [printRun_of_shows hshows]
            exact ⟨inputs, c, first, _, now, more, s', rfl, hbegun, hmore, hout, herr, .inl hexited⟩

/-! ## Every run is printed once -/

/-- The status and the exit code of a run that was printed. -/
def exits : List (Status × Int) := [(.completed, 0), (.cancelled, 130), (.failed, 4)]

theorem mem_exits {status : Status} (h : status.isTerminal = true) :
    (status, exitOfStatus status) ∈ exits := by
  cases status with
  | running => cases h
  | completed => decide
  | failed => decide
  | cancelled => decide

/-- At the exit the whole log is printed, and the code is that of the status of the run. -/
theorem printed_of_exited {k : Call} {rounds depth : Nat} {c : Context}
    {first later : Transcript Query.Reply}
    {rest : Dialogue Query.Reply (Except Break (Except Failure Status))} {now : Timestamp}
    {moves : List Move} {s : Printing} {r : Except Break (Except Failure Status)}
    (h : Begun k rounds depth c first rest)
    (hmoves : Happens (Step c.run) (start c rest now) moves s) {code : Int}
    (hexited : s.phase = .exited code) (hends : Ends s.rest later r) :
    s.out = s.live.record.logs.map (·.entry.message) ∧ (s.live.record.status, code) ∈ exits ∧
      s.out = messages c.run (exchanges moves ++ later) ∧ r = .ok (.ok s.live.record.status) := by
  obtain ⟨deeds, r', hran, rfl⟩ := exists_ran h hmoves hends
  obtain ⟨hout, hlogs, rfl⟩ := printed_of_over h hmoves (by rw [hexited]; rfl) hran
  have hcode := code_of_exited h hmoves hexited hran
  have hterminal := ((Run.writings_of_ran hran).2 _ rfl).1
  rw [Run.messages, told_first h] at hout
  exact ⟨hlogs.symm, hcode ▸ mem_exits hterminal, hout, rfl⟩

/-- A world with a workflow of one command, which prints itself. -/
def oneCommandWorld : World where
  disk := ⟨⟨"/", []⟩, .folder []⟩
  workflows := ⟨⟨"/", []⟩, [("a", Run.oneCommand)]⟩
  commands := .rehearsed { results := [] }

/-- What the command line answers when the user interrupts behind the line of that command. -/
def interruptedAnswer : Answer where
  exitCode := 130
  out := ["Starting workflow: a", "Step 1/1: only", "$ true", "true", "Execution cancelled"]
  err := ["Cancelling..."]

end Runbook.Command.Printing
