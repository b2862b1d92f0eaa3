import Runbook.Proofs.Run.BrokenOff
import Runbook.Proofs.Shell.Readers

/-!
# The output of commands

A step that starts a command follows it to its end: each line that the command writes becomes an entry of
the log at once, and the lines in the order in which they were written, each with a line feed, are the
output of the step (`Context.Captured`). In the turn of the step the conditions are judged with just this
output, unless the run is to stop (`Course.Behind`).

Which lines these are depends on the two streams of the command and on the readers that take turns in
reading them. `captured_output_of_execution` puts both together.
-/

set_option autoImplicit false

namespace Runbook.Run

/-! ## What conditions see -/

namespace Course

variable {w : Workflow} {position at_ : Nat} {step step' : Step} {outcome : Outcome}
  {s a b : Transcript Task.Reply}

variable (w position step outcome) in
/-- What comes behind the turn of a step: the run is to stop, or the conditions of the step are judged
with what it came to. -/
inductive Behind : Transcript Task.Reply → Prop
  | cancelled (requested : Bool) (rest : Transcript Task.Reply) :
      (requested || outcome.isCancelled) = true → Behind (⟨.check, requested⟩ :: rest)
  | judged {s : Transcript Task.Reply} {r : Except Break Next} (rest : Transcript Task.Reply) :
      ConditionPass w step outcome position s r → Behind (⟨.check, false⟩ :: (s ++ rest))

theorem Behind.append (h : Behind w position step outcome s) (more : Transcript Task.Reply) :
    Behind w position step outcome (s ++ more) := by
  cases h with
  | cancelled requested rest hstop => exact .cancelled requested (rest ++ more) hstop
  | judged rest hcondition =>
      rw [List.cons_append, List.append_assoc]
      exact .judged (rest ++ more) hcondition

/-- A transcript without turns has no turn anywhere. -/
theorem turn_notMem (h : turns s = []) : (⟨.turn at_ step, .ok outcome⟩ : Exchange Task.Reply) ∉ s :=
  fun hmem => absurd (List.filterMap_eq_nil_iff.1 h _ hmem) (Option.some_ne_none _)

/-- The turn of a round is its third exchange. -/
theorem turn_of_cut {line : Event} {reply : Except Break Outcome} (hs : turns s = [])
    (h : [⟨.check, false⟩, ⟨.tell line, ()⟩, ⟨.turn position step, reply⟩] ++ s =
      a ++ ⟨.turn at_ step', .ok outcome⟩ :: b) :
    at_ = position ∧ step' = step ∧ reply = .ok outcome ∧ b = s := by
  match a with
  | [] => cases h
  | [_] => cases h
  | [_, _] =>
      cases h
      exact ⟨rfl, rfl, rfl, rfl⟩
  | _ :: _ :: _ :: a =>
      have hrest : s = a ++ ⟨.turn at_ step', .ok outcome⟩ :: b :=
        (List.cons.inj (List.cons.inj (List.cons.inj h).2).2).2
      exact absurd (hrest ▸ List.mem_append_right _ List.mem_cons_self) (turn_notMem hs)

theorem Lap.behind {r : Except Break Next} (h : Lap w position step s r)
    (hs : s = a ++ ⟨.turn at_ step', .ok outcome⟩ :: b) : Behind w at_ step' outcome b := by
  cases h with
  | stopped =>
      have hnone : turns (⟨.check, true⟩ :: said (cancelledFarewell step.id)) = [] := turns_said _
      rw [hs] at hnone
      exact absurd (List.mem_append_right _ List.mem_cons_self) (turn_notMem hnone)
  | broke line cause _ => cases (turn_of_cut (s := []) rfl hs).2.2.1
  | cancelled line outcome' requested _ hstop =>
      obtain ⟨rfl, rfl, hreply, rfl⟩ := turn_of_cut
        (s := ⟨.check, requested⟩ :: said (cancelledFarewell step.id)) (turns_said _) hs
      cases hreply
      exact .cancelled requested _ hstop
  | @judged line outcome' s _ _ _ hcondition _ =>
      obtain ⟨rfl, rfl, hreply, rfl⟩ := turn_of_cut (s := ⟨.check, false⟩ :: s) hcondition.turns_eq hs
      cases hreply
      rw [← List.append_nil s]
      exact .judged [] hcondition
  | @hooked line outcome' s s' _ _ _ _ hcondition hhook =>
      have hnone : turns (s ++ s') = [] := by
        rw [turns_append, hcondition.turns_eq, hhook.turns_eq, List.append_nil]
      obtain ⟨rfl, rfl, hreply, rfl⟩ := turn_of_cut (s := ⟨.check, false⟩ :: (s ++ s')) hnone hs
      cases hreply
      exact .judged s' hcondition

theorem Laps.behind {limit : Nat} {r : Except Break Status} (h : Laps w limit position s r)
    (hs : s = a ++ ⟨.turn at_ step, .ok outcome⟩ :: b) : Behind w at_ step outcome b := by
  induction h generalizing a with
  | outOfRounds => cases a <;> cases hs
  | past =>
      exact absurd (hs ▸ List.mem_append_right _ List.mem_cons_self) (turn_notMem (turns_said _))
  | broke _ hlap => exact hlap.behind hs
  | ended _ hlap => exact hlap.behind hs
  | next _ hlap _ ih =>
      rcases append_eq_append_cons hs with ⟨es, hes, rfl⟩ | ⟨es, rfl, hes⟩
      · exact (hlap.behind hes).append _
      · exact ih hes

theorem behind_of_yields {limit : Nat} {r : Except Break Status}
    (h : Yields (whole w limit) (a ++ ⟨.turn at_ step, .ok outcome⟩ :: b) r) :
    Behind w at_ step outcome b := by
  obtain ⟨s, r', hs, hrounds, -⟩ := exists_rounds h
  -- the first and the last events of a run are no turns
  rcases append_eq_append_cons hs.symm with ⟨es, hes, rfl⟩ | ⟨es, -, hes⟩
  · rcases append_eq_append_cons hes with ⟨es', hes', -⟩ | ⟨es', -, hes'⟩
    · exact absurd (hes' ▸ List.mem_append_right _ List.mem_cons_self) (turn_notMem (turns_said _))
    · exact ((laps_of_yields hrounds).behind hes').append _
  · exact absurd (hes ▸ List.mem_append_right _ List.mem_cons_self) (turn_notMem (turns_said _))

end Course

/-! ## Following a command -/

/-- How a line of a command is made known. -/
def lineEvent (stepId : String) (line : ShellLine) : Event :=
  .entry ⟨stepId, line.1.level, line.2⟩ true

/-- Lines with a line feed behind each of them. -/
def joined : List ShellLine → String
  | [] => ""
  | line :: lines => line.2 ++ "\n" ++ joined lines

namespace Context

variable {c : Context}

/-- A command is followed through one of the ways in which it can go. -/
theorem exists_of_follow {stepId : String} {process : Process} {output : String}
    {t : Transcript Query.Reply} {r : Except Break (String × Int × Bool)}
    (h : Yields (c.follow stepId process output) t r) :
    ∃ lines exitCode killed, process.Goes lines exitCode killed ∧
      told c.run t = lines.map (lineEvent stepId) ∧
      r = .ok (output ++ joined lines, exitCode, killed) := by
  -- by induction on what the command does; only its lines are made known
  induction process generalizing output t with
  | line source text rest ih =>
      obtain ⟨_, t, rfl, hrest⟩ := yields_lift_bind_iff.1 h
      obtain ⟨lines, exitCode, killed, hgoes, htold, rfl⟩ := ih hrest
      refine ⟨(source, text) :: lines, exitCode, killed, .line hgoes, ?_, ?_⟩
      · rw [told_cons_self, htold]
        rfl
      · simp only [joined, String.append_assoc]
  | lasts milliseconds next ih =>
      obtain ⟨stopped, t, rfl, hrest⟩ := yields_lift_bind_iff.1 h
      obtain ⟨lines, exitCode, killed, hgoes, htold, rfl⟩ := ih stopped hrest
      refine ⟨lines, exitCode, killed, .lasts stopped hgoes, ?_, rfl⟩
      rw [told_cons_of_ne t (by rintro event ⟨⟩), htold]
  | cancels rest ih =>
      obtain ⟨_, t, rfl, hrest⟩ := yields_lift_bind_iff.1 h
      obtain ⟨lines, exitCode, killed, hgoes, htold, rfl⟩ := ih hrest
      refine ⟨lines, exitCode, killed, .cancels hgoes, ?_, rfl⟩
      rw [told_cons_of_ne t (by rintro event ⟨⟩), htold]
  | writes change rest ih =>
      obtain ⟨_, t, rfl, hrest⟩ := yields_lift_bind_iff.1 h
      obtain ⟨lines, exitCode, killed, hgoes, htold, rfl⟩ := ih hrest
      refine ⟨lines, exitCode, killed, .writes hgoes, ?_, rfl⟩
      rw [told_cons_of_ne t (by rintro event ⟨⟩), htold]
  | ended exitCode killed =>
      obtain ⟨rfl, rfl⟩ := yields_pure_iff.1 h
      exact ⟨[], exitCode, killed, .ended exitCode killed, rfl, by simp [joined]⟩

/-- A step has captured what its command wrote: all lines are in its log, each once and in order, and
together they are its output. -/
structure Captured (c : Context) (step : Step) (t : Transcript Query.Reply) (lines : List ShellLine)
    (outcome : Outcome) : Prop where
  told : Run.told c.run t =
    remark step.id ("$ " ++ c.commandOf step) :: lines.map (lineEvent step.id)
  output : outcome.output = joined lines

/-- A step that starts a command captures it, in one of the ways in which the command can go. -/
theorem captured_of_runCommand {step : Step} {process : Process} {t : Transcript Query.Reply}
    {r : Except Break Outcome} (h : Yields (c.runCommand step) t r)
    (hstarted : ⟨.launch (c.commandOf step), .started process⟩ ∈ t) :
    ∃ lines outcome killed, r = .ok outcome ∧ process.Goes lines outcome.exitCode killed ∧
      c.Captured step t lines outcome := by
  obtain ⟨_, t, rfl, hlaunch⟩ := yields_lift_bind_iff.1 h
  obtain ⟨reply, t, rfl, hrest⟩ := yields_lift_bind_iff.1 hlaunch
  have hstarted := (List.mem_cons.1 hstarted).resolve_left (by rintro ⟨⟩)
  cases reply with
  | crashed crash =>
      obtain ⟨rfl, -⟩ := yields_throw_iff.1 hrest
      cases List.mem_singleton.1 hstarted
  | refused reason =>
      obtain ⟨rfl, -⟩ := yields_pure_iff.1 hrest
      cases List.mem_singleton.1 hstarted
  | started process' =>
      obtain ⟨b, hfollow, -⟩ | ⟨work, performance, t, rfl, hfollow, hend⟩ := yields_bind_iff.1 hrest
      · obtain ⟨-, _, hok⟩ := c.work_of_follow hfollow
        cases hok
      · obtain ⟨rfl, rfl⟩ := yields_pure_iff.1 hend
        rw [List.append_nil] at hstarted ⊢
        -- a command that is followed starts no other command
        obtain rfl : process' = process := by
          rcases List.mem_cons.1 hstarted with heq | hwork
          · cases heq
            rfl
          · cases (c.work_of_follow hfollow).1 _ hwork
        obtain ⟨lines, exitCode, killed, hgoes, htold, hperformance⟩ := exists_of_follow hfollow
        cases hperformance
        refine ⟨lines, _, killed, rfl, hgoes, ?_, String.empty_append⟩
        rw [told_cons_self, told_cons_of_ne work (by rintro event ⟨⟩), htold]
        rfl

/-- What a deed comes to that runs a step by starting a command. -/
theorem captured_of_serves {rounds depth : Nat} {p : Deed} {step : Step} {process : Process}
    (h : Dialogue.Serves (c.serve (execute rounds depth)) p) (hstep : p.1.1.step? = some step)
    (hwork : step.work = .command)
    (hstarted : ⟨.launch (c.commandOf step), .started process⟩ ∈ p.2) :
    ∃ lines outcome killed, Course.result? p.1 = some (.ok outcome) ∧
      process.Goes lines outcome.exitCode killed ∧ c.Captured step p.2 lines outcome := by
  obtain ⟨⟨task, reply⟩, t⟩ := p
  have hrun : ∀ {r : Except Break Outcome}, Yields (c.runStep (execute rounds depth) step) t r →
      ∃ lines outcome killed, r = .ok outcome ∧ process.Goes lines outcome.exitCode killed ∧
        c.Captured step t lines outcome := by
    intro r hr
    rw [runStep, hwork] at hr
    exact captured_of_runCommand hr hstarted
  cases task with
  | check => cases hstep
  | tell event => cases hstep
  | turn position step =>
      cases hstep
      obtain ⟨lines, outcome, killed, hr, hcaptured⟩ := hrun h
      exact ⟨lines, outcome, killed, congrArg some hr, hcaptured⟩
  | aside step =>
      cases hstep
      obtain ⟨lines, outcome, killed, hr, hcaptured⟩ := hrun h
      exact ⟨lines, outcome, killed, congrArg some hr, hcaptured⟩

end Context

/-! ## Executions -/

open Shell Text in
/-- The readers of two streams go on, whatever turns they take, until both have closed, and what they
hand on by then are the lines of each stream in order, mixed in any way. A command that a shell runs
writes lines that the readers of its streams can hand on. Each step that starts a command has the lines
that the command writes in its log and in its output, and its conditions see this output. -/
theorem captured_output_of_execution {rounds depth : Nat} {k : Call} {t : Transcript Query.Reply}
    {r : Except Break Status} (h : Yields (k.execute rounds (depth + 1)) t (r.map .ok)) :
    (∀ bytes moves s, Happens Capture.Step (Capture.start bytes) moves s →
      moves.length + s.work = (Capture.start bytes).work ∧
        (s.marks ≠ 0 → ∃ m s', Capture.Step s m s')) ∧
    (∀ bytes lines, Hands bytes lines ↔
      ∀ source, textsOf source lines = (byteLines (bytes source)).map String.ofList) ∧
    (∀ bytes, LinesOf (normalizeNewlines (Utf8.decodeLossy bytes)) (byteLines bytes) ∧
      ∀ line ∈ byteLines bytes, OneLine line) ∧
    (∀ (p : Performance) lines exitCode killed, p.process.Goes lines exitCode killed →
      ∃ done left, p.deeds = done ++ left ∧ (killed = false → left = []) ∧
        Hands (fun source => written source done) lines) ∧
    ∃ c deeds, k.Served rounds depth c deeds t r ∧
      ∀ before p after step process, deeds = before ++ p :: after → p.1.1.step? = some step →
        step.work = .command → ⟨.launch (c.commandOf step), .started process⟩ ∈ p.2 →
        ∃ lines outcome killed, Course.result? p.1 = some (.ok outcome) ∧
          process.Goes lines outcome.exitCode killed ∧ c.Captured step p.2 lines outcome ∧
          ∀ position, p.1 = ⟨.turn position step, .ok outcome⟩ →
            Course.Behind c.workflow position step outcome (after.map Prod.fst) := by
  refine ⟨fun bytes moves s hs => ?_, fun _ _ => hands_iff, fun bytes => ?_, fun p _ _ _ hgoes => ?_, ?_⟩
  · exact ⟨Capture.length_add_work hs, (Capture.sound_of_happens hs).exists_step⟩
  · exact ⟨linesOf_splitFeeds _, fun line => oneLine_of_mem_splitLines⟩
  · obtain ⟨done, left, hdeeds, hleft, htexts⟩ := Performance.lines_of_goes hgoes
    exact ⟨done, left, hdeeds, hleft, hands_iff.2 htexts⟩
  · obtain ⟨c, deeds, hserved⟩ := k.exists_served h
    refine ⟨c, deeds, hserved, fun before p after step process hdeeds hstep hwork hstarted => ?_⟩
    subst hdeeds
    obtain ⟨lines, outcome, killed, hresult, hgoes, hcaptured⟩ := Context.captured_of_serves
      (hserved.serves p (List.mem_append_right _ List.mem_cons_self)) hstep hwork hstarted
    refine ⟨lines, outcome, killed, hresult, hgoes, hcaptured, fun position hp => ?_⟩
    have hcourse := hserved.course
    rw [List.map_append, List.map_cons, hp] at hcourse
    exact Course.behind_of_yields hcourse

/-- A command that writes to both of its streams; the two line ends of a line come one after the other,
and the last line has none. -/
def twoStreams : Shell.Performance where
  deeds := [(0, .wrote .stdout [0x61, 0x0D]), (1, .wrote .stderr [0xFF, 0x0A]),
    (2, .wrote .stdout [0x0A, 0x62])]
  ends := 3
  exitCode := 0
  released := 3

/-- A workflow that such a command stops by its output. -/
def watchfulWorkflow : Workflow where
  id := "w"
  steps := [{ id := "a", content := "true", conditions :=
    [{ type := "contains", value := "\uFFFD\na\nb\n", action := { type := "stop" } }] }]

/-- A run of that workflow with that command. -/
def watchfulRun : Transcript Query.Reply :=
  ((⟨[], "w", []⟩ : Call).execute 2 1).run.transcript
    (steady (fun _ => some watchfulWorkflow) false (.started twoStreams.process))

/-- The lines of both streams are in the log of that run, and its condition sees them. -/
theorem captured_output_of_execution_twoStreams :
    Yields ((⟨[], "w", []⟩ : Call).execute 2 1) watchfulRun (.ok (.ok .completed)) ∧
      Shell.Hands (fun source => Shell.written source twoStreams.deeds)
        [(.stderr, "\uFFFD"), (.stdout, "a"), (.stdout, "b")] ∧
      logOf (told ⟨"run", "w", 0⟩ watchfulRun) =
        [⟨"", .info, "Starting workflow: w"⟩, ⟨"a", .info, "Step 1/1: a"⟩, ⟨"a", .info, "$ true"⟩,
          ⟨"a", .error, "\uFFFD"⟩, ⟨"a", .info, "a"⟩, ⟨"a", .info, "b"⟩,
          ⟨"a", .info, "Condition matched: stop"⟩, ⟨"", .info, "Workflow stopped by condition"⟩] := by
  have hresult : ((⟨[], "w", []⟩ : Call).execute 2 1).run.result
      (steady (fun _ => some watchfulWorkflow) false (.started twoStreams.process)) =
        .ok (.ok .completed) := by decide +kernel
  have h : Yields ((⟨[], "w", []⟩ : Call).execute 2 1) watchfulRun (.ok (.ok .completed)) :=
    hresult ▸ yields_transcript _ _
  obtain ⟨-, hhands, -, -, -⟩ := captured_output_of_execution (r := .ok .completed) h
  refine ⟨h, (hhands _ _).2 fun source => ?_, by decide +kernel⟩
  cases source <;> decide +kernel

end Runbook.Run
