import Runbook.Proofs.Run.Execution
import Runbook.Proofs.Run.Likeness

/-!
# Runs without the runs around them

An execution knows the ids of the runs around it, and asks nothing but whether its own id is among
them. If a workflow names none of the ids `pre`, it runs inside runs of these as it runs without them:
the same questions with the same replies lead to the same status. Only two things tell them apart. A
run is deeper inside than outside (`Identity.below`), and the message for a cycle lists all ids around
it (`MessageLike`).

The comparison goes along the definitions: a course asks for like tasks as long as outcomes are alike
(`alike_whole`), contexts serve like tasks alike (`like_serve`), and so executions are alike, by
induction on how deep runs may be nested (`alike_execute`). A step that names one of the ids `pre`
leads astray, since it is refused inside and may start a run outside.
-/

set_option autoImplicit false

namespace Runbook.Run

section Ancestry

variable (pre : List String)

/-! ## What is alike -/

/-- Messages are the same, or they tell of the same cycle inside and outside, perhaps indented. -/
inductive MessageLike : String → String → Prop
  | same (message : String) : MessageLike message message
  | cycle (id : String) (chain : List String) :
      MessageLike ("Step failed: " ++ (Failure.cycle id (pre ++ chain)).message)
        ("Step failed: " ++ (Failure.cycle id chain).message)
  | indented {message message' : String} : MessageLike message message' →
      MessageLike ("  " ++ message) ("  " ++ message')

/-- Failures are the same, or the same cycle inside and outside. -/
inductive FailureLike : Failure → Failure → Prop
  | same (failure : Failure) : FailureLike failure failure
  | cycle (id : String) (chain : List String) :
      FailureLike (.cycle id (pre ++ chain)) (.cycle id chain)

/-- Outcomes are the same but for the ids that a cycle lists. -/
inductive OutcomeLike : Outcome → Outcome → Prop
  | same (outcome : Outcome) : OutcomeLike outcome outcome
  | cycle (output : String) (exitCode : Int) (id : String) (chain : List String) :
      OutcomeLike ⟨output, exitCode, some (.cycle id (pre ++ chain))⟩
        ⟨output, exitCode, some (.cycle id chain)⟩

/-- What a nested run comes to is the same but for the ids that a cycle lists. -/
inductive ResultLike : Except Failure Status → Except Failure Status → Prop
  | same (result : Except Failure Status) : ResultLike result result
  | cycle (id : String) (chain : List String) :
      ResultLike (.error (.cycle id (pre ++ chain))) (.error (.cycle id chain))

/-- Events are the same but for their messages, which are alike. -/
inductive EventLike : Event → Event → Prop
  | same (event : Event) : EventLike event event
  | entry (stepId : String) (level : Level) (isOutput : Bool) {message message' : String} :
      MessageLike pre message message' →
      EventLike (.entry ⟨stepId, level, message⟩ isOutput) (.entry ⟨stepId, level, message'⟩ isOutput)

theorem EventLike.remark {pre : List String} {message message' : String}
    (h : MessageLike pre message message') (stepId : String) (level : Level) :
    EventLike pre (remark stepId message level) (remark stepId message' level) :=
  .entry stepId level false h

theorem ResultLike.outcome {pre : List String} {result result' : Except Failure Status}
    (h : ResultLike pre result result') (id : String) :
    OutcomeLike pre (.ofNested id result) (.ofNested id result') := by
  cases h with
  | same => exact .same _
  | cycle id chain => exact .cycle "" 1 id chain

/-! ## Courses -/

/-- Tasks are the same but for what is made known. -/
inductive TaskLike : Task → Task → Prop
  | check : TaskLike .check .check
  | tell {event event' : Event} : EventLike pre event event' → TaskLike (.tell event) (.tell event')
  | turn (position : Nat) (step : Step) : TaskLike (.turn position step) (.turn position step)
  | aside (step : Step) : TaskLike (.aside step) (.aside step)

/-- Replies to like tasks: checks are answered alike, and steps come to like outcomes. -/
def taskReplied : (task task' : Task) → task.Reply → task'.Reply → Prop
  | .check, .check => Eq
  | .tell _, .tell _ => fun _ _ => True
  | .turn _ _, .turn _ _ => Results (OutcomeLike pre)
  | .aside _, .aside _ => Results (OutcomeLike pre)
  | _, _ => fun _ _ => False

/-- How the tasks of a run inside and outside match. -/
def taskLikeness : Likeness Task.Reply Task.Reply where
  asked := TaskLike pre
  replied := taskReplied pre
  stray _ := False

namespace Course

variable {pre}

theorem alike_tell {event event' : Event} (h : EventLike pre event event') :
    Alike (taskLikeness pre) (fun _ _ => True) (tell event) (tell event') :=
  Alike.lift (L := taskLikeness pre) (TaskLike.tell h)

theorem alike_log {message message' : String} (h : MessageLike pre message message')
    (stepId : String) (level : Level) :
    Alike (taskLikeness pre) (fun _ _ => True) (log stepId message level)
      (log stepId message' level) :=
  alike_tell (.entry stepId level false h)

theorem alike_finish (status : Status) (stepId message : String) (level : Level) :
    Alike (taskLikeness pre) Eq (finish status stepId message level)
      (finish status stepId message level) :=
  (alike_log (.same message) stepId level).bind fun _ _ _ =>
    (alike_tell (.same _)).bind fun _ _ _ => .pure rfl

theorem alike_stopIfCancelled (stepId : String) (already : Bool) :
    Alike (taskLikeness pre) Eq (stopIfCancelled stepId already)
      (stopIfCancelled stepId already) := by
  refine (Alike.lift (L := taskLikeness pre) TaskLike.check).bind ?_
  rintro requested _ rfl
  split
  · refine (alike_finish .cancelled stepId "Execution cancelled" .info).bind ?_
    rintro status _ rfl
    exact .pure rfl
  · exact .pure rfl

theorem alike_turn (position : Nat) (step : Step) :
    Alike (taskLikeness pre) (OutcomeLike pre) (turn position step) (turn position step) :=
  Like.query (L := taskLikeness pre) (TaskLike.turn position step)

theorem alike_aside (step : Step) :
    Alike (taskLikeness pre) (OutcomeLike pre) (aside step) (aside step) :=
  Like.query (L := taskLikeness pre) (TaskLike.aside step)

variable {w : Workflow} {step : Step} {outcome outcome' : Outcome}

theorem alike_act (action : Action) (step : Step) (position : Nat) :
    Alike (taskLikeness pre) Eq (act w action step position) (act w action step position) := by
  unfold act
  split
  · exact .pure rfl
  · exact .pure rfl
  · exact (alike_log (.same _) _ _).bind fun _ _ _ => .pure rfl
  · split
    · exact (alike_log (.same _) _ _).bind fun _ _ _ => .pure rfl
    · exact (alike_log (.same _) _ _).bind fun _ _ _ => .pure rfl
  · split
    · exact (alike_log (.same _) _ _).bind fun _ _ _ => .pure rfl
    · rename_i side _
      refine (alike_log (.same _) _ _).bind fun _ _ _ => (alike_aside side).bind ?_
      intro outcome outcome' houtcome
      -- an outcome says no more here than the message of its failure
      cases houtcome with
      | same outcome =>
          split
          · exact .pure rfl
          · exact .pure rfl
          · exact (alike_log (.same _) _ _).bind fun _ _ _ => .pure rfl
      | cycle output exitCode id chain =>
          exact (alike_log (.cycle id chain) _ _).bind fun _ _ _ => .pure rfl

theorem alike_actAndCheck (action : Action) (step : Step) (position : Nat) (reason : String) :
    Alike (taskLikeness pre) Eq (actAndCheck w action step position reason)
      (actAndCheck w action step position reason) := by
  refine (alike_act action step position).bind ?_
  rintro effect _ rfl
  refine (alike_stopIfCancelled step.id false).bind ?_
  rintro stopped _ rfl
  cases stopped with
  | some status => exact .pure rfl
  | none =>
      cases effect with
      | at_ there => exact .pure rfl
      | stop =>
          refine (alike_finish _ _ _ _).bind ?_
          rintro status _ rfl
          exact .pure rfl

theorem alike_passOver (whys : List Unusable) :
    Alike (taskLikeness pre) (fun _ _ => True)
      (forIn whys PUnit.unit fun why _ => do
        tell (.passedOver why)
        pure (ForInStep.yield PUnit.unit))
      (forIn whys PUnit.unit fun why _ => do
        tell (.passedOver why)
        pure (ForInStep.yield PUnit.unit)) := by
  induction whys with
  | nil => exact .pure trivial
  | cons why whys ih =>
      simp only [List.forIn_cons, bind_assoc, pure_bind]
      exact (alike_tell (.same _)).bind fun _ _ _ => ih

theorem alike_conditionPass (step : Step) (position : Nat) (h : OutcomeLike pre outcome outcome') :
    Alike (taskLikeness pre) Eq (conditionPass w step outcome position)
      (conditionPass w step outcome' position) := by
  -- conditions judge the output and the exit code, which are the same
  have hsame : conditionPass w step outcome position = conditionPass w step outcome' position := by
    cases h <;> rfl
  rw [hsame]
  refine (alike_passOver _).bind fun _ _ _ => ?_
  split
  · exact .throw _
  · exact .pure rfl
  · exact (alike_log (.same _) _ _).bind fun _ _ _ => alike_actAndCheck _ _ _ _

theorem alike_hookPass_of_failure (step : Step) (position : Nat) {failure failure' : Failure}
    (hfailure : outcome.failure = some failure) (hfailure' : outcome'.failure = some failure')
    (h : MessageLike pre ("Step failed: " ++ failure.message)
      ("Step failed: " ++ failure'.message)) :
    Alike (taskLikeness pre) Eq (hookPass w step outcome position)
      (hookPass w step outcome' position) := by
  unfold hookPass
  rw [hfailure, hfailure']
  refine (alike_log h _ _).bind fun _ _ _ => ?_
  cases step.onFailure with
  | none =>
      refine (alike_finish _ _ _ _).bind ?_
      rintro status _ rfl
      exact .pure rfl
  | some action => exact alike_actAndCheck _ _ _ _

theorem alike_hookPass (step : Step) (position : Nat) (h : OutcomeLike pre outcome outcome') :
    Alike (taskLikeness pre) Eq (hookPass w step outcome position)
      (hookPass w step outcome' position) := by
  cases h with
  | cycle output exitCode id chain =>
      exact alike_hookPass_of_failure step position rfl rfl (.cycle id chain)
  | same outcome =>
      cases hfailure : outcome.failure with
      | some failure =>
          exact alike_hookPass_of_failure step position hfailure hfailure (.same _)
      | none =>
          unfold hookPass
          rw [hfailure]
          cases step.onSuccess with
          | none => exact .pure rfl
          | some action => exact alike_actAndCheck _ _ _ _

theorem alike_round (position : Nat) (step : Step) :
    Alike (taskLikeness pre) Eq (round w position step) (round w position step) := by
  refine (alike_stopIfCancelled step.id false).bind ?_
  rintro stopped _ rfl
  cases stopped with
  | some status => exact .pure rfl
  | none =>
      refine (alike_log (.same _) _ _).bind fun _ _ _ => (alike_turn position step).bind ?_
      intro outcome outcome' houtcome
      -- a cycle is no cancellation
      have hcancelled : outcome.isCancelled = outcome'.isCancelled := by
        cases houtcome <;> rfl
      rw [hcancelled]
      refine (alike_stopIfCancelled step.id outcome'.isCancelled).bind ?_
      rintro stopped _ rfl
      cases stopped with
      | some status => exact .pure rfl
      | none =>
          refine (alike_conditionPass step position houtcome).bind ?_
          rintro next _ rfl
          cases next with
          | ended status => exact .pure rfl
          | goOn position =>
              refine (alike_hookPass step position houtcome).bind ?_
              rintro next _ rfl
              cases next <;> exact .pure rfl

theorem alike_rounds (limit position : Nat) :
    Alike (taskLikeness pre) Eq (rounds w limit position) (rounds w limit position) := by
  induction limit generalizing position with
  | zero => exact .throw _
  | succ limit ih =>
      unfold rounds
      split
      · exact alike_finish _ _ _ _
      · refine (alike_round position _).bind ?_
        rintro next _ rfl
        cases next with
        | ended status => exact .pure rfl
        | goOn there => exact ih there

/-- The course of a run goes alike as long as its steps come to like outcomes. -/
theorem alike_whole (w : Workflow) (limit : Nat) :
    Alike (taskLikeness pre) Eq (whole w limit) (whole w limit) := by
  refine Alike.bind ?_ fun status status' (hstatus : status = status') => ?_
  · refine Alike.tryCatch ((alike_log (.same _) _ _).bind fun _ _ _ => alike_rounds limit 0) ?_
    intro b
    cases b with
    | outOfRounds => exact .throw _
    | crash crash => exact (alike_tell (.same _)).bind fun _ _ _ => alike_finish _ _ _ _
  · exact (alike_tell (.same _)).bind fun _ _ _ => .pure hstatus

end Course

/-! ## Contexts -/

/-- A run as it is deeper inside. -/
def Identity.below (n : Nat) (run : Identity) : Identity := { run with depth := n + run.depth }

/-- A context as it is inside the runs of `pre`. -/
def Context.inside (c : Context) : Context :=
  { c with run := c.run.below pre.length, chain := pre ++ c.chain }

/-- Questions are the same but for depths and for what is made known. -/
inductive QueryLike : Query → Query → Prop
  | same (q : Query) : q.depth? = none → QueryLike q q
  | begin (workflowId : String) (scope : Scope) (depth : Nat) :
      QueryLike (.begin workflowId scope (pre.length + depth)) (.begin workflowId scope depth)
  | tell (run : Identity) {event event' : Event} : EventLike pre event event' →
      QueryLike (.tell (run.below pre.length) event) (.tell run event')

/-- Whether a step makes known that it names one of the runs of `pre`. -/
def namesCaller : Query → Bool
  | .tell _ (.entry e false) =>
    e.level == .info && pre.any fun id => e.message == "Executing sub-workflow: " ++ id
  | _ => false

/-- How the questions of a run inside and outside match; the replies are the same. -/
def queryLikeness : Likeness Query.Reply Query.Reply where
  asked := QueryLike pre
  replied _ _ reply reply' := HEq reply reply'
  stray q := namesCaller pre q = true

variable {pre}

theorem total_queryLikeness : (queryLikeness pre).Total := by
  intro q q' hq reply
  cases hq with
  | same => exact ⟨reply, HEq.rfl⟩
  | begin => exact ⟨reply, HEq.rfl⟩
  | tell => exact ⟨reply, HEq.rfl⟩

/-- A question about no run in particular. -/
theorem alike_ask {q : Query} (hq : q.depth? = none) :
    Alike (queryLikeness pre) Eq (ask q) (ask q) :=
  .ask (QueryLike.same q hq) fun _ _ hreply => .done (.ok (eq_of_heq hreply))

section Context

variable {c : Context} {step : Step}

theorem alike_contextTell {event event' : Event} (h : EventLike pre event event') :
    Alike (queryLikeness pre) Eq ((c.inside pre).tell event) (c.tell event') :=
  .ask (QueryLike.tell c.run h) fun _ _ _ => .done (.ok rfl)

theorem alike_contextLog (stepId message : String) :
    Alike (queryLikeness pre) Eq ((c.inside pre).log stepId message) (c.log stepId message) :=
  alike_contextTell (.same _)

theorem alike_follow (stepId : String) (process : Process) (output : String) :
    Alike (queryLikeness pre) Eq ((c.inside pre).follow stepId process output)
      (c.follow stepId process output) := by
  induction process generalizing output with
  | line source text rest ih => exact (alike_contextTell (.same _)).bind fun _ _ _ => ih _
  | lasts milliseconds next ih =>
      refine (alike_ask rfl).bind ?_
      rintro stopped _ rfl
      exact ih stopped output
  | cancels rest ih => exact (alike_ask rfl).bind fun _ _ _ => ih output
  | writes change rest ih => exact (alike_ask rfl).bind fun _ _ _ => ih output
  | ended exitCode killed => exact .pure rfl

theorem alike_runCommand (c : Context) (step : Step) :
    Alike (queryLikeness pre) (OutcomeLike pre) ((c.inside pre).runCommand step)
      (c.runCommand step) := by
  refine (alike_contextLog _ _).bind fun _ _ _ => (alike_ask rfl).bind ?_
  rintro launch _ rfl
  cases launch with
  | crashed crash => exact .throw _
  | refused reason => exact .pure (.same _)
  | started process =>
      refine (alike_follow step.id process "").bind ?_
      rintro ⟨output, exitCode, killed⟩ _ rfl
      exact .pure (.same _)

theorem depth_below_beq (run run' : Identity) (n : Nat) :
    ((run.below n).depth == (run'.below n).depth + 1) = (run.depth == run'.depth + 1) := by
  rw [Bool.eq_iff_iff, beq_iff_eq, beq_iff_eq]
  simp only [Identity.below]
  omega

/-- A nested run is repeated alike. -/
theorem like_passOn {q q' : Query} (h : QueryLike pre q q') :
    Like (queryLikeness pre) ((queryLikeness pre).replied q q')
      (Dialogue.passOn ((c.inside pre).run.depth + 1) ((c.inside pre).echo step) q)
      (Dialogue.passOn (c.run.depth + 1) (c.echo step) q') := by
  cases h with
  | same q hq =>
      cases q with
      | tell run event => cases hq
      | _ => exact .query (.same _ hq)
  | begin workflowId scope depth => exact .query (.begin workflowId scope depth)
  | tell run hevent =>
      have hentry : ∀ {stepId message message' : String} {level : Level} {isOutput : Bool},
          MessageLike pre message message' →
            Like (queryLikeness pre) (fun _ _ => HEq () ())
              (Dialogue.passOn ((c.inside pre).run.depth + 1) ((c.inside pre).echo step)
                (.tell (run.below pre.length) (.entry ⟨stepId, level, message⟩ isOutput)))
              (Dialogue.passOn (c.run.depth + 1) (c.echo step)
                (.tell run (.entry ⟨stepId, level, message'⟩ isOutput))) := by
        intro stepId message message' level isOutput hmessage
        refine .ask (QueryLike.tell run (.entry stepId level isOutput hmessage)) fun _ _ _ => ?_
        -- both runs are repeated, or neither is
        rw [show (c.inside pre).run = c.run.below pre.length from rfl, depth_below_beq]
        split
        · exact .ask (QueryLike.tell c.run (.remark (.indented hmessage) step.id .info))
            fun _ _ _ => .done HEq.rfl
        · exact .done HEq.rfl
      cases hevent with
      | entry stepId level isOutput hmessage => exact hentry hmessage
      | same =>
          rename_i event
          cases event with
          | entry e isOutput => exact hentry (.same _)
          | _ => exact .query (L := queryLikeness pre) (.tell run (.same _))

theorem stray_passOn {α β : Type} {q : Query} (h : namesCaller pre q = true)
    (rest : q.Reply → Dialogue Query.Reply α) (e : Dialogue Query.Reply β)
    {same : α → β → Prop} {depth : Nat} {echo : Entry → Dialogue Query.Reply Unit} :
    Like (queryLikeness pre) same ((Dialogue.passOn depth echo q).bind rest) e := by
  -- such a question is passed on before anything else
  cases q with
  | tell run event =>
      cases event with
      | entry e isOutput => exact .stray h
      | _ => cases h
  | _ => cases h

theorem like_relay {α β : Type} {d : Dialogue Query.Reply α} {e : Dialogue Query.Reply β}
    {same : α → β → Prop} (h : Like (queryLikeness pre) same d e) :
    Like (queryLikeness pre) same
      (d.relay ((c.inside pre).run.depth + 1) ((c.inside pre).echo step))
      (e.relay (c.run.depth + 1) (c.echo step)) :=
  h.serve (fun _ _ hq => like_passOn hq) fun _ hq rest e => stray_passOn hq rest e

/-- A nested run is alike inside and outside, unless it is one of the runs of `pre`. -/
def NestedLike (pre : List String) (nested nested' : Nested) : Prop :=
  ∀ chain id inputs, id ∉ pre →
    Alike (queryLikeness pre) (ResultLike pre) (nested (pre ++ chain) id inputs)
      (nested' chain id inputs)

variable {nested nested' : Nested}

theorem alike_runWorkflow (c : Context) (step : Step) (h : NestedLike pre nested nested') :
    Alike (queryLikeness pre) (OutcomeLike pre) ((c.inside pre).runWorkflow nested step)
      (c.runWorkflow nested' step) := by
  by_cases hid : Text.strip step.content ∈ pre
  · exact .stray (by simpa [queryLikeness, namesCaller] using hid)
  · refine (alike_contextLog _ _).bind fun _ _ _ =>
      Alike.bind (like_relay (h c.chain _ c.scope hid)) ?_
    intro result result' hresult
    exact .pure (hresult.outcome _)

theorem alike_runStep (c : Context) (step : Step) (h : NestedLike pre nested nested') :
    Alike (queryLikeness pre) (OutcomeLike pre) ((c.inside pre).runStep nested step)
      (c.runStep nested' step) := by
  unfold Context.runStep
  split
  · exact alike_runCommand c step
  · exact alike_runWorkflow c step h
  · exact .pure (.same _)

/-- A context serves like tasks alike inside and outside. -/
theorem like_serve (h : NestedLike pre nested nested') {task task' : Task}
    (htask : TaskLike pre task task') :
    Like (queryLikeness pre) (taskReplied pre task task') ((c.inside pre).serve nested task)
      (c.serve nested' task') := by
  cases htask with
  | check => exact .ask (QueryLike.same _ rfl) fun _ _ hreply => .done (eq_of_heq hreply)
  | tell hevent => exact .ask (QueryLike.tell c.run hevent) fun _ _ _ => .done trivial
  | turn position step => exact alike_runStep c step h
  | aside step => exact alike_runStep c step h

theorem alike_body (c : Context) (rounds : Nat) (h : NestedLike pre nested nested') :
    Alike (queryLikeness pre) Eq ((c.inside pre).body nested rounds) (c.body nested' rounds) :=
  (Course.alike_whole c.workflow rounds).serve (fun _ _ htask => like_serve h htask)
    fun _ hstray => hstray.elim

end Context

/-! ## Executions -/

/-- A run begins alike inside and outside. -/
theorem alike_start (chain : List String) (w : Workflow) (inputs : Scope) :
    Alike (queryLikeness pre) (fun inner outer => inner = outer.inside pre)
      (start (pre ++ chain) w inputs) (start chain w inputs) := by
  refine (alike_ask rfl).bind ?_
  rintro globals _ rfl
  rw [List.length_append]
  refine Alike.bind (Alike.lift (L := queryLikeness pre) (QueryLike.begin _ _ _)) ?_
  intro executionId executionId' hid
  obtain rfl := eq_of_heq hid
  exact .pure (by simp [Context.inside, Identity.below])

/-- An execution inside the runs of `pre` is alike to that without them, unless it is one of these
runs. -/
theorem alike_execute (rounds depth : Nat) :
    NestedLike pre (execute rounds depth) (execute rounds depth) := by
  induction depth with
  | zero => exact fun _ _ _ _ => .throw _
  | succ depth ih =>
      intro chain id inputs hid
      unfold execute
      -- the id is one of `pre ++ chain` exactly if it is one of `chain`
      have hchain : (pre ++ chain).contains id = chain.contains id := by
        rw [Bool.eq_iff_iff]
        simp [hid]
      rw [hchain]
      split
      · exact .pure (.cycle id chain)
      · refine (alike_ask rfl).bind ?_
        rintro found _ rfl
        cases found with
        | none => exact .pure (.same _)
        | some w =>
            refine (alike_start chain w inputs).bind ?_
            rintro _ c rfl
            refine (alike_body c rounds ih).bind ?_
            rintro status _ rfl
            exact .pure (.same _)

end Ancestry

end Runbook.Run
