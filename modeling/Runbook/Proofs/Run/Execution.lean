import Mathlib.Data.List.Basic
import Runbook.Proofs.Run.Course
import Runbook.Run.Steps

/-!
# The ways of an execution

What running a step and executing a workflow can come to, as rules. A run is its list of `Deed`s: the
exchanges of its course, each with the exchanges by which it was done. `Stepped` says what the deed of
a step can be, `Ran` what a run consists of, and `Executed` that an execution is refused or is a run.
`stepped_of_ends` and `executed_of_yields` say that nothing else happens, whatever the world replies.
`Served` says of a run what its course and its context say, where the rules leave something open.

A nested run is repeated in the log of the run around it, which adds to its transcript and takes
nothing from it (`Context.relayed`). What a run makes known itself, `told`, can be told from what
the runs inside it make known, because these are deeper (`atLeast_of_yields`).
-/

set_option autoImplicit false

namespace Runbook.Run

open Dialogue (Serves ends_serve_iff)

/-- An exchange of the course of a run with the exchanges by which the task was done. -/
abbrev Deed := Dialogue.Service Task.Reply Query.Reply

/-- What executing a workflow needs to know: the runs around it, its id and its inputs. -/
structure Call where
  chain : List String
  id : String
  inputs : Scope

/-- Executes a workflow. -/
abbrev Call.execute (k : Call) (rounds depth : Nat) : Act (Except Failure Status) :=
  Run.execute rounds depth k.chain k.id k.inputs

namespace Context

variable (c : Context)

/-- How the workflow that a step names is executed. -/
def call (step : Step) : Call := ⟨c.chain, Text.strip step.content, c.scope⟩

/-! ## Repeating a nested run -/

/-- What is made known again after a question of a nested run. -/
def echoes (step : Step) : Query → Transcript Query.Reply
  | .tell run (.entry e _) =>
    if run.depth == c.run.depth + 1 then
      [⟨.tell c.run (remark step.id ("  " ++ e.message)), ()⟩]
    else []
  | _ => []

/-- The transcript of a nested run with its log repeated. -/
def relayed (step : Step) (t : Transcript Query.Reply) : Transcript Query.Reply :=
  t.flatMap fun x => x :: c.echoes step x.1

@[simp] theorem relayed_append (step : Step) (t u : Transcript Query.Reply) :
    c.relayed step (t ++ u) = c.relayed step t ++ c.relayed step u :=
  List.flatMap_append

theorem mem_relayed {step : Step} {t : Transcript Query.Reply} {x : Exchange Query.Reply}
    (h : x ∈ t) : x ∈ c.relayed step t :=
  List.mem_flatMap.2 ⟨x, h, List.mem_cons_self ..⟩

theorem exists_of_mem_echoes {step : Step} {q : Query} {x : Exchange Query.Reply}
    (h : x ∈ c.echoes step q) :
    ∃ message, x = ⟨.tell c.run (remark step.id ("  " ++ message)), ()⟩ := by
  unfold echoes at h
  split at h
  · rename_i run e isOutput
    split at h
    · exact ⟨e.message, List.mem_singleton.1 h⟩
    · cases h
  · cases h

/-- A nested run can be read off what the run around it makes of it. -/
theorem relayed_injective {step : Step} {t u : Transcript Query.Reply}
    (h : c.relayed step t = c.relayed step u) : t = u := by
  induction t generalizing u with
  | nil =>
      cases u with
      | nil => rfl
      | cons y u => cases h
  | cons x t ih =>
      cases u with
      | nil => cases h
      | cons y u =>
          rw [relayed, relayed, List.flatMap_cons, List.flatMap_cons, List.cons_append,
            List.cons_append] at h
          obtain ⟨rfl, hrest⟩ := List.cons.inj h
          -- what is repeated of an exchange depends on the exchange alone
          rw [ih (List.append_cancel_left hrest)]

theorem ends_passOn_iff {step : Step} {q : Query} {u : Transcript Query.Reply} {reply : q.Reply} :
    (Dialogue.passOn (c.run.depth + 1) (c.echo step) q).Ends u reply ↔
      u = ⟨q, reply⟩ :: c.echoes step q := by
  cases q with
  | tell run event =>
      cases event with
      | entry e isOutput =>
          -- entries are the only thing that is made known again, and only at this depth
          rw [Dialogue.passOn, Dialogue.ends_bind_iff, echoes]
          split
          · constructor
            · rintro ⟨_, _, _, rfl, hfirst, hecho⟩
              rw [Dialogue.ends_query_iff.1 hfirst, Dialogue.ends_query_iff.1 hecho]
              rfl
            · rintro rfl
              exact ⟨_, (), _, rfl, Dialogue.ends_query_iff.2 rfl, Dialogue.ends_query_iff.2 rfl⟩
          · constructor
            · rintro ⟨_, _, _, rfl, hfirst, hnone⟩
              rw [Dialogue.ends_query_iff.1 hfirst, (Dialogue.ends_done_iff.1 hnone).1]
              rfl
            · rintro rfl
              exact ⟨_, (), [], rfl, Dialogue.ends_query_iff.2 rfl,
                Dialogue.ends_done_iff.2 ⟨rfl, rfl⟩⟩
      | _ => exact Dialogue.ends_query_iff
  | _ => exact Dialogue.ends_query_iff

theorem ends_relay_iff {step : Step} {α : Type} {d : Dialogue Query.Reply α}
    {u : Transcript Query.Reply} {a : α} :
    (d.relay (c.run.depth + 1) (c.echo step)).Ends u a ↔
      ∃ t, d.Ends t a ∧ u = c.relayed step t := by
  have hflat : ∀ l : List (Dialogue.Service Query.Reply Query.Reply),
      (∀ p ∈ l, Serves (Dialogue.passOn (c.run.depth + 1) (c.echo step)) p) →
        l.flatMap Prod.snd = c.relayed step (l.map Prod.fst) := by
    intro l hl
    rw [relayed, List.flatMap_map]
    exact List.flatMap_congr fun p hp => c.ends_passOn_iff.1 (hl p hp)
  -- every question was served in the one way there is
  rw [Dialogue.relay, ends_serve_iff]
  constructor
  · rintro ⟨l, hl, hd, rfl⟩
    exact ⟨_, hd, hflat l hl⟩
  · rintro ⟨t, hd, rfl⟩
    refine ⟨t.map fun x => (x, x :: c.echoes step x.1), ?_, ?_, ?_⟩
    · intro p hp
      obtain ⟨x, -, rfl⟩ := List.mem_map.1 hp
      exact c.ends_passOn_iff.2 rfl
    · rwa [List.map_map, show Prod.fst ∘ (fun x : Exchange Query.Reply =>
        (x, x :: c.echoes step x.1)) = id from rfl, List.map_id]
    · rw [List.flatMap_map, relayed]

/-! ## Steps -/

/-- What a command that was started asks, and what is made known of it. -/
def isWork : Query → Bool
  | .tell run (.entry _ isOutput) => run == c.run && isOutput
  | .wait _ => true
  | .cancel => true
  | .write _ => true
  | _ => false

/-- A command is followed to its end whatever happens meanwhile. -/
theorem work_of_follow {stepId : String} {process : Process} {output : String}
    {t : Transcript Query.Reply} {r : Except Break (String × Int × Bool)}
    (h : Yields (c.follow stepId process output) t r) :
    (∀ x ∈ t, c.isWork x.1 = true) ∧ ∃ performance, r = .ok performance := by
  -- by induction on what the command does; `ih stopped` covers both replies to a pause
  induction process generalizing output t with
  | line source text rest ih =>
      obtain ⟨_, t, rfl, hrest⟩ := yields_lift_bind_iff.1 h
      exact ⟨List.forall_mem_cons.2 ⟨by simp [isWork], (ih hrest).1⟩, (ih hrest).2⟩
  | lasts milliseconds next ih =>
      obtain ⟨stopped, t, rfl, hrest⟩ := yields_lift_bind_iff.1 h
      exact ⟨List.forall_mem_cons.2 ⟨rfl, (ih stopped hrest).1⟩, (ih stopped hrest).2⟩
  | cancels rest ih =>
      obtain ⟨_, t, rfl, hrest⟩ := yields_lift_bind_iff.1 h
      exact ⟨List.forall_mem_cons.2 ⟨rfl, (ih hrest).1⟩, (ih hrest).2⟩
  | writes change rest ih =>
      obtain ⟨_, t, rfl, hrest⟩ := yields_lift_bind_iff.1 h
      exact ⟨List.forall_mem_cons.2 ⟨rfl, (ih hrest).1⟩, (ih hrest).2⟩
  | ended exitCode killed =>
      obtain ⟨rfl, rfl⟩ := yields_pure_iff.1 h
      exact ⟨by simp, _, rfl⟩

/-- The command of a step, with the variables of the run. -/
def commandOf (step : Step) : String := Template.fill step.content (step.bind c.scope)

/-- The exchanges up to the reply whether a command was started. -/
def launching (step : Step) (reply : Launch) : Transcript Query.Reply :=
  [⟨.tell c.run (remark step.id ("$ " ++ c.commandOf step)), ()⟩,
    ⟨.launch (c.commandOf step), reply⟩]

/-- The exchange with which a step begins that names a workflow. -/
def naming (step : Step) : Exchange Query.Reply :=
  ⟨.tell c.run (remark step.id ("Executing sub-workflow: " ++ (c.call step).id)), ()⟩

/-- What running a step comes to. -/
inductive Stepped (rounds depth : Nat) (step : Step) :
    Transcript Query.Reply → Except Break Outcome → Prop
  | unknown (type : String) : step.work = .unknown type →
      Stepped rounds depth step []
        (.ok { exitCode := -1, failure := some (.unknownStepType type) })
  | crashed (crash : Crash) : step.work = .command →
      Stepped rounds depth step (c.launching step (.crashed crash)) (.error (.crash crash))
  | refused (reason : String) : step.work = .command →
      Stepped rounds depth step (c.launching step (.refused reason))
        (.ok { exitCode := -1,
               failure := some (.process (-1) ("failed to start command: " ++ reason)) })
  | followed (process : Process) (work : Transcript Query.Reply) (outcome : Outcome) :
      step.work = .command → (∀ x ∈ work, c.isWork x.1 = true) →
      Stepped rounds depth step (c.launching step (.started process) ++ work) (.ok outcome)
  | nested {t : Transcript Query.Reply} {r : Except Break (Except Failure Status)} :
      step.work = .workflow → Yields ((c.call step).execute rounds depth) t r →
      Stepped rounds depth step (c.naming step :: c.relayed step t)
        (r.map (Outcome.ofNested (c.call step).id))

theorem stepped_of_command {rounds depth : Nat} {step : Step} {t : Transcript Query.Reply}
    {r : Except Break Outcome} (hwork : step.work = .command)
    (h : Yields (c.runCommand step) t r) : c.Stepped rounds depth step t r := by
  obtain ⟨_, t, rfl, hlaunch⟩ := yields_lift_bind_iff.1 h
  obtain ⟨reply, t, rfl, hrest⟩ := yields_lift_bind_iff.1 hlaunch
  cases reply with
  | crashed crash =>
      obtain ⟨rfl, rfl⟩ := yields_throw_iff.1 hrest
      exact .crashed crash hwork
  | refused reason =>
      obtain ⟨rfl, rfl⟩ := yields_pure_iff.1 hrest
      exact .refused reason hwork
  | started process =>
      obtain ⟨b, hfollow, -⟩ | ⟨work, performance, t, rfl, hfollow, hend⟩ :=
        yields_bind_iff.1 hrest
      · obtain ⟨-, _, hok⟩ := c.work_of_follow hfollow
        cases hok
      · obtain ⟨rfl, rfl⟩ := yields_pure_iff.1 hend
        rw [List.append_nil]
        exact .followed process work _ hwork (c.work_of_follow hfollow).1

theorem stepped_of_workflow {rounds depth : Nat} {step : Step} {t : Transcript Query.Reply}
    {r : Except Break Outcome} (hwork : step.work = .workflow)
    (h : Yields (c.runWorkflow (execute rounds depth) step) t r) :
    c.Stepped rounds depth step t r := by
  obtain ⟨_, t, rfl, hnested⟩ := yields_lift_bind_iff.1 h
  rcases yields_bind_iff.1 hnested with ⟨b, hrelay, rfl⟩ | ⟨t, result, t', rfl, hrelay, hend⟩
  · obtain ⟨t, hexecute, rfl⟩ := c.ends_relay_iff.1 hrelay
    exact .nested (r := .error b) hwork hexecute
  · obtain ⟨rfl, rfl⟩ := yields_pure_iff.1 hend
    obtain ⟨t, hexecute, rfl⟩ := c.ends_relay_iff.1 hrelay
    rw [List.append_nil]
    exact .nested (r := .ok result) hwork hexecute

theorem stepped_of_ends {rounds depth : Nat} {step : Step} {t : Transcript Query.Reply}
    {r : Except Break Outcome} (h : (c.runStep (execute rounds depth) step).run.Ends t r) :
    c.Stepped rounds depth step t r := by
  rw [runStep] at h
  split at h
  · rename_i hwork
    exact c.stepped_of_command hwork h
  · rename_i hwork
    exact c.stepped_of_workflow hwork h
  · rename_i type hwork
    obtain ⟨rfl, rfl⟩ := yields_pure_iff.1 h
    exact .unknown type hwork

/-! ## Deeds -/

/-- What doing a task comes to. -/
inductive Does (rounds depth : Nat) : Deed → Prop
  | check (requested : Bool) :
      Does rounds depth (⟨.check, requested⟩, [⟨.cancelRequested, requested⟩])
  | tell (event : Event) : Does rounds depth (⟨.tell event, ()⟩, [⟨.tell c.run event, ()⟩])
  | turn (position : Nat) {step : Step} {t : Transcript Query.Reply} {r : Except Break Outcome} :
      c.Stepped rounds depth step t r → Does rounds depth (⟨.turn position step, r⟩, t)
  | aside {step : Step} {t : Transcript Query.Reply} {r : Except Break Outcome} :
      c.Stepped rounds depth step t r → Does rounds depth (⟨.aside step, r⟩, t)

theorem does_of_serves {rounds depth : Nat} {p : Deed}
    (h : Serves (c.serve (execute rounds depth)) p) : c.Does rounds depth p := by
  obtain ⟨⟨task, reply⟩, t⟩ := p
  cases task with
  | check =>
      have ht : t = [⟨.cancelRequested, reply⟩] := Dialogue.ends_query_iff.1 h
      rw [ht]
      exact .check reply
  | tell event =>
      have ht : t = [⟨.tell c.run event, ()⟩] := Dialogue.ends_query_iff.1 h
      rw [ht]
      exact .tell event
  | turn position step => exact .turn position (c.stepped_of_ends h)
  | aside step => exact .aside (c.stepped_of_ends h)

end Context

/-- An exchange of a step makes something known in the name of its run, starts a command or belongs to
one that was started; or it is an exchange of a nested run. -/
theorem Context.Stepped.mem_cases {c : Context} {rounds depth : Nat} {step : Step}
    {t : Transcript Query.Reply} {r : Except Break Outcome} {x : Exchange Query.Reply}
    (h : c.Stepped rounds depth step t r) (hmem : x ∈ t) :
    (∃ event, x.1 = .tell c.run event) ∨ (∃ command, x.1 = .launch command) ∨
      c.isWork x.1 = true ∨
      step.work = .workflow ∧ ∃ t' r', Yields ((c.call step).execute rounds depth) t' r' ∧
        t = c.naming step :: c.relayed step t' ∧ r = r'.map (Outcome.ofNested (c.call step).id) ∧
          x ∈ t' := by
  have hlaunching : ∀ {reply}, x ∈ c.launching step reply →
      (∃ event, x.1 = .tell c.run event) ∨ ∃ command, x.1 = .launch command := by
    intro reply hx
    rcases List.mem_cons.1 hx with rfl | hx
    · exact .inl ⟨_, rfl⟩
    · rw [List.mem_singleton.1 hx]
      exact .inr ⟨_, rfl⟩
  cases h with
  | unknown => cases hmem
  | crashed => exact (hlaunching hmem).imp_right .inl
  | refused => exact (hlaunching hmem).imp_right .inl
  | followed process work outcome _ hwork =>
      rcases List.mem_append.1 hmem with hx | hx
      · exact (hlaunching hx).imp_right .inl
      · exact .inr (.inr (.inl (hwork x hx)))
  | @nested t' r' hwork hyields =>
      rcases List.mem_cons.1 hmem with rfl | hx
      · exact .inl ⟨_, rfl⟩
      · obtain ⟨y, hy, hx⟩ := List.mem_flatMap.1 hx
        -- it stands in the nested run itself, or repeats what the nested run makes known
        rcases List.mem_cons.1 hx with rfl | hx
        · exact .inr (.inr (.inr ⟨hwork, t', r', hyields, rfl, rfl, hy⟩))
        · obtain ⟨message, rfl⟩ := c.exists_of_mem_echoes hx
          exact .inl ⟨_, rfl⟩

/-- Only a step that names a workflow begins runs. -/
theorem Context.Stepped.nested_of_begin {c : Context} {rounds depth : Nat} {step : Step}
    {t : Transcript Query.Reply} {r : Except Break Outcome} {workflowId executionId : String}
    {scope : Scope} {n : Nat} (h : c.Stepped rounds depth step t r)
    (hmem : ⟨.begin workflowId scope n, executionId⟩ ∈ t) :
    step.work = .workflow ∧ ∃ t' r', Yields ((c.call step).execute rounds depth) t' r' ∧
      t = c.naming step :: c.relayed step t' ∧ r = r'.map (Outcome.ofNested (c.call step).id) ∧
        ⟨.begin workflowId scope n, executionId⟩ ∈ t' := by
  rcases h.mem_cases hmem with ⟨event, hx⟩ | ⟨command, hx⟩ | hwork | hnested
  · cases hx
  · cases hx
  · cases hwork
  · exact hnested

theorem Context.Does.stepped_of_step? {c : Context} {rounds depth : Nat} {p : Deed} {step : Step}
    (h : c.Does rounds depth p) (hstep : p.1.1.step? = some step) :
    ∃ r, Course.result? p.1 = some r ∧ c.Stepped rounds depth step p.2 r := by
  cases h with
  | check => cases hstep
  | tell => cases hstep
  | turn position h =>
      cases hstep
      exact ⟨_, rfl, h⟩
  | aside h =>
      cases hstep
      exact ⟨_, rfl, h⟩

/-- What is neither a check nor made known by the run belongs to a step that it runs. -/
theorem Context.Does.stepped {c : Context} {rounds depth : Nat} {p : Deed} {x : Exchange Query.Reply}
    (h : c.Does rounds depth p) (hmem : x ∈ p.2) (hcheck : x.1 ≠ .cancelRequested)
    (htell : ∀ event, x.1 ≠ .tell c.run event) :
    ∃ step r, p.1.1.step? = some step ∧ Course.result? p.1 = some r ∧
      c.Stepped rounds depth step p.2 r := by
  cases h with
  | check => exact absurd (congrArg Sigma.fst (List.mem_singleton.1 hmem)) hcheck
  | tell event => exact absurd (congrArg Sigma.fst (List.mem_singleton.1 hmem)) (htell event)
  | turn position h => exact ⟨_, _, rfl, rfl, h⟩
  | aside h => exact ⟨_, _, rfl, rfl, h⟩

/-! ## Runs -/

namespace Call

variable (k : Call)

/-- The context of a run that begins. -/
def context (w : Workflow) (globals : Scope) (executionId : String) : Context :=
  ⟨⟨executionId, w.id, k.chain.length⟩, w, resolve globals w.declared k.inputs,
    k.chain ++ [w.id]⟩

/-- The exchanges with which a run begins. -/
def beginning (w : Workflow) (globals : Scope) (executionId : String) : Transcript Query.Reply :=
  [⟨.workflow k.id, some w⟩, ⟨.globals, globals⟩,
    ⟨.begin w.id (resolve globals w.declared k.inputs) k.chain.length, executionId⟩]

/-- A run begins with these exchanges, in this context. -/
def Begins (c : Context) (first : Transcript Query.Reply) : Prop :=
  ∃ w globals executionId,
    c = k.context w globals executionId ∧ first = k.beginning w globals executionId

/-- A run takes place: its context, its deeds, all that was exchanged, and its result. -/
inductive Ran (rounds depth : Nat) :
    Context → List Deed → Transcript Query.Reply → Except Break Status → Prop
  | ran (w : Workflow) (globals : Scope) (executionId : String) {deeds : List Deed}
      {r : Except Break Status} :
      k.id ∉ k.chain →
      (∀ p ∈ deeds, (k.context w globals executionId).Does rounds depth p) →
      Course.Whole w rounds (deeds.map Prod.fst) r →
      Ran rounds depth (k.context w globals executionId) deeds
        (k.beginning w globals executionId ++ deeds.flatMap Prod.snd) r

namespace Ran

variable {k} {rounds depth : Nat} {c : Context} {deeds : List Deed} {t : Transcript Query.Reply}
  {r : Except Break Status}

theorem fresh (h : k.Ran rounds depth c deeds t r) : k.id ∉ k.chain := by
  cases h
  assumption

theorem does (h : k.Ran rounds depth c deeds t r) : ∀ p ∈ deeds, c.Does rounds depth p := by
  cases h
  assumption

theorem whole (h : k.Ran rounds depth c deeds t r) :
    Course.Whole c.workflow rounds (deeds.map Prod.fst) r := by
  cases h
  assumption

theorem chain_eq (h : k.Ran rounds depth c deeds t r) :
    c.chain = k.chain ++ [c.workflow.id] := by
  cases h
  rfl

theorem place (h : k.Ran rounds depth c deeds t r) :
    c.run.depth = k.chain.length ∧ c.chain.length = c.run.depth + 1 := by
  cases h
  simp [context]

theorem begins (h : k.Ran rounds depth c deeds t r) :
    ∃ first, k.Begins c first ∧ t = first ++ deeds.flatMap Prod.snd := by
  cases h with
  | ran w globals executionId => exact ⟨_, ⟨w, globals, executionId, rfl, rfl⟩, rfl⟩

theorem found (h : k.Ran rounds depth c deeds t r) : ⟨.workflow k.id, some c.workflow⟩ ∈ t := by
  cases h
  exact List.mem_append_left _ (List.mem_cons_self ..)

theorem mem_of_deed (h : k.Ran rounds depth c deeds t r) {p : Deed} (hp : p ∈ deeds)
    {x : Exchange Query.Reply} (hx : x ∈ p.2) : x ∈ t := by
  cases h
  exact List.mem_append_right _ (List.mem_flatMap.2 ⟨p, hp, hx⟩)

end Ran

/-- A run takes place as its workflow asks and its context serves. Of its deeds this says all there is
to say, where `Ran` keeps the rules that they follow. -/
inductive Served (rounds depth : Nat) :
    Context → List Deed → Transcript Query.Reply → Except Break Status → Prop
  | served (w : Workflow) (globals : Scope) (executionId : String) {deeds : List Deed}
      {r : Except Break Status} :
      k.id ∉ k.chain →
      (∀ p ∈ deeds, Serves ((k.context w globals executionId).serve (Run.execute rounds depth)) p) →
      Yields (Course.whole w rounds) (deeds.map Prod.fst) r →
      Served rounds depth (k.context w globals executionId) deeds
        (k.beginning w globals executionId ++ deeds.flatMap Prod.snd) r

theorem Served.ran {k : Call} {rounds depth : Nat} {c : Context} {deeds : List Deed}
    {t : Transcript Query.Reply} {r : Except Break Status}
    (h : k.Served rounds depth c deeds t r) : k.Ran rounds depth c deeds t r := by
  cases h with
  | served w globals executionId hfresh hserves hcourse =>
      exact .ran w globals executionId hfresh
        (fun p hp => Context.does_of_serves _ (hserves p hp)) (Course.whole_of_yields hcourse)

theorem Served.serves {k : Call} {rounds depth : Nat} {c : Context} {deeds : List Deed}
    {t : Transcript Query.Reply} {r : Except Break Status}
    (h : k.Served rounds depth c deeds t r) :
    ∀ p ∈ deeds, Serves (c.serve (Run.execute rounds depth)) p := by
  cases h
  assumption

theorem Served.course {k : Call} {rounds depth : Nat} {c : Context} {deeds : List Deed}
    {t : Transcript Query.Reply} {r : Except Break Status}
    (h : k.Served rounds depth c deeds t r) :
    Yields (Course.whole c.workflow rounds) (deeds.map Prod.fst) r := by
  cases h
  assumption

/-- What executing a workflow comes to. -/
inductive Executed (rounds depth : Nat) :
    Transcript Query.Reply → Except Break (Except Failure Status) → Prop
  | cycle : k.id ∈ k.chain → Executed rounds depth [] (.ok (.error (.cycle k.id k.chain)))
  | notFound : k.id ∉ k.chain →
      Executed rounds depth [⟨.workflow k.id, none⟩] (.ok (.error (.workflowNotFound k.id)))
  | ran {c : Context} {deeds : List Deed} {t : Transcript Query.Reply}
      {r : Except Break Status} :
      k.Ran rounds depth c deeds t r → Executed rounds depth t (r.map .ok)

theorem start_bind {α : Type} (w : Workflow) (f : Context → Act α) :
    (start k.chain w k.inputs >>= f) =
      (ask .globals >>= fun globals =>
        ask (.begin w.id (resolve globals w.declared k.inputs) k.chain.length) >>=
          fun executionId => f (k.context w globals executionId)) := by
  simp only [start, bind_assoc, pure_bind, context]

/-- An execution is refused, or it is a run. -/
theorem served_of_yields {rounds depth : Nat} {t : Transcript Query.Reply}
    {r : Except Break (Except Failure Status)}
    (h : Yields (k.execute rounds (depth + 1)) t r) :
    k.id ∈ k.chain ∧ t = [] ∧ r = .ok (.error (.cycle k.id k.chain)) ∨
      k.id ∉ k.chain ∧ t = [⟨.workflow k.id, none⟩] ∧
        r = .ok (.error (.workflowNotFound k.id)) ∨
      ∃ c deeds r', k.Served rounds depth c deeds t r' ∧ r = r'.map .ok := by
  unfold Call.execute Run.execute at h
  split at h
  · rename_i hin
    obtain ⟨rfl, rfl⟩ := yields_pure_iff.1 h
    exact .inl ⟨by simpa using hin, rfl, rfl⟩
  · rename_i hout
    have hout : k.id ∉ k.chain := by simpa using hout
    obtain ⟨found, t, rfl, hfound⟩ := yields_lift_bind_iff.1 h
    cases found with
    | none =>
        obtain ⟨rfl, rfl⟩ := yields_pure_iff.1 hfound
        exact .inr (.inl ⟨hout, rfl, rfl⟩)
    | some w =>
        simp only [start_bind] at hfound
        obtain ⟨globals, t, rfl, hbegin⟩ := yields_lift_bind_iff.1 hfound
        obtain ⟨executionId, t, rfl, hbody⟩ := yields_lift_bind_iff.1 hbegin
        -- from here on the run has begun, and all its tasks are served
        have hran : ∀ {u : Transcript Query.Reply} {r : Except Break Status},
            Yields ((k.context w globals executionId).body (Run.execute rounds depth) rounds) u r →
              ∃ c deeds r', k.Served rounds depth c deeds
                (k.beginning w globals executionId ++ u) r' ∧
                  r.map Except.ok = r'.map (Except.ok (ε := Failure)) := by
          intro u r hu
          obtain ⟨deeds, hserves, hcourse, rfl⟩ := ends_serve_iff.1 hu
          exact ⟨_, deeds, r, .served w globals executionId hout hserves hcourse, rfl⟩
        rcases yields_bind_iff.1 hbody with ⟨b, hu, rfl⟩ | ⟨u, status, t, rfl, hu, hend⟩
        · exact .inr (.inr (hran hu))
        · obtain ⟨rfl, rfl⟩ := yields_pure_iff.1 hend
          rw [List.append_nil]
          exact .inr (.inr (hran hu))

theorem executed_of_yields {rounds depth : Nat} {t : Transcript Query.Reply}
    {r : Except Break (Except Failure Status)}
    (h : Yields (k.execute rounds (depth + 1)) t r) : k.Executed rounds depth t r := by
  rcases k.served_of_yields h with ⟨hin, rfl, rfl⟩ | ⟨hout, rfl, rfl⟩ | ⟨c, deeds, r', hserved, rfl⟩
  · exact .cycle hin
  · exact .notFound hout
  · exact .ran hserved.ran

/-- Only a run breaks off or comes to a status. -/
theorem exists_served {rounds depth : Nat} {t : Transcript Query.Reply} {r : Except Break Status}
    (h : Yields (k.execute rounds (depth + 1)) t (r.map .ok)) :
    ∃ c deeds, k.Served rounds depth c deeds t r := by
  generalize hr : r.map Except.ok = r' at h
  rcases k.served_of_yields h with ⟨-, -, rfl⟩ | ⟨-, -, rfl⟩ | ⟨c, deeds, r', hserved, rfl⟩
  · cases r <;> cases hr
  · cases r <;> cases hr
  · obtain rfl : r = r' := by cases r <;> cases r' <;> cases hr <;> rfl
    exact ⟨c, deeds, hserved⟩

theorem ran_of_yields {rounds depth : Nat} {t : Transcript Query.Reply} {r : Except Break Status}
    (h : Yields (k.execute rounds (depth + 1)) t (r.map .ok)) :
    ∃ c deeds, k.Ran rounds depth c deeds t r := by
  obtain ⟨c, deeds, hserved⟩ := k.exists_served h
  exact ⟨c, deeds, hserved.ran⟩

/-- Only a run asks more than for its workflow. -/
theorem ran_of_mem {rounds depth : Nat} {t : Transcript Query.Reply}
    {r : Except Break (Except Failure Status)} {x : Exchange Query.Reply}
    (h : Yields (k.execute rounds (depth + 1)) t r) (hmem : x ∈ t)
    (hx : ∀ id, x.1 ≠ .workflow id) :
    ∃ c deeds r', k.Ran rounds depth c deeds t r' ∧ r = r'.map .ok := by
  cases k.executed_of_yields h with
  | cycle => cases hmem
  | notFound => exact absurd (congrArg Sigma.fst (List.mem_singleton.1 hmem)) (hx _)
  | ran hran => exact ⟨_, _, _, hran, rfl⟩

/-- An execution breaks off only because too many rounds were made. -/
theorem eq_outOfRounds_of_yields {rounds depth : Nat} {t : Transcript Query.Reply} {b : Break}
    (h : Yields (k.execute rounds depth) t (.error b)) : b = .outOfRounds := by
  cases depth with
  | zero => cases (yields_throw_iff.1 h).2; rfl
  | succ depth =>
      obtain ⟨c, deeds, hran⟩ := k.ran_of_yields (r := .error b) h
      exact hran.whole.eq_outOfRounds

end Call

/-! ## Who makes something known -/

/-- What a run itself makes known. -/
def told (run : Identity) (t : Transcript Query.Reply) : List Event :=
  t.filterMap fun x =>
    match x.1 with
    | .tell teller event => if teller = run then some event else none
    | _ => none

@[simp] theorem told_nil (run : Identity) : told run [] = [] := rfl

@[simp] theorem told_append (run : Identity) (t u : Transcript Query.Reply) :
    told run (t ++ u) = told run t ++ told run u :=
  List.filterMap_append

theorem told_cons_self (run : Identity) (event : Event) (t : Transcript Query.Reply) :
    told run (⟨.tell run event, ()⟩ :: t) = event :: told run t := by
  simp [told]

theorem told_cons_of_ne {run : Identity} {x : Exchange Query.Reply} (t : Transcript Query.Reply)
    (h : ∀ event, x.1 ≠ .tell run event) : told run (x :: t) = told run t := by
  obtain ⟨q, reply⟩ := x
  cases q with
  | tell teller event =>
      have hne : teller ≠ run := fun he => h event (by rw [he])
      simp [told, hne]
  | _ => rfl

theorem told_eq_nil {run : Identity} {t : Transcript Query.Reply}
    (h : ∀ x ∈ t, ∀ event, x.1 ≠ .tell run event) : told run t = [] := by
  induction t with
  | nil => rfl
  | cons x t ih =>
      obtain ⟨hx, ht⟩ := List.forall_mem_cons.1 h
      rw [told_cons_of_ne t hx, ih ht]

theorem Call.Begins.told_eq_nil {k : Call} {c : Context} {first : Transcript Query.Reply}
    (h : k.Begins c first) (run : Identity) : told run first = [] := by
  obtain ⟨w, globals, executionId, rfl, rfl⟩ := h
  exact Run.told_eq_nil (by simp [beginning])

/-- The depth of the run that a question is about. -/
def Query.depth? : Query → Option Nat
  | .tell run _ => some run.depth
  | .begin _ _ depth => some depth
  | _ => none

/-- A question is about no run further out than a depth. -/
def AtLeast (depth : Nat) (x : Exchange Query.Reply) : Prop := ∀ n, x.1.depth? = some n → depth ≤ n

theorem atLeast_tell {run : Identity} {event : Event} : AtLeast run.depth ⟨.tell run event, ()⟩ := by
  rintro n ⟨⟩
  exact Nat.le_refl _

theorem atLeast_of_isWork {c : Context} {x : Exchange Query.Reply} (h : c.isWork x.1 = true) :
    AtLeast c.run.depth x := by
  obtain ⟨q, reply⟩ := x
  cases q with
  | tell run event =>
      cases event with
      | entry e isOutput =>
          have hrun : run = c.run := by
            simp only [Context.isWork, Bool.and_eq_true, beq_iff_eq] at h
            exact h.1
          exact hrun ▸ atLeast_tell
      | _ => cases h
  | wait _ => intro n hn; cases hn
  | cancel => intro n hn; cases hn
  | write _ => intro n hn; cases hn
  | _ => cases h

theorem atLeast_relayed {c : Context} {step : Step} {t : Transcript Query.Reply}
    (h : ∀ x ∈ t, AtLeast c.run.depth x) : ∀ x ∈ c.relayed step t, AtLeast c.run.depth x := by
  intro x hx
  obtain ⟨y, hy, hx⟩ := List.mem_flatMap.1 hx
  rcases List.mem_cons.1 hx with rfl | hx
  · exact h x hy
  · obtain ⟨message, rfl⟩ := c.exists_of_mem_echoes hx
    exact atLeast_tell

theorem Context.Does.atLeast {c : Context} {rounds depth : Nat} {p : Deed}
    (h : c.Does rounds depth p)
    (hnested : ∀ {step : Step} {t : Transcript Query.Reply}
      {r : Except Break (Except Failure Status)}, Yields ((c.call step).execute rounds depth) t r →
        ∀ x ∈ t, AtLeast c.run.depth x) :
    ∀ x ∈ p.2, AtLeast c.run.depth x := by
  have hstep : ∀ {step : Step} {t : Transcript Query.Reply} {r : Except Break Outcome},
      c.Stepped rounds depth step t r → ∀ x ∈ t, AtLeast c.run.depth x := by
    intro step t r h
    have hlaunch : ∀ reply, ∀ x ∈ c.launching step reply, AtLeast c.run.depth x := by
      intro reply
      refine List.forall_mem_cons.2 ⟨atLeast_tell, List.forall_mem_singleton.2 ?_⟩
      rintro n ⟨⟩
    cases h with
    | unknown => simp
    | crashed => exact hlaunch _
    | refused => exact hlaunch _
    | followed process work outcome _ hwork =>
        exact List.forall_mem_append.2 ⟨hlaunch _, fun x hx => atLeast_of_isWork (hwork x hx)⟩
    | nested _ ht =>
        exact List.forall_mem_cons.2 ⟨atLeast_tell, atLeast_relayed (hnested ht)⟩
  cases h with
  | check requested =>
      refine List.forall_mem_singleton.2 ?_
      rintro n ⟨⟩
  | tell event => exact List.forall_mem_singleton.2 atLeast_tell
  | turn _ h => exact hstep h
  | aside h => exact hstep h

/-- An execution is about no run further out than its own. -/
theorem atLeast_of_yields {rounds depth : Nat} {k : Call} {t : Transcript Query.Reply}
    {r : Except Break (Except Failure Status)} (h : Yields (k.execute rounds depth) t r) :
    ∀ x ∈ t, AtLeast k.chain.length x := by
  induction depth generalizing k t r with
  | zero =>
      obtain ⟨rfl, -⟩ := yields_throw_iff.1 h
      simp
  | succ depth ih =>
      cases k.executed_of_yields h with
      | cycle => simp
      | notFound =>
          refine List.forall_mem_singleton.2 ?_
          rintro n ⟨⟩
      | ran hran =>
          cases hran with
          | ran w globals executionId _ hdoes _ =>
              refine List.forall_mem_append.2 ⟨?_, ?_⟩
              · intro x hx n hn
                simp only [Call.beginning, List.mem_cons, List.not_mem_nil, or_false] at hx
                rcases hx with rfl | rfl | rfl <;> cases hn
                exact Nat.le_refl _
              · intro x hx
                obtain ⟨p, hp, hx⟩ := List.mem_flatMap.1 hx
                refine (hdoes p hp).atLeast (fun ht y hy n hn => ?_) x hx
                -- a nested run is deeper than this one
                have hlength := ih ht y hy n hn
                simp only [Context.call, Call.context, List.length_append, List.length_cons] at hlength
                exact Nat.le_of_lt (Nat.lt_of_lt_of_le (Nat.lt_succ_self _) hlength)

/-! ## A world in which nothing changes -/

/-- The replies of a world in which nothing changes: its store is `workflows`, `cancelled` says
whether runs are to stop, and each command comes to `launch`. -/
def steady (workflows : String → Option Workflow) (cancelled : Bool) (launch : Launch) :
    (q : Query) → q.Reply
  | .cancelRequested => cancelled
  | .workflow id => workflows id
  | .globals => []
  | .begin .. => "run"
  | .launch _ => launch
  | .wait _ => cancelled
  | .cancel => ()
  | .write _ => ()
  | .tell .. => ()

end Runbook.Run
