import Runbook.Proofs.Run.Plain

/-!
# The commands of a plain workflow

Over an unchanging store of plain workflows the commands of a workflow can be listed before it runs.
`flat` goes through its steps: a command step gives its command, a step that names a workflow gives
the commands of that workflow, and a step that cannot be run gives a mark in their place. `Follows`
says what a run makes of such a list if nothing disturbs it: it starts the commands in order up to the
first one that does not succeed, or up to the first mark.

`settles_of_yields` is the simulation. It goes by induction on how deep runs may still be nested: a
nested run follows its own list, and that list stands in the list of the run around it
(`Outcome.Fits`, `follows_of_straight`).
-/

set_option autoImplicit false

namespace Runbook

/-- The ids of a store that do not stand in a chain. -/
def Store.Workflows.idle (store : Store.Workflows) (chain : List String) : List String :=
  store.held.keys.filter (· ∉ chain)

theorem Store.Workflows.length_idle_lt {store : Store.Workflows} {chain : List String} {id : String}
    {w : Workflow} (hnot : id ∉ chain) (hfound : store.get? id = some w) :
    (store.idle (chain ++ [id])).length < (store.idle chain).length := by
  have hmem : id ∈ store.idle chain :=
    List.mem_filter.2 ⟨Assoc.mem_keys_iff.2 ⟨w, hfound⟩, by simpa using hnot⟩
  have hidle : store.idle (chain ++ [id]) = (store.idle chain).filter (· ≠ id) := by
    simp [idle, List.filter_filter, and_comm]
  rw [hidle, List.length_filter_lt_length_iff_exists]
  exact ⟨id, hmem, by simp⟩

namespace Run

open Dialogue (Serves)
open Store.Workflows (Reached filed_of_reached)

/-! ## The list -/

/-- What stands in the list of a workflow. -/
inductive Planned where
  | command (text : String)
  /-- A step that cannot be run. -/
  | mark
  deriving DecidableEq, Repr

section Flat

variable (store : Store.Workflows) (globals : Scope)

/-- The commands of steps that are run with the variables of `scope` inside the runs of `chain`. -/
def flat (chain : List String) (scope : Scope) : List Step → List Planned
  | [] => []
  | step :: rest =>
    (match step.work with
    | .unknown _ => [.mark]
    | .command => [.command (Template.fill step.content (step.bind scope))]
    | .workflow =>
      if hchain : Text.strip step.content ∈ chain then [.mark]
      else
        match hfound : store.get? (Text.strip step.content) with
        | none => [.mark]
        | some w =>
          have := Store.Workflows.length_idle_lt hchain hfound
          flat (chain ++ [Text.strip step.content]) (resolve globals w.declared scope) w.steps) ++
      flat chain scope rest
termination_by steps => ((store.idle chain).length, steps.length)

/-- The commands of a workflow that is executed. -/
def Call.flat (k : Call) : List Planned :=
  if k.id ∈ k.chain then [.mark]
  else
    match store.get? k.id with
    | none => [.mark]
    | some w => Run.flat store globals (k.chain ++ [k.id]) (resolve globals w.declared k.inputs) w.steps

/-- The commands of a step of a run. -/
def Context.flatStep (c : Context) (step : Step) : List Planned :=
  match step.work with
  | .unknown _ => [.mark]
  | .command => [.command (c.commandOf step)]
  | .workflow => (c.call step).flat store globals

theorem flat_eq_flatMap (c : Context) (steps : List Step) :
    flat store globals c.chain c.scope steps = steps.flatMap (c.flatStep store globals) := by
  induction steps with
  | nil => rw [flat, List.flatMap_nil]
  | cons step steps ih =>
      rw [flat, List.flatMap_cons, ih, Context.flatStep]
      congr 1
      split
      · rfl
      · rfl
      · rw [Call.flat]
        split
        · rename_i hchain
          exact (if_pos hchain).symm
        · rename_i hchain
          rw [if_neg (show (c.call step).id ∉ (c.call step).chain from hchain)]
          split
          · rename_i hfound
            rw [show store.get? (c.call step).id = none from hfound]
          · rename_i w hfound
            rw [show store.get? (c.call step).id = some w from hfound]
            rfl

end Flat

/-! ## Commands that are left alone -/

/-- The exit code of a command if nothing stops it, and whether it was killed nevertheless. -/
def Process.ending : Process → Int × Bool
  | .line _ _ rest => rest.ending
  | .lasts _ next => (next false).ending
  | .cancels rest => rest.ending
  | .writes _ rest => rest.ending
  | .ended exitCode killed => (exitCode, killed)

/-- Whether a command is started and ends well if nothing stops it. -/
def Launch.succeeds : Launch → Bool
  | .started process => process.ending.1 == 0
  | _ => false

/-- A command that cannot be started is refused, and one that nothing stops is not killed. -/
def Launch.Orderly : Launch → Prop
  | .started process => process.ending.2 = false
  | .refused _ => True
  | .crashed _ => False

/-- The command that an exchange starts. -/
def launch? : Exchange Query.Reply → Option (String × Launch)
  | ⟨.launch command, reply⟩ => some (command, reply)
  | _ => none

/-- The commands that were started, in order, and what came of each. -/
def launches (t : Transcript Query.Reply) : List (String × Launch) := t.filterMap launch?

@[simp] theorem launches_nil : launches [] = [] := rfl

@[simp] theorem launches_append (t u : Transcript Query.Reply) :
    launches (t ++ u) = launches t ++ launches u := List.filterMap_append

@[simp] theorem launches_tell (run : Identity) (event : Event) (t : Transcript Query.Reply) :
    launches (⟨.tell run event, ()⟩ :: t) = launches t := rfl

@[simp] theorem launches_launch (command : String) (launch : Launch) (t : Transcript Query.Reply) :
    launches (⟨.launch command, launch⟩ :: t) = (command, launch) :: launches t := rfl

theorem launches_eq_nil {t : Transcript Query.Reply} (h : ∀ x ∈ t, launch? x = none) :
    launches t = [] := List.filterMap_eq_nil_iff.2 h

/-- What is repeated of a nested run starts nothing. -/
theorem launches_relayed (c : Context) (step : Step) (t : Transcript Query.Reply) :
    launches (c.relayed step t) = launches t := by
  induction t with
  | nil => rfl
  | cons x t ih =>
      have hechoes : launches (c.echoes step x.1) = [] := by
        refine launches_eq_nil fun y hy => ?_
        obtain ⟨message, rfl⟩ := c.exists_of_mem_echoes hy
        rfl
      rw [Context.relayed, List.flatMap_cons, ← Context.relayed, launches_append, ih,
        ← List.singleton_append, launches_append, hechoes, List.append_nil, ← launches_append]
      rfl

theorem launches_beginning (k : Call) (w : Workflow) (globals : Scope) (executionId : String) :
    launches (k.beginning w globals executionId) = [] := rfl

/-- Nothing changes the stores, nothing asks runs to stop, and commands can at worst not be
started. -/
structure Undisturbed (store : Store.Workflows) (globals : Scope) (t : Transcript Query.Reply) :
    Prop where
  workflows : FromStore store t
  globals : ∀ scope, ⟨.globals, scope⟩ ∈ t → scope = globals
  checks : ⟨.cancelRequested, true⟩ ∉ t
  waits : ∀ milliseconds, ⟨.wait milliseconds, true⟩ ∉ t
  launches : ∀ command launch, ⟨.launch command, launch⟩ ∈ t → launch.Orderly

theorem Undisturbed.mono {store : Store.Workflows} {globals : Scope} {t u : Transcript Query.Reply}
    (h : Undisturbed store globals t) (hsub : ∀ x ∈ u, x ∈ t) : Undisturbed store globals u where
  workflows id answer hmem := h.workflows id answer (hsub _ hmem)
  globals scope hmem := h.globals scope (hsub _ hmem)
  checks hmem := h.checks (hsub _ hmem)
  waits milliseconds hmem := h.waits milliseconds (hsub _ hmem)
  launches command launch hmem := h.launches command launch (hsub _ hmem)

/-- A command that nothing stops comes to its own end. -/
theorem ending_of_follow {c : Context} {stepId output : String} {process : Process}
    {t : Transcript Query.Reply} {r : Except Break (String × Int × Bool)}
    (h : Yields (c.follow stepId process output) t r)
    (hwaits : ∀ milliseconds, ⟨.wait milliseconds, true⟩ ∉ t) :
    ∃ text, r = .ok (text, process.ending) := by
  induction process generalizing output t with
  | line source text rest ih =>
      obtain ⟨_, t, rfl, hrest⟩ := yields_lift_bind_iff.1 h
      exact ih hrest fun n hmem => hwaits n (List.mem_cons_of_mem _ hmem)
  | lasts milliseconds next ih =>
      obtain ⟨stopped, t, rfl, hrest⟩ := yields_lift_bind_iff.1 h
      cases stopped with
      | true => exact absurd (List.mem_cons_self ..) (hwaits milliseconds)
      | false => exact ih false hrest fun n hmem => hwaits n (List.mem_cons_of_mem _ hmem)
  | cancels rest ih =>
      obtain ⟨_, t, rfl, hrest⟩ := yields_lift_bind_iff.1 h
      exact ih hrest fun n hmem => hwaits n (List.mem_cons_of_mem _ hmem)
  | writes change rest ih =>
      obtain ⟨_, t, rfl, hrest⟩ := yields_lift_bind_iff.1 h
      exact ih hrest fun n hmem => hwaits n (List.mem_cons_of_mem _ hmem)
  | ended exitCode killed =>
      obtain ⟨rfl, rfl⟩ := yields_pure_iff.1 h
      exact ⟨output, rfl⟩

/-! ## Following the list -/

/-- A list was followed: the commands that were started, and the status to which that leads. -/
inductive Follows : List Planned → List (String × Launch) → Status → Prop
  | finished : Follows [] [] .completed
  | marked (rest : List Planned) : Follows (.mark :: rest) [] .failed
  | failed (command : String) {launch : Launch} (rest : List Planned) : launch.succeeds = false →
      Follows (.command command :: rest) [(command, launch)] .failed
  | next (command : String) {launch : Launch} {rest : List Planned}
      {starts : List (String × Launch)} {status : Status} : launch.succeeds = true →
      Follows rest starts status →
      Follows (.command command :: rest) ((command, launch) :: starts) status

namespace Follows

variable {items rest : List Planned} {starts more : List (String × Launch)} {status : Status}

theorem status_eq (h : Follows items starts status) : status = .completed ∨ status = .failed := by
  induction h with
  | finished => exact .inl rfl
  | marked => exact .inr rfl
  | failed => exact .inr rfl
  | next _ _ _ ih => exact ih

/-- The end of a list is reached exactly if all its commands were started and succeeded. -/
theorem completed_iff (h : Follows items starts status) :
    status = .completed ↔ items = starts.map (fun start => .command start.1) ∧
      ∀ start ∈ starts, start.2.succeeds = true := by
  induction h with
  | finished => simp
  | marked => simp
  | failed command rest hfails => simp [hfails]
  | next command hsucceeds _ ih => simp [ih, hsucceeds]

theorem append_failed (h : Follows items starts .failed) (rest : List Planned) :
    Follows (items ++ rest) starts .failed := by
  generalize hstatus : Status.failed = status at h
  induction h with
  | finished => cases hstatus
  | marked items => exact .marked _
  | failed command items hfails => exact .failed command _ hfails
  | next command hsucceeds _ ih => exact .next command hsucceeds (ih hstatus)

theorem append_completed (h : Follows items starts .completed) (hrest : Follows rest more status) :
    Follows (items ++ rest) (starts ++ more) status := by
  generalize hstatus : Status.completed = first at h
  induction h with
  | finished => exact hrest
  | marked => cases hstatus
  | failed => cases hstatus
  | next command hsucceeds _ ih => exact .next command hsucceeds (ih hstatus)

end Follows

/-- The status to which a step leads its run. -/
def Outcome.verdict (o : Outcome) : Status := if o.failure.isSome then .failed else .completed

/-- A step came to an outcome as its part of the list says. -/
structure Outcome.Fits (o : Outcome) (items : List Planned) (starts : List (String × Launch)) : Prop where
  notCancelled : o.isCancelled = false
  follows : Follows items starts o.verdict

/-- An execution came to a result as the list of its workflow says. -/
inductive Settles (items : List Planned) (starts : List (String × Launch)) :
    Except Failure Status → Prop
  | refused (failure : Failure) : failure ≠ .cancelled → Follows items starts .failed →
      Settles items starts (.error failure)
  | ended (status : Status) : Follows items starts status → Settles items starts (.ok status)

theorem Settles.fits {items : List Planned} {starts : List (String × Launch)}
    {result : Except Failure Status} (h : Settles items starts result) (id : String) :
    (Outcome.ofNested id result).Fits items starts := by
  cases h with
  | refused failure hnot hfollows =>
      refine ⟨?_, hfollows⟩
      simp [Outcome.ofNested, Outcome.isCancelled, hnot]
  | ended status hfollows =>
      rcases hfollows.status_eq with rfl | rfl
      · exact ⟨rfl, hfollows⟩
      · exact ⟨rfl, hfollows⟩

/-! ## Steps -/

section Steps

variable {store : Store.Workflows} {globals : Scope} {c : Context} {step : Step}
  {t : Transcript Query.Reply}

theorem fits_of_command {r : Except Break Outcome} (h : Yields (c.runCommand step) t r)
    (ht : Undisturbed store globals t) :
    ∃ outcome, r = .ok outcome ∧ outcome.Fits [.command (c.commandOf step)] (launches t) := by
  obtain ⟨_, t, rfl, hlaunch⟩ := yields_lift_bind_iff.1 h
  obtain ⟨launch, t, rfl, hrest⟩ := yields_lift_bind_iff.1 hlaunch
  have horderly : launch.Orderly :=
    ht.launches _ launch (List.mem_cons_of_mem _ (List.mem_cons_self ..))
  cases launch with
  | crashed crash => exact horderly.elim
  | refused reason =>
      obtain ⟨rfl, rfl⟩ := yields_pure_iff.1 hrest
      exact ⟨_, rfl, rfl, .failed _ [] rfl⟩
  | started process =>
      have hwaits : ∀ milliseconds, ⟨.wait milliseconds, true⟩ ∉ t := fun n hmem =>
        ht.waits n (List.mem_cons_of_mem _ (List.mem_cons_of_mem _ hmem))
      rcases yields_bind_iff.1 hrest with ⟨b, hfollow, -⟩ | ⟨work, _, t, rfl, hfollow, hend⟩
      · obtain ⟨_, hok⟩ := ending_of_follow hfollow hwaits
        cases hok
      · obtain ⟨rfl, rfl⟩ := yields_pure_iff.1 hend
        rw [List.append_nil] at hwaits ⊢
        obtain ⟨text, hok⟩ := ending_of_follow hfollow hwaits
        cases hok
        -- what follows the start of a command starts nothing more
        have hwork : launches work = [] := by
          refine launches_eq_nil fun x hx => ?_
          have hisWork := (c.work_of_follow hfollow).1 x hx
          obtain ⟨q, reply⟩ := x
          cases q with
          | launch command => cases hisWork
          | _ => rfl
        have hkilled : process.ending.2 = false := horderly
        refine ⟨_, rfl, ?_⟩
        rw [launches_tell, launches_launch, hwork]
        by_cases hcode : process.ending.1 = 0
        · refine ⟨by simp [Outcome.isCancelled, hkilled, hcode], ?_⟩
          simp only [Outcome.verdict, hkilled, hcode]
          exact .next _ (by simp [Launch.succeeds, hcode]) .finished
        · refine ⟨by simp [Outcome.isCancelled, hkilled, hcode], ?_⟩
          simp only [Outcome.verdict, hkilled]
          rw [if_pos (by simp [hcode])]
          exact .failed _ [] (by simp [Launch.succeeds, hcode])

/-- A step comes to an outcome as its part of the list says if nested runs do as theirs says. -/
theorem fits_of_runStep {rounds depth : Nat} {r : Except Break Outcome}
    (h : Yields (c.runStep (execute rounds depth) step) t r) (ht : Undisturbed store globals t)
    (hnested : ∀ {u r'}, Yields ((c.call step).execute rounds depth) u r' →
      Undisturbed store globals u →
        ∃ result, r' = .ok result ∧ Settles ((c.call step).flat store globals) (launches u) result) :
    ∃ outcome, r = .ok outcome ∧ outcome.Fits (c.flatStep store globals step) (launches t) := by
  unfold Context.runStep at h
  split at h
  · rename_i hwork
    rw [Context.flatStep, hwork]
    exact fits_of_command h ht
  · rename_i hwork
    rw [Context.flatStep, hwork]
    cases c.stepped_of_workflow hwork h with
    | unknown _ hother => cases hwork.symm.trans hother
    | crashed _ hother => cases hwork.symm.trans hother
    | refused _ hother => cases hwork.symm.trans hother
    | followed _ _ _ hother => cases hwork.symm.trans hother
    | nested _ hyields =>
        obtain ⟨result, rfl, hsettles⟩ := hnested hyields
          (ht.mono fun x hx => List.mem_cons_of_mem _ (c.mem_relayed hx))
        refine ⟨_, rfl, ?_⟩
        rw [Context.naming, launches_tell, launches_relayed]
        exact hsettles.fits _
  · rename_i type hwork
    rw [Context.flatStep, hwork]
    obtain ⟨rfl, rfl⟩ := yields_pure_iff.1 h
    exact ⟨_, rfl, rfl, .marked []⟩

end Steps

/-! ## Runs -/

/-- The deed of a step is what running the step comes to. -/
theorem Context.runStep_of_serves {c : Context} {nested : Nested} {p : Deed} {step : Step}
    (h : Serves (c.serve nested) p) (hstep : p.1.1.step? = some step) :
    ∃ r, Course.result? p.1 = some r ∧ Yields (c.runStep nested step) p.2 r := by
  obtain ⟨⟨task, reply⟩, t⟩ := p
  cases task with
  | check => cases hstep
  | tell event => cases hstep
  | turn position side =>
      cases hstep
      exact ⟨reply, rfl, h⟩
  | aside side =>
      cases hstep
      exact ⟨reply, rfl, h⟩

/-- The deeds in which steps were run. -/
def stepDeeds (deeds : List Deed) : List Deed := deeds.filter fun p => p.1.1.step?.isSome

theorem map_stepDeeds (deeds : List Deed) :
    (stepDeeds deeds).map Prod.fst = Course.stepped (deeds.map Prod.fst) := by
  rw [Course.stepped, List.filter_map]
  rfl

section Runs

variable {store : Store.Workflows} {globals : Scope} {c : Context} {rounds depth : Nat}

/-- Only steps start commands. -/
theorem launches_stepDeeds {deeds : List Deed} (hdoes : ∀ p ∈ deeds, c.Does rounds depth p) :
    launches ((stepDeeds deeds).flatMap Prod.snd) = launches (deeds.flatMap Prod.snd) := by
  induction deeds with
  | nil => rfl
  | cons p deeds ih =>
      obtain ⟨hp, hdeeds⟩ := List.forall_mem_cons.1 hdoes
      have hrest := ih hdeeds
      rw [List.flatMap_cons, launches_append, ← hrest, stepDeeds, List.filter_cons]
      cases hp with
      | check => rfl
      | tell => rfl
      | turn => exact launches_append ..
      | aside => exact launches_append ..

/-- The steps of a run come to outcomes as the list says. -/
def StepsFit (store : Store.Workflows) (globals : Scope) (c : Context) (deeds : List Deed) : Prop :=
  ∀ p ∈ deeds, ∀ step, p.1.1.step? = some step → ∃ outcome,
    Course.result? p.1 = some (.ok outcome) ∧
      outcome.Fits (c.flatStep store globals step) (launches p.2)

theorem follows_of_straight {position : Nat} {steps : List Step} {s : Transcript Task.Reply}
    {status : Status} (h : Course.Straight position steps s status) {deeds : List Deed}
    (hdeeds : deeds.map Prod.fst = s) (hfit : StepsFit store globals c deeds) :
    Follows (flat store globals c.chain c.scope steps) (launches (deeds.flatMap Prod.snd)) status := by
  rw [flat_eq_flatMap]
  -- by induction on the steps: the first deed is that of the first step
  induction h generalizing deeds with
  | finished =>
      rw [List.map_eq_nil_iff.1 hdeeds]
      exact .finished
  | @failed position step rest outcome hfailure =>
      obtain ⟨p, rfl, hp⟩ := List.map_eq_singleton_iff.1 hdeeds
      obtain ⟨outcome', hresult, hfits⟩ := hfit p (List.mem_singleton_self p) step (by rw [hp]; rfl)
      rw [hp] at hresult
      cases hresult
      have hfollows := hfits.follows
      rw [Outcome.verdict, if_pos hfailure] at hfollows
      rw [List.flatMap_cons, List.flatMap_singleton]
      exact hfollows.append_failed _
  | @next position step rest outcome s status hnone _ ih =>
      obtain ⟨p, deeds, rfl, hp, hrest⟩ := List.map_eq_cons_iff.1 hdeeds
      obtain ⟨hfirst, hfit⟩ := List.forall_mem_cons.1 hfit
      obtain ⟨outcome', hresult, hfits⟩ := hfirst step (by rw [hp]; rfl)
      rw [hp] at hresult
      cases hresult
      have hfollows := hfits.follows
      rw [Outcome.verdict, hnone] at hfollows
      rw [List.flatMap_cons, List.flatMap_cons, launches_append]
      exact hfollows.append_completed (ih hrest hfit)

/-- As long as all steps fit, nothing cancels a run or breaks it off. -/
theorem calm_of_stepsFit {deeds : List Deed} {t : Transcript Query.Reply}
    (ht : Undisturbed store globals t) (hsub : ∀ p ∈ deeds, ∀ x ∈ p.2, x ∈ t)
    (hdoes : ∀ p ∈ deeds, c.Does rounds depth p) (hfit : StepsFit store globals c deeds) :
    Course.sawCancellation (deeds.map Prod.fst) = false ∧ Course.breaks (deeds.map Prod.fst) = [] := by
  constructor
  · rw [Course.sawCancellation, List.any_eq_false]
    rintro x hx
    obtain ⟨p, hp, rfl⟩ := List.mem_map.1 hx
    have hmem := hsub p hp
    have hfit := hfit p hp
    cases hdoes p hp with
    | check requested =>
        cases requested with
        | true => exact absurd (hmem _ (List.mem_singleton_self _)) ht.checks
        | false => exact Bool.false_ne_true
    | tell => exact Bool.false_ne_true
    | turn position _ =>
        obtain ⟨outcome, hresult, hfits⟩ := hfit _ rfl
        cases hresult
        rw [Course.isCancellation, hfits.notCancelled]
        exact Bool.false_ne_true
    | aside => exact Bool.false_ne_true
  · rw [Course.breaks, List.filterMap_eq_nil_iff]
    rintro x hx
    obtain ⟨p, hp, rfl⟩ := List.mem_map.1 hx
    have hfit := hfit p hp
    cases hdoes p hp with
    | check => rfl
    | tell => rfl
    | turn position _ =>
        obtain ⟨outcome, hresult, -⟩ := hfit _ rfl
        cases hresult
        rfl
    | aside _ =>
        obtain ⟨outcome, hresult, -⟩ := hfit _ rfl
        cases hresult
        rfl

/-- The workflows of a store are plain, and have fewer steps than a run may make rounds. -/
structure PlainStore (store : Store.Workflows) (rounds : Nat) : Prop where
  reached : Reached store
  plain : ∀ id w, store.get? id = some w → w.Plain
  rounds : ∀ id w, store.get? id = some w → w.steps.length < rounds

variable {k : Call} {deeds : List Deed} {t : Transcript Query.Reply}

/-- A run of a plain workflow whose steps fit goes straight through them. -/
theorem Call.Ran.straight {r : Except Break Status} (h : k.Ran rounds depth c deeds t r)
    (hstore : PlainStore store rounds) (ht : Undisturbed store globals t)
    (hfit : StepsFit store globals c deeds) :
    ∃ status, r = .ok status ∧
      Course.Straight 0 c.workflow.steps (Course.stepped (deeds.map Prod.fst)) status := by
  have hfound : store.get? k.id = some c.workflow := (ht.workflows _ _ h.found).symm
  have hplain := hstore.plain _ _ hfound
  obtain ⟨hcalm, hbreaks⟩ :=
    calm_of_stepsFit ht (fun p hp x hx => h.mem_of_deed hp hx) h.does hfit
  cases r with
  | error b =>
      obtain rfl := h.whole.eq_outOfRounds
      -- its own rounds are enough, and no step ran out of rounds
      have hmem := (h.whole.forward hplain.forward).2 (hstore.rounds _ _ hfound) rfl
      rw [hbreaks] at hmem
      cases hmem
  | ok status => exact ⟨status, rfl, h.whole.straight hplain hcalm hbreaks⟩

theorem Call.Ran.flat_eq {r : Except Break Status} (h : k.Ran rounds depth c deeds t r)
    (hreached : Reached store) (ht : Undisturbed store globals t) :
    k.flat store globals = Run.flat store globals c.chain c.scope c.workflow.steps := by
  have hfound : store.get? k.id = some c.workflow := (ht.workflows _ _ h.found).symm
  have hid : c.workflow.id = k.id := filed_of_reached hreached _ _ hfound
  rw [Call.flat, if_neg h.fresh, hfound, ← hid, ← h.chain_eq]
  cases h with
  | ran w scope executionId =>
      obtain rfl : scope = globals :=
        ht.globals scope (List.mem_append_left _ (List.mem_cons_of_mem _ (List.mem_cons_self ..)))
      rfl

/-- The steps of a run fit if the nested runs do as their lists say. -/
theorem Call.Served.stepsFit {r : Except Break Status} (h : k.Served rounds depth c deeds t r)
    (ht : Undisturbed store globals t)
    (hnested : ∀ {step u r'}, Yields ((c.call step).execute rounds depth) u r' →
      Undisturbed store globals u →
        ∃ result, r' = .ok result ∧ Settles ((c.call step).flat store globals) (launches u) result) :
    StepsFit store globals c deeds := by
  intro p hp step hstep
  obtain ⟨r, hresult, hyields⟩ := Context.runStep_of_serves (h.serves p hp) hstep
  obtain ⟨outcome, rfl, hfits⟩ :=
    fits_of_runStep hyields (ht.mono fun x hx => h.ran.mem_of_deed hp hx) hnested
  exact ⟨outcome, hresult, hfits⟩

/-- Over an undisturbed store of plain workflows, an execution comes to a result as the list of its
workflow says, provided that more runs may be nested than the store has idle workflows. -/
theorem settles_of_yields (hstore : PlainStore store rounds) {r : Except Break (Except Failure Status)}
    (h : Yields (k.execute rounds depth) t r) (ht : Undisturbed store globals t)
    (hamong : Among store k.chain) (hdepth : store.held.length < depth + k.chain.length) :
    ∃ result, r = .ok result ∧ Settles (k.flat store globals) (launches t) result := by
  -- by induction on the nesting that is left: the chain grows by what it loses
  induction depth generalizing k t r with
  | zero =>
      have hle := hamong.length_le
      omega
  | succ depth ih =>
      rcases k.served_of_yields h with ⟨hin, rfl, rfl⟩ | ⟨hout, rfl, rfl⟩ |
        ⟨c, deeds, r', hserved, rfl⟩
      · rw [Call.flat, if_pos hin]
        exact ⟨_, rfl, .refused _ (by rintro ⟨⟩) (.marked [])⟩
      · have hnone : store.get? k.id = none := (ht.workflows _ _ (List.mem_singleton_self _)).symm
        rw [Call.flat, if_neg hout, hnone]
        exact ⟨_, rfl, .refused _ (by rintro ⟨⟩) (.marked [])⟩
      · have hran := hserved.ran
        obtain ⟨hamong', hlength⟩ := hran.among hstore.reached ht.workflows hamong
        have hfit : StepsFit store globals c deeds := hserved.stepsFit ht fun hnested hu =>
          ih hnested hu hamong' (show _ < depth + c.chain.length by omega)
        obtain ⟨status, rfl, hstraight⟩ := hran.straight hstore ht hfit
        refine ⟨.ok status, rfl, .ended status ?_⟩
        have hfollows := follows_of_straight hstraight (map_stepDeeds deeds)
          fun p hp => hfit p (List.mem_of_mem_filter hp)
        -- the beginning of a run starts no command
        rw [launches_stepDeeds hran.does] at hfollows
        obtain ⟨first, ⟨w, scope, executionId, hc, rfl⟩, ht'⟩ := hran.begins
        rw [hran.flat_eq hstore.reached ht, ht', launches_append, launches_beginning,
          List.nil_append]
        exact hfollows

/-- A run goes straight through its steps. -/
theorem Call.Served.straight (hstore : PlainStore store rounds) {r : Except Break Status}
    (h : k.Served rounds depth c deeds t r) (ht : Undisturbed store globals t)
    (hamong : Among store k.chain) (hdepth : store.held.length ≤ depth + k.chain.length) :
    ∃ status, r = .ok status ∧
      Course.Straight 0 c.workflow.steps (Course.stepped (deeds.map Prod.fst)) status := by
  obtain ⟨hamong', hlength⟩ := h.ran.among hstore.reached ht.workflows hamong
  exact h.ran.straight hstore ht (h.stepsFit ht fun hnested hu =>
    settles_of_yields hstore hnested hu hamong' (show _ < depth + c.chain.length by omega))

end Runs

end Run

end Runbook
