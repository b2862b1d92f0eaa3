import Runbook.Proofs.Run.Closing
import Runbook.Proofs.Run.Execution

/-!
# Where a run goes on

A round that does not end its run leaves it at a step: the target of the action for success or failure
if this jumps, else the target of the condition's action if this jumps, else the step of the round
(`heading`). The next round is at the step behind. `Tour` says this of all rounds of a run, one after
another; the exchanges of the condition stand in it before those of the action for success or failure.

An action that neither stops nor jumps to a step of the workflow leaves the run where it is
(`stays_of_idle`). A step that an action runs on the side is run without its own conditions and
actions: taking the action is the same if no step has any (`serve_act_bare`).
-/

set_option autoImplicit false

namespace Runbook

/-- A step without conditions and without actions for success and failure. -/
def Step.bare (step : Step) : Step :=
  { step with conditions := [], onSuccess := none, onFailure := none }

/-- A workflow whose steps have no conditions and no actions. -/
def Workflow.bare (w : Workflow) : Workflow := { w with steps := w.steps.map Step.bare }

namespace Run

namespace Course

variable {w : Workflow}

/-! ## Jumps -/

/-- The position to which an action jumps, if it jumps to a step of the workflow. -/
def jumpsTo? (w : Workflow) (action : Option Action) : Option Nat :=
  match action.map Action.verb with
  | some (.jumpTo target) => w.position? target
  | _ => none

/-- Where a round at a position leaves the run: at the target of the action for success or failure,
else at that of the action of a condition, else at the position. -/
def heading (w : Workflow) (position : Nat) (chosen hooked : Option Action) : Nat :=
  (jumpsTo? w hooked).getD ((jumpsTo? w chosen).getD position)

theorem eq_of_landed {action : Option Action} {position there : Nat}
    (h : landed w action position = .at_ there) : there = (jumpsTo? w action).getD position := by
  cases action with
  | none =>
      cases h
      rfl
  | some action =>
      rw [landed, landing] at h
      rw [jumpsTo?, Option.map_some]
      cases hverb : action.verb <;> rw [hverb] at h <;> cases h <;> rfl

theorem lt_of_jumpsTo? {action : Option Action} {there : Nat} (h : jumpsTo? w action = some there) :
    there < w.steps.length := by
  unfold jumpsTo? at h
  split at h
  · exact (List.findIdx?_eq_some_iff_getElem.1 h).1
  · cases h

/-- A round leaves the run at a step of the workflow. -/
theorem heading_lt {position : Nat} (h : position < w.steps.length) (chosen hooked : Option Action) :
    heading w position chosen hooked < w.steps.length := by
  have hjump : ∀ {action : Option Action} {start : Nat}, start < w.steps.length →
      (jumpsTo? w action).getD start < w.steps.length := by
    intro action start hstart
    cases htarget : jumpsTo? w action with
    | none => exact hstart
    | some there => exact lt_of_jumpsTo? htarget
  exact hjump (hjump h)

example : heading { steps := [{ id := "a" }, { id := "b" }, { id := "c" }] } 0
    (some { type := "jump_to", target := "c" }) (some { type := "jump_to", target := "b" }) = 1 := by
  decide

/-! ## Actions that move nothing -/

/-- Whether an action neither stops the run nor jumps to a step of the workflow. -/
inductive Idle (w : Workflow) (action : Action) : Prop
  | goOn : action.verb = .goOn → Idle w action
  | lostJump {target : String} : action.verb = .jumpTo target → w.position? target = none →
      Idle w action
  | executeStep {target : String} : action.verb = .executeStep target → Idle w action
  | unknown {type : String} : action.verb = .unknown type → Idle w action

theorem Idle.landing_eq {action : Action} (h : Idle w action) (position : Nat) :
    landing w action position = .at_ position := by
  cases h with
  | goOn hverb => rw [landing, hverb]
  | lostJump hverb hnone =>
      rw [landing, hverb]
      dsimp only
      rw [hnone, Option.getD_none]
  | executeStep hverb => rw [landing, hverb]
  | unknown hverb => rw [landing, hverb]

/-- What an action that moves nothing comes to, with the check behind it: the run goes on where it
is, unless it is to stop or a step that was run on the side breaks it off. -/
inductive Stays (position : Nat) (s : Transcript Task.Reply) : Except Break Next → Prop
  | goesOn : Stays position s (.ok (.goOn position))
  | cancelled : ⟨.check, true⟩ ∈ s → Stays position s (.ok (.ended .cancelled))
  | broke {side : Step} {b : Break} : ⟨.aside side, .error b⟩ ∈ s → Stays position s (.error b)

theorem stays_of_idle {action : Action} {step : Step} {position : Nat} {reason : String}
    {s : Transcript Task.Reply} {r : Except Break Next} (hidle : Idle w action)
    (h : Yields (actAndCheck w action step position reason) s r) : Stays position s r := by
  have hlanding := hidle.landing_eq position
  cases passed_of_yields h with
  | broke hact =>
      cases hact with
      | broke before side b => exact .broke (List.mem_append_right _ (List.mem_singleton_self _))
  | cancelled => exact .cancelled (List.mem_append_right _ (List.mem_cons_self ..))
  | stopped hact => cases hact.effect_eq.trans hlanding
  | wentOn hact =>
      cases hact.effect_eq.trans hlanding
      exact .goesOn

/-! ## Rounds -/

/-- The entry with which a round begins. -/
def stepLine (w : Workflow) (position : Nat) (step : Step) : Event :=
  remark step.id s!"Step {position + 1}/{w.steps.length}: {step.displayName}"

/-- A part of a round that goes on has gone through the part before it. -/
theorem goOn_of_bind {x : Course Next} {f : Nat → Course Next} {s : Transcript Task.Reply}
    {next : Nat} (h : Yields (do
      match ← x with
      | .ended status => return .ended status
      | .goOn position => f position) s (.ok (.goOn next))) :
    ∃ position s₁ s₂, s = s₁ ++ s₂ ∧ Yields x s₁ (.ok (.goOn position)) ∧
      Yields (f position) s₂ (.ok (.goOn next)) := by
  rcases yields_bind_iff.1 h with ⟨b, -, hr⟩ | ⟨s₁, result, s₂, rfl, hx, hrest⟩
  · cases hr
  · cases result with
    | ended status => cases (yields_pure_iff.1 hrest).2
    | goOn position => exact ⟨position, s₁, s₂, rfl, hx, hrest⟩

/-- A check behind which a round goes on does not end the run. -/
theorem goOn_of_stop_bind {stepId : String} {already : Bool} {f : Course Next}
    {s : Transcript Task.Reply} {next : Nat} (h : Yields (do
      match ← stopIfCancelled stepId already with
      | some status => return .ended status
      | none => f) s (.ok (.goOn next))) :
    ∃ s', s = ⟨.check, false⟩ :: s' ∧ Yields f s' (.ok (.goOn next)) := by
  obtain ⟨requested, s, rfl, hgone⟩ := yields_stop_bind_iff.1 h
  cases requested with
  | true =>
      obtain ⟨s', -, hend⟩ := hgone
      cases (yields_pure_iff.1 hend).2
  | false =>
      split at hgone
      · obtain ⟨s', -, hend⟩ := hgone
        cases (yields_pure_iff.1 hend).2
      · exact ⟨s, rfl, hgone⟩

/-- What a round consists of that does not end its run. -/
theorem exists_passes {position next : Nat} {step : Step} {s : Transcript Task.Reply}
    (h : Yields (round w position step) s (.ok (.goOn next))) :
    ∃ outcome conditions there hooks there',
      s = opening position step (stepLine w position step) outcome ++ (conditions ++ hooks) ∧
      Yields (conditionPass w step outcome position) conditions (.ok (.goOn there)) ∧
      Yields (hookPass w step outcome there) hooks (.ok (.goOn there')) ∧ next = there' + 1 := by
  obtain ⟨s, rfl, hline⟩ := goOn_of_stop_bind h
  obtain ⟨s, rfl, hturn⟩ := yields_log_bind_iff.1 hline
  rcases yields_turn_bind_iff.1 hturn with ⟨b, -, hr⟩ | ⟨outcome, s, rfl, hcheck⟩
  · cases hr
  · obtain ⟨s, rfl, hpasses⟩ := goOn_of_stop_bind hcheck
    obtain ⟨there, conditions, s, rfl, hcond, hrest⟩ := goOn_of_bind hpasses
    obtain ⟨there', hooks, s, rfl, hhook, hend⟩ := goOn_of_bind hrest
    obtain ⟨rfl, hnext⟩ := yields_pure_iff.1 hend
    cases hnext
    rw [List.append_nil]
    exact ⟨outcome, conditions, there, hooks, there', rfl, hcond, hhook, rfl⟩

/-- The rounds of a run from a position on, at most so many of them, with the deeds by which they were
done. -/
inductive Tour (w : Workflow) : Nat → Nat → List Deed → Except Break Status → Prop
  | outOfRounds (position : Nat) : Tour w 0 position [] (.error .outOfRounds)
  | completed {limit : Nat} {deeds : List Deed} :
      deeds.map Prod.fst = said (farewell .completed "" "Workflow completed successfully") →
      Tour w (limit + 1) w.steps.length deeds (.ok .completed)
  | broke {limit position : Nat} {step : Step} {deeds : List Deed} {b : Break} :
      w.steps[position]? = some step →
      Yields (round w position step) (deeds.map Prod.fst) (.error b) →
      Tour w (limit + 1) position deeds (.error b)
  | ended {limit position : Nat} {step : Step} {deeds : List Deed} {status : Status} :
      w.steps[position]? = some step →
      Yields (round w position step) (deeds.map Prod.fst) (.ok (.ended status)) →
      Tour w (limit + 1) position deeds (.ok status)
  /-- The round does not end the run, and the next one is behind where its jumps lead. -/
  | next {limit position there : Nat} {step : Step} {outcome : Outcome} {chosen : Option Action}
      {front conditions hooks rest : List Deed} {r : Except Break Status} :
      w.steps[position]? = some step → choice step outcome = .ok chosen →
      front.map Prod.fst = opening position step (stepLine w position step) outcome →
      Yields (conditionPass w step outcome position) (conditions.map Prod.fst) (.ok (.goOn there)) →
      Yields (hookPass w step outcome there) (hooks.map Prod.fst)
        (.ok (.goOn (heading w position chosen (hook step outcome)))) →
      Tour w limit (heading w position chosen (hook step outcome) + 1) rest r →
      Tour w (limit + 1) position (front ++ (conditions ++ hooks) ++ rest) r

theorem tour_of_yields {limit position : Nat} {deeds : List Deed} {r : Except Break Status}
    (hposition : position ≤ w.steps.length)
    (h : Yields (rounds w limit position) (deeds.map Prod.fst) r) : Tour w limit position deeds r := by
  -- by induction on the limit, of which each round takes one
  induction limit generalizing position deeds with
  | zero =>
      obtain ⟨hnil, rfl⟩ := yields_throw_iff.1 h
      rw [List.map_eq_nil_iff.1 hnil]
      exact .outOfRounds position
  | succ limit ih =>
      unfold rounds at h
      split at h
      · rename_i hpast
        obtain ⟨hlast, rfl⟩ := yields_finish_iff.1 h
        obtain rfl : position = w.steps.length :=
          Nat.le_antisymm hposition (List.getElem?_eq_none_iff.1 hpast)
        exact .completed hlast
      · rename_i step hstep
        rcases yields_bind_iff.1 h with ⟨b, hround, rfl⟩ | ⟨s, next, s', hs, hround, hrest⟩
        · exact .broke hstep hround
        · obtain ⟨this, rest, rfl, rfl, rfl⟩ := List.map_eq_append_iff.1 hs
          cases next with
          | ended status =>
              obtain ⟨hnil, rfl⟩ := yields_pure_iff.1 hrest
              rw [List.map_eq_nil_iff.1 hnil, List.append_nil]
              exact .ended hstep hround
          | goOn next =>
              obtain ⟨outcome, conditions, there, hooks, there', hs, hcond, hhook, rfl⟩ :=
                exists_passes hround
              obtain ⟨front, passes, rfl, hfront, hpasses⟩ := List.map_eq_append_iff.1 hs
              obtain ⟨conditions, hooks, rfl, rfl, rfl⟩ := List.map_eq_append_iff.1 hpasses
              obtain ⟨-, -, chosen, hchoice, hlanded⟩ := (conditionPass_of_yields hcond).goOn
              obtain ⟨-, -, -, hlanded'⟩ := (hookPass_of_yields hhook).goOn
              obtain rfl : there' = heading w position chosen (hook step outcome) := by
                rw [heading, ← eq_of_landed hlanded]
                exact eq_of_landed hlanded'
              have hlt := heading_lt (List.getElem?_eq_some_iff.1 hstep).1 chosen (hook step outcome)
              exact .next hstep hchoice hfront hcond hhook (ih hlt hrest)

/-! ## Steps on the side -/

theorem position?_bare (w : Workflow) (target : String) :
    w.bare.position? target = w.position? target := by
  rw [Workflow.position?, Workflow.position?, Workflow.bare, List.findIdx?_map]
  rfl

theorem displayName_bare (w : Workflow) (position : Nat) :
    w.bare.steps[position]?.map Step.displayName = w.steps[position]?.map Step.displayName := by
  rw [Workflow.bare, List.getElem?_map, Option.map_map]
  rfl

theorem find?_bare (w : Workflow) (target : String) :
    w.bare.steps.find? (·.id == target) = (w.steps.find? (·.id == target)).map Step.bare := by
  rw [Workflow.bare, List.find?_map]
  rfl

/-- Taking an action is the same if no step has conditions and actions of its own. -/
theorem serve_act_bare (c : Context) (nested : Nested) (w : Workflow) (action : Action)
    (step : Step) (position : Nat) :
    (act w.bare action step position).run.serve (c.serve nested) =
      (act w action step position).run.serve (c.serve nested) := by
  rw [act, act]
  cases action.verb with
  | stop => rfl
  | goOn => rfl
  | unknown type => rfl
  | jumpTo target =>
      dsimp only
      rw [position?_bare]
      cases w.position? target with
      | none => rfl
      | some there =>
          dsimp only
          rw [displayName_bare]
  | executeStep target =>
      dsimp only
      rw [find?_bare]
      -- a step is run by its type, content and bindings
      cases w.steps.find? (·.id == target) with
      | none => rfl
      | some side => rfl

end Course

open Course in
/-- Each run goes through its rounds as `Tour` says, from the first step on. Actions that neither stop
nor jump to a step leave it where it is, and steps on the side are run for themselves alone. -/
theorem next_position_of_execution {rounds depth : Nat} {k : Call} {t : Transcript Query.Reply}
    {r : Except Break Status} (h : Yields (k.execute rounds (depth + 1)) t (r.map .ok)) :
    ∃ c deeds, k.Served rounds depth c deeds t r ∧
      (∃ first middle last r', deeds = first ++ middle ++ last ∧
        first.map Prod.fst = said [firstRemark c.workflow] ∧
        Tour c.workflow rounds 0 middle r' ∧
        last.map Prod.fst = said (closingEvents r') ∧ r = settled r') ∧
      (∀ action step position reason s r, Idle c.workflow action →
        Yields (actAndCheck c.workflow action step position reason) s r → Stays position s r) ∧
      ∀ nested action step position,
        (act c.workflow.bare action step position).run.serve (c.serve nested) =
          (act c.workflow action step position).run.serve (c.serve nested) := by
  obtain ⟨c, deeds, hserved⟩ := k.exists_served h
  obtain ⟨s, r', hs, hrounds, hr⟩ := exists_rounds hserved.course
  obtain ⟨begun, last, rfl, hbegun, hlast⟩ := List.map_eq_append_iff.1 hs
  obtain ⟨first, middle, rfl, hfirst, rfl⟩ := List.map_eq_append_iff.1 hbegun
  exact ⟨c, _, hserved,
    ⟨first, middle, last, r', rfl, hfirst, tour_of_yields (Nat.zero_le _) hrounds, hlast, hr⟩,
    fun _ _ _ _ _ _ => stays_of_idle, fun nested => serve_act_bare c nested c.workflow⟩

/-- A workflow whose first step jumps to the third one when it succeeds. -/
def jumpingWorkflow : Workflow where
  id := "j"
  steps := [{ id := "a", content := "true", onSuccess := some { type := "jump_to", target := "c" } },
    { id := "b", content := "true" }, { id := "c", content := "true" }]

/-- Its run is over behind the target of the jump. -/
theorem next_position_of_execution_jumpingWorkflow :
    let k : Call := ⟨[], "j", []⟩
    let t := (k.execute 2 1).run.transcript
      (steady (fun _ => some jumpingWorkflow) false (.started (.ended 0 false)))
    Yields (k.execute 2 1) t (.ok (.ok .completed)) ∧
      ∃ c deeds, k.Served 2 0 c deeds t (.ok .completed) ∧ c.workflow = jumpingWorkflow ∧
        ∃ first middle last, deeds = first ++ middle ++ last ∧
          Course.Tour c.workflow 2 0 middle (.ok .completed) := by
  intro k t
  have hresult : (k.execute 2 1).run.result
      (steady (fun _ => some jumpingWorkflow) false (.started (.ended 0 false))) =
        .ok (.ok .completed) := rfl
  have h : Yields (k.execute 2 1) t (.ok (.ok .completed)) := hresult ▸ yields_transcript _ _
  obtain ⟨c, deeds, hserved, ⟨first, middle, last, r', hdeeds, -, htour, -, hr⟩, -⟩ :=
    next_position_of_execution (r := .ok .completed) h
  have hworkflow : c.workflow = jumpingWorkflow :=
    Option.some.inj (Dialogue.mem_transcript hserved.ran.found)
  cases r' with
  | ok status =>
      cases hr
      exact ⟨h, c, deeds, hserved, hworkflow, first, middle, last, hdeeds, htour⟩
  | error b => cases b <;> cases hr

end Run

end Runbook
