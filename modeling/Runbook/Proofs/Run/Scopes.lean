import Runbook.Proofs.Definition.Step
import Runbook.Proofs.Run.Cancellation
import Runbook.Proofs.Run.NestedRun
import Runbook.Proofs.Store.Validity
import Runbook.Proofs.Store.Variables
import Runbook.Proofs.Template.Places

/-!
# The variables of runs

The variables of a run are fixed when it begins. Its inputs come first, then the global variables as
they are at that moment, then the first default that is not empty (`get?_resolve`). A nested run has
the variables of the run around it as its inputs, so along runs inside one another names only gain
values (`scopes_of_execution`), however the global variables change meanwhile.

A step sees these variables, but for the names that it binds itself: such a name stands for the
variable that it is bound to, if the run has that one (`get?_bind`). What a name is bound to is looked
up among the variables of the run, so the order of the bindings does not matter, and two names may be
exchanged. No other step and no nested run sees the bindings.
-/

set_option autoImplicit false

namespace Runbook

/-! ## What a step sees -/

/-- The value that a step sees for a name. -/
def Step.sees (step : Step) (scope : Scope) (name : String) : Option String :=
  ((step.bindings.get? name).bind scope.get?).or (scope.get? name)

/-- Binds one name, if the run has the variable. -/
def Step.bindOne (scope bound : Scope) (binding : String × String) : Scope :=
  match scope.get? binding.2 with
  | some value => bound.put binding.1 value
  | none => bound

theorem Step.bind_eq (step : Step) (scope : Scope) :
    step.bind scope = step.bindings.foldl (Step.bindOne scope) scope := rfl

theorem Step.get?_bindOne (scope bound : Scope) (binding : String × String) (name : String) :
    (Step.bindOne scope bound binding).get? name =
      if binding.1 = name then (scope.get? binding.2).or (bound.get? name)
      else bound.get? name := by
  rw [Step.bindOne]
  cases scope.get? binding.2 with
  | none => simp
  | some value => simp [Assoc.get?_put]

/-- What is found after names were bound that differ from each other. -/
theorem Step.get?_foldl_bindOne {bindings : Scope} (h : bindings.keys.Nodup)
    (scope bound : Scope) (name : String) :
    (bindings.foldl (Step.bindOne scope) bound).get? name =
      ((bindings.get? name).bind scope.get?).or (bound.get? name) := by
  induction bindings generalizing bound with
  | nil => rfl
  | cons binding rest ih =>
      obtain ⟨localName, sourceName⟩ := binding
      obtain ⟨hfresh, hrest⟩ : localName ∉ Assoc.keys rest ∧ (Assoc.keys rest).Nodup :=
        List.nodup_cons.1 h
      rw [List.foldl_cons, ih hrest, Step.get?_bindOne, Assoc.get?]
      by_cases hname : localName = name
      -- no later binding is for the same name
      · subst hname
        simp [Assoc.get?_eq_none_iff.2 hfresh]
      · simp [hname]

/-- A step that binds each name once sees what its bindings say. -/
theorem Step.get?_bind {step : Step} (h : step.bindings.keys.Nodup) (scope : Scope)
    (name : String) : (step.bind scope).get? name = step.sees scope name := by
  rw [Step.bind_eq, Step.get?_foldl_bindOne h]
  rfl

/-- Two names may be exchanged. -/
example : let step : Step := { id := "s", bindings := [("A", "B"), ("B", "A")] }
    step.sees [("A", "1"), ("B", "2")] "A" = some "2" ∧
      step.sees [("A", "1"), ("B", "2")] "B" = some "1" := by decide

/-- The order of the bindings does not matter. -/
theorem Step.sees_of_perm {step : Step} {bindings : Scope} (h : step.bindings.keys.Nodup)
    (hperm : bindings.Perm step.bindings) (scope : Scope) :
    { step with bindings := bindings }.sees scope = step.sees scope := by
  have hkeys : bindings.keys.Nodup := (hperm.map Prod.fst).nodup_iff.2 h
  funext name
  rw [Step.sees, Step.sees, (Assoc.perm_iff_get? hkeys h).1 hperm name]

namespace Template

/-- What a command becomes depends on the values that are found alone. -/
theorem fill_congr {command : String} {values others : Scope}
    (h : ∀ name, values.get? name = others.get? name) : fill command values = fill command others := by
  have htokens : Token.fill values = Token.fill others := by
    funext token
    rw [fill_eq_replace, fill_eq_replace, funext h]
  rw [fill, fill, htokens]

end Template

namespace Run

/-! ## What a run begins with -/

/-- The first default that is not empty. -/
def firstDefault? (declared : List Variable) (name : String) : Option String :=
  (declared.find? fun v => v.name == name && v.defaultValue != "").map (·.defaultValue)

/-- The value with which a run begins: that of its inputs, or else the global one, or else the
default. -/
def valueAtStart (globals inputs : Scope) (declared : List Variable) (name : String) :
    Option String :=
  (inputs.get? name).or ((globals.get? name).or (firstDefault? declared name))

/-- Adds the defaults for names without value. -/
def withDefaults (scope : Scope) (declared : List Variable) : Scope :=
  declared.foldl (fun scope v =>
    if !scope.has v.name && v.defaultValue != "" then scope.put v.name v.defaultValue else scope)
    scope

theorem withDefaults_cons (scope : Scope) (v : Variable) (declared : List Variable) :
    withDefaults scope (v :: declared) =
      withDefaults (if !scope.has v.name && v.defaultValue != "" then
        scope.put v.name v.defaultValue else scope) declared := rfl

theorem get?_withDefaults (scope : Scope) (declared : List Variable) (name : String) :
    (withDefaults scope declared).get? name = (scope.get? name).or (firstDefault? declared name) := by
  induction declared generalizing scope with
  | nil => simp [withDefaults, firstDefault?]
  | cons v declared ih =>
      rw [withDefaults_cons, ih]
      by_cases hname : v.name = name
      · subst hname
        -- the default counts if it is the first one, and only where there is no value yet
        cases hvalue : scope.get? v.name with
        | some value => simp [Assoc.has, hvalue]
        | none =>
            by_cases hempty : v.defaultValue = ""
            · simp [hempty, hvalue, firstDefault?]
            · simp [hempty, hvalue, firstDefault?, Assoc.has, Assoc.get?_put]
      · split
        · simp [firstDefault?, Assoc.get?_put, hname]
        · simp [firstDefault?, hname]

theorem nodup_keys_withDefaults {scope : Scope} (h : scope.keys.Nodup) (declared : List Variable) :
    (withDefaults scope declared).keys.Nodup := by
  induction declared generalizing scope with
  | nil => exact h
  | cons v declared ih =>
      rw [withDefaults_cons]
      apply ih
      split
      · exact Assoc.nodup_keys_put h _ _
      · exact h

/-- The variables of a run in the order of precedence. -/
theorem get?_resolve {inputs : Scope} (h : inputs.keys.Nodup) (globals : Scope)
    (declared : List Variable) (name : String) :
    (resolve globals declared inputs).get? name = valueAtStart globals inputs declared name := by
  have hresolve : resolve globals declared inputs = (withDefaults globals declared).merge inputs :=
    rfl
  rw [hresolve, Assoc.get?_merge _ h, get?_withDefaults, valueAtStart]

theorem nodup_keys_resolve {globals : Scope} (h : globals.keys.Nodup) (declared : List Variable)
    (inputs : Scope) : (resolve globals declared inputs).keys.Nodup :=
  Assoc.nodup_keys_merge (nodup_keys_withDefaults h declared) inputs

/-! ## Commands that a step hands over -/

/-- A step announces its command and hands it over, and no other one. -/
def HandsOver (c : Context) (step : Step) (command : String) (piece : Transcript Query.Reply) :
    Prop :=
  ∃ reply work, piece = telling c.run (announcing step.id command) ::
    ⟨.launch command, reply⟩ :: work ∧ work.countP isLaunch = 0

theorem handsOver_of_does {c : Context} {rounds depth : Nat} {p : Deed} {step : Step}
    (h : c.Does rounds depth p) (hstep : p.1.1.step? = some step) (hwork : step.work = .command) :
    HandsOver c step (c.commandOf step) p.2 := by
  obtain ⟨r, -, hstepped⟩ := h.stepped_of_step? hstep
  generalize p.2 = piece at hstepped ⊢
  cases hstepped with
  | unknown _ hother => cases hwork.symm.trans hother
  | crashed crash => exact ⟨.crashed crash, [], rfl, rfl⟩
  | refused reason => exact ⟨.refused reason, [], rfl, rfl⟩
  | followed process work outcome _ hisWork =>
      refine ⟨.started process, work, rfl, ?_⟩
      rw [List.countP_eq_zero]
      rintro ⟨q, reply⟩ hx
      have hq := hisWork _ hx
      -- what a started command asks is no launch
      cases q with
      | launch command => cases hq
      | _ => exact Bool.false_ne_true
  | nested hother => cases hwork.symm.trans hother

/-- The command that a step hands over has the values that the step sees. -/
theorem replaced_commandOf (c : Context) {step : Step} (h : step.bindings.keys.Nodup) :
    Template.Replaced (step.sees c.scope) step.content (c.commandOf step) := by
  have hsees : (step.bind c.scope).get? = step.sees c.scope := funext (Step.get?_bind h c.scope)
  rw [← hsees]
  exact Template.replaced_fill step.content (step.bind c.scope)

theorem commandOf_of_perm (c : Context) {step : Step} {bindings : Scope}
    (h : step.bindings.keys.Nodup) (hperm : bindings.Perm step.bindings) :
    c.commandOf { step with bindings := bindings } = c.commandOf step := by
  have hkeys : bindings.keys.Nodup := (hperm.map Prod.fst).nodup_iff.2 h
  apply Template.fill_congr
  intro name
  rw [Step.get?_bind hkeys, Step.get?_bind h, Step.sees_of_perm h hperm]

/-! ## Along runs inside one another -/

/-- The world replies with dictionaries: no name occurs twice among global variables, or among the
bindings of a step. -/
structure Keyed (t : Transcript Query.Reply) : Prop where
  globals : ∀ globals : Scope, ⟨.globals, globals⟩ ∈ t → globals.keys.Nodup
  bindings : ∀ id w, ⟨.workflow id, some w⟩ ∈ t → ∀ step ∈ w.steps, step.bindings.keys.Nodup

/-- Stores reply with dictionaries, also if they change meanwhile. -/
theorem keyed_of_stores {Lent : String → Prop} {t : Transcript Query.Reply}
    (hworkflows : ∀ id w, ⟨.workflow id, some w⟩ ∈ t →
      ∃ store, Store.Workflows.Handled Lent store ∧ store.get? id = some w)
    (hglobals : ∀ globals : Scope, ⟨.globals, globals⟩ ∈ t →
      ∃ store, Store.Variables.Reached store ∧ globals = store.scope) : Keyed t where
  globals globals hmem := by
    obtain ⟨store, hreached, rfl⟩ := hglobals globals hmem
    have hkeys : store.scope.keys = store.held.keys := by
      simp [Store.Variables.scope, Assoc.keys]
    rw [hkeys]
    exact (Store.Variables.tidy_of_reached hreached).nodup
  bindings id w hmem step hstep := by
    obtain ⟨store, hhandled, hheld⟩ := hworkflows id w hmem
    have hvalid := (Store.Workflows.orderly_of_handled hhandled).valid id w hheld
    exact (hvalid.steps step hstep).bindings.once

/-- A run begins: its workflow is found, the global variables are read, and the run has its inputs,
then those global variables, then its defaults. -/
def StartsFrom (t : Transcript Query.Reply) (inputs : Scope) (c : Context) : Prop :=
  ∃ before after id globals, t = before ++ ⟨.workflow id, some c.workflow⟩ ::
      ⟨.globals, globals⟩ :: c.began :: after ∧
    ∀ name, c.scope.get? name = valueAtStart globals inputs c.workflow.declared name

/-- What has a value in one run has the same value in another one. -/
def Inherits (outer inner : Context) : Prop :=
  ∀ name value, outer.scope.get? name = some value → inner.scope.get? name = some value

section Starts

variable {t : Transcript Query.Reply} {inputs : Scope} {c : Context}

theorem StartsFrom.within (h : StartsFrom t inputs c) (first last : Transcript Query.Reply) :
    StartsFrom (first ++ t ++ last) inputs c := by
  obtain ⟨before, after, id, globals, rfl, hscope⟩ := h
  exact ⟨first ++ before, after ++ last, id, globals, by simp, hscope⟩

/-- What a run begins with is repeated by no run around it. -/
theorem StartsFrom.relayed (h : StartsFrom t inputs c) (around : Context) (step : Step) :
    StartsFrom (around.relayed step t) inputs c := by
  obtain ⟨before, after, id, globals, rfl, hscope⟩ := h
  refine ⟨around.relayed step before, around.relayed step after, id, globals, ?_, hscope⟩
  rw [Context.relayed_append]
  rfl

theorem StartsFrom.found (h : StartsFrom t inputs c) : ∃ id, ⟨.workflow id, some c.workflow⟩ ∈ t := by
  obtain ⟨before, after, id, globals, rfl, -⟩ := h
  exact ⟨id, List.mem_append_right _ (List.mem_cons_self ..)⟩

/-- A run has the variables with which it begins. -/
theorem StartsFrom.inherits {outer : Context} (h : StartsFrom t outer.scope c) :
    Inherits outer c := by
  obtain ⟨before, after, id, globals, -, hscope⟩ := h
  intro name value hvalue
  rw [hscope, valueAtStart, hvalue]
  rfl

end Starts

section Ran

variable {k : Call} {rounds depth : Nat} {c : Context} {deeds : List Deed}
  {t : Transcript Query.Reply} {r : Except Break Status}

theorem Call.Ran.startsFrom (h : k.Ran rounds depth c deeds t r) (hinputs : k.inputs.keys.Nodup) :
    StartsFrom t k.inputs c := by
  obtain ⟨first, ⟨w, globals, executionId, rfl, rfl⟩, rfl⟩ := h.begins
  exact ⟨[], deeds.flatMap Prod.snd, k.id, globals, rfl,
    get?_resolve hinputs globals w.declared⟩

theorem Call.Ran.nodup_scope (h : k.Ran rounds depth c deeds t r) (ht : Keyed t) :
    c.scope.keys.Nodup := by
  obtain ⟨first, ⟨w, globals, executionId, rfl, rfl⟩, rfl⟩ := h.begins
  apply nodup_keys_resolve
  apply ht.globals
  exact List.mem_append_left _ (List.mem_cons_of_mem _ (List.mem_cons_self ..))

/-- What was exchanged in a deed stands in one piece in the transcript of its run. -/
theorem Call.Ran.exists_of_deed (h : k.Ran rounds depth c deeds t r) {p : Deed} (hp : p ∈ deeds) :
    ∃ before after, t = before ++ p.2 ++ after := by
  obtain ⟨first, -, rfl⟩ := h.begins
  obtain ⟨deeds₁, deeds₂, rfl⟩ := List.append_of_mem hp
  exact ⟨first ++ deeds₁.flatMap Prod.snd, deeds₂.flatMap Prod.snd, by simp⟩

end Ran

/-- Each of the runs inside one another begins with the variables of the one around it. -/
theorem Stands.starts {rounds depth left : Nat} {k : Call} {t : Transcript Query.Reply}
    {stack : List Context} {deeds : List Deed} (h : Stands rounds depth k t stack left deeds)
    (hinputs : k.inputs.keys.Nodup) (ht : Keyed t) :
    (∀ c, stack.head? = some c → StartsFrom t k.inputs c) ∧
      stack.IsChain (fun outer inner => StartsFrom t outer.scope inner) ∧
      ∀ c ∈ stack, ∃ inputs, StartsFrom t inputs c := by
  induction h with
  | @own depth k c deeds t r hran =>
      have hstarts := hran.startsFrom hinputs
      refine ⟨?_, .singleton c, ?_⟩
      · rintro c' ⟨⟩
        exact hstarts
      · intro c' hc'
        obtain rfl := List.mem_singleton.1 hc'
        exact ⟨_, hstarts⟩
  | @nested depth left k c deeds deeds' t t' r r' p step stack hran hp hstep hwork hpiece hyields
      hstands ih =>
      have hstarts := hran.startsFrom hinputs
      have hmem : ∀ {x : Exchange Query.Reply}, x ∈ t' → x ∈ t := mem_of_nested hran hp hpiece
      have ht' : Keyed t' :=
        ⟨fun globals h => ht.globals globals (hmem h), fun id w h => ht.bindings id w (hmem h)⟩
      obtain ⟨hhead, hchain, hall⟩ := ih (hran.nodup_scope ht) ht'
      -- what begins in the nested run begins in the run around it as well
      have houter : ∀ {inputs : Scope} {c' : Context},
          StartsFrom t' inputs c' → StartsFrom t inputs c' := by
        intro inputs c' h
        obtain ⟨before, after, rfl⟩ := hran.exists_of_deed hp
        have hnested := (h.relayed c step).within [c.naming step] []
        rw [List.append_nil] at hnested
        rw [hpiece]
        exact hnested.within before after
      refine ⟨?_, ?_, ?_⟩
      · rintro c' ⟨⟩
        exact hstarts
      · cases stack with
        | nil => exact .singleton c
        | cons c' stack =>
            apply List.isChain_cons_cons.2
            exact ⟨houter (hhead c' rfl), hchain.imp fun _ _ h => houter h⟩
      · intro c' hc'
        rcases List.mem_cons.1 hc' with rfl | hc'
        · exact ⟨_, hstarts⟩
        · obtain ⟨inputs, h⟩ := hall c' hc'
          exact ⟨inputs, houter h⟩

/-- What the runs inside one another have in common with the innermost one. -/
theorem Stands.inherits {rounds depth left : Nat} {k : Call} {t : Transcript Query.Reply}
    {stack : List Context} {deeds : List Deed} (h : Stands rounds depth k t stack left deeds)
    (hinputs : k.inputs.keys.Nodup) (ht : Keyed t) : stack.Pairwise Inherits := by
  have htrans : Trans Inherits Inherits Inherits :=
    ⟨fun h h' name value hvalue => h' name value (h name value hvalue)⟩
  have hchain : stack.IsChain Inherits :=
    (h.starts hinputs ht).2.1.imp fun _ _ hstarts => hstarts.inherits
  exact hchain.pairwise

/-- In an execution each run begins with its inputs, over the global variables of that moment, over
its defaults, and a nested run has the variables of the run around it as its inputs. So a name keeps
its value in all runs further in. A command gets, for each name, the value of the variable to which
its step binds the name, or else that of the variable of this name, in whatever order the step binds
its names. -/
theorem scopes_of_execution {rounds depth : Nat} {id : String} {inputs : Scope}
    {t : Transcript Query.Reply} {r : Except Break (Except Failure Status)}
    (h : Yields (execute rounds depth [] id inputs) t r) (hinputs : inputs.keys.Nodup)
    (ht : Keyed t) :
    (∀ workflowId scope n executionId, ⟨.begin workflowId scope n, executionId⟩ ∈ t →
      ∃ outer c left deeds, Stands rounds depth ⟨[], id, inputs⟩ t (outer ++ [c]) left deeds ∧
        c.began = ⟨.begin workflowId scope n, executionId⟩) ∧
    ∀ outer c left deeds, Stands rounds depth ⟨[], id, inputs⟩ t (outer ++ [c]) left deeds →
      c.run.depth = outer.length ∧
      (∀ first, (outer ++ [c]).head? = some first → StartsFrom t inputs first) ∧
      (outer ++ [c]).IsChain (fun around inner => StartsFrom t around.scope inner) ∧
      (outer ++ [c]).Pairwise Inherits ∧
      ∀ p ∈ deeds, ∀ step, p.1.1.step? = some step → step.work = .command →
        HandsOver c step (c.commandOf step) p.2 ∧
        Template.Replaced (step.sees c.scope) step.content (c.commandOf step) ∧
        ∀ bindings : Scope, bindings.Perm step.bindings →
          c.commandOf { step with bindings := bindings } = c.commandOf step := by
  refine ⟨fun workflowId scope n executionId hmem => exists_stands_of_begin h hmem, ?_⟩
  intro outer c left deeds hstands
  obtain ⟨hhead, hchain, hall⟩ := hstands.starts hinputs ht
  obtain ⟨-, outer', c', r', hstack, hids, hdoes, hwhole⟩ := hstands.innermost
  obtain ⟨rfl, hlast⟩ := List.append_inj' hstack rfl
  obtain rfl := List.singleton_inj.1 hlast
  refine ⟨?_, hhead, hchain, hstands.inherits hinputs ht, ?_⟩
  · have hplace := hstands.place (List.getLast?_concat ..)
    rw [hids] at hplace
    simpa [idsOf] using hplace.symm
  -- the innermost run has found its workflow, whose steps bind each name once
  · intro p hp step hstep hwork
    have hmem : step ∈ c.workflow.steps := hwhole.step_mem (List.mem_map_of_mem hp) hstep
    have hbindings : step.bindings.keys.Nodup := by
      obtain ⟨inputs', hstarts⟩ := hall c (List.mem_append_right _ (List.mem_singleton_self c))
      obtain ⟨id', hfound⟩ := hstarts.found
      exact ht.bindings id' c.workflow hfound step hmem
    refine ⟨handsOver_of_does (hdoes p hp) hstep hwork, replaced_commandOf c hbindings, ?_⟩
    intro bindings hperm
    exact commandOf_of_perm c hbindings hperm

open Store.Workflows (Handled nestedStore load_of_files names_nestedDisk) in
theorem handled_nestedStore : Handled (fun _ => True) nestedStore :=
  Handled.loaded (load_of_files rfl names_nestedDisk (by decide +kernel))
    fun _ _ _ _ _ _ _ => trivial

/-- A store and no global variables reply with dictionaries. -/
theorem keyed_of_steady {Lent : String → Prop} {store : Store.Workflows}
    (h : Store.Workflows.Handled Lent store) {cancelled : Bool} {launch : Launch} {α : Type}
    (d : Dialogue Query.Reply α) :
    Keyed (d.transcript (steady store.get? cancelled launch)) := by
  apply keyed_of_stores
  · intro id w hmem
    exact ⟨store, h, (Dialogue.mem_transcript hmem).symm⟩
  · intro globals hmem
    have hload : Store.Variables.load ⟨⟨"/", []⟩, .folder []⟩ ⟨"/", ["variables.json"]⟩ =
        .ok ⟨⟨"/", ["variables.json"]⟩, []⟩ := rfl
    exact ⟨_, Store.Variables.Reached.load hload, Dialogue.mem_transcript hmem⟩

open Store.Workflows (nestedStore) in
/-- The inner run has the input of the outer one. -/
theorem scopes_of_execution_nestedStore :
    let inputs : Scope := [("HOST", "h")]
    let t := (execute 3 3 [] "outer" inputs).run.transcript
      (steady nestedStore.get? false (.refused ""))
    inputs.keys.Nodup ∧ Keyed t ∧ ∃ outer c left deeds,
      Stands 3 3 ⟨[], "outer", inputs⟩ t (outer ++ [c]) left deeds ∧ c.workflow.id = "inner" ∧
      outer.length = 1 ∧ (outer ++ [c]).Pairwise Inherits := by
  intro inputs t
  have hinputs : inputs.keys.Nodup := by decide
  have hkeyed : Keyed t := keyed_of_steady handled_nestedStore _
  have hbegin : ⟨.begin "inner" inputs 1, "run"⟩ ∈ t := List.mem_of_getElem? (i := 9) rfl
  obtain ⟨hruns, hstacks⟩ := scopes_of_execution (yields_transcript _ _) hinputs hkeyed
  obtain ⟨outer, c, left, deeds, hstands, hbegan⟩ := hruns _ _ _ _ hbegin
  obtain ⟨hdepth, -, -, hinherits, -⟩ := hstacks outer c left deeds hstands
  simp only [Context.began, Sigma.mk.injEq, Query.begin.injEq] at hbegan
  obtain ⟨⟨hid, -, hone⟩, -⟩ := hbegan
  exact ⟨hinputs, hkeyed, outer, c, left, deeds, hstands, hid, hdepth.symm.trans hone, hinherits⟩

end Run

end Runbook
