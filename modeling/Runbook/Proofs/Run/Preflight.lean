import Runbook.Proofs.Run.Scopes
import Runbook.Run.Stores

/-!
# Looking ahead

Before a workflow is run, the placeholders are listed that would stay without a value, for each step
that runs a command (`missingByStep`). What is listed under the id of a step belongs to that step,
since the steps of a stored workflow have different ids (`get?_missingByStep`).

Looking ahead and running read placeholders by different rules: only names in capitals are listed, and
any name is replaced. Both agree wherever both see a placeholder, because a placeholder of the narrow
rule is one of the wide rule at the same place. So in a run with the same variables each command keeps
the listed placeholders as they are written and has values for all others
(`preflight_agrees_with_execution`).
-/

set_option autoImplicit false

namespace Runbook.Run

open Template (Lists IsRequired Mentions Replaced)

/-! ## What is listed -/

/-- What is listed for one step. -/
def missingOf (scope : Scope) (step : Step) : Option (String × List String) :=
  match step.work with
  | .command =>
    let names := Template.missing step.content (step.bind scope)
    if names.isEmpty then none else some (step.id, names)
  | _ => none

theorem missingByStep_eq (w : Workflow) (scope : Scope) :
    missingByStep w scope = w.steps.filterMap (missingOf scope) := rfl

theorem fst_of_missingOf {scope : Scope} {step : Step} {entry : String × List String}
    (h : missingOf scope step = some entry) : entry.1 = step.id := by
  unfold missingOf at h
  split at h
  · simp only [ite_eq_iff] at h
    rcases h with ⟨-, h⟩ | ⟨-, h⟩
    · cases h
    · cases h
      rfl
  · cases h

/-- What is listed under the id of a step is what is listed for that step. -/
theorem get?_filterMap_missingOf {steps : List Step} (hids : (steps.map Step.id).Nodup)
    (scope : Scope) {step : Step} (hstep : step ∈ steps) :
    Assoc.get? (steps.filterMap (missingOf scope)) step.id = (missingOf scope step).map (·.2) := by
  induction steps with
  | nil => cases hstep
  | cons first rest ih =>
      obtain ⟨hfirst, hrest⟩ : first.id ∉ rest.map Step.id ∧ (rest.map Step.id).Nodup :=
        List.nodup_cons.1 hids
      -- only steps of the rest are listed behind the first one
      have hlisted : Assoc.get? (rest.filterMap (missingOf scope)) first.id = none := by
        rw [Assoc.get?_eq_none_iff]
        intro hmem
        obtain ⟨entry, hentry, hid⟩ := List.mem_map.1 hmem
        obtain ⟨other, hother, hlist⟩ := List.mem_filterMap.1 hentry
        apply hfirst
        rw [← hid, fst_of_missingOf hlist]
        exact List.mem_map_of_mem hother
      rcases List.mem_cons.1 hstep with rfl | hmem
      · cases hlist : missingOf scope step with
        | none => rw [List.filterMap_cons_none hlist, hlisted]; rfl
        | some entry =>
            rw [List.filterMap_cons_some hlist]
            simp [Assoc.get?, fst_of_missingOf hlist]
      · have hother : first.id ≠ step.id := by
          intro hsame
          exact hfirst (hsame ▸ List.mem_map_of_mem hmem)
        cases hlist : missingOf scope first with
        | none => rw [List.filterMap_cons_none hlist, ih hrest hmem]
        | some entry =>
            rw [List.filterMap_cons_some hlist, ← ih hrest hmem]
            simp [Assoc.get?, fst_of_missingOf hlist, hother]

/-- Under the id of a step that runs a command stand its missing names; nothing stands there if there
are none. -/
theorem get?_missingByStep {w : Workflow} (hids : (w.steps.map Step.id).Nodup) (scope : Scope)
    {step : Step} (hstep : step ∈ w.steps) (hwork : step.work = .command) :
    ((missingByStep w scope).get? step.id).getD [] =
      Template.missing step.content (step.bind scope) := by
  rw [missingByStep_eq, get?_filterMap_missingOf hids scope hstep]
  simp only [missingOf, hwork]
  split
  · rename_i hempty
    exact (List.isEmpty_iff.1 hempty).symm
  · rfl

/-! ## What is handed over -/

/-- If a stored workflow is run with the variables with which it was looked at ahead, then for each
step that runs a command the listed names are, once each and in the order in which they first stand in
the command, the required names without a value; and each time the step is run, it announces and hands
over its command with the placeholders replaced that have a value, and the others as they are
written. -/
theorem preflight_agrees_with_execution {Lent : String → Prop} {world : World} {k : Call}
    {rounds depth : Nat} {w : Workflow} {t : Transcript Query.Reply}
    {r : Except Break (Except Failure Status)}
    (hstore : Store.Workflows.Handled Lent world.workflows)
    (hfound : world.workflows.get? k.id = some w) (hfresh : k.id ∉ k.chain)
    (h : Yields (k.execute rounds (depth + 1)) t r) (hworkflows : FromStore world.workflows t)
    (hglobals : ∀ globals : Scope, ⟨.globals, globals⟩ ∈ t → globals = world.globals.scope) :
    ∃ missing c deeds r', world.preflight k.id k.inputs = .ok missing ∧
      k.Ran rounds depth c deeds t r' ∧ r = r'.map .ok ∧ c.workflow = w ∧
      ∀ step ∈ w.steps, step.work = .command →
        let listed := (missing.get? step.id).getD []
        let value := (step.bind c.scope).get?
        Lists step.content
          (fun name => IsRequired name ∧ Mentions step.content name ∧ value name = none) listed ∧
        ∀ p ∈ deeds, p.1.1.step? = some step →
          ∃ command, HandsOver c step command p.2 ∧ Replaced value step.content command := by
  cases k.executed_of_yields h with
  | cycle hin => exact absurd hin hfresh
  | notFound =>
      have hnone := hworkflows k.id none (List.mem_singleton_self _)
      rw [hfound] at hnone
      cases hnone
  | @ran c deeds _ r' hran =>
      have hworkflow : c.workflow = w := by
        have hanswer := hworkflows k.id (some c.workflow) hran.found
        rw [hfound] at hanswer
        exact Option.some.inj hanswer
      -- the run has the variables of which the missing ones were listed
      have hscope : c.scope = world.resolved w k.inputs := by
        rw [← hworkflow]
        obtain ⟨first, ⟨w', globals, executionId, rfl, rfl⟩, rfl⟩ := hran.begins
        have hsame : globals = world.globals.scope :=
          hglobals globals (List.mem_append_left _
            (List.mem_cons_of_mem _ (List.mem_cons_self ..)))
        rw [World.resolved, ← hsame]
        rfl
      have hpreflight : world.preflight k.id k.inputs = .ok (missingByStep w c.scope) := by
        have hget : world.workflows.get k.id = .ok w := by
          rw [Store.Workflows.get, hfound]
        rw [World.preflight, hget, hscope]
        rfl
      have hids : (w.steps.map Step.id).Nodup :=
        ((Store.Workflows.orderly_of_handled hstore).valid k.id w hfound).stepIds
      refine ⟨_, c, deeds, r', hpreflight, hran, rfl, hworkflow, ?_⟩
      intro step hstep hwork listed value
      have hlisted : listed = Template.missing step.content (step.bind c.scope) :=
        get?_missingByStep hids c.scope hstep hwork
      constructor
      · rw [hlisted]
        exact Template.lists_missing step.content (step.bind c.scope)
      · intro p hp hturn
        refine ⟨c.commandOf step, handsOver_of_does (hran.does p hp) hturn hwork, ?_⟩
        exact Template.replaced_fill step.content (step.bind c.scope)

/-! ### A command with two placeholders -/

/-- A workflow with a command that names a host and a port. -/
def pingWorkflow : Workflow where
  id := "ping"
  steps := [{ id := "first", content := "ping \x7bHOST\x7d \x7bPORT\x7d \x7bHOST\x7d" }]

/-- A disk with a file that holds it. -/
def pingDisk : Files.Disk :=
  let ping : Json := .obj [("steps", .arr
    [.obj [("id", .str "first"), ("content", .str "ping \x7bHOST\x7d \x7bPORT\x7d \x7bHOST\x7d")]])]
  ⟨⟨"/", []⟩, .folder [("workflows", .folder
    [("ping.json", .file (Text.Utf8.encode ping.compact))])]⟩

open Store.Workflows (Handled smallFolder load_of_files) in
theorem handled_pingStore : Handled (fun _ => True) ⟨smallFolder, [("ping", pingWorkflow)]⟩ := by
  have hnames : pingDisk.names smallFolder = .ok ["ping.json"] :=
    congrArg Except.ok (List.mergeSort_singleton "ping.json")
  exact Handled.loaded (load_of_files rfl hnames (by decide +kernel))
    fun _ _ _ _ _ _ _ => trivial

/-- The port has no value, so it is listed and its placeholder is handed over. -/
theorem preflight_agrees_with_execution_pingWorkflow :
    let world : World :=
      { disk := pingDisk, commands := .started []
        workflows := ⟨Store.Workflows.smallFolder, [("ping", pingWorkflow)]⟩ }
    let k : Call := ⟨[], "ping", [("HOST", "h")]⟩
    let t := (k.execute 3 3).run.transcript (steady world.workflows.get? false (.refused ""))
    FromStore world.workflows t ∧ (∀ globals : Scope, ⟨.globals, globals⟩ ∈ t → globals = []) ∧
      world.preflight k.id k.inputs = .ok [("first", ["PORT"])] ∧
      "$ ping h \x7bPORT\x7d h" ∈ messages ⟨"run", "ping", 0⟩ t ∧
      ∃ c deeds r', k.Ran 3 2 c deeds t r' ∧ ∀ p ∈ deeds, p.1.1.step? = pingWorkflow.steps.head? →
        ∃ command, HandsOver c pingWorkflow.steps[0] command p.2 := by
  intro world k t
  have hworkflows : FromStore world.workflows t := fun id answer hmem =>
    Dialogue.mem_transcript hmem
  have hglobals : ∀ globals : Scope, ⟨.globals, globals⟩ ∈ t → globals = [] := fun globals hmem =>
    Dialogue.mem_transcript hmem
  obtain ⟨missing, c, deeds, r', hmissing, hran, -, -, hsteps⟩ :=
    preflight_agrees_with_execution handled_pingStore rfl List.not_mem_nil
      (yields_transcript (steady world.workflows.get? false (.refused "")) (k.execute 3 3))
      hworkflows hglobals
  have hlisted : world.preflight k.id k.inputs = .ok [("first", ["PORT"])] := by decide +kernel
  have hannounced : "$ ping h \x7bPORT\x7d h" ∈ messages ⟨"run", "ping", 0⟩ t := by
    decide +kernel
  refine ⟨hworkflows, hglobals, hlisted, hannounced, c, deeds, r', hran, ?_⟩
  intro p hp hstep
  obtain ⟨command, hcommand, -⟩ :=
    (hsteps pingWorkflow.steps[0] (List.mem_cons_self ..) rfl).2 p hp hstep
  exact ⟨command, hcommand⟩

end Runbook.Run
