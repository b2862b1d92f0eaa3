import Runbook.Proofs.Run.Checks
import Runbook.Proofs.Run.Ending

/-!
# Cancellation

From some moment on every check of an execution says that the run is to stop. Between any two
commands there is a check, so at most one command is started after that moment.

If a command was running at that moment, the run that started it and each run around it are under
way: they have begun and have not been closed (`UnderWay`, `exists_owner`). The step that started the
command comes to an outcome, and the check behind it ends its run as cancelled. That run is the step
of the run around it, which is cancelled by the check behind that step, and so on
(`cancelled_of_starts`). `cancellation_stops_execution` puts both together.
-/

set_option autoImplicit false

namespace Runbook.Run

open Dialogue (Goes Ends)

/-! ## Runs that are under way -/

/-- The exchange in which a run began. -/
def beganAs (run : Identity) (scope : Scope) : Exchange Query.Reply :=
  ⟨.begin run.workflowId scope run.depth, run.executionId⟩

/-- The exchange in which a run makes something known. -/
def telling (run : Identity) (event : Event) : Exchange Query.Reply := ⟨.tell run event, ()⟩

theorem mem_told_iff {run : Identity} {event : Event} {t : Transcript Query.Reply} :
    event ∈ told run t ↔ telling run event ∈ t := by
  constructor
  · intro h
    obtain ⟨⟨q, reply⟩, hx, hevent⟩ := List.mem_filterMap.1 h
    cases q with
    | tell teller e =>
        obtain ⟨rfl, rfl⟩ : teller = run ∧ e = event := by simpa using hevent
        exact hx
    | _ => cases hevent
  · exact fun h => List.mem_filterMap.2 ⟨_, h, if_pos rfl⟩

/-- A run has begun and has not been closed; `since` is what was exchanged since it began. -/
def UnderWay (t : Transcript Query.Reply) (run : Identity) (since : Transcript Query.Reply) :
    Prop :=
  ∃ first scope, t = first ++ beganAs run scope :: since ∧ telling run .closed ∉ since

theorem UnderWay.mem {t since : Transcript Query.Reply} {run : Identity}
    (h : UnderWay t run since) : ∃ scope, beganAs run scope ∈ t := by
  obtain ⟨first, scope, rfl, -⟩ := h
  exact ⟨scope, List.mem_append_right _ (List.mem_cons_self ..)⟩

theorem UnderWay.after {t since : Transcript Query.Reply} {run : Identity}
    (h : UnderWay t run since) (first : Transcript Query.Reply) :
    UnderWay (first ++ t) run since := by
  obtain ⟨first', scope, rfl, hclosed⟩ := h
  exact ⟨first ++ first', scope, (List.append_assoc ..).symm, hclosed⟩

/-! ### In a run that is repeated -/

section Relayed

variable {c : Context} {step : Step} {t : Transcript Query.Reply} {run : Identity}

/-- Where a repeated nested run is cut in front of an exchange that repeats nothing, the nested run is
cut there. -/
theorem relayed_cut {u v : Transcript Query.Reply} {x : Exchange Query.Reply}
    (hx : ∀ message, x ≠ ⟨.tell c.run (remark step.id ("  " ++ message)), ()⟩)
    (h : c.relayed step t = u ++ x :: v) :
    ∃ t₁ t₂, t = t₁ ++ x :: t₂ ∧ u = c.relayed step t₁ ∧
      v = c.echoes step x.1 ++ c.relayed step t₂ := by
  obtain ⟨t₁, y, t₂, es, fs, rfl, hy, rfl, rfl⟩ := flatMap_eq_append_cons h
  -- it is the exchange that is repeated, not its repetition
  cases es with
  | nil =>
      obtain ⟨rfl, rfl⟩ := List.cons.inj hy
      exact ⟨t₁, t₂, rfl, by simp [Context.relayed], rfl⟩
  | cons z es =>
      obtain ⟨-, hes⟩ := List.cons.inj hy
      have hmem : x ∈ c.echoes step y.1 := hes ▸ List.mem_append_right _ (List.mem_cons_self ..)
      obtain ⟨message, hrepeated⟩ := c.exists_of_mem_echoes hmem
      exact absurd hrepeated (hx message)

theorem relayed_eq_append_cons {u v : Transcript Query.Reply} {x : Exchange Query.Reply}
    (hx : ∀ event, x.1 ≠ .tell c.run event) (h : c.relayed step t = u ++ x :: v) :
    ∃ t₁ t₂, t = t₁ ++ x :: t₂ ∧ u = c.relayed step t₁ ∧
      v = c.echoes step x.1 ++ c.relayed step t₂ := by
  apply relayed_cut _ h
  rintro message rfl
  exact hx _ rfl

/-- Repeating a nested run changes nothing of what it makes known itself. -/
theorem told_relayed (hrun : run ≠ c.run) (t : Transcript Query.Reply) :
    told run (c.relayed step t) = told run t := by
  induction t with
  | nil => rfl
  | cons x t ih =>
      have hcons : c.relayed step (x :: t) = [x] ++ (c.echoes step x.1 ++ c.relayed step t) := rfl
      have hecho : told run (c.echoes step x.1) = [] := told_eq_nil fun y hy event => by
        obtain ⟨message, rfl⟩ := c.exists_of_mem_echoes hy
        rintro ⟨⟩
        exact hrun rfl
      rw [hcons, told_append, told_append, hecho, List.nil_append, ih, ← told_append]
      rfl

/-- A run under way in a nested execution is under way in the step that repeats it. -/
theorem UnderWay.relayed {since : Transcript Query.Reply} (h : UnderWay t run since)
    (hrun : run ≠ c.run) : UnderWay (c.relayed step t) run (c.relayed step since) := by
  obtain ⟨first, scope, rfl, hclosed⟩ := h
  refine ⟨c.relayed step first, scope, ?_, ?_⟩
  · rw [Context.relayed_append]
    rfl
  · rwa [← mem_told_iff, told_relayed hrun, mem_told_iff]

theorem UnderWay.of_relayed {event : Event} {since : Transcript Query.Reply}
    (h : UnderWay (telling c.run event :: c.relayed step t) run since) :
    ∃ since', UnderWay t run since' ∧ since = c.relayed step since' := by
  obtain ⟨first, scope, ht, hclosed⟩ := h
  cases first with
  | nil => cases (List.cons.inj ht).1
  | cons y first =>
      obtain ⟨t₁, t₂, rfl, -, rfl⟩ :=
        relayed_eq_append_cons (by rintro event ⟨⟩) (List.cons.inj ht).2
      exact ⟨t₂, ⟨t₁, scope, rfl, fun hmem => hclosed (c.mem_relayed hmem)⟩, rfl⟩

/-- Runs inside a run are deeper. -/
theorem depth_lt_of_began {rounds depth : Nat} {scope : Scope}
    {r : Except Break (Except Failure Status)} (hplace : c.run.depth < c.chain.length)
    (h : Yields ((c.call step).execute rounds depth) t r) (hmem : beganAs run scope ∈ t) :
    c.run.depth < run.depth :=
  Nat.lt_of_lt_of_le hplace (atLeast_of_yields h _ hmem run.depth rfl)

end Relayed

/-! ### In a run -/

section Begins

variable {k : Call} {c : Context} {first : Transcript Query.Reply}

theorem Call.Begins.began (h : k.Begins c first) :
    ∃ before, first = before ++ [beganAs c.run c.scope] := by
  obtain ⟨w, globals, executionId, rfl, rfl⟩ := h
  exact ⟨[_, _], rfl⟩

/-- Nothing else begins where a run begins. -/
theorem Call.Begins.of_began (h : k.Begins c first) {t₁ t₂ : Transcript Query.Reply}
    {run : Identity} {scope : Scope} (hfirst : first = t₁ ++ beganAs run scope :: t₂) :
    run = c.run ∧ t₂ = [] := by
  obtain ⟨w, globals, executionId, rfl, rfl⟩ := h
  obtain ⟨id, workflowId, depth⟩ := run
  match t₁ with
  | [] => cases hfirst
  | [_] => cases hfirst
  | [_, _] =>
      cases hfirst
      exact ⟨rfl, rfl⟩
  | _ :: _ :: _ :: _ =>
      have hlength := congrArg List.length hfirst
      simp [Call.beginning] at hlength

end Begins

/-- Where a step that names a workflow begins a run. -/
theorem Context.Stepped.of_began {c : Context} {rounds depth : Nat} {step : Step}
    {u v : Transcript Query.Reply} {r : Except Break Outcome} {run : Identity} {scope : Scope}
    (h : c.Stepped rounds depth step (u ++ beganAs run scope :: v) r) :
    ∃ t₁ t₂ r', Yields ((c.call step).execute rounds depth) (t₁ ++ beganAs run scope :: t₂) r' ∧
      r = r'.map (Outcome.ofNested (c.call step).id) ∧ v = c.relayed step t₂ := by
  obtain ⟨-, t', r', hyields, ht, rfl, -⟩ :=
    h.nested_of_begin (List.mem_append_right _ (List.mem_cons_self ..))
  cases u with
  | nil => cases (List.cons.inj ht).1
  | cons first u =>
      obtain ⟨t₁, t₂, rfl, -, rfl⟩ :=
        relayed_eq_append_cons (by rintro event ⟨⟩) (List.cons.inj ht).2.symm
      exact ⟨t₁, t₂, r', hyields, rfl, rfl⟩

/-- In a run that was not broken off, a nested run was closed when the step that began it came to
its end. -/
theorem closed_of_began_deed {c : Context} {rounds depth limit : Nat} {deeds : List Deed} {p : Deed}
    {u v : Transcript Query.Reply} {run : Identity} {scope : Scope} {status : Status}
    (hnested : ∀ {step : Step} {t₁ t₂ : Transcript Query.Reply} {result : Except Failure Status},
      Yields ((c.call step).execute rounds depth) (t₁ ++ beganAs run scope :: t₂) (.ok result) →
        telling run .closed ∈ t₂)
    (hdoes : c.Does rounds depth p) (hp : p.2 = u ++ beganAs run scope :: v) (hmem : p ∈ deeds)
    (hwhole : Course.Whole c.workflow limit (deeds.map Prod.fst) (.ok status)) :
    telling run .closed ∈ v := by
  have hbegan : beganAs run scope ∈ p.2 := hp ▸ List.mem_append_right _ (List.mem_cons_self ..)
  obtain ⟨step, r, -, hr, hstepped⟩ := hdoes.stepped hbegan (by rintro ⟨⟩) (by rintro event ⟨⟩)
  rw [hp] at hstepped
  obtain ⟨t₁, t₂, r', hyields, rfl, rfl⟩ := hstepped.of_began
  cases r' with
  | ok result => exact c.mem_relayed (hnested hyields)
  -- a nested run that is out of rounds takes the run around it along
  | error b =>
      obtain rfl := Call.eq_outOfRounds_of_yields _ hyields
      have hbroke : Course.broke? p.1 = some .outOfRounds := by
        rw [Course.broke?, hr]
        rfl
      have hbreak : Break.outOfRounds ∈ Course.breaks (deeds.map Prod.fst) :=
        List.mem_filterMap.2 ⟨p.1, List.mem_map_of_mem hmem, hbroke⟩
      cases hwhole.outOfRounds_of_breaks hbreak

/-- A run that has begun in an execution that has come to its end was closed. -/
theorem telling_closed_of_began {rounds depth : Nat} {k : Call} {t₁ t₂ : Transcript Query.Reply}
    {run : Identity} {scope : Scope} {result : Except Failure Status}
    (h : Yields (k.execute rounds depth) (t₁ ++ beganAs run scope :: t₂) (.ok result)) :
    telling run .closed ∈ t₂ := by
  induction depth generalizing k t₁ t₂ result with
  | zero => cases (yields_throw_iff.1 h).2
  | succ depth ih =>
      obtain ⟨c, deeds, r, hran, hr⟩ := k.ran_of_mem h
        (List.mem_append_right _ (List.mem_cons_self ..)) (by rintro id ⟨⟩)
      cases r with
      | error b => cases hr
      | ok status =>
          obtain ⟨during, last, htold, -, -⟩ := told_of_ran hran
          obtain ⟨first, hbegins, ht⟩ := hran.begins
          rcases append_eq_append_cons ht.symm with ⟨es, hfirst, rfl⟩ | ⟨es, rfl, hdeeds⟩
          -- it is the run of the execution itself
          · obtain ⟨rfl, rfl⟩ := hbegins.of_began hfirst
            rw [ht, told_append, hbegins.told_eq_nil, List.nil_append] at htold
            exact mem_told_iff.1 (htold ▸ List.mem_append_right _ (List.mem_singleton_self _))
          -- it began in a deed of that run
          · obtain ⟨deeds₁, p, deeds₂, u, v, rfl, hp, rfl, rfl⟩ := flatMap_eq_append_cons hdeeds
            have hmem : p ∈ deeds₁ ++ p :: deeds₂ :=
              List.mem_append_right _ (List.mem_cons_self ..)
            exact List.mem_append_left _
              (closed_of_began_deed (fun ht => ih ht) (hran.does p hmem) hp hmem hran.whole)

/-- What is under way in a run that has come to the point `u` of a deed is the run itself or is under
way in that deed. -/
theorem Call.Ran.underWay {k : Call} {rounds depth : Nat} {c : Context}
    {first t u since : Transcript Query.Reply} {deeds₁ deeds₂ : List Deed} {run : Identity}
    {status : Status} (h : k.Ran rounds depth c (deeds₁ ++ deeds₂) t (.ok status))
    (hbegins : k.Begins c first)
    (hway : UnderWay (first ++ (deeds₁.flatMap Prod.snd ++ u)) run since) :
    run = c.run ∧ since = deeds₁.flatMap Prod.snd ++ u ∨ UnderWay u run since := by
  obtain ⟨t₁, scope, hcut, hclosed⟩ := hway
  rcases append_eq_append_cons hcut with ⟨es, hfirst, rfl⟩ | ⟨es, rfl, hes⟩
  · obtain ⟨rfl, rfl⟩ := hbegins.of_began hfirst
    exact .inl ⟨rfl, rfl⟩
  · rcases append_eq_append_cons hes with ⟨fs, hdeeds₁, rfl⟩ | ⟨fs, rfl, rfl⟩
    · obtain ⟨deeds₃, q, deeds₄, u', v', rfl, hq, rfl, rfl⟩ := flatMap_eq_append_cons hdeeds₁
      have hmem : q ∈ deeds₃ ++ q :: deeds₄ ++ deeds₂ :=
        List.mem_append_left _ (List.mem_append_right _ (List.mem_cons_self ..))
      have hclosed' := closed_of_began_deed (fun ht => telling_closed_of_began ht)
        (h.does q hmem) hq hmem h.whole
      exact absurd (List.mem_append_left _ (List.mem_append_left _ hclosed')) hclosed
    · exact .inr ⟨fs, scope, rfl, hclosed⟩

/-! ## Running commands -/

/-- A command is started. -/
def starts (command : String) (process : Process) : Exchange Query.Reply :=
  ⟨.launch command, .started process⟩

/-- A run announces the command that it is to start. -/
def announcing (stepId command : String) : Event := remark stepId ("$ " ++ command)

section Starts

variable {c : Context} {rounds depth : Nat} {step : Step} {u v : Transcript Query.Reply}
  {command : String} {process : Process}

theorem told_starts (run : Identity) (t : Transcript Query.Reply) :
    told run (starts command process :: t) = told run t :=
  told_cons_of_ne t (by rintro event ⟨⟩)

/-- A step starts a command itself, and then it comes to an outcome, or its nested run does. -/
theorem Context.Stepped.of_starts {r : Except Break Outcome}
    (h : c.Stepped rounds depth step (u ++ starts command process :: v) r) :
    (∃ outcome, r = .ok outcome ∧ u = [telling c.run (announcing step.id command)]) ∨
      ∃ t₁ t₂ r', Yields ((c.call step).execute rounds depth)
          (t₁ ++ starts command process :: t₂) r' ∧
        r = r'.map (Outcome.ofNested (c.call step).id) ∧
        (∃ event, u = telling c.run event :: c.relayed step t₁) ∧ v = c.relayed step t₂ := by
  generalize ht : u ++ starts command process :: v = t at h
  have hmem : starts command process ∈ t := ht ▸ List.mem_append_right _ (List.mem_cons_self ..)
  have hlaunch : ∀ reply, starts command process ∈ c.launching step reply →
      reply = .started process := by
    intro reply hmem
    rcases List.mem_cons.1 hmem with h | h
    · cases h
    · cases List.mem_singleton.1 h
      rfl
  cases h with
  | unknown => cases hmem
  | crashed => cases hlaunch _ hmem
  | refused => cases hlaunch _ hmem
  | followed process' work outcome _ hwork =>
      refine .inl ⟨outcome, rfl, ?_⟩
      -- the announcement is all that comes before
      match u with
      | [] => cases (List.cons.inj ht).1
      | [_] =>
          cases ht
          rfl
      | _ :: _ :: u =>
          have hrest : u ++ starts command process :: v = work :=
            (List.cons.inj (List.cons.inj ht).2).2
          cases hwork _ (hrest ▸ List.mem_append_right _ (List.mem_cons_self ..))
  | @nested t r' _ hyields =>
      cases u with
      | nil => cases (List.cons.inj ht).1
      | cons first u =>
          obtain ⟨hfirst, hrest⟩ := List.cons.inj ht
          obtain ⟨t₁, t₂, rfl, rfl, rfl⟩ := relayed_eq_append_cons (by rintro event ⟨⟩) hrest.symm
          exact .inr ⟨t₁, t₂, r', hyields, rfl, ⟨_, by rw [hfirst]; rfl⟩, rfl⟩

/-- A command is started in a run by one of its deeds, which runs a step. -/
theorem Call.Ran.of_starts {k : Call} {deeds : List Deed} {before after : Transcript Query.Reply}
    {r : Except Break Status}
    (h : k.Ran rounds depth c deeds (before ++ starts command process :: after) r) :
    ∃ first deeds₁ p deeds₂ u v step r_p, k.Begins c first ∧ deeds = deeds₁ ++ p :: deeds₂ ∧
      before = first ++ (deeds₁.flatMap Prod.snd ++ u) ∧ after = v ++ deeds₂.flatMap Prod.snd ∧
      p.1.1.step? = some step ∧ Course.result? p.1 = some r_p ∧
      c.Stepped rounds depth step (u ++ starts command process :: v) r_p := by
  obtain ⟨first, hbegins, ht⟩ := h.begins
  rcases append_eq_append_cons ht.symm with ⟨es, hfirst, -⟩ | ⟨es, rfl, hdeeds⟩
  · have hmem : starts command process ∈ first :=
      hfirst ▸ List.mem_append_right _ (List.mem_cons_self ..)
    obtain ⟨w, globals, executionId, -, rfl⟩ := hbegins
    simp [Call.beginning, starts] at hmem
  · obtain ⟨deeds₁, p, deeds₂, u, v, rfl, hp, rfl, rfl⟩ := flatMap_eq_append_cons hdeeds
    obtain ⟨step, r_p, hstep, hresult, hstepped⟩ :=
      (h.does p (List.mem_append_right _ (List.mem_cons_self ..))).stepped
        (hp ▸ List.mem_append_right _ (List.mem_cons_self ..)) (by rintro ⟨⟩)
        (by rintro event ⟨⟩)
    exact ⟨first, deeds₁, p, deeds₂, u, v, step, r_p, hbegins, rfl, rfl, rfl, hstep, hresult,
      hp ▸ hstepped⟩

/-! ### The runs that wait for a command -/

/-- The run that started a command is under way, having announced it last, and so is a run at each
depth from a given one down to its own. -/
def Owns (t : Transcript Query.Reply) (command : String) (outermost : Nat) (owner : Identity) :
    Prop :=
  (∃ since stepId, UnderWay t owner since ∧
    (told owner since).getLast? = some (announcing stepId command)) ∧
  ∀ n, outermost ≤ n → n ≤ owner.depth → ∃ run since, run.depth = n ∧ UnderWay t run since

/-- A run is under way as long as one of its steps is run. -/
theorem underWay_of_stepped {k : Call} {first : Transcript Query.Reply} {deeds₁ deeds₂ : List Deed}
    {p : Deed} {t : Transcript Query.Reply} {r : Except Break Status} {r_p : Except Break Outcome}
    (h : k.Ran rounds depth c (deeds₁ ++ p :: deeds₂) t r) (hbegins : k.Begins c first)
    (hstep : p.1.1.step? = some step) (hstepped : c.Stepped rounds depth step (u ++ v) r_p) :
    UnderWay (first ++ (deeds₁.flatMap Prod.snd ++ u)) c.run (deeds₁.flatMap Prod.snd ++ u) := by
  have hplace : c.run.depth < c.chain.length := by
    rw [h.place.2]
    exact Nat.lt_succ_self _
  have hstill : Course.Still (deeds₁.map Prod.fst) := by
    have hwhole := h.whole
    rw [List.map_append, List.map_cons] at hwhole
    exact hwhole.still_before hstep
  -- so far the run has only made known what is quiet, and closing is not
  have hquiet : Quiet (told c.run (deeds₁.flatMap Prod.snd ++ u)) := by
    have hu := quiet_told_stepped hplace hstepped
    rw [told_append] at hu ⊢
    exact quiet_append_iff.2 ⟨quiet_told_deeds hplace
      (List.forall_mem_append.1 h.does).1 hstill, (quiet_append_iff.1 hu).1⟩
  obtain ⟨before, rfl⟩ := hbegins.began
  refine ⟨before, c.scope, by simp, fun hclosed => ?_⟩
  cases hquiet _ (mem_told_iff.2 hclosed)

theorem exists_owner {k : Call} {before after : Transcript Query.Reply}
    {r : Except Break (Except Failure Status)}
    (h : Yields (k.execute rounds depth) (before ++ starts command process :: after) r) :
    ∃ owner, Owns before command k.chain.length owner := by
  induction depth generalizing k before after r with
  | zero =>
      have hnil := (yields_throw_iff.1 h).1
      simp at hnil
  | succ depth ih =>
      obtain ⟨c, deeds, r, hran, -⟩ := k.ran_of_mem h
        (List.mem_append_right _ (List.mem_cons_self ..)) (by rintro id ⟨⟩)
      obtain ⟨hdepth, hlength⟩ := hran.place
      obtain ⟨first, deeds₁, p, deeds₂, u, v, step, r_p, hbegins, rfl, rfl, rfl, hstep, -,
        hstepped⟩ := hran.of_starts
      have hway := underWay_of_stepped hran hbegins hstep hstepped
      rcases hstepped.of_starts with ⟨outcome, -, rfl⟩ | ⟨t₁, t₂, r', hyields, -, ⟨event, rfl⟩, -⟩
      -- the run itself started the command
      · refine ⟨c.run, ⟨_, step.id, hway, ?_⟩, fun n hge hle => ⟨c.run, _, ?_, hway⟩⟩
        · rw [told_append, telling, told_cons_self, told_nil, List.getLast?_concat]
        · omega
      -- a run inside it did; what is under way there is under way here
      · have hlift : ∀ {run since}, UnderWay t₁ run since → run ≠ c.run ∧
            UnderWay (first ++ (deeds₁.flatMap Prod.snd ++
              telling c.run event :: c.relayed step t₁)) run (c.relayed step since) := by
          intro run since hinner
          obtain ⟨scope, hmem⟩ := hinner.mem
          have hrun : run ≠ c.run := by
            rintro rfl
            exact Nat.lt_irrefl _
              (depth_lt_of_began (by omega) hyields (List.mem_append_left _ hmem))
          exact ⟨hrun, (((hinner.relayed hrun).after [telling c.run event]).after _).after _⟩
        obtain ⟨owner, ⟨since, stepId, howner, hannounced⟩, haround⟩ := ih hyields
        obtain ⟨hne, howner'⟩ := hlift howner
        refine ⟨owner, ⟨_, stepId, howner', by rwa [told_relayed hne]⟩, fun n hge hle => ?_⟩
        -- at its own depth it is this run, further in one of the runs inside it
        rcases Nat.eq_or_lt_of_le hge with rfl | hlt
        · exact ⟨c.run, _, hdepth, hway⟩
        · obtain ⟨run, since, hrun, hinner⟩ :=
            haround n (Nat.le_trans (Nat.le_of_eq (hlength.trans (by omega))) hlt) hle
          exact ⟨run, _, hrun, (hlift hinner).2⟩

end Starts

/-! ## Cancelling while a command runs -/

/-- What a run makes known ends as that of a cancelled run, and no other status was set before. -/
def EndsCancelled (events : List Event) : Prop :=
  ∃ during stepId, events = during ++ cancelledFarewell stepId ++ [.closed] ∧
    ∀ status stepId, .finished status stepId ∉ during

/-- A run that is cancelled makes that known. -/
theorem endsCancelled_of_ran {k : Call} {rounds depth : Nat} {c : Context} {deeds : List Deed}
    {t : Transcript Query.Reply} (h : k.Ran rounds depth c deeds t (.ok .cancelled)) :
    EndsCancelled (told c.run t) := by
  obtain ⟨during, last, htold, hquiet, hparting⟩ := told_of_ran h
  cases hparting with
  | cancelled stepId _ =>
      refine ⟨Course.firstRemark c.workflow :: during, stepId, htold, fun status stepId hmem => ?_⟩
      have hquiet : Quiet (Course.firstRemark c.workflow :: during) :=
        quiet_cons_iff.2 ⟨isQuiet_remark (by decide), hquiet⟩
      cases hquiet _ hmem

/-- No check lets a run go on. -/
def IsSet (t : Transcript Query.Reply) : Prop := ⟨.cancelRequested, false⟩ ∉ t

theorem isSet_append {t u : Transcript Query.Reply} : IsSet (t ++ u) ↔ IsSet t ∧ IsSet u := by
  simp only [IsSet, List.mem_append, not_or]

theorem goAhead_notMem_of_isSet {t : Transcript Query.Reply} (h : IsSet t) :
    .goAhead ∉ signals t := by
  intro hmem
  obtain ⟨⟨q, reply⟩, hx, hsignal⟩ := List.mem_filterMap.1 hmem
  cases q with
  | cancelRequested =>
      cases reply with
      | true => cases hsignal
      | false => exact h hx
  | _ => cases hsignal

theorem goAhead_notMem_deeds {c : Context} {rounds depth : Nat} {deeds : List Deed}
    (hdoes : ∀ p ∈ deeds, c.Does rounds depth p) (hset : IsSet (deeds.flatMap Prod.snd)) :
    .goAhead ∉ Course.signals (deeds.map Prod.fst) := by
  intro hmem
  obtain ⟨x, hx, hsignal⟩ := List.mem_filterMap.1 hmem
  obtain ⟨p, hp, rfl⟩ := List.mem_map.1 hx
  have hpiece := hdoes p hp
  refine hset (List.mem_flatMap.2 ⟨p, hp, ?_⟩)
  -- a check of the course is a check of the execution
  cases hpiece with
  | check requested =>
      cases requested with
      | true => cases hsignal
      | false => exact List.mem_singleton_self _
  | tell => cases hsignal
  | turn => cases hsignal
  | aside => cases hsignal

/-- A course that starts no step makes nothing known of other runs. -/
theorem told_deeds_of_not_start {c : Context} {rounds depth : Nat} {deeds : List Deed}
    {run : Identity} (hdoes : ∀ p ∈ deeds, c.Does rounds depth p)
    (hstart : .start ∉ Course.signals (deeds.map Prod.fst)) (hrun : run ≠ c.run) :
    told run (deeds.flatMap Prod.snd) = [] := by
  refine told_eq_nil fun x hx event => ?_
  obtain ⟨p, hp, hx⟩ := List.mem_flatMap.1 hx
  have hstarts : Course.signal? p.1 ≠ some .start := fun h =>
    hstart (List.mem_filterMap.2 ⟨p.1, List.mem_map_of_mem hp, h⟩)
  have hpiece := hdoes p hp
  cases hpiece with
  | check => rw [List.mem_singleton.1 hx]; rintro ⟨⟩
  | tell => rw [List.mem_singleton.1 hx]; rintro ⟨⟩; exact hrun rfl
  | turn => exact absurd rfl hstarts
  | aside => exact absurd rfl hstarts

/-- If no check lets a run go on once a step has started a command, the step comes to an outcome, and
the runs under way in it are cancelled. -/
theorem Context.Stepped.cancelled_of_starts {c : Context} {rounds depth : Nat} {step : Step}
    {u v : Transcript Query.Reply} {r : Except Break Outcome} {command : String}
    {process : Process} (hplace : c.run.depth < c.chain.length)
    (hnested : ∀ {t₁ t₂ : Transcript Query.Reply} {r : Except Break (Except Failure Status)},
      Yields ((c.call step).execute rounds depth) (t₁ ++ starts command process :: t₂) r →
        IsSet t₂ → r = .ok (.ok .cancelled) ∧ ∀ run since, UnderWay t₁ run since →
          EndsCancelled (told run (since ++ starts command process :: t₂)))
    (h : c.Stepped rounds depth step (u ++ starts command process :: v) r) (hset : IsSet v) :
    (∃ outcome, r = .ok outcome) ∧ ∀ run since, UnderWay u run since →
      run ≠ c.run ∧ EndsCancelled (told run (since ++ starts command process :: v)) := by
  rcases h.of_starts with ⟨outcome, rfl, rfl⟩ | ⟨t₁, t₂, r', hyields, rfl, ⟨event, rfl⟩, rfl⟩
  · refine ⟨⟨outcome, rfl⟩, fun run since hway => ?_⟩
    obtain ⟨scope, hmem⟩ := hway.mem
    cases List.mem_singleton.1 hmem
  · obtain ⟨rfl, hways⟩ := hnested hyields fun hmem => hset (c.mem_relayed hmem)
    refine ⟨⟨_, rfl⟩, fun run since hway => ?_⟩
    obtain ⟨since, hinner, rfl⟩ := hway.of_relayed
    have hrun : run ≠ c.run := by
      rintro rfl
      obtain ⟨scope, hmem⟩ := hinner.mem
      exact Nat.lt_irrefl _ (depth_lt_of_began hplace hyields (List.mem_append_left _ hmem))
    have hsame : told run (c.relayed step since ++ starts command process :: c.relayed step t₂) =
        told run (since ++ starts command process :: t₂) := by
      simp only [told_append, told_starts, told_relayed hrun]
    exact ⟨hrun, hsame ▸ hways run since hinner⟩

/-- If no check lets a run go on once a command was started, the execution is cancelled, and so is
each run that was under way. -/
theorem cancelled_of_starts {rounds depth : Nat} {k : Call} {before after : Transcript Query.Reply}
    {command : String} {process : Process} {r : Except Break (Except Failure Status)}
    (h : Yields (k.execute rounds depth) (before ++ starts command process :: after) r)
    (hset : IsSet after) :
    r = .ok (.ok .cancelled) ∧ ∀ run since, UnderWay before run since →
      EndsCancelled (told run (since ++ starts command process :: after)) := by
  induction depth generalizing k before after r with
  | zero =>
      have hnil := (yields_throw_iff.1 h).1
      simp at hnil
  | succ depth ih =>
      obtain ⟨c, deeds, r, hran, rfl⟩ := k.ran_of_mem h
        (List.mem_append_right _ (List.mem_cons_self ..)) (by rintro id ⟨⟩)
      obtain ⟨first, deeds₁, p, deeds₂, u, v, step, r_p, hbegins, rfl, rfl, rfl, -, hresult,
        hstepped⟩ := hran.of_starts
      have hplace : c.run.depth < c.chain.length := by
        rw [hran.place.2]
        exact Nat.lt_succ_self _
      have hdoes₂ : ∀ q ∈ deeds₂, c.Does rounds depth q :=
        (List.forall_mem_cons.1 (List.forall_mem_append.1 hran.does).2).2
      obtain ⟨hset_v, hset₂⟩ := isSet_append.1 hset
      -- the step comes to an outcome, so the check behind it cancels the run
      obtain ⟨⟨outcome, rfl⟩, hways⟩ :=
        hstepped.cancelled_of_starts hplace (fun ht hset => ih ht hset) hset_v
      have hwhole := hran.whole
      rw [List.map_append, List.map_cons] at hwhole
      obtain ⟨rfl, hstart⟩ :=
        hwhole.cancelled_of_result hresult (goAhead_notMem_deeds hdoes₂ hset₂)
      refine ⟨rfl, fun run since hway => ?_⟩
      rcases hran.underWay hbegins hway with ⟨rfl, rfl⟩ | hinner
      · have hown := endsCancelled_of_ran hran
        rwa [List.append_assoc, told_append, hbegins.told_eq_nil, List.nil_append] at hown
      -- a run inside the step is closed when the step comes to its outcome
      · obtain ⟨hrun, hends⟩ := hways run since hinner
        have hsame : told run (since ++ starts command process ::
            (v ++ deeds₂.flatMap Prod.snd)) =
              told run (since ++ starts command process :: v) := by
          rw [← List.cons_append, ← List.append_assoc, told_append,
            told_deeds_of_not_start hdoes₂ hstart hrun, List.append_nil]
        exact hsame ▸ hends

/-! ## Cancellation stops an execution -/

/-- A command is to be started. -/
def isLaunch (x : Exchange Query.Reply) : Bool :=
  match x.1 with
  | .launch _ => true
  | _ => false

theorem countP_isLaunch (t : Transcript Query.Reply) :
    t.countP isLaunch = (signals t).count .start := by
  induction t with
  | nil => rfl
  | cons x t ih =>
      rw [List.countP_cons, signals_cons, List.count_append, ih, Nat.add_comm]
      congr 1
      obtain ⟨q, reply⟩ := x
      cases q with
      | cancelRequested => cases reply <;> rfl
      | _ => rfl

theorem countP_isLaunch_le {busy : Bool} {t : Transcript Query.Reply} (h : Apart busy (signals t))
    (hset : IsSet t) : t.countP isLaunch ≤ if busy then 0 else 1 :=
  countP_isLaunch t ▸ h.count_le (goAhead_notMem_of_isSet hset)

theorem isSet_of_not_check {t : Transcript Query.Reply} (h : ∀ x ∈ t, x.1 ≠ .cancelRequested) :
    IsSet t := fun hmem => h _ hmem rfl

/-- A dialogue can be carried on to its end with all checks told that the run is to stop. -/
theorem exists_ends_isSet {α : Type} {d : Dialogue Query.Reply α} :
    ∃ u a, Ends d u a ∧ IsSet u := by
  let reply := steady (fun _ => none) true (.refused "")
  refine ⟨d.transcript reply, d.result reply, Dialogue.ends_transcript reply d, fun hmem => ?_⟩
  cases Dialogue.mem_transcript hmem

/-- When the runs of an execution are to stop, at most one more command is started in all of them. If
a command was running then, none is, and the run that owns the command and each run around it are
under way and end as cancelled. -/
theorem cancellation_stops_execution {rounds depth : Nat} {id : String} {inputs : Scope}
    {before after : Transcript Query.Reply}
    {rest : Dialogue Query.Reply (Except Break (Except Failure Status))}
    (h : Goes (execute rounds depth [] id inputs).run (before ++ after) rest)
    (hset : IsSet after) :
    after.countP isLaunch ≤ 1 ∧
      ∀ earlier command process meanwhile,
        before = earlier ++ starts command process :: meanwhile →
        (∀ x ∈ meanwhile, x.1 ≠ .cancelRequested) →
        after.countP isLaunch = 0 ∧ (∃ owner, Owns earlier command 0 owner) ∧
          (∃ u r, Ends rest u r ∧ IsSet u) ∧
          ∀ u r, Ends rest u r → IsSet u →
            r = .ok (.ok .cancelled) ∧ ∀ run since, UnderWay earlier run since →
              EndsCancelled
                (told run (since ++ starts command process :: (meanwhile ++ (after ++ u)))) := by
  have hwhole : ∀ {u r}, Ends rest u r →
      Yields ((⟨[], id, inputs⟩ : Call).execute rounds depth) (before ++ (after ++ u)) r := by
    intro u r hu
    rw [← List.append_assoc]
    exact Dialogue.goes_append_iff.2 ⟨rest, h, hu⟩
  -- the rules speak of executions that have ended, so this one is carried on
  obtain ⟨u, r, hu, hset_u⟩ := exists_ends_isSet (d := rest)
  have happart := apart_of_yields (hwhole hu)
  have hset' := isSet_append.2 ⟨hset, hset_u⟩
  have hcount : after.countP isLaunch ≤ (after ++ u).countP isLaunch := by
    rw [List.countP_append]
    exact Nat.le_add_right _ _
  refine ⟨?_, ?_⟩
  · rw [signals_append] at happart
    obtain ⟨busy, hafter⟩ := happart.of_append
    refine Nat.le_trans hcount (Nat.le_trans (countP_isLaunch_le hafter hset') ?_)
    split <;> omega
  · rintro earlier command process meanwhile rfl hmeanwhile
    have hset_meanwhile := isSet_of_not_check hmeanwhile
    have hyields : ∀ {u r}, Ends rest u r → Yields ((⟨[], id, inputs⟩ : Call).execute rounds depth)
        (earlier ++ starts command process :: (meanwhile ++ (after ++ u))) r := by
      intro u r hu
      have hu := hwhole hu
      rwa [List.append_assoc, List.cons_append] at hu
    refine ⟨?_, exists_owner (hyields hu), ⟨u, r, hu, hset_u⟩, fun u r hu hset_u => ?_⟩
    · rw [List.append_assoc, List.cons_append, signals_append, signals_cons] at happart
      obtain ⟨busy, -, hafter⟩ := happart.of_append
      have hle := countP_isLaunch_le hafter (isSet_append.2 ⟨hset_meanwhile, hset'⟩)
      rw [List.countP_append] at hle
      simp only [if_true] at hle
      omega
    · exact cancelled_of_starts (hyields hu)
        (isSet_append.2 ⟨hset_meanwhile, isSet_append.2 ⟨hset, hset_u⟩⟩)

/-- A workflow of one command. -/
def oneCommand : Workflow := { id := "a", steps := [{ id := "only", content := "true" }] }

/-- The command of a run lasts while the run is told to stop. -/
theorem cancellation_stops_execution_oneCommand :
    ∃ earlier command process meanwhile after,
      Ends (execute 2 1 [] "a" []).run ((earlier ++ starts command process :: meanwhile) ++ after)
        (.ok (.ok .cancelled)) ∧
      IsSet after ∧ after.countP isLaunch = 0 := by
  let process : Process := .lasts 1 fun stopped => .ended 0 stopped
  let reply := steady (fun _ => some oneCommand) false (.started process)
  let t := (execute 2 1 [] "a" []).run.transcript reply
  have hends := Dialogue.ends_transcript reply (execute 2 1 [] "a" []).run
  rw [← List.take_append_drop 9 (Dialogue.transcript _ _)] at hends
  obtain ⟨rest, hgoes, -⟩ := Dialogue.goes_append_iff.1 hends
  have hcut : t.take 9 = t.take 7 ++ starts (Template.fill "true" []) process ::
      [⟨.wait 1, false⟩] := rfl
  rw [hcut] at hgoes
  obtain ⟨after, r, hafter, hset⟩ := exists_ends_isSet (d := rest)
  have hall := Dialogue.goes_append_iff.2 ⟨rest, hgoes, hafter⟩
  obtain ⟨hnone, -, -, hcancelled⟩ :=
    (cancellation_stops_execution hall hset).2 _ _ _ _ rfl (by simp)
  obtain ⟨rfl, -⟩ := hcancelled [] r (.here _) (by simp [IsSet])
  exact ⟨_, _, _, _, after, hall, hset, hnone⟩

end Runbook.Run
