import Runbook.Proofs.Run.Ancestry
import Runbook.Proofs.Run.Ending
import Runbook.Proofs.Run.Nesting

/-!
# A nested run and the run of its workflow alone

A run makes known its own log, and all that the runs inside it make known comes from deeper down
(`Call.Ran.teller`). So what a step repeats of a nested run is the log of that run and nothing else
(`logOf_told_relayed`), and a line of a run comes to the outermost one with two spaces for each run in
between (`Stands.sublist_messages`).

`nested_run_is_run_alone` adds that the nested run itself goes as an execution of its workflow alone
with the variables of the run around it, by `alike_execute`. The exception are messages for cycles,
which list the runs around the nested run as well; `cycle_names_callers` shows such a message.
-/

set_option autoImplicit false

namespace Runbook.Run

/-! ## Logs -/

@[simp] theorem logOf_append (as bs : List Event) : logOf (as ++ bs) = logOf as ++ logOf bs :=
  List.filterMap_append

theorem logOf_remark (stepId message : String) (level : Level) (events : List Event) :
    logOf (remark stepId message level :: events) = ⟨stepId, level, message⟩ :: logOf events := rfl

/-- An entry of a nested run as the step that started the run repeats it. -/
def Entry.repeated (stepId : String) (e : Entry) : Entry := ⟨stepId, .info, "  " ++ e.message⟩

section Relayed

variable {c : Context} {step : Step} {run : Identity}

/-- A nested run is repeated entry by entry, and nothing but its own entries is. -/
theorem logOf_told_relayed {t : Transcript Query.Reply} (hdepth : run.depth = c.run.depth + 1)
    (hteller : ∀ teller event, ⟨.tell teller event, ()⟩ ∈ t → teller = run ∨
      run.depth < teller.depth) :
    logOf (told c.run (c.relayed step t)) = (logOf (told run t)).map (Entry.repeated step.id) := by
  induction t with
  | nil => rfl
  | cons x t ih =>
      have hrest := ih fun teller event hmem => hteller teller event (List.mem_cons_of_mem _ hmem)
      obtain ⟨q, reply⟩ := x
      rw [Context.relayed, List.flatMap_cons, ← Context.relayed, List.cons_append]
      cases q with
      | tell teller event =>
          have hother : ∀ event', Query.tell teller event ≠ .tell c.run event' := by
            rintro event' ⟨⟩
            rcases hteller _ _ (List.mem_cons_self ..) with h | h
            · rw [h] at hdepth
              omega
            · omega
          rw [told_cons_of_ne _ hother, told_append, logOf_append, hrest]
          rcases hteller _ _ (List.mem_cons_self ..) with rfl | hdeeper
          -- the nested run itself, or a run inside it, which is not repeated here
          · rw [told_cons_self]
            cases event with
            | entry e isOutput =>
                rw [Context.echoes, if_pos (by simpa using hdepth), told_cons_self]
                rfl
            | _ => rfl
          · have hne : ∀ event', Query.tell teller event ≠ .tell run event' := by
              rintro event' ⟨⟩
              omega
            rw [told_cons_of_ne _ hne]
            cases event with
            | entry e isOutput =>
                rw [Context.echoes, if_neg (by simp only [beq_iff_eq]; omega)]
                rfl
            | _ => rfl
      | _ => exact hrest

end Relayed

section Ran

variable {rounds depth : Nat} {k : Call} {c : Context} {deeds : List Deed}
  {t : Transcript Query.Reply} {r : Except Break Status}

/-- In a run it is the run itself that makes something known, or a run inside it. -/
theorem Call.Ran.teller (h : k.Ran rounds depth c deeds t r) {teller : Identity} {event : Event}
    (hmem : ⟨.tell teller event, ()⟩ ∈ t) : teller = c.run ∨ c.run.depth < teller.depth := by
  by_cases hself : teller = c.run
  · exact .inl hself
  · right
    obtain ⟨first, ⟨w, globals, executionId, hc, rfl⟩, rfl⟩ := h.begins
    have hne : ∀ event', Query.tell teller event ≠ .tell c.run event' := by
      rintro event' ⟨⟩
      exact hself rfl
    rcases List.mem_append.1 hmem with hfirst | hdeed
    · simp [Call.beginning] at hfirst
    -- another run makes itself known only inside a step
    · obtain ⟨p, hp, hx⟩ := List.mem_flatMap.1 hdeed
      obtain ⟨step, r, -, -, hstepped⟩ := (h.does p hp).stepped hx (by rintro ⟨⟩) hne
      rcases hstepped.mem_cases hx with ⟨event', hx⟩ | ⟨command, hx⟩ | hwork |
        ⟨-, t', r', hyields, -, -, hx⟩
      · exact absurd hx (hne event')
      · cases hx
      · cases event with
        | entry e isOutput =>
            simp only [Context.isWork, Bool.and_eq_true, beq_iff_eq] at hwork
            exact absurd hwork.1 hself
        | _ => cases hwork
      · have hle := atLeast_of_yields hyields _ hx _ rfl
        have hplace := h.place
        simp only [Context.call] at hle
        omega

/-- What a run makes known it makes known by its deeds. -/
theorem Call.Ran.told_eq (h : k.Ran rounds depth c deeds t r) (run : Identity) :
    told run t = told run (deeds.flatMap Prod.snd) := by
  obtain ⟨first, hbegins, rfl⟩ := h.begins
  rw [told_append, hbegins.told_eq_nil, List.nil_append]

/-- The log of a step that starts a nested run is that of the nested run, indented. -/
theorem logOf_told_of_nested {step : Step} {child : Context} {childDeeds : List Deed}
    {t' : Transcript Query.Reply} {r' : Except Break Status} {left : Nat}
    (hplace : c.chain.length = c.run.depth + 1)
    (h : (c.call step).Ran rounds left child childDeeds t' r') :
    logOf (told c.run (c.naming step :: c.relayed step t')) =
      ⟨step.id, .info, "Executing sub-workflow: " ++ (c.call step).id⟩ ::
        (logOf (told child.run t')).map (Entry.repeated step.id) := by
  rw [Context.naming, told_cons_self, logOf_remark, logOf_told_relayed ?_ ?_]
  · rw [h.place.1, ← hplace]
    rfl
  · exact fun teller event hmem => h.teller hmem

end Ran

/-! ## Lines of nested runs in the outermost one -/

/-- The lines of a log. -/
def messages (run : Identity) (t : Transcript Query.Reply) : List String :=
  (logOf (told run t)).map Entry.message

/-- A number of spaces. -/
def spaces (n : Nat) : String := String.ofList (List.replicate n ' ')

theorem spaces_two_mul_succ (d : Nat) (line : String) :
    spaces (2 * (d + 1)) ++ line = "  " ++ (spaces (2 * d) ++ line) := by
  rw [← String.toList_inj]
  simp [spaces, Nat.mul_add, Nat.add_comm _ 2, List.replicate_add]

theorem Call.Ran.messages_eq {rounds depth : Nat} {k : Call} {c : Context} {deeds : List Deed}
    {t : Transcript Query.Reply} {r : Except Break Status} (h : k.Ran rounds depth c deeds t r)
    (run : Identity) : messages run t = messages run (deeds.flatMap Prod.snd) := by
  rw [messages, h.told_eq, messages]

theorem messages_sublist_of_mem {run : Identity} {deeds : List Deed} {p : Deed} (hp : p ∈ deeds) :
    (messages run p.2).Sublist (messages run (deeds.flatMap Prod.snd)) := by
  obtain ⟨before, after, rfl⟩ := List.append_of_mem hp
  simp only [messages, List.flatMap_append, List.flatMap_cons, told_append, logOf_append,
    List.map_append]
  exact (List.sublist_append_left _ _).trans (List.sublist_append_right _ _)

/-- The outermost of some runs inside one another is that of the execution. -/
theorem Stands.outermost {rounds depth left : Nat} {k : Call} {t : Transcript Query.Reply}
    {stack : List Context} {deeds : List Deed} (h : Stands rounds depth k t stack left deeds) :
    ∃ c inner depth' deeds' r, stack = c :: inner ∧ k.Ran rounds depth' c deeds' t r := by
  cases h with
  | own hran => exact ⟨_, [], _, _, _, rfl, hran⟩
  | nested hran => exact ⟨_, _, _, _, _, rfl, hran⟩

/-- The lines of the innermost of some runs inside one another are lines of the outermost one, with
two spaces for each run that is nested. -/
theorem Stands.sublist_messages {rounds depth left : Nat} {k : Call} {t : Transcript Query.Reply}
    {stack : List Context} {deeds : List Deed} (h : Stands rounds depth k t stack left deeds) :
    ∃ outermost innermost, stack.head? = some outermost ∧ stack.getLast? = some innermost ∧
      ((messages innermost.run (deeds.flatMap Prod.snd)).map
        (spaces (2 * (stack.length - 1)) ++ ·)).Sublist (messages outermost.run t) := by
  induction h with
  | @own depth k c deeds t r hran =>
      refine ⟨c, c, rfl, rfl, ?_⟩
      have hsame : (spaces (2 * ([c].length - 1)) ++ ·) = id :=
        funext fun line => String.empty_append
      rw [hsame, List.map_id, hran.messages_eq]
  | @nested depth left k c deeds deeds' t t' r r' p step stack hran hp _ _ hpiece _ hstands ih =>
      obtain ⟨child, innermost, hhead, hlast, hsub⟩ := ih
      obtain ⟨child', inner, depth', childDeeds, r', rfl, hchild⟩ := hstands.outermost
      obtain rfl : child' = child := Option.some.inj hhead
      refine ⟨c, innermost, rfl, by rw [List.getLast?_cons, hlast]; rfl, ?_⟩
      -- the lines are indented once more on the way from the nested run to this one
      have hindent : (spaces (2 * ((c :: child' :: inner).length - 1)) ++ ·) =
          ("  " ++ ·) ∘ (spaces (2 * ((child' :: inner).length - 1)) ++ ·) :=
        funext fun line => spaces_two_mul_succ _ line
      have hlog : messages c.run p.2 = ("Executing sub-workflow: " ++ (c.call step).id) ::
          (messages child'.run t').map ("  " ++ ·) := by
        rw [hpiece, messages, logOf_told_of_nested hran.place.2 hchild, List.map_cons, messages,
          List.map_map, List.map_map]
        rfl
      rw [hindent, ← List.map_map, hran.messages_eq]
      refine ((hsub.map _).trans ?_).trans (messages_sublist_of_mem hp)
      rw [hlog]
      exact List.sublist_cons_self _ _

/-! ## The run alone -/

/-- Entries are the same but for their messages, which are alike. -/
structure EntryLike (pre : List String) (e e' : Entry) : Prop where
  stepId : e.stepId = e'.stepId
  level : e.level = e'.level
  message : MessageLike pre e.message e'.message

section Alone

variable {pre : List String} {t u : Transcript Query.Reply}

theorem forall₂_told (h : List.Forall₂ (queryLikeness pre).Match t u) (run : Identity) :
    List.Forall₂ (EventLike pre) (told (run.below pre.length) t) (told run u) := by
  induction h with
  | nil => exact .nil
  | @cons x y t u hxy _ ih =>
      obtain ⟨q, reply⟩ := x
      obtain ⟨q', reply'⟩ := y
      have hasked : QueryLike pre q q' := hxy.asked
      cases hasked with
      | same q hq =>
          rw [told_cons_of_ne, told_cons_of_ne]
          · exact ih
          · rintro event rfl
            cases hq
          · rintro event rfl
            cases hq
      | begin => exact ih
      | tell teller hevent =>
          by_cases hself : teller = run
          · subst hself
            rw [told_cons_self, told_cons_self]
            exact .cons hevent ih
          · rw [told_cons_of_ne, told_cons_of_ne]
            · exact ih
            · rintro event ⟨⟩
              exact hself rfl
            · rintro event heq
              refine hself ?_
              obtain ⟨hrun, -⟩ := Query.tell.inj heq
              cases teller
              cases run
              simp only [Identity.below, Identity.mk.injEq, Nat.add_left_cancel_iff] at hrun ⊢
              exact hrun

theorem forall₂_logOf {events events' : List Event}
    (h : List.Forall₂ (EventLike pre) events events') :
    List.Forall₂ (EntryLike pre) (logOf events) (logOf events') := by
  induction h with
  | nil => exact .nil
  | cons hevent _ ih =>
      cases hevent with
      | entry stepId level isOutput hmessage => exact .cons ⟨rfl, rfl, hmessage⟩ ih
      | same =>
          rename_i event _ _ _
          cases event with
          | entry e isOutput => exact .cons ⟨rfl, rfl, .same _⟩ ih
          | _ => exact ih

/-- A run inside other runs begins as the run alone. -/
theorem inside_of_match {rounds depth rounds' depth' : Nat} {id : String} {inputs : Scope}
    {c c' : Context} {deeds deeds' : List Deed} {r r' : Except Break Status}
    (h : (⟨pre, id, inputs⟩ : Call).Ran rounds depth c deeds t r)
    (h' : (⟨[], id, inputs⟩ : Call).Ran rounds' depth' c' deeds' u r')
    (hmatch : List.Forall₂ (queryLikeness pre).Match t u) : c = c'.inside pre := by
  obtain ⟨first, ⟨w, globals, executionId, rfl, rfl⟩, rfl⟩ := h.begins
  obtain ⟨first', ⟨w', globals', executionId', rfl, rfl⟩, rfl⟩ := h'.begins
  obtain ⟨hworkflow, hrest⟩ := List.forall₂_cons.1 hmatch
  obtain ⟨hglobals, hrest⟩ := List.forall₂_cons.1 hrest
  obtain ⟨hbegin, -⟩ := List.forall₂_cons.1 hrest
  cases eq_of_heq hworkflow.replied
  cases eq_of_heq hglobals.replied
  cases eq_of_heq hbegin.replied
  simp [Context.inside, Call.context, Identity.below]

end Alone

/-! ## Both together -/

section Stands

variable {rounds depth left : Nat} {k : Call} {t : Transcript Query.Reply} {stack : List Context}
  {deeds : List Deed} {c : Context}

theorem Stands.place (h : Stands rounds depth k t stack left deeds) (hlast : stack.getLast? = some c) :
    c.chain.length = c.run.depth + 1 := by
  induction h with
  | own hran =>
      cases hlast
      exact hran.place.2
  | nested _ _ _ _ _ _ hstands ih =>
      obtain ⟨child, inner, -, -, -, rfl, -⟩ := hstands.outermost
      exact ih (by rwa [List.getLast?_cons_cons] at hlast)

/-- A nested run of the innermost run stands in one run more. -/
theorem Stands.snoc (h : Stands rounds depth k t stack (left + 1) deeds)
    (hlast : stack.getLast? = some c) {p : Deed} (hp : p ∈ deeds) {step : Step}
    (hstep : p.1.1.step? = some step) (hwork : step.work = .workflow)
    {t' : Transcript Query.Reply} (hpiece : p.2 = c.naming step :: c.relayed step t')
    {r' : Except Break (Except Failure Status)}
    (hyields : Yields ((c.call step).execute rounds (left + 1)) t' r') {child : Context}
    {childDeeds : List Deed} {r : Except Break Status}
    (hchild : (c.call step).Ran rounds left child childDeeds t' r) :
    Stands rounds depth k t (stack ++ [child]) left childDeeds := by
  generalize hmore : left + 1 = more at h
  induction h with
  | own hran =>
      subst hmore
      cases hlast
      exact .nested hran hp hstep hwork hpiece hyields (.own hchild)
  | nested hran hp' hstep' hwork' hpiece' hyields' hstands ih =>
      obtain ⟨inner, rest, -, -, -, rfl, -⟩ := hstands.outermost
      exact .nested hran hp' hstep' hwork' hpiece' hyields'
        (ih (by rwa [List.getLast?_cons_cons] at hlast) hp hmore)

/-- Only a step that names a workflow asks for one. -/
theorem Context.Stepped.work_of_asked {rounds depth : Nat} {step : Step}
    {r : Except Break Outcome} (h : c.Stepped rounds depth step t r) {id : String}
    {answer : Option Workflow} (hmem : ⟨.workflow id, answer⟩ ∈ t) : step.work = .workflow := by
  rcases h.mem_cases hmem with ⟨event, hx⟩ | ⟨command, hx⟩ | hwork | ⟨hwork, -⟩
  · cases hx
  · cases hx
  · cases hwork
  · exact hwork

end Stands

/-- A nested run that the world finds takes place. -/
theorem exists_ran_of_found {rounds left : Nat} {c : Context} {p : Deed} {step : Step}
    (h : c.Does rounds (left + 1) p) (hstep : p.1.1.step? = some step)
    (hwork : step.work = .workflow) {w : Workflow}
    (hfound : ⟨.workflow (Text.strip step.content), some w⟩ ∈ p.2) :
    ∃ child childDeeds t r, (c.call step).Ran rounds left child childDeeds t r ∧
      Yields ((c.call step).execute rounds (left + 1)) t (r.map .ok) ∧
      p.2 = c.naming step :: c.relayed step t ∧
      Course.result? p.1 = some (r.map fun status => .ofNested (c.call step).id (.ok status)) := by
  obtain ⟨r, hresult, hstepped⟩ := h.stepped_of_step? hstep
  generalize p.2 = u at hstepped hfound
  cases hstepped with
  | unknown _ hother => cases hwork.symm.trans hother
  | crashed _ hother => cases hwork.symm.trans hother
  | refused _ hother => cases hwork.symm.trans hother
  | followed _ _ _ hother => cases hwork.symm.trans hother
  | @nested t r _ hyields =>
      -- had it been refused, the world would have found no workflow
      cases (c.call step).executed_of_yields hyields with
      | cycle => cases List.mem_singleton.1 hfound
      | notFound =>
          rcases List.mem_cons.1 hfound with hx | hx
          · cases hx
          · cases List.mem_singleton.1 hx
      | @ran child childDeeds _ r hran =>
          refine ⟨child, childDeeds, t, r, hran, hyields, rfl, hresult.trans ?_⟩
          cases r <;> rfl

/-- A run that does not run out of rounds comes to one of three statuses. -/
theorem Call.Ran.result_cases {rounds depth : Nat} {k : Call} {c : Context} {deeds : List Deed}
    {t : Transcript Query.Reply} {r : Except Break Status} (h : k.Ran rounds depth c deeds t r) :
    r = .ok .completed ∨ r = .ok .cancelled ∨ r = .ok .failed ∨ r = .error .outOfRounds := by
  cases r with
  | error b =>
      obtain rfl := h.whole.eq_outOfRounds
      exact .inr (.inr (.inr rfl))
  | ok status =>
      obtain ⟨during, last, -, -, hparting⟩ := told_of_ran h
      cases hparting <;> simp

/-- Transcripts with the replies of a third one have the same replies. -/
theorem forall₂_replies_trans {pre : List String} {t u u' : Transcript Query.Reply}
    (h' : List.Forall₂ (fun x y => HEq x.2 y.2) t u')
    (h : List.Forall₂ (queryLikeness pre).Match t u) :
    List.Forall₂ (fun x y => HEq x.2 y.2) u' u := by
  induction h' generalizing u with
  | nil =>
      cases h
      exact .nil
  | cons hreply' _ ih =>
      cases h with
      | cons hmatch hrest => exact .cons (hreply'.symm.trans hmatch.replied) (ih hrest)

/-- A run inside other runs that names none of them goes as the run alone. -/
theorem exists_alone {pre : List String} {rounds depth : Nat} {id : String} {inputs : Scope}
    {c : Context} {deeds : List Deed} {t : Transcript Query.Reply} {r : Except Break Status}
    (h : (⟨pre, id, inputs⟩ : Call).Ran rounds depth c deeds t r)
    (hyields : Yields (execute rounds (depth + 1) pre id inputs) t (r.map .ok))
    (hnames : ∀ x ∈ t, namesCaller pre x.1 = false) :
    ∃ alone aloneDeeds u, (⟨[], id, inputs⟩ : Call).Ran rounds depth alone aloneDeeds u r ∧
      Yields (execute rounds (depth + 1) [] id inputs) u (r.map .ok) ∧
      c = alone.inside pre ∧ List.Forall₂ (queryLikeness pre).Match t u ∧
      List.Forall₂ (EntryLike pre) (logOf (told c.run t)) (logOf (told alone.run u)) ∧
      ∀ u' r', Yields (execute rounds (depth + 1) [] id inputs) u' r' →
        List.Forall₂ (fun x y => HEq x.2 y.2) t u' → u' = u := by
  have halike := alike_execute rounds (depth + 1) [] id inputs h.fresh
  rw [List.append_nil] at halike
  obtain ⟨u, result, hu, hmatch, hsame⟩ := halike.ends total_queryLikeness hyields
    fun x hx => Bool.eq_false_iff.1 (hnames x hx)
  -- a run comes to a status or breaks off, and both are the same alone
  obtain rfl : result = r.map .ok := by
    cases r with
    | error b => cases hsame; rfl
    | ok status =>
        cases hsame with
        | ok hstatus => cases hstatus; rfl
  obtain ⟨alone, aloneDeeds, halone⟩ := Call.ran_of_yields ⟨[], id, inputs⟩ hu
  have hinside := inside_of_match h halone hmatch
  refine ⟨alone, aloneDeeds, u, halone, hu, hinside, hmatch, ?_, fun u' r' hu' hreplies => ?_⟩
  · rw [hinside]
    exact forall₂_logOf (forall₂_told hmatch alone.run)
  · refine hu'.eq_of_replies hu ?_
    exact forall₂_replies_trans hreplies hmatch

/-- A nested run is the run of its workflow alone, indented: what its step adds to the log around it
is a line that names the workflow and then the log of the nested run, and the step comes to what the
status of the nested run says. If the nested run names none of the runs around it, an execution of its
workflow alone with the variables of the run around it and with the same replies comes to the same
status, with the same log but for the runs around it that a cycle lists. -/
theorem nested_run_is_run_alone {rounds depth left : Nat} {k : Call} {t : Transcript Query.Reply}
    {outer : List Context} {c : Context} {deeds : List Deed}
    (h : Stands rounds depth k t (outer ++ [c]) (left + 1) deeds) {p : Deed} (hp : p ∈ deeds)
    {step : Step} (hstep : p.1.1.step? = some step) (hwork : step.work = .workflow) {w : Workflow}
    (hfound : ⟨.workflow (Text.strip step.content), some w⟩ ∈ p.2) :
    ∃ child childDeeds t' r,
      (⟨c.chain, Text.strip step.content, c.scope⟩ : Call).Ran rounds left child childDeeds t' r ∧
      Yields (execute rounds (left + 1) c.chain (Text.strip step.content) c.scope) t' (r.map .ok) ∧
      logOf (told c.run p.2) =
        ⟨step.id, .info, "Executing sub-workflow: " ++ Text.strip step.content⟩ ::
          (logOf (told child.run t')).map (Entry.repeated step.id) ∧
      (∃ outermost, (outer ++ [c]).head? = some outermost ∧
        ((messages child.run t').map (spaces (2 * (outer.length + 1)) ++ ·)).Sublist
          (messages outermost.run t)) ∧
      (r = .ok .completed → Course.result? p.1 = some (.ok ⟨"", 0, none⟩)) ∧
      (r = .ok .cancelled → Course.result? p.1 = some (.ok ⟨"", 1, some .cancelled⟩)) ∧
      (r = .ok .failed → Course.result? p.1 =
        some (.ok ⟨"", 1, some (.nestedRun (Text.strip step.content) "failed")⟩)) ∧
      (r = .ok .completed ∨ r = .ok .cancelled ∨ r = .ok .failed ∨ r = .error .outOfRounds) ∧
      ((∀ x ∈ t', namesCaller c.chain x.1 = false) → ∃ alone aloneDeeds u,
        (⟨[], Text.strip step.content, c.scope⟩ : Call).Ran rounds left alone aloneDeeds u r ∧
        Yields (execute rounds (left + 1) [] (Text.strip step.content) c.scope) u (r.map .ok) ∧
        child = alone.inside c.chain ∧
        List.Forall₂ (queryLikeness c.chain).Match t' u ∧
        List.Forall₂ (EntryLike c.chain) (logOf (told child.run t')) (logOf (told alone.run u)) ∧
        ∀ u' r', Yields (execute rounds (left + 1) [] (Text.strip step.content) c.scope) u' r' →
          List.Forall₂ (fun x y => HEq x.2 y.2) t' u' → u' = u) := by
  have hlast : (outer ++ [c]).getLast? = some c := List.getLast?_concat
  obtain ⟨-, outer', c', -, hstack, -, hdoes, -⟩ := h.innermost
  obtain rfl : c = c' := by
    rw [hstack, List.getLast?_concat] at hlast
    exact (Option.some.inj hlast).symm
  obtain ⟨child, childDeeds, t', r, hran, hyields, hpiece, hresult⟩ :=
    exists_ran_of_found (hdoes p hp) hstep hwork hfound
  refine ⟨child, childDeeds, t', r, hran, hyields, ?_, ?_, ?_, ?_, ?_, hran.result_cases,
    exists_alone hran hyields⟩
  · rw [hpiece]
    exact logOf_told_of_nested (h.place hlast) hran
  · obtain ⟨outermost, innermost, hhead, hinnermost, hsub⟩ :=
      (h.snoc hlast hp hstep hwork hpiece hyields hran).sublist_messages
    rw [List.getLast?_concat] at hinnermost
    obtain rfl := Option.some.inj hinnermost
    refine ⟨outermost, ?_, ?_⟩
    · rwa [List.head?_append_of_ne_nil _ (by simp)] at hhead
    · rw [hran.messages_eq child.run]
      simpa using hsub
  · rintro rfl
    exact hresult
  · rintro rfl
    exact hresult
  · rintro rfl
    exact hresult

open Store.Workflows (nestedStore outerWorkflow innerWorkflow) in
/-- The outer workflow repeats the log of the inner one. -/
theorem nested_run_is_run_alone_nestedStore :
    let t := (execute 3 3 [] "outer" []).run.transcript
      (steady nestedStore.get? false (.refused ""))
    ∃ c deeds p step, ∃ child : Context, ∃ t', Stands 3 3 ⟨[], "outer", []⟩ t [c] 2 deeds ∧ p ∈ deeds ∧
      p.1.1.step? = some step ∧ step.work = .workflow ∧
      ⟨.workflow (Text.strip step.content), some innerWorkflow⟩ ∈ p.2 ∧
      logOf (told c.run p.2) =
        ⟨step.id, .info, "Executing sub-workflow: " ++ Text.strip step.content⟩ ::
          (logOf (told child.run t')).map (Entry.repeated step.id) := by
  intro t
  have hyields := yields_transcript (steady nestedStore.get? false (.refused ""))
    (execute 3 3 [] "outer" [])
  have hresult : (execute 3 3 [] "outer" []).run.result
      (steady nestedStore.get? false (.refused "")) = .ok (.ok .failed) := rfl
  rw [hresult] at hyields
  obtain ⟨c, deeds, hran⟩ := Call.ran_of_yields ⟨[], "outer", []⟩ (r := .ok .failed) hyields
  have hworkflow : c.workflow = outerWorkflow :=
    Option.some.inj (Dialogue.mem_transcript hran.found)
  -- the inner workflow is asked for in the deed of the first step
  have hasked : ⟨.workflow "inner", some innerWorkflow⟩ ∈ t := List.mem_of_getElem? (i := 7) rfl
  obtain ⟨p, hp, hx⟩ : ∃ p ∈ deeds, ⟨.workflow "inner", some innerWorkflow⟩ ∈ p.2 := by
    obtain ⟨first, ⟨w, globals, executionId, -, rfl⟩, ht⟩ := hran.begins
    rw [show t = _ from ht] at hasked
    rcases List.mem_append.1 hasked with hfirst | hdeed
    · simp [Call.beginning] at hfirst
    · exact List.mem_flatMap.1 hdeed
  obtain ⟨step, r, hstep, hresult, hstepped⟩ :=
    (hran.does p hp).stepped hx (by rintro ⟨⟩) (by rintro event ⟨⟩)
  have hwork : step.work = .workflow := hstepped.work_of_asked hx
  have hfirst : step = outerWorkflow.steps[0] := by
    have hmem := hworkflow ▸ step_mem_of_ran hran hp hstep
    rcases List.mem_cons.1 hmem with h | h
    · exact h
    · rw [List.mem_singleton.1 h] at hwork
      cases hwork
  have hid : Text.strip step.content = "inner" := by
    rw [hfirst]
    rfl
  rw [← hid] at hx
  have hstands : Stands 3 3 ⟨[], "outer", []⟩ t ([] ++ [c]) 2 deeds := .own hran
  obtain ⟨child, childDeeds, t', r', -, -, hlog, -⟩ :=
    nested_run_is_run_alone hstands hp hstep hwork hx
  exact ⟨c, deeds, p, step, child, t', hstands, hp, hstep, hwork, hx, hlog⟩

/-! ## A cycle names the runs around it -/

/-- A workflow that names another one, which names itself. -/
def namingItself (id : String) : Option Workflow :=
  if id = "p" ∨ id = "a" then
    some { id := id, name := id, steps := [{ id := "s", type := "workflow_ref", content := "a" }] }
  else none

/-- The nested run names no run around it but itself, and yet its log is not that of its workflow
alone: the message for its own cycle lists the run around it. -/
theorem cycle_names_callers :
    let replies := steady namingItself false (.refused "")
    let around := (execute 3 3 [] "p" []).run.transcript replies
    let nested := (execute 3 2 ["p"] "a" []).run.transcript replies
    let alone := (execute 3 2 [] "a" []).run.transcript replies
    (∀ x ∈ nested ++ alone, namesCaller ["p"] x.1 = false) ∧
      messages ⟨"run", "p", 0⟩ around =
        ["Starting workflow: p", "Step 1/1: s", "Executing sub-workflow: a"] ++
          (messages ⟨"run", "a", 1⟩ nested).map ("  " ++ ·) ++
          ["Step failed: sub-workflow a ended failed", "Workflow failed at step: s"] ∧
      messages ⟨"run", "a", 1⟩ nested ≠ messages ⟨"run", "a", 0⟩ alone := by
  decide +kernel

end Runbook.Run
