import Runbook.Proofs.Run.Execution

/-!
# Checks between the steps of a run

A run asks whether it is to stop before each step that it runs in its turn and behind each step that
it runs at all. Hence there is a check between any two of them (`Course.Whole.apart`), and a run in
which no check behind a step lets it go on is cancelled (`Course.Whole.cancelled_of_result`).

The same holds of the commands that all the runs of an execution start, whichever of the runs starts
them: between any two there is a check (`apart_of_yields`). A nested run begins and ends between two
checks of the run around it, and its own checks keep its commands apart.
-/

set_option autoImplicit false

namespace Runbook.Run

/-! ## Starts and checks -/

/-- What matters for cancellation: something is started, or a check lets the run go on. -/
inductive Signal where
  | start
  | goAhead
  deriving DecidableEq, Repr

/-- There is a check between any two starts; if `busy`, also before the first one. -/
def Apart : Bool → List Signal → Prop
  | _, [] => True
  | busy, .start :: signals => busy = false ∧ Apart true signals
  | _, .goAhead :: signals => Apart false signals

theorem Apart.of_busy {signals : List Signal} (h : Apart true signals) (busy : Bool) :
    Apart busy signals := by
  cases signals with
  | nil => trivial
  | cons signal signals =>
      cases signal with
      | start => cases h.1
      | goAhead => exact h

theorem apart_append {busy : Bool} {as bs : List Signal} (ha : Apart busy as)
    (hb : Apart true bs) : Apart busy (as ++ bs) := by
  induction as generalizing busy with
  | nil => exact hb.of_busy busy
  | cons signal as ih =>
      cases signal with
      | start => exact ⟨ha.1, ih ha.2⟩
      | goAhead => exact ih (show Apart false as from ha)

theorem Apart.of_append {busy : Bool} {as bs : List Signal} (h : Apart busy (as ++ bs)) :
    ∃ busy', Apart busy' bs := by
  induction as generalizing busy with
  | nil => exact ⟨busy, h⟩
  | cons signal as ih =>
      cases signal with
      | start => exact ih h.2
      | goAhead => exact ih (show Apart false (as ++ bs) from h)

/-- Without a check nothing is started when something was started before, and at most one thing
otherwise. -/
theorem Apart.count_le {busy : Bool} {signals : List Signal} (h : Apart busy signals)
    (hset : .goAhead ∉ signals) : signals.count .start ≤ if busy then 0 else 1 := by
  induction signals generalizing busy with
  | nil => simp
  | cons signal signals ih =>
      cases signal with
      | goAhead => exact absurd (List.mem_cons_self ..) hset
      | start =>
          obtain ⟨rfl, h⟩ := h
          have hle := ih h fun hmem => hset (List.mem_cons_of_mem _ hmem)
          simpa using hle

/-- What an exchange of an execution means for cancellation. -/
def signal? : Exchange Query.Reply → Option Signal
  | ⟨.launch _, _⟩ => some .start
  | ⟨.cancelRequested, requested⟩ => if requested then none else some .goAhead
  | _ => none

/-- The starts of commands and the checks that let a run go on. -/
def signals (t : Transcript Query.Reply) : List Signal := t.filterMap signal?

namespace Course

/-- What an exchange of the course of a run means for cancellation. -/
def signal? : Exchange Task.Reply → Option Signal
  | ⟨.turn _ _, _⟩ => some .start
  | ⟨.aside _, _⟩ => some .start
  | ⟨.check, requested⟩ => if requested then none else some .goAhead
  | _ => none

/-- The starts of steps and the checks that let the run go on. -/
def signals (s : Transcript Task.Reply) : List Signal := s.filterMap signal?

@[simp] theorem signals_nil : signals [] = [] := rfl

@[simp] theorem signals_cons (x : Exchange Task.Reply) (s : Transcript Task.Reply) :
    signals (x :: s) = (signal? x).toList ++ signals s := by
  cases h : signal? x <;> simp [signals, h]

@[simp] theorem signals_append (s t : Transcript Task.Reply) :
    signals (s ++ t) = signals s ++ signals t := List.filterMap_append

@[simp] theorem signals_said (events : List Event) : signals (said events) = [] := by
  simp [signals, said, signal?]

variable {w : Workflow}

theorem Acted.signals_eq {action : Action} {position : Nat} {s : Transcript Task.Reply}
    {r : Except Break Effect} (h : Acted w action position s r) :
    signals s = [] ∨ signals s = [.start] := by
  cases h with
  | plain => exact .inl (signals_said _)
  | side => exact .inr (by simp [signal?])
  | broke => exact .inr (by simp [signal?])

/-- One step at most is started, and a check follows it unless the run ends there. -/
def SignalsOnce (s : Transcript Task.Reply) (r : Except Break Next) : Prop :=
  (signals s = [] ∨ signals s = [.goAhead] ∨ signals s = [.start, .goAhead]) ∨
    (signals s = [.start] ∧ ∀ there, r ≠ .ok (.goOn there))

theorem Passed.signalsOnce {step : Step} {position : Nat} {reason : String} {action : Option Action}
    {s : Transcript Task.Reply} {r : Except Break Next}
    (h : Passed w step position reason action s r) : SignalsOnce s r := by
  cases h with
  | nothing => exact .inl (.inl rfl)
  | broke hact =>
      rcases hact.signals_eq with h | h
      · exact .inl (.inl h)
      · exact .inr ⟨h, by simp⟩
  | cancelled hact =>
      rcases hact.signals_eq with h | h
      · exact .inl (.inl (by simp [h, signal?]))
      · exact .inr ⟨by simp [h, signal?], by simp⟩
  | stopped hact =>
      rcases hact.signals_eq with h | h
      · exact .inl (.inr (.inl (by simp [h, signal?])))
      · exact .inl (.inr (.inr (by simp [h, signal?])))
  | wentOn hact =>
      rcases hact.signals_eq with h | h
      · exact .inl (.inr (.inl (by simp [h, signal?])))
      · exact .inl (.inr (.inr (by simp [h, signal?])))

theorem ConditionPass.signalsOnce {step : Step} {outcome : Outcome} {position : Nat}
    {s : Transcript Task.Reply} {r : Except Break Next}
    (h : ConditionPass w step outcome position s r) : SignalsOnce s r := by
  cases h with
  | broke => exact .inl (.inl (signals_said _))
  | passed _ _ _ hpassed => simpa [SignalsOnce] using hpassed.signalsOnce

theorem HookPass.signalsOnce {step : Step} {outcome : Outcome} {position : Nat}
    {s : Transcript Task.Reply} {r : Except Break Next}
    (h : HookPass w step outcome position s r) : SignalsOnce s r := by
  cases h with
  | failed => exact .inl (.inl (by simp [signal?]))
  | passed _ _ _ hpassed => simpa [SignalsOnce] using hpassed.signalsOnce

theorem signals_opening {position : Nat} {step : Step} {line : Event} {outcome : Outcome} :
    signals (opening position step line outcome) = [.goAhead, .start, .goAhead] := rfl

/-- Within a round there is a check between any two starts, and before the first one. -/
theorem Lap.apart {position : Nat} {step : Step} {s : Transcript Task.Reply} {r : Except Break Next}
    (h : Lap w position step s r) : Apart true (signals s) := by
  cases h with
  | stopped => simp [signal?, Apart]
  | broke => simp [signal?, Apart]
  | cancelled line outcome requested => cases requested <;> simp [signal?, Apart]
  | judged line outcome _ _ hcondition _ =>
      rw [signals_append, signals_opening]
      rcases hcondition.signalsOnce with (h | h | h) | ⟨h, -⟩ <;> simp [h, Apart]
  | hooked line outcome _ _ hcondition hhook =>
      rw [signals_append, signals_append, signals_opening]
      -- the hook comes into play only if the check behind the condition let the run go on
      rcases hcondition.signalsOnce with (h₁ | h₁ | h₁) | ⟨-, h₁⟩
      · rcases hhook.signalsOnce with (h₂ | h₂ | h₂) | ⟨h₂, -⟩ <;> simp [h₁, h₂, Apart]
      · rcases hhook.signalsOnce with (h₂ | h₂ | h₂) | ⟨h₂, -⟩ <;> simp [h₁, h₂, Apart]
      · rcases hhook.signalsOnce with (h₂ | h₂ | h₂) | ⟨h₂, -⟩ <;> simp [h₁, h₂, Apart]
      · exact absurd rfl (h₁ _)

theorem Laps.apart {limit position : Nat} {s : Transcript Task.Reply} {r : Except Break Status}
    (h : Laps w limit position s r) : Apart true (signals s) := by
  induction limit generalizing position s with
  | zero =>
      cases h
      trivial
  | succ limit ih =>
      cases h with
      | past => simp [Apart]
      | broke _ hlap => exact hlap.apart
      | ended _ hlap => exact hlap.apart
      | next _ hlap hlaps =>
          -- the next round begins with a check of its own
          rw [signals_append]
          exact apart_append hlap.apart (ih hlaps)

theorem Whole.apart {limit : Nat} {s : Transcript Task.Reply} {r : Except Break Status}
    (h : Whole w limit s r) : Apart true (signals s) := by
  cases h with
  | outOfRounds hlaps => simpa [signal?] using hlaps.apart
  | ended hlaps => simpa [signal?] using hlaps.apart
  | crashed hlaps => simpa [signal?] using hlaps.apart

/-! ### A start without a check behind it -/

/-- What an exchange means for whether the last step that was run was followed by a check; a step
that breaks the run off has no need of one. -/
def mark? : Exchange Task.Reply → Option Signal
  | ⟨.turn _ _, .ok _⟩ => some .start
  | ⟨.aside _, .ok _⟩ => some .start
  | ⟨.check, requested⟩ => if requested then none else some .goAhead
  | _ => none

/-- The steps that came to an outcome and the checks that let the run go on. -/
def marks (s : Transcript Task.Reply) : List Signal := s.filterMap mark?

/-- Behind the last step that came to an outcome there is a check that lets the run go on. -/
def Checked (s : Transcript Task.Reply) : Prop := (marks s).getLast? ≠ some .start

@[simp] theorem marks_nil : marks [] = [] := rfl

@[simp] theorem marks_cons (x : Exchange Task.Reply) (s : Transcript Task.Reply) :
    marks (x :: s) = (mark? x).toList ++ marks s := by
  cases h : mark? x <;> simp [marks, h]

@[simp] theorem marks_append (s t : Transcript Task.Reply) :
    marks (s ++ t) = marks s ++ marks t := List.filterMap_append

@[simp] theorem marks_said (events : List Event) : marks (said events) = [] := by
  simp [marks, said, mark?]

theorem checked_append {s t : Transcript Task.Reply} (hs : Checked s) (ht : Checked t) :
    Checked (s ++ t) := by
  rw [Checked, marks_append, List.getLast?_append]
  cases hlast : (marks t).getLast? with
  | none => exact hs
  | some signal =>
      rw [Checked, hlast] at ht
      exact ht

theorem checked_said (events : List Event) : Checked (said events) := by simp [Checked]

/-- An action with its check leaves nothing unchecked unless the run is cancelled. -/
theorem Passed.checked {step : Step} {position : Nat} {reason : String} {action : Option Action}
    {s : Transcript Task.Reply} {r : Except Break Next}
    (h : Passed w step position reason action s r) :
    Checked s ∨ r = .ok (.ended .cancelled) := by
  cases h with
  | nothing => exact .inl (by simp [Checked])
  | broke hact =>
      cases hact with
      | broke => exact .inl (by simp [Checked, mark?])
  | cancelled => exact .inr rfl
  | stopped => exact .inl (by simp [Checked, mark?])
  | wentOn => exact .inl (by simp [Checked, mark?])

theorem ConditionPass.checked {step : Step} {outcome : Outcome} {position : Nat}
    {s : Transcript Task.Reply} {r : Except Break Next}
    (h : ConditionPass w step outcome position s r) :
    Checked s ∨ r = .ok (.ended .cancelled) := by
  cases h with
  | broke => exact .inl (checked_said _)
  | passed _ _ _ hpassed => exact hpassed.checked.imp_left (checked_append (checked_said _))

theorem HookPass.checked {step : Step} {outcome : Outcome} {position : Nat}
    {s : Transcript Task.Reply} {r : Except Break Next}
    (h : HookPass w step outcome position s r) :
    Checked s ∨ r = .ok (.ended .cancelled) := by
  cases h with
  | failed => exact .inl (checked_said _)
  | passed _ _ _ hpassed => exact hpassed.checked.imp_left (checked_append (checked_said _))

theorem checked_opening {position : Nat} {step : Step} {line : Event} {outcome : Outcome} :
    Checked (opening position step line outcome) := by
  simp [Checked, opening, mark?]

theorem Lap.checked {position : Nat} {step : Step} {s : Transcript Task.Reply}
    {r : Except Break Next} (h : Lap w position step s r) :
    Checked s ∨ r = .ok (.ended .cancelled) := by
  cases h with
  | stopped => exact .inr rfl
  | broke => exact .inl (by simp [Checked, mark?])
  | cancelled => exact .inr rfl
  | judged _ _ _ _ hcondition _ =>
      exact hcondition.checked.imp_left (checked_append checked_opening)
  | hooked _ _ _ _ hcondition hhook =>
      -- the condition let the run go on, so it left nothing unchecked
      have hs := hcondition.checked.resolve_right (by simp)
      rcases hhook.checked with h | rfl
      · exact .inl (checked_append checked_opening (checked_append hs h))
      · exact .inr rfl

theorem Laps.checked {limit position : Nat} {s : Transcript Task.Reply} {r : Except Break Status}
    (h : Laps w limit position s r) : Checked s ∨ r = .ok .cancelled := by
  induction limit generalizing position s with
  | zero =>
      cases h
      exact .inl (by simp [Checked])
  | succ limit ih =>
      cases h with
      | past => exact .inl (checked_said _)
      | broke _ hlap => exact .inl (hlap.checked.resolve_right (by simp))
      | ended _ hlap => exact hlap.checked.imp_right fun h => by cases h; rfl
      | next _ hlap hlaps =>
          exact (ih hlaps).imp_left (checked_append (hlap.checked.resolve_right (by simp)))

/-- A run in which a step was run and no check lets it go on afterwards is cancelled. -/
theorem Whole.checked {limit : Nat} {s : Transcript Task.Reply} {r : Except Break Status}
    (h : Whole w limit s r) : Checked s ∨ r = .ok .cancelled := by
  cases h with
  | outOfRounds hlaps =>
      exact .inl (checked_append (checked_said _) (hlaps.checked.resolve_right (by simp)))
  | ended hlaps =>
      exact hlaps.checked.imp
        (fun h => checked_append (checked_append (checked_said _) h) (checked_said _))
        fun h => by cases h; rfl
  | crashed hlaps =>
      exact .inl (checked_append
        (checked_append (checked_said _) (hlaps.checked.resolve_right (by simp))) (checked_said _))

theorem goAhead_mem_signals {s : Transcript Task.Reply} (h : .goAhead ∈ marks s) :
    .goAhead ∈ signals s := by
  obtain ⟨⟨task, reply⟩, hx, hmark⟩ := List.mem_filterMap.1 h
  refine List.mem_filterMap.2 ⟨_, hx, ?_⟩
  cases task with
  | check => exact hmark
  | tell => cases hmark
  | turn => cases reply <;> cases hmark
  | aside => cases reply <;> cases hmark

theorem not_checked {a b : Transcript Task.Reply} {x : Exchange Task.Reply}
    (hx : mark? x = some .start) (hset : .goAhead ∉ signals b) : ¬ Checked (a ++ x :: b) := by
  -- behind the step there are only steps, since no check lets the run go on
  have hstarts : ∀ signal ∈ .start :: marks b, signal = .start := by
    intro signal hmem
    cases signal with
    | start => rfl
    | goAhead =>
        rcases List.mem_cons.1 hmem with h | h
        · cases h
        · exact absurd (goAhead_mem_signals h) hset
  have hlast : (Signal.start :: marks b).getLast? = some .start := by
    rw [List.getLast?_eq_some_getLast (List.cons_ne_nil _ _)]
    exact congrArg some (hstarts _ (List.getLast_mem _))
  rw [Checked, marks_append, marks_cons, hx, not_not, List.getLast?_append, Option.toList_some,
    List.singleton_append, hlast, Option.some_or]

/-- A run in which a step came to an outcome, and no check lets it go on afterwards, is cancelled, and
it starts nothing more. -/
theorem Whole.cancelled_of_result {limit : Nat} {a b : Transcript Task.Reply}
    {x : Exchange Task.Reply} {outcome : Outcome} {r : Except Break Status}
    (h : Whole w limit (a ++ x :: b) r) (hx : result? x = some (.ok outcome))
    (hset : .goAhead ∉ signals b) : r = .ok .cancelled ∧ .start ∉ signals b := by
  obtain ⟨hmark, hsignal⟩ : mark? x = some .start ∧ signal? x = some .start := by
    obtain ⟨task, reply⟩ := x
    cases task <;> cases hx <;> exact ⟨rfl, rfl⟩
  refine ⟨h.checked.resolve_left (not_checked hmark hset), fun hstart => ?_⟩
  -- a further start would need a check in between
  have happart := h.apart
  rw [signals_append, signals_cons, hsignal] at happart
  obtain ⟨busy, -, hbusy⟩ := happart.of_append
  have hle := hbusy.count_le hset
  exact List.count_eq_zero.1 (by simpa using hle) hstart

end Course

/-! ## Executions -/

@[simp] theorem signals_append (t u : Transcript Query.Reply) :
    signals (t ++ u) = signals t ++ signals u := List.filterMap_append

@[simp] theorem signals_cons (x : Exchange Query.Reply) (t : Transcript Query.Reply) :
    signals (x :: t) = (signal? x).toList ++ signals t := by
  cases h : signal? x <;> simp [signals, h]

@[simp] theorem signals_nil : signals [] = [] := rfl

theorem signals_eq_nil {t : Transcript Query.Reply} (h : ∀ x ∈ t, signal? x = none) :
    signals t = [] := List.filterMap_eq_nil_iff.2 h

theorem signals_relayed (c : Context) (step : Step) (t : Transcript Query.Reply) :
    signals (c.relayed step t) = signals t := by
  induction t with
  | nil => rfl
  | cons x t ih =>
      have hecho : signals (c.echoes step x.1) = [] := signals_eq_nil fun y hy => by
        obtain ⟨message, rfl⟩ := c.exists_of_mem_echoes hy
        rfl
      have hcons : c.relayed step (x :: t) = x :: (c.echoes step x.1 ++ c.relayed step t) := rfl
      rw [hcons, signals_cons, signals_append, hecho, List.nil_append, ih, signals_cons]

theorem signal?_of_isWork {c : Context} {x : Exchange Query.Reply} (h : c.isWork x.1 = true) :
    signal? x = none := by
  obtain ⟨q, reply⟩ := x
  cases q <;> first | rfl | cases h

section Apart

variable {c : Context} {rounds depth : Nat}

theorem apart_stepped {step : Step} {t : Transcript Query.Reply} {r : Except Break Outcome}
    (hnested : ∀ {t : Transcript Query.Reply} {r : Except Break (Except Failure Status)},
      Yields ((c.call step).execute rounds depth) t r → Apart true (signals t))
    (h : c.Stepped rounds depth step t r) : Apart false (signals t) := by
  cases h with
  | unknown => trivial
  | crashed => simp [Context.launching, signal?, Apart]
  | refused => simp [Context.launching, signal?, Apart]
  | followed process work outcome _ hwork =>
      rw [signals_append, signals_eq_nil fun x hx => signal?_of_isWork (hwork x hx)]
      simp [Context.launching, signal?, Apart]
  | nested _ ht =>
      rw [signals_cons, signals_relayed]
      exact (hnested ht).of_busy false

/-- Doing the tasks of a course keeps apart what the course keeps apart. -/
theorem apart_deeds {deeds : List Deed} {busy : Bool}
    (hnested : ∀ {step : Step} {t : Transcript Query.Reply}
      {r : Except Break (Except Failure Status)},
      Yields ((c.call step).execute rounds depth) t r → Apart true (signals t))
    (hdoes : ∀ p ∈ deeds, c.Does rounds depth p)
    (h : Apart busy (Course.signals (deeds.map Prod.fst))) :
    Apart busy (signals (deeds.flatMap Prod.snd)) := by
  induction deeds generalizing busy with
  | nil => trivial
  | cons p deeds ih =>
      obtain ⟨hp, hdeeds⟩ := List.forall_mem_cons.1 hdoes
      rw [List.flatMap_cons, signals_append]
      rw [List.map_cons, Course.signals_cons] at h
      -- a step is one start of the course; a nested run may be many, with checks in between
      have hstep : ∀ {step : Step} {t : Transcript Query.Reply} {r : Except Break Outcome},
          c.Stepped rounds depth step t r →
            Apart busy (.start :: Course.signals (deeds.map Prod.fst)) →
              Apart busy (signals t ++ signals (deeds.flatMap Prod.snd)) := by
        rintro step t r hstepped ⟨rfl, hrest⟩
        exact apart_append (apart_stepped hnested hstepped) (ih hdeeds hrest)
      cases hp with
      | check requested =>
          cases requested with
          | true => exact ih hdeeds h
          | false => exact ih hdeeds (show Apart false (Course.signals _) from h)
      | tell event => exact ih hdeeds h
      | turn _ hstepped => exact hstep hstepped h
      | aside hstepped => exact hstep hstepped h

end Apart

/-- In an execution there is a check between the starts of any two commands, whichever of its runs
start them. -/
theorem apart_of_yields {rounds depth : Nat} {k : Call} {t : Transcript Query.Reply}
    {r : Except Break (Except Failure Status)} (h : Yields (k.execute rounds depth) t r) :
    Apart true (signals t) := by
  -- by induction on the nesting that is left: nested runs are executions with less of it
  induction depth generalizing k t r with
  | zero =>
      obtain ⟨rfl, -⟩ := yields_throw_iff.1 h
      trivial
  | succ depth ih =>
      cases k.executed_of_yields h with
      | cycle => trivial
      | notFound => trivial
      | ran hran =>
          cases hran with
          | ran w globals executionId _ hdoes hwhole =>
              exact apart_deeds (fun ht => ih ht) hdoes hwhole.apart

end Runbook.Run
