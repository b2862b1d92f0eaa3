import Mathlib.Data.List.Induction
import Runbook.Journal.Setup

/-!
# Setting up the journal again and again

A call that sets up the journal leaves one sink, the one it made, in the format it names, whether it
returns or not (`Setup.configured`); the level is that of the last call that returned
(`Setup.level_after`). So a call that names an unknown level keeps the level that was there and nothing
else: no sink of before is left (`Setup.only_the_level_is_kept`).
-/

set_option autoImplicit false

namespace Runbook.Journal

/-- What a call that sets up the journal names. -/
structure SetupCall where
  level : String
  format : String

/-- The level that a name stands for, in capitals or not. -/
def levelNamed (name : String) : Option Int := namedLevels.lookup (Text.toUpper name)

namespace Setup

variable {s : Setup} {call : SetupCall} {result : Setup × Option UnknownLevel}

/-! ## One call -/

theorem foldl_erase_self (sinks : List Sink) : sinks.foldl List.erase sinks = [] := by
  induction sinks with
  | nil => rfl
  | cons sink sinks ih => rwa [List.foldl_cons, List.erase_cons_head]

theorem sinks_clear (s : Setup) : s.clear.sinks = [] := foldl_erase_self s.sinks

/-- The sink that is made next, in a format. -/
def nextSink (s : Setup) (format : String) : Sink := ⟨s.made, some (Format.ofName format)⟩

/-- What a call makes of the journal, and what it raises. -/
inductive Configured (s : Setup) (call : SetupCall) : Setup × Option UnknownLevel → Prop where
  /-- The call returns. -/
  | set {number : Int} : levelNamed call.level = some number →
      Configured s call (⟨number, [s.nextSink call.format], s.made + 1⟩, none)
  /-- The call raises, with the new sink in place. -/
  | refused : levelNamed call.level = none →
      Configured s call
        (⟨s.level, [s.nextSink call.format], s.made + 1⟩, some ⟨Text.toUpper call.level⟩)

theorem configured (s : Setup) (call : SetupCall) :
    s.Configured call (s.configure call.level call.format) := by
  have hadded : s.clear.add (Format.ofName call.format) =
      ⟨s.level, [s.nextSink call.format], s.made + 1⟩ := by
    rw [add, sinks_clear]
    rfl
  unfold configure
  rw [hadded]
  dsimp only
  split
  · rename_i number hnumber
    exact .set hnumber
  · rename_i hnone
    exact .refused hnone

theorem Configured.sinks (h : s.Configured call result) :
    result.1.sinks = [s.nextSink call.format] := by
  cases h <;> rfl

theorem Configured.made (h : s.Configured call result) : result.1.made = s.made + 1 := by
  cases h <;> rfl

theorem Configured.level (h : s.Configured call result) :
    result.1.level = (levelNamed call.level).getD s.level := by
  cases h with
  | set hnumber => rw [hnumber, Option.getD_some]
  | refused hnone => rw [hnone, Option.getD_none]

/-! ## Many calls -/

/-- The journal after calls one after the other, whatever they raise. -/
def after (s : Setup) (calls : List SetupCall) : Setup :=
  calls.foldl (fun s call => (s.configure call.level call.format).1) s

theorem after_concat (s : Setup) (calls : List SetupCall) (call : SetupCall) :
    s.after (calls ++ [call]) = ((s.after calls).configure call.level call.format).1 := by
  rw [after, List.foldl_append]
  rfl

/-- The level is that of the last call that returned. -/
theorem level_after (s : Setup) (calls : List SetupCall) :
    (s.after calls).level =
      (calls.filterMap fun call => levelNamed call.level).getLast?.getD s.level := by
  -- by induction on the calls from the last one backwards
  induction calls using List.reverseRecOn with
  | nil => rfl
  | append_singleton calls call ih =>
      rw [after_concat, ((s.after calls).configured call).level, ih, List.filterMap_append]
      cases hnumber : levelNamed call.level with
      | none => simp [hnumber]
      | some number => simp [hnumber]

/-- The sink is that of the last call, whether it returned or not. -/
theorem formats_after (s : Setup) (calls : List SetupCall) :
    (s.after calls).sinks.map Sink.format = match calls.getLast? with
      | none => s.sinks.map Sink.format
      | some call => [some (Format.ofName call.format)] := by
  induction calls using List.reverseRecOn with
  | nil => rfl
  | append_singleton calls call _ =>
      rw [after_concat, ((s.after calls).configured call).sinks, List.getLast?_concat]
      rfl

/-- Whether the sinks in place are among those that were made. -/
def Known (s : Setup) : Prop := ∀ sink ∈ s.sinks, sink.number < s.made

theorem Configured.known (h : s.Configured call result) : result.1.Known := by
  intro sink hsink
  rw [h.sinks, List.mem_singleton] at hsink
  rw [hsink, h.made]
  exact Nat.lt_succ_self s.made

theorem Known.after (h : s.Known) (calls : List SetupCall) : (s.after calls).Known := by
  induction calls using List.reverseRecOn with
  | nil => exact h
  | append_singleton calls call _ =>
      rw [after_concat]
      exact ((s.after calls).configured call).known

/-- A sink that is made next is none of those in place. -/
theorem Known.nextSink_notMem (h : s.Known) (format : String) : s.nextSink format ∉ s.sinks := by
  intro hmem
  exact Nat.lt_irrefl s.made (h _ hmem)

/-- Whatever calls came before: a call leaves one sink, which it made in its own format and which none
of those before is, and the level of the last call that returned. A call that raises does so as well. -/
theorem only_the_level_is_kept (s : Setup) (hknown : s.Known) (before : List SetupCall)
    (call : SetupCall) :
    (s.after before).Configured call ((s.after before).configure call.level call.format) ∧
      (∀ sink ∈ (s.after before).sinks,
        sink ∉ ((s.after before).configure call.level call.format).1.sinks) ∧
      (s.after before).level =
        (before.filterMap fun call => levelNamed call.level).getLast?.getD s.level ∧
      (s.after before).sinks.map Sink.format = match before.getLast? with
        | none => s.sinks.map Sink.format
        | some last => [some (Format.ofName last.format)] := by
  have hconfigured := (s.after before).configured call
  refine ⟨hconfigured, ?_, level_after s before, formats_after s before⟩
  intro sink hsink hmem
  rw [hconfigured.sinks, List.mem_singleton] at hmem
  rw [hmem] at hsink
  exact (hknown.after before).nextSink_notMem call.format hsink

theorem only_the_level_is_kept_twice : ({} : Setup).Known ∧
    (({} : Setup).after [⟨"info", "text"⟩]).Configured ⟨"VERBOSE", "json"⟩
      ((({} : Setup).after [⟨"info", "text"⟩]).configure "VERBOSE" "json") :=
  have hknown : ({} : Setup).Known := List.forall_mem_nil _
  ⟨hknown, (only_the_level_is_kept {} hknown [⟨"info", "text"⟩] ⟨"VERBOSE", "json"⟩).1⟩

/-- A call with an unknown level replaces the sink. -/
theorem refused_call_replaces_sink :
    (({} : Setup).after [⟨"INFO", "text"⟩]).sinks = [⟨0, some .text⟩] ∧
      (({} : Setup).after [⟨"INFO", "text"⟩]).configure "VERBOSE" "json" =
        (⟨20, [⟨1, some .json⟩], 2⟩, some ⟨"VERBOSE"⟩) := by
  decide +kernel

end Setup

end Runbook.Journal
