import Runbook.Proofs.Service.Accounts
import Runbook.Proofs.Shell.Honesty

/-!
# What the service does is a history

The service takes requests one after the other and carries an execution on at once as far as it can go.
With honest commands what it does then is a history: beginning an execution (`happens_begin`), carrying
one on (`happens_carryOn`) and asking one to stop (`happens_cancel`). So all that holds of histories
holds of the service, in which executions take turns only where one of them waits.
-/

set_option autoImplicit false

namespace Runbook

/-! ## Carrying a run on -/

namespace Run

variable {α : Type} {p : Patience} {w w' : World} {l l' : Live} {d : Dialogue Query.Reply α} {q : Query}
  {next : q.Reply → Dialogue Query.Reply α}

/-- A run that is carried on stops only in front of a question for which there is no patience. -/
theorem stopsAt_of_advance (h : advance p w l d = (.ask q next, w', l')) :
    p.stopsAt l' q = true := by
  induction d generalizing w l with
  | done a => cases h
  | ask query rest ih =>
      rw [advance] at h
      split at h
      · rename_i hstops
        cases h
        exact hstops
      · exact ih _ h

/-- Replying leaves honest commands honest. -/
theorem honest_reply (l : Live) (q : Query) (h : w.commands.Honest) :
    (reply w l q).2.1.commands.Honest := by
  cases q with
  | launch command => exact (Shell.Commands.honest_launch h w.disk w.workingDir w.shell command).2
  | wait milliseconds =>
      simp only [reply]
      split
      · exact h
      · exact h
  | tell run event =>
      simp only [reply]
      split
      · exact h
      · exact h
  | _ => exact h

end Run

namespace Service

open Run (World Live Query Exchange Dialogue Patience Call)
open Run.Dialogue (Goes)

variable {s : Service} {starting : List Ongoing} {w w' : World}

theorem replies_reply (live : Live) (q : Query) (h : w.commands.Honest) :
    Replies w live q (Run.reply w live q).1 (Run.reply w live q).2.1 (Run.reply w live q).2.2 := by
  by_cases hlaunch : ∃ command, q = .launch command
  · obtain ⟨command, rfl⟩ := hlaunch
    have hhonest := (Shell.Commands.honest_launch h w.disk w.workingDir w.shell command).1
    exact .launched (hhonest.mono live.record.cancelRequested) (Nat.le_refl _)
  · exact .replied fun command hq => hlaunch ⟨command, hq⟩

/-- Nobody asks an execution to stop. -/
def Unasked (moves : List Move) : Prop := ∀ id, .cancel id ∉ moves

theorem unasked_append {moves more : List Move} (h : Unasked moves) (hmore : Unasked more) :
    Unasked (moves ++ more) := fun id hmem =>
  (List.mem_append.1 hmem).elim (h id) (hmore id)

theorem unasked_single {m : Move} (h : ∀ id, m ≠ .cancel id) : Unasked [m] := fun id hmem =>
  h id (List.mem_singleton.1 hmem).symm

/-- Where an execution stands its exchanges are steps; `place` is the scene around it. -/
def Hosts (place : World → Ongoing → Scene) : Prop :=
  ∀ (w w' : World) (live live' : Live) (q : Query)
    (next : q.Reply → Dialogue Query.Reply (Except Run.Break (Except Failure Status)))
    (reply : q.Reply), Replies w live q reply w' live' →
    ∃ id, Step (place w ⟨live, .ask q next⟩) (.exchange id ⟨q, reply⟩) (place w' ⟨live', next reply⟩)

theorem hosts_starting (s : Service) (before after : List Ongoing) :
    Hosts fun w run => ⟨{ s with world := w }, before ++ run :: after⟩ :=
  fun _ _ _ _ _ _ _ hreply => ⟨_, .early hreply⟩

theorem hosts_kept (s : Service) (starting : List Ongoing) (id : String) :
    Hosts fun w run => ⟨{ s with world := w, runs := s.runs.put id run }, starting⟩ := by
  intro w w' live live' q next reply hreply
  let before : Service := { s with world := w, runs := s.runs.put id ⟨live, .ask q next⟩ }
  have hget : before.runs.get? id = some ⟨live, .ask q next⟩ := by
    dsimp only [before]
    rw [Assoc.get?_put, if_pos rfl]
  have hstep : Step ⟨before, starting⟩ (.exchange id ⟨q, reply⟩)
      ⟨{ before with world := w', runs := before.runs.put id ⟨live', next reply⟩ }, starting⟩ :=
    .later hget hreply
  dsimp only [before] at hstep
  rw [Assoc.put_put] at hstep
  exact ⟨id, hstep⟩

/-- An execution is carried on by exchanges of its own, wherever it stands. -/
theorem happens_advance {place : World → Ongoing → Scene} (hplace : Hosts place) (p : Patience)
    (w : World) (h : w.commands.Honest) (run : Ongoing) :
    ∃ moves, Unasked moves ∧
      Happens Step (place w run) moves (place (Run.advance p w run.live run.rest).2.1
        ⟨(Run.advance p w run.live run.rest).2.2, (Run.advance p w run.live run.rest).1⟩) := by
  obtain ⟨live, rest⟩ := run
  induction rest generalizing w live with
  | done r => exact ⟨[], fun _ => List.not_mem_nil, .nothing⟩
  | ask q next ih =>
      dsimp only
      rw [Run.advance]
      split
      · exact ⟨[], fun _ => List.not_mem_nil, .nothing⟩
      · obtain ⟨id, hstep⟩ := hplace _ _ _ _ _ next _ (replies_reply live q h)
        obtain ⟨moves, hmoves, hrest⟩ := ih _ _ (Run.honest_reply live q h) _
        refine ⟨_, unasked_append (unasked_single ?_) hmoves, (Happens.single hstep).trans hrest⟩
        rintro other ⟨⟩

/-- Carrying an execution on is a history without requests to stop. -/
theorem happens_carryOn (h : s.world.commands.Honest) (p : Patience) {id : String} {run : Ongoing}
    (hfound : s.find id = .ok run) :
    ∃ moves, Unasked moves ∧
      Happens Step ⟨s, starting⟩ moves ⟨(s.carryOn p id run).1, starting⟩ := by
  obtain ⟨moves, hmoves, hhappens⟩ :=
    happens_advance (hosts_kept s starting id) p s.world h run
  rw [Assoc.put_of_get? (find_eq_ok_iff.1 hfound)] at hhappens
  exact ⟨moves, hmoves, hhappens⟩

/-- Asking an execution to stop is a step, or nothing happens because it is not there. -/
theorem happens_cancel (s : Service) (starting : List Ongoing) (id : String) :
    ∃ moves, (∀ other, .cancel other ∈ moves → other = id) ∧
      Happens Step ⟨s, starting⟩ moves ⟨(s.cancel id).1, starting⟩ := by
  cases hfound : s.find id with
  | error failure =>
      rw [cancel_of_missing hfound]
      exact ⟨[], by simp, .nothing⟩
  | ok run =>
      have hstep : Step ⟨s, starting⟩ (.cancel id) ⟨(s.cancel id).1, starting⟩ := .cancel hfound
      refine ⟨[.cancel id], ?_, .single hstep⟩
      intro other hmem
      cases List.mem_singleton.1 hmem
      rfl

/-- An execution whose run has not begun and that has ended was refused. -/
theorem Opening.refused {workflowId : String} {inputs : Scope} {live : Live}
    {r : Except Run.Break (Except Failure Status)}
    (h : Opening workflowId inputs ⟨live, .done r⟩) : ∃ failure, r = .ok (.error failure) := by
  obtain ⟨t, ht, hway⟩ := h.way
  have hyields : Run.Yields ((⟨[], workflowId, inputs⟩ : Call).execute Run.roundLimit (1999 + 1)) t r :=
    hway
  rcases Call.served_of_yields _ hyields with ⟨-, -, rfl⟩ | ⟨-, -, rfl⟩ | ⟨c, deeds, r', hserved, -⟩
  · exact ⟨_, rfl⟩
  · exact ⟨_, rfl⟩
  · obtain ⟨first, ⟨_, _, _, -, rfl⟩, rfl⟩ := hserved.ran.begins
    simp only [Call.beginning, List.length_append, List.length_cons] at ht
    omega

/-- An execution that is carried on until it waits has begun, or it was refused. -/
theorem begun_of_advance {moves : List Move} {live live' : Live}
    {rest rest' : Dialogue Query.Reply (Except Run.Break (Except Failure Status))}
    (h : Followed moves ⟨live', rest'⟩)
    (hadvance : Run.advance .instant w live rest = (rest', w', live')) :
    (∃ failure, rest' = .done (.ok (.error failure))) ∨ live'.record.id ≠ "" := by
  obtain ⟨workflowId, inputs, -, hopening | hbegun⟩ := h
  · cases rest' with
    | done r =>
        obtain ⟨failure, rfl⟩ := hopening.refused
        exact .inl ⟨failure, rfl⟩
    | ask q next =>
        -- what it asks before it begins needs no patience
        have hstops := Run.stopsAt_of_advance hadvance
        rcases hopening.asks with ⟨_, rfl⟩ | rfl | ⟨_, _, rfl⟩
        · cases hstops
        · cases hstops
        · cases hstops
  · exact .inr hbegun.id

/-- An execution that is asked for goes on at once until it waits, whatever else the service keeps. -/
theorem happens_opening (h : s.world.commands.Honest) {workflowId : String} {inputs : Scope}
    {rest : Dialogue Query.Reply (Except Run.Break (Except Failure Status))} {live : Live}
    (hadvance : Run.advance .instant s.world (Live.fresh false none)
      (Run.outermost workflowId inputs) = (rest, w, live)) (runs : Assoc Ongoing) :
    ∃ moves, Unasked moves ∧ Happens Step ⟨{ s with runs := runs }, []⟩ moves
      ⟨{ s with world := w, runs := runs }, [⟨live, rest⟩]⟩ := by
  obtain ⟨moves, hmoves, hhappens⟩ :=
    happens_advance (hosts_starting { s with runs := runs } [] []) .instant s.world h
      ⟨Live.fresh false none, Run.outermost workflowId inputs⟩
  rw [hadvance] at hhappens
  refine ⟨_, unasked_append (unasked_single ?_) hmoves,
    (Happens.single (.start workflowId inputs)).trans hhappens⟩
  rintro id ⟨⟩

/-- Beginning an execution is a history without requests to stop. -/
theorem happens_begin (h : s.world.commands.Honest) (workflowId : String) (inputs : Scope) :
    ∃ moves, Unasked moves ∧
      Happens Step ⟨s, []⟩ moves ⟨(s.begin workflowId inputs).1, []⟩ := by
  obtain ⟨⟨rest, w, live⟩, hadvance⟩ : ∃ result, Run.advance .instant s.world
      (Live.fresh false none) (Run.outermost workflowId inputs) = result := ⟨_, rfl⟩
  obtain ⟨moves, hmoves, hhappens⟩ := happens_opening h hadvance s.runs
  by_cases hrefused : ∃ failure, rest = .done (.ok (.error failure))
  -- it could not begin
  · obtain ⟨failure, rfl⟩ := hrefused
    have hbegin : (s.begin workflowId inputs).1 = { s with world := w } := by
      rw [begin, hadvance]
    have hstep : Step ⟨{ s with world := w }, [] ++ ⟨live, .done (.ok (.error failure))⟩ :: []⟩
        (.refused failure) ⟨{ s with world := w }, [] ++ []⟩ := .refused
    rw [hbegin]
    refine ⟨_, unasked_append hmoves (unasked_single ?_), hhappens.further hstep⟩
    rintro id ⟨⟩
  -- it has begun, and so it is kept
  · have hbegin : (s.begin workflowId inputs).1 =
        { s with world := w, runs := s.runs.put live.record.id ⟨live, rest⟩ } := by
      rw [begin, hadvance]
      split
      · rename_i failure _ _ heq
        cases heq
        exact absurd ⟨failure, rfl⟩ hrefused
      · rename_i heq
        cases heq
        rfl
    -- it would have an id by then in a service that keeps no executions, so it has one here
    obtain ⟨others, -, halone⟩ := happens_opening h hadvance []
    have hfollowed := (sound_of_happens rfl halone).accounted.followed ⟨live, rest⟩
      (List.mem_singleton_self _)
    have hid := (begun_of_advance hfollowed hadvance).resolve_left hrefused
    have hstep : Step ⟨{ s with world := w }, [] ++ ⟨live, rest⟩ :: []⟩ (.keep live.record.id)
        ⟨{ s with world := w, runs := s.runs.put live.record.id ⟨live, rest⟩ }, [] ++ []⟩ := .keep hid
    rw [hbegin]
    refine ⟨_, unasked_append hmoves (unasked_single ?_), hhappens.further hstep⟩
    rintro id ⟨⟩

end Service

end Runbook
