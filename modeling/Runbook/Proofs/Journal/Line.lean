import Runbook.Journal.Record
import Runbook.Proofs.Json.Characters
import Runbook.Proofs.Json.Limits

/-!
# The line of a record

What is written of a record with plain extra values is one object on one line, which names the record's
own parts, the finished message and the extra values that are shown, whatever characters these hold and
however deep they nest (`Record.one_object_per_line`). There is no line where the message cannot be
finished or a value is beyond the limits of writing, and where an extra value named `getMessage` stands
in front of the function that finishes the message (`Record.extra_value_hides_message`).
-/

set_option autoImplicit false

namespace Runbook.Journal

namespace Record

variable {r : Record} {created : Timestamp} {message : String} {room : Nat}

/-! ## What a line says -/

/-- Whether the fields of an object are those of a record with a finished message. -/
structure Shows (r : Record) (created : Timestamp) (message : String) (fields : Assoc Json) : Prop where
  keys : fields.keys = ["timestamp", "level", "logger", "message"] ++
    (if r.shownExtra.isEmpty then [] else ["extra"]) ++
    (if r.error.isSome then ["exception"] else [])
  timestamp : fields.get? "timestamp" = some (.str created.printLog)
  level : fields.get? "level" = some (.str (levelName r.level))
  logger : fields.get? "logger" = some (.str r.logger)
  message : fields.get? "message" = some (.str message)
  extra : fields.get? "extra" = if r.shownExtra.isEmpty then none else some (.obj r.shownExtra)
  exception : fields.get? "exception" = r.error.map .str

theorem shows_fields (r : Record) (created : Timestamp) (message : String) :
    r.Shows created message (r.fields created message) := by
  unfold fields
  cases hextra : r.shownExtra.isEmpty <;> cases herror : r.error <;>
    constructor <;> simp [hextra, herror, Assoc.keys, Assoc.get?]

theorem nodup_keys_fields (r : Record) (created : Timestamp) (message : String) :
    (r.fields created message).keys.Nodup := by
  rw [(r.shows_fields created message).keys]
  split <;> split <;> decide

/-! ## Extra values -/

/-- The extra values that are shown are those whose names are neither parts of a record nor hidden. -/
theorem mem_shownExtra_iff {entry : String × Json} : entry ∈ r.shownExtra ↔
    entry ∈ r.extra ∧ entry.1 ∉ "taskName" :: forbiddenNames ∧ entry.1.startsWith "_" = false := by
  simp [shownExtra, isShown]

theorem plain_shownExtra (honce : r.extra.keys.Nodup) (hplain : ∀ entry ∈ r.extra, entry.2.Plain) :
    (Json.obj r.shownExtra).Plain := by
  have hsublist : r.shownExtra.keys.Sublist r.extra.keys := List.filter_sublist.map _
  exact .obj (honce.sublist hsublist) fun entry hentry => hplain entry (mem_shownExtra_iff.1 hentry).1

theorem plain_fields (honce : r.extra.keys.Nodup) (hplain : ∀ entry ∈ r.extra, entry.2.Plain) :
    (Json.obj (r.fields created message)).Plain := by
  refine .obj (r.nodup_keys_fields created message) ?_
  have hextra := plain_shownExtra honce hplain
  unfold fields
  simp only [List.forall_mem_append, List.forall_mem_cons, List.not_mem_nil, false_imp_iff,
    implies_true, and_true]
  refine ⟨⟨⟨.str _, .str _, .str _, .str _⟩, ?_⟩, ?_⟩
  · split
    · exact List.forall_mem_nil _
    · exact List.forall_mem_singleton.2 hextra
  · split
    · exact List.forall_mem_singleton.2 (.str _)
    · exact List.forall_mem_nil _

/-- Only an extra value can be beyond the limits. -/
theorem excess?_fields (r : Record) (created : Timestamp) (message : String) (room : Nat) :
    (Json.obj (r.fields created message)).excess? (room + 2) =
      r.shownExtra.findSome? fun entry => entry.2.excess? room := by
  have hstr : ∀ text : String, Json.excess? (room + 1) (.str text) = none := fun _ => rfl
  have hobject : Json.excess? (room + 1) (.obj r.shownExtra) =
      r.shownExtra.findSome? fun entry => entry.2.excess? room := Json.excess?_obj_succ room _
  rw [Json.excess?_obj_succ, ← hobject]
  unfold fields
  cases hextra : r.shownExtra with
  | nil => cases r.error <;> rfl
  | cons entry entries =>
      rw [List.isEmpty_cons, if_neg Bool.false_ne_true]
      generalize Json.obj (entry :: entries) = extra
      cases r.error <;> cases hexcess : extra.excess? (room + 1) <;>
        simp [hstr, hexcess]

/-! ## Lines -/

/-- What becomes of a record, with room for so many levels beyond its own and that of its extra values. -/
inductive Outcome (r : Record) (created : Timestamp) (room : Nat) : Except Misfit String → Prop where
  /-- An extra value stands in front of the function that finishes the message. -/
  | hidden {value : Json} : r.extra.get? "getMessage" = some value →
      Outcome r created room (.error (.notCallable (kindName value)))
  /-- The arguments do not fit the message. -/
  | unfinished {misfit : Misfit} : r.extra.get? "getMessage" = none →
      fill r.message r.arguments = .error misfit → Outcome r created room (.error misfit)
  /-- An extra value is beyond the limits. -/
  | unwritable {message : String} {excess : Json.Excess} : r.extra.get? "getMessage" = none →
      fill r.message r.arguments = .ok message →
      (r.shownExtra.findSome? fun entry => entry.2.excess? room) = some excess →
      Outcome r created room (.error (.unwritable excess))
  /-- There is a line, and every reader with as much room reads the object of the record from it. -/
  | line {message line : String} : r.extra.get? "getMessage" = none →
      fill r.message r.arguments = .ok message →
      (∀ entry ∈ r.shownExtra, entry.2.excess? room = none) →
      (∀ c ∈ line.toList, c ≠ '\n' ∧ c ≠ '\x0d') →
      (∀ dialect : Json.Dialect, room + 2 ≤ dialect.maxDepth → ∃ fields,
        Json.read dialect line.toList = .ok (.obj fields) ∧ r.Shows created message fields) →
      Outcome r created room (.ok line)

/-- A value on one line is read back by every reader with as much room. -/
theorem read_compact {value : Json} (h : Json.Exact room value) {dialect : Json.Dialect}
    (hroom : room ≤ dialect.maxDepth) : Json.read dialect value.compact.toList = .ok value := by
  have hline : Json.Layout.line.Blank := trivial
  have hread := Json.read_text hline (h.mono hroom) (List.forall_mem_nil _)
  rwa [Json.Layout.text_line, List.append_nil] at hread

theorem notNewline_compact {value : Json} (h : Json.Exact room value) :
    ∀ c ∈ value.compact.toList, c ≠ '\n' ∧ c ≠ '\x0d' := by
  intro c hc
  rw [Json.compact, String.toList_ofList] at hc
  have hprintable := Json.printable_printCompact h c hc
  constructor
  · rintro rfl
    exact absurd hprintable (by decide)
  · rintro rfl
    exact absurd hprintable (by decide)

theorem lineWithin_of_finished (h : r.finishedMessage = .ok message) :
    r.lineWithin room created = match (Json.obj (r.fields created message)).excess? room with
      | some excess => .error (.unwritable excess)
      | none => .ok (Json.obj (r.fields created message)).compact := by
  rw [lineWithin, toJson, h]
  rfl

theorem lineWithin_of_misfit {misfit : Misfit} (h : r.finishedMessage = .error misfit) :
    r.lineWithin room created = .error misfit := by
  rw [lineWithin, toJson, h]
  rfl

/-- A record with plain extra values is written as one object on one line, which every reader with as
much room reads back, unless an extra value stands in the way of the message, the message cannot be
finished, or an extra value is beyond the limits. -/
theorem one_object_per_line (r : Record) (created : Timestamp) (room : Nat)
    (honce : r.extra.keys.Nodup) (hplain : ∀ entry ∈ r.extra, entry.2.Plain) :
    r.Outcome created room (r.lineWithin (room + 2) created) := by
  -- the name, the message and the limits are looked at in this order
  cases hhidden : r.extra.get? "getMessage" with
  | some value =>
      have hfinished : r.finishedMessage = .error (.notCallable (kindName value)) := by
        rw [finishedMessage, hhidden]
      rw [lineWithin_of_misfit hfinished]
      exact .hidden hhidden
  | none =>
      have hfinished : r.finishedMessage = fill r.message r.arguments := by
        rw [finishedMessage, hhidden]
      cases hfill : fill r.message r.arguments with
      | error misfit =>
          rw [lineWithin_of_misfit (hfinished.trans hfill)]
          exact .unfinished hhidden hfill
      | ok message =>
          rw [lineWithin_of_finished (hfinished.trans hfill), excess?_fields]
          cases hexcess : r.shownExtra.findSome? fun entry => entry.2.excess? room with
          | some excess => exact .unwritable hhidden hfill hexcess
          | none =>
              have hexact : Json.Exact (room + 2) (.obj (r.fields created message)) :=
                (plain_fields honce hplain).exact
                  ((r.excess?_fields created message room).trans hexcess)
              rw [List.findSome?_eq_none_iff] at hexcess
              refine .line hhidden hfill hexcess (notNewline_compact hexact) ?_
              intro dialect hroom
              exact ⟨_, read_compact hexact hroom, r.shows_fields created message⟩

/-- A record with an argument that breaks the line and with extra values, one of them hidden. -/
def nested : Record where
  logger := "engine"
  message := "read %s"
  arguments := [.str "a\nb"]
  extra := [("step", .arr [.int 1, .obj [("half", .real (.finite false 4503599627370496 (-53)))]]),
    ("_own", .null)]

theorem one_object_per_line_nested : nested.extra.keys.Nodup ∧
    (∀ entry ∈ nested.extra, entry.2.Plain) ∧
    nested.Outcome (.ofUnix 0 0) 948 (nested.lineWithin 950 (.ofUnix 0 0)) := by
  have honce : nested.extra.keys.Nodup := by decide
  have hhalf : Binary.Normal 4503599627370496 (-53) :=
    ⟨by decide, by decide, by decide, by decide, .inl (by decide)⟩
  have hplain : ∀ entry ∈ nested.extra, entry.2.Plain := by
    refine List.forall_mem_cons.2 ⟨.arr ?_, List.forall_mem_singleton.2 .null⟩
    refine List.forall_mem_cons.2 ⟨.int 1, List.forall_mem_singleton.2 (.obj (by decide) ?_)⟩
    exact List.forall_mem_singleton.2 (.real (.normal false hhalf))
  exact ⟨honce, hplain, one_object_per_line nested (.ofUnix 0 0) 948 honce hplain⟩

/-- A record with an extra value that no part of a record has the name of. -/
def masked : Record where
  logger := "root"
  message := "m"
  extra := [("getMessage", .str "x")]

/-- A record can be made of such an extra value and its message needs no arguments, but it has no
line. -/
theorem extra_value_hides_message : masked.forbidden? = none ∧
    fill masked.message masked.arguments = .ok "m" ∧
    masked.jsonLine (.ofUnix 0 0) = .error (.notCallable "str") :=
  ⟨by decide, rfl, rfl⟩

end Record

end Runbook.Journal
