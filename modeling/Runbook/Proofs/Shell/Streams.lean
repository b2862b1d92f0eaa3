import Runbook.Proofs.Text.Lines
import Runbook.Shell.Capture

/-!
# The lines of streams

A stream is cut into lines while its bytes arrive. Whatever pieces they arrive in, what was cut off so far
and what is pending are together the lines of the bytes so far (`Pump.Follows.take`), and with the line
that is left at the end they are all of its lines. So however a performance goes, whether it is killed or
not, its process writes for each source the lines of the bytes that were written to it, in order
(`Performance.lines_of_goes`).
-/

set_option autoImplicit false

namespace Runbook

open Run

/-! ## What a process writes -/

namespace Run

/-- A line that a command wrote. -/
abbrev ShellLine := Source × String

/-- The lines of one source, in order. -/
def textsOf (source : Source) (lines : List ShellLine) : List String :=
  (lines.filter fun line => line.1 = source).map Prod.snd

@[simp] theorem textsOf_nil (source : Source) : textsOf source [] = [] := rfl

@[simp] theorem textsOf_append (source : Source) (lines more : List ShellLine) :
    textsOf source (lines ++ more) = textsOf source lines ++ textsOf source more := by
  rw [textsOf, List.filter_append, List.map_append]
  rfl

@[simp] theorem textsOf_cons_self (source : Source) (text : String) (lines : List ShellLine) :
    textsOf source ((source, text) :: lines) = text :: textsOf source lines := by
  simp [textsOf]

theorem textsOf_cons_of_ne {source other : Source} (h : other ≠ source) (text : String)
    (lines : List ShellLine) : textsOf source ((other, text) :: lines) = textsOf source lines := by
  simp [textsOf, h]

theorem textsOf_map_self (source : Source) (texts : List String) :
    textsOf source (texts.map (Prod.mk source)) = texts := by
  induction texts with
  | nil => rfl
  | cons text texts ih => rw [List.map_cons, textsOf_cons_self, ih]

theorem textsOf_map_of_ne {source other : Source} (h : other ≠ source) (texts : List String) :
    textsOf source (texts.map (Prod.mk other)) = [] := by
  induction texts with
  | nil => rfl
  | cons text texts ih => rw [List.map_cons, textsOf_cons_of_ne h, ih]

/-- A way in which a process can go: the lines that it writes, its exit code, and whether it was
killed. -/
inductive Process.Goes : Process → List ShellLine → Int → Bool → Prop where
  | line {source : Source} {text : String} {rest : Process} {lines : List ShellLine} {exitCode : Int}
      {killed : Bool} : rest.Goes lines exitCode killed →
      Goes (.line source text rest) ((source, text) :: lines) exitCode killed
  | lasts {milliseconds : Nat} {next : Bool → Process} (stopped : Bool) {lines : List ShellLine}
      {exitCode : Int} {killed : Bool} : (next stopped).Goes lines exitCode killed →
      Goes (.lasts milliseconds next) lines exitCode killed
  | cancels {rest : Process} {lines : List ShellLine} {exitCode : Int} {killed : Bool} :
      rest.Goes lines exitCode killed → Goes (.cancels rest) lines exitCode killed
  | writes {change : Files.Disk → Files.Disk} {rest : Process} {lines : List ShellLine}
      {exitCode : Int} {killed : Bool} :
      rest.Goes lines exitCode killed → Goes (.writes change rest) lines exitCode killed
  | ended (exitCode : Int) (killed : Bool) : Goes (.ended exitCode killed) [] exitCode killed

end Run

namespace Shell

open Text

variable {source : Source} {lines : List ShellLine} {exitCode : Int} {killed : Bool}

theorem exists_of_goes_withLines {texts : List String} {rest : Process}
    (h : (withLines source texts rest).Goes lines exitCode killed) :
    ∃ more, lines = texts.map (Prod.mk source) ++ more ∧ rest.Goes more exitCode killed := by
  induction texts generalizing lines with
  | nil => exact ⟨lines, rfl, h⟩
  | cons text texts ih =>
      cases h with
      | line hrest =>
          obtain ⟨more, rfl, hmore⟩ := ih hrest
          exact ⟨more, rfl, hmore⟩

/-! ## Pumps -/

/-- Whether bytes can be pending: they belong to one line, but for a carriage return at their end. -/
def Pending (bytes : List UInt8) : Prop :=
  ∃ line, OneByteLine line ∧ (bytes = line ∨ bytes = line ++ [0x0D])

theorem oneByteLine_reverse {bytes : List UInt8} (h : OneByteLine bytes) :
    OneByteLine bytes.reverse := fun b hb => h b (List.mem_reverse.1 hb)

/-- Bytes are cut into lines up to what is pending, and more bytes behind them change nothing in the
lines that were cut off. -/
theorem byteLines_splitEnded (current bytes : List UInt8) (h : OneByteLine current) :
    Pending (splitEnded current bytes).2 ∧ ∀ more,
      byteLines (current.reverse ++ (bytes ++ more)) =
        (splitEnded current bytes).1.map Utf8.decodeLossy ++
          byteLines ((splitEnded current bytes).2 ++ more) := by
  -- by induction along the cutting; `current` is the part of the open line that was passed
  induction current, bytes using splitEnded.induct with
  | case1 current =>
      rw [splitEnded]
      exact ⟨⟨_, oneByteLine_reverse h, .inl rfl⟩, fun more => rfl⟩
  | case2 current =>
      rw [splitEnded]
      refine ⟨⟨_, oneByteLine_reverse h, .inr (List.reverse_cons ..)⟩, fun more => ?_⟩
      rw [List.reverse_cons, List.append_assoc]
      rfl
  | case3 current rest lines left hcut ih =>
      rw [hcut] at ih
      obtain ⟨hpending, hlines⟩ := ih (List.forall_mem_nil _)
      rw [splitEnded, hcut]
      refine ⟨hpending, fun more => ?_⟩
      rw [List.cons_append, List.cons_append, byteLines_both (oneByteLine_reverse h)]
      exact congrArg _ (hlines more)
  | case4 current b rest hlast hpair hend lines left hcut ih =>
      rw [hcut] at ih
      obtain ⟨hpending, hlines⟩ := ih (List.forall_mem_nil _)
      rw [splitEnded, if_pos hend, hcut]
      · refine ⟨hpending, fun more => ?_⟩
        rw [Bool.or_eq_true, beq_iff_eq, beq_iff_eq] at hend
        rw [List.cons_append]
        rcases hend with rfl | rfl
        · -- a carriage return with something else behind it
          have hhead : (rest ++ more).head? ≠ some 0x0A := by
            cases rest with
            | nil => exact absurd rfl (hlast rfl)
            | cons c rest =>
                rintro ⟨⟩
                exact hpair rest rfl rfl
          rw [byteLines_return (oneByteLine_reverse h) hhead]
          exact congrArg _ (hlines more)
        · rw [byteLines_feed (oneByteLine_reverse h)]
          exact congrArg _ (hlines more)
      · exact hlast
      · exact hpair
  | case5 current b rest hlast hpair hplain ih =>
      rw [Bool.or_eq_true, beq_iff_eq, beq_iff_eq, not_or] at hplain
      obtain ⟨hpending, hlines⟩ := ih (List.forall_mem_cons.2 ⟨⟨hplain.2, hplain.1⟩, h⟩)
      rw [splitEnded, if_neg (by simp [hplain])]
      · refine ⟨hpending, fun more => ?_⟩
        rw [← hlines more, List.reverse_cons, List.append_assoc]
        rfl
      · exact hlast
      · exact hpair

theorem lines_of_pending {bytes : List UInt8} (h : Pending bytes) :
    (Pump.mk bytes).finish = (byteLines bytes).map String.ofList := by
  obtain ⟨line, hline, hbytes | hbytes⟩ := h
  · rw [hbytes]
    rcases eq_or_ne line [] with rfl | hne
    · rfl
    · have hlast : line.getLast? ≠ some 0x0D := by
        intro hlast
        exact (hline _ (List.mem_of_getLast? hlast)).2 rfl
      rw [byteLines_rest hline hne]
      unfold Pump.finish
      split
      · rename_i hnil
        exact absurd hnil hne
      · exact absurd ‹_ = some _› hlast
      · rfl
  · have hnil : byteLines [] = [] := rfl
    have hlines : byteLines (line ++ [0x0D]) = [Utf8.decodeLossy line] := by
      rw [byteLines_return hline (by simp), hnil]
    rw [hbytes, hlines]
    unfold Pump.finish
    split
    · rename_i hnil
      cases line <;> cases hnil
    · rw [List.dropLast_concat]
      rfl
    · rename_i hreturn
      exact (hreturn List.getLast?_concat).elim

/-- Whether a pump has cut some lines off the bytes so far: more bytes change nothing in them. -/
structure Pump.Follows (p : Pump) (written : List UInt8) (lines : List String) : Prop where
  pending : Pending p.pending
  lines_append : ∀ more, (byteLines (written ++ more)).map String.ofList =
    lines ++ (byteLines (p.pending ++ more)).map String.ofList

theorem Pump.follows_start : ({} : Pump).Follows [] [] where
  pending := ⟨[], List.forall_mem_nil _, .inl rfl⟩
  lines_append _ := rfl

/-- Bytes that arrive are cut into lines together with those that were pending. -/
theorem Pump.Follows.take {p : Pump} {written : List UInt8} {lines : List String}
    (h : p.Follows written lines) (bytes : List UInt8) :
    (p.take bytes).2.Follows (written ++ bytes) (lines ++ (p.take bytes).1) := by
  obtain ⟨hpending, hlines⟩ := byteLines_splitEnded [] (p.pending ++ bytes) (List.forall_mem_nil _)
  have htexts : (p.take bytes).1 =
      ((splitEnded [] (p.pending ++ bytes)).1.map Utf8.decodeLossy).map String.ofList := by
    rw [List.map_map]
    rfl
  refine ⟨hpending, fun more => ?_⟩
  have hmore := hlines more
  rw [List.reverse_nil, List.nil_append, List.append_assoc] at hmore
  rw [List.append_assoc, h.lines_append, hmore, List.map_append, htexts, List.append_assoc]
  rfl

/-- With the line that is left at the end, the lines are those of all bytes. -/
theorem Pump.Follows.finish {p : Pump} {written : List UInt8} {lines : List String}
    (h : p.Follows written lines) :
    lines ++ p.finish = (byteLines written).map String.ofList := by
  have hall := h.lines_append []
  rw [List.append_nil, List.append_nil] at hall
  rw [hall, lines_of_pending h.pending]

/-! ## Performances -/

/-- The bytes that deeds write to a source. -/
def written (source : Source) (deeds : List (Nat × Deed)) : List UInt8 :=
  deeds.flatMap fun
    | (_, .wrote other bytes) => if other = source then bytes else []
    | (_, .changed _) => []

/-- The pump of a source. -/
def Pumps.of (pumps : Pumps) : Source → Pump
  | .stdout => pumps.stdout
  | .stderr => pumps.stderr

theorem goes_finish {pumps : Pumps} {code : Int} {stopped : Bool}
    (h : (pumps.finish code stopped).Goes lines exitCode killed) :
    (∀ source, textsOf source lines = (pumps.of source).finish) ∧ killed = stopped := by
  obtain ⟨more, rfl, hmore⟩ := exists_of_goes_withLines h
  obtain ⟨none, rfl, hend⟩ := exists_of_goes_withLines hmore
  cases hend
  refine ⟨fun source => ?_, rfl⟩
  cases source with
  | stdout => simp [textsOf_map_self, textsOf_map_of_ne, Pumps.of]
  | stderr => simp [textsOf_map_self, textsOf_map_of_ne, Pumps.of]

theorem written_cons_wrote (source : Source) (time : Nat) (bytes : List UInt8)
    (deeds : List (Nat × Deed)) :
    written source ((time, .wrote source bytes) :: deeds) = bytes ++ written source deeds := by
  rw [written, List.flatMap_cons]
  dsimp only
  rw [if_pos rfl]
  rfl

theorem written_cons_of_ne {source other : Source} (h : other ≠ source) (time : Nat)
    (bytes : List UInt8) (deeds : List (Nat × Deed)) :
    written source ((time, .wrote other bytes) :: deeds) = written source deeds := by
  rw [written, List.flatMap_cons]
  dsimp only
  rw [if_neg h]
  rfl

/-- Whether lines are those that are still to come of some deeds, where the pumps have cut off `cut` of
the bytes `before`: the lines of all deeds, or of the first ones if the process is killed. -/
def Remaining (before : Source → List UInt8) (cut : Source → List String)
    (deeds : List (Nat × Deed)) (lines : List ShellLine) (killed : Bool) : Prop :=
  ∃ done left, deeds = done ++ left ∧ (killed = false → left = []) ∧
    ∀ source, cut source ++ textsOf source lines =
      (byteLines (before source ++ written source done)).map String.ofList

section Remaining

variable {before : Source → List UInt8} {cut : Source → List String} {pumps : Pumps}
  {deeds : List (Nat × Deed)}

theorem remaining_of_finish (hpumps : ∀ source, (pumps.of source).Follows (before source) (cut source))
    {code : Int} {stopped : Bool} (hleft : stopped = false → deeds = [])
    (h : (pumps.finish code stopped).Goes lines exitCode killed) :
    Remaining before cut deeds lines killed := by
  obtain ⟨htexts, rfl⟩ := goes_finish h
  refine ⟨[], deeds, rfl, hleft, fun source => ?_⟩
  rw [htexts, (hpumps source).finish, written, List.flatMap_nil, List.append_nil]

/-- What a piece of bytes adds to the lines of its source. -/
theorem remaining_of_wrote {time : Nat} {bytes : List UInt8} {texts : List String}
    (h : Remaining (fun s => if s = source then before s ++ bytes else before s)
      (fun s => if s = source then cut s ++ texts else cut s) deeds lines killed) :
    Remaining before cut ((time, .wrote source bytes) :: deeds)
      (texts.map (Prod.mk source) ++ lines) killed := by
  obtain ⟨done, left, rfl, hleft, htexts⟩ := h
  refine ⟨(time, .wrote source bytes) :: done, left, rfl, hleft, fun other => ?_⟩
  have hother := htexts other
  by_cases hsource : other = source
  · subst hsource
    dsimp only at hother
    rw [if_pos rfl, if_pos rfl] at hother
    rw [textsOf_append, textsOf_map_self, written_cons_wrote, ← List.append_assoc,
      ← List.append_assoc]
    exact hother
  · dsimp only at hother
    rw [if_neg hsource, if_neg hsource] at hother
    rw [textsOf_append, textsOf_map_of_ne (Ne.symm hsource), written_cons_of_ne (Ne.symm hsource)]
    exact hother

/-- The process that begins with a deed. -/
def Performance.goOn (p : Performance) (now : Nat) (pumps : Pumps) (rest : List (Nat × Deed)) :
    Deed → Process
  | .changed change => .writes change (p.processFrom now pumps rest)
  | .wrote .stdout bytes => withLines .stdout (pumps.stdout.take bytes).1
      (p.processFrom now { pumps with stdout := (pumps.stdout.take bytes).2 } rest)
  | .wrote .stderr bytes => withLines .stderr (pumps.stderr.take bytes).1
      (p.processFrom now { pumps with stderr := (pumps.stderr.take bytes).2 } rest)

theorem processFrom_cons (p : Performance) (now time : Nat) (pumps : Pumps) (deed : Deed)
    (rest : List (Nat × Deed)) :
    p.processFrom now pumps ((time, deed) :: rest) =
      if now < time then .lasts (time - now) fun stopped =>
        if stopped then p.killedAt now pumps else p.goOn time pumps rest deed
      else p.goOn now pumps rest deed := by
  rw [Performance.processFrom]
  cases deed with
  | changed change => rfl
  | wrote source bytes => cases source <;> rfl

/-- From some time on, a process writes the lines that are still to come of the deeds from then on. -/
theorem remaining_of_goes (p : Performance) {now : Nat}
    (hpumps : ∀ source, (pumps.of source).Follows (before source) (cut source))
    (h : (p.processFrom now pumps deeds).Goes lines exitCode killed) :
    Remaining before cut deeds lines killed := by
  -- by induction on the deeds; before each of them the process can be killed
  induction deeds generalizing now pumps before cut lines with
  | nil =>
      rw [Performance.processFrom] at h
      split at h
      · cases h with
        | lasts stopped h =>
            cases stopped with
            | false => exact remaining_of_finish hpumps (fun _ => rfl) h
            | true => exact remaining_of_finish hpumps (fun _ => rfl) h
      · exact remaining_of_finish hpumps (fun _ => rfl) h
  | cons first rest ih =>
      obtain ⟨time, deed⟩ := first
      have hgoing : ∀ {now : Nat} {lines : List ShellLine},
          (p.goOn now pumps rest deed).Goes lines exitCode killed →
            Remaining before cut ((time, deed) :: rest) lines killed := by
        intro now lines h
        cases deed with
        | changed change =>
            cases h with
            | writes h =>
                obtain ⟨done, left, rfl, hleft, htexts⟩ := ih hpumps h
                exact ⟨(time, .changed change) :: done, left, rfl, hleft, htexts⟩
        | wrote source bytes =>
            cases source with
            | stdout =>
                obtain ⟨more, rfl, hmore⟩ := exists_of_goes_withLines h
                refine remaining_of_wrote (ih (fun source => ?_) hmore)
                cases source with
                | stdout => exact (hpumps .stdout).take bytes
                | stderr => exact hpumps .stderr
            | stderr =>
                obtain ⟨more, rfl, hmore⟩ := exists_of_goes_withLines h
                refine remaining_of_wrote (ih (fun source => ?_) hmore)
                cases source with
                | stdout => exact hpumps .stdout
                | stderr => exact (hpumps .stderr).take bytes
      rw [processFrom_cons] at h
      split at h
      · cases h with
        | lasts stopped h =>
            cases stopped with
            | false => exact hgoing h
            | true => exact remaining_of_finish hpumps (fun hstopped => by cases hstopped) h
      · exact hgoing h

end Remaining

/-- However a performance goes, its process writes for each source the lines of the bytes that were
written to it, in order: of all bytes, or of those up to when it was killed. -/
theorem Performance.lines_of_goes {p : Performance} (h : p.process.Goes lines exitCode killed) :
    ∃ done left, p.deeds = done ++ left ∧ (killed = false → left = []) ∧
      ∀ source, textsOf source lines = (byteLines (written source done)).map String.ofList := by
  have hpumps : ∀ source, (({} : Pumps).of source).Follows [] [] := by
    intro source
    cases source <;> exact Pump.follows_start
  have hremaining : Remaining (fun _ => []) (fun _ => []) p.deeds lines killed :=
    remaining_of_goes p hpumps h
  exact hremaining

end Shell

end Runbook
