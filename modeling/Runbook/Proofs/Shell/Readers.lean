import Mathlib.Data.List.ReduceOption
import Runbook.Proofs.Happens
import Runbook.Proofs.Shell.Streams

/-!
# The readers of the two streams

Each stream of a command has a reader of its own, which reads it line by line, takes the line end off and
puts the line into a queue that both readers share. Behind its last line it puts a mark. What is handed on
is taken from the front of the queue, until both marks are there. A `Capture` is what the two readers and
the taker share; a history of it is any order in which they take turns.

Whatever the order, nothing is lost, doubled or left behind (`Capture.Sound`), every history goes on until
both marks were taken, after as many moves as the lines ask for (`Capture.Step.work_eq`), and what was
handed on by then are the lines of each stream in order, mixed in any way (`hands_iff`).
-/

set_option autoImplicit false

namespace Runbook.Shell

open Run Text

/-! ## Reading line by line -/

/-- The lines of a text with the line feeds that end them; `current` holds the open line in reverse. -/
def rawLinesFrom (current : List Char) : List Char → List (List Char)
  | [] => if current.isEmpty then [] else [current.reverse]
  | '\n' :: rest => ('\n' :: current).reverse :: rawLinesFrom [] rest
  | c :: rest => rawLinesFrom (c :: current) rest

/-- The lines of a text with the line feeds that end them. -/
def rawLines (cs : List Char) : List (List Char) := rawLinesFrom [] cs

/-- A line without the line feeds and carriage returns at its end. -/
def trimmed (raw : List Char) : List Char :=
  (raw.reverse.dropWhile fun c => c == '\n' || c == '\r').reverse

theorem trimmed_of_oneLine {line : List Char} (h : OneLine line) : trimmed line = line := by
  cases hreverse : line.reverse with
  | nil =>
      rw [List.reverse_eq_nil_iff.1 hreverse]
      rfl
  | cons c rest =>
      -- the last character stops the trimming
      have hc := h.reverse c (hreverse ▸ List.mem_cons_self)
      have hlast : (c == '\n' || c == '\r') = false := by simp [hc]
      rw [trimmed, hreverse, List.dropWhile_cons_of_neg (by simp [hlast]), ← hreverse,
        List.reverse_reverse]

/-- Of a line with its line feed nothing but the line feed is taken off. -/
theorem trimmed_feed {line : List Char} (h : OneLine line) : trimmed (line ++ ['\n']) = line := by
  have hplain := trimmed_of_oneLine h
  rw [trimmed] at hplain ⊢
  rw [List.reverse_append, List.reverse_singleton, List.singleton_append,
    List.dropWhile_cons_of_pos (by rfl), hplain]

theorem map_trimmed_rawLinesFrom {current cs : List Char} (hcurrent : OneLine current)
    (hcs : '\r' ∉ cs) : (rawLinesFrom current cs).map trimmed = splitFeedsFrom current cs := by
  -- by induction along the text; without a carriage return in it a line loses its line feed alone
  induction current, cs using rawLinesFrom.induct with
  | case1 current hempty =>
      rw [rawLinesFrom, splitFeedsFrom, if_pos hempty]
      exact List.map_nil
  | case2 current hempty =>
      rw [rawLinesFrom, splitFeedsFrom, if_neg hempty, List.map_singleton,
        trimmed_of_oneLine hcurrent.reverse]
  | case3 current rest ih =>
      rw [rawLinesFrom, splitFeedsFrom, List.map_cons, List.reverse_cons,
        trimmed_feed hcurrent.reverse,
        ih (List.forall_mem_nil _) (List.not_mem_of_not_mem_cons hcs)]
  | case4 current c rest hfeed ih =>
      obtain ⟨hc, hrest⟩ := List.ne_and_not_mem_of_not_mem_cons hcs
      have hopen : OneLine (c :: current) := List.forall_mem_cons.2 ⟨⟨hfeed, Ne.symm hc⟩, hcurrent⟩
      rw [rawLinesFrom, splitFeedsFrom, ih hopen hrest]
      · exact hfeed
      · exact hfeed

/-- What a reader reads of bytes: their characters with all line ends turned into line feeds, line by
line. -/
def readOf (bytes : List UInt8) : List (List Char) :=
  rawLines (normalizeNewlines (Utf8.decodeLossy bytes))

theorem map_trimmed_readOf (bytes : List UInt8) : (readOf bytes).map trimmed = byteLines bytes :=
  map_trimmed_rawLinesFrom (List.forall_mem_nil _) (return_notMem_normalizeNewlines _)

/-! ## Two readers and a taker -/

/-- A reader: what it has not read yet, and whether it is still to put its mark. -/
structure Reader where
  left : List (List Char)
  isOpen : Bool

/-- The lines that a reader is still to put into the queue. -/
def Reader.texts (reader : Reader) : List String :=
  (reader.left.map trimmed).map String.ofList

/-- How many moves are still to come for a reader, and for the taker with what the reader puts. -/
def Reader.work (reader : Reader) : Nat := 2 * (reader.left.length + reader.isOpen.toNat)

/-- What the readers and the taker share. -/
structure Capture where
  readers : Source → Reader
  /-- Lines, and nothing for a mark. -/
  queue : List (Option ShellLine)
  /-- How many marks were not taken yet. -/
  marks : Nat
  /-- The lines that were handed on. -/
  handed : List ShellLine

namespace Capture

/-- What can happen next. -/
inductive Move where
  /-- A reader puts a line into the queue. -/
  | puts (source : Source)
  /-- A reader puts its mark into the queue. -/
  | closes (source : Source)
  /-- A line is handed on. -/
  | hands
  /-- A mark is taken. -/
  | counts
  deriving DecidableEq

/-- The readers with one of them changed. -/
def change (readers : Source → Reader) (source : Source) (reader : Reader) : Source → Reader :=
  fun other => if other = source then reader else readers other

/-- One step of a reader or of the taker, who goes on as long as there are marks to come. -/
inductive Step : Capture → Move → Capture → Prop
  | puts {readers : Source → Reader} {queue : List (Option ShellLine)} {marks : Nat}
      {handed : List ShellLine} {source : Source} {raw : List Char} {left : List (List Char)} :
      readers source = ⟨raw :: left, true⟩ →
      Step ⟨readers, queue, marks, handed⟩ (.puts source)
        ⟨change readers source ⟨left, true⟩,
          queue ++ [some (source, String.ofList (trimmed raw))], marks, handed⟩
  | closes {readers : Source → Reader} {queue : List (Option ShellLine)} {marks : Nat}
      {handed : List ShellLine} {source : Source} : readers source = ⟨[], true⟩ →
      Step ⟨readers, queue, marks, handed⟩ (.closes source)
        ⟨change readers source ⟨[], false⟩, queue ++ [none], marks, handed⟩
  | hands {readers : Source → Reader} {line : ShellLine} {queue : List (Option ShellLine)}
      {marks : Nat} {handed : List ShellLine} :
      Step ⟨readers, some line :: queue, marks + 1, handed⟩ .hands
        ⟨readers, queue, marks + 1, handed ++ [line]⟩
  | counts {readers : Source → Reader} {queue : List (Option ShellLine)} {marks : Nat}
      {handed : List ShellLine} :
      Step ⟨readers, none :: queue, marks + 1, handed⟩ .counts ⟨readers, queue, marks, handed⟩

/-- The beginning: nothing of the bytes was read yet. -/
def start (bytes : Source → List UInt8) : Capture :=
  ⟨fun source => ⟨readOf (bytes source), true⟩, [], 2, []⟩

variable {readers : Source → Reader} {source other : Source} {reader : Reader}
  {s s' : Capture} {m : Move} {moves : List Move}

@[simp] theorem change_self : change readers source reader source = reader := if_pos rfl

theorem change_of_ne (h : other ≠ source) : change readers source reader other = readers other :=
  if_neg h

/-- A quantity of both readers together. -/
def both (f : Reader → Nat) (readers : Source → Reader) : Nat :=
  f (readers .stdout) + f (readers .stderr)

theorem both_change (f : Reader → Nat) (readers : Source → Reader) (source : Source)
    (reader : Reader) :
    both f (change readers source reader) + f (readers source) = both f readers + f reader := by
  cases source with
  | stdout =>
      rw [both, change_self, change_of_ne (by decide), both]
      omega
  | stderr =>
      rw [both, change_self, change_of_ne (by decide), both]
      omega

/-! ### What every history keeps -/

/-- Whether all lines are where they belong: what was handed on, what is in the queue and what was not
read yet are together the lines of the bytes, and nothing comes behind the second mark. -/
structure Sound (bytes : Source → List UInt8) (s : Capture) : Prop where
  lines : ∀ source, textsOf source (s.handed ++ s.queue.reduceOption) ++ (s.readers source).texts =
    (byteLines (bytes source)).map String.ofList
  marks : s.marks = s.queue.count none + both (fun reader => reader.isOpen.toNat) s.readers
  closed : ∀ source, (s.readers source).isOpen = false → (s.readers source).left = []
  last : (∀ source, (s.readers source).isOpen = false) → ∀ item ∈ s.queue.getLast?, item = none

variable {bytes : Source → List UInt8}

theorem sound_start (bytes : Source → List UInt8) : Sound bytes (start bytes) where
  lines source := by
    rw [← map_trimmed_readOf]
    rfl
  marks := rfl
  closed _ hclosed := by cases hclosed
  last _ _ hitem := by cases hitem

/-- A reader puts its next line into the queue, or its mark behind its last line. -/
theorem Sound.queued {queue : List (Option ShellLine)} {marks : Nat} {handed : List ShellLine}
    {item : Option ShellLine} (h : Sound bytes ⟨readers, queue, marks, handed⟩)
    (hopen : (readers source).isOpen = true)
    (htexts : (readers source).texts = textsOf source item.toList ++ reader.texts)
    (hsource : ∀ other, other ≠ source → textsOf other item.toList = [])
    (hmark : reader.isOpen = item.isSome) (hclosed : reader.isOpen = false → reader.left = []) :
    Sound bytes ⟨change readers source reader, queue ++ [item], marks, handed⟩ where
  lines other := by
    have hlines := h.lines other
    dsimp only at hlines ⊢
    rw [← hlines, List.reduceOption_append, List.reduceOption_singleton, ← List.append_assoc,
      textsOf_append _ (_ ++ _)]
    by_cases hother : other = source
    · subst hother
      rw [change_self, htexts, List.append_assoc]
    · rw [change_of_ne hother, hsource other hother, List.append_nil]
  marks := by
    -- a reader that closes is replaced by the mark in the queue
    have hboth := both_change (fun reader => reader.isOpen.toNat) readers source reader
    have hmarks := h.marks
    dsimp only at hmarks hboth ⊢
    rw [hopen, hmark] at hboth
    rw [hmarks, List.count_append]
    cases item with
    | none =>
        rw [List.count_singleton_self]
        simp only [Option.isSome_none, Bool.toNat_false, Bool.toNat_true] at hboth
        omega
    | some line =>
        rw [List.count_singleton, if_neg (by simp)]
        simp only [Option.isSome_some, Bool.toNat_true] at hboth
        omega
  closed other := by
    dsimp only
    by_cases hother : other = source
    · subst hother
      rw [change_self]
      exact hclosed
    · rw [change_of_ne hother]
      exact h.closed other
  last hall item' hitem := by
    -- the reader itself has closed, so what it put is its mark
    have hnone := hall source
    dsimp only at hnone
    rw [change_self, hmark, Option.isSome_eq_false_iff, Option.isNone_iff_eq_none] at hnone
    rw [List.getLast?_concat] at hitem
    exact (Option.some.inj hitem).symm.trans hnone

/-- The first line of the queue is handed on, or its first mark is taken. -/
theorem Sound.taken {item : Option ShellLine} {queue : List (Option ShellLine)} {marks marks' : Nat}
    {handed : List ShellLine} (h : Sound bytes ⟨readers, item :: queue, marks, handed⟩)
    (hmarks : marks = marks' + [item].count none) :
    Sound bytes ⟨readers, queue, marks', handed ++ item.toList⟩ where
  lines other := by
    rw [← h.lines other, List.append_assoc]
    cases item <;> rfl
  marks := by
    have hbefore := h.marks
    dsimp only at hbefore ⊢
    rw [← List.singleton_append, List.count_append] at hbefore
    omega
  closed := h.closed
  last hall item' hitem := h.last hall item' (List.mem_getLast?_cons hitem)

theorem Step.sound (hstep : Step s m s') (h : Sound bytes s) : Sound bytes s' := by
  cases hstep with
  | @puts _ _ _ _ source raw left hreader =>
      refine h.queued ?_ ?_ ?_ rfl ?_
      · rw [hreader]
      · rw [hreader, Option.toList_some, textsOf_cons_self]
        rfl
      · intro other hother
        exact textsOf_cons_of_ne (Ne.symm hother) _ []
      · intro hclosed
        cases hclosed
  | closes hreader =>
      refine h.queued ?_ ?_ ?_ rfl ?_
      · rw [hreader]
      · rw [hreader]
        rfl
      · intro other _
        rfl
      · intro _
        rfl
  | hands => exact h.taken rfl
  | @counts readers queue marks handed =>
      have htaken : Sound bytes ⟨readers, queue, marks, handed ++ []⟩ := h.taken rfl
      rwa [List.append_nil] at htaken

theorem sound_of_happens (h : Happens Step (start bytes) moves s) : Sound bytes s := by
  induction h with
  | nothing => exact sound_start bytes
  | further _ hstep ih => exact hstep.sound ih

/-! ### Where histories end -/

/-- How many moves are still to come. -/
def work (s : Capture) : Nat := s.queue.length + both Reader.work s.readers

/-- Each move is one of those that were still to come. -/
theorem Step.work_eq (hstep : Step s m s') : s'.work + 1 = s.work := by
  cases hstep with
  | @puts readers queue _ _ source raw left hreader =>
      have hboth := both_change Reader.work readers source ⟨left, true⟩
      rw [hreader] at hboth
      simp only [Reader.work, List.length_cons] at hboth
      simp only [work, List.length_append, List.length_singleton]
      omega
  | @closes readers queue _ _ source hreader =>
      have hboth := both_change Reader.work readers source ⟨[], false⟩
      rw [hreader] at hboth
      simp only [Reader.work, Bool.toNat_true, Bool.toNat_false] at hboth
      simp only [work, List.length_append, List.length_singleton]
      omega
  | hands => exact (Nat.add_right_comm ..).symm
  | counts => exact (Nat.add_right_comm ..).symm

theorem length_add_work (h : Happens Step s moves s') : moves.length + s'.work = s.work := by
  induction h with
  | nothing => exact Nat.zero_add _
  | further _ hstep ih =>
      rw [← ih, ← hstep.work_eq, List.length_append, List.length_singleton]
      omega

/-- A history in which a mark was not taken yet can go on. -/
theorem Sound.exists_step (h : Sound bytes s) (hmarks : s.marks ≠ 0) : ∃ m s', Step s m s' := by
  obtain ⟨readers, queue, marks, handed⟩ := s
  obtain ⟨marks, rfl⟩ := Nat.exists_eq_succ_of_ne_zero hmarks
  cases queue with
  | cons item queue =>
      cases item with
      | some line => exact ⟨_, _, .hands⟩
      | none => exact ⟨_, _, .counts⟩
  | nil =>
      -- with nothing in the queue a missing mark is still with its reader
      have hsome : ∃ source, (readers source).isOpen = true := by
        by_contra hnone
        have hclosed : ∀ source, (readers source).isOpen = false := fun source => by
          simpa using fun hopen => hnone ⟨source, hopen⟩
        have hcount := h.marks
        simp [both, hclosed] at hcount
      obtain ⟨source, hopen⟩ := hsome
      cases hreader : readers source with
      | mk left isOpen =>
          rw [hreader] at hopen
          subst hopen
          cases left with
          | nil => exact ⟨_, _, .closes hreader⟩
          | cons raw left => exact ⟨_, _, .puts hreader⟩

/-- With both marks taken everything was handed on. -/
theorem Sound.handed_eq (h : Sound bytes s) (hmarks : s.marks = 0) :
    ∀ source, textsOf source s.handed = (byteLines (bytes source)).map String.ofList := by
  have hcount := h.marks
  rw [hmarks, both] at hcount
  have hclosed : ∀ source, (s.readers source).isOpen = false := by
    intro source
    rw [← Bool.toNat_eq_zero]
    cases source <;> omega
  -- the last item of the queue would be a mark, and all marks were taken
  have hqueue : s.queue = [] := by
    rcases List.eq_nil_or_concat s.queue with hnil | ⟨front, item, hconcat⟩
    · exact hnil
    · have hlast := h.last hclosed item (by simp [hconcat])
      have hpos : 0 < s.queue.count none := by
        rw [List.count_pos_iff, hconcat, hlast, List.concat_eq_append]
        exact List.mem_append_right _ (List.mem_singleton_self _)
      omega
  intro source
  have hlines := h.lines source
  rwa [hqueue, Reader.texts, h.closed source (hclosed source), List.reduceOption_nil,
    List.append_nil, List.map_nil, List.map_nil, List.append_nil] at hlines

/-! ### Every order is possible -/

/-- The lines of two streams can be handed on in any order in which each stream has its own. -/
theorem happens_lines {lines : List ShellLine} (hopen : ∀ source, (readers source).isOpen = true)
    (htexts : ∀ source, textsOf source lines = (readers source).texts) (handed : List ShellLine) :
    ∃ moves readers', (∀ source, readers' source = ⟨[], true⟩) ∧
      Happens Step ⟨readers, [], 2, handed⟩ moves ⟨readers', [], 2, handed ++ lines⟩ := by
  -- by induction on the lines: each is read and handed on at once
  induction lines generalizing readers handed with
  | nil =>
      have hread : ∀ source, readers source = ⟨[], true⟩ := by
        intro source
        have hleft : (readers source).left = [] := by
          simpa [Reader.texts] using (htexts source).symm
        rw [← hopen source, ← hleft]
      rw [List.append_nil]
      exact ⟨[], readers, hread, .nothing⟩
  | cons line lines ih =>
      obtain ⟨source, text⟩ := line
      have hsource := htexts source
      have hsourceOpen := hopen source
      rw [textsOf_cons_self] at hsource
      cases hreader : readers source with
      | mk left isOpen =>
          rw [hreader] at hsource hsourceOpen
          subst hsourceOpen
          cases left with
          | nil => cases hsource
          | cons raw rest =>
              obtain ⟨rfl, hrest⟩ := List.cons.inj hsource
              have hopen' : ∀ other, (change readers source ⟨rest, true⟩ other).isOpen = true := by
                intro other
                rw [change]
                split
                · rfl
                · exact hopen other
              have htexts' : ∀ other,
                  textsOf other lines = (change readers source ⟨rest, true⟩ other).texts := by
                intro other
                by_cases hother : other = source
                · subst hother
                  rw [change_self, hrest]
                  rfl
                · rw [change_of_ne hother, ← htexts other, textsOf_cons_of_ne (Ne.symm hother)]
              obtain ⟨moves, readers', hread, hmoves⟩ :=
                ih hopen' htexts' (handed ++ [(source, String.ofList (trimmed raw))])
              rw [List.append_assoc] at hmoves
              exact ⟨_, readers', hread,
                (Happens.nothing.further (.puts hreader)).further .hands |>.trans hmoves⟩

/-- Behind all lines both readers close, and both marks are taken. -/
theorem happens_close (hread : ∀ source, readers source = ⟨[], true⟩) (handed : List ShellLine) :
    ∃ moves readers', Happens Step ⟨readers, [], 2, handed⟩ moves ⟨readers', [], 0, handed⟩ := by
  have hother : change readers .stdout ⟨[], false⟩ .stderr = ⟨[], true⟩ :=
    (change_of_ne (by decide)).trans (hread .stderr)
  exact ⟨_, _, Happens.nothing |>.further (.closes (hread .stdout)) |>.further (.closes hother)
    |>.further .counts |>.further .counts⟩

end Capture

open Capture

/-- Whether the readers of two streams can hand lines on until both have closed. -/
def Hands (bytes : Source → List UInt8) (lines : List ShellLine) : Prop :=
  ∃ moves s, Happens Capture.Step (start bytes) moves s ∧ s.marks = 0 ∧ s.handed = lines

/-- What is handed on are the lines of each stream in order, mixed in any way. -/
theorem hands_iff {bytes : Source → List UInt8} {lines : List ShellLine} :
    Hands bytes lines ↔
      ∀ source, textsOf source lines = (byteLines (bytes source)).map String.ofList := by
  constructor
  · rintro ⟨moves, s, hmoves, hmarks, rfl⟩
    exact (sound_of_happens hmoves).handed_eq hmarks
  · intro h
    have htexts : ∀ source, textsOf source lines = Reader.texts ⟨readOf (bytes source), true⟩ := by
      intro source
      rw [h, ← map_trimmed_readOf]
      rfl
    obtain ⟨moves, readers, hread, hmoves⟩ := happens_lines (fun _ => rfl) htexts []
    obtain ⟨closing, readers', hclosing⟩ := happens_close hread lines
    exact ⟨_, _, hmoves.trans hclosing, rfl, rfl⟩

end Runbook.Shell
