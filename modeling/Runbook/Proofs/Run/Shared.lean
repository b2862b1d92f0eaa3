import Runbook.Proofs.Run.Watch

/-!
# A stream that is shared

Any number of readers may wait at one stream while others put lines and close it. Putting and closing
are one step each, since both are done under the lock of the stream. Reading is several: a reader asks,
and later takes what comes first; a reader that took the mark of the end puts it back in a step of its
own, so that all others may come in between. `Shared` is what they have in common, and a history of it
is any order in which they take turns.

The lines stay in order and the mark stays behind them, in the stream or in the hand of one reader
(`Kept`). So each line is handed out once, and whoever waits at a closed stream is answered
(`shared_stream_keeps_its_lines`).
-/

set_option autoImplicit false

namespace Runbook.Run

/-- A stream, the readers who wait for what comes first, and those who hold the mark of the end. -/
structure Shared where
  stream : Stream := {}
  asking : List Nat := []
  holders : List Nat := []

namespace Shared

open Watch (Waits)

/-- What can happen next. -/
inductive Move where
  /-- A line is put. -/
  | put (text : String)
  /-- A line is refused. -/
  | refused (text : String)
  /-- Somebody closes the stream, and is told whether it was open. -/
  | close (wasOpen : Bool)
  /-- A reader begins to wait. -/
  | asks (reader : Nat)
  /-- A reader is handed a line. -/
  | line (reader : Nat) (text : String)
  /-- A reader takes the mark of the end. -/
  | mark (reader : Nat)
  /-- A reader puts the mark back, and is told that the stream has ended. -/
  | ended (reader : Nat)
  /-- A reader gives up, since nothing came in time. -/
  | gaveUp (reader : Nat)
  deriving DecidableEq

/-- One step of a writer or a reader. -/
inductive Step : Shared → Move → Shared → Prop
  | put {stream stream' : Stream} {asking holders : List Nat} {text : String} :
      stream.put text = some stream' →
      Step ⟨stream, asking, holders⟩ (.put text) ⟨stream', asking, holders⟩
  | refused {s : Shared} {text : String} : s.stream.put text = none → Step s (.refused text) s
  | close {stream : Stream} {asking holders : List Nat} :
      Step ⟨stream, asking, holders⟩ (.close stream.close.2) ⟨stream.close.1, asking, holders⟩
  | asks {stream : Stream} {asking holders : List Nat} {reader : Nat} :
      reader ∉ asking → reader ∉ holders →
      Step ⟨stream, asking, holders⟩ (.asks reader) ⟨stream, reader :: asking, holders⟩
  | line {stream stream' : Stream} {asking holders : List Nat} {reader : Nat} {text : String} :
      reader ∈ asking → stream.take = some (.line text, stream') →
      Step ⟨stream, asking, holders⟩ (.line reader text) ⟨stream', asking.erase reader, holders⟩
  | mark {stream stream' : Stream} {asking holders : List Nat} {reader : Nat} :
      reader ∈ asking → stream.take = some (.endMark, stream') →
      Step ⟨stream, asking, holders⟩ (.mark reader)
        ⟨stream', asking.erase reader, reader :: holders⟩
  | ended {stream : Stream} {asking holders : List Nat} {reader : Nat} : reader ∈ holders →
      Step ⟨stream, asking, holders⟩ (.ended reader)
        ⟨stream.giveBack, asking, holders.erase reader⟩
  | gaveUp {stream : Stream} {asking holders : List Nat} {reader : Nat} : reader ∈ asking →
      stream.take = none →
      Step ⟨stream, asking, holders⟩ (.gaveUp reader) ⟨stream, asking.erase reader, holders⟩

/-- The lines that were put. -/
def accepted (moves : List Move) : List String :=
  moves.filterMap fun
    | .put text => some text
    | _ => none

/-- The lines that were handed out, to whomever. -/
def handedOut (moves : List Move) : List String :=
  moves.filterMap fun
    | .line _ text => some text
    | _ => none

variable {moves more : List Move} {m : Move} {s s' : Shared} {reader holder : Nat}

@[simp] theorem accepted_append (moves more : List Move) :
    accepted (moves ++ more) = accepted moves ++ accepted more := List.filterMap_append

@[simp] theorem handedOut_append (moves more : List Move) :
    handedOut (moves ++ more) = handedOut moves ++ handedOut more := List.filterMap_append

/-! ## Reading alone -/

/-- Reading the stream in one go is a part of a history, unless nothing waits there. -/
theorem happens_get {stream : Stream} {asking holders : List Nat}
    (hasking : reader ∉ asking) (hholders : reader ∉ holders) :
    match stream.get with
    | (.line text, stream') =>
      Happens Step ⟨stream, asking, holders⟩ [.asks reader, .line reader text]
        ⟨stream', asking, holders⟩
    | (.ended, stream') =>
      Happens Step ⟨stream, asking, holders⟩ [.asks reader, .mark reader, .ended reader]
        ⟨stream', asking, holders⟩
    | (.nothingYet, stream') =>
      Happens Step ⟨stream, asking, holders⟩ [.asks reader, .gaveUp reader]
        ⟨stream', asking, holders⟩ := by
  have hasks : Happens Step ⟨stream, asking, holders⟩ [.asks reader]
      ⟨stream, reader :: asking, holders⟩ := .single (.asks hasking hholders)
  have hmem : reader ∈ reader :: asking := List.mem_cons_self
  unfold Stream.get
  cases htake : stream.take with
  | none =>
      have hstep : Step ⟨stream, reader :: asking, holders⟩ (.gaveUp reader)
          ⟨stream, (reader :: asking).erase reader, holders⟩ := .gaveUp hmem htake
      rw [List.erase_cons_head] at hstep
      exact hasks.further hstep
  | some taken =>
      obtain ⟨item, stream'⟩ := taken
      cases item with
      | line text =>
          have hstep : Step ⟨stream, reader :: asking, holders⟩ (.line reader text)
              ⟨stream', (reader :: asking).erase reader, holders⟩ := .line hmem htake
          rw [List.erase_cons_head] at hstep
          exact hasks.further hstep
      | endMark =>
          have hstep : Step ⟨stream, reader :: asking, holders⟩ (.mark reader)
              ⟨stream', (reader :: asking).erase reader, reader :: holders⟩ := .mark hmem htake
          rw [List.erase_cons_head] at hstep
          have hback : Step ⟨stream', asking, reader :: holders⟩ (.ended reader)
              ⟨stream'.giveBack, asking, (reader :: holders).erase reader⟩ :=
            .ended List.mem_cons_self
          rw [List.erase_cons_head] at hback
          exact (hasks.further hstep).further hback

/-- Taking something neither opens nor closes the stream. -/
theorem closed_of_take {stream stream' : Stream} {item : Item}
    (htake : stream.take = some (item, stream')) : stream'.closed = stream.closed := by
  obtain ⟨waiting, closed⟩ := stream
  cases waiting with
  | nil => cases htake
  | cons first rest =>
      cases htake
      rfl

/-! ## What is kept -/

/-- The lines that were put are those that were handed out and those that wait, and the stream was
closed once, if at all. -/
structure Kept (moves : List Move) (s : Shared) : Prop where
  waits : ∃ left, Waits left s.stream s.holders ∧ handedOut moves ++ left = accepted moves
  once : moves.count (.close true) = if s.stream.closed then 1 else 0
  closed : s.stream.closed = true ↔ ∃ wasOpen, .close wasOpen ∈ moves

theorem Kept.start : Kept [] {} where
  waits := ⟨[], .opened [], rfl⟩
  once := rfl
  closed := by simp

/-- A step that closes nothing takes from the front of what waits, or adds behind it. -/
theorem Kept.beside (h : Kept moves s) {left left' : List String}
    (hleft : handedOut moves ++ left = accepted moves) (hm : ∀ wasOpen, m ≠ .close wasOpen)
    (hclosed : s'.stream.closed = s.stream.closed) (hwaits : Waits left' s'.stream s'.holders)
    (hmove : handedOut [m] ++ left' = left ++ accepted [m]) : Kept (moves ++ [m]) s' where
  waits := by
    refine ⟨left', hwaits, ?_⟩
    calc handedOut (moves ++ [m]) ++ left' = handedOut moves ++ (handedOut [m] ++ left') := by
          rw [handedOut_append, List.append_assoc]
      _ = handedOut moves ++ left ++ accepted [m] := by rw [hmove, List.append_assoc]
      _ = accepted (moves ++ [m]) := by rw [hleft, accepted_append]
  once := by
    rw [List.count_append, List.count_singleton, if_neg (by simpa using hm true), hclosed]
    exact h.once
  closed := by
    rw [hclosed, h.closed]
    apply exists_congr
    intro wasOpen
    simp [(hm wasOpen).symm]

/-- Closing puts the mark behind what waits, the first time. -/
theorem Kept.close {stream : Stream} {asking holders : List Nat}
    (h : Kept moves ⟨stream, asking, holders⟩) :
    Kept (moves ++ [.close stream.close.2]) ⟨stream.close.1, asking, holders⟩ := by
  obtain ⟨left, hwaits, hleft⟩ := h.waits
  obtain ⟨hwaits', hclosed⟩ := hwaits.close
  refine ⟨⟨left, hwaits', ?_⟩, ?_, ?_⟩
  · rw [handedOut_append, accepted_append, ← hleft]
    simp [handedOut, accepted]
  · have honce : moves.count (.close true) = if stream.closed then 1 else 0 := h.once
    rw [List.count_append, List.count_singleton, honce, hclosed]
    by_cases hbefore : stream.closed = true
    · simp [Stream.close, hbefore]
    · simp [Stream.close, hbefore]
  · exact iff_of_true hclosed ⟨_, List.mem_append_right _ List.mem_cons_self⟩

/-- Each step of a writer or a reader keeps the lines in order. -/
theorem Kept.step (h : Kept moves s) (hstep : Step s m s') : Kept (moves ++ [m]) s' := by
  obtain ⟨left, hwaits, hleft⟩ := h.waits
  cases hstep with
  | put hput =>
      obtain ⟨hwaits', hclosed⟩ := hwaits.put hput
      exact h.beside hleft (by simp) hclosed hwaits' rfl
  | refused _ => exact h.beside hleft (by simp) rfl hwaits (List.append_nil _).symm
  | close => exact h.close
  | asks _ _ => exact h.beside hleft (by simp) rfl hwaits (List.append_nil _).symm
  | line _ htake =>
      obtain ⟨rest, rfl, hwaits', hclosed⟩ := hwaits.line htake
      exact h.beside hleft (by simp) hclosed hwaits' (List.append_nil _).symm
  -- the mark stands behind all lines, so neither its taker nor the one who puts it back leaves any
  | mark _ htake =>
      obtain ⟨rfl, rfl, rfl, hclosed⟩ := hwaits.mark htake
      exact h.beside hleft (by simp) hclosed.symm (.held _) rfl
  | ended hholder =>
      obtain ⟨rfl, hwaits', hclosed, hclosed'⟩ := hwaits.giveBack hholder
      exact h.beside hleft (by simp) (hclosed'.trans hclosed.symm) hwaits' rfl
  | gaveUp _ _ => exact h.beside hleft (by simp) rfl hwaits (List.append_nil _).symm

/-- So does each history. -/
theorem Kept.happens (h : Kept moves s) (hmore : Happens Step s more s') :
    Kept (moves ++ more) s' := by
  induction hmore with
  | nothing =>
      rw [List.append_nil]
      exact h
  | further _ hstep ih =>
      rw [← List.append_assoc]
      exact ih.step hstep

/-! ## What an end means -/

/-- The stream is closed and no line is left. -/
def Over (s : Shared) : Prop := Waits [] s.stream s.holders ∧ s.stream.closed = true

/-- A reader is told that the stream has ended only when all lines were handed out. -/
theorem Kept.of_ended (h : Kept moves s) (hstep : Step s (.ended reader) s') :
    handedOut moves = accepted moves ∧ Over s' := by
  obtain ⟨left, hwaits, hleft⟩ := h.waits
  cases hstep with
  | ended hholder =>
      obtain ⟨rfl, hwaits', -, hclosed'⟩ := hwaits.giveBack hholder
      exact ⟨(List.append_nil _).symm.trans hleft, hwaits', hclosed'⟩

/-- No line comes after the end. -/
theorem Over.step (h : Over s) (hstep : Step s m s') :
    Over s' ∧ accepted [m] = [] ∧ handedOut [m] = [] := by
  obtain ⟨hwaits, hclosed⟩ := h
  cases hstep with
  | put hput =>
      rw [Stream.put, if_pos hclosed] at hput
      cases hput
  | refused _ => exact ⟨⟨hwaits, hclosed⟩, rfl, rfl⟩
  | close => exact ⟨hwaits.close, rfl, rfl⟩
  | asks _ _ => exact ⟨⟨hwaits, hclosed⟩, rfl, rfl⟩
  | line _ htake =>
      obtain ⟨rest, hnil, -⟩ := hwaits.line htake
      cases hnil
  | mark _ htake =>
      obtain ⟨-, rfl, rfl, -⟩ := hwaits.mark htake
      exact ⟨⟨.held _, rfl⟩, rfl, rfl⟩
  | ended hholder =>
      obtain ⟨-, hwaits', -, hclosed'⟩ := hwaits.giveBack hholder
      exact ⟨⟨hwaits', hclosed'⟩, rfl, rfl⟩
  | gaveUp _ _ => exact ⟨⟨hwaits, hclosed⟩, rfl, rfl⟩

theorem Over.happens (h : Over s) (hmore : Happens Step s more s') :
    Over s' ∧ accepted more = [] ∧ handedOut more = [] := by
  induction hmore with
  | nothing => exact ⟨h, rfl, rfl⟩
  | further _ hstep ih =>
      obtain ⟨hover, haccepted, hhanded⟩ := ih
      obtain ⟨hover', haccepted', hhanded'⟩ := hover.step hstep
      refine ⟨hover', ?_, ?_⟩
      · rw [accepted_append, haccepted, haccepted']
        rfl
      · rw [handedOut_append, hhanded, hhanded']
        rfl

/-! ## Nobody waits for good -/

/-- A reader takes what comes first. -/
def Takes (reader : Nat) (m : Move) : Prop := m = .mark reader ∨ ∃ text, m = .line reader text

/-- A reader can take what comes first. -/
def CanTake (s : Shared) (reader : Nat) : Prop := ∃ m s', Takes reader m ∧ Step s m s'

theorem canTake_of_waiting (hreader : reader ∈ s.asking) (hwaiting : s.stream.waiting ≠ []) :
    CanTake s reader := by
  obtain ⟨⟨waiting, closed⟩, asking, holders⟩ := s
  cases waiting with
  | nil => exact absurd rfl hwaiting
  | cons item rest =>
      cases item with
      | line text => exact ⟨.line reader text, _, .inr ⟨text, rfl⟩, .line hreader rfl⟩
      | endMark => exact ⟨.mark reader, _, .inl rfl, .mark hreader rfl⟩

/-- Whoever puts the mark back lets all others take something. -/
theorem canTake_of_ended (hstep : Step s (.ended holder) s') (hreader : reader ∈ s'.asking) :
    CanTake s' reader := by
  cases hstep with
  | ended _ =>
      apply canTake_of_waiting hreader
      simp [Stream.giveBack]

/-- A reader waits until it takes something or gives up. -/
theorem asking_of_step (hreader : reader ∈ s.asking) (hstep : Step s m s') :
    reader ∈ s'.asking ∨ Takes reader m ∨ m = .gaveUp reader := by
  cases hstep with
  | put _ => exact .inl hreader
  | refused _ => exact .inl hreader
  | close => exact .inl hreader
  | asks _ _ => exact .inl (List.mem_cons_of_mem _ hreader)
  | @line _ _ _ _ who text _ _ =>
      by_cases hwho : reader = who
      · subst hwho
        exact .inr (.inl (.inr ⟨text, rfl⟩))
      · exact .inl ((List.mem_erase_of_ne hwho).2 hreader)
  | @mark _ _ _ _ who _ _ =>
      by_cases hwho : reader = who
      · subst hwho
        exact .inr (.inl (.inl rfl))
      · exact .inl ((List.mem_erase_of_ne hwho).2 hreader)
  | ended _ => exact .inl hreader
  | @gaveUp _ _ _ who _ _ =>
      by_cases hwho : reader = who
      · subst hwho
        exact .inr (.inr rfl)
      · exact .inl ((List.mem_erase_of_ne hwho).2 hreader)

/-- Where the mark of a closed stream is: behind the lines that wait, or in the hand of one reader. -/
theorem Kept.mark (h : Kept moves s) (hclosed : s.stream.closed = true) :
    (∃ left : List String, s.stream.waiting = left.map .line ++ [.endMark] ∧
      handedOut moves ++ left = accepted moves ∧ s.holders = []) ∨
    (s.stream.waiting = [] ∧ handedOut moves = accepted moves ∧
      ∃ holder s', s.holders = [holder] ∧ Step s (.ended holder) s') := by
  obtain ⟨left, hwaits, hleft⟩ := h.waits
  obtain ⟨stream, asking, holders⟩ := s
  cases hwaits with
  | opened => cases hclosed
  | closed left => exact .inl ⟨left, rfl, hleft, rfl⟩
  | held holder =>
      rw [List.append_nil] at hleft
      exact .inr ⟨rfl, hleft, holder, _, rfl, .ended List.mem_cons_self⟩

/-- Whoever waits at a closed stream can take something, at the latest when the holder of the mark has
put it back. -/
theorem Kept.answered (h : Kept moves s) (hclosed : s.stream.closed = true)
    (hreader : reader ∈ s.asking) :
    CanTake s reader ∨ ∃ holder s', s.holders = [holder] ∧ Step s (.ended holder) s' ∧
      CanTake s' reader := by
  rcases h.mark hclosed with ⟨left, hwaiting, -, -⟩ | ⟨-, -, holder, s', hholders, hstep⟩
  · refine .inl (canTake_of_waiting hreader ?_)
    rw [hwaiting]
    simp
  · refine .inr ⟨holder, s', hholders, hstep, canTake_of_ended hstep ?_⟩
    rcases asking_of_step hreader hstep with hreader' | htakes | hgaveUp
    · exact hreader'
    · rcases htakes with hmark | ⟨text, hline⟩
      · cases hmark
      · cases hline
    · cases hgaveUp

/-! ### How much reading is left -/

/-- A reader goes on. -/
def Move.isReading : Move → Bool
  | .line .. | .mark _ | .ended _ | .gaveUp _ => true
  | _ => false

/-- How often the readers of now can go on at most. -/
def effort (s : Shared) : Nat := 2 * s.asking.length + s.holders.length

/-- Each step of a reader uses some of it up, and only those who begin to wait add to it. -/
theorem effort_step (hstep : Step s m s') (hm : ∀ reader, m ≠ .asks reader) :
    m.isReading.toNat + effort s' ≤ effort s := by
  cases hstep with
  | put _ => simp [effort, Move.isReading]
  | refused _ => simp [Move.isReading]
  | close => simp [effort, Move.isReading]
  | asks _ _ => exact absurd rfl (hm _)
  | line hreader _ =>
      have hpos := List.length_pos_of_mem hreader
      simp only [effort, Move.isReading, List.length_erase_of_mem hreader, Bool.toNat_true]
      omega
  | mark hreader _ =>
      have hpos := List.length_pos_of_mem hreader
      simp only [effort, Move.isReading, List.length_erase_of_mem hreader, Bool.toNat_true,
        List.length_cons]
      omega
  | ended hholder =>
      have hpos := List.length_pos_of_mem hholder
      simp only [effort, Move.isReading, List.length_erase_of_mem hholder, Bool.toNat_true]
      omega
  | gaveUp hreader _ =>
      have hpos := List.length_pos_of_mem hreader
      simp only [effort, Move.isReading, List.length_erase_of_mem hreader, Bool.toNat_true]
      omega

theorem effort_happens (hmore : Happens Step s more s') (hasks : ∀ reader, .asks reader ∉ more) :
    more.countP Move.isReading + effort s' ≤ effort s := by
  induction hmore with
  | nothing => simp
  | @further moves m s₁ s₂ _ hstep ih =>
      have hmoves := ih fun reader hmem => hasks reader (List.mem_append_left _ hmem)
      have hlast := effort_step hstep fun reader hm =>
        hasks reader (hm ▸ List.mem_append_right _ List.mem_cons_self)
      have hcount : [m].countP Move.isReading = m.isReading.toNat := by
        cases hm : m.isReading <;> simp [hm]
      rw [List.countP_append, hcount]
      omega

/-- When no reader of a closed stream can go on, all of them were answered. -/
theorem Kept.all_answered (h : Kept moves s) (hclosed : s.stream.closed = true)
    (hnone : ∀ m s', m.isReading = true → ¬ Step s m s') : s.asking = [] ∧ s.holders = [] := by
  constructor
  · apply List.eq_nil_iff_forall_not_mem.2
    intro reader hreader
    rcases h.answered hclosed hreader with ⟨m, s', htakes, hstep⟩ | ⟨holder, s', -, hstep, -⟩
    · rcases htakes with rfl | ⟨text, rfl⟩
      · exact hnone _ _ rfl hstep
      · exact hnone _ _ rfl hstep
    · exact hnone _ _ rfl hstep
  · rcases h.mark hclosed with ⟨-, -, -, hholders⟩ | ⟨-, -, holder, s', -, hstep⟩
    · exact hholders
    · exact absurd hstep (hnone _ _ rfl)

/-! ### Histories without end -/

/-- A history without end in which everybody gets their turn: whoever holds the mark puts it back some
time, and whoever can take something again and again takes something again and again. -/
structure Fair (run : Nat → Shared) (move : Nat → Move) : Prop where
  step : ∀ n, Step (run n) (move n) (run (n + 1))
  back : ∀ n holder, holder ∈ (run n).holders → ∃ k, n ≤ k ∧ move k = .ended holder
  turn : ∀ reader, (∀ n, ∃ k, n ≤ k ∧ CanTake (run k) reader) →
    ∀ n, ∃ k, n ≤ k ∧ Takes reader (move k)

/-- A closed stream stays closed. -/
theorem closed_of_step (hstep : Step s m s') (hclosed : s.stream.closed = true) :
    s'.stream.closed = true := by
  cases hstep with
  | put hput =>
      rw [Stream.put, if_pos hclosed] at hput
      cases hput
  | refused _ => exact hclosed
  | @close stream =>
      have hsame : stream.close = (stream, false) := if_pos hclosed
      rw [hsame]
      exact hclosed
  | asks _ _ => exact hclosed
  | line _ htake => exact (closed_of_take htake).trans hclosed
  | mark _ htake => exact (closed_of_take htake).trans hclosed
  | ended _ => exact hclosed
  | gaveUp _ _ => exact hclosed

theorem closed_of_happens (hmore : Happens Step s more s') (hclosed : s.stream.closed = true) :
    s'.stream.closed = true := by
  induction hmore with
  | nothing => exact hclosed
  | further _ hstep ih => exact closed_of_step hstep ih

/-- Whoever waits at a closed stream takes something some time, or gives up. -/
theorem Kept.taken_of_fair (h : Kept moves s) (hclosed : s.stream.closed = true)
    {run : Nat → Shared} {move : Nat → Move} (hstart : run 0 = s) (hfair : Fair run move) {n : Nat}
    (hreader : reader ∈ (run n).asking) :
    ∃ k, n ≤ k ∧ (Takes reader (move k) ∨ move k = .gaveUp reader) := by
  have hkept : ∀ k, (∃ moves, Kept moves (run k)) ∧ (run k).stream.closed = true := by
    intro k
    induction k with
    | zero =>
        rw [hstart]
        exact ⟨⟨moves, h⟩, hclosed⟩
    | succ k ih =>
        obtain ⟨⟨moves, hbefore⟩, hclosed'⟩ := ih
        exact ⟨⟨_, hbefore.step (hfair.step k)⟩, closed_of_step (hfair.step k) hclosed'⟩
  by_contra hnever
  simp only [not_exists, not_and, not_or] at hnever
  have hwaits : ∀ k, n ≤ k → reader ∈ (run k).asking := by
    intro k hk
    induction hk with
    | refl => exact hreader
    | @step k hk ih =>
        rcases asking_of_step ih (hfair.step k) with hstays | htakes | hgaveUp
        · exact hstays
        · exact absurd htakes (hnever k hk).1
        · exact absurd hgaveUp (hnever k hk).2
  -- it could take something again and again, each time at the latest when the mark is put back
  have hcan : ∀ j, ∃ k, j ≤ k ∧ CanTake (run k) reader := by
    intro j
    obtain ⟨⟨moves', hbefore⟩, hclosed'⟩ := hkept (max n j)
    have hreader' := hwaits (max n j) (Nat.le_max_left n j)
    rcases hbefore.answered hclosed' hreader' with hnow | ⟨holder, -, hholders, -⟩
    · exact ⟨max n j, Nat.le_max_right n j, hnow⟩
    · have hholder : holder ∈ (run (max n j)).holders := by simp [hholders]
      obtain ⟨k, hk, hmove⟩ := hfair.back _ holder hholder
      have hback := hfair.step k
      rw [hmove] at hback
      refine ⟨k + 1, by omega, canTake_of_ended hback (hwaits (k + 1) (by omega))⟩
  obtain ⟨k, hk, htakes⟩ := hfair.turn reader hcan n
  exact (hnever k hk).1 htakes

/-! ## The stream as a whole -/

/-- What readers and writers of a stream can rely on. -/
structure Faithful (moves : List Move) (s : Shared) : Prop where
  /-- The lines are handed out in the order in which they were put. -/
  handed : handedOut moves <+: accepted moves
  /-- Of those who close the stream exactly one is told that it was open. -/
  once : moves.count (.close true) = if s.stream.closed then 1 else 0
  closed : s.stream.closed = true ↔ ∃ wasOpen, .close wasOpen ∈ moves
  /-- Who puts a line behind the end is refused, and changes nothing. -/
  refuses : s.stream.closed = true → ∀ text s',
    ¬ Step s (.put text) s' ∧ (Step s (.refused text) s' ↔ s' = s)
  /-- Who is told that the stream has ended knows that all lines were handed out, and that nobody will be
  handed one any more. -/
  ended : ∀ before reader after, moves = before ++ .ended reader :: after →
    handedOut before = accepted before ∧ accepted after = [] ∧ handedOut after = []
  /-- The mark is behind the lines that wait, or in the hand of one reader who can put it back. -/
  mark : s.stream.closed = true →
    (∃ left : List String, s.stream.waiting = left.map .line ++ [.endMark] ∧
      handedOut moves ++ left = accepted moves ∧ s.holders = []) ∨
    (s.stream.waiting = [] ∧ handedOut moves = accepted moves ∧
      ∃ holder s', s.holders = [holder] ∧ Step s (.ended holder) s')
  /-- Who waits can take something, at the latest after the holder of the mark. -/
  answered : s.stream.closed = true → ∀ reader ∈ s.asking, CanTake s reader ∨
    ∃ holder s', s.holders = [holder] ∧ Step s (.ended holder) s' ∧ CanTake s' reader
  /-- If nobody else begins to wait, the readers stop after so many steps, and then all were answered. -/
  bounded : s.stream.closed = true → ∀ more s', Happens Step s more s' →
    (∀ reader, .asks reader ∉ more) →
    more.countP Move.isReading ≤ 2 * s.asking.length + s.holders.length ∧
    ((∀ m s'', m.isReading = true → ¬ Step s' m s'') → s'.asking = [] ∧ s'.holders = [])
  /-- Even if others begin to wait again and again, nobody waits for good. -/
  fair : s.stream.closed = true → ∀ run move, run 0 = s → Fair run move →
    ∀ n reader, reader ∈ (run n).asking →
      ∃ k, n ≤ k ∧ (Takes reader (move k) ∨ move k = .gaveUp reader)

/-- Whatever the order in which writers close a stream and put lines, and readers wait, take what comes
first and put the mark of the end back, no line is lost or handed out twice, and nobody waits for good at
a closed stream. -/
theorem shared_stream_keeps_its_lines (moves : List Move) (s : Shared)
    (h : Happens Step {} moves s) : Faithful moves s := by
  have hkept : Kept moves s := Kept.start.happens h
  constructor
  case handed =>
    obtain ⟨left, -, hleft⟩ := hkept.waits
    exact ⟨left, hleft⟩
  case once => exact hkept.once
  case closed => exact hkept.closed
  case refuses =>
    intro hclosed text s'
    have hput : s.stream.put text = none := if_pos hclosed
    constructor
    · intro hstep
      cases hstep with
      | put hput' => cases hput.symm.trans hput'
    · constructor
      · intro hstep
        cases hstep with
        | refused _ => rfl
      · rintro rfl
        exact .refused hput
  case ended =>
    rintro before reader after rfl
    obtain ⟨s₁, s₂, hbefore, hstep, hafter⟩ := h.split
    obtain ⟨hall, hover⟩ := (Kept.start.happens hbefore).of_ended hstep
    obtain ⟨-, haccepted, hhanded⟩ := hover.happens hafter
    exact ⟨hall, haccepted, hhanded⟩
  case mark => exact hkept.mark
  case answered =>
    intro hclosed reader hreader
    exact hkept.answered hclosed hreader
  case bounded =>
    intro hclosed more s' hmore hasks
    have heffort := effort_happens hmore hasks
    refine ⟨Nat.le_trans (Nat.le_add_right _ _) heffort, fun hnone => ?_⟩
    exact (hkept.happens hmore).all_answered (closed_of_happens hmore hclosed) hnone
  case fair =>
    intro hclosed run move hstart hfair n reader hreader
    exact hkept.taken_of_fair hclosed hstart hfair hreader

/-- Two readers wait, one of them is handed the only line, and both are told of the end in turn. -/
theorem two_readers_share_the_mark :
    Happens Step {} [.asks 0, .put "a", .asks 1, .line 0 "a", .close true, .refused "b", .mark 1,
      .asks 0, .ended 1, .mark 0, .close false] ⟨⟨[], true⟩, [], [0]⟩ ∧
    Faithful [.asks 0, .put "a", .asks 1, .line 0 "a", .close true, .refused "b", .mark 1,
      .asks 0, .ended 1, .mark 0, .close false] ⟨⟨[], true⟩, [], [0]⟩ := by
  have h : Happens Step {} [.asks 0, .put "a", .asks 1, .line 0 "a", .close true, .refused "b",
      .mark 1, .asks 0, .ended 1, .mark 0, .close false] ⟨⟨[], true⟩, [], [0]⟩ := by
    have h₁ : Happens Step {} [.asks 0] ⟨{}, [0], []⟩ := .single (.asks (by simp) (by simp))
    have h₂ : Step ⟨{}, [0], []⟩ (.put "a") ⟨⟨[.line "a"], false⟩, [0], []⟩ := .put rfl
    have h₃ : Step ⟨⟨[.line "a"], false⟩, [0], []⟩ (.asks 1) ⟨⟨[.line "a"], false⟩, [1, 0], []⟩ :=
      .asks (by simp) (by simp)
    have h₄ : Step ⟨⟨[.line "a"], false⟩, [1, 0], []⟩ (.line 0 "a") ⟨⟨[], false⟩, [1], []⟩ :=
      .line (by simp) rfl
    have h₅ : Step ⟨⟨[], false⟩, [1], []⟩ (.close true) ⟨⟨[.endMark], true⟩, [1], []⟩ := .close
    have h₆ : Step ⟨⟨[.endMark], true⟩, [1], []⟩ (.refused "b") ⟨⟨[.endMark], true⟩, [1], []⟩ :=
      .refused rfl
    have h₇ : Step ⟨⟨[.endMark], true⟩, [1], []⟩ (.mark 1) ⟨⟨[], true⟩, [], [1]⟩ :=
      .mark (by simp) rfl
    have h₈ : Step ⟨⟨[], true⟩, [], [1]⟩ (.asks 0) ⟨⟨[], true⟩, [0], [1]⟩ :=
      .asks (by simp) (by simp)
    have h₉ : Step ⟨⟨[], true⟩, [0], [1]⟩ (.ended 1) ⟨⟨[.endMark], true⟩, [0], []⟩ :=
      .ended (by simp)
    have h₁₀ : Step ⟨⟨[.endMark], true⟩, [0], []⟩ (.mark 0) ⟨⟨[], true⟩, [], [0]⟩ :=
      .mark (by simp) rfl
    have hdrained : Happens Step {} [.asks 0, .put "a", .asks 1, .line 0 "a", .close true,
        .refused "b", .mark 1] ⟨⟨[], true⟩, [], [1]⟩ :=
      (((((h₁.further h₂).further h₃).further h₄).further h₅).further h₆).further h₇
    exact (((hdrained.further h₈).further h₉).further h₁₀).further .close
  exact ⟨h, shared_stream_keeps_its_lines _ _ h⟩

end Shared

end Runbook.Run
