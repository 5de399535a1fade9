/-
The line reader of the interactive port.

`OnRead` scans the buffer from its start at every receive, puts a terminator
over the end of each line and hands the line to `Process`; what is left moves to
the front.  A line is recorded as what `Process` finds at its argument, up to
and with the terminator.  The handlers do not touch the read buffer.
-/

import AuthServer.StreamReader

set_option autoImplicit false

namespace AuthServer

open LinearMemory

structure LineLoop where
  cells : Nat → UInt8
  lines : List (List UInt8)
  left : Nat

structure LineReader where
  readBuf : CIOBuffer
  posted : WsaBuf
  processed : List (List UInt8)

namespace CSocketInt

def readLoop (cells : Nat → UInt8) (base ri : Nat) : Nat → LineLoop
  | 0 => ⟨cells, [], ri⟩
  | len + 1 =>
      if 255 ≤ ri ∨ cells (base + ri) = 10 then
        let terminated := store cells (base + ri) [0]
        let rest := readLoop terminated (base + (ri + 1)) 0 len
        { rest with lines := slice terminated base (ri + 1) :: rest.lines }
      else readLoop cells base (ri + 1) len

def onRead (processed : List (List UInt8)) (buf : CIOBuffer) (recycled : Nat → UInt8) :
    LineReader :=
  let result := readLoop buf.buffer 0 0 buf.size
  let next := CIOSocket.read { buf with buffer := result.cells } result.left recycled
  ⟨next, CIOSocket.wsaBuf next, processed ++ result.lines⟩

def onCreate (recycled fresh : Nat → UInt8) : LineReader :=
  onRead [] (CIOBuffer.alloc recycled) fresh

def onReadCallback (reader : LineReader) (receive : Receive) : Option LineReader :=
  if receive.bytes.length ≤ reader.posted.len then
    some (onRead reader.processed
      { buffer := store reader.readBuf.buffer reader.posted.offset receive.bytes
        size := reader.readBuf.size + receive.bytes.length
        ref := receive.ref }
      receive.recycled)
  else none

def machine : EventRuns.Machine LineReader Receive := ⟨onReadCallback⟩

/-! ### Cutting a stream into lines -/

def lineEnd (input : List UInt8) : Nat := min (input.takeWhile fun c => c ≠ 10).length 255

def verdict (input : List UInt8) : Framing.Verdict Unit (List UInt8) Empty :=
  if lineEnd input < input.length then
    .advance (lineEnd input + 1) (some (input.take (lineEnd input) ++ [0])) ()
  else .wait

theorem lineEnd_append (input more : List UInt8) (inside : lineEnd input < input.length) :
    lineEnd (input ++ more) = lineEnd input := by
  unfold lineEnd at inside ⊢
  by_cases whole : (input.takeWhile fun c => c ≠ 10).length = input.length
  · have long : (input.takeWhile fun c => c ≠ 10).length ≤
        ((input ++ more).takeWhile fun c => c ≠ 10).length := by
      rw [List.takeWhile_append, if_pos whole, List.length_append]
      omega
    omega
  · rw [List.takeWhile_append, if_neg whole]

def cutting : Framing.Rule UInt8 Unit (List UInt8) Empty where
  verdict _ := verdict
  progress := by
    intro state input count frame next advances
    unfold verdict at advances
    split at advances
    · cases advances
      omega
    · contradiction
  stable := by
    intro state input more decided
    unfold verdict at decided ⊢
    split at decided
    · rename_i inside
      have longer : lineEnd input < (input ++ more).length := by
        rw [List.length_append]
        omega
      rw [lineEnd_append input more inside, if_pos longer, if_pos inside,
        List.take_append_of_le_length (Nat.le_of_lt inside)]
    · exact absurd rfl decided

theorem lineEnd_plain (plain rest : List UInt8) (noFeed : 10 ∉ plain) (short : plain.length ≤ 255)
    (ends : rest = [] ∨ rest.head? = some 10 ∨ plain.length = 255) :
    lineEnd (plain ++ rest) = plain.length := by
  have kept : ∀ c ∈ plain, (fun c : UInt8 => decide (c ≠ 10)) c = true := by
    intro c member
    exact decide_eq_true fun feed => noFeed (feed ▸ member)
  unfold lineEnd
  rw [List.takeWhile_append_of_pos kept, List.length_append]
  rcases ends with rfl | feed | full
  · rw [List.takeWhile_nil, List.length_nil, Nat.add_zero]
    exact Nat.min_eq_left short
  · obtain ⟨more, rfl⟩ := List.head?_eq_some_iff.mp feed
    rw [List.takeWhile_cons_of_neg (by decide), List.length_nil, Nat.add_zero]
    exact Nat.min_eq_left short
  · omega

/-! ### The loop cuts what the buffer holds -/

/-- From inside a line on, the loop hands over the lines of the rest and stops
with the unfinished one. -/
theorem readLoop_cuts (len : Nat) : ∀ (cells : Nat → UInt8) (base ri : Nat),
    10 ∉ slice cells base ri → ri ≤ 255 →
      cutting.parse () (slice cells base (ri + len)) =
          ⟨(readLoop cells base ri len).lines,
            .waiting () (slice (readLoop cells base ri len).cells
              (base + (ri + len) - (readLoop cells base ri len).left)
              (readLoop cells base ri len).left)⟩ ∧
        (readLoop cells base ri len).left ≤ 255 ∧
        (readLoop cells base ri len).left ≤ ri + len := by
  induction len with
  | zero =>
      intro cells base ri noFeed short
      have ended : lineEnd (slice cells base ri) = ri := by
        have found := lineEnd_plain (slice cells base ri) [] noFeed
          ((slice_length cells base ri).symm ▸ short) (Or.inl rfl)
        rw [List.append_nil, slice_length] at found
        exact found
      have waits : cutting.verdict () (slice cells base ri) = .wait := by
        change verdict _ = _
        unfold verdict
        rw [ended, slice_length, if_neg (Nat.lt_irrefl ri)]
      refine ⟨?_, short, Nat.le_refl ri⟩
      rw [Nat.add_zero, cutting.parse_of_wait () _ waits]
      simp only [readLoop, Nat.add_sub_cancel_right]
  | succ len ih =>
      intro cells base ri noFeed short
      have split : slice cells base (ri + (len + 1)) =
          slice cells base ri ++ slice cells (base + ri) (len + 1) :=
        slice_append cells base ri (len + 1)
      rw [readLoop]
      by_cases cut : 255 ≤ ri ∨ cells (base + ri) = 10
      · rw [if_pos cut]
        simp only
        have ended : lineEnd (slice cells base (ri + (len + 1))) = ri := by
          rw [split]
          have found := lineEnd_plain (slice cells base ri) (slice cells (base + ri) (len + 1))
            noFeed ((slice_length cells base ri).symm ▸ short) (by
              rw [slice_head, slice_length]
              rcases cut with full | feed
              · exact Or.inr (Or.inr (Nat.le_antisymm short full))
              · exact Or.inr (Or.inl (congrArg some feed)))
          rw [slice_length] at found
          exact found
        have advances : cutting.verdict () (slice cells base (ri + (len + 1))) =
            .advance (ri + 1) (some (slice cells base ri ++ [0])) () := by
          change verdict _ = _
          unfold verdict
          rw [ended, slice_length, if_pos (by omega), slice_take _ _ _ _ (by omega)]
        have behind : slice (store cells (base + ri) [0]) (base + (ri + 1)) len =
            (slice cells base (ri + (len + 1))).drop (ri + 1) := by
          rw [slice_drop _ _ _ _ (by omega), slice_store_after _ _ _ _ _ (by
            rw [List.length_singleton]
            omega)]
          congr 1
          omega
        have line : slice (store cells (base + ri) [0]) base (ri + 1) =
            slice cells base ri ++ [0] := by
          rw [slice_append, slice_store_before _ _ _ _ _ (Nat.le_refl _)]
          exact congrArg _ (slice_store_same cells (base + ri) [0])
        obtain ⟨parsed, room, within⟩ := ih (store cells (base + ri) [0]) (base + (ri + 1)) 0
          List.not_mem_nil (Nat.zero_le _)
        rw [Nat.zero_add] at parsed within
        refine ⟨?_, room, by omega⟩
        rw [cutting.parse_of_advance () _ _ _ _ advances, ← behind, parsed, line]
        have place : base + (ri + 1) + len = base + (ri + (len + 1)) := by omega
        rw [place]
        rfl
      · rw [if_neg cut]
        rw [not_or] at cut
        have later : 10 ∉ slice cells base (ri + 1) := by
          rw [slice_append, List.mem_append, not_or]
          exact ⟨noFeed, fun member => cut.2 (List.mem_singleton.mp member).symm⟩
        have place : ri + (len + 1) = ri + 1 + len := by omega
        rw [place]
        exact ih cells base (ri + 1) later (by omega)

/-! ### Every way to cut the stream -/

def outcome (reader : LineReader) : Framing.Outcome UInt8 Unit (List UInt8) Empty :=
  ⟨reader.processed, .waiting () reader.readBuf.contents⟩

structure Ready (reader : LineReader) : Prop where
  short : reader.readBuf.size ≤ 255
  region : reader.posted = CIOSocket.wsaBuf reader.readBuf

theorem onRead_cuts (processed : List (List UInt8)) (buf : CIOBuffer) (recycled : Nat → UInt8) :
    Ready (onRead processed buf recycled) ∧
      outcome (onRead processed buf recycled) =
        ⟨processed ++ (cutting.parse () buf.contents).frames,
          (cutting.parse () buf.contents).status⟩ := by
  obtain ⟨parsed, short, _⟩ := readLoop_cuts buf.size buf.buffer 0 0 List.not_mem_nil
    (Nat.zero_le _)
  rw [Nat.zero_add, Nat.zero_add] at parsed
  constructor
  · refine ⟨?_, rfl⟩
    unfold onRead
    simp only [CIOSocket.read_size]
    exact short
  · change cutting.parse () buf.contents = _ at parsed
    rw [outcome, parsed]
    unfold onRead
    simp only [CIOSocket.read_contents]

/-- One receive resumes the cutting with the bytes received. -/
theorem onReadCallback_feed (reader next : LineReader) (receive : Receive) (ready : Ready reader)
    (stepped : onReadCallback reader receive = some next) :
    Ready next ∧ outcome next = cutting.feed (outcome reader) receive.bytes := by
  unfold onReadCallback at stepped
  split at stepped
  · cases stepped
    have extended : ∀ ref : Int, CIOBuffer.contents
        { buffer := store reader.readBuf.buffer reader.posted.offset receive.bytes
          size := reader.readBuf.size + receive.bytes.length
          ref := ref } = reader.readBuf.contents ++ receive.bytes := by
      intro ref
      rw [ready.region]
      exact slice_store_extend _ _ _
    have cuts := onRead_cuts reader.processed
      { buffer := store reader.readBuf.buffer reader.posted.offset receive.bytes
        size := reader.readBuf.size + receive.bytes.length
        ref := receive.ref } receive.recycled
    refine ⟨cuts.1, cuts.2.trans ?_⟩
    rw [extended]
    rfl
  · contradiction

theorem run_feed (receives : List Receive) : ∀ start final : LineReader, Ready start →
    machine.run start receives = some final →
      Ready final ∧
        outcome final = (receives.map Receive.bytes).foldl cutting.feed (outcome start) := by
  induction receives with
  | nil =>
      intro start final ready ran
      cases ran
      exact ⟨ready, rfl⟩
  | cons receive rest ih =>
      intro start final ready ran
      obtain ⟨next, stepped, later⟩ := machine.run_cons_cases start final receive rest ran
      obtain ⟨nextReady, fed⟩ := onReadCallback_feed start next receive ready stepped
      rw [List.map_cons, List.foldl_cons, ← fed]
      exact ih next final nextReady later

/-- However the stream arrives, `Process` is given its lines, the unfinished one
stays in the buffer, and the next receive has room behind it. -/
theorem interactive_lines_cut (recycled fresh : Nat → UInt8) (receives : List Receive)
    (final : LineReader) (ran : machine.run (onCreate recycled fresh) receives = some final) :
    cutting.parse () (receives.map Receive.bytes).flatten =
        ⟨final.processed, .waiting () final.readBuf.contents⟩ ∧
      final.posted.offset = final.readBuf.size ∧ 0 < final.posted.len ∧
      final.posted.offset + final.posted.len = bufferSize ∧
      ∀ receive : Receive, receive.bytes.length ≤ final.posted.len →
        (onReadCallback final receive).isSome := by
  obtain ⟨ready, created⟩ := onRead_cuts [] (CIOBuffer.alloc recycled) fresh
  obtain ⟨finalReady, fed⟩ := run_feed receives (onCreate recycled fresh) final ready ran
  have within : final.readBuf.size < bufferSize := Nat.lt_of_le_of_lt finalReady.short (by decide)
  obtain ⟨positive, whole⟩ := CIOSocket.wsaBuf_room final.readBuf within
  rw [← finalReady.region] at positive whole
  refine ⟨?_, congrArg WsaBuf.offset finalReady.region, positive, whole, fun receive fits => ?_⟩
  · have empty : (CIOBuffer.alloc recycled).contents = [] := rfl
    rw [empty, List.nil_append] at created
    have cut := cutting.foldl_feed () [] (receives.map Receive.bytes)
    rw [List.nil_append] at cut
    rw [← cut]
    change outcome (onCreate recycled fresh) = cutting.parse () [] at created
    rw [← created, ← fed]
    rfl
  · rw [onReadCallback, if_pos fits]
    rfl

/-- A line in three pieces, with a second one behind its line feed. -/
theorem interactive_lines_pieces :
    ∃ final : LineReader,
      machine.run (onCreate (fun _ => 204) fun _ => 205)
        [⟨[50], List.cons_ne_nil _ _, 1, fun _ => 206⟩,
          ⟨[32, 57], List.cons_ne_nil _ _, 1, fun _ => 207⟩,
          ⟨[10, 51], List.cons_ne_nil _ _, 1, fun _ => 208⟩] = some final ∧
      cutting.parse () [50, 32, 57, 10, 51] = ⟨final.processed, .waiting () final.readBuf.contents⟩ ∧
      final.processed = [[50, 32, 57, 0]] :=
  ⟨_, rfl,
    (interactive_lines_cut (fun _ => 204) (fun _ => 205)
      [⟨[50], List.cons_ne_nil _ _, 1, fun _ => 206⟩,
        ⟨[32, 57], List.cons_ne_nil _ _, 1, fun _ => 207⟩,
        ⟨[10, 51], List.cons_ne_nil _ _, 1, fun _ => 208⟩] _ rfl).1,
    rfl⟩

end CSocketInt

end AuthServer
