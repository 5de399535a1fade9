/-
Incremental framing of a stream.

A rule looks at what has arrived and either waits, takes a block off the front
or rejects.  A decision made on a prefix must stand when more input follows.
Under that single condition the frames found do not depend on how the stream
was cut into pieces.

Nothing here fixes an alphabet, a frame type or a transport.
-/

import Mathlib.Data.List.Basic

set_option autoImplicit false

namespace Framing

universe u v w x

/-- What a rule makes of the input at hand. -/
inductive Verdict (State : Type v) (Frame : Type w) (Error : Type x) where
  | wait
  | advance (count : Nat) (frame : Option Frame) (next : State)
  | reject (error : Error)

/-- A rule never takes more than it was shown, always makes progress, and does
not change its mind when the input grows. -/
structure Rule (Symbol : Type u) (State : Type v) (Frame : Type w) (Error : Type x) where
  verdict : State → List Symbol → Verdict State Frame Error
  progress : ∀ state input count frame next,
    verdict state input = .advance count frame next → 0 < count ∧ count ≤ input.length
  stable : ∀ state input more,
    verdict state input ≠ .wait → verdict state (input ++ more) = verdict state input

/-- How a parse stands: still open with unconsumed input, or rejected. -/
inductive Status (Symbol : Type u) (State : Type v) (Error : Type x) where
  | waiting (state : State) (rest : List Symbol)
  | rejected (error : Error)

structure Outcome (Symbol : Type u) (State : Type v) (Frame : Type w) (Error : Type x) where
  frames : List Frame
  status : Status Symbol State Error

variable {Symbol : Type u} {State : Type v} {Frame : Type w} {Error : Type x}

namespace Rule

/-- Parse everything that is there, from the front. -/
def parse (rule : Rule Symbol State Frame Error) (state : State)
    (input : List Symbol) : Outcome Symbol State Frame Error :=
  match _found : rule.verdict state input with
  | .wait => ⟨[], .waiting state input⟩
  | .reject error => ⟨[], .rejected error⟩
  | .advance count frame next =>
      let tail := rule.parse next (input.drop count)
      ⟨frame.toList ++ tail.frames, tail.status⟩
termination_by input.length
decreasing_by
  have bounds := rule.progress _ _ _ _ _ _found
  rw [List.length_drop]
  omega

/-- Resume a parse with the piece that arrived next. -/
def feed (rule : Rule Symbol State Frame Error)
    (outcome : Outcome Symbol State Frame Error) (piece : List Symbol) :
    Outcome Symbol State Frame Error :=
  match outcome.status with
  | .rejected _ => outcome
  | .waiting state rest =>
      let tail := rule.parse state (rest ++ piece)
      ⟨outcome.frames ++ tail.frames, tail.status⟩

theorem parse_of_wait (rule : Rule Symbol State Frame Error) (state : State)
    (input : List Symbol) (waits : rule.verdict state input = .wait) :
    rule.parse state input = ⟨[], .waiting state input⟩ := by
  rw [parse]
  split
  · rfl
  · rename_i rejects
    rw [waits] at rejects
    contradiction
  · rename_i advances
    rw [waits] at advances
    contradiction

theorem parse_of_reject (rule : Rule Symbol State Frame Error) (state : State)
    (input : List Symbol) (error : Error)
    (rejects : rule.verdict state input = .reject error) :
    rule.parse state input = ⟨[], .rejected error⟩ := by
  rw [parse]
  split
  · rename_i waits
    rw [rejects] at waits
    contradiction
  · rename_i other found
    rw [rejects] at found
    cases found
    rfl
  · rename_i advances
    rw [rejects] at advances
    contradiction

theorem parse_of_advance (rule : Rule Symbol State Frame Error) (state : State)
    (input : List Symbol) (count : Nat) (frame : Option Frame) (next : State)
    (advances : rule.verdict state input = .advance count frame next) :
    rule.parse state input =
      ⟨frame.toList ++ (rule.parse next (input.drop count)).frames,
        (rule.parse next (input.drop count)).status⟩ := by
  rw [parse]
  split
  · rename_i waits
    rw [advances] at waits
    contradiction
  · rename_i rejects
    rw [advances] at rejects
    contradiction
  · rename_i otherCount otherFrame otherNext found
    rw [advances] at found
    cases found
    rfl

/-- Frames already found are kept as they are by any further parsing. -/
private theorem feed_frames_prefix (rule : Rule Symbol State Frame Error)
    (kept : List Frame) (tail : Outcome Symbol State Frame Error) (piece : List Symbol) :
    rule.feed ⟨kept ++ tail.frames, tail.status⟩ piece =
      ⟨kept ++ (rule.feed tail piece).frames, (rule.feed tail piece).status⟩ := by
  rcases tail with ⟨frames, status⟩
  cases status with
  | rejected error => rfl
  | waiting state rest =>
      simp only [feed, List.append_assoc]

/-- Cutting the input anywhere and resuming gives the parse of the whole. -/
theorem parse_append (rule : Rule Symbol State Frame Error) (state : State)
    (input more : List Symbol) :
    rule.parse state (input ++ more) = rule.feed (rule.parse state input) more := by
  induction size : input.length using Nat.strongRecOn generalizing state input with
  | ind size ih =>
      cases found : rule.verdict state input with
      | wait =>
          rw [parse_of_wait rule state input found]
          rfl
      | reject error =>
          have whole : rule.verdict state (input ++ more) = .reject error := by
            rw [rule.stable state input more (by rw [found]; nofun), found]
          rw [parse_of_reject rule state input error found,
            parse_of_reject rule state (input ++ more) error whole]
          rfl
      | advance count frame next =>
          have bounds := rule.progress state input count frame next found
          have whole : rule.verdict state (input ++ more) = .advance count frame next := by
            rw [rule.stable state input more (by rw [found]; nofun), found]
          have tail := ih (input.drop count).length
            (by rw [List.length_drop]; omega) next (input.drop count) rfl
          rw [parse_of_advance rule state input count frame next found,
            parse_of_advance rule state (input ++ more) count frame next whole,
            feed_frames_prefix, List.drop_append_of_le_length bounds.2, tail]

/-- However a stream is cut into pieces, feeding them in turn gives the parse
of the whole stream. -/
theorem foldl_feed (rule : Rule Symbol State Frame Error) (state : State)
    (input : List Symbol) (pieces : List (List Symbol)) :
    pieces.foldl rule.feed (rule.parse state input) =
      rule.parse state (input ++ pieces.flatten) := by
  induction pieces generalizing input with
  | nil => rw [List.foldl_nil, List.flatten_nil, List.append_nil]
  | cons piece rest ih =>
      rw [List.foldl_cons, ← parse_append, ih, List.flatten_cons, List.append_assoc]

theorem parse_of_prefix (rule : Rule Symbol State Frame Error) (state : State)
    (piece whole : List Symbol) (front : piece <+: whole)
    (open_ : ∃ last rest, (rule.parse state whole).status = .waiting last rest) :
    (∃ last rest, (rule.parse state piece).status = .waiting last rest) ∧
      (rule.parse state piece).frames <+: (rule.parse state whole).frames := by
  obtain ⟨more, rfl⟩ := front
  rw [parse_append] at open_ ⊢
  cases found : (rule.parse state piece).status with
  | waiting last rest =>
      refine ⟨⟨last, rest, rfl⟩, ?_⟩
      rw [feed, found]
      exact List.prefix_append _ _
  | rejected error =>
      obtain ⟨last, rest, waiting⟩ := open_
      rw [feed, found] at waiting
      rw [found] at waiting
      cases waiting

/-! ### Streams of encoded frames -/

/-- An encoded frame in front of anything is found there, and the parse goes on behind it. -/
def Decodes (rule : Rule Symbol State Frame Error) (ready : State → Prop) (good : Frame → Prop)
    (encode : Frame → List Symbol) : Prop :=
  ∀ state frame more, ready state → good frame →
    ∃ next, ready next ∧
      rule.parse state (encode frame ++ more) =
        ⟨frame :: (rule.parse next more).frames, (rule.parse next more).status⟩

variable {rule : Rule Symbol State Frame Error} {ready : State → Prop} {good : Frame → Prop}
  {encode : Frame → List Symbol}

theorem Decodes.parse_encoded (decodes : rule.Decodes ready good encode) (frames : List Frame)
    (state : State) (more : List Symbol) (isReady : ready state)
    (allGood : ∀ frame ∈ frames, good frame) :
    ∃ next, ready next ∧
      rule.parse state (frames.flatMap encode ++ more) =
        ⟨frames ++ (rule.parse next more).frames, (rule.parse next more).status⟩ := by
  induction frames generalizing state with
  | nil => exact ⟨state, isReady, rfl⟩
  | cons frame rest ih =>
      obtain ⟨isGood, restGood⟩ := List.forall_mem_cons.mp allGood
      obtain ⟨between, isBetween, first⟩ :=
        decodes state frame (rest.flatMap encode ++ more) isReady isGood
      obtain ⟨next, isNext, others⟩ := ih between isBetween restGood
      refine ⟨next, isNext, ?_⟩
      rw [List.flatMap_cons, List.append_assoc, first, others]
      rfl

/-- Of a stream that has arrived up to some place, the frames found are the first ones, with
every frame among them that has arrived as a whole. -/
theorem Decodes.parse_arrived (decodes : rule.Decodes ready good encode) (frames : List Frame)
    (state : State) (piece : List Symbol) (isReady : ready state)
    (allGood : ∀ frame ∈ frames, good frame)
    (idle : ∀ last, ready last → rule.verdict last [] = .wait)
    (arrived : piece <+: frames.flatMap encode) :
    (∃ last rest, (rule.parse state piece).status = .waiting last rest) ∧
      (rule.parse state piece).frames <+: frames ∧
      ∀ count, ((frames.take count).flatMap encode).length ≤ piece.length →
        frames.take count <+: (rule.parse state piece).frames := by
  obtain ⟨next, isNext, whole⟩ := decodes.parse_encoded frames state [] isReady allGood
  rw [List.append_nil, rule.parse_of_wait next [] (idle next isNext), List.append_nil] at whole
  obtain ⟨open_, found⟩ := rule.parse_of_prefix state piece _ arrived ⟨next, [], by rw [whole]⟩
  rw [whole] at found
  refine ⟨open_, found, fun count within => ?_⟩
  have front : (frames.take count).flatMap encode <+: frames.flatMap encode :=
    ⟨(frames.drop count).flatMap encode, by rw [← List.flatMap_append, List.take_append_drop]⟩
  obtain ⟨more, split⟩ := List.prefix_of_prefix_length_le front arrived within
  obtain ⟨_, _, firsts⟩ := decodes.parse_encoded (frames.take count) state more isReady
    fun frame member => allGood frame (List.mem_of_mem_take member)
  rw [← split, firsts]
  exact List.prefix_append _ _

end Rule

end Framing
