/-
Input streams of C++ over the characters that are still to come.

`bad` never occurs here and is left out.  A function that finds the stream not
good sets `fail` and does nothing else; reaching the end sets `eof` only when a
character was asked for that is not there.
-/

import Mathlib.Data.List.Basic

set_option autoImplicit false

structure InputStream where
  rest : List UInt8
  eof : Bool
  fail : Bool
  deriving DecidableEq, Repr

namespace InputStream

def ofText (text : List UInt8) : InputStream := ⟨text, false, false⟩

def good (stream : InputStream) : Bool := !stream.eof && !stream.fail

@[simp] theorem good_ofText (text : List UInt8) : (ofText text).good = true := rfl

/-! ### Characters -/

def extract (stream : InputStream) (c : UInt8) : InputStream × UInt8 :=
  if stream.good then
    match stream.rest with
    | [] => (⟨[], true, true⟩, c)
    | next :: rest => (ofText rest, next)
  else ({ stream with fail := true }, c)

/-- `putback(c)`: the end is forgotten before the stream is looked at. -/
def putback (stream : InputStream) (c : UInt8) : InputStream :=
  if stream.fail then { stream with eof := false }
  else ⟨c :: stream.rest, false, false⟩

/-- A stream that has failed, though not at its end. -/
def failed (rest : List UInt8) : InputStream := ⟨rest, false, true⟩

@[simp] theorem ofText_eof (text : List UInt8) : (ofText text).eof = false := rfl

@[simp] theorem failed_eof (rest : List UInt8) : (failed rest).eof = false := rfl

@[simp] theorem extract_empty (c : UInt8) : (ofText []).extract c = (⟨[], true, true⟩, c) := rfl

@[simp] theorem extract_next (next c : UInt8) (rest : List UInt8) :
    (ofText (next :: rest)).extract c = (ofText rest, next) := rfl

@[simp] theorem extract_failed (rest : List UInt8) (c : UInt8) :
    (failed rest).extract c = (failed rest, c) := rfl

/-! ### Lines -/

/-- The characters up to `delim`, and the stream behind it.  The tests are made
in this order: the end, the delimiter, the room that is left. -/
def collect (delim : UInt8) : Nat → List UInt8 → List UInt8 × InputStream
  | _, [] => ([], ⟨[], true, false⟩)
  | 0, c :: rest =>
      if c = delim then ([], ofText rest) else ([], ⟨c :: rest, false, true⟩)
  | room + 1, c :: rest =>
      if c = delim then ([], ofText rest)
      else
        let behind := collect delim room rest
        (c :: behind.1, behind.2)

/-- `getline(buf, n, delim)`: what is stored, and the stream afterwards. -/
def getline (n : Nat) (delim : UInt8) (stream : InputStream) : List UInt8 × InputStream :=
  if !stream.good then ([], { stream with fail := true })
  else
    match stream.rest with
    | [] => ([], ⟨[], true, true⟩)
    | c :: rest => collect delim (n - 1) (c :: rest)

theorem collect_length (delim : UInt8) (room : Nat) (rest : List UInt8) :
    (collect delim room rest).2.rest.length ≤ rest.length := by
  induction rest generalizing room with
  | nil =>
      unfold collect
      exact Nat.le_refl _
  | cons c rest ih =>
      cases room with
      | zero =>
          unfold collect
          split
          · exact Nat.le_succ _
          · exact Nat.le_refl _
      | succ room =>
          unfold collect
          split
          · exact Nat.le_succ _
          · exact Nat.le_succ_of_le (ih room)

theorem collect_progress (delim : UInt8) (room : Nat) (c : UInt8) (rest : List UInt8)
    (going : (collect delim room (c :: rest)).2.fail = false) :
    (collect delim room (c :: rest)).2.rest.length ≤ rest.length := by
  cases room with
  | zero =>
      unfold collect at going ⊢
      split at going
      · rename_i atDelim
        rw [if_pos atDelim]
        exact Nat.le_refl _
      · cases going
  | succ room =>
      unfold collect
      split
      · exact Nat.le_refl _
      · exact collect_length delim room rest

theorem getline_progress (n : Nat) (delim : UInt8) (stream : InputStream)
    (going : (getline n delim stream).2.fail = false) :
    (getline n delim stream).2.rest.length < stream.rest.length := by
  unfold getline at going ⊢
  split at going
  · cases going
  · rename_i isGood
    rw [if_neg isGood]
    cases ahead : stream.rest with
    | nil =>
        rw [ahead] at going
        cases going
    | cons c rest =>
        rw [ahead] at going
        exact Nat.lt_succ_of_le (collect_progress delim (n - 1) c rest going)

def lines (n : Nat) (delim : UInt8) (stream : InputStream) : List (List UInt8) :=
  if _ : (getline n delim stream).2.fail = false then
    (getline n delim stream).1 :: lines n delim (getline n delim stream).2
  else []
termination_by stream.rest.length
decreasing_by
  rename_i going
  exact getline_progress n delim stream going

theorem lines_step (n : Nat) (delim : UInt8) (stream next : InputStream) (line : List UInt8)
    (read : getline n delim stream = (line, next)) (going : next.fail = false) :
    lines n delim stream = line :: lines n delim next := by
  have whole := lines.eq_1 n delim stream
  rw [dif_pos (by rw [read]; exact going), read] at whole
  exact whole

theorem lines_stop (n : Nat) (delim : UInt8) (stream : InputStream)
    (failed : (getline n delim stream).2.fail = true) : lines n delim stream = [] := by
  rw [lines, dif_neg (by rw [failed]; decide)]

/-! ### A text by its lines -/

def pieces (delim : UInt8) : List UInt8 → List (List UInt8)
  | [] => []
  | c :: rest =>
      if c = delim then [] :: pieces delim rest
      else
        match pieces delim rest with
        | [] => [[c]]
        | piece :: others => (c :: piece) :: others

theorem pieces_line (delim : UInt8) (line rest : List UInt8) (plain : delim ∉ line) :
    pieces delim (line ++ delim :: rest) = line :: pieces delim rest := by
  induction line with
  | nil => exact if_pos rfl
  | cons c line ih =>
      have other : c ≠ delim := fun same => plain (same ▸ List.mem_cons_self)
      have behind := ih fun member => plain (List.mem_cons_of_mem c member)
      rw [List.cons_append, pieces, if_neg other, behind]

theorem pieces_last (delim c : UInt8) (line : List UInt8) (plain : delim ∉ c :: line) :
    pieces delim (c :: line) = [c :: line] := by
  induction line generalizing c with
  | nil =>
      have other : c ≠ delim := fun same => plain (same ▸ List.mem_cons_self)
      rw [pieces, if_neg other]
      rfl
  | cons next line ih =>
      have other : c ≠ delim := fun same => plain (same ▸ List.mem_cons_self)
      have behind := ih next fun member => plain (List.mem_cons_of_mem c member)
      rw [pieces, if_neg other, behind]

theorem pieces_longer (delim c : UInt8) (line rest : List UInt8) (plain : delim ∉ c :: line) :
    ∃ piece others, pieces delim (c :: line ++ rest) = piece :: others ∧
      (c :: line).length ≤ piece.length := by
  induction line generalizing c with
  | nil =>
      have other : c ≠ delim := fun same => plain (same ▸ List.mem_cons_self)
      rw [List.cons_append, List.nil_append, pieces, if_neg other]
      cases pieces delim rest with
      | nil => exact ⟨[c], [], rfl, Nat.le_refl _⟩
      | cons piece others => exact ⟨c :: piece, others, rfl, Nat.succ_le_succ (Nat.zero_le _)⟩
  | cons next line ih =>
      have other : c ≠ delim := fun same => plain (same ▸ List.mem_cons_self)
      obtain ⟨piece, others, behind, reaches⟩ :=
        ih next fun member => plain (List.mem_cons_of_mem c member)
      rw [List.cons_append, pieces, if_neg other, behind]
      exact ⟨c :: piece, others, rfl, Nat.succ_le_succ reaches⟩

theorem collect_cases (delim : UInt8) (room : Nat) (text : List UInt8) :
    (∃ line rest, text = line ++ delim :: rest ∧ delim ∉ line ∧ line.length ≤ room ∧
        collect delim room text = (line, ofText rest)) ∨
      (delim ∉ text ∧ text.length ≤ room ∧ collect delim room text = (text, ⟨[], true, false⟩)) ∨
      (∃ line rest, text = line ++ rest ∧ delim ∉ line ∧ line.length = room + 1 ∧
        (collect delim room text).2.fail = true) := by
  induction text generalizing room with
  | nil =>
      refine Or.inr (Or.inl ⟨List.not_mem_nil, Nat.zero_le _, ?_⟩)
      rw [collect]
  | cons c text ih =>
      by_cases atDelim : c = delim
      · subst atDelim
        refine Or.inl ⟨[], text, rfl, List.not_mem_nil, Nat.zero_le _, ?_⟩
        cases room with
        | zero => exact if_pos rfl
        | succ room => exact if_pos rfl
      · have apart : ∀ line : List UInt8, delim ∉ line → delim ∉ c :: line := by
          intro line plain member
          rcases List.mem_cons.mp member with same | later
          · exact atDelim same.symm
          · exact plain later
        cases room with
        | zero =>
            refine Or.inr (Or.inr ⟨[c], text, rfl, apart [] List.not_mem_nil, rfl, ?_⟩)
            rw [collect, if_neg atDelim]
        | succ room =>
            have step : collect delim (room + 1) (c :: text) =
                (c :: (collect delim room text).1, (collect delim room text).2) :=
              if_neg atDelim
            rw [step]
            rcases ih room with found | ended | full
            · obtain ⟨line, rest, rfl, plain, fits, collected⟩ := found
              rw [collected]
              exact Or.inl ⟨c :: line, rest, rfl, apart line plain, Nat.succ_le_succ fits, rfl⟩
            · obtain ⟨plain, fits, collected⟩ := ended
              rw [collected]
              exact Or.inr (Or.inl ⟨apart text plain, Nat.succ_le_succ fits, rfl⟩)
            · obtain ⟨line, rest, rfl, plain, size, failed⟩ := full
              refine Or.inr (Or.inr ⟨c :: line, rest, rfl, apart line plain, ?_, failed⟩)
              rw [List.length_cons, size]

/-- Reading stops for good at the first line that does not fit. -/
theorem lines_ofText (n : Nat) (delim : UInt8) (positive : 0 < n) (text : List UInt8) :
    lines n delim (ofText text) =
      (pieces delim text).takeWhile fun piece => decide (piece.length < n) := by
  induction size : text.length using Nat.strongRecOn generalizing text with
  | ind length ih =>
      cases text with
      | nil =>
          rw [lines_stop n delim _ rfl]
          rfl
      | cons c more =>
          have read : getline n delim (ofText (c :: more)) =
              collect delim (n - 1) (c :: more) := rfl
          rcases collect_cases delim (n - 1) (c :: more) with found | ended | full
          · obtain ⟨line, rest, split, plain, fits, collected⟩ := found
            have shorter : rest.length < length := by
              rw [← size, split, List.length_append, List.length_cons]
              omega
            have short : decide (line.length < n) = true := decide_eq_true (by omega)
            rw [lines_step n delim _ _ line (read.trans collected) rfl,
              ih rest.length shorter rest rfl, split, pieces_line delim line rest plain,
              List.takeWhile_cons, if_pos short]
          · obtain ⟨plain, fits, collected⟩ := ended
            have short : decide ((c :: more).length < n) = true := decide_eq_true (by omega)
            rw [lines_step n delim _ _ _ (read.trans collected) rfl, lines_stop n delim _ rfl,
              pieces_last delim c more plain, List.takeWhile_cons, if_pos short]
            rfl
          · obtain ⟨line, rest, split, plain, reached, failed⟩ := full
            cases line with
            | nil => cases reached
            | cons first line =>
                obtain ⟨piece, others, broken, reaches⟩ :=
                  pieces_longer delim first line rest plain
                have long : ¬ decide (piece.length < n) = true := by
                  rw [decide_eq_true_iff]
                  omega
                rw [lines_stop n delim _ (by rw [read]; exact failed), split, broken,
                  List.takeWhile_cons, if_neg long]

end InputStream
