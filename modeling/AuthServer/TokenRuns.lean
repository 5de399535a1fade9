/-
The token loop of `Config::Load` over calls that need not end.

Every call has a value of its own in its uninitialised character.  The loop is
followed for a number of calls, each of them for a number of turns; what the
calls write to `value`, and what `strcpy` writes to `key`, is kept.  What is
written past an array does not disturb the loop here.
-/

import AuthServer.ConfigFile
import AuthServer.TokenPieces

set_option autoImplicit false

namespace AuthServer

open InputStream

/-- A call on a stream that is still ahead has no other end than the one in the text. -/
theorem scanToken_ahead (fuel : Nat) (garbage : UInt8) (stream : InputStream) (strOnly : Bool)
    (text : List UInt8) (ahead : Ahead stream text) :
    (scanToken fuel garbage stream strOnly).result = none ∨
      scanToken fuel garbage stream strOnly = Scan.of (scanned strOnly text) := by
  rcases ahead with rfl | ⟨rfl, rfl⟩
  · cases found : (scanToken fuel garbage (ofText text) strOnly).result with
    | none => exact Or.inl rfl
    | some after =>
        refine Or.inr ?_
        rw [← scanToken_mono fuel (fuel + (text.length + 1)) garbage _ strOnly
          (Nat.le_add_right _ _) after found]
        exact scanToken_ofText _ garbage text strOnly (by omega)
  · exact Or.inr rfl

theorem scanToken_ends (fuel : Nat) (garbage : UInt8) (stream : InputStream) (strOnly : Bool)
    (text : List UInt8) (ahead : Ahead stream text) (enough : text.length < fuel) :
    scanToken fuel garbage stream strOnly = Scan.of (scanned strOnly text) := by
  rcases ahead with rfl | ⟨rfl, rfl⟩
  · exact scanToken_ofText fuel garbage text strOnly enough
  · rfl

/-- On a failed stream a loop whose condition holds of the character never ends. -/
theorem storeLoop_forever (more : UInt8 → Nat → Bool) (rest : List UInt8) (c : UInt8)
    (always : ∀ count, more c count = true) (fuel count : Nat) :
    storeLoop more fuel (failed rest) c count = (List.replicate fuel c, none) := by
  induction fuel generalizing count with
  | zero => rfl
  | succ fuel ih =>
      rw [storeLoop, extract_failed, if_pos ⟨always (count + 1), rfl⟩, ih (count + 1)]
      rfl

theorem scanToken_blankGarbage (fuel : Nat) (garbage : UInt8) (rest : List UInt8) (strOnly : Bool)
    (white : isWhiteSpace garbage = true) :
    scanToken fuel garbage (failed rest) strOnly = ⟨[], none⟩ := by
  rw [scanToken, failed_eof, if_neg Bool.false_ne_true, skipLoop,
    storeLoop_forever moreBlanks rest garbage fun _ => white]

namespace Config

def advance (state : State) (token : Token) : State :=
  if state = .inComment then
    if token = .newLine then .waitKey else .inComment
  else
    match token with
    | .equal => .waitValue
    | .semiColon => .inComment
    | .newLine => .waitKey
    | _ => state

theorem onToken_advance (loading next : Loading) (lexeme : Lexeme)
    (ok : onToken loading lexeme = .ok next) : next.state = advance loading.state lexeme.token := by
  unfold onToken at ok
  unfold advance
  by_cases inComment : loading.state = .inComment
  · rw [if_pos inComment] at ok ⊢
    split at ok
    · rename_i newLine
      rw [if_pos newLine, ← Except.ok.inj ok]
    · rename_i other
      rw [if_neg other, ← Except.ok.inj ok]
      exact inComment
  · rw [if_neg inComment] at ok ⊢
    split at ok
    · rename_i isWord
      simp only [isWord]
      unfold onWord at ok
      split at ok
      · rw [← Except.ok.inj ok]
      · split at ok
        · cases ok
        · rw [← Except.ok.inj ok]
      · rw [← Except.ok.inj ok]
    · rename_i isEqual
      rw [← Except.ok.inj ok, isEqual]
    · rename_i isSemiColon
      rw [← Except.ok.inj ok, isSemiColon]
    · rename_i isNewLine
      rw [← Except.ok.inj ok, isNewLine]
    · rename_i noWord noEqual noSemiColon noNewLine
      rw [← Except.ok.inj ok]
      split
      · rename_i isEqual
        exact absurd isEqual noEqual
      · rename_i isSemiColon
        exact absurd isSemiColon noSemiColon
      · rename_i isNewLine
        exact absurd isNewLine noNewLine
      · rfl

def strcpy (source : List UInt8) : List UInt8 := cString source ++ [0]

/-- What each call wrote to `value` and each `strcpy` to `key`, and whether the loop
has ended. -/
structure LoadRun where
  values : List (List UInt8)
  keys : List (List UInt8)
  ended : Bool
  deriving DecidableEq, Repr

/-- The loop for a number of calls, the first of which has `garbage 0`. -/
def loadLoop (fuel : Nat) : Nat → (Nat → UInt8) → InputStream → State → LoadRun
  | 0, _, _, _ => ⟨[], [], false⟩
  | calls + 1, garbage, stream, state =>
      let scan := scanToken fuel (garbage 0) stream true
      match scan.result with
      | none => ⟨[scan.stored], [], false⟩
      | some (token, next) =>
          if token = .eof then ⟨[scan.stored], [], true⟩
          else
            let behind := loadLoop fuel calls (fun call => garbage (call + 1)) next
              (advance state token)
            { values := scan.stored :: behind.values
              keys :=
                if state = .waitKey ∧ token = .word then strcpy scan.stored :: behind.keys
                else behind.keys
              ended := behind.ended }

def loadTokens (heap file : List UInt8) (garbage : Nat → UInt8) (fuel calls : Nat) : LoadRun :=
  loadLoop fuel calls garbage (ofText (streamText heap file)) .waitKey

/-- Whatever the uninitialised characters are, the loop ends after finitely many calls
of finitely many turns. -/
def Ends (heap file : List UInt8) : Prop :=
  ∀ garbage, ∃ fuel calls, (loadTokens heap file garbage fuel calls).ended = true

section Loop

variable (fuel calls : Nat) (garbage : Nat → UInt8) (stream : InputStream) (state : State)

theorem loadLoop_unended (running : (scanToken fuel (garbage 0) stream true).result = none) :
    loadLoop fuel (calls + 1) garbage stream state =
      ⟨[(scanToken fuel (garbage 0) stream true).stored], [], false⟩ := by
  rw [loadLoop]
  simp only [running]

theorem loadLoop_stop (next : InputStream)
    (found : (scanToken fuel (garbage 0) stream true).result = some (.eof, next)) :
    loadLoop fuel (calls + 1) garbage stream state =
      ⟨[(scanToken fuel (garbage 0) stream true).stored], [], true⟩ := by
  rw [loadLoop]
  simp only [found, if_true]

theorem loadLoop_next (token : Token) (next : InputStream)
    (found : (scanToken fuel (garbage 0) stream true).result = some (token, next))
    (going : token ≠ .eof) :
    loadLoop fuel (calls + 1) garbage stream state =
      { values := (scanToken fuel (garbage 0) stream true).stored ::
          (loadLoop fuel calls (fun call => garbage (call + 1)) next (advance state token)).values
        keys :=
          if state = .waitKey ∧ token = .word then
            strcpy (scanToken fuel (garbage 0) stream true).stored ::
              (loadLoop fuel calls (fun call => garbage (call + 1)) next
                (advance state token)).keys
          else
            (loadLoop fuel calls (fun call => garbage (call + 1)) next (advance state token)).keys
        ended :=
          (loadLoop fuel calls (fun call => garbage (call + 1)) next
            (advance state token)).ended } := by
  rw [loadLoop]
  simp only [found, if_neg going]

end Loop

section Found

variable (fuel calls : Nat) (garbage : Nat → UInt8) (stream : InputStream) (state : State)
  (text : List UInt8)
  (found : scanToken fuel (garbage 0) stream true = Scan.of (scanned true text))

include found

theorem loadLoop_taken (behind : List UInt8) (lexeme : Lexeme) (following : InputStream)
    (taken : TakenOff true text behind lexeme following) :
    loadLoop fuel (calls + 1) garbage stream state =
      { values := (scanToken fuel (garbage 0) stream true).stored ::
          (loadLoop fuel calls (fun call => garbage (call + 1)) following
            (advance state lexeme.token)).values
        keys :=
          if state = .waitKey ∧ lexeme.token = .word then
            strcpy (scanToken fuel (garbage 0) stream true).stored ::
              (loadLoop fuel calls (fun call => garbage (call + 1)) following
                (advance state lexeme.token)).keys
          else
            (loadLoop fuel calls (fun call => garbage (call + 1)) following
              (advance state lexeme.token)).keys
        ended :=
          (loadLoop fuel calls (fun call => garbage (call + 1)) following
            (advance state lexeme.token)).ended } := by
  have result := congrArg Scan.result found
  rw [taken.found] at result
  exact loadLoop_next fuel calls garbage stream state lexeme.token following result taken.going

theorem loadLoop_stopped (stopped : (scanned true text).1.token = .eof) :
    loadLoop fuel (calls + 1) garbage stream state =
      ⟨[(scanToken fuel (garbage 0) stream true).stored], [], true⟩ := by
  have result := congrArg Scan.result found
  rw [Scan.of, stopped] at result
  exact loadLoop_stop fuel calls garbage stream state _ result

end Found

theorem scanned_lastMinus (strOnly : Bool) (blanks : List UInt8)
    (white : ∀ c ∈ blanks, isWhiteSpace c = true) :
    scanned strOnly (blanks ++ [45]) = (⟨.minus, none⟩, failed []) := by
  rw [scanned_blanks strOnly blanks [45] white, scanned_minus]
  rfl

/-- Where the reading comes to a last minus sign, blanks as garbage keep it from ending. -/
theorem loadLoop_unending (text last : List UInt8) (start : TokenStart text last)
    (isMinus : last = [45]) (fuel calls : Nat) (stream : InputStream) (state : State)
    (ahead : Ahead stream text) :
    (loadLoop fuel calls (fun _ => 32) stream state).ended = false := by
  induction start generalizing calls stream state with
  | @here blanks rest white =>
      subst isMinus
      cases calls with
      | zero => rfl
      | succ calls =>
          rcases scanToken_ahead fuel 32 stream true _ ahead with running | found
          · rw [loadLoop_unended fuel calls _ stream state running]
          · have result := congrArg Scan.result found
            rw [scanned_lastMinus true blanks white] at result
            rw [loadLoop_next fuel calls _ stream state .minus (failed []) result minus_going]
            cases calls with
            | zero => rfl
            | succ calls =>
                have stuck := scanToken_blankGarbage fuel 32 [] true rfl
                rw [loadLoop_unended fuel calls _ _ _ (congrArg Scan.result stuck)]
  | @next blanks text behind rest white piece later ih =>
      cases calls with
      | zero => rfl
      | succ calls =>
          obtain ⟨lexeme, following, taken⟩ := piece.taken true blanks white
          rcases scanToken_ahead fuel 32 stream true _ ahead with running | found
          · rw [loadLoop_unended fuel calls _ stream state running]
          · rw [loadLoop_taken fuel calls _ stream state _ found behind lexeme following taken]
            exact ih isMinus calls following _ taken.ahead

/-- Otherwise it ends, within one call for each character and one more. -/
theorem loadLoop_ends (text : List UInt8) (fuel calls : Nat) (garbage : Nat → UInt8)
    (stream : InputStream) (state : State) (free : ¬ TokenStart text [45])
    (ahead : Ahead stream text) (turns : text.length < fuel) (enough : text.length < calls) :
    (loadLoop fuel calls garbage stream state).ended = true := by
  induction calls generalizing text garbage stream state with
  | zero => exact absurd enough (Nat.not_lt_zero _)
  | succ calls ih =>
      have found := scanToken_ends fuel (garbage 0) stream true text ahead turns
      rcases taken_cases true text with ⟨behind, lexeme, following, taken⟩ | minus | stopped
      · rw [loadLoop_taken fuel calls garbage stream state text found behind lexeme following taken]
        have shorter := taken.shorter
        exact ih behind _ following _ (fun later => free (taken.starts [45] later)) taken.ahead
          (by omega) (by omega)
      · exact absurd minus free
      · rw [loadLoop_stopped fuel calls garbage stream state text found stopped]

/-- The loop ends exactly when the reading does not come to a minus sign that is the
last character, where a token may begin. -/
theorem load_ends_iff (heap file : List UInt8) :
    Ends heap file ↔ ¬ TokenStart (streamText heap file) [45] := by
  constructor
  · intro ends start
    obtain ⟨fuel, calls, ended⟩ := ends fun _ => 32
    have unended := loadLoop_unending _ _ start rfl fuel calls _ .waitKey (Or.inl rfl)
    rw [loadTokens, unended] at ended
    cases ended
  · intro free garbage
    exact ⟨_, _, loadLoop_ends _ _ _ garbage _ .waitKey free (Or.inl rfl) (Nat.lt_succ_self _)
      (Nat.lt_succ_self _)⟩

/-- A file of one minus sign. -/
theorem minus_never_ends : ¬ Ends [] [45] := by
  intro ends
  obtain ⟨fuel, calls, ended⟩ := ends fun _ => 32
  have start : TokenStart ([] ++ [45]) [45] := .here [45] (List.forall_mem_nil _)
  have unended := loadLoop_unending _ _ start rfl fuel calls _ .waitKey (Or.inl rfl)
  have text : streamText [] [45] = [] ++ [45] := rfl
  rw [loadTokens, text, unended] at ended
  cases ended

end Config

end AuthServer
