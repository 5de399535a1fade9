/-
The configuration file: from its bytes to the map that `Get` searches.

The settings that `Load` takes out of the map afterwards leave the map alone and
are not modelled here.  A file of no bytes is given to `istrstream` with the
count zero, which makes it read on to the first zero byte, through memory that
no file was read into.
-/

import AuthServer.Lib.OrderedMap
import AuthServer.ParserLines
import Mathlib.Data.List.Lex

set_option autoImplicit false

namespace AuthServer

open InputStream

def cString (buf : List UInt8) : List UInt8 := buf.takeWhile fun c => decide (c ≠ 0)

def tolower (c : UInt8) : Nat := if 65 ≤ c ∧ c ≤ 90 then c.toNat + 32 else c.toNat

def lowered (text : List UInt8) : List Nat := text.map tolower

/-- The map ordered by `iless`, under the keys as that order sees them. -/
abbrev StringMap := OrderedMap (List Nat) (List UInt8)

namespace Config

inductive State where
  | waitKey
  | waitEqual
  | waitValue
  | inComment
  deriving DecidableEq, Repr

structure Loading where
  state : State
  key : Option (List UInt8)
  map : StringMap

def onWord (loading : Loading) (value : List UInt8) : Except Halt Loading :=
  match loading.state with
  | .waitKey => .ok { loading with key := some value }
  | .waitValue =>
      match loading.key with
      | none => .error .uninitialised
      | some key => .ok { loading with map := loading.map.insert (lowered key) value }
  | _ => .ok loading

def onToken (loading : Loading) (lexeme : Lexeme) : Except Halt Loading :=
  if loading.state = .inComment then
    if lexeme.token = .newLine then .ok { loading with state := .waitKey } else .ok loading
  else
    match lexeme.token with
    | .word => onWord loading (cString (lexeme.stored.getD []))
    | .equal => .ok { loading with state := .waitValue }
    | .semiColon => .ok { loading with state := .inComment }
    | .newLine => .ok { loading with state := .waitKey }
    | _ => .ok loading

/-- What `istrstream(pBuf, size)` reads; `heap` is the memory at `pBuf`. -/
def streamText (heap file : List UInt8) : List UInt8 :=
  if file.length = 0 then cString heap else file

def loadFile (heap file : List UInt8) (map : StringMap) : Except Halt StringMap :=
  (tokenLoop onToken (ofText (streamText heap file)) ⟨.waitKey, none, map⟩).map (·.map)

def get (map : StringMap) (key : List UInt8) : Option (List UInt8) := map.find? (lowered key)

def fileOf (lines : List (List UInt8)) : List UInt8 := lines.flatMap fun line => line ++ [10]

theorem fileOf_cons (line : List UInt8) (lines : List (List UInt8)) (rest : List UInt8) :
    fileOf (line :: lines) ++ rest = line ++ 10 :: (fileOf lines ++ rest) := by
  rw [fileOf, List.flatMap_cons, ← fileOf, List.append_assoc, List.append_assoc]
  rfl

theorem streamText_fileOf (heap line : List UInt8) (lines : List (List UInt8)) :
    streamText heap (fileOf (line :: lines)) = fileOf (line :: lines) := by
  refine if_neg fun none => ?_
  have whole := fileOf_cons line lines []
  rw [List.append_nil] at whole
  rw [whole, List.length_append, List.length_cons] at none
  omega

/-! ### One token -/

theorem foldlM_ok (loading next : Loading) (lexeme : Lexeme) (rest : List Lexeme)
    (step : onToken loading lexeme = .ok next) :
    (lexeme :: rest).foldlM onToken loading = rest.foldlM onToken next := by
  rw [List.foldlM_cons, step]
  rfl

/-- What every token keeps, they keep together. -/
theorem foldlM_keeps (holds : Loading → Prop) (lexemes : List Lexeme)
    (each : ∀ lexeme ∈ lexemes, ∀ loading, holds loading →
      ∃ next, onToken loading lexeme = .ok next ∧ holds next)
    (loading : Loading) (before : holds loading) :
    ∃ next, lexemes.foldlM onToken loading = .ok next ∧ holds next := by
  induction lexemes generalizing loading with
  | nil => exact ⟨loading, rfl, before⟩
  | cons lexeme lexemes ih =>
      obtain ⟨first, others⟩ := List.forall_mem_cons.mp each
      obtain ⟨middle, step, still⟩ := first loading before
      rw [foldlM_ok _ _ _ _ step]
      exact ih others middle still

theorem onToken_outside (loading : Loading) (token : Token) (stored : Option (List UInt8))
    (outside : loading.state ≠ .inComment) :
    onToken loading ⟨token, stored⟩ =
      match token with
      | .word => onWord loading (cString (stored.getD []))
      | .equal => .ok { loading with state := .waitValue }
      | .semiColon => .ok { loading with state := .inComment }
      | .newLine => .ok { loading with state := .waitKey }
      | _ => .ok loading :=
  if_neg outside

theorem onToken_newLine (loading : Loading) :
    onToken loading ⟨.newLine, none⟩ = .ok { loading with state := .waitKey } := by
  unfold onToken
  split
  · rfl
  · rfl

theorem fold_inComment (lexemes : List Lexeme) (loading : Loading)
    (inComment : loading.state = .inComment)
    (sameLine : ∀ lexeme ∈ lexemes, lexeme.token ≠ .newLine) :
    lexemes.foldlM onToken loading = .ok loading := by
  induction lexemes with
  | nil => rfl
  | cons lexeme lexemes ih =>
      have ignored : onToken loading lexeme = .ok loading := by
        unfold onToken
        rw [if_pos inComment, if_neg (sameLine lexeme List.mem_cons_self)]
      rw [foldlM_ok _ _ _ _ ignored]
      exact ih fun other member => sameLine other (List.mem_cons_of_mem lexeme member)

/-- A line that is read to its end, without an error, leaves the loop waiting
for a key. -/
theorem line_step (line : List UInt8) (lexemes : List Lexeme) (loading middle : Loading)
    (reads : Reads line lexemes .lineEnd) (plain : 10 ∉ line)
    (folded : lexemes.foldlM onToken loading = .ok middle) (rest : List UInt8) :
    tokenLoop onToken (ofText (line ++ 10 :: rest)) loading =
      tokenLoop onToken (ofText rest) { middle with state := .waitKey } := by
  rw [tokenLoop_reads onToken line lexemes .lineEnd reads plain rest loading, folded]
  change (onToken middle ⟨.newLine, none⟩).bind _ = _
  rw [onToken_newLine]
  rfl

theorem tokenLoop_empty (loading : Loading) :
    tokenLoop onToken (ofText []) loading = .ok loading :=
  tokenLoop_stop onToken _ _ loading _ rfl rfl

/-- A token changes the map only by a value, under the key read before, and
fails only by a value before any key. -/
inductive Effect (loading : Loading) (lexeme : Lexeme) : Except Halt Loading → Prop where
  | moved (state : State) : Effect loading lexeme (.ok { loading with state := state })
  | keyed (stored : List UInt8) (isWord : lexeme = ⟨.word, some stored⟩) :
      Effect loading lexeme (.ok { loading with key := some (cString stored) })
  | valued (key stored : List UInt8) (isWord : lexeme = ⟨.word, some stored⟩)
      (known : loading.key = some key) :
      Effect loading lexeme
        (.ok { loading with map := loading.map.insert (lowered key) (cString stored) })
  | orphan (unknown : loading.key = none) : Effect loading lexeme (.error .uninitialised)

def Filled (lexeme : Lexeme) : Prop := lexeme.token = .word → lexeme.stored.isSome

theorem onToken_effect (loading : Loading) (lexeme : Lexeme) (filled : Filled lexeme) :
    Effect loading lexeme (onToken loading lexeme) := by
  obtain ⟨token, stored⟩ := lexeme
  unfold onToken
  split
  · split
    · exact .moved .waitKey
    · exact .moved loading.state
  · split
    · rename_i isWord
      simp only at isWord
      subst isWord
      obtain ⟨text, rfl⟩ := Option.isSome_iff_exists.mp (filled rfl)
      simp only [Option.getD_some, onWord]
      split
      · exact .keyed text rfl
      · split
        · rename_i unknown
          exact .orphan unknown
        · rename_i key known
          exact .valued key text rfl known
      · exact .moved loading.state
    · exact .moved .waitValue
    · exact .moved .inComment
    · exact .moved .waitKey
    · exact .moved loading.state

end Config

end AuthServer
