/-
Settings as they are written in a configuration file, and how they are read.

A key is a letter with letters and underscores behind it; a value is quoted, a
decimal integer, or again such a word.  Blanks may stand around all of them.
-/

import AuthServer.ConfigFile
import AuthServer.Lib.CText
import Mathlib.Data.List.TakeWhile

set_option autoImplicit false

namespace AuthServer

open InputStream

namespace Config

/-! ### What may be written -/

structure Gap where
  text : List UInt8
  white : ∀ c ∈ text, isWhiteSpace c = true

/-- A letter, and then letters and underscores. -/
structure KeyText where
  first : UInt8
  more : List UInt8
  letter : isAlpha first = true
  others : ∀ c ∈ more, isAlpha c = true ∨ c = 95
  fits : (first :: more).length ≤ maxTokenLen

def KeyText.text (key : KeyText) : List UInt8 := key.first :: key.more

structure QuotedText where
  text : List UInt8
  noQuote : 34 ∉ text
  noNewLine : 10 ∉ text
  noZero : 0 ∉ text
  fits : text.length ≤ maxTokenLen

structure IntegerText where
  sign : List UInt8
  digits : List UInt8
  signed : sign = [] ∨ sign = [45]
  filled : digits ≠ []
  numeric : ∀ c ∈ digits, isDigit c = true
  fits : (sign ++ digits).length ≤ maxTokenLen

inductive Value where
  | quoted (string : QuotedText)
  | integer (number : IntegerText)
  | word (name : KeyText)

def Value.spelled : Value → List UInt8
  | quoted string => 34 :: (string.text ++ [34])
  | integer number => number.sign ++ number.digits
  | word name => name.text

def Value.text : Value → List UInt8
  | quoted string => string.text
  | integer number => number.sign ++ number.digits
  | word name => name.text

/-- A key and a value, with blanks where they may stand. -/
structure Pair where
  lead : Gap
  key : KeyText
  left : Gap
  right : Gap
  value : Value
  trail : Gap

def Pair.text (pair : Pair) : List UInt8 :=
  pair.lead.text ++ (pair.key.text ++ (pair.left.text ++ 61 ::
    (pair.right.text ++ (pair.value.spelled ++ pair.trail.text))))

def Pair.lexemes (pair : Pair) : List Lexeme :=
  [⟨.word, some pair.key.text⟩, ⟨.equal, none⟩, ⟨.word, some pair.value.text⟩]

def letterA : KeyText := ⟨97, [], by decide, List.forall_mem_nil _, by decide⟩

def noGap : Gap := ⟨[], List.forall_mem_nil _⟩

def oneBlank : Gap := ⟨[32], fun _ member => List.mem_singleton.mp member ▸ rfl⟩

def settingA : Pair := ⟨noGap, letterA, noGap, noGap, .word letterA, noGap⟩

/-! ### Reading it -/

theorem reads_gap (gap : Gap) (line : List UInt8) (lexemes : List Lexeme) (ending : Ending)
    (behind : Reads line lexemes ending) : Reads (gap.text ++ line) lexemes ending := by
  obtain ⟨text, white⟩ := gap
  induction text with
  | nil => exact behind
  | cons c text ih =>
      exact .blank (white c List.mem_cons_self)
        (ih fun other member => white other (List.mem_cons_of_mem c member))

theorem gap_head (condition : UInt8 → Bool) (gap : Gap) (line : List UInt8)
    (blank : ∀ c, isWhiteSpace c = true → condition c = false)
    (ends : ∀ next ∈ line.head?, condition next = false) :
    ∀ next ∈ (gap.text ++ line).head?, condition next = false :=
  CText.head_append _ gap.text line (fun c member => blank c (gap.white c member)) ends

theorem continuesWord_blank (c : UInt8) (white : isWhiteSpace c = true) :
    continuesWord c = false := by
  rcases isWhiteSpace_cases c white with rfl | rfl | rfl <;> decide

theorem isDigit_blank (c : UInt8) (white : isWhiteSpace c = true) : isDigit c = false := by
  rcases isWhiteSpace_cases c white with rfl | rfl | rfl <;> decide

theorem reads_key (key : KeyText) (line : List UInt8) (lexemes : List Lexeme)
    (ending : Ending) (ends : ∀ next ∈ line.head?, continuesWord next = false)
    (behind : Reads line lexemes ending) :
    Reads (key.text ++ line) (⟨.word, some key.text⟩ :: lexemes) ending := by
  have begins : beginsWord key.first = true := by
    rw [beginsWord, key.letter, Bool.true_or]
  have goesOn : ∀ next ∈ key.more, continuesWord next = true := by
    intro next member
    unfold continuesWord beginsWord
    rcases key.others next member with letter | rfl
    · rw [letter, Bool.true_or, Bool.true_or]
    · decide
  exact .word begins goesOn key.fits ends behind

section Behind

variable (line : List UInt8) (lexemes : List Lexeme) (ending : Ending)

theorem reads_value (value : Value) (trail : Gap)
    (ends : ∀ next ∈ line.head?, isDigit next = false ∧ continuesWord next = false)
    (behind : Reads line lexemes ending) :
    Reads (value.spelled ++ (trail.text ++ line)) (⟨.word, some value.text⟩ :: lexemes)
      ending := by
  have rest := reads_gap trail line lexemes ending behind
  have noDigit := gap_head isDigit trail line isDigit_blank fun next first => (ends next first).1
  have noWord := gap_head continuesWord trail line continuesWord_blank
    fun next first => (ends next first).2
  cases value with
  | quoted string =>
      have read := Reads.quoted string.noQuote string.fits rest
      unfold Value.spelled
      rw [List.cons_append, List.append_assoc]
      exact read
  | integer number =>
      exact .number number.signed number.filled number.numeric number.fits (Or.inl noDigit) rest
  | word name => exact reads_key name _ lexemes ending noWord rest

theorem reads_pair_append (pair : Pair)
    (ends : ∀ next ∈ line.head?, isDigit next = false ∧ continuesWord next = false)
    (behind : Reads line lexemes ending) :
    Reads (pair.text ++ line) (pair.lexemes ++ lexemes) ending := by
  have value := reads_gap pair.right _ _ _
    (reads_value line lexemes ending pair.value pair.trail ends behind)
  have equal : Reads (61 :: (pair.right.text ++ (pair.value.spelled ++ (pair.trail.text ++ line))))
      (⟨.equal, none⟩ :: ⟨.word, some pair.value.text⟩ :: lexemes) ending := .mark rfl value
  have left := reads_gap pair.left _ _ _ equal
  unfold Pair.text
  simp only [List.append_assoc, List.cons_append]
  apply reads_gap
  apply reads_key pair.key _ _ _ _ left
  exact gap_head _ _ _ continuesWord_blank (CText.head_cons _ 61 _ rfl)

end Behind

theorem reads_pair (pair : Pair) : Reads pair.text pair.lexemes .lineEnd := by
  have whole := reads_pair_append [] [] .lineEnd pair (fun next none => by cases none) .done
  rw [List.append_nil, List.append_nil] at whole
  exact whole

theorem cString_eq (text : List UInt8) (noZero : 0 ∉ text) : cString text = text := by
  apply List.takeWhile_eq_self_iff.mpr
  intro c member
  exact decide_eq_true fun zero => noZero (zero ▸ member)

theorem KeyText.absent (key : KeyText) (c : UInt8) (control : c.toNat < 32) : c ∉ key.text := by
  have noLetter : ¬ isAlpha c = true := by
    intro letter
    have bounds := beginsWord_bounds c (by rw [beginsWord, letter, Bool.true_or])
    omega
  intro member
  rcases List.mem_cons.mp member with rfl | later
  · exact noLetter key.letter
  · rcases key.others c later with letter | rfl
    · exact noLetter letter
    · exact absurd control (by decide)

theorem IntegerText.absent (number : IntegerText) (c : UInt8) (control : c.toNat < 32) :
    c ∉ number.sign ++ number.digits := by
  intro member
  rcases List.mem_append.mp member with sign | digit
  · rcases number.signed with none | minus
    · rw [none] at sign
      cases sign
    · rw [minus] at sign
      obtain rfl := List.mem_singleton.mp sign
      exact absurd control (by decide)
  · have bounds := isDigit_bounds c (number.numeric c digit)
    omega

theorem Value.noZero (value : Value) : 0 ∉ value.text := by
  cases value with
  | quoted string => exact string.noZero
  | integer number => exact number.absent 0 (Nat.zero_lt_succ 31)
  | word name => exact name.absent 0 (Nat.zero_lt_succ 31)

theorem Gap.noNewLine (gap : Gap) : 10 ∉ gap.text := by
  intro member
  have white := gap.white 10 member
  contradiction

theorem Value.noNewLine (value : Value) : 10 ∉ value.spelled := by
  have control : (10 : UInt8).toNat < 32 := by decide
  cases value with
  | quoted string =>
      intro member
      rcases List.mem_cons.mp member with quote | later
      · contradiction
      · rcases List.mem_append.mp later with inside | closing
        · exact string.noNewLine inside
        · have quote := List.mem_singleton.mp closing
          contradiction
  | integer number => exact number.absent 10 control
  | word name => exact name.absent 10 control

theorem Pair.noNewLine (pair : Pair) : 10 ∉ pair.text := by
  unfold Pair.text
  intro member
  rcases List.mem_append.mp member with lead | member
  · exact pair.lead.noNewLine lead
  rcases List.mem_append.mp member with key | member
  · exact pair.key.absent 10 (by decide) key
  rcases List.mem_append.mp member with left | member
  · exact pair.left.noNewLine left
  rcases List.mem_cons.mp member with equal | member
  · contradiction
  rcases List.mem_append.mp member with right | member
  · exact pair.right.noNewLine right
  rcases List.mem_append.mp member with value | trail
  · exact pair.value.noNewLine value
  · exact pair.trail.noNewLine trail

/-- At the start of a line a pair puts its value under its key, unless there is
one already. -/
theorem fold_pair (pair : Pair) (loading : Loading) (atStart : loading.state = .waitKey) :
    pair.lexemes.foldlM onToken loading =
      .ok ⟨.waitValue, some pair.key.text,
        loading.map.insert (lowered pair.key.text) pair.value.text⟩ := by
  obtain ⟨state, key, map⟩ := loading
  subst atStart
  have keyText := cString_eq pair.key.text (pair.key.absent 0 (Nat.zero_lt_succ 31))
  have valueText := cString_eq pair.value.text pair.value.noZero
  have first : onToken ⟨.waitKey, key, map⟩ ⟨.word, some pair.key.text⟩ =
      .ok ⟨.waitKey, some pair.key.text, map⟩ := by
    change Except.ok (⟨.waitKey, some (cString pair.key.text), map⟩ : Loading) = _
    rw [keyText]
  have last : onToken ⟨.waitValue, some pair.key.text, map⟩ ⟨.word, some pair.value.text⟩ =
      .ok ⟨.waitValue, some pair.key.text,
        map.insert (lowered pair.key.text) pair.value.text⟩ := by
    change Except.ok (⟨.waitValue, some pair.key.text,
      map.insert (lowered pair.key.text) (cString pair.value.text)⟩ : Loading) = _
    rw [valueText]
  unfold Pair.lexemes
  rw [foldlM_ok _ _ _ _ first, foldlM_ok _ ⟨.waitValue, some pair.key.text, map⟩ _ _ rfl,
    foldlM_ok _ _ _ _ last]
  rfl

end Config

end AuthServer
