/-
Reading numbers out of text as the C library does.

A character pointer is the text from it on; behind the last character stands
the terminating zero, which none of the functions here passes.  `long` has 32
bits.  Only base ten is covered.
-/

import Mathlib.Data.List.Basic
import Mathlib.Data.List.TakeWhile

set_option autoImplicit false

namespace CText

def isspace (c : UInt8) : Bool := c = 32 ∨ 9 ≤ c ∧ c ≤ 13

def isdigit (c : UInt8) : Bool := 48 ≤ c ∧ c ≤ 57

def deref (ptr : List UInt8) : UInt8 := ptr.headD 0

def digitsValue (digits : List UInt8) : Nat :=
  digits.foldl (fun value c => 10 * value + (c.toNat - 48)) 0

/-- A value that `long` cannot hold becomes the nearest one that it can. -/
def longOf (value : Int) : Int := max (-2147483648) (min 2147483647 value)

/-- Whether the number has a minus sign, and what is behind the sign. -/
def sign (ptr : List UInt8) : Bool × List UInt8 :=
  if deref ptr = 45 then (true, ptr.tail)
  else if deref ptr = 43 then (false, ptr.tail)
  else (false, ptr)

/-- `strtol(ptr, &ptr, 10)`: the number, and where the pointer is then. -/
def strtol (ptr : List UInt8) : Int × List UInt8 :=
  let (negative, behind) := sign (ptr.dropWhile isspace)
  match behind.takeWhile isdigit with
  | [] => (0, ptr)
  | digits =>
      (longOf (if negative then -(digitsValue digits : Int) else digitsValue digits),
        behind.dropWhile isdigit)

def skipSpan (accept : List UInt8) (ptr : List UInt8) : List UInt8 :=
  ptr.dropWhile fun c => accept.contains c

/-! ### Spans -/

theorem head_cons (condition : UInt8 → Prop) (c : UInt8) (rest : List UInt8)
    (holds : condition c) : ∀ next ∈ (c :: rest).head?, condition next := by
  intro next first
  obtain rfl := Option.mem_some.mp first
  exact holds

theorem head_append (condition : UInt8 → Prop) (span rest : List UInt8)
    (inside : ∀ c ∈ span, condition c) (behind : ∀ c ∈ rest.head?, condition c) :
    ∀ c ∈ (span ++ rest).head?, condition c := by
  cases span with
  | nil => exact behind
  | cons c more => exact head_cons condition c (more ++ rest) (inside c List.mem_cons_self)

theorem takeWhile_span (condition : UInt8 → Bool) (span rest : List UInt8)
    (inside : ∀ c ∈ span, condition c = true)
    (ends : ∀ c ∈ rest.head?, condition c = false) :
    (span ++ rest).takeWhile condition = span := by
  rw [List.takeWhile_append_of_pos inside]
  cases rest with
  | nil => exact List.append_nil span
  | cons c more =>
      rw [List.takeWhile_cons, ends c rfl]
      exact List.append_nil span

theorem dropWhile_span (condition : UInt8 → Bool) (span rest : List UInt8)
    (inside : ∀ c ∈ span, condition c = true)
    (ends : ∀ c ∈ rest.head?, condition c = false) :
    (span ++ rest).dropWhile condition = rest := by
  rw [List.dropWhile_append_of_pos inside]
  cases rest with
  | nil => rfl
  | cons c more => rw [List.dropWhile_cons, ends c rfl, if_neg Bool.false_ne_true]

theorem skipSpan_span (accept span rest : List UInt8) (inside : ∀ c ∈ span, c ∈ accept)
    (ends : ∀ c ∈ rest.head?, c ∉ accept) : skipSpan accept (span ++ rest) = rest := by
  apply dropWhile_span
  · intro c member
    exact List.contains_iff_mem.mpr (inside c member)
  · intro c first
    rw [← Bool.not_eq_true, List.contains_iff_mem]
    exact ends c first

/-! ### Numerals -/

structure Numeral where
  text : List UInt8
  filled : text ≠ []
  digits : ∀ c ∈ text, isdigit c = true

def Numeral.value (numeral : Numeral) : Nat := digitsValue numeral.text

theorem isdigit_bounds (c : UInt8) (digit : isdigit c = true) : 48 ≤ c.toNat ∧ c.toNat ≤ 57 := by
  unfold isdigit at digit
  rw [decide_eq_true_iff, UInt8.le_iff_toNat_le, UInt8.le_iff_toNat_le] at digit
  exact digit

theorem isspace_of_isdigit (c : UInt8) (digit : isdigit c = true) : isspace c = false := by
  have bounds := isdigit_bounds c digit
  unfold isspace
  rw [decide_eq_false_iff_not, ← UInt8.toNat_inj, UInt8.le_iff_toNat_le, UInt8.le_iff_toNat_le]
  change ¬ (c.toNat = 32 ∨ 9 ≤ c.toNat ∧ c.toNat ≤ 13)
  omega

theorem Numeral.head_isdigit (numeral : Numeral) (rest : List UInt8) :
    ∃ c more, numeral.text ++ rest = c :: more ∧ isdigit c = true := by
  obtain ⟨text, filled, digits⟩ := numeral
  cases text with
  | nil => exact absurd rfl filled
  | cons c more => exact ⟨c, more ++ rest, rfl, digits c List.mem_cons_self⟩

theorem sign_append (signs : List UInt8) (c : UInt8) (rest : List UInt8)
    (known : signs = [] ∨ signs = [45] ∨ signs = [43]) (digit : isdigit c = true) :
    sign (signs ++ c :: rest) = (decide (signs = [45]), c :: rest) := by
  have bounds := isdigit_bounds c digit
  rcases known with rfl | rfl | rfl
  · have minus : c ≠ 45 := by
      rintro rfl
      exact absurd bounds.1 (by decide)
    have plus : c ≠ 43 := by
      rintro rfl
      exact absurd bounds.1 (by decide)
    change (if c = 45 then _ else if c = 43 then _ else _) = _
    rw [if_neg minus, if_neg plus]
    rfl
  · rfl
  · rfl

theorem signed_unspaced (signs : List UInt8) (c : UInt8) (rest : List UInt8)
    (known : signs = [] ∨ signs = [45] ∨ signs = [43]) (digit : isdigit c = true) :
    ∀ next ∈ (signs ++ c :: rest).head?, isspace next = false := by
  rcases known with rfl | rfl | rfl
  · exact head_cons _ c rest (isspace_of_isdigit c digit)
  · exact head_cons _ 45 (c :: rest) rfl
  · exact head_cons _ 43 (c :: rest) rfl

theorem sign_numeral (signs : List UInt8) (numeral : Numeral) (rest : List UInt8)
    (known : signs = [] ∨ signs = [45] ∨ signs = [43]) :
    sign ((signs ++ (numeral.text ++ rest)).dropWhile isspace) =
      (decide (signs = [45]), numeral.text ++ rest) := by
  obtain ⟨c, more, split, digit⟩ := numeral.head_isdigit rest
  have unspaced : (signs ++ c :: more).dropWhile isspace = signs ++ c :: more :=
    dropWhile_span isspace [] _ (List.forall_mem_nil _) (signed_unspaced signs c more known digit)
  rw [split, unspaced]
  exact sign_append signs c more known digit

/-- A signed numeral is read to its end, whatever that is followed by. -/
theorem strtol_signed (signs : List UInt8) (numeral : Numeral) (rest : List UInt8)
    (known : signs = [] ∨ signs = [45] ∨ signs = [43])
    (ends : ∀ c ∈ rest.head?, isdigit c = false) :
    strtol (signs ++ (numeral.text ++ rest)) =
      (longOf (if signs = [45] then -(numeral.value : Int) else numeral.value), rest) := by
  unfold strtol
  rw [sign_numeral signs numeral rest known]
  simp only [takeWhile_span isdigit _ rest numeral.digits ends,
    dropWhile_span isdigit _ rest numeral.digits ends, decide_eq_true_eq]
  cases written : numeral.text with
  | nil => exact absurd written numeral.filled
  | cons first others =>
      unfold Numeral.value
      rw [written]

/-- The text begins with a number: blanks, at most one sign, and all the digits behind it. -/
inductive BeginsWith : List UInt8 → Int → Prop where
  | number (blanks signs : List UInt8) (numeral : Numeral) (rest : List UInt8)
      (white : ∀ c ∈ blanks, isspace c = true) (known : signs = [] ∨ signs = [45] ∨ signs = [43])
      (ends : ∀ c ∈ rest.head?, isdigit c = false) :
      BeginsWith (blanks ++ (signs ++ (numeral.text ++ rest)))
        (if signs = [45] then -(numeral.value : Int) else numeral.value)

theorem strtol_blanks (blanks rest : List UInt8) (white : ∀ c ∈ blanks, isspace c = true) :
    (strtol (blanks ++ rest)).1 = (strtol rest).1 := by
  unfold strtol
  rw [List.dropWhile_append_of_pos white]
  dsimp only
  split <;> rfl

theorem strtol_beginsWith (text : List UInt8) (value : Int) (begins : BeginsWith text value) :
    (strtol text).1 = longOf value := by
  obtain ⟨blanks, signs, numeral, rest, white, known, ends⟩ := begins
  rw [strtol_blanks blanks _ white, strtol_signed signs numeral rest known ends]

theorem exists_signs (ptr : List UInt8) :
    ∃ signs, (signs = [] ∨ signs = [45] ∨ signs = [43]) ∧ ptr = signs ++ (sign ptr).2 := by
  cases ptr with
  | nil => exact ⟨[], Or.inl rfl, rfl⟩
  | cons c rest =>
      by_cases minus : c = 45
      · exact ⟨[45], Or.inr (Or.inl rfl), by rw [minus]; rfl⟩
      · by_cases plus : c = 43
        · exact ⟨[43], Or.inr (Or.inr rfl), by rw [plus]; rfl⟩
        · refine ⟨[], Or.inl rfl, ?_⟩
          change c :: rest = (if c = 45 then _ else if c = 43 then _ else (false, c :: rest)).2
          rw [if_neg minus, if_neg plus]

theorem strtol_without (text : List UInt8) (without : ∀ value, ¬ BeginsWith text value) :
    (strtol text).1 = 0 := by
  obtain ⟨signs, known, split⟩ := exists_signs (text.dropWhile isspace)
  by_cases filled : (sign (text.dropWhile isspace)).2.takeWhile isdigit = []
  · unfold strtol
    dsimp only
    rw [filled]
  · have digits : ∀ c ∈ (sign (text.dropWhile isspace)).2.takeWhile isdigit, isdigit c = true :=
      fun c member => List.mem_takeWhile_imp member
    have ends : ∀ c ∈ ((sign (text.dropWhile isspace)).2.dropWhile isdigit).head?,
        isdigit c = false := by
      intro c first
      have holds := List.head?_dropWhile_not isdigit (sign (text.dropWhile isspace)).2
      rw [Option.mem_def.mp first] at holds
      exact holds
    have begins := BeginsWith.number (text.takeWhile isspace) signs ⟨_, filled, digits⟩ _
      (fun c member => List.mem_takeWhile_imp member) known ends
    dsimp only at begins
    rw [List.takeWhile_append_dropWhile, ← split, List.takeWhile_append_dropWhile] at begins
    exact absurd begins (without _)

theorem strtol_numeral (numeral : Numeral) (rest : List UInt8)
    (ends : ∀ c ∈ rest.head?, isdigit c = false) :
    strtol (numeral.text ++ rest) = (longOf numeral.value, rest) :=
  strtol_signed [] numeral rest (Or.inl rfl) ends

end CText
