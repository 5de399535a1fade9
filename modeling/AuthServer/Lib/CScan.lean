/-
Formatted input as the C library reads it.

A format is a list of directives: a number, a character that must stand there,
or white space of any length.  Scanning stops at the first directive that does
not match, and what was read before stays read.
-/

import AuthServer.Lib.CFormat
import Mathlib.Data.List.DropRight
import Mathlib.Data.List.TakeWhile

set_option autoImplicit false

namespace CScan

open CText CFormat

inductive Directive where
  | int
  | char (c : UInt8)
  | blank
  deriving DecidableEq

/-- What `%d` stores of a number.  C leaves it open for numbers outside `int`. -/
structure IntStore where
  store : Int → Int32
  faithful : ∀ value : Int32, store value.toInt = value

def IntStore.wrapping : IntStore where
  store := Int32.ofInt
  faithful value := Int32.ofInt_toInt value

def scanInt (text : List UInt8) : Option (Int × List UInt8) :=
  let (negative, behind) := sign (text.dropWhile isspace)
  match behind.takeWhile isdigit with
  | [] => none
  | digits =>
      some (if negative then -(digitsValue digits : Int) else digitsValue digits,
        behind.dropWhile isdigit)

/-- The numbers that are stored; `sscanf` returns how many there are, or -1 for
a text that ends before the first of them. -/
def sscanf (ints : IntStore) : List Directive → List UInt8 → List Int32
  | [], _ => []
  | .int :: more, text =>
      match scanInt text with
      | none => []
      | some (value, rest) => ints.store value :: sscanf ints more rest
  | .char c :: more, text =>
      if text.head? = some c then sscanf ints more text.tail else []
  | .blank :: more, text => sscanf ints more (text.dropWhile isspace)

/-- White space, perhaps a sign, and a digit. -/
def StartsWithNumber (text : List UInt8) : Prop :=
  ∃ blanks signs c rest, text = blanks ++ (signs ++ c :: rest) ∧
    (∀ blank ∈ blanks, isspace blank = true) ∧
    (signs = [] ∨ signs = [45] ∨ signs = [43]) ∧ isdigit c = true

theorem scanInt_isSome_iff (text : List UInt8) :
    (scanInt text).isSome = true ↔
      ∃ c ∈ (sign (text.dropWhile isspace)).2.head?, isdigit c = true := by
  unfold scanInt
  cases behind : (sign (text.dropWhile isspace)).2 with
  | nil => simp [behind]
  | cons c rest =>
      cases digit : isdigit c with
      | true => simp [behind, digit]
      | false => simp [behind, digit]

theorem sign_split (text : List UInt8) :
    ∃ signs, text = signs ++ (sign text).2 ∧ (signs = [] ∨ signs = [45] ∨ signs = [43]) := by
  cases text with
  | nil => exact ⟨[], rfl, Or.inl rfl⟩
  | cons c rest =>
      unfold sign
      by_cases minus : c = 45
      · subst minus
        exact ⟨[45], rfl, Or.inr (Or.inl rfl)⟩
      · by_cases plus : c = 43
        · subst plus
          exact ⟨[43], rfl, Or.inr (Or.inr rfl)⟩
        · refine ⟨[], ?_, Or.inl rfl⟩
          change c :: rest = (if c = 45 then _ else if c = 43 then _ else _ : Bool × List UInt8).2
          rw [if_neg minus, if_neg plus]

theorem scanInt_isSome (text : List UInt8) :
    (scanInt text).isSome = true ↔ StartsWithNumber text := by
  rw [scanInt_isSome_iff]
  constructor
  · rintro ⟨c, first, digit⟩
    obtain ⟨signs, split, known⟩ := sign_split (text.dropWhile isspace)
    obtain ⟨rest, behind⟩ := List.head?_eq_some_iff.mp first
    refine ⟨text.takeWhile isspace, signs, c, rest, ?_, ?_, known, digit⟩
    · rw [← behind, ← split, List.takeWhile_append_dropWhile]
    · exact fun blank member => List.mem_takeWhile_imp member
  · rintro ⟨blanks, signs, c, rest, rfl, spaces, known, digit⟩
    rw [dropWhile_span isspace blanks _ spaces (signed_unspaced signs c rest known digit),
      sign_append signs c rest known digit]
    exact ⟨c, rfl, digit⟩

theorem scanInt_numeral (signs : List UInt8) (numeral : Numeral) (rest : List UInt8)
    (known : signs = [] ∨ signs = [45] ∨ signs = [43])
    (ends : ∀ c ∈ rest.head?, isdigit c = false) :
    scanInt (signs ++ (numeral.text ++ rest)) =
      some (if signs = [45] then -(numeral.value : Int) else numeral.value, rest) := by
  unfold scanInt
  rw [sign_numeral signs numeral rest known]
  simp only [takeWhile_span isdigit _ rest numeral.digits ends,
    dropWhile_span isdigit _ rest numeral.digits ends, decide_eq_true_eq]
  cases written : numeral.text with
  | nil => exact absurd written numeral.filled
  | cons first others =>
      unfold Numeral.value
      rw [written]

theorem decimal_filled (value : Nat) : decimal 1 value ≠ [] := by
  intro empty
  have length := congrArg List.length empty
  simp only [decimal, List.length_append, List.length_replicate, List.length_map,
    List.length_reverse, List.length_nil] at length
  omega

def decimalNumeral (value : Nat) : Numeral where
  text := decimal 1 value
  filled := decimal_filled value
  digits := decimal_isdigit 1 value

theorem decimalNumeral_value (value : Nat) : (decimalNumeral value).value = value :=
  digitsValue_decimal 1 value

/-- What `%d` writes is read back. -/
theorem scanInt_printInt (value : Int32) (rest : List UInt8)
    (ends : ∀ c ∈ rest.head?, isdigit c = false) :
    scanInt (printInt value ++ rest) = some (value.toInt, rest) := by
  have signed := scanInt_numeral [45] (decimalNumeral value.toInt.natAbs) rest
    (Or.inr (Or.inl rfl)) ends
  have unsigned := scanInt_numeral [] (decimalNumeral value.toInt.natAbs) rest (Or.inl rfl) ends
  rw [decimalNumeral_value] at signed unsigned
  rw [if_pos rfl] at signed
  rw [if_neg (List.cons_ne_nil 45 []).symm] at unsigned
  unfold printInt
  by_cases negative : value.toInt < 0
  · rw [if_pos negative]
    have magnitude : -((value.toInt.natAbs : Nat) : Int) = value.toInt := by omega
    rw [magnitude] at signed
    exact signed
  · rw [if_neg negative]
    have magnitude : ((value.toInt.natAbs : Nat) : Int) = value.toInt := by omega
    rw [magnitude] at unsigned
    exact unsigned

theorem sscanf_printInt (ints : IntStore) (value : Int32) (more : List Directive)
    (rest : List UInt8) (ends : ∀ c ∈ rest.head?, isdigit c = false) :
    sscanf ints (.int :: more) (printInt value ++ rest) = value :: sscanf ints more rest := by
  rw [sscanf, scanInt_printInt value rest ends]
  simp only [ints.faithful]

theorem sscanf_char (ints : IntStore) (c : UInt8) (more : List Directive) (rest : List UInt8) :
    sscanf ints (.char c :: more) (c :: rest) = sscanf ints more rest := by
  rw [sscanf, List.head?_cons, if_pos rfl]
  rfl

theorem sscanf_blank (ints : IntStore) (blank : UInt8) (more : List Directive) (rest : List UInt8)
    (space : isspace blank = true) :
    sscanf ints (.blank :: .int :: more) (blank :: rest) = sscanf ints (.int :: more) rest := by
  have skipped : scanInt ((blank :: rest).dropWhile isspace) = scanInt rest := by
    unfold scanInt
    rw [List.dropWhile_cons, if_pos space, List.dropWhile_idempotent]
  rw [sscanf, sscanf, sscanf, skipped]

end CScan
