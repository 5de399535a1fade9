/-
Formatted output as the C library writes it.

A percent sign starts a conversion; `%s`, `%d` and `%%` are covered.  A
conversion that finds no argument of its kind has no result, since C leaves
open what it does.
-/

import AuthServer.Lib.CText
import Mathlib.Data.Nat.Digits.Lemmas

set_option autoImplicit false

namespace CFormat

def ascii (text : String) : List UInt8 := text.toList.map fun c => UInt8.ofNat c.toNat

inductive Arg where
  | str (text : List UInt8)
  | int (value : Int32)
  deriving DecidableEq

def digit (value : Nat) : UInt8 := UInt8.ofNat (48 + value)

def decimal (width value : Nat) : List UInt8 :=
  let digits := (Nat.digits 10 value).reverse.map digit
  List.replicate (width - digits.length) 48 ++ digits

def printInt (value : Int32) : List UInt8 :=
  if value.toInt < 0 then 45 :: decimal 1 value.toInt.natAbs
  else decimal 1 value.toInt.natAbs

def conversion (c : UInt8) : List Arg → Option (List UInt8 × List Arg)
  | [] => if c = 37 then some ([37], []) else none
  | .str text :: more =>
      if c = 37 then some ([37], .str text :: more)
      else if c = 115 then some (text, more)
      else none
  | .int value :: more =>
      if c = 37 then some ([37], .int value :: more)
      else if c = 100 then some (printInt value, more)
      else none

def vsprintf : List UInt8 → List Arg → Option (List UInt8)
  | [], _ => some []
  | [c], _ => if c = 37 then none else some [c]
  | c :: d :: rest, args =>
      if c = 37 then
        match conversion d args with
        | none => none
        | some (text, more) => (vsprintf rest more).map (text ++ ·)
      else (vsprintf (d :: rest) args).map (c :: ·)

/-- The array holds one character less than its size, and the terminating zero. -/
def snprintf (size : Nat) (format : List UInt8) (args : List Arg) : Option (List UInt8) :=
  (vsprintf format args).map (List.take (size - 1))

/-! ### Formats -/

theorem vsprintf_cons (c : UInt8) (rest : List UInt8) (args : List Arg) (plain : c ≠ 37) :
    vsprintf (c :: rest) args = (vsprintf rest args).map (c :: ·) := by
  cases rest with
  | nil => exact if_neg plain
  | cons d more => exact if_neg plain

theorem vsprintf_append (text rest : List UInt8) (args : List Arg) (plain : 37 ∉ text) :
    vsprintf (text ++ rest) args = (vsprintf rest args).map (text ++ ·) := by
  induction text with
  | nil =>
      rw [List.nil_append]
      exact Option.map_id'.symm
  | cons c text ih =>
      rw [List.mem_cons, not_or] at plain
      rw [List.cons_append, vsprintf_cons c _ args (Ne.symm plain.1), ih plain.2, Option.map_map]
      rfl

theorem vsprintf_plain (text : List UInt8) (args : List Arg) (plain : 37 ∉ text) :
    vsprintf text args = some text := by
  have copied := vsprintf_append text [] args plain
  rw [List.append_nil, vsprintf, Option.map_some, List.append_nil] at copied
  exact copied

theorem vsprintf_str (text rest : List UInt8) (more : List Arg) :
    vsprintf (37 :: 115 :: rest) (.str text :: more) =
      (vsprintf rest more).map (text ++ ·) := rfl

theorem vsprintf_int (value : Int32) (rest : List UInt8) (more : List Arg) :
    vsprintf (37 :: 100 :: rest) (.int value :: more) =
      (vsprintf rest more).map (printInt value ++ ·) := rfl

theorem conversion_bare (c : UInt8) (text : List UInt8) (more : List Arg)
    (found : conversion c [] = some (text, more)) : text = [37] ∧ more = [] := by
  rw [conversion] at found
  split at found
  · cases found
    exact ⟨rfl, rfl⟩
  · contradiction

/-- Without arguments a format never grows, and shrinks with its first percent sign. -/
theorem vsprintf_bare_length (format : List UInt8) : ∀ text,
    vsprintf format [] = some text →
      text.length ≤ format.length ∧ (37 ∈ format → text.length < format.length) := by
  induction format using List.twoStepInduction with
  | nil =>
      intro text written
      cases written
      exact ⟨Nat.le_refl _, fun member => absurd member List.not_mem_nil⟩
  | singleton c =>
      intro text written
      rw [vsprintf] at written
      split at written
      · contradiction
      · rename_i plain
        cases written
        exact ⟨Nat.le_refl _, fun member => absurd (List.mem_singleton.mp member).symm plain⟩
  | cons_cons c d rest behind shorter =>
      intro text written
      rw [vsprintf] at written
      split at written
      · split at written
        · contradiction
        · rename_i converted more found
          obtain ⟨rfl, rfl⟩ := conversion_bare d converted more found
          obtain ⟨tail, below, rfl⟩ := Option.map_eq_some_iff.mp written
          have bound := (behind tail below).1
          simp only [List.cons_append, List.nil_append, List.length_cons]
          omega
      · rename_i plain
        obtain ⟨tail, below, rfl⟩ := Option.map_eq_some_iff.mp written
        obtain ⟨bound, strict⟩ := shorter d tail below
        rw [List.length_cons, List.length_cons]
        refine ⟨Nat.succ_le_succ bound, fun member => Nat.succ_lt_succ (strict ?_)⟩
        rcases List.mem_cons.mp member with same | later
        · exact absurd same.symm plain
        · exact later

/-! ### Decimal numbers -/

theorem digit_isdigit (value : Nat) (small : value < 10) :
    CText.isdigit (digit value) = true ∧ (digit value).toNat - 48 = value := by
  have number : (digit value).toNat = 48 + value := by
    rw [digit, UInt8.toNat_ofNat']
    omega
  constructor
  · unfold CText.isdigit
    rw [decide_eq_true_iff, UInt8.le_iff_toNat_le, UInt8.le_iff_toNat_le, number]
    exact ⟨Nat.le_add_right 48 value, Nat.add_le_add_left (Nat.le_of_lt_succ small) 48⟩
  · omega

theorem decimal_isdigit (width value : Nat) :
    ∀ c ∈ decimal width value, CText.isdigit c = true := by
  intro c member
  rcases List.mem_append.mp member with filled | written
  · rw [List.eq_of_mem_replicate filled]
    rfl
  · obtain ⟨d, inside, rfl⟩ := List.mem_map.mp written
    have small : d < 10 := Nat.digits_lt_base (by decide) (List.mem_reverse.mp inside)
    exact (digit_isdigit d small).1

theorem digitsValue_append (first second : List UInt8) :
    CText.digitsValue (first ++ second) =
      CText.digitsValue first * 10 ^ second.length + CText.digitsValue second := by
  induction second using List.reverseRecOn with
  | nil =>
      rw [List.append_nil, List.length_nil, Nat.pow_zero, Nat.mul_one]
      rfl
  | append_singleton second c ih =>
      have snoc : ∀ text : List UInt8,
          CText.digitsValue (text ++ [c]) = 10 * CText.digitsValue text + (c.toNat - 48) :=
        fun text => by rw [CText.digitsValue, List.foldl_append]; rfl
      rw [← List.append_assoc, snoc, snoc, ih, List.length_append, List.length_singleton,
        Nat.pow_succ]
      ring

theorem digitsValue_replicate (count : Nat) :
    CText.digitsValue (List.replicate count 48) = 0 := by
  induction count with
  | zero => rfl
  | succ count ih =>
      rw [List.replicate_succ', digitsValue_append, ih]
      rfl

theorem digitsValue_digits (digits : List Nat) (small : ∀ d ∈ digits, d < 10) :
    CText.digitsValue (digits.reverse.map digit) = Nat.ofDigits 10 digits := by
  induction digits with
  | nil => rfl
  | cons d digits ih =>
      have first := digit_isdigit d (small d List.mem_cons_self)
      have alone : CText.digitsValue [digit d] = d := by
        change 10 * 0 + ((digit d).toNat - 48) = d
        rw [first.2, Nat.mul_zero, Nat.zero_add]
      rw [List.reverse_cons, List.map_append, digitsValue_append,
        ih fun other member => small other (List.mem_cons_of_mem d member), Nat.ofDigits_cons]
      change _ * 10 ^ 1 + CText.digitsValue [digit d] = _
      rw [alone, Nat.pow_one, Nat.mul_comm, Nat.add_comm]

theorem digitsValue_decimal (width value : Nat) :
    CText.digitsValue (decimal width value) = value := by
  rw [decimal, digitsValue_append, digitsValue_replicate, Nat.zero_mul, Nat.zero_add,
    digitsValue_digits _ fun d member => Nat.digits_lt_base (by decide) member,
    Nat.ofDigits_digits]

theorem decimal_inj (width first second : Nat) (rest other : List UInt8)
    (ends : ∀ c ∈ rest.head?, CText.isdigit c = false)
    (stops : ∀ c ∈ other.head?, CText.isdigit c = false)
    (same : decimal width first ++ rest = decimal width second ++ other) :
    first = second ∧ rest = other := by
  have spans := congrArg (List.takeWhile CText.isdigit) same
  have behind := congrArg (List.dropWhile CText.isdigit) same
  rw [CText.takeWhile_span _ _ _ (decimal_isdigit width first) ends,
    CText.takeWhile_span _ _ _ (decimal_isdigit width second) stops] at spans
  rw [CText.dropWhile_span _ _ _ (decimal_isdigit width first) ends,
    CText.dropWhile_span _ _ _ (decimal_isdigit width second) stops] at behind
  have values := congrArg CText.digitsValue spans
  rw [digitsValue_decimal, digitsValue_decimal] at values
  exact ⟨values, behind⟩

theorem decimal_length_le (value count : Nat) (small : value < 10 ^ count) (one : 1 ≤ count) :
    (decimal 1 value).length ≤ count := by
  have digits : (Nat.digits 10 value).length ≤ count :=
    (Nat.digits_length_le_iff (by decide) value).mpr small
  simp only [decimal, List.length_append, List.length_replicate, List.length_map,
    List.length_reverse]
  omega

theorem printInt_length_le (value : Int32) : (printInt value).length ≤ 11 := by
  have upper := value.toInt_lt
  have lower := value.le_toInt
  have bound := decimal_length_le value.toInt.natAbs 10 (by omega) (by decide)
  unfold printInt
  split
  · rw [List.length_cons]
    omega
  · omega

end CFormat
