/-
Passwords stored as the hash of password and salt.

`EncPwdSha512` overwrites the first 128 bytes of the buffer that holds the
password with the hexadecimal digits of the digest.
-/

import AuthServer.Assemble
import AuthServer.Sha512Impl
import Mathlib.Data.Nat.Digits.Defs

set_option autoImplicit false

namespace AuthServer

open BitText LinearMemory Sha512 Sha512Impl

def hexDigit (digit : Nat) : UInt8 :=
  if digit < 10 then UInt8.ofNat (48 + digit) else UInt8.ofNat (87 + digit)

def printHex (width value : Nat) : List UInt8 :=
  let digits := (Nat.digits 16 value).reverse.map hexDigit
  List.replicate (width - digits.length) 48 ++ digits

def Digest512.toString (hash : Digest512) : List UInt8 :=
  (hash.toList.flatMap fun (word : UInt64) => printHex 16 word.toNat).take 128

def encPwdLen : Nat := 128

/-- The memory from `password` on, and the string there. -/
structure PasswordBuffer where
  cells : Nat → UInt8
  text : CString UInt8
  there : slice cells 0 (text.chars.length + 1) = text.chars ++ [0]

def copyOut (sHash : List UInt8) (cells : Nat → UInt8) : Nat → Option (Nat → UInt8)
  | 0 => some cells
  | count + 1 => do
      let copied ← copyOut sHash cells count
      let digit ← sHash[count]?
      return store copied count [digit]

def encPwdSha512 (password : PasswordBuffer) (salt : UInt32) : Option (Nat → UInt8) := do
  let buf := (printHex 8 salt.toNat).take 8
  let hash ← getMessageDigest (password.text.chars ++ buf)
  copyOut hash.1.toString password.cells encPwdLen

/-! ### Hexadecimal digits of bits -/

def hexText : Nat → List Bool → List UInt8
  | 0, _ => []
  | count + 1, bits => hexDigit (number (bits.take 4)) :: hexText count (bits.drop 4)

@[simp] theorem hexText_length (count : Nat) (bits : List Bool) :
    (hexText count bits).length = count := by
  induction count generalizing bits with
  | zero => rfl
  | succ count ih => rw [hexText, List.length_cons, ih]

theorem hexText_append (first second : Nat) (front back : List Bool)
    (length : front.length = 4 * first) :
    hexText (first + second) (front ++ back) = hexText first front ++ hexText second back := by
  induction first generalizing front with
  | zero =>
      rw [List.length_eq_zero_iff.mp length, Nat.zero_add]
      rfl
  | succ first ih =>
      have enough : 4 ≤ front.length := by omega
      rw [Nat.add_right_comm, hexText, hexText, List.take_append_of_le_length enough,
        List.drop_append_of_le_length enough, ih _ (by rw [List.length_drop]; omega)]
      rfl

theorem hexText_binary (count value : Nat) :
    hexText (count + 1) (binary (4 * (count + 1)) value) =
      hexText count (binary (4 * count) (value / 16)) ++ [hexDigit (value % 16)] := by
  have last : hexText 1 (binary 4 value) = [hexDigit (value % 16)] := by
    rw [hexText, List.take_of_length_le (by rw [binary_length]), number_binary]
    rfl
  rw [Nat.mul_succ, binary_append, hexText_append _ _ _ _ (binary_length _ _), last]
  rfl

theorem printHex_succ (width value : Nat) :
    printHex (width + 1) value = printHex width (value / 16) ++ [hexDigit (value % 16)] := by
  unfold printHex
  rcases Nat.eq_zero_or_pos value with zero | positive
  · rw [zero, Nat.zero_div]
    simp only [Nat.digits_zero, List.reverse_nil, List.map_nil, List.length_nil, Nat.sub_zero,
      List.append_nil]
    exact List.replicate_succ'
  · rw [Nat.digits_def' (by decide) positive, List.reverse_cons, List.map_append]
    simp only [List.length_append, List.length_map, List.length_singleton, Nat.add_sub_add_right,
      List.map_cons, List.map_nil, List.append_assoc]

theorem printHex_eq (width value : Nat) (fits : value < 16 ^ width) :
    printHex width value = hexText width (binary (4 * width) value) := by
  induction width generalizing value with
  | zero =>
      rw [Nat.lt_one_iff.mp fits]
      rfl
  | succ width ih =>
      rw [printHex_succ, hexText_binary, ih (value / 16)]
      rw [Nat.pow_succ] at fits
      exact Nat.div_lt_of_lt_mul (Nat.mul_comm _ 16 ▸ fits)

theorem printHex_word (word : UInt64) :
    printHex 16 word.toNat = hexText 16 (binary 64 word.toNat) :=
  printHex_eq 16 word.toNat word.toNat_lt

/-- The digits of the words are the digits of the whole digest. -/
theorem toString_digest (hash : Digest512) (message : List Bool)
    (same : words hash = digest message) :
    hash.toString = hexText 128 (digestBits message) := by
  have joined : ∀ list : List UInt64,
      list.flatMap (fun (word : UInt64) => printHex 16 word.toNat) =
        hexText (16 * list.length) (list.flatMap fun (word : UInt64) => binary 64 word.toNat) := by
    intro list
    induction list with
    | nil => rfl
    | cons word rest ih =>
        rw [List.flatMap_cons, List.flatMap_cons, ih, printHex_word, List.length_cons,
          Nat.mul_succ, Nat.add_comm, hexText_append _ _ _ _ (binary_length _ _)]
  rw [Digest512.toString, joined, digestBits, ← same, List.take_of_length_le (by
    rw [hexText_length]
    exact Nat.le_refl _)]
  rfl

/-! ### Storing the digits -/

theorem copyOut_eq (sHash : List UInt8) (cells : Nat → UInt8) (count : Nat)
    (within : count ≤ sHash.length) :
    copyOut sHash cells count = some (store cells 0 (sHash.take count)) := by
  induction count with
  | zero => rw [List.take_zero, store_nil, copyOut]
  | succ count ih =>
      have below : count < sHash.length := within
      have joined := store_append cells 0 (sHash.take count) [sHash[count]]
      rw [List.length_take, Nat.min_eq_left (Nat.le_of_lt below), Nat.zero_add] at joined
      rw [copyOut, ih (Nat.le_of_lt below), List.getElem?_eq_getElem below,
        List.take_succ_eq_append_getElem below, ← joined]
      rfl

def saltedBits (password : PasswordBuffer) (salt : UInt32) : List Bool :=
  bits (password.text.chars ++ hexText 8 (binary 32 salt.toNat))

/-- What a call leaves in the buffer. -/
structure StoresDigest (password : PasswordBuffer) (salt : UInt32) (written : Nat → UInt8) :
    Prop where
  digits : slice written 0 128 = hexText 128 (digestBits (saltedBits password salt))
  behind : ∀ position, 128 ≤ position → written position = password.cells position

def salted (password : PasswordBuffer) (salt : UInt32) : List UInt8 :=
  password.text.chars ++ (printHex 8 salt.toNat).take 8

theorem encPwdSha512_spec (password : PasswordBuffer) (salt : UInt32)
    (small : (padMessage (salted password salt)).length < 2 ^ 32) :
    ∃ written, encPwdSha512 password salt = some written ∧
      StoresDigest password salt written := by
  obtain ⟨hash, computed, same⟩ := getMessageDigest_spec (salted password salt) small
  have text : bits (salted password salt) = saltedBits password salt := by
    rw [salted, saltedBits, printHex_eq 8 salt.toNat salt.toNat_lt,
      List.take_of_length_le (by rw [hexText_length])]
  rw [text] at same
  have digits := toString_digest hash (saltedBits password salt) same
  have length : hash.toString.length = 128 := by rw [digits, hexText_length]
  refine ⟨store password.cells 0 hash.toString, ?_, ?_⟩
  · have copied := copyOut_eq hash.toString password.cells 128 (Nat.le_of_eq length.symm)
    rw [List.take_of_length_le (Nat.le_of_eq length)] at copied
    unfold salted at computed
    simp only [encPwdSha512, computed, Option.bind_eq_bind, Option.bind_some]
    exact copied
  · constructor
    · rw [← digits, ← length]
      exact slice_store_same password.cells 0 hash.toString
    · intro position outside
      exact store_above password.cells 0 position _ (by omega)

/-- Digest and stored password, for every text whose padded length can be
counted in 32 bits. -/
theorem sha512_spec :
    (∀ message : List UInt8, (padMessage message).length < 2 ^ 32 →
      ∃ hash, getMessageDigest message = some (hash, padMessage message) ∧
        words hash = digest (bits message)) ∧
    ∀ (password : PasswordBuffer) (salt : UInt32),
      (padMessage (salted password salt)).length < 2 ^ 32 →
        ∃ written, encPwdSha512 password salt = some written ∧
          StoresDigest password salt written :=
  ⟨getMessageDigest_spec, encPwdSha512_spec⟩

theorem salted_small (password : PasswordBuffer) (salt : UInt32)
    (short : password.text.chars.length ≤ 1000) :
    (padMessage (salted password salt)).length < 2 ^ 32 := by
  have length : (salted password salt).length = password.text.chars.length + 8 := by
    rw [salted, printHex_eq 8 salt.toNat salt.toNat_lt, List.length_append, List.length_take,
      hexText_length]
    rfl
  have bound := padMessage_length_le (salted password salt) (by omega)
  omega

def secret : PasswordBuffer where
  cells := store (fun _ => 0) 0 [115, 101, 99, 114, 101, 116]
  text := ⟨[115, 101, 99, 114, 101, 116], by decide⟩
  there := rfl

theorem secret_stored :
    (∃ hash, getMessageDigest [97, 98, 99] = some (hash, padMessage [97, 98, 99]) ∧
      words hash = digest (bits [97, 98, 99])) ∧
    ∃ written, encPwdSha512 secret 0xDEADBEEF = some written ∧
      StoresDigest secret 0xDEADBEEF written :=
  ⟨sha512_spec.1 [97, 98, 99]
      (Nat.lt_of_le_of_lt (padMessage_length_le [97, 98, 99] (by decide)) (by decide)),
    sha512_spec.2 secret 0xDEADBEEF (salted_small secret 0xDEADBEEF (by decide))⟩

end AuthServer
