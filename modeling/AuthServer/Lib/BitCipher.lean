/-
Block ciphers over bits that permute the block, run a Feistel network over its halves,
exchange the halves and permute it back.

All permutations and selections of bits are tables that say for each bit of the result
which bit it is taken from.
-/

import AuthServer.Lib.Feistel
import Mathlib.Data.Fin.Tuple.Basic

set_option autoImplicit false

namespace AuthServer

/-- A cipher of blocks of two times `n` bits under round keys of `m` bits. -/
structure BitCipher (n m : Nat) where
  initial : Fin (n + n) → Fin (n + n)
  final : Fin (n + n) → Fin (n + n)
  expansion : Fin m → Fin n
  substitution : (Fin m → Bool) → Fin n → Bool
  mixing : Fin n → Fin n

namespace BitCipher

variable {n m : Nat}

def join (left right : Fin n → Bool) : Fin n → Bool := fun i => left i ^^ right i

def leftHalf (block : Fin (n + n) → Bool) : Fin n → Bool := fun i => block (Fin.castAdd n i)

def rightHalf (block : Fin (n + n) → Bool) : Fin n → Bool := fun i => block (Fin.natAdd n i)

def mix (cipher : BitCipher n m) (key : Fin m → Bool) (half : Fin n → Bool) : Fin n → Bool :=
  fun i => cipher.substitution (fun k => half (cipher.expansion k) ^^ key k) (cipher.mixing i)

def rounds (cipher : BitCipher n m) (keys : List (Fin m → Bool)) (block : Fin (n + n) → Bool) :
    (Fin n → Bool) × (Fin n → Bool) :=
  Feistel.network join (keys.map cipher.mix) (rightHalf block, leftHalf block)

def encipher (cipher : BitCipher n m) (keys : List (Fin m → Bool))
    (block : Fin (n + n) → Bool) : Fin (n + n) → Bool :=
  let halves := cipher.rounds keys (block ∘ cipher.initial)
  Fin.append halves.1 halves.2 ∘ cipher.final

/-- The two permutations undo each other. -/
structure Inverse (cipher : BitCipher n m) : Prop where
  final_initial : ∀ k, cipher.final (cipher.initial k) = k
  initial_final : ∀ k, cipher.initial (cipher.final k) = k

theorem join_cancels : Feistel.Cancels (join : (Fin n → Bool) → _ → _) := by
  intro left right
  funext i
  rw [join, join, Bool.xor_assoc, Bool.xor_self, Bool.xor_false]

theorem halves_append (left right : Fin n → Bool) :
    leftHalf (Fin.append left right) = left ∧ rightHalf (Fin.append left right) = right :=
  ⟨funext fun i => Fin.append_left left right i, funext fun i => Fin.append_right left right i⟩

theorem append_halves (block : Fin (n + n) → Bool) :
    Fin.append (leftHalf block) (rightHalf block) = block :=
  Fin.append_castAdd_natAdd

/-- The same cipher with the keys the other way round deciphers. -/
theorem encipher_reverse (cipher : BitCipher n m) (inverse : cipher.Inverse)
    (keys : List (Fin m → Bool)) (block : Fin (n + n) → Bool) :
    cipher.encipher keys.reverse (cipher.encipher keys block) = block := by
  let start := block ∘ cipher.initial
  let halves := cipher.rounds keys start
  have middle : cipher.encipher keys block ∘ cipher.initial = Fin.append halves.1 halves.2 := by
    funext k
    exact congrArg (Fin.append halves.1 halves.2) (inverse.final_initial k)
  have back : cipher.rounds keys.reverse (Fin.append halves.1 halves.2) =
      (rightHalf start, leftHalf start).swap := by
    rw [rounds, (halves_append halves.1 halves.2).1, (halves_append halves.1 halves.2).2,
      List.map_reverse]
    exact Feistel.network_reverse join_cancels (keys.map cipher.mix) _
  rw [encipher, middle, back]
  dsimp only [Prod.swap]
  rw [append_halves]
  funext k
  exact congrArg block (inverse.initial_final k)

end BitCipher

end AuthServer
