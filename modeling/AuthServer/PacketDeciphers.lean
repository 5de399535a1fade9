/-
The receiving side of the two packet ciphers, and that it undoes the sending
side.

`Decrypt` chains over the bytes as they came in, `Encrypt` over the bytes as
they go out.  `BlowFishDecryptPacket` runs the rounds of the block cipher
backwards and compares the sum of the words with the word behind them.
-/

import AuthServer.Lib.Feistel
import AuthServer.PacketCiphers

set_option autoImplicit false

namespace AuthServer

open LinearMemory

def decryptLoop (cells : Nat → UInt8) (buf : Nat) (key : UInt64) :
    Nat → Nat → UInt8 → Nat → UInt8
  | 0, _, _ => cells
  | turns + 1, i, source =>
      let nextSource := cells (buf + i)
      decryptLoop (store cells (buf + i) [nextSource ^^^ source ^^^ strKey key (i % 8)]) buf key
        turns (i + 1) nextSource

def decrypt (enabled : Bool) (cells : Nat → UInt8) (buf : Nat) (key : UInt64)
    (length : Nat) : (Nat → UInt8) × UInt64 × Bool :=
  if enabled then
    let first := store cells buf [cells buf ^^^ strKey key 0]
    (decryptLoop first buf key (length - 1) 1 (cells buf), key + length.toUInt64, true)
  else (cells, key, true)

namespace BlowfishMatrix

def twoRoundsBack (matrix : BlowfishMatrix) (halves : UInt32 × UInt32) (turn : Fin 8) :
    UInt32 × UInt32 :=
  let xr := halves.2 ^^^ (matrix.f halves.1 ^^^ matrix.p ⟨16 - 2 * turn.val, by omega⟩)
  let xl := halves.1 ^^^ (matrix.f xr ^^^ matrix.p ⟨15 - 2 * turn.val, by omega⟩)
  (xl, xr)

def decipher (matrix : BlowfishMatrix) (xl xr : UInt32) : UInt32 × UInt32 :=
  let halves := (List.finRange 8).foldl matrix.twoRoundsBack (xl ^^^ matrix.p 17, xr)
  (halves.2 ^^^ matrix.p 0, halves.1)

end BlowfishMatrix

def blowfishDecrypt (matrix : BlowfishMatrix) (cells : Nat → UInt8) (buf length : Nat) :
    Nat → UInt8 :=
  (List.range (length / 8)).foldl (fun cells i =>
    let block := matrix.decipher (loadWord cells (buf + 8 * i)) (loadWord cells (buf + 8 * i + 4))
    storeWord (storeWord cells (buf + 8 * i) block.1) (buf + 8 * i + 4) block.2) cells

def blowFishDecryptPacket (matrix : BlowfishMatrix) (cells : Nat → UInt8) (buf len : Nat) :
    (Nat → UInt8) × Bool :=
  if len % 8 = 0 then
    let cells := blowfishDecrypt matrix cells buf len
    let blockLen := (len - 8) / 4
    let checkSum := (List.range blockLen).foldl
      (fun sum i => sum ^^^ loadWord cells (buf + 4 * i)) 0
    (cells, loadWord cells (buf + 4 * blockLen) == checkSum)
  else (cells, false)

/-! ### The stream cipher -/

theorem encryptLoop_outside (cells : Nat → UInt8) (buf : Nat) (key : UInt64)
    (turns i position : Nat) (outside : position < buf + i ∨ buf + i + turns ≤ position) :
    encryptLoop cells buf key turns i position = cells position := by
  induction turns generalizing cells i with
  | zero => rfl
  | succ turns ih =>
      rw [encryptLoop, ih _ _ (by omega)]
      rcases outside with before | behind
      · exact store_below cells _ position _ before
      · exact store_above cells _ position _ (by simp only [List.length_singleton]; omega)

theorem encryptLoop_inside (cells : Nat → UInt8) (buf : Nat) (key : UInt64)
    (turns i j : Nat) (positive : 0 < i) (lower : i ≤ j) (upper : j < i + turns) :
    encryptLoop cells buf key turns i (buf + j) =
      cells (buf + j) ^^^ encryptLoop cells buf key turns i (buf + j - 1) ^^^
        strKey key (j % 8) := by
  induction turns generalizing cells i with
  | zero => omega
  | succ turns ih =>
      rw [encryptLoop]
      by_cases atStart : j = i
      · subst atStart
        rw [encryptLoop_outside _ _ _ _ _ _ (Or.inl (by omega)),
          encryptLoop_outside _ _ _ _ _ _ (Or.inl (by omega)),
          store_below _ _ (buf + j - 1) _ (by omega)]
        exact store_head cells (buf + j) _ []
      · rw [ih _ _ (by omega) (by omega) (by omega),
          store_above _ _ _ _ (by simp only [List.length_singleton]; omega)]

theorem decryptLoop_outside (cells : Nat → UInt8) (buf : Nat) (key : UInt64)
    (turns i : Nat) (source : UInt8) (position : Nat)
    (outside : position < buf + i ∨ buf + i + turns ≤ position) :
    decryptLoop cells buf key turns i source position = cells position := by
  induction turns generalizing cells i source with
  | zero => rfl
  | succ turns ih =>
      rw [decryptLoop, ih _ _ _ (by omega)]
      rcases outside with before | behind
      · exact store_below cells _ position _ before
      · exact store_above cells _ position _ (by simp only [List.length_singleton]; omega)

theorem decryptLoop_inside (cells : Nat → UInt8) (buf : Nat) (key : UInt64)
    (turns i j : Nat) (source : UInt8) (lower : i ≤ j) (upper : j < i + turns) :
    decryptLoop cells buf key turns i source (buf + j) =
      cells (buf + j) ^^^ (if j = i then source else cells (buf + j - 1)) ^^^
        strKey key (j % 8) := by
  induction turns generalizing cells i source with
  | zero => omega
  | succ turns ih =>
      rw [decryptLoop]
      by_cases atStart : j = i
      · subst atStart
        rw [decryptLoop_outside _ _ _ _ _ _ _ (Or.inl (by omega)), if_pos rfl]
        exact store_head cells (buf + j) _ []
      · rw [ih _ _ _ (by omega) (by omega), if_neg atStart,
          store_above _ _ (buf + j) _ (by simp only [List.length_singleton]; omega)]
        by_cases next : j = i + 1
        · have previous : buf + j - 1 = buf + i := by omega
          rw [if_pos next, previous]
        · rw [if_neg next,
            store_above _ _ (buf + j - 1) _ (by simp only [List.length_singleton]; omega)]

theorem encrypt_first (cells : Nat → UInt8) (buf : Nat) (key : UInt64) (length : Nat) :
    (encrypt true cells buf key length).1 buf = cells buf ^^^ strKey key 0 := by
  simp only [encrypt, if_true]
  rw [encryptLoop_outside _ _ _ _ _ _ (Or.inl (Nat.lt_succ_self buf))]
  exact store_head cells buf _ []

theorem encrypt_next (cells : Nat → UInt8) (buf : Nat) (key : UInt64) (length j : Nat)
    (inside : j + 1 < length) :
    (encrypt true cells buf key length).1 (buf + (j + 1)) =
      cells (buf + (j + 1)) ^^^ (encrypt true cells buf key length).1 (buf + j) ^^^
        strKey key ((j + 1) % 8) := by
  simp only [encrypt, if_true]
  rw [encryptLoop_inside _ _ _ _ _ (j + 1) Nat.one_pos (by omega) (by omega),
    store_above _ _ (buf + (j + 1)) _ (by simp only [List.length_singleton]; omega)]
  rfl

theorem decrypt_first (cells : Nat → UInt8) (buf : Nat) (key : UInt64) (length : Nat) :
    (decrypt true cells buf key length).1 buf = cells buf ^^^ strKey key 0 := by
  simp only [decrypt, if_true]
  rw [decryptLoop_outside _ _ _ _ _ _ _ (Or.inl (Nat.lt_succ_self buf))]
  exact store_head cells buf _ []

theorem decrypt_next (cells : Nat → UInt8) (buf : Nat) (key : UInt64) (length j : Nat)
    (inside : j + 1 < length) :
    (decrypt true cells buf key length).1 (buf + (j + 1)) =
      cells (buf + (j + 1)) ^^^ cells (buf + j) ^^^ strKey key ((j + 1) % 8) := by
  simp only [decrypt, if_true]
  rw [decryptLoop_inside _ _ _ _ _ (j + 1) _ (by omega) (by omega),
    store_above _ _ (buf + (j + 1)) _ (by simp only [List.length_singleton]; omega)]
  by_cases atStart : j = 0
  · subst atStart
    rfl
  · rw [if_neg (by omega),
      store_above _ _ (buf + (j + 1) - 1) _ (by simp only [List.length_singleton]; omega)]
    rfl

/-- The receiver may have the bytes anywhere; it needs the key of the sender. -/
theorem decrypt_encrypt (cells received : Nat → UInt8) (buf place : Nat) (key : UInt64)
    (length : Nat)
    (arrived : slice received place length =
      slice (encrypt true cells buf key length).1 buf length) :
    slice (decrypt true received place key length).1 place length = slice cells buf length := by
  have same := (slice_eq_iff _ _ _ _ _).mp arrived
  apply (slice_eq_iff _ _ _ _ _).mpr
  intro j inside
  cases j with
  | zero =>
      have head := same 0 inside
      rw [Nat.add_zero, Nat.add_zero, encrypt_first] at head
      rw [Nat.add_zero, Nat.add_zero, decrypt_first, head, UInt8.xor_assoc, UInt8.xor_self,
        UInt8.xor_zero]
  | succ j =>
      rw [decrypt_next _ _ _ _ _ inside, same (j + 1) inside, same j (by omega),
        encrypt_next _ _ _ _ _ inside]
      generalize (encrypt true cells buf key length).1 (buf + j) = previous
      calc cells (buf + (j + 1)) ^^^ previous ^^^ strKey key ((j + 1) % 8) ^^^ previous ^^^
            strKey key ((j + 1) % 8)
          = cells (buf + (j + 1)) ^^^ (previous ^^^ previous) ^^^
              (strKey key ((j + 1) % 8) ^^^ strKey key ((j + 1) % 8)) := by
            ac_rfl
        _ = cells (buf + (j + 1)) := by
            rw [UInt8.xor_self, UInt8.xor_self, UInt8.xor_zero, UInt8.xor_zero]

/-- A packet on its way: where the sender has it in memory, and the memory and
place at which its bytes arrive. -/
structure Transfer where
  cells : Nat → UInt8
  buf : Nat
  length : Nat
  recycled : Nat → UInt8
  place : Nat

/-- What a transfer leaves at the receiver, and the two keys after it. -/
structure Delivery where
  body : List UInt8
  senderKey : UInt64
  receiverKey : UInt64
  answer : Bool

def Transfer.deliver (transfer : Transfer) (senderKey receiverKey : UInt64) : Delivery :=
  let sent := encrypt true transfer.cells transfer.buf senderKey transfer.length
  let wire := slice sent.1 transfer.buf transfer.length
  let read := decrypt true (store transfer.recycled transfer.place wire) transfer.place receiverKey
    transfer.length
  { body := slice read.1 transfer.place transfer.length
    senderKey := sent.2
    receiverKey := read.2.1
    answer := read.2.2 }

/-- Packet after packet, each side with the key its last packet left. -/
def deliverAll : List Transfer → UInt64 → UInt64 → List Delivery
  | [], _, _ => []
  | transfer :: rest, senderKey, receiverKey =>
      let delivery := transfer.deliver senderKey receiverKey
      delivery :: deliverAll rest delivery.senderKey delivery.receiverKey

/-- The packet came through, and both sides have the same key for the next one. -/
structure Transfer.Faithful (transfer : Transfer) (delivery : Delivery) : Prop where
  body : delivery.body = slice transfer.cells transfer.buf transfer.length
  keys : delivery.senderKey = delivery.receiverKey
  answer : delivery.answer = true

theorem Transfer.deliver_faithful (transfer : Transfer) (key : UInt64) :
    transfer.Faithful (transfer.deliver key key) := by
  refine ⟨?_, rfl, rfl⟩
  apply decrypt_encrypt
  exact slice_store_slice _ _ _ _ _

/-- However long the packets and wherever they lie, both sides stay in step. -/
theorem deliverAll_faithful (transfers : List Transfer) (key : UInt64) :
    List.Forall₂ Transfer.Faithful transfers (deliverAll transfers key key) := by
  induction transfers generalizing key with
  | nil => exact List.Forall₂.nil
  | cons transfer rest ih =>
      have delivered := transfer.deliver_faithful key
      apply List.Forall₂.cons delivered
      rw [← delivered.keys]
      exact ih _

/-! ### The block cipher -/

namespace BlowfishMatrix

def mix (matrix : BlowfishMatrix) (n : Fin 18) (half : UInt32) : UInt32 :=
  matrix.f half ^^^ matrix.p n

theorem odd_lt (turn : Fin 8) : 2 * turn.val + 1 < 18 := by omega

theorem even_lt (turn : Fin 8) : 2 * turn.val + 2 < 18 := by omega

def mixes (matrix : BlowfishMatrix) : List (UInt32 → UInt32) :=
  (List.finRange 8).flatMap fun turn =>
    [matrix.mix ⟨2 * turn.val + 1, odd_lt turn⟩, matrix.mix ⟨2 * turn.val + 2, even_lt turn⟩]

theorem xor_cancel_right (left right : UInt32) : left ^^^ right ^^^ right = left := by
  rw [UInt32.xor_assoc, UInt32.xor_self, UInt32.xor_zero]

theorem foldl_twoRounds (matrix : BlowfishMatrix) (halves : UInt32 × UInt32) :
    (List.finRange 8).foldl matrix.twoRounds halves =
      Feistel.network XorOp.xor matrix.mixes halves := rfl

theorem foldl_twoRoundsBack (matrix : BlowfishMatrix) (halves : UInt32 × UInt32) :
    (List.finRange 8).foldl matrix.twoRoundsBack halves =
      Feistel.network XorOp.xor matrix.mixes.reverse halves := rfl

theorem decipher_encipher (matrix : BlowfishMatrix) (xl xr : UInt32) :
    matrix.decipher (matrix.encipher xl xr).1 (matrix.encipher xl xr).2 = (xl, xr) := by
  have backwards := @Feistel.network_reverse UInt32 XorOp.xor xor_cancel_right matrix.mixes
    (xl ^^^ matrix.p 0, xr)
  unfold decipher encipher
  simp only [foldl_twoRounds, foldl_twoRoundsBack, xor_cancel_right]
  -- What goes in is the block that came out of the forward rounds, exchanged.
  change (Prod.snd (Feistel.network _ matrix.mixes.reverse (Feistel.network _ _ _).swap) ^^^ _,
    Prod.fst (Feistel.network _ matrix.mixes.reverse (Feistel.network _ _ _).swap)) = _
  rw [backwards, Prod.swap_prod_mk, xor_cancel_right]

end BlowfishMatrix

theorem loadWord_congr (left right : Nat → UInt8) (leftPlace rightPlace : Nat)
    (agree : ∀ offset, offset < 4 → left (leftPlace + offset) = right (rightPlace + offset)) :
    loadWord left leftPlace = loadWord right rightPlace := by
  have first := agree 0 (by decide)
  unfold loadWord
  rw [agree 3 (by decide), agree 2 (by decide), agree 1 (by decide)]
  exact congrArg _ first

theorem bytes_of_words (left right : Nat → UInt8) (leftPlace rightPlace count : Nat)
    (agree : ∀ i, i < count →
      loadWord left (leftPlace + 4 * i) = loadWord right (rightPlace + 4 * i))
    (index : Nat) (inside : index < 4 * count) :
    left (leftPlace + index) = right (rightPlace + index) := by
  obtain ⟨fourth, third, second, first⟩ :=
    word_injective _ _ _ _ _ _ _ _ (agree (index / 4) (by omega))
  have split : index = 4 * (index / 4) + index % 4 := (Nat.div_add_mod index 4).symm
  have small : index % 4 < 4 := Nat.mod_lt index (by decide)
  rw [split, ← Nat.add_assoc, ← Nat.add_assoc]
  generalize index % 4 = rest at small
  match rest, small with
  | 0, _ => exact first
  | 1, _ => exact second
  | 2, _ => exact third
  | 3, _ => exact fourth

theorem bytes_of_blocks (left right : Nat → UInt8) (leftPlace rightPlace count : Nat)
    (agree : ∀ i, i < count →
      loadWord left (leftPlace + 8 * i) = loadWord right (rightPlace + 8 * i) ∧
        loadWord left (leftPlace + 8 * i + 4) = loadWord right (rightPlace + 8 * i + 4))
    (index : Nat) (inside : index < 8 * count) :
    left (leftPlace + index) = right (rightPlace + index) := by
  apply bytes_of_words _ _ _ _ (2 * count) _ index (by omega)
  intro i within
  obtain ⟨lower, upper⟩ := agree (i / 2) (by omega)
  rcases Nat.mod_two_eq_zero_or_one i with even | odd
  · rw [show 4 * i = 8 * (i / 2) by omega]
    exact lower
  · rw [show 4 * i = 8 * (i / 2) + 4 by omega, ← Nat.add_assoc, ← Nat.add_assoc]
    exact upper

theorem storeWord_inside (cells : Nat → UInt8) (position : Nat) (value : UInt32) (index : Nat)
    (inside : index < 4) :
    storeWord cells position value (position + index) =
      [value.toUInt8, (value >>> 8).toUInt8, (value >>> 16).toUInt8,
        (value >>> 24).toUInt8][index] :=
  store_inside cells position index
    [value.toUInt8, (value >>> 8).toUInt8, (value >>> 16).toUInt8, (value >>> 24).toUInt8] inside

theorem loadWord_storeWord (cells : Nat → UInt8) (position : Nat) (value : UInt32) :
    loadWord (storeWord cells position value) position = value := by
  have shifted : ∀ count : UInt32, count.toNat < 32 →
      (value >>> count).toUInt8 = (value.toNat / 2 ^ count.toNat).toUInt8 := by
    intro count small
    apply UInt8.toNat_inj.mp
    rw [UInt32.toNat_toUInt8, UInt32.toNat_shiftRight, Nat.mod_eq_of_lt small,
      Nat.shiftRight_eq_div_pow]
    rfl
  have cell := storeWord_inside cells position value
  have first := cell 0 (by decide)
  rw [Nat.add_zero] at first
  unfold loadWord
  rw [cell 3 (by decide), cell 2 (by decide), cell 1 (by decide), first]
  change word (value >>> 24).toUInt8 (value >>> 16).toUInt8 (value >>> 8).toUInt8
    value.toUInt8 = value
  rw [shifted 24 (by decide), shifted 16 (by decide), shifted 8 (by decide)]
  exact word_bytes value

theorem storeWord_outside (cells : Nat → UInt8) (position target : Nat) (value : UInt32)
    (outside : target < position ∨ position + 4 ≤ target) :
    storeWord cells position value target = cells target := by
  rcases outside with before | behind
  · exact store_below cells position target _ before
  · exact store_above cells position target _ behind

theorem loadWord_storeWord_apart (cells : Nat → UInt8) (position target : Nat)
    (value : UInt32) (apart : target + 4 ≤ position ∨ position + 4 ≤ target) :
    loadWord (storeWord cells position value) target = loadWord cells target := by
  apply loadWord_congr
  intro offset small
  exact storeWord_outside cells position (target + offset) value (by omega)

def blockwise (change : UInt32 → UInt32 → UInt32 × UInt32) (cells : Nat → UInt8)
    (buf count : Nat) : Nat → UInt8 :=
  (List.range count).foldl (fun cells i =>
    let block := change (loadWord cells (buf + 8 * i)) (loadWord cells (buf + 8 * i + 4))
    storeWord (storeWord cells (buf + 8 * i) block.1) (buf + 8 * i + 4) block.2) cells

section Blocks

variable (change : UInt32 → UInt32 → UInt32 × UInt32) (cells : Nat → UInt8) (buf : Nat)

theorem blockwise_succ (count : Nat) :
    blockwise change cells buf (count + 1) =
      let before := blockwise change cells buf count
      let block := change (loadWord before (buf + 8 * count))
        (loadWord before (buf + 8 * count + 4))
      storeWord (storeWord before (buf + 8 * count) block.1) (buf + 8 * count + 4) block.2 := by
  unfold blockwise
  rw [List.range_succ, List.foldl_append]
  rfl

theorem blockwise_outside (count position : Nat)
    (outside : position < buf ∨ buf + 8 * count ≤ position) :
    blockwise change cells buf count position = cells position := by
  induction count with
  | zero => rfl
  | succ count ih =>
      rw [blockwise_succ]
      simp only
      rw [storeWord_outside _ _ _ _ (by omega), storeWord_outside _ _ _ _ (by omega)]
      exact ih (by omega)

theorem blockwise_untouched (count i : Nat) (behind : count ≤ i) :
    loadWord (blockwise change cells buf count) (buf + 8 * i) = loadWord cells (buf + 8 * i) ∧
      loadWord (blockwise change cells buf count) (buf + 8 * i + 4) =
        loadWord cells (buf + 8 * i + 4) := by
  constructor
  · apply loadWord_congr
    intro offset _small
    exact blockwise_outside change cells buf count _ (by omega)
  · apply loadWord_congr
    intro offset _small
    exact blockwise_outside change cells buf count _ (by omega)

/-- Each block is changed once, from what it held before the loop. -/
theorem blockwise_block (count i : Nat) (inside : i < count) :
    (loadWord (blockwise change cells buf count) (buf + 8 * i),
        loadWord (blockwise change cells buf count) (buf + 8 * i + 4)) =
      change (loadWord cells (buf + 8 * i)) (loadWord cells (buf + 8 * i + 4)) := by
  induction count with
  | zero => omega
  | succ count ih =>
      rw [blockwise_succ]
      simp only
      by_cases last : i = count
      · subst last
        obtain ⟨lower, upper⟩ := blockwise_untouched change cells buf i i (Nat.le_refl i)
        rw [lower, upper, loadWord_storeWord, loadWord_storeWord_apart _ _ _ _ (by omega),
          loadWord_storeWord]
      · rw [loadWord_storeWord_apart _ _ _ _ (by omega),
          loadWord_storeWord_apart _ _ _ _ (by omega),
          loadWord_storeWord_apart _ _ _ _ (by omega),
          loadWord_storeWord_apart _ _ _ _ (by omega)]
        exact ih (by omega)

end Blocks

/-- A change of blocks is undone by its inverse, wherever the bytes arrive. -/
theorem blockwise_inverse (change back : UInt32 → UInt32 → UInt32 × UInt32)
    (inverse : ∀ xl xr, back (change xl xr).1 (change xl xr).2 = (xl, xr))
    (cells received : Nat → UInt8) (buf place count : Nat)
    (arrived : ∀ index, index < 8 * count →
      received (place + index) = blockwise change cells buf count (buf + index))
    (index : Nat) (inside : index < 8 * count) :
    blockwise back received place count (place + index) = cells (buf + index) := by
  apply bytes_of_blocks _ _ _ _ count _ index inside
  intro i within
  have came : ∀ offset, offset + 4 ≤ 8 →
      loadWord received (place + 8 * i + offset) =
        loadWord (blockwise change cells buf count) (buf + 8 * i + offset) := by
    intro offset small
    apply loadWord_congr
    intro byte _
    rw [Nat.add_assoc place, Nat.add_assoc place, Nat.add_assoc buf, Nat.add_assoc buf]
    exact arrived _ (by omega)
  have sent := blockwise_block change cells buf count i within
  have read := blockwise_block back received place count i within
  have lower := came 0 (by decide)
  rw [Nat.add_zero, Nat.add_zero] at lower
  have sentLower : loadWord (blockwise change cells buf count) (buf + 8 * i) = _ :=
    congrArg Prod.fst sent
  have sentUpper : loadWord (blockwise change cells buf count) (buf + 8 * i + 4) = _ :=
    congrArg Prod.snd sent
  rw [lower, came 4 (by decide), sentLower, sentUpper, inverse] at read
  exact ⟨congrArg Prod.fst read, congrArg Prod.snd read⟩

theorem blockwise_congr (change : UInt32 → UInt32 → UInt32 × UInt32) (left right : Nat → UInt8)
    (buf count : Nat)
    (agree : ∀ index, index < 8 * count → left (buf + index) = right (buf + index))
    (index : Nat) (inside : index < 8 * count) :
    blockwise change left buf count (buf + index) =
      blockwise change right buf count (buf + index) := by
  apply bytes_of_blocks _ _ _ _ count _ index inside
  intro i within
  have same : ∀ offset, offset + 4 ≤ 8 →
      loadWord left (buf + 8 * i + offset) = loadWord right (buf + 8 * i + offset) := by
    intro offset small
    apply loadWord_congr
    intro byte _
    rw [Nat.add_assoc buf, Nat.add_assoc buf]
    exact agree _ (by omega)
  have blocks : (_, _) = (_, _) :=
    (blockwise_block change left buf count i within).trans
      ((congrArg₂ change (same 0 (by decide)) (same 4 (by decide))).trans
        (blockwise_block change right buf count i within).symm)
  exact ⟨congrArg Prod.fst blocks, congrArg Prod.snd blocks⟩

def wordSum (cells : Nat → UInt8) (buf count : Nat) : UInt32 :=
  (List.range count).foldl (fun sum i => sum ^^^ loadWord cells (buf + 4 * i)) 0

theorem wordSum_congr (left right : Nat → UInt8) (leftPlace rightPlace count : Nat)
    (agree : ∀ index, index < 4 * count → left (leftPlace + index) = right (rightPlace + index)) :
    wordSum left leftPlace count = wordSum right rightPlace count := by
  apply List.foldl_ext
  intro sum i member
  have inside := List.mem_range.mp member
  rw [loadWord_congr left right (leftPlace + 4 * i) (rightPlace + 4 * i)]
  intro offset small
  rw [Nat.add_assoc, Nat.add_assoc]
  exact agree _ (by omega)

/-- The bytes that are encrypted: the packet filled up to whole blocks, and the
sum behind it. -/
def summed (cells : Nat → UInt8) (buf len : Nat) : Nat → UInt8 :=
  let padded := (len + 7) / 8 * 8
  storeWord cells (buf + padded)
    ((List.range (padded / 4)).foldl (fun sum i => sum ^^^ loadWord cells (buf + 4 * i)) 0)

theorem blowFishEncryptPacket_eq (matrix : BlowfishMatrix) (cells : Nat → UInt8)
    (buf len : Nat) :
    blowFishEncryptPacket matrix cells buf len =
      (blockwise matrix.encipher (summed cells buf len) buf ((len + 7) / 8 + 1),
        (len + 7) / 8 * 8 + 8) := by
  have blocks : ((len + 7) / 8 * 8 + 8) / 8 = (len + 7) / 8 + 1 := by omega
  rw [← blocks]
  rfl

theorem blowFishDecryptPacket_eq (matrix : BlowfishMatrix) (cells : Nat → UInt8)
    (buf count : Nat) :
    blowFishDecryptPacket matrix cells buf (count * 8 + 8) =
      (blockwise matrix.decipher cells buf (count + 1),
        loadWord (blockwise matrix.decipher cells buf (count + 1)) (buf + count * 8) ==
          wordSum (blockwise matrix.decipher cells buf (count + 1)) buf (count * 8 / 4)) := by
  have whole : (count * 8 + 8) % 8 = 0 := by omega
  have blocks : (count * 8 + 8) / 8 = count + 1 := by omega
  have words : (count * 8 + 8 - 8) / 4 = count * 8 / 4 := by omega
  have behind : 4 * (count * 8 / 4) = count * 8 := by omega
  have decrypted : blowfishDecrypt matrix cells buf (count * 8 + 8) =
      blockwise matrix.decipher cells buf (count + 1) := by
    unfold blowfishDecrypt
    rw [blocks]
    rfl
  unfold blowFishDecryptPacket
  rw [if_pos whole, decrypted, words]
  simp only
  rw [behind]
  rfl

theorem summed_body (cells : Nat → UInt8) (buf len index : Nat)
    (inside : index < (len + 7) / 8 * 8) : summed cells buf len (buf + index) = cells (buf + index) :=
  storeWord_outside cells _ _ _ (Or.inl (by omega))

theorem summed_sum (cells : Nat → UInt8) (buf len : Nat) :
    loadWord (summed cells buf len) (buf + (len + 7) / 8 * 8) =
      wordSum cells buf ((len + 7) / 8 * 8 / 4) :=
  loadWord_storeWord cells _ _

/-- A packet that arrives as it was sent passes the test and is what it was. -/
theorem packet_restored (matrix : BlowfishMatrix) (cells received : Nat → UInt8)
    (buf place len : Nat)
    (arrived : slice received place ((len + 7) / 8 * 8 + 8) =
      slice (blowFishEncryptPacket matrix cells buf len).1 buf ((len + 7) / 8 * 8 + 8)) :
    let read := blowFishDecryptPacket matrix received place ((len + 7) / 8 * 8 + 8)
    read.2 = true ∧ slice read.1 place len = slice cells buf len := by
  rw [blowFishEncryptPacket_eq] at arrived
  rw [blowFishDecryptPacket_eq]
  simp only at arrived ⊢
  have same := (slice_eq_iff _ _ _ _ _).mp arrived
  have restored := blockwise_inverse matrix.encipher matrix.decipher matrix.decipher_encipher
    (summed cells buf len) received buf place ((len + 7) / 8 + 1)
    (fun index inside => same index (by omega))
  generalize blockwise matrix.decipher _ place ((len + 7) / 8 + 1) = read at restored ⊢
  have body : ∀ index, index < (len + 7) / 8 * 8 →
      read (place + index) = cells (buf + index) := by
    intro index inside
    rw [restored index (by omega)]
    exact summed_body cells buf len index inside
  constructor
  · have sums : wordSum read place ((len + 7) / 8 * 8 / 4) =
        wordSum cells buf ((len + 7) / 8 * 8 / 4) := by
      apply wordSum_congr
      intro index inside
      exact body index (by omega)
    have behind : loadWord read (place + (len + 7) / 8 * 8) =
        loadWord (summed cells buf len) (buf + (len + 7) / 8 * 8) := by
      apply loadWord_congr
      intro offset small
      rw [Nat.add_assoc, Nat.add_assoc]
      exact restored _ (by omega)
    rw [sums, behind, beq_iff_eq]
    exact summed_sum cells buf len
  · apply (slice_eq_iff _ _ _ _ _).mpr
    intro index inside
    exact body index (by omega)

/-- The packet comes back with the answer that its sum is right, whatever the
tables, and whatever lay behind it. -/
theorem blowFishDecryptPacket_encrypt (matrix : BlowfishMatrix) (cells recycled : Nat → UInt8)
    (buf place len : Nat) :
    let sent := blowFishEncryptPacket matrix cells buf len
    let read := blowFishDecryptPacket matrix
      (store recycled place (slice sent.1 buf sent.2)) place sent.2
    read.2 = true ∧ slice read.1 place len = slice cells buf len := by
  have length : (blowFishEncryptPacket matrix cells buf len).2 = (len + 7) / 8 * 8 + 8 := by
    rw [blowFishEncryptPacket_eq]
  simp only [length]
  exact packet_restored matrix cells _ buf place len (slice_store_slice _ _ _ _ _)

end AuthServer
