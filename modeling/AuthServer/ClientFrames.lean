/-
What a client receives from `SendSocketEx`.

The constructor of a connection sets the two cipher pointers together, from the
protocol version.  A frame is sealed when it stays inside its buffer, is queued
as a whole and comes back through the paired `DecPacket`.  The second part
compares two sends that differ only in what the recycled buffer held before.
-/

import AuthServer.PacketDeciphers
import AuthServer.Senders

set_option autoImplicit false

namespace AuthServer

open LinearMemory

inductive DecPacketType where
  | decrypt
  | blowFishDecryptPacket
  deriving DecidableEq, Repr

def CSocketServerEx.decPacketFor (protocolVer : Int) : Option DecPacketType :=
  if protocolVer = usaAuthProtocolVersion then some .decrypt
  else if protocolVer ≥ globalAuthProtocolVersion then some .blowFishDecryptPacket
  else none

def DecPacketType.apply (config : CipherConfig) (decPacket : DecPacketType)
    (cells : Nat → UInt8) (buf : Nat) (key : UInt64) (len : Nat) : (Nat → UInt8) × Bool :=
  match decPacket with
  | .decrypt =>
      let decrypted := AuthServer.decrypt config.encrypt cells buf key len
      (decrypted.1, decrypted.2.2)
  | .blowFishDecryptPacket => AuthServer.blowFishDecryptPacket config.matrix cells buf len

/-- The `DecPacket` that the constructor sets beside an `EncPacket`. -/
def EncPacketType.pair : EncPacketType → DecPacketType
  | .encrypt => .decrypt
  | .blowFishEncryptPacket => .blowFishDecryptPacket

theorem CSocketServerEx.decPacketFor_pair (protocolVer : Int) :
    CSocketServerEx.decPacketFor protocolVer =
      (CSocketServerEx.encPacketFor protocolVer).map EncPacketType.pair := by
  unfold CSocketServerEx.decPacketFor CSocketServerEx.encPacketFor
  split
  · rfl
  · split
    · rfl
    · rfl

/-! ### Both ciphers -/

theorem encrypt_outside (enabled : Bool) (cells : Nat → UInt8) (buf : Nat) (key : UInt64)
    (length position : Nat) (filled : 0 < length)
    (outside : position < buf ∨ buf + length ≤ position) :
    (encrypt enabled cells buf key length).1 position = cells position := by
  unfold encrypt
  split
  · simp only
    rw [encryptLoop_outside _ _ _ _ _ _ (by omega)]
    rcases outside with before | behind
    · exact store_below cells buf position _ before
    · exact store_above cells buf position _ (by simp only [List.length_singleton]; omega)
  · rfl

theorem blowFishEncryptPacket_outside (matrix : BlowfishMatrix) (cells : Nat → UInt8)
    (buf len position : Nat)
    (outside : position < buf ∨ buf + ((len + 7) / 8 * 8 + 8) ≤ position) :
    (blowFishEncryptPacket matrix cells buf len).1 position = cells position := by
  rw [blowFishEncryptPacket_eq]
  simp only
  rw [blockwise_outside _ _ _ _ _ (by omega)]
  exact storeWord_outside cells _ _ _ (by omega)

theorem EncPacketType.apply_outside (config : CipherConfig) (encPacket : EncPacketType)
    (cells : Nat → UInt8) (buf : Nat) (key : UInt64) (len position : Nat) (filled : 0 < len)
    (outside : position < buf ∨ buf + encPacket.length len ≤ position) :
    (encPacket.apply config cells buf key len).1 position = cells position := by
  cases encPacket with
  | encrypt => exact encrypt_outside config.encrypt cells buf key len position filled outside
  | blowFishEncryptPacket =>
      exact blowFishEncryptPacket_outside config.matrix cells buf len position outside

/-- Whatever the cipher, the paired one gives the packet back where it arrives. -/
theorem EncPacketType.apply_pair (config : CipherConfig) (encPacket : EncPacketType)
    (cells received : Nat → UInt8) (buf place : Nat) (key : UInt64) (len : Nat)
    (arrived : slice received place (encPacket.length len) =
      slice (encPacket.apply config cells buf key len).1 buf (encPacket.length len)) :
    let read := encPacket.pair.apply config received place key (encPacket.length len)
    read.2 = true ∧ slice read.1 place len = slice cells buf len := by
  cases encPacket with
  | encrypt =>
      simp only [EncPacketType.apply, EncPacketType.pair, DecPacketType.apply,
        EncPacketType.length] at arrived ⊢
      cases enabled : config.encrypt with
      | false =>
          rw [enabled] at arrived
          exact ⟨rfl, arrived⟩
      | true =>
          rw [enabled] at arrived
          exact ⟨rfl, decrypt_encrypt cells received buf place key len arrived⟩
  | blowFishEncryptPacket =>
      exact packet_restored config.matrix cells received buf place len arrived

/-! ### One frame -/

def enciphered (config : CipherConfig) (encPacket : EncPacketType) (client : ClientLink)
    (input : SendInput) (bytes : List UInt8) : (Nat → UInt8) × UInt64 × Nat :=
  encPacket.apply config (store input.recycled 2 bytes) 2 client.encOneTimeKey bytes.length

/-- A frame of the packet `bytes`, sent with one cipher and opened with another. -/
structure SealedFrame (config : CipherConfig) (encPacket : EncPacketType)
    (decPacket : DecPacketType) (client after : ClientLink) (input : SendInput)
    (bytes : List UInt8) (low high : UInt8) (body : List UInt8) : Prop where
  queued : after.outgoing.output.bytes =
    client.outgoing.output.bytes ++ low :: high :: body
  length : (low.toNat : Int) + 256 * high.toNat = body.length - 1 + packetSizeType
  selected : body = slice (enciphered config encPacket client input bytes).1 2
    (enciphered config encPacket client input bytes).2.2
  confined : ∀ position, bufferSize ≤ position →
    storeLength (enciphered config encPacket client input bytes).1
      ((body.length : Int) - 1 + packetSizeType) position = input.recycled position
  opened : ∀ (received : Nat → UInt8) (place : Nat),
    let read := decPacket.apply config (store received place body) place client.encOneTimeKey
      body.length
    read.2 = true ∧ slice read.1 place bytes.length = bytes

/-- A cipher is selected, and `SendSocketEx` queues a sealed frame. -/
def Sealed (config : CipherConfig) (protocolVer : Int) (client : ClientLink)
    (input : SendInput) (bytes : List UInt8) : Prop :=
  ∃ encPacket decPacket after low high body,
    CSocketServerEx.encPacketFor protocolVer = some encPacket ∧
      CSocketServerEx.decPacketFor protocolVer = some decPacket ∧
        sendSocketEx config (some client) input = some (true, some after) ∧
          SealedFrame config encPacket decPacket client after input bytes low high body

/-- For which versions and packets there is a cipher and room for what it makes. -/
def Sealable (protocolVer : Int) (size : Nat) : Prop :=
  protocolVer = usaAuthProtocolVersion ∨ (protocolVer ≥ globalAuthProtocolVersion ∧ size ≤ 20464)

theorem assembled_accepted (input : SendInput) (bytes : List UInt8)
    (encoded : encoding input.format input.args = some bytes) (room : bytes.length ≤ 20478) :
    input.assembled = some (store input.recycled 2 bytes, bytes.length) := by
  have all := (fitted_spec (bufferSize - 2) input.format input.args bytes encoded).2.2 room
  rw [SendInput.assembled, assemble_fitted _ _ _ _ _ bytes encoded, all,
    if_pos (show bytes.length ≤ bufferSize - 2 from room)]

theorem sealedFrame_of_fits (config : CipherConfig) (encPacket : EncPacketType)
    (client : ClientLink) (input : SendInput) (bytes : List UInt8)
    (selected : client.encPacket = some encPacket)
    (encoded : encoding input.format input.args = some bytes) (filled : 0 < bytes.length)
    (room : bytes.length ≤ 20478) (fits : encPacket.length bytes.length + 2 ≤ bufferSize) :
    ∃ after low high body, sendSocketEx config (some client) input = some (true, some after) ∧
      SealedFrame config encPacket encPacket.pair client after input bytes low high body := by
  have assembled := assembled_accepted input bytes encoded room
  have nonzero : bytes.length ≠ 0 := by omega
  have made : encPacket.length bytes.length =
      encPacket.length (if bytes.length = 0 then 1 else bytes.length) := by
    rw [if_neg nonzero]
  obtain ⟨after, sent, _, frame⟩ := sendSocketEx_frame config client input _ _ assembled encPacket
    selected _ made fits
  rw [if_neg nonzero] at sent frame
  have length := EncPacketType.apply_length config encPacket (store input.recycled 2 bytes) 2
    client.encOneTimeKey bytes.length
  refine ⟨_, _, _, _, sent, frame, ?_, ?_, ?_, ?_⟩
  · have value := lengthBytes_value (encPacket.length bytes.length + 2)
      (by unfold bufferSize at fits; omega)
    rw [slice_length]
    unfold packetSizeType
    change ((UInt8.ofInt ((encPacket.length bytes.length + 2 : Nat) : Int)).toNat : Int) +
      256 * (UInt8.ofInt (((encPacket.length bytes.length + 2 : Nat) : Int) >>> (8 : Nat))).toNat = _
    omega
  · unfold enciphered
    rw [length]
  · intro position behind
    have inside : bytes.length + 2 ≤ position := by
      unfold bufferSize at behind
      omega
    have two : 0 + 2 ≤ position := by omega
    unfold storeLength enciphered
    rw [store_above _ _ _ _ two, EncPacketType.apply_outside _ _ _ _ _ _ _ filled (by omega),
      store_above _ _ _ _ (by omega)]
  · intro received place
    rw [slice_length]
    have opened := EncPacketType.apply_pair config encPacket (store input.recycled 2 bytes)
      (store received place (slice (encPacket.apply config (store input.recycled 2 bytes) 2
        client.encOneTimeKey bytes.length).1 2 (encPacket.length bytes.length)))
      2 place client.encOneTimeKey bytes.length (slice_store_slice _ _ _ _ _)
    rw [slice_store_same] at opened
    exact opened

/-- With a cipher selected a frame is sealed when it stays inside the buffer. -/
theorem sealed_iff_fits (config : CipherConfig) (protocolVer : Int) (encPacket : EncPacketType)
    (client : ClientLink) (input : SendInput) (bytes : List UInt8)
    (constructed : client.encPacket = some encPacket)
    (selected : CSocketServerEx.encPacketFor protocolVer = some encPacket)
    (encoded : encoding input.format input.args = some bytes)
    (accepted : 0 < bytes.length ∧ bytes.length ≤ 20478) :
    Sealed config protocolVer client input bytes ↔
      encPacket.length bytes.length + 2 ≤ bufferSize := by
  have assembled := assembled_accepted input bytes encoded accepted.2
  have nonzero : bytes.length ≠ 0 := by omega
  have paired := CSocketServerEx.decPacketFor_pair protocolVer
  rw [selected] at paired
  constructor
  · intro given
    obtain ⟨_, _, _, _, _, _, _, _, sent, _⟩ := given
    apply Nat.le_of_not_lt
    intro beyond
    rw [sendSocketEx_beyond config client input _ _ assembled encPacket constructed
      (by rw [if_neg nonzero]; omega)] at sent
    contradiction
  · intro fits
    obtain ⟨after, low, high, body, sent, frame⟩ := sealedFrame_of_fits config encPacket
      client input bytes constructed encoded accepted.1 accepted.2 fits
    exact ⟨encPacket, _, after, low, high, body, selected, paired, sent, frame⟩

theorem fits_iff_sealable (protocolVer : Int) (encPacket : EncPacketType) (size : Nat)
    (selected : CSocketServerEx.encPacketFor protocolVer = some encPacket) (small : size ≤ 20478) :
    encPacket.length size + 2 ≤ bufferSize ↔ Sealable protocolVer size := by
  unfold Sealable
  unfold CSocketServerEx.encPacketFor at selected
  split at selected
  · rename_i usa
    cases selected
    have fits : EncPacketType.encrypt.length size + 2 ≤ bufferSize := by
      simp only [EncPacketType.length, bufferSize]
      omega
    exact iff_of_true fits (Or.inl usa)
  · rename_i other
    split at selected
    · rename_i global
      cases selected
      simp only [EncPacketType.length, bufferSize]
      constructor
      · intro fits
        exact Or.inr ⟨global, by omega⟩
      · intro sealable
        rcases sealable with usa | ⟨_, small⟩
        · exact absurd usa other
        · omega
    · contradiction

/-- A frame is sealed exactly when the version has a cipher and the packet
leaves room for what the cipher adds. -/
theorem sealed_iff (config : CipherConfig) (protocolVer : Int) (client : ClientLink)
    (input : SendInput) (bytes : List UInt8)
    (constructed : client.encPacket = CSocketServerEx.encPacketFor protocolVer)
    (encoded : encoding input.format input.args = some bytes)
    (accepted : 0 < bytes.length ∧ bytes.length ≤ 20478) :
    Sealed config protocolVer client input bytes ↔ Sealable protocolVer bytes.length := by
  cases selected : CSocketServerEx.encPacketFor protocolVer with
  | none =>
      have gap := (CSocketServerEx.encPacketFor_eq_none_iff protocolVer).mp selected
      constructor
      · intro given
        obtain ⟨encPacket, _, _, _, _, _, found, _⟩ := given
        rw [selected] at found
        contradiction
      · intro sealable
        rcases sealable with usa | ⟨global, _⟩
        · exact absurd usa gap.1
        · exact absurd gap.2 (Int.not_lt.mpr global)
  | some encPacket =>
      rw [selected] at constructed
      exact (sealed_iff_fits config protocolVer encPacket client input bytes constructed selected
        encoded accepted).trans
          (fits_iff_sealable protocolVer encPacket bytes.length selected accepted.2)

def blankMatrix : BlowfishMatrix := ⟨fun _ _ => 0, fun _ => 0⟩

def globalClient : ClientLink :=
  ⟨.readLen, .preLogin, 0, some .blowFishEncryptPacket, 0, ⟨OutputQueue.empty, []⟩⟩

/-- A reply of one byte to such a client. -/
theorem small_frame_sealed :
    Sealed ⟨true, blankMatrix⟩ 30810 globalClient ⟨0, fun _ => 0, ['c'], [.int 15]⟩ [15] :=
  (sealed_iff ⟨true, blankMatrix⟩ 30810 globalClient _ [15] rfl rfl (by decide)).mpr
    (Or.inr ⟨by decide, by decide⟩)

/-- For the version used in Asia no cipher is selected. -/
theorem asia_frame_unsealed :
    ¬ ∀ (config : CipherConfig) (protocolVer : Int) (client : ClientLink) (input : SendInput)
      (bytes : List UInt8), client.encPacket = CSocketServerEx.encPacketFor protocolVer →
        encoding input.format input.args = some bytes →
          0 < bytes.length ∧ bytes.length ≤ 20478 →
            Sealed config protocolVer client input bytes := by
  intro claimed
  obtain ⟨encPacket, _, _, _, _, _, selected, _⟩ := claimed ⟨true, blankMatrix⟩ 30207
    { globalClient with encPacket := none } ⟨0, fun _ => 0, ['c'], [.int 15]⟩ [15] rfl rfl
    (by decide)
  have unset : CSocketServerEx.encPacketFor 30207 = none := by decide
  rw [unset] at selected
  contradiction

/-! ### Two frames of one packet -/

/-- Encrypted packets are equal exactly when all that was encrypted is: the
packet with its padding, and the word behind the sum. -/
theorem encrypted_eq_iff (matrix : BlowfishMatrix) (left right : Nat → UInt8) (buf len : Nat) :
    slice (blowFishEncryptPacket matrix left buf len).1 buf ((len + 7) / 8 * 8 + 8) =
        slice (blowFishEncryptPacket matrix right buf len).1 buf ((len + 7) / 8 * 8 + 8) ↔
      ∀ index, index < (len + 7) / 8 * 8 ∨
        ((len + 7) / 8 * 8 + 4 ≤ index ∧ index < (len + 7) / 8 * 8 + 8) →
          left (buf + index) = right (buf + index) := by
  rw [blowFishEncryptPacket_eq, blowFishEncryptPacket_eq, slice_eq_iff]
  simp only
  constructor
  · intro same index inside
    have fromLeft := blockwise_inverse matrix.encipher matrix.decipher matrix.decipher_encipher
      (summed left buf len) _ buf buf ((len + 7) / 8 + 1)
      (fun index inside => (same index (by omega)).symm) index (by omega)
    have fromRight := blockwise_inverse matrix.encipher matrix.decipher matrix.decipher_encipher
      (summed right buf len) _ buf buf ((len + 7) / 8 + 1)
      (fun _ _ => rfl) index (by omega)
    have equal := fromLeft.symm.trans fromRight
    unfold summed at equal
    rw [storeWord_outside _ _ _ _ (by omega), storeWord_outside _ _ _ _ (by omega)] at equal
    exact equal
  · intro agree index inside
    have sums : wordSum left buf ((len + 7) / 8 * 8 / 4) =
        wordSum right buf ((len + 7) / 8 * 8 / 4) := by
      apply wordSum_congr
      intro index within
      exact agree index (Or.inl (by omega))
    apply blockwise_congr _ _ _ _ _ _ index (by omega)
    intro index within
    by_cases sum : (len + 7) / 8 * 8 ≤ index ∧ index < (len + 7) / 8 * 8 + 4
    · have place : buf + index =
          buf + (len + 7) / 8 * 8 + (index - (len + 7) / 8 * 8) := by omega
      rw [place]
      unfold summed
      change storeWord left _ (wordSum left buf _) _ = storeWord right _ (wordSum right buf _) _
      rw [sums]
      rw [storeWord_inside _ _ _ _ (by omega), storeWord_inside _ _ _ _ (by omega)]
    · unfold summed
      rw [storeWord_outside _ _ _ _ (by omega), storeWord_outside _ _ _ _ (by omega)]
      exact agree index (by omega)

def Queues (config : CipherConfig) (client : ClientLink) (input : SendInput)
    (frame : List UInt8) : Prop :=
  ∃ after, sendSocketEx config (some client) input = some (true, some after) ∧
    after.outgoing.output.bytes = client.outgoing.output.bytes ++ frame

def passedOn (size : Nat) : Nat := if 0 < size ∧ size ≤ 20478 then size else 1

/-- What is encrypted without having been written: the rest of the packet and of
its padding, and the second word of the trailer. -/
def Stale (written size position : Nat) : Prop :=
  2 + written ≤ position ∧ (position < 2 + (size + 7) / 8 * 8 ∨
    (2 + (size + 7) / 8 * 8 + 4 ≤ position ∧ position < 2 + (size + 7) / 8 * 8 + 8))

section TwoRuns

variable (config : CipherConfig) (client : ClientLink) (format : List Char) (args : List Arg)
  (bytes : List UInt8) (selected : client.encPacket = some .blowFishEncryptPacket)
  (encoded : encoding format args = some bytes)

include encoded in
theorem assembled_passedOn (object : Nat) (recycled : Nat → UInt8) :
    ∃ len, SendInput.assembled ⟨object, recycled, format, args⟩ =
        some (store recycled 2 (fitted 20478 format args), len) ∧
      (if len = 0 then 1 else len) = passedOn bytes.length := by
  refine ⟨_, assemble_fitted _ _ _ _ _ bytes encoded, ?_⟩
  change (if (if bytes.length ≤ 20478 then bytes.length else 0) = 0 then 1
    else if bytes.length ≤ 20478 then bytes.length else 0) = _
  unfold passedOn
  by_cases room : bytes.length ≤ 20478
  · by_cases empty : bytes.length = 0
    · rw [if_pos room, if_pos empty, if_neg (by omega)]
    · rw [if_pos room, if_neg empty, if_pos ⟨by omega, room⟩]
  · rw [if_neg room, if_pos rfl, if_neg (by omega)]

include selected encoded in
theorem queues_iff (object : Nat) (recycled : Nat → UInt8) (frame : List UInt8) :
    Queues config client ⟨object, recycled, format, args⟩ frame ↔
      passedOn bytes.length ≤ 20464 ∧
        ∃ count : Nat, count = (passedOn bytes.length + 7) / 8 * 8 + 8 ∧
          frame = UInt8.ofInt ((count : Int) + 2) ::
            UInt8.ofInt (((count : Int) + 2) >>> (8 : Nat)) ::
              slice (blowFishEncryptPacket config.matrix
                (store recycled 2 (fitted 20478 format args)) 2 (passedOn bytes.length)).1 2
                count := by
  obtain ⟨len, assembled, passed⟩ := assembled_passedOn format args bytes encoded object recycled
  have made : EncPacketType.length .blowFishEncryptPacket (if len = 0 then 1 else len) =
      (passedOn bytes.length + 7) / 8 * 8 + 8 := by
    rw [passed]
    rfl
  by_cases room : passedOn bytes.length ≤ 20464
  · obtain ⟨after, sent, _, queued⟩ := sendSocketEx_frame config client _ _ len assembled _
      selected _ made.symm (by unfold bufferSize; omega)
    rw [passed] at queued
    constructor
    · intro given
      obtain ⟨other, sentOther, bytesOther⟩ := given
      rw [sent, Option.some.injEq, Prod.mk.injEq, Option.some.injEq] at sentOther
      rw [← sentOther.2, queued] at bytesOther
      exact ⟨room, _, rfl, (List.append_cancel_left bytesOther).symm⟩
    · intro given
      obtain ⟨_, count, rfl, rfl⟩ := given
      exact ⟨_, sent, queued⟩
  · constructor
    · intro given
      obtain ⟨after, sent, _⟩ := given
      rw [sendSocketEx_beyond config client _ _ len assembled _ selected
        (by rw [made]; unfold bufferSize; omega)] at sent
      contradiction
    · intro given
      exact absurd given.1 room

include selected encoded in
/-- Equal frames show that the memory that was not written was equal. -/
theorem stale_of_same_frame (first second : Nat) (left right : Nat → UInt8) (frame : List UInt8)
    (ofLeft : Queues config client ⟨first, left, format, args⟩ frame)
    (ofRight : Queues config client ⟨second, right, format, args⟩ frame) (position : Nat)
    (stale : Stale (fitted 20478 format args).length (passedOn bytes.length) position) :
    left position = right position := by
  have queuesLeft := queues_iff config client format args bytes selected encoded first left frame
  have queuesRight :=
    queues_iff config client format args bytes selected encoded second right frame
  obtain ⟨_, _, rfl, sameLeft⟩ := queuesLeft.mp ofLeft
  obtain ⟨_, _, rfl, sameRight⟩ := queuesRight.mp ofRight
  have equal := List.cons.inj (List.cons.inj (sameLeft.symm.trans sameRight)).2
  obtain ⟨behind, place⟩ := stale
  have agreed := (encrypted_eq_iff config.matrix _ _ 2 (passedOn bytes.length)).mp equal.2
    (position - 2) (by omega)
  have back : 2 + (position - 2) = position := by omega
  rw [back, store_above left 2 position _ behind, store_above right 2 position _ behind] at agreed
  exact agreed

include selected encoded in
/-- The two frames are the same exactly when there are frames and the memory
that was not written agrees. -/
theorem same_frame_iff (first second : Nat) (left right : Nat → UInt8) :
    (∃ frame, Queues config client ⟨first, left, format, args⟩ frame ∧
        Queues config client ⟨second, right, format, args⟩ frame) ↔
      passedOn bytes.length ≤ 20464 ∧ ∀ position,
        Stale (fitted 20478 format args).length (passedOn bytes.length) position →
          left position = right position := by
  have queuesLeft := queues_iff config client format args bytes selected encoded first left
  have queuesRight := queues_iff config client format args bytes selected encoded second right
  constructor
  · intro given
    obtain ⟨frame, ofLeft, ofRight⟩ := given
    exact ⟨((queuesLeft frame).mp ofLeft).1, stale_of_same_frame config client format args bytes
      selected encoded first second left right frame ofLeft ofRight⟩
  · intro given
    obtain ⟨room, agree⟩ := given
    refine ⟨_, (queuesLeft _).mpr ⟨room, _, rfl, rfl⟩, (queuesRight _).mpr ⟨room, _, rfl, ?_⟩⟩
    rw [(encrypted_eq_iff config.matrix _ _ 2 (passedOn bytes.length)).mpr]
    intro index place
    by_cases written : index < (fitted 20478 format args).length
    · rw [store_inside left 2 index _ written, store_inside right 2 index _ written]
    · rw [store_above left 2 _ _ (by omega), store_above right 2 _ _ (by omega)]
      exact agree (2 + index) ⟨by omega, by omega⟩

end TwoRuns

/-- One byte, sent from memory that held the same both times. -/
theorem equal_memory_same_frame :
    ∃ frame, Queues ⟨true, blankMatrix⟩ globalClient ⟨0, fun _ => 7, ['c'], [.int 15]⟩ frame ∧
      Queues ⟨true, blankMatrix⟩ globalClient ⟨1, fun _ => 7, ['c'], [.int 15]⟩ frame :=
  (same_frame_iff ⟨true, blankMatrix⟩ globalClient ['c'] [.int 15] [15] rfl rfl 0 1 _ _).mpr
    ⟨by decide, fun _ _ => rfl⟩

/-- One byte again, with one byte of the second trailer word different before. -/
theorem leftover_byte_sent :
    ¬ ∀ (config : CipherConfig) (client : ClientLink) (format : List Char) (args : List Arg)
      (bytes : List UInt8) (first second : Nat) (left right : Nat → UInt8),
      client.encPacket = some .blowFishEncryptPacket → encoding format args = some bytes →
        ∃ frame, Queues config client ⟨first, left, format, args⟩ frame ∧
          Queues config client ⟨second, right, format, args⟩ frame := by
  intro claimed
  let right : Nat → UInt8 := fun position => if position = 14 then 1 else 0
  obtain ⟨frame, ofLeft, ofRight⟩ := claimed ⟨true, blankMatrix⟩ globalClient ['c'] [.int 15]
    [15] 0 1 (fun _ => 0) right rfl rfl
  have written := (fitted_spec 20478 ['c'] [.int 15] [15] rfl).2.2 (by decide)
  have same := stale_of_same_frame ⟨true, blankMatrix⟩ globalClient ['c'] [.int 15] [15] rfl rfl
    0 1 (fun _ => 0) right frame ofLeft ofRight 14
    (by rw [written]; exact ⟨by decide, Or.inr ⟨by decide, by decide⟩⟩)
  exact absurd same (by decide)

end AuthServer
