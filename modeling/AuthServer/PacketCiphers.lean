/-
The two packet ciphers, on the memory they work in.

`EncPacket` of a connection is a function pointer that its constructor sets
from the protocol version; for other versions it is left unset.  The Blowfish
arrays are those the program has filled from its key.
-/

import AuthServer.IOBuffer
import AuthServer.InAddr

set_option autoImplicit false

namespace AuthServer

open LinearMemory

def usaAuthProtocolVersion : Int := 30206

def globalAuthProtocolVersion : Int := 30810

inductive EncPacketType where
  | encrypt
  | blowFishEncryptPacket
  deriving DecidableEq, Repr

def CSocketServerEx.encPacketFor (protocolVer : Int) : Option EncPacketType :=
  if protocolVer = usaAuthProtocolVersion then some .encrypt
  else if protocolVer ≥ globalAuthProtocolVersion then some .blowFishEncryptPacket
  else none

/-- Between the two ranges of versions the pointer stays unset. -/
theorem CSocketServerEx.encPacketFor_eq_none_iff (protocolVer : Int) :
    CSocketServerEx.encPacketFor protocolVer = none ↔
      protocolVer ≠ usaAuthProtocolVersion ∧ protocolVer < globalAuthProtocolVersion := by
  unfold CSocketServerEx.encPacketFor
  by_cases usa : protocolVer = usaAuthProtocolVersion
  · rw [if_pos usa]
    exact iff_of_false nofun fun unset => unset.1 usa
  · rw [if_neg usa]
    by_cases global : protocolVer ≥ globalAuthProtocolVersion
    · rw [if_pos global]
      exact iff_of_false nofun fun unset => absurd global (Int.not_le.mpr unset.2)
    · rw [if_neg global]
      exact iff_of_true rfl ⟨usa, Int.not_le.mp global⟩

def strKey (key : UInt64) (index : Nat) : UInt8 := (key >>> (8 * index).toUInt64).toUInt8

/-- `Encrypt` from `buf[1]` on; each byte takes up the encrypted one in front. -/
def encryptLoop (cells : Nat → UInt8) (buf : Nat) (key : UInt64) : Nat → Nat → Nat → UInt8
  | 0, _ => cells
  | turns + 1, i =>
      let byte := cells (buf + i) ^^^ cells (buf + i - 1) ^^^ strKey key (i % 8)
      encryptLoop (store cells (buf + i) [byte]) buf key turns (i + 1)

def encrypt (enabled : Bool) (cells : Nat → UInt8) (buf : Nat) (key : UInt64)
    (length : Nat) : (Nat → UInt8) × UInt64 :=
  if enabled then
    let first := store cells buf [cells buf ^^^ strKey key 0]
    (encryptLoop first buf key (length - 1) 1, key + length.toUInt64)
  else (cells, key)

instance neZero_subkeys : NeZero 18 := ⟨by decide⟩

structure BlowfishMatrix where
  s : Fin 4 → UInt8 → UInt32
  p : Fin 18 → UInt32

namespace BlowfishMatrix

def f (matrix : BlowfishMatrix) (x : UInt32) : UInt32 :=
  ((matrix.s 0 (x >>> 24).toUInt8 + matrix.s 1 (x >>> 16).toUInt8) ^^^
    matrix.s 2 (x >>> 8).toUInt8) + matrix.s 3 x.toUInt8

def twoRounds (matrix : BlowfishMatrix) (halves : UInt32 × UInt32) (turn : Fin 8) :
    UInt32 × UInt32 :=
  let xr := halves.2 ^^^ (matrix.f halves.1 ^^^ matrix.p ⟨2 * turn.val + 1, by omega⟩)
  let xl := halves.1 ^^^ (matrix.f xr ^^^ matrix.p ⟨2 * turn.val + 2, by omega⟩)
  (xl, xr)

def encipher (matrix : BlowfishMatrix) (xl xr : UInt32) : UInt32 × UInt32 :=
  let halves := (List.finRange 8).foldl matrix.twoRounds (xl ^^^ matrix.p 0, xr)
  (halves.2 ^^^ matrix.p 17, halves.1)

end BlowfishMatrix

def loadWord (cells : Nat → UInt8) (position : Nat) : UInt32 :=
  word (cells (position + 3)) (cells (position + 2)) (cells (position + 1)) (cells position)

def storeWord (cells : Nat → UInt8) (position : Nat) (value : UInt32) : Nat → UInt8 :=
  store cells position
    [value.toUInt8, (value >>> 8).toUInt8, (value >>> 16).toUInt8, (value >>> 24).toUInt8]

def blowfishEncrypt (matrix : BlowfishMatrix) (cells : Nat → UInt8) (buf length : Nat) :
    Nat → UInt8 :=
  (List.range (length / 8)).foldl (fun cells i =>
    let block := matrix.encipher (loadWord cells (buf + 8 * i)) (loadWord cells (buf + 8 * i + 4))
    storeWord (storeWord cells (buf + 8 * i) block.1) (buf + 8 * i + 4) block.2) cells

/-- The bytes up to a multiple of eight are summed by exclusive or, the sum is
put behind them, and eight bytes more are encrypted. -/
def blowFishEncryptPacket (matrix : BlowfishMatrix) (cells : Nat → UInt8) (buf len : Nat) :
    (Nat → UInt8) × Nat :=
  let len := (len + 7) / 8 * 8
  let checkSum := (List.range (len / 4)).foldl
    (fun sum i => sum ^^^ loadWord cells (buf + 4 * i)) 0
  let cells := storeWord cells (buf + len) checkSum
  (blowfishEncrypt matrix cells buf (len + 8), len + 8)

/-- What the ciphers read from outside the connection. -/
structure CipherConfig where
  encrypt : Bool
  matrix : BlowfishMatrix

def EncPacketType.apply (config : CipherConfig) (encPacket : EncPacketType)
    (cells : Nat → UInt8) (buf : Nat) (key : UInt64) (len : Nat) :
    (Nat → UInt8) × UInt64 × Nat :=
  match encPacket with
  | .encrypt =>
      let encrypted := AuthServer.encrypt config.encrypt cells buf key len
      (encrypted.1, encrypted.2, len)
  | .blowFishEncryptPacket =>
      let encrypted := AuthServer.blowFishEncryptPacket config.matrix cells buf len
      (encrypted.1, key, encrypted.2)

def EncPacketType.length : EncPacketType → Nat → Nat
  | .encrypt, len => len
  | .blowFishEncryptPacket, len => (len + 7) / 8 * 8 + 8

theorem EncPacketType.apply_length (config : CipherConfig) (encPacket : EncPacketType)
    (cells : Nat → UInt8) (buf : Nat) (key : UInt64) (len : Nat) :
    (encPacket.apply config cells buf key len).2.2 = encPacket.length len := by
  cases encPacket with
  | encrypt => rfl
  | blowFishEncryptPacket => rfl

end AuthServer
