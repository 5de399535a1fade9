/-
The fixed-size I/O buffer and the protocol constants the socket code reads.

A buffer is memory from `m_buffer` on together with its fill count and its
reference count.  Memory is not cut off at `BUFFER_SIZE`; staying below it is
proved where the code computes an offset.  `packetSizeType` is the value that
`Config::Load` stores whatever the configuration file says.  The three opcode
bounds are `AQ_MAX`, `AS_MAX` and `IA_MAX` of Protocol.h.
-/

import AuthServer.Lib.LinearMemory

set_option autoImplicit false

namespace AuthServer

def bufferSize : Nat := 20480

def packetSizeType : Int := 3

def aqMax : Nat := 2

def asMax : Nat := 21

def iaMax : Nat := 14

def dword (value : Int) : Nat := (value % 4294967296).toNat

theorem dword_sub (whole part : Nat) (within : part ≤ whole)
    (bound : whole < 4294967296) :
    dword ((whole : Int) - (part : Int)) = whole - part := by
  unfold dword
  omega

structure CIOBuffer where
  buffer : Nat → UInt8
  size : Nat
  ref : Int

namespace CIOBuffer

/-- `CIOBuffer::Alloc`: the contents are whatever the recycled memory held. -/
def alloc (recycled : Nat → UInt8) : CIOBuffer :=
  { buffer := recycled, size := 0, ref := 1 }

def contents (buf : CIOBuffer) : List UInt8 :=
  LinearMemory.slice buf.buffer 0 buf.size

@[simp] theorem contents_length (buf : CIOBuffer) : buf.contents.length = buf.size :=
  LinearMemory.slice_length _ _ _

end CIOBuffer

end AuthServer
