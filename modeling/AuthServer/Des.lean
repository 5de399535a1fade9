/-
The data encryption standard as `Des.c` computes it.

The arrays that `DesKeyInit` fills hold for every nibble or byte of an input what it adds to
the result of a permutation, and for every twelve bits what two of the compressions make
of them.  A `char` is an unsigned byte here: wherever a sign would be extended, the
source masks it off.
-/

import AuthServer.Lib.BitBlocks
import AuthServer.Lib.LinearMemory
import Mathlib.Data.Fin.Tuple.Basic
import Mathlib.Data.Fin.VecNotation

set_option autoImplicit false

namespace AuthServer

open LinearMemory BitBlocks

namespace Des

scoped instance fourNeZero : NeZero 4 := ⟨by decide⟩

scoped instance sixNeZero : NeZero 6 := ⟨by decide⟩

def ip : List Nat :=
  [58, 50, 42, 34, 26, 18, 10, 2, 60, 52, 44, 36, 28, 20, 12, 4,
   62, 54, 46, 38, 30, 22, 14, 6, 64, 56, 48, 40, 32, 24, 16, 8,
   57, 49, 41, 33, 25, 17, 9, 1, 59, 51, 43, 35, 27, 19, 11, 3,
   61, 53, 45, 37, 29, 21, 13, 5, 63, 55, 47, 39, 31, 23, 15, 7]

def fp : List Nat :=
  [40, 8, 48, 16, 56, 24, 64, 32, 39, 7, 47, 15, 55, 23, 63, 31,
   38, 6, 46, 14, 54, 22, 62, 30, 37, 5, 45, 13, 53, 21, 61, 29,
   36, 4, 44, 12, 52, 20, 60, 28, 35, 3, 43, 11, 51, 19, 59, 27,
   34, 2, 42, 10, 50, 18, 58, 26, 33, 1, 41, 9, 49, 17, 57, 25]

def pc1 : List Nat :=
  [57, 49, 41, 33, 25, 17, 9, 1, 58, 50, 42, 34, 26, 18, 10, 2,
   59, 51, 43, 35, 27, 19, 11, 3, 60, 52, 44, 36, 63, 55, 47, 39,
   31, 23, 15, 7, 62, 54, 46, 38, 30, 22, 14, 6, 61, 53, 45, 37,
   29, 21, 13, 5, 28, 20, 12, 4]

def totrot : List Nat :=
  [1, 2, 4, 6, 8, 10, 12, 14, 15, 17, 19, 21, 23, 25, 27, 28]

def pc2 : List Nat :=
  [14, 17, 11, 24, 1, 5, 3, 28, 15, 6, 21, 10, 23, 19, 12, 4,
   26, 8, 16, 7, 27, 20, 13, 2, 41, 52, 31, 37, 47, 55, 30, 40,
   51, 45, 33, 48, 44, 49, 39, 56, 34, 53, 46, 42, 50, 36, 29, 32]

def si : List (List Nat) :=
  [[14, 4, 13, 1, 2, 15, 11, 8, 3, 10, 6, 12, 5, 9, 0, 7,
    0, 15, 7, 4, 14, 2, 13, 1, 10, 6, 12, 11, 9, 5, 3, 8,
    4, 1, 14, 8, 13, 6, 2, 11, 15, 12, 9, 7, 3, 10, 5, 0,
    15, 12, 8, 2, 4, 9, 1, 7, 5, 11, 3, 14, 10, 0, 6, 13],
   [15, 1, 8, 14, 6, 11, 3, 4, 9, 7, 2, 13, 12, 0, 5, 10,
    3, 13, 4, 7, 15, 2, 8, 14, 12, 0, 1, 10, 6, 9, 11, 5,
    0, 14, 7, 11, 10, 4, 13, 1, 5, 8, 12, 6, 9, 3, 2, 15,
    13, 8, 10, 1, 3, 15, 4, 2, 11, 6, 7, 12, 0, 5, 14, 9],
   [10, 0, 9, 14, 6, 3, 15, 5, 1, 13, 12, 7, 11, 4, 2, 8,
    13, 7, 0, 9, 3, 4, 6, 10, 2, 8, 5, 14, 12, 11, 15, 1,
    13, 6, 4, 9, 8, 15, 3, 0, 11, 1, 2, 12, 5, 10, 14, 7,
    1, 10, 13, 0, 6, 9, 8, 7, 4, 15, 14, 3, 11, 5, 2, 12],
   [7, 13, 14, 3, 0, 6, 9, 10, 1, 2, 8, 5, 11, 12, 4, 15,
    13, 8, 11, 5, 6, 15, 0, 3, 4, 7, 2, 12, 1, 10, 14, 9,
    10, 6, 9, 0, 12, 11, 7, 13, 15, 1, 3, 14, 5, 2, 8, 4,
    3, 15, 0, 6, 10, 1, 13, 8, 9, 4, 5, 11, 12, 7, 2, 14],
   [2, 12, 4, 1, 7, 10, 11, 6, 8, 5, 3, 15, 13, 0, 14, 9,
    14, 11, 2, 12, 4, 7, 13, 1, 5, 0, 15, 10, 3, 9, 8, 6,
    4, 2, 1, 11, 10, 13, 7, 8, 15, 9, 12, 5, 6, 3, 0, 14,
    11, 8, 12, 7, 1, 14, 2, 13, 6, 15, 0, 9, 10, 4, 5, 3],
   [12, 1, 10, 15, 9, 2, 6, 8, 0, 13, 3, 4, 14, 7, 5, 11,
    10, 15, 4, 2, 7, 12, 9, 5, 6, 1, 13, 14, 0, 11, 3, 8,
    9, 14, 15, 5, 2, 8, 12, 3, 7, 0, 4, 10, 1, 13, 11, 6,
    4, 3, 2, 12, 9, 5, 15, 10, 11, 14, 1, 7, 6, 0, 8, 13],
   [4, 11, 2, 14, 15, 0, 8, 13, 3, 12, 9, 7, 5, 10, 6, 1,
    13, 0, 11, 7, 4, 9, 1, 10, 14, 3, 5, 12, 2, 15, 8, 6,
    1, 4, 11, 13, 12, 3, 7, 14, 10, 15, 6, 8, 0, 5, 9, 2,
    6, 11, 13, 8, 1, 4, 10, 7, 9, 5, 0, 15, 14, 2, 3, 12],
   [13, 2, 8, 4, 6, 15, 11, 1, 10, 9, 3, 14, 5, 0, 12, 7,
    1, 15, 13, 8, 10, 3, 7, 4, 12, 5, 6, 11, 0, 14, 9, 2,
    7, 11, 4, 1, 9, 12, 14, 2, 0, 6, 10, 13, 15, 3, 5, 8,
    2, 1, 14, 7, 4, 10, 8, 13, 15, 12, 9, 0, 3, 5, 6, 11]]

def p32i : List Nat :=
  [16, 7, 20, 21, 29, 12, 28, 17, 1, 15, 23, 26, 5, 18, 31, 10,
   2, 8, 24, 14, 32, 27, 3, 9, 19, 13, 30, 6, 22, 11, 4, 25]

def bytebit (m : Nat) : UInt8 := [0o200, 0o100, 0o40, 0o20, 0o10, 0o4, 0o2, 0o1].getD m 0

def nibblebit (m : Nat) : UInt8 := [0o10, 0o4, 0o2, 0o1].getD m 0

/-- What `DesKeyInit` computes. -/
structure DesArrays where
  iperm : Fin 16 → UInt8 → Fin 8 → UInt8
  fperm : Fin 16 → UInt8 → Fin 8 → UInt8
  s : Fin 4 → Nat → UInt8
  p32 : Fin 4 → UInt8 → Fin 4 → UInt8
  kn : Fin 16 → Fin 6 → UInt8

/-! ### Filling the arrays -/

/-- The loop that ends the three functions on bits: the array is cleared, and each bit of it
that is chosen is put in. -/
def maskBits {count : Nat} (chosen : Fin (8 * count) → Bool) : Fin count → UInt8 :=
  (List.finRange (8 * count)).foldl
    (fun mask k =>
      if chosen k then
        Function.update mask ⟨k.val / 8, byte_below k⟩
          (mask ⟨k.val / 8, byte_below k⟩ ||| bytebit (k.val % 8))
      else mask) fun _ => 0

def perminit (p : List Nat) (i : Fin 16) (j : UInt8) : Fin 8 → UInt8 :=
  maskBits fun k : Fin 64 =>
    let l := p.getD k 0 - 1
    decide (l / 4 = i) && (j &&& nibblebit (l % 4) != 0)

def p32init (i : Fin 4) (j : UInt8) : Fin 4 → UInt8 :=
  maskBits fun k : Fin 32 =>
    let l := p32i.getD k 0 - 1
    decide (l / 8 = i) && (j &&& bytebit (l % 8) != 0)

/-- One compression, of six bits to four. -/
def getcomp (k v : Nat) : Nat :=
  let i := ((v &&& 0o40) >>> 4) ||| (v &&& 1)
  let j := (v &&& 0o37) >>> 1
  (si.getD k []).getD ((i <<< 4) + j) 0

def sinit (i : Fin 4) (j : Nat) : UInt8 :=
  UInt8.ofNat ((getcomp (i * 2) (j >>> 6) <<< 4) ||| (0x0f &&& getcomp (i * 2 + 1) (j &&& 0o77)))

def pc1m (key64bit : Fin 8 → UInt8) (j : Nat) : Bool :=
  let l := pc1.getD j 0 - 1
  key64bit (Fin.ofNat 8 (l / 8)) &&& bytebit (l % 8) != 0

def pcr (key64bit : Fin 8 → UInt8) (i : Fin 16) (j : Nat) : Bool :=
  let l := j + totrot.getD i 0
  pc1m key64bit (if l < (if j < 28 then 28 else 56) then l else l - 28)

def kinit (key64bit : Fin 8 → UInt8) (i : Fin 16) : Fin 6 → UInt8 :=
  maskBits fun j : Fin 48 => pcr key64bit i (pc2.getD j 0 - 1)

/-- The characters of the password, up to its end or forty of them, go round the key. -/
def key64bit (password : List UInt8) : Fin 8 → UInt8 :=
  (List.range 40).foldl
    (fun key i =>
      match (password.takeWhile (· ≠ 0))[i]? with
      | some c => Function.update key (Fin.ofNat 8 i) (key (Fin.ofNat 8 i) ^^^ c)
      | none => key) fun _ => 0

def desKeyInit (password : List UInt8) : DesArrays where
  iperm := perminit ip
  fperm := perminit fp
  kn := kinit (key64bit password)
  s := sinit
  p32 := p32init

/-! ### A block -/

def permute (inblock : Fin 8 → UInt8) (perm : Fin 16 → UInt8 → Fin 8 → UInt8) : Fin 8 → UInt8 :=
  (List.finRange 8).foldl
    (fun ob ib i =>
      ob i ||| (perm ⟨2 * ib.val, by omega⟩ ((inblock ib >>> 4) &&& 0x0f) i |||
        perm ⟨2 * ib.val + 1, by omega⟩ (inblock ib &&& 0x0f) i)) fun _ => 0

def perm32 (arrays : DesArrays) (inblock : Fin 4 → UInt8) : Fin 4 → UInt8 :=
  (List.finRange 4).foldl (fun ob j i => ob i ||| arrays.p32 j (inblock j) i) fun _ => 0

def expand (right : Fin 4 → UInt8) : Fin 6 → UInt8 :=
  let r0 := right 0
  let r1 := right 1
  let r2 := right 2
  let r3 := right 3
  ![((r3 &&& 0o001) <<< 7) ||| ((r0 &&& 0o370) >>> 1) ||| ((r0 &&& 0o030) >>> 3),
    ((r0 &&& 0o007) <<< 5) ||| ((r1 &&& 0o200) >>> 3) ||| ((r0 &&& 0o001) <<< 3) |||
      ((r1 &&& 0o340) >>> 5),
    ((r1 &&& 0o030) <<< 3) ||| ((r1 &&& 0o037) <<< 1) ||| ((r2 &&& 0o200) >>> 7),
    ((r1 &&& 0o001) <<< 7) ||| ((r2 &&& 0o370) >>> 1) ||| ((r2 &&& 0o030) >>> 3),
    ((r2 &&& 0o007) <<< 5) ||| ((r3 &&& 0o200) >>> 3) ||| ((r2 &&& 0o001) <<< 3) |||
      ((r3 &&& 0o340) >>> 5),
    ((r3 &&& 0o030) <<< 3) ||| ((r3 &&& 0o037) <<< 1) ||| ((r0 &&& 0o200) >>> 7)]

def contract (arrays : DesArrays) (in48 : Fin 6 → UInt8) : Fin 4 → UInt8 :=
  let i0 := (in48 0).toNat
  let i1 := (in48 1).toNat
  let i2 := (in48 2).toNat
  let i3 := (in48 3).toNat
  let i4 := (in48 4).toNat
  let i5 := (in48 5).toNat
  ![arrays.s 0 (0xfff &&& ((i0 <<< 4) ||| ((i1 >>> 4) &&& 0x0f))),
    arrays.s 1 (0xfff &&& ((i1 <<< 8) ||| (i2 &&& 0xff))),
    arrays.s 2 (0xfff &&& ((i3 <<< 4) ||| ((i4 >>> 4) &&& 0x0f))),
    arrays.s 3 (0xfff &&& ((i4 <<< 8) ||| (i5 &&& 0xff)))]

def f (arrays : DesArrays) (right : Fin 4 → UInt8) (num : Fin 16) : Fin 4 → UInt8 :=
  let bigright := expand right
  let result := fun i => bigright i ^^^ arrays.kn num i
  perm32 arrays (contract arrays result)

def iter (arrays : DesArrays) (num : Fin 16) (inblock : Fin 8 → UInt8) : Fin 8 → UInt8 :=
  let right (i : Fin 4) := inblock (Fin.natAdd 4 i)
  let left (i : Fin 4) := inblock (Fin.castAdd 4 i)
  let fret := f arrays right num
  Fin.append right fun i => left i ^^^ fret i

def desBlock (arrays : DesArrays) (nums : List (Fin 16)) (inblock : Fin 8 → UInt8) :
    Fin 8 → UInt8 :=
  let last := nums.foldl (fun block num => iter arrays num block) (permute inblock arrays.iperm)
  let swap : Fin 8 → UInt8 :=
    Fin.append (fun i : Fin 4 => last (Fin.natAdd 4 i)) fun i : Fin 4 => last (Fin.castAdd 4 i)
  permute swap arrays.fperm

def endes (arrays : DesArrays) (inblock : Fin 8 → UInt8) : Fin 8 → UInt8 :=
  desBlock arrays (List.finRange 16) inblock

def dedes (arrays : DesArrays) (inblock : Fin 8 → UInt8) : Fin 8 → UInt8 :=
  desBlock arrays ((List.finRange 16).map fun i => ⟨15 - i.val, by omega⟩) inblock

/-! ### Memory -/

def blockAt (cells : Nat → UInt8) (b : Nat) : Fin 8 → UInt8 := fun i => cells (b + i)

/-- The body of the loop of `DesMem`; a block is read before it is written. -/
def desMemTurn (arrays : DesArrays) (buf : Nat) (isencrypting : Bool) (cells : Nat → UInt8)
    (n : Nat) : Nat → UInt8 :=
  let b := buf + 8 * n
  let block := blockAt cells b
  store cells b (List.ofFn (if isencrypting then endes arrays block else dedes arrays block))

def desMem (arrays : DesArrays) (cells : Nat → UInt8) (buf mlen : Nat) (isencrypting : Bool) :
    Nat → UInt8 :=
  (List.range ((mlen + 7) / 8)).foldl (desMemTurn arrays buf isencrypting) cells

def desWriteBlock (arrays : DesArrays) (cells : Nat → UInt8) (buf len : Nat) : Nat → UInt8 :=
  desMem arrays cells buf (len &&& 0xfffffff8) true

def desReadBlock (arrays : DesArrays) (cells : Nat → UInt8) (buf len : Nat) : Nat → UInt8 :=
  desMem arrays cells buf (len &&& 0xfffffff8) false

end Des

end AuthServer
