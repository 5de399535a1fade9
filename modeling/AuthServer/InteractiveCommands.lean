/-
Which command a line on the interactive port selects.

`Process` declares `packetNumber` without a value, and `sscanf` writes it only
where the line starts with a number.  `slot` is what lies on the stack where the
variable is put: whatever other code left there, or the number of an earlier
line.
-/

import AuthServer.Lib.CFormat
import AuthServer.Lib.CScan

set_option autoImplicit false

namespace AuthServer

open CFormat CScan

inductive InteractivePacketFunc where
  | kickAccount
  | changeLimitUser
  | getLoginUserCount
  | kickAccountByaccount
  | setGMOnlyMode
  | getAccountInfo
  | setGMIP
  | setGMAccessLimit
  | setFreeServer
  | ochkRequest
  | checkPassword
  deriving DecidableEq

def interactivePacketTable : List InteractivePacketFunc :=
  [.kickAccount, .changeLimitUser, .getLoginUserCount, .kickAccountByaccount, .setGMOnlyMode,
    .getAccountInfo, .setGMIP, .setGMAccessLimit, .setFreeServer, .ochkRequest, .checkPassword]

def maxInteractivePacket : Nat := interactivePacketTable.length

namespace CSocketInt

/-- The handler that is called, if any, and what `packetNumber` is then. -/
def process (ints : IntStore) (slot : Int32) (buf : List UInt8) :
    Option InteractivePacketFunc × Int32 :=
  let packetNumber := (sscanf ints [.int] buf).headD slot
  if 0 ≤ packetNumber.toInt ∧ packetNumber.toInt < maxInteractivePacket then
    (interactivePacketTable[packetNumber.toInt.toNat]?, packetNumber)
  else (none, packetNumber)

/-- What happens to the slot before a line: earlier lines, and other code that
uses the stack. -/
inductive StackUse where
  | line (buf : List UInt8)
  | other (value : Int32)
  deriving DecidableEq

def use (ints : IntStore) (slot : Int32) : StackUse → Int32
  | .line buf => (process ints slot buf).2
  | .other value => value

/-- The handler for a line that comes after all this. -/
def dispatched (ints : IntStore) (slot : Int32) (before : List StackUse) (buf : List UInt8) :
    Option InteractivePacketFunc :=
  (process ints (before.foldl (use ints) slot) buf).1

/-- The line alone selects the command, and a line without a number none. -/
def Determined (ints : IntStore) (buf : List UInt8) : Prop :=
  (∀ slot before otherSlot otherBefore,
      dispatched ints slot before buf = dispatched ints otherSlot otherBefore buf) ∧
    (¬ StartsWithNumber buf → ∀ slot before, dispatched ints slot before buf = none)

theorem sscanf_number (ints : IntStore) (buf : List UInt8) (starts : StartsWithNumber buf) :
    ∃ value, sscanf ints [.int] buf = [value] := by
  obtain ⟨⟨value, rest⟩, scanned⟩ :=
    Option.isSome_iff_exists.mp ((scanInt_isSome buf).mpr starts)
  refine ⟨ints.store value, ?_⟩
  rw [sscanf, scanned]
  rfl

theorem sscanf_garbage (ints : IntStore) (buf : List UInt8) (garbage : ¬ StartsWithNumber buf) :
    sscanf ints [.int] buf = [] := by
  rw [← scanInt_isSome, Bool.not_eq_true, Option.isSome_eq_false_iff, Option.isNone_iff_eq_none]
    at garbage
  rw [sscanf, garbage]

/-- A line without a number selects by what is in the slot. -/
theorem process_garbage (ints : IntStore) (slot : Int32) (buf : List UInt8)
    (garbage : ¬ StartsWithNumber buf) : process ints slot buf = process ints slot [] := by
  have nothing : ¬ StartsWithNumber [] := by
    rw [← scanInt_isSome]
    exact Bool.false_ne_true
  unfold process
  rw [sscanf_garbage ints buf garbage, sscanf_garbage ints [] nothing]

theorem determined_iff (ints : IntStore) (buf : List UInt8) :
    Determined ints buf ↔ StartsWithNumber buf := by
  constructor
  · rintro ⟨same, _⟩
    by_contra garbage
    have changes := same 0 [] (-1) []
    unfold dispatched at changes
    rw [process_garbage ints _ buf garbage, process_garbage ints _ buf garbage] at changes
    contradiction
  · intro starts
    obtain ⟨value, read⟩ := sscanf_number ints buf starts
    have fixed : ∀ slot, process ints slot buf = process ints value buf := by
      intro slot
      unfold process
      rw [read]
      rfl
    refine ⟨fun slot before otherSlot otherBefore => ?_, fun garbage => absurd starts garbage⟩
    unfold dispatched
    rw [fixed, fixed (otherBefore.foldl (use ints) otherSlot)]

/-- Stale memory has no say exactly where the line starts with a number. -/
theorem command_determined_iff (ints : IntStore) (buf : List UInt8) :
    Determined ints buf ↔ StartsWithNumber buf :=
  determined_iff ints buf

/-- After a line that changes the user limit, another one does so without saying it. -/
example : dispatched .wrapping (-1) [.line (ascii "1 500")] (ascii "help") =
    some .changeLimitUser := by decide

theorem garbage_line_dispatched : ¬ ∀ (ints : IntStore) (buf : List UInt8), Determined ints buf := by
  intro always
  have starts := (determined_iff .wrapping (ascii "help")).mp (always .wrapping (ascii "help"))
  rw [← scanInt_isSome] at starts
  exact absurd starts (by decide)

end CSocketInt

end AuthServer
