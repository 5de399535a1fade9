/-
The idle timer of a client connection.

The time-out is configured in seconds and kept in milliseconds; both sides of
the comparison are unsigned differences.  Times are counted without a bound and
seen through the tick counter, so its wrap is covered.
-/

import AuthServer.ClientSocket
import AuthServer.Lib.TickClock

set_option autoImplicit false

namespace AuthServer

open TickClock

/-- `SocketTimeOut` as `Config::Load` computes it and the start-up code leaves it. -/
def socketTimeOut (configured : Int32) : Int32 :=
  let loaded := configured * 1000
  if loaded = 0 then 180 else loaded

def CSocketServerEx.onTimerCallback (socketTimeOut : Int32) (curTick : UInt32)
    (lastIo : Int32) (socket : ClientSocket) : ClientSocket :=
  if socket.read.mode = .close then socket.releaseRef
  else if curTick - lastIo.toUInt32 ≥ socketTimeOut.toUInt32 - 500 then
    socket.closeSocket.releaseRef
  else socket.releaseRef

namespace ClientTimer

/-- What the callback owes an open connection that has been idle for so long. -/
def ClosesIdle (timeOut : Int32) (last idle : Nat) : Prop :=
  ∀ socket : ClientSocket, socket.handleOpen = true → socket.read.mode ≠ .close →
    let after := CSocketServerEx.onTimerCallback timeOut (tick (last + idle))
      (tick last).toInt32 socket
    (timeOut.toInt ≤ idle → after.handleOpen = false) ∧
      ((idle : Int) < timeOut.toInt - 500 ∨ (idle = 0 ∧ timeOut.toInt < 500) →
        after.handleOpen = true)

/-- Half a second can be taken off the time-out, or the difference that wraps is
still on the right side of the idle time. -/
def Serves (timeOut : Int32) (idle : Nat) : Prop :=
  500 ≤ timeOut.toInt ∨ (0 < timeOut.toInt ∧ (idle : Int) < timeOut.toInt) ∨
    (timeOut.toInt < 0 ∧ timeOut.toInt + 4294966796 ≤ idle)

theorem socketTimeOut_ne_zero (configured : Int32) : (socketTimeOut configured).toInt ≠ 0 := by
  unfold socketTimeOut
  simp only
  split
  · decide
  · rename_i nonzero
    intro zero
    exact nonzero (Int32.toInt_inj.mp zero)

theorem threshold_toNat (timeOut : Int32) :
    ((timeOut.toUInt32 - 500).toNat : Int) =
      if 500 ≤ timeOut.toInt then timeOut.toInt - 500 else timeOut.toInt + 4294966796 := by
  have value := toInt_toInt32 timeOut.toUInt32
  rw [Int32.toInt32_toUInt32] at value
  have bound := timeOut.toUInt32.toNat_lt
  rw [UInt32.toNat_sub]
  change (((4294967296 - 500 + timeOut.toUInt32.toNat) % 4294967296 : Nat) : Int) = _
  split at value
  · split
    · omega
    · omega
  · split
    · omega
    · omega

/-- An open connection is closed when its idle time has reached the threshold. -/
theorem onTimerCallback_open (timeOut : Int32) (last idle : Nat) (socket : ClientSocket)
    (isOpen : socket.handleOpen = true) (serving : socket.read.mode ≠ .close)
    (bound : idle < 4294967296) :
    (CSocketServerEx.onTimerCallback timeOut (tick (last + idle)) (tick last).toInt32
      socket).handleOpen =
      decide ((idle : Int) < (timeOut.toUInt32 - 500).toNat) := by
  have difference := tick_sub_toNat last idle bound
  have reached : tick (last + idle) - (tick last).toInt32.toUInt32 ≥ timeOut.toUInt32 - 500 ↔
      (timeOut.toUInt32 - 500).toNat ≤ idle := by
    rw [UInt32.toUInt32_toInt32, ge_iff_le, UInt32.le_iff_toNat_le, difference]
  unfold CSocketServerEx.onTimerCallback
  rw [if_neg serving]
  split
  · rename_i due
    have late := reached.mp due
    unfold ClientSocket.closeSocket
    rw [if_pos isOpen, decide_eq_false (by omega)]
    rfl
  · rename_i early
    have within : ¬ (timeOut.toUInt32 - 500).toNat ≤ idle := fun late => early (reached.mpr late)
    rw [decide_eq_true (by omega)]
    exact isOpen

def accepted : ClientSocket := ClientSocket.create 0 fun _ => 0

theorem accepted_serving : accepted.read.mode ≠ .close := by decide

/-- For which idle times the connections are closed and kept as they should be. -/
theorem closesIdle_iff (configured : Int32) (last idle : Nat) (bound : idle < 2147483648) :
    ClosesIdle (socketTimeOut configured) last idle ↔ Serves (socketTimeOut configured) idle := by
  have nonzero := socketTimeOut_ne_zero configured
  generalize socketTimeOut configured = timeOut at nonzero ⊢
  have threshold := threshold_toNat timeOut
  have least := timeOut.le_toInt
  have value := fun socket isOpen serving =>
    onTimerCallback_open timeOut last idle socket isOpen serving (by omega)
  unfold ClosesIdle Serves
  constructor
  · intro closes
    obtain ⟨late, early⟩ := closes accepted rfl accepted_serving
    rw [value accepted rfl accepted_serving] at late early
    rw [decide_eq_false_iff_not] at late
    rw [decide_eq_true_iff] at early
    split at threshold
    · exact Or.inl (by assumption)
    · omega
  · intro serves socket isOpen serving
    simp only
    rw [value socket isOpen serving, decide_eq_false_iff_not, decide_eq_true_iff]
    constructor
    · intro late
      split at threshold
      · omega
      · omega
    · intro early
      split at threshold
      · omega
      · omega

/-- 180 seconds, idle for half an hour across the wrap of the counter. -/
theorem default_time_out_closes : ClosesIdle (socketTimeOut 180) 4294000000 1800000 :=
  (closesIdle_iff 180 4294000000 1800000 (by decide)).mpr (Or.inl (by decide))

/-- No time-out configured: 180 milliseconds, from which half a second is taken. -/
theorem unset_time_out_never_closes :
    ¬ ∀ (configured : Int32) (last idle : Nat), idle < 2147483648 →
      ClosesIdle (socketTimeOut configured) last idle := by
  intro claimed
  have closes := claimed 0 0 1000 (by decide)
  obtain ⟨late, _⟩ := closes accepted rfl accepted_serving
  have closed := late (by decide)
  rw [onTimerCallback_open _ 0 1000 accepted rfl accepted_serving (by decide)] at closed
  revert closed
  decide

end ClientTimer

end AuthServer
