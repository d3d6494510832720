import ArmServo.Motion.Basic

/-!
# Joints as a controller sees them

A controller finds its joints by name once and keeps a handle of each. Through a handle it reads the
measured position and velocity and sets a command. Recorded hardware behaves as before and keeps the
commands that it receives, in order: what a controller sends is what it sends to recorded hardware.
-/

namespace ArmServo

/-- Hardware of type `H` with handles of type `J` over numbers of type `α`. -/
class JointBus (H : Type) (J α : outParam Type) where
  /-- A handle of the joint of that name, if there is one. This is a look-up: the hardware is what it
  was, also if there is none. -/
  handle? : H → String → Option J
  name : J → String
  position : H → J → α
  velocity : H → J → α
  setCommand : H → J → α → H

namespace JointBus

variable {H J α : Type} [JointBus H J α]

/-- Gives each joint its command, in order, until either list ends. -/
def setCommands (h : H) : List J → List α → H
  | j :: js, x :: xs => setCommands (setCommand h j x) js xs
  | _, _ => h

end JointBus

structure Recorded (H J α : Type) where
  hardware : H
  /-- Every command with the handle through which it came, the first one in front. -/
  record : List (J × α)
deriving BEq, DecidableEq, Repr

namespace Recorded

variable {H J α : Type}

/-- Hardware with an empty record. -/
def start (h : H) : Recorded H J α := ⟨h, []⟩

instance [JointBus H J α] : JointBus (Recorded H J α) J α where
  handle? r := JointBus.handle? r.hardware
  name := JointBus.name (H := H)
  position r := JointBus.position r.hardware
  velocity r := JointBus.velocity r.hardware
  setCommand r j x := ⟨JointBus.setCommand r.hardware j x, r.record ++ [(j, x)]⟩

end Recorded

end ArmServo
