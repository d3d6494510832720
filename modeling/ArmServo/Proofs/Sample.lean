import Mathlib
import ArmServo.Controller.Order
import ArmServo.Scalar.Binary64

/-!
# A small arm

A lift that slides between zero and a half, a fixed plate on it and a hand that turns, at a bench on
which the lift is found above its range. General statements are tried on this arm.
-/

namespace ArmServo.Sample

/-- The arm, written by positions. -/
def arm : Config Float where
  rootFrame := none
  baseFrame := "floor"
  tipFrame := "hand"
  joints := ["lift", "turn"]
  commandKind := some .position
  periodMs := 2.0
  damping := 0.5
  gains := .uniform ⟨1.0, 0.0, 0.0, 0.0⟩
  segments := [
    ⟨"lift", "carriage", .prismatic, .unitZ, .zero, .zero, .range 0.0 0.5⟩,
    ⟨"bolt", "plate", .fixed, .zero, .zero, .zero, .free⟩,
    ⟨"turn", "hand", .revolute, .unitZ, ⟨1.0, 0.0, 0.0⟩, .zero, .range (-1.0) 1.0⟩]

/-- The bench of the arm, where the lift stands above its range. -/
def bench : Bench Float := .ofList [("lift", 0.75), ("turn", 0.0)]

/-- The station before its controller is initialized. -/
def station : Station (Bench Float) BenchHandle Float := .fresh .position bench

/-- The events after which the station runs. -/
def setUp : List (Event (Bench Float) Float) := [.order (.configure arm), .order .start]

/-- The same error on every axis. -/
def error : Axes Float := .uniform 1.0

/-- A hundredth of a second. -/
def period : Period := ⟨10000000⟩

end ArmServo.Sample
