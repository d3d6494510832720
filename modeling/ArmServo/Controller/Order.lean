import ArmServo.Controller.Station
import ArmServo.Hardware.Bus

/-!
# Orders and events

The operations of a station as data, so that a run is a list of events: orders, and changes of the
hardware that no order has made.
-/

namespace ArmServo

inductive Order (α : Type) where
  | configure (config : Config α)
  | start
  | pause
  | resume
  | compute (error : Axes α) (period : Period)
  | write
  | tick (error : Axes α) (period : Period)
  | resetPid
  | timeJump
  | setGains (gains : Pid.SpatialGains α)

/-- What happens to a station: it is given an order, or its hardware is found changed, because
joints have moved, commands have come from elsewhere or a measurement is different. -/
inductive Event (H α : Type) where
  | order (o : Order α)
  | change (h : H)

namespace Station

variable {H J α : Type} [Scalar α] [JointBus H J α]

/-- A station whose controller is not initialized. -/
def fresh (writes : CommandKind) (h : H) : Station H J α := ⟨⟨writes, none⟩, h⟩

def perform (o : Order α) (solve : TaskSpace.Method α := TaskSpace.solve) :
    Operation H J α Unit :=
  match o with
  | .configure c => configure c
  | .start => start
  | .pause => pause
  | .resume => resume
  | .compute e p => compute e p solve
  | .write => write
  | .tick e p => tick e p solve
  | .resetPid => resetPid
  | .timeJump => timeJump
  | .setGains g => setGains g

/-- The result of an order and the station after it. -/
def obey (s : Station H J α) (o : Order α) (solve : TaskSpace.Method α := TaskSpace.solve) :
    Except (Failure α) Unit × Station H J α :=
  (perform o solve).run s

/-- The commands that an order sends, each with the handle that receives it, in order. -/
def sent (s : Station H J α) (o : Order α) (solve : TaskSpace.Method α := TaskSpace.solve) :
    List (J × α) :=
  let recorded : Station (Recorded H J α) J α := ⟨s.controller, .start s.hardware⟩
  (recorded.obey o solve).2.hardware.record

/-! ## runs -/

/-- The station after an event, whatever the answer to an order is. -/
def meet (s : Station H J α) (e : Event H α) (solve : TaskSpace.Method α := TaskSpace.solve) :
    Station H J α :=
  match e with
  | .order o => (s.obey o solve).2
  | .change h => { s with hardware := h }

/-- The station after a run. -/
def after (s : Station H J α) (events : List (Event H α))
    (solve : TaskSpace.Method α := TaskSpace.solve) : Station H J α :=
  events.foldl (fun s e => s.meet e solve) s

/-- The answers to the orders of a run. -/
def answers (s : Station H J α) (events : List (Event H α))
    (solve : TaskSpace.Method α := TaskSpace.solve) : List (Except (Failure α) Unit) :=
  match events with
  | [] => []
  | .order o :: rest => (s.obey o solve).1 :: answers (s.obey o solve).2 rest solve
  | .change h :: rest => answers { s with hardware := h } rest solve

end Station

end ArmServo
