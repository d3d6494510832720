import ArmServo.Controller.Order

/-!
# Queries and calls

What a host may ask of a controller at its simulated positions, and what a host does in the course of
time: the calls of a host are events and queries in one list, and every call has its reply.
-/

namespace ArmServo

/-- A question that a controller answers without doing anything. -/
inductive Query (α : Type) where
  | tipPose
  | framePose (frame : String)
  | expressInBase (v : Axes α) (frame : String)
  | expressInFrame (v : Axes α) (frame : String)
  | expressTensorInBase (k : Tensor α) (frame : String)

inductive Call (H α : Type) where
  | event (e : Event H α)
  | query (q : Query α)

inductive Reply (α : Type) where
  /-- nobody has been asked -/
  | silent
  | done (r : Except (Failure α) Unit)
  | pose (r : Except (ControlError α) (Pose α))
  | axes (r : Except (ControlError α) (Axes α))
  | tensor (r : Except (ControlError α) (Tensor α))

variable {H J α : Type} [Scalar α]

def Controller.ask (c : Controller α J) : Query α → Reply α
  | .tipPose => .pose c.tipPose?
  | .framePose frame => .pose (c.framePose? frame)
  | .expressInBase v frame => .axes (c.expressInBase? v frame)
  | .expressInFrame v frame => .axes (c.expressInFrame? v frame)
  | .expressTensorInBase k frame => .tensor (c.expressTensorInBase? k frame)

namespace Station

variable [JointBus H J α]

/-- The station after a call. -/
def next (s : Station H J α) (x : Call H α) (solve : TaskSpace.Method α := TaskSpace.solve) :
    Station H J α :=
  match x with
  | .event e => s.meet e solve
  | .query _ => s

def reply (s : Station H J α) (x : Call H α) (solve : TaskSpace.Method α := TaskSpace.solve) :
    Reply α :=
  match x with
  | .event (.order o) => .done (s.obey o solve).1
  | .event (.change _) => .silent
  | .query q => s.controller.ask q

/-- The station after a list of calls. -/
def afterCalls (s : Station H J α) (calls : List (Call H α))
    (solve : TaskSpace.Method α := TaskSpace.solve) : Station H J α :=
  calls.foldl (fun s x => s.next x solve) s

/-- The replies to a list of calls, one to each. -/
def replies (s : Station H J α) (calls : List (Call H α))
    (solve : TaskSpace.Method α := TaskSpace.solve) : List (Reply α) :=
  match calls with
  | [] => []
  | x :: rest => s.reply x solve :: replies (s.next x solve) rest solve

end Station

end ArmServo
