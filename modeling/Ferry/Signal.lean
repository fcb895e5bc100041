/-!
# The pause signal

A signal is a flag with the meaning "pause at the next instruction boundary". It is shared between
the engine, which takes it, and whoever decides when to pause, who arms it. `Board` keeps several
signals and the handles through which they are reached; a cloned handle reaches the same signal.
-/

namespace Ferry

/-- A request to pause at the next instruction boundary. -/
structure Signal where
  /-- Whether a pause is requested. -/
  armed : Bool := false
  deriving DecidableEq, Repr

namespace Signal

/-- Requests a pause. -/
def arm (_ : Signal) : Signal := ⟨true⟩

/-- Withdraws a request that nobody has taken. -/
def disarm (_ : Signal) : Signal := ⟨false⟩

/-- Reads and clears the request in one step. -/
def take (signal : Signal) : Bool × Signal := (signal.armed, ⟨false⟩)

/-- Arms the signal if the condition holds. -/
def armIf (signal : Signal) (condition : Bool) : Signal := ⟨signal.armed || condition⟩

/-- Several signals and the handles that reach them. -/
structure Board where
  /-- The signals, oldest first. -/
  signals : Array Signal := #[]
  /-- For each handle, oldest first, the position of the signal it reaches. -/
  handles : Array Nat := #[]
  deriving Repr

namespace Board

/-- The signal that a handle reaches. -/
def signal? (board : Board) (handle : Nat) : Option Signal := do
  let position ← board.handles[handle]?
  board.signals[position]?

/-- Replaces the signal that a handle reaches. -/
def put (board : Board) (handle : Nat) (signal : Signal) : Board :=
  match board.handles[handle]? with
  | none => board
  | some position => { board with signals := board.signals.setIfInBounds position signal }

/-- Arms the signal that a handle reaches. -/
def arm (board : Board) (handle : Nat) : Board := board.put handle ⟨true⟩

/-- Disarms the signal that a handle reaches. -/
def disarm (board : Board) (handle : Nat) : Board := board.put handle ⟨false⟩

/-- Takes the signal that a handle reaches. -/
def take (board : Board) (handle : Nat) : Bool × Board :=
  match board.signal? handle with
  | none => (false, board)
  | some signal => (signal.take.1, board.put handle signal.take.2)

/-- Adds a handle that reaches the same signal as `handle`. -/
def clone (board : Board) (handle : Nat) : Board :=
  match board.handles[handle]? with
  | none => board
  | some position => { board with handles := board.handles.push position }

/-- Adds an unarmed signal and a handle that reaches it. -/
def create (board : Board) : Board :=
  { signals := board.signals.push {}, handles := board.handles.push board.signals.size }

/-- Whether the signals are armed, one entry for each handle. -/
def armed (board : Board) : List Bool :=
  (List.range board.handles.size).map fun handle => ((board.signal? handle).getD {}).armed

end Board

end Signal

end Ferry
