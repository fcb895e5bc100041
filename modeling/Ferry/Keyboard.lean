/-!
# Key bindings

Keys stand for actions of the operator. A binding is a key code with modifiers. An event finds its
binding without regard to the shift key, and the release of a key never means anything.
-/

namespace Ferry

/-- What the operator can ask for. -/
inductive KeyAction where
  /-- Resume the pending snapshot, or start a fresh run. -/
  | resumeOrRun
  /-- Run, and pause at the first boundary at which the signal is consulted. -/
  | snapshotNow
  /-- Stop without a snapshot. -/
  | abort
  deriving DecidableEq, Repr

/-- A key for the playing of media. -/
inductive MediaKey where
  | play | pause | playPause | reverse | stop | fastForward | rewind | trackNext | trackPrevious
  | record | lowerVolume | raiseVolume | muteVolume
  deriving DecidableEq, Repr

/-- A modifier that is pressed as a key of its own. -/
inductive ModifierKey where
  | leftShift | leftControl | leftAlt | leftSuper | leftHyper | leftMeta
  | rightShift | rightControl | rightAlt | rightSuper | rightHyper | rightMeta
  | isoLevel3Shift | isoLevel5Shift
  deriving DecidableEq, Repr

/-- A key. -/
inductive KeyCode where
  | char (c : Char)
  | function (number : Nat)
  | esc | enter | tab | backTab | backspace | insert | delete
  | left | right | up | down | home | endKey | pageUp | pageDown
  | capsLock | scrollLock | numLock | printScreen | pause | menu | keypadBegin | null
  | media (key : MediaKey)
  | modifier (key : ModifierKey)
  deriving DecidableEq, Repr

/-- The modifiers that are held with a key. -/
structure Modifiers where
  shift : Bool := false
  control : Bool := false
  alt : Bool := false
  superKey : Bool := false
  hyper : Bool := false
  metaKey : Bool := false
  deriving DecidableEq, Repr

/-- A key with modifiers. -/
structure KeyCombo where
  code : KeyCode
  modifiers : Modifiers := {}
  deriving DecidableEq, Repr

/-- A key without modifiers. -/
def KeyCombo.plain (code : KeyCode) : KeyCombo := { code }

/-- A key with the control modifier alone. -/
def KeyCombo.ctrl (code : KeyCode) : KeyCombo := { code, modifiers := { control := true } }

/-- What happens to a key. -/
inductive KeyEventKind where
  | press | repeated | release
  deriving DecidableEq, Repr

/-- The bindings of keys, newest first. -/
structure KeyMap where
  bindings : List (KeyCombo × KeyAction)
  deriving Repr

namespace KeyMap

/-- Binds a key, in place of an earlier binding. -/
def bind (map : KeyMap) (combo : KeyCombo) (action : KeyAction) : KeyMap :=
  ⟨(combo, action) :: map.bindings.filter fun binding => binding.1 ≠ combo⟩

/-- The action that a binding gives. -/
def action? (map : KeyMap) (combo : KeyCombo) : Option KeyAction := map.bindings.lookup combo

/-- The action that an event stands for. -/
def actionOf? (map : KeyMap) (kind : KeyEventKind) (combo : KeyCombo) : Option KeyAction :=
  match kind with
  | .release => none
  | .press | .repeated =>
      map.action? { combo with modifiers := { combo.modifiers with shift := false } }

/-- The bindings that hold from the start. -/
def initial : KeyMap := ⟨[
  (.plain (.char 'r'), .resumeOrRun),
  (.plain (.char 's'), .snapshotNow),
  (.plain (.char 'q'), .abort),
  (.plain .esc, .abort),
  (.ctrl (.char 'c'), .abort)]⟩

end KeyMap

end Ferry
