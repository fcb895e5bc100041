import Ferry.Failure
import Ferry.Machine.Instruction

/-!
# Functions and modules

A module is a table of functions that has been judged fit to run: there is at least one function,
names are distinct, every body ends in an instruction after which control does not go on, and no
instruction names a jump target, a local slot or a function that does not exist. `Module.defect?`
finds the first thing that is wrong, in the order of the table.
-/

namespace Ferry

/-- A function of the machine. -/
structure Function where
  /-- The name under which the function is found. -/
  name : String
  /-- The number of parameters; they occupy the first local slots. -/
  params : UInt32
  /-- The number of local slots, parameters included. -/
  locals : UInt32
  /-- The number of results that a return leaves to the caller. -/
  results : UInt32
  /-- The body. -/
  code : Array Instruction
  deriving DecidableEq, Repr

/-- A function with one result and no local slots besides its parameters. -/
def Function.ofCode (name : String) (params : UInt32) (code : Array Instruction) : Function :=
  { name, params, locals := params, results := 1, code }

/-- Reserves local slots beyond the parameters. -/
def Function.withExtraLocals (function : Function) (extra : UInt32) : Function :=
  { function with locals := function.params + extra }

/-- Sets the number of results. -/
def Function.withResults (function : Function) (results : UInt32) : Function :=
  { function with results }

/-- What makes a table of functions unfit to run. -/
inductive Module.Defect where
  | noFunctions
  | emptyBody (function : String)
  | missingTerminator (function : String)
  | paramsExceedLocals (function : String) (params locals : UInt32)
  | badJump (function : String) (pc : Nat) (target : UInt32) (length : Nat)
  | badCall (function : String) (pc : Nat) (callee : UInt32)
  | badLocal (function : String) (pc : Nat) (slot locals : UInt32)
  | duplicateName (name : String)
  deriving DecidableEq, Repr

namespace Module.Defect

/-- The description of a defect. -/
def message : Module.Defect → String
  | noFunctions => "Module has no functions"
  | emptyBody function => s!"Function {function} has an empty body"
  | missingTerminator function =>
      s!"Function {function} does not end in return or unreachable"
  | paramsExceedLocals function params locals =>
      s!"Function {function} declares {params.toNat} params but only {locals.toNat} locals"
  | badJump function pc target length =>
      s!"Function {function} jumps to {target.toNat} at pc {pc}, body has {length} instructions"
  | badCall function pc callee =>
      s!"Function {function} calls unknown {functionText callee} at pc {pc}"
  | badLocal function pc slot locals =>
      s!"Function {function} uses local {slot.toNat} at pc {pc}, only {locals.toNat} declared"
  | duplicateName name => s!"Duplicate function name: {name}"

/-- An unfit module is a configuration failure. -/
def toFailure (defect : Module.Defect) : Failure := .configuration defect.message

end Module.Defect

namespace Function

/-- What is wrong with the instruction at offset `pc`, in a table of `count` functions. -/
def instructionDefect? (function : Function) (count pc : Nat) (instruction : Instruction) :
    Option Module.Defect :=
  let jump := instruction.jumpTarget?.bind fun target =>
    if function.code.size ≤ target.toNat then
      some (.badJump function.name pc target function.code.size)
    else none
  let slot := instruction.localSlot?.bind fun slot =>
    if function.locals ≤ slot then some (.badLocal function.name pc slot function.locals)
    else none
  let callee := instruction.callee?.bind fun callee =>
    if count ≤ callee.toNat then some (.badCall function.name pc callee) else none
  jump.or (slot.or callee)

/-- The first thing that is wrong with a function in a table of `count` functions. -/
def defect? (function : Function) (count : Nat) : Option Module.Defect :=
  match function.code.back? with
  | none => some (.emptyBody function.name)
  | some last =>
      if ¬ last.isTerminator then some (.missingTerminator function.name)
      else if function.locals < function.params then
        some (.paramsExceedLocals function.name function.params function.locals)
      else
        function.code.toList.zipIdx.findSome? fun (instruction, pc) =>
          function.instructionDefect? count pc instruction

end Function

namespace Module

/-- The first defect among the functions of a table of `count`, given the names of those before
them. A repeated name is judged before the body that bears it. -/
def defectAmong? (count : Nat) : (earlier : List String) → List Function → Option Defect
  | _, [] => none
  | earlier, function :: rest =>
      if function.name ∈ earlier then some (.duplicateName function.name)
      else (function.defect? count).or (defectAmong? count (function.name :: earlier) rest)

/-- The first thing that makes a table of functions unfit to run. -/
def defect? (functions : Array Function) : Option Defect :=
  if functions.isEmpty then some .noFunctions
  else defectAmong? functions.size [] functions.toList

end Module

/-- A table of functions that is fit to run. -/
structure Module where
  /-- The functions, in the order of their indices. -/
  functions : Array Function
  /-- Nothing is wrong with them. -/
  sound : Module.defect? functions = none

namespace Module

/-- Judges a table of functions. -/
def ofFunctions? (functions : Array Function) : Except Defect Module :=
  match h : defect? functions with
  | none => .ok ⟨functions, h⟩
  | some defect => .error defect

/-- The number of functions. -/
def size (module : Module) : Nat := module.functions.size

/-- The function with an index. -/
def function? (module : Module) (index : UInt32) : Option Function :=
  module.functions[index.toNat]?

/-- The index of the function with a name. -/
def export? (module : Module) (name : String) : Option UInt32 :=
  (module.functions.toList.findIdx? fun function => function.name == name).map UInt32.ofNat

end Module

end Ferry
