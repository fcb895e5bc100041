import Ferry.Machine.Module
import Ferry.Text.Quoted

/-!
# Programs

A program is a module with a function to call, found under the program's own name, and arguments
for runs that give none.
-/

namespace Ferry

/-- A module that can be run by name. -/
structure Program where
  /-- The name of the program and of the function to call. -/
  name : String
  /-- A line about what the program computes. -/
  description : String
  /-- The functions of the program. -/
  module : Module
  /-- The function to call. -/
  entry : UInt32
  /-- The arguments of a run that gives none. -/
  defaultArguments : List Word
  /-- The function to call bears the name of the program. -/
  exported : module.export? name = some entry

namespace Program

/-- The program that calls the function with the program's name, if the module has one. -/
def ofModule? (name description : String) (module : Module) (defaultArguments : List Word) :
    Except Failure Program :=
  match h : module.export? name with
  | some entry => .ok ⟨name, description, module, entry, defaultArguments, h⟩
  | none => .error (.configuration s!"module does not export {name}")

/-- The number of arguments that the function to call takes. -/
def arity (program : Program) : Nat :=
  match program.module.function? program.entry with
  | some function => function.params.toNat
  | none => 0

/-- The arguments of a run: the given ones, whose number must fit, or the default ones if none are
given. -/
def arguments (program : Program) (given : List Word) : Except Failure (List Word) :=
  if given = [] then .ok program.defaultArguments
  else if given.length ≠ program.arity then
    .error (.configuration
      s!"{program.name} takes {program.arity} arguments, got {given.length}")
  else .ok given

end Program

end Ferry
