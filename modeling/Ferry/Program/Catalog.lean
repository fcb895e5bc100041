import Ferry.Program.Builtin

/-!
# Catalogs

A catalog finds programs by name. Its programs stand in the order of their names, and a program
that is registered takes the place of an earlier one with the same name.
-/

namespace Ferry

/-- The programs that can be run, in the order of their names. -/
structure Catalog where
  programs : List Program := []

namespace Catalog

/-- Puts a program into an ordered list, in place of one with the same name. -/
def place (program : Program) : List Program → List Program
  | [] => [program]
  | first :: rest =>
      if program.name < first.name then program :: first :: rest
      else if program.name = first.name then program :: rest
      else first :: place program rest

/-- Adds a program or replaces the one with its name. -/
def register (catalog : Catalog) (program : Program) : Catalog :=
  ⟨place program catalog.programs⟩

/-- The programs that come with the library. -/
def builtin : Catalog := (({} : Catalog).register .fib).register .sum |>.register .ackermann

/-- The names of the programs, in order. -/
def names (catalog : Catalog) : List String := catalog.programs.map (·.name)

/-- The program with a name. -/
def find? (catalog : Catalog) (name : String) : Option Program :=
  catalog.programs.find? fun program => program.name == name

/-- The program with a name, or the failure that tells which names there are. -/
def lookup (catalog : Catalog) (name : String) : Except Failure Program :=
  match catalog.find? name with
  | some program => .ok program
  | none =>
      let names := ", ".intercalate catalog.names
      .error (.configuration s!"unknown program {Text.quoted name}, expected one of: {names}")

end Catalog

end Ferry
