import Ferry.Artifact.Envelope
import Ferry.Command.Line
import Ferry.Host.Basic
import Ferry.Text.Json

/-!
# Reports

What the program prints: the list of programs, the contents of an artifact as lines or as a JSON
document, and how a run ended.
-/

namespace Ferry

open Text (Json)

/-- A text with spaces after it, up to a width. -/
def Text.padded (width : Nat) (text : String) : String :=
  text ++ String.ofList (List.replicate (width - text.length) ' ')

/-- The line about a program in a list of programs. -/
def Program.line (program : Program) : String :=
  let name := Text.padded 10 program.name
  let defaults := Word.listText program.defaultArguments
  s!"{name} {defaults}  {program.description}\n"

/-- The lines about all programs. -/
def Catalog.report (catalog : Catalog) : String := String.join (catalog.programs.map Program.line)

/-- The line about a frame; the innermost one has the number zero. -/
def Frame.line (number : Nat) (frame : Frame) : String :=
  let locals := Word.listText frame.locals
  let operands := Word.listText frame.operands
  s!"  #{number} {frame.text}  locals={locals} operands={operands}\n"

namespace StoredSnapshot

/-- The lines about an artifact. -/
def report (stored : StoredSnapshot) : String :=
  let snapshot := stored.snapshot
  String.join [
    s!"program:  {stored.program}\n",
    s!"checksum: {stored.checksum.text}\n",
    s!"size:     {stored.size} bytes\n",
    s!"valid:    {snapshot.valid}\n",
    s!"entry:    {functionText snapshot.entry}\n",
    s!"frames:   {snapshot.depth}\n"] ++
    String.join (snapshot.frames.zipIdx.map fun (frame, number) => frame.line number)

end StoredSnapshot

/-- Words as a JSON array. -/
def Word.json (words : List Word) : Json := .array (words.map fun word => .number word.toInt)

/-- A frame as a JSON object. -/
def Frame.json (frame : Frame) : Json := .object [
  ("function_index", .number frame.functionIndex.toNat),
  ("locals", Word.json frame.locals),
  ("operands", Word.json frame.operands),
  ("program_counter", .number frame.programCounter.toNat)]

/-- A snapshot as a JSON object. -/
def Snapshot.json (snapshot : Snapshot) : Json := .object [
  ("entry_function_index", .number snapshot.entry.toNat),
  ("frames", .array (snapshot.frames.map Frame.json)),
  ("valid", .bool snapshot.valid)]

/-- An artifact as a JSON object. -/
def StoredSnapshot.json (stored : StoredSnapshot) : Json := .object [
  ("checksum", .text stored.checksum.text),
  ("program", .text stored.program),
  ("size", .number stored.size),
  ("snapshot", stored.snapshot.json)]

/-- The line about the end of a run. -/
def Exit.line : Exit → String
  | completed results =>
      let results := Word.listText results
      s!"result: {results}\n"
  | finished => "finished on peer\n"
  | exported path => s!"snapshot: {path}\n"
  | aborted => "aborted\n"

end Ferry
