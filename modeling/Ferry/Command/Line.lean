import Ferry.Command.Grammar
import Ferry.Config
import Ferry.Text.Decimal

/-!
# The command line

There are three commands: one runs a program, one shows what an artifact holds, and one lists the
programs. What is said about the log may stand before the command or after it.
-/

namespace Ferry.Command

/-- The form of the lines of the log. -/
inductive LogFormat where
  | text
  | json
  deriving DecidableEq, Repr

/-- The format that a word names. -/
def LogFormat.ofText? (text : String) : Option LogFormat :=
  if text = "text" then some .text
  else if text = "json" then some .json
  else none

/-- What an option says. -/
inductive Setting where
  | quiet
  | logFormat (format : LogFormat)
  | asJson
  | program (name : String)
  | argument (value : Word)
  | mode (text : String)
  | peer (address : String)
  | listen (address : String)
  | manual
  | snapshotAfter (milliseconds : Nat)
  | stepAll
  | fromSnapshot (path : String)
  | exportOnly
  | exportPath (path : String)
  | startImmediately
  | transportTimeout (milliseconds : Nat)
  | finishGrace (milliseconds : Nat)
  deriving DecidableEq, Repr

/-- What the operator asks for. -/
inductive Job where
  /-- Runs a program. -/
  | run (options : Options)
  /-- Shows what an artifact holds. -/
  | inspect (path : String) (asJson : Bool)
  /-- Lists the programs. -/
  | programs
  deriving DecidableEq, Repr

/-- A command line that follows the grammar. -/
structure Line where
  job : Job
  /-- Whether only warnings and errors are logged. -/
  quiet : Bool := false
  logFormat : LogFormat := .text
  deriving DecidableEq, Repr

/-- The options of a run after one more option of the command line. -/
def Setting.amend (options : Options) : Setting → Options
  | program name => { options with program := name }
  | argument value => { options with arguments := options.arguments ++ [value] }
  | mode text => { options with mode := text }
  | peer address => { options with peer := some address }
  | listen address => { options with listen := some address }
  | manual => { options with trigger := { options.trigger with manual := true } }
  | snapshotAfter milliseconds =>
      { options with trigger := { options.trigger with timeout := some milliseconds } }
  | stepAll => { options with trigger := { options.trigger with stepAll := true } }
  | fromSnapshot path => { options with fromSnapshot := some path }
  | exportOnly => { options with exportOnly := true }
  | exportPath path => { options with exportPath := some path }
  | startImmediately => { options with startImmediately := true }
  | transportTimeout milliseconds => { options with transportTimeout := some milliseconds }
  | finishGrace milliseconds => { options with finishGrace := some milliseconds }
  | quiet | logFormat _ | asJson => options

/-- The line after one more option about the log. -/
def Setting.amendLog (line : Line) : Setting → Line
  | quiet => { line with quiet := true }
  | logFormat format => { line with logFormat := format }
  | _ => line

/-- A setting by any text. -/
def byText (setting : String → Setting) : Effect Setting := .read fun text => some (setting text)

/-- A setting by a path, which cannot be empty. -/
def byPath (setting : String → Setting) : Effect Setting :=
  .read fun text => if text = "" then none else some (setting text)

/-- A setting by a number of milliseconds, which has at most 64 bits. -/
def byMilliseconds (setting : Nat → Setting) : Effect Setting :=
  .read fun text => (Text.unsigned? UInt64.size text.toList).map setting

/-- A setting by a word. -/
def byWord (setting : Word → Setting) : Effect Setting :=
  .read fun text => (Word.ofText? text).map setting

/-- The options that every level has. -/
def commonSwitches : List (Switch Setting) := [
  { name := "help", letter := some 'h', effect := .help },
  { name := "quiet", letter := some 'q', effect := .set .quiet },
  { name := "log-format"
    effect := .read fun text => (LogFormat.ofText? text).map .logFormat }]

/-- The options of a run. -/
def runSwitches : List (Switch Setting) := [
  { name := "program", letter := some 'p', effect := byText .program },
  { name := "arg", effect := byWord .argument, repeatable := true, anyValue := true },
  { name := "mode", effect := byText .mode },
  { name := "peer", effect := byText .peer },
  { name := "listen", effect := byText .listen },
  { name := "interactive", letter := some 'i', otherName := some "manual", effect := .set .manual },
  { name := "snapshot-ms", effect := byMilliseconds .snapshotAfter },
  { name := "all", effect := .set .stepAll },
  { name := "from-snapshot", effect := byPath .fromSnapshot },
  { name := "export", effect := .set .exportOnly },
  { name := "export-path", effect := byPath .exportPath },
  { name := "start", effect := .set .startImmediately },
  { name := "timeout-ms", effect := byMilliseconds .transportTimeout },
  { name := "finish-grace-ms", effect := byMilliseconds .finishGrace }]

/-- The options of an inspection. -/
def inspectSwitches : List (Switch Setting) := [{ name := "json", effect := .set .asJson }]

/-- The words that name a command. -/
inductive Verb where
  | run
  | inspect
  | programs
  deriving DecidableEq, Repr

namespace Verb

/-- The word for a command. -/
def name : Verb → String
  | run => "run"
  | inspect => "inspect"
  | programs => "programs"

/-- All of them. -/
def all : List Verb := [run, inspect, programs]

/-- The command that a word names. -/
def ofName? (name : String) : Option Verb := all.find? fun verb => verb.name == name

/-- The words after a command. -/
def level : Verb → Level Setting
  | run => { switches := commonSwitches ++ runSwitches }
  | inspect => { switches := commonSwitches ++ inspectSwitches, places := 1 }
  | programs => { switches := commonSwitches }

/-- What the operator asks for, after what was read of the words that follow the command. -/
def job (settings : List Setting) (words : List String) : Verb → Except Stop Job
  | run => .ok (.run (settings.foldl Setting.amend {}))
  | inspect =>
      match words with
      | [path] => .ok (.inspect path (settings.contains .asJson))
      | _ => .error (.misuse "the path of an artifact is missing")
  | programs => .ok .programs

end Verb

/-- The word that asks for help. -/
def helpWord : String := "help"

/-- The words before a command. -/
def outerLevel : Level Setting where
  switches := { name := "version", letter := some 'V', effect := .version } :: commonSwitches
  commands := helpWord :: Verb.all.map Verb.name

/-- Help about a command, if there is one with that name. -/
def helpAbout : List String → Stop
  | [] => .help
  | [name] => if outerLevel.commands.contains name then .help else .misuse s!"no command {name}"
  | _ :: name :: _ => .misuse s!"no command {name}"

/-- The line whose command is read from the words that follow its name. -/
def Line.ofVerb? (outer : Reading Setting) (verb : Verb) (rest : List String) :
    Except Stop Line := do
  let (inner, _) ← verb.level.read {} rest
  let inner ← inner.settle
  let outer ← outer.settle
  let settings := inner.given.map (·.2)
  let job ← verb.job settings inner.words
  .ok ((outer.given.map (·.2) ++ settings).foldl Setting.amendLog { job })

/-- The line that words make, or the reason why they make none. -/
def Line.ofWords? (words : List String) : Except Stop Line := do
  match ← outerLevel.read {} words with
  | (outer, []) =>
      let _ ← outer.settle
      .error (.misuse "a command is missing")
  | (outer, name :: rest) =>
      match Verb.ofName? name with
      | some verb => Line.ofVerb? outer verb rest
      | none => .error (helpAbout rest)

end Ferry.Command
