/-!
# Grammar of command lines

A command line is a list of words. A word that begins with a hyphen names options: by a long name
after two hyphens, perhaps with an equals sign and a value, or by letters after one hyphen, the last
of which may be followed by its value. An option that takes a value and has none attached to it gets
the next word. Two hyphens alone end the options. All other words are commands or stand by
themselves.

A level of the grammar says which options, which commands and how many words of their own there may
be. Reading stops at the first command. The value of an option is judged when the next option or
word is met, or at the end; the first thing that is wrong decides.
-/

namespace Ferry.Command

/-- Why a command line leads to no command. -/
inductive Stop where
  /-- The operator asks how the program is used. -/
  | help
  /-- The operator asks for the version of the program. -/
  | version
  /-- The command line does not follow the grammar. -/
  | misuse (reason : String)
  deriving DecidableEq, Repr

/-- What an option does. -/
inductive Effect (σ : Type) where
  /-- It says something by itself. -/
  | set (setting : σ)
  /-- It says something by its value, if that is suitable. -/
  | read (setting? : String → Option σ)
  | help
  | version

/-- An option of a command line. -/
structure Switch (σ : Type) where
  /-- Its long name. -/
  name : String
  effect : Effect σ
  /-- The letter that names it too. -/
  letter : Option Char := none
  /-- Another long name. -/
  otherName : Option String := none
  /-- Whether it may be given more than once. -/
  repeatable : Bool := false
  /-- Whether the next word is its value even if that begins with a hyphen. -/
  anyValue : Bool := false

/-- An option that waits for its value, or for the value to be judged. -/
structure Pending (σ : Type) where
  switch : Switch σ
  setting? : String → Option σ
  value : Option String := none

/-- What has been read of a command line. -/
structure Reading (σ : Type) where
  /-- What the options said, in order, with their names. -/
  given : List (String × σ) := []
  /-- The words that stand by themselves. -/
  words : List String := []
  pending : Option (Pending σ) := none
  /-- Whether the options have come to their end. -/
  escaped : Bool := false

/-- A level of the grammar. -/
structure Level (σ : Type) where
  switches : List (Switch σ)
  /-- The commands at which reading stops. -/
  commands : List String := []
  /-- How many words may stand by themselves. -/
  places : Nat := 0

/-- What a word looks like. -/
inductive Token where
  /-- The end of the options. -/
  | escape
  /-- A long name, perhaps with a value. -/
  | long (name : String) (value : Option String)
  /-- The letters after a hyphen. -/
  | letters (letters : List Char)
  | plain
  deriving DecidableEq, Repr

/-- What a word looks like; a hyphen alone looks like any word. -/
def Token.ofWord (word : String) : Token :=
  match word.toList with
  | ['-', '-'] => escape
  | '-' :: '-' :: rest =>
      let name := String.ofList (rest.takeWhile (· != '='))
      match rest.dropWhile (· != '=') with
      | [] => long name none
      | _ :: value => long name (some (String.ofList value))
  | '-' :: c :: rest => letters (c :: rest)
  | _ => plain

variable {σ : Type}

namespace Reading

/-- Records what an option said. -/
def record (reading : Reading σ) (switch : Switch σ) (setting : σ) : Except Stop (Reading σ) :=
  if !switch.repeatable && reading.given.any (·.1 == switch.name) then
    .error (.misuse s!"--{switch.name} cannot be given more than once")
  else .ok { reading with given := reading.given ++ [(switch.name, setting)] }

/-- Judges the value of an option. -/
def judge (reading : Reading σ) (switch : Switch σ) (setting? : String → Option σ)
    (value : String) : Except Stop (Reading σ) :=
  match setting? value with
  | none => .error (.misuse s!"unsuitable value for --{switch.name}")
  | some setting => reading.record switch setting

/-- Judges the value of the option that is pending. -/
def settle (reading : Reading σ) : Except Stop (Reading σ) :=
  match reading.pending with
  | none => .ok reading
  | some ⟨switch, _, none⟩ => .error (.misuse s!"--{switch.name} needs a value")
  | some ⟨switch, setting?, some value⟩ =>
      { reading with pending := none }.judge switch setting? value

/-- Whether an option waits for its value. -/
def awaits (reading : Reading σ) : Bool :=
  match reading.pending with
  | some pending => pending.value.isNone
  | none => false

/-- Whether an option waits for a value that may begin with a hyphen. -/
def awaitsAny (reading : Reading σ) : Bool :=
  match reading.pending with
  | some pending => pending.value.isNone && pending.switch.anyValue
  | none => false

/-- Gives a value to the option that waits for it. -/
def supply (reading : Reading σ) (value : String) : Reading σ :=
  { reading with pending := reading.pending.map fun pending => { pending with value } }

/-- Takes notice of an option, with the value that is attached to it. -/
def meet (reading : Reading σ) (switch : Switch σ) (attached : Option String) :
    Except Stop (Reading σ) :=
  match reading.settle with
  | .error stop => .error stop
  | .ok settled =>
      match switch.effect, attached with
      | .set setting, none => settled.record switch setting
      | .read setting?, none => .ok { settled with pending := some ⟨switch, setting?, none⟩ }
      | .read setting?, some value => settled.judge switch setting? value
      | .help, none => .error .help
      | .version, none => .error .version
      | _, some _ => .error (.misuse s!"--{switch.name} takes no value")

end Reading

namespace Level

/-- The option with a long name. -/
def ofName? (level : Level σ) (name : String) : Option (Switch σ) :=
  level.switches.find? fun switch => switch.name == name || switch.otherName == some name

/-- The option with a letter. -/
def ofLetter? (level : Level σ) (letter : Char) : Option (Switch σ) :=
  level.switches.find? fun switch => switch.letter == some letter

/-- What follows a letter as its value, perhaps after an equals sign. -/
def attachedValue : List Char → Option String
  | [] => none
  | '=' :: value => some (String.ofList value)
  | value => some (String.ofList value)

/-- Takes notice of options that are named by letters. -/
def letters (level : Level σ) : Reading σ → List Char → Except Stop (Reading σ)
  | reading, [] => .ok reading
  | reading, letter :: rest =>
      match level.ofLetter? letter with
      | none => .error (.misuse s!"unknown option -{letter}")
      | some switch =>
          match switch.effect with
          | .read _ => reading.meet switch (attachedValue rest)
          | _ =>
              match reading.meet switch none with
              | .error stop => .error stop
              | .ok next => level.letters next rest

/-- Takes notice of a word that stands by itself. -/
def place (level : Level σ) (reading : Reading σ) (word : String) : Except Stop (Reading σ) :=
  match reading.settle with
  | .error stop => .error stop
  | .ok settled =>
      if word = "" ∨ level.places ≤ settled.words.length then
        .error (.misuse s!"unexpected word {word}")
      else .ok { settled with words := settled.words ++ [word] }

/-- Takes notice of a word that is no command. -/
def word (level : Level σ) (reading : Reading σ) (word : String) : Except Stop (Reading σ) :=
  if reading.escaped then level.place reading word
  else if reading.awaitsAny then .ok (reading.supply word)
  else
    match Token.ofWord word with
    | .escape => .ok { reading with escaped := true }
    | .long name value =>
        match level.ofName? name with
        | none => .error (.misuse s!"unknown option --{name}")
        | some switch => reading.meet switch value
    | .letters letters => level.letters reading letters
    | .plain => if reading.awaits then .ok (reading.supply word) else level.place reading word

/-- Whether reading stops at a word because it is a command. -/
def stopsAt (level : Level σ) (reading : Reading σ) (word : String) : Bool :=
  !reading.escaped && !reading.awaits && level.commands.contains word

/-- Reads words up to the first command, which is returned with what follows it. -/
def read (level : Level σ) : Reading σ → List String → Except Stop (Reading σ × List String)
  | reading, [] => .ok (reading, [])
  | reading, word :: rest =>
      if level.stopsAt reading word then .ok (reading, word :: rest)
      else
        match level.word reading word with
        | .error stop => .error stop
        | .ok next => level.read next rest

end Level

end Ferry.Command
