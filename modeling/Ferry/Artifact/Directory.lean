import Ferry.Bytes

/-!
# Directories

A directory holds files and further directories under names. Paths are texts: names separated by
slashes, where a single dot stays, two dots lead to the enclosing directory, and only directories
can be walked through. A path that begins with a slash starts at the outermost directory, any other
at the directory one works in. A path of more than 4095 bytes leads nowhere. Files appear, are
replaced and vanish as a whole.
-/

namespace Ferry

namespace Path

/-- The components of a path: what stands between its slashes. -/
def split : List Char → List (List Char)
  | [] => [[]]
  | c :: rest =>
      if c = '/' then [] :: split rest
      else
        match split rest with
        | [] => [[c]]
        | first :: others => (c :: first) :: others

/-- The components of a path. -/
def components (path : String) : List String := (split path.toList).map String.ofList

/-- The components that spell a path, joined again. -/
def ofComponents (components : List String) : String := "/".intercalate components

/-- Whether a component stays where it is. -/
def stays (component : String) : Bool := component == "" || component == "."

/-- The components of a path, last one first, without those at its end that stay. -/
def reversed (path : String) : List String := (components path).reverse.dropWhile stays

/-- The name of what a path leads to, if its last component is a name. -/
def fileName? (path : String) : Option String :=
  match reversed path with
  | last :: _ => if last = ".." then none else some last
  | [] => none

/-- The components of a path, last one first, without those that stay at its end; the component
with which the path begins is never left out. -/
def trimmed : List String → List String
  | [] => []
  | [first] => [first]
  | last :: outer => if stays last then trimmed outer else last :: outer

/-- The path of a name in the directory to which a path leads. -/
def push (path name : String) : String :=
  if path = "" || path.endsWith "/" then path ++ name else path ++ "/" ++ name

/-- The path of another name in the directory that the path leads into; a path without a name of
its own is taken for that directory. -/
def withName (path name : String) : String :=
  match reversed path with
  | [] => push path name
  | last :: outer =>
      if last = ".." then push path name
      else ofComponents (name :: trimmed outer).reverse

/-- The components of a path without the slashes at its end. -/
def unslashed (path : String) : List String :=
  ((components path).reverse.dropWhile (· == "")).reverse

/-- A path has at most 4095 bytes. -/
def maxLength : Nat := 4095

end Path

/-- The directory from which the way to a place leads down. -/
inductive Anchor where
  /-- The directory that many steps outward from the working directory. -/
  | working (steps : Nat)
  /-- The outermost directory. -/
  | root
  deriving DecidableEq, Repr

/-- The enclosing directory; nothing encloses the outermost one. -/
def Anchor.parent : Anchor → Anchor
  | working steps => working (steps + 1)
  | root => root

/-- A place in the tree of directories. -/
structure Location where
  anchor : Anchor := .working 0
  /-- The names on the way down, last one first. -/
  names : List String := []
  deriving DecidableEq, Repr

namespace Location

/-- The place with a name inside a directory. -/
def child (location : Location) (name : String) : Location :=
  { location with names := name :: location.names }

/-- The enclosing directory. -/
def parent (location : Location) : Location :=
  match location.names with
  | [] => { location with anchor := location.anchor.parent }
  | _ :: outer => { location with names := outer }

/-- A path that leads to a place. -/
def path (location : Location) : String :=
  let start := match location.anchor with
    | .working steps => String.join (List.replicate steps "../")
    | .root => "/"
  start ++ Path.ofComponents location.names.reverse

end Location

/-- What stands at a place. -/
inductive Entry where
  | file (bytes : Bytes)
  | directory
  deriving DecidableEq, Repr

/-- The files and directories that there are. The working directory and those that enclose it need
no entry. -/
structure Directory where
  entries : List (Location × Entry) := []
  deriving Repr

namespace Directory

/-- Why an operation on files is refused. -/
inductive Refusal where
  | missing
  | notDirectory
  | isDirectory
  | alreadyThere
  | badName
  | tooLong
  deriving DecidableEq, Repr

/-- The description of a refusal. -/
def Refusal.message : Refusal → String
  | missing => "no such file or directory"
  | notDirectory => "not a directory"
  | isDirectory => "is a directory"
  | alreadyThere => "file exists"
  | badName => "unsuitable file name"
  | tooLong => "path too long"

/-- What stands at a place. -/
def entry? (directory : Directory) (location : Location) : Option Entry :=
  if location.names = [] then some .directory else directory.entries.lookup location

/-- Empties a place. -/
def erase (directory : Directory) (location : Location) : Directory :=
  ⟨directory.entries.filter fun entry => entry.1 ≠ location⟩

/-- Puts an entry at a place. -/
def put (directory : Directory) (location : Location) (entry : Entry) : Directory :=
  ⟨(location, entry) :: (directory.erase location).entries⟩

/-- A name has at most 255 bytes and no null character. -/
def suitable (name : String) : Bool :=
  (Bytes.ofText name).length ≤ 255 && !name.toList.contains (Char.ofNat 0)

/-- The place that one component leads to. -/
def stepTo (here : Location) (component : String) : Except Refusal Location :=
  if Path.stays component then .ok here
  else if component = ".." then .ok here.parent
  else if suitable component then .ok (here.child component)
  else .error .badName

/-- Follows components; what stands at the last place does not matter, and the places before it
must be directories. -/
def walk (directory : Directory) (here : Location) : List String → Except Refusal Location
  | [] => .ok here
  | component :: rest =>
      match directory.entry? here with
      | none => .error .missing
      | some (.file _) => .error .notDirectory
      | some .directory =>
          match stepTo here component with
          | .error refusal => .error refusal
          | .ok next => walk directory next rest

/-- The directory at which a path starts. -/
def origin (path : String) : Location :=
  if path.toList.head? = some '/' then { anchor := .root } else {}

/-- The place that a path leads to when the given ones are taken for its components. The empty path
leads nowhere, and neither does one that is too long. -/
def follow (directory : Directory) (path : String) (components : List String) :
    Except Refusal Location :=
  if path = "" then .error .missing
  else if Path.maxLength < (Bytes.ofText path).length then .error .tooLong
  else directory.walk (origin path) components

/-- The place that a path leads to. -/
def locate (directory : Directory) (path : String) : Except Refusal Location :=
  directory.follow path (Path.components path)

/-- The contents of a file. -/
def read (directory : Directory) (path : String) : Except Refusal Bytes := do
  let location ← directory.locate path
  match directory.entry? location with
  | none => .error .missing
  | some .directory => .error .isDirectory
  | some (.file bytes) => .ok bytes

/-- Whether a path leads to a file. -/
def isFile (directory : Directory) (path : String) : Bool :=
  match directory.read path with
  | .ok _ => true
  | .error _ => false

/-- Writes a file, in place of one that is there already. -/
def write (directory : Directory) (path : String) (bytes : Bytes) : Except Refusal Directory := do
  let location ← directory.locate path
  match directory.entry? location with
  | some .directory => .error .isDirectory
  | _ => .ok (directory.put location (.file bytes))

/-- Moves a file, in place of one that is there already. -/
def rename (directory : Directory) (source target : String) : Except Refusal Directory := do
  let bytes ← directory.read source
  let start ← directory.locate source
  let goal ← directory.locate target
  match directory.entry? goal with
  | some .directory => .error .isDirectory
  | _ => .ok ((directory.erase start).put goal (.file bytes))

/-- Removes a file. -/
def remove (directory : Directory) (path : String) : Except Refusal Directory := do
  let _ ← directory.read path
  let location ← directory.locate path
  .ok (directory.erase location)

/-- Makes a directory where nothing is. Slashes at the end of its path do not matter. -/
def makeDirectory (directory : Directory) (path : String) : Except Refusal Directory := do
  let location ← directory.follow path (Path.unslashed path)
  match directory.entry? location with
  | some _ => .error .alreadyThere
  | none => .ok (directory.put location .directory)

/-- The names in the working directory, in order. -/
def names (directory : Directory) : List String :=
  (directory.entries.filterMap fun entry =>
    match entry.1 with
    | ⟨.working 0, [name]⟩ => some name
    | _ => none).mergeSort (· ≤ ·)

/-- The places on the way from a place along components, with the paths that lead there; `text` is
the path so far. -/
def stationsFrom (text : String) (here : Location) : List String → List (String × Location)
  | [] => []
  | component :: rest =>
      match stepTo here component with
      | .error _ => []
      | .ok next =>
          (text ++ component, next) :: stationsFrom (text ++ component ++ "/") next rest

/-- The places on the way along a path, with the paths that lead there. -/
def stations (path : String) : List (String × Location) :=
  stationsFrom "" (origin path) (Path.components path)

/-- The files that are new or have changed, by their paths. -/
def changes (before after : Directory) : List (String × Bytes) :=
  after.entries.filterMap fun (location, entry) =>
    match entry with
    | .file bytes =>
        if before.entry? location = some (.file bytes) then none
        else some (location.path, bytes)
    | .directory => none

end Directory

end Ferry
