import Ferry.Proofs.Artifact.Format
import Ferry.Proofs.Artifact.Siblings

/-!
# Artifacts are written as a whole or not at all

The replacement of a file ends in one of three ways: the temporary file is moved to its place, it could
not be written, or it is withdrawn because it could not be moved. No directory appears or vanishes in
any of them, so every path leads where it led before, and what stands elsewhere is left alone by one
replacement and by any number of them.
-/

namespace Ferry

namespace Directory

variable {directory before between after : Directory} {location : Location} {path : String}

/-- The same directories stand before and after. -/
structure SameWays (before after : Directory) : Prop where
  kept : before.Keeps after
  fresh : after.Keeps before

theorem SameWays.refl (directory : Directory) : directory.SameWays directory :=
  ⟨fun _ stands => stands, fun _ stands => stands⟩

theorem SameWays.trans (first : before.SameWays between) (second : between.SameWays after) :
    before.SameWays after :=
  ⟨first.kept.trans second.kept, second.fresh.trans first.fresh⟩

theorem SameWays.locate_eq_ok_iff (same : before.SameWays after) :
    after.locate path = .ok location ↔ before.locate path = .ok location :=
  ⟨same.fresh.locate, same.kept.locate⟩

theorem SameWays.isDirectory_iff (same : before.SameWays after) :
    after.entry? location = some .directory ↔ before.entry? location = some .directory :=
  ⟨same.fresh location, same.kept location⟩

theorem sameWays_put_file (bytes : Bytes) (free : directory.entry? location ≠ some .directory) :
    directory.SameWays (directory.put location (.file bytes)) := by
  have stands := entry?_put_self directory (.file bytes) (names_ne_nil free)
  refine ⟨keeps_put free, @keeps_of_elsewhere _ _ location (by simp [stands]) ?_⟩
  exact fun other differs => (entry?_put_of_ne directory _ differs).symm

theorem sameWays_erase (free : directory.entry? location ≠ some .directory) :
    directory.SameWays (directory.erase location) :=
  ⟨keeps_erase free, fun _ => entry?_of_erase⟩

theorem remove_eq_ok_iff :
    directory.remove path = .ok after ↔ ∃ bytes,
      directory.read path = .ok bytes ∧ ∃ location,
        directory.locate path = .ok location ∧ after = directory.erase location := by
  rw [remove, bind_eq_ok_iff]
  refine exists_congr fun bytes => and_congr_right fun _ => ?_
  rw [bind_eq_ok_iff]
  refine exists_congr fun location => and_congr_right fun _ => ?_
  rw [Except.ok.injEq, eq_comm]

/-- A file can be written under a path if it leads to a place where no directory is. -/
def Writable (directory : Directory) (path : String) : Prop :=
  ∃ location, directory.locate path = .ok location ∧ directory.entry? location ≠ some .directory

theorem SameWays.writable_iff (same : before.SameWays after) :
    after.Writable path ↔ before.Writable path := by
  refine exists_congr fun location => and_congr same.locate_eq_ok_iff ?_
  rw [Ne, same.isDirectory_iff]

theorem isFile_eq_false_iff :
    directory.isFile path = false ↔ ∀ location bytes, directory.locate path = .ok location →
      directory.entry? location ≠ some (.file bytes) := by
  rw [isFile]
  constructor
  · intro unread location bytes leads stands
    rw [read_eq_ok_iff.mpr ⟨location, leads, stands⟩] at unread
    contradiction
  · intro none
    cases readable : directory.read path with
    | error refusal => rfl
    | ok bytes =>
        obtain ⟨location, leads, stands⟩ := read_eq_ok_iff.mp readable
        exact absurd stands (none location bytes leads)

end Directory

namespace SnapshotFile

open Directory

variable {directory after : Directory} {path : String} {bytes : Bytes}
  {outcome : Except Directory.Refusal Unit} {place : Location}

/-- The directory after a file has been put under its temporary name and taken away from there. -/
def cleared (directory : Directory) (start : Location) (bytes : Bytes) : Directory :=
  (directory.put start (.file bytes)).erase start

/-- The ways in which the replacement of a file can end. -/
inductive Replaced (directory : Directory) (path : String) (bytes : Bytes) :
    Except Directory.Refusal Unit → Directory → Prop where
  /-- The temporary file is moved to its place. -/
  | moved {start goal : Location} (starts : directory.locate (temporaryPath path) = .ok start)
      (start_free : directory.entry? start ≠ some .directory)
      (leads : directory.locate path = .ok goal)
      (goal_free : directory.entry? goal ≠ some .directory) :
      Replaced directory path bytes (.ok ())
        ((cleared directory start bytes).put goal (.file bytes))
  /-- The temporary file cannot be written. -/
  | unwritten {refusal : Directory.Refusal} (blocked : ¬ directory.Writable (temporaryPath path)) :
      Replaced directory path bytes (.error refusal) directory
  /-- The temporary file cannot be moved and is removed. -/
  | withdrawn {start : Location} {refusal : Directory.Refusal}
      (starts : directory.locate (temporaryPath path) = .ok start)
      (start_free : directory.entry? start ≠ some .directory)
      (blocked : ¬ directory.Writable path) :
      Replaced directory path bytes (.error refusal) (cleared directory start bytes)

/-- Every replacement ends in one of these ways. -/
theorem replaced (directory : Directory) (path : String) (bytes : Bytes) :
    Replaced directory path bytes (replace directory path bytes).1
      (replace directory path bytes).2 := by
  rw [replace]
  cases written : directory.write (temporaryPath path) bytes with
  | error refusal =>
      refine .unwritten ?_
      rintro ⟨start, starts, start_free⟩
      rw [write_eq_ok_iff.mpr ⟨start, starts, start_free, rfl⟩] at written
      cases written
  | ok between =>
      obtain ⟨start, starts, start_free, rfl⟩ := write_eq_ok_iff.mp written
      have same := sameWays_put_file bytes start_free
      have readable := Directory.read_of_write written
      have still := same.locate_eq_ok_iff.mpr starts
      cases renamed : (directory.put start (.file bytes)).rename (temporaryPath path) path with
      | ok after =>
          obtain ⟨content, start', goal, readable', still', leads, goal_free, rfl⟩ :=
            rename_eq_ok_iff.mp renamed
          cases readable.symm.trans readable'
          cases still.symm.trans still'
          simp only [renamed]
          exact .moved starts start_free (same.locate_eq_ok_iff.mp leads)
            (mt same.isDirectory_iff.mpr goal_free)
      | error refusal =>
          have removed := remove_eq_ok_iff.mpr ⟨bytes, readable, start, still, rfl⟩
          simp only [renamed, removed, Except.toOption, Option.getD_some]
          refine .withdrawn starts start_free ?_
          rw [← same.writable_iff]
          rintro ⟨goal, leads, goal_free⟩
          rw [rename_eq_ok_iff.mpr ⟨bytes, start, goal, readable, still, leads, goal_free, rfl⟩]
            at renamed
          cases renamed

theorem sameWays_cleared {start : Location} (bytes : Bytes)
    (free : directory.entry? start ≠ some .directory) :
    directory.SameWays (cleared directory start bytes) := by
  refine (sameWays_put_file bytes free).trans (sameWays_erase ?_)
  rw [entry?_put_self _ _ (names_ne_nil free)]
  nofun

theorem entry?_cleared_of_ne {start : Location} (differs : place ≠ start) :
    Directory.entry? (cleared directory start bytes) place = directory.entry? place := by
  rw [cleared, entry?_erase_of_ne _ differs, entry?_put_of_ne _ _ differs]

/-- No directory appears or vanishes in a replacement. -/
theorem Replaced.sameWays (replaced : Replaced directory path bytes outcome after) :
    directory.SameWays after := by
  cases replaced with
  | moved starts start_free leads goal_free =>
      have same := sameWays_cleared bytes start_free
      exact same.trans (sameWays_put_file bytes (mt same.isDirectory_iff.mp goal_free))
  | unwritten blocked => exact .refl directory
  | withdrawn starts start_free blocked => exact sameWays_cleared bytes start_free

/-- Only the file and the temporary one beside it change. -/
theorem Replaced.elsewhere (replaced : Replaced directory path bytes outcome after)
    (off_target : directory.locate path ≠ .ok place)
    (off_temporary : directory.locate (temporaryPath path) ≠ .ok place) :
    after.entry? place = directory.entry? place := by
  have differs : ∀ {path other}, directory.locate path = .ok other →
      directory.locate path ≠ .ok place → place ≠ other := by
    rintro path other leads off rfl
    exact off leads
  cases replaced with
  | moved starts start_free leads goal_free =>
      rw [entry?_put_of_ne _ _ (differs leads off_target),
        entry?_cleared_of_ne (differs starts off_temporary)]
  | unwritten blocked => rfl
  | withdrawn starts start_free blocked =>
      exact entry?_cleared_of_ne (differs starts off_temporary)

/-- No temporary file is left. -/
theorem Replaced.no_temporary (replaced : Replaced directory path bytes outcome after) :
    after.isFile (temporaryPath path) = false := by
  rw [isFile_eq_false_iff]
  intro start content starts'
  rw [replaced.sameWays.locate_eq_ok_iff] at starts'
  cases replaced with
  | moved starts start_free leads goal_free =>
      cases starts.symm.trans starts'
      rw [entry?_put_of_ne _ _ (temporary_ne leads goal_free starts), cleared,
        entry?_erase_self _ (names_ne_nil start_free)]
      nofun
  | unwritten blocked =>
      intro stands
      refine blocked ⟨start, starts', ?_⟩
      rw [stands]
      nofun
  | withdrawn starts start_free blocked =>
      cases starts.symm.trans starts'
      rw [cleared, entry?_erase_self _ (names_ne_nil start_free)]
      nofun

/-- A file that was replaced holds what was written. -/
theorem Replaced.holds (replaced : Replaced directory path bytes (.ok ()) after) :
    ∃ place, directory.locate path = .ok place ∧ after.entry? place = some (.file bytes) := by
  cases replaced with
  | moved starts start_free leads goal_free =>
      exact ⟨_, leads, entry?_put_self _ _ (names_ne_nil goal_free)⟩

/-- A file that was not replaced is as it was. -/
theorem Replaced.unchanged {refusal : Directory.Refusal}
    (replaced : Replaced directory path bytes (.error refusal) after)
    (leads : directory.locate path = .ok place) :
    after.entry? place = directory.entry? place := by
  cases replaced with
  | unwritten blocked => rfl
  | withdrawn starts start_free blocked =>
      refine entry?_cleared_of_ne ?_
      rintro rfl
      exact blocked ⟨_, leads, start_free⟩

/-- A file is replaced if nothing but files stand in the way. -/
theorem Replaced.succeeds_iff (replaced : Replaced directory path bytes outcome after) :
    outcome = .ok () ↔ directory.Writable (temporaryPath path) ∧ directory.Writable path := by
  cases replaced with
  | moved starts start_free leads goal_free =>
      exact iff_of_true rfl ⟨⟨_, starts, start_free⟩, ⟨_, leads, goal_free⟩⟩
  | unwritten blocked => exact iff_of_false nofun fun writable => blocked writable.1
  | withdrawn starts start_free blocked =>
      exact iff_of_false nofun fun writable => blocked writable.2

/-- An artifact that is to be written to a file. -/
structure Writing where
  path : String
  program : String
  snapshot : Snapshot

namespace Writing

variable {writing : Writing} {before : Directory}

/-- The bytes of the artifact. -/
def artifact (writing : Writing) : Bytes :=
  (Envelope.ofSnapshot writing.program writing.snapshot).toBytes

/-- Writes the artifact. -/
def perform (directory : Directory) (writing : Writing) : Except Failure Nat × Directory :=
  write directory writing.path writing.program writing.snapshot

theorem perform_eq (directory : Directory) (writing : Writing) :
    perform directory writing =
      match replace directory writing.path writing.artifact with
      | (.ok (), after) => (.ok writing.artifact.length, after)
      | (.error refusal, after) => (.error (.io writing.path refusal.message), after) := rfl

/-- An artifact is written by the replacement of its file, and how that ends is what is reported. -/
theorem perform_cases (directory : Directory) (writing : Writing) :
    (∃ after, Replaced directory writing.path writing.artifact (.ok ()) after ∧
      perform directory writing = (.ok writing.artifact.length, after)) ∨
    ∃ refusal after, Replaced directory writing.path writing.artifact (.error refusal) after ∧
      perform directory writing = (.error (.io writing.path refusal.message), after) := by
  have replaced := replaced directory writing.path writing.artifact
  rw [perform_eq]
  generalize replace directory writing.path writing.artifact = result at replaced ⊢
  rcases result with ⟨outcome, after⟩
  cases outcome with
  | ok _ => exact .inl ⟨after, replaced, rfl⟩
  | error refusal => exact .inr ⟨refusal, after, replaced, rfl⟩

theorem perform_replaced (directory : Directory) (writing : Writing) :
    ∃ outcome, Replaced directory writing.path writing.artifact outcome
      (perform directory writing).2 := by
  rcases perform_cases directory writing with ⟨after, replaced, eq⟩ | ⟨refusal, after, replaced, eq⟩
  all_goals
    rw [eq]
    exact ⟨_, replaced⟩

/-- Neither the file nor the temporary one beside it is the file to which another path leads. -/
def Spares (writing : Writing) (directory : Directory) (path : String) : Prop :=
  ∀ place, directory.locate path = .ok place →
    directory.locate writing.path ≠ .ok place ∧
      directory.locate (temporaryPath writing.path) ≠ .ok place

theorem Spares.congr (spares : writing.Spares directory path) (same : directory.SameWays after) :
    writing.Spares after path := by
  intro place leads
  rw [Ne, Ne, same.locate_eq_ok_iff, same.locate_eq_ok_iff]
  exact spares place (same.locate_eq_ok_iff.mp leads)

/-- A plain name is spared if it is neither the name nor the temporary name of the file. -/
theorem spares_of_plain {name : String} (directory : Directory) (plain : Path.Plain name)
    (other : Path.Plain writing.path) (differs : writing.path ≠ name)
    (unlike : temporaryName writing.path ≠ name) : writing.Spares directory name := by
  intro place leads
  cases (locate_of_plain plain).symm.trans leads
  constructor
  · intro clash
    exact differs (Option.some.inj (head?_of_endsIn other.endsIn clash)).symm
  · intro clash
    have ends := endsIn_temporaryPath other.endsIn
    exact unlike (Option.some.inj (head?_of_endsIn ends clash)).symm

/-- Writes artifacts one after the other, whether or not they can be written. -/
def performAll (directory : Directory) (writings : List Writing) : Directory :=
  writings.foldl (fun directory writing => (perform directory writing).2) directory

/-- Many writings leave a file alone that each of them spares. -/
theorem performAll_spares {writings : List Writing} (leads : directory.locate path = .ok place)
    (spared : ∀ writing ∈ writings, writing.Spares directory path) :
    (performAll directory writings).locate path = .ok place ∧
      Directory.entry? (performAll directory writings) place = directory.entry? place := by
  induction writings generalizing directory with
  | nil => exact ⟨leads, rfl⟩
  | cons writing writings ih =>
      obtain ⟨outcome, replaced⟩ := perform_replaced directory writing
      obtain ⟨first, others⟩ := List.forall_mem_cons.mp spared
      have same := replaced.sameWays
      have rest := ih (same.locate_eq_ok_iff.mpr leads) fun writing member =>
        (others writing member).congr same
      obtain ⟨off_target, off_temporary⟩ := first place leads
      rw [replaced.elsewhere off_target off_temporary] at rest
      exact rest

/-- What the artifact is read back as. -/
def readBack (writing : Writing) : Except Failure StoredSnapshot :=
  match writing.snapshot.check with
  | .ok () => .ok ⟨writing.program, .of writing.snapshot.encode, writing.artifact.length,
      writing.snapshot⟩
  | .error failure => .error (.deserialization s!"malformed artifact: {failure.message}")

/-- The artifact in a file is read back if its snapshot is well formed. -/
theorem read_of_holds (leads : directory.locate path = .ok place)
    (holds : directory.entry? place = some (.file writing.artifact))
    (short : writing.artifact.length < UInt64.size) :
    SnapshotFile.read directory path = writing.readBack := by
  have countable := Envelope.countable_of_length short
  rw [SnapshotFile.read, Directory.read_eq_ok_iff.mpr ⟨place, leads, holds⟩, readBack, artifact]
  cases sound : writing.snapshot.check with
  | ok _ =>
      simp only [(StoredSnapshot.ofBytes?_ofSnapshot_eq_ok_iff countable).mpr ⟨sound, rfl⟩]
  | error failure =>
      simp only [StoredSnapshot.ofBytes?_ofSnapshot_of_unsound countable sound]
      rfl

/-- What holds when an artifact is written, whatever stands in the directories: the file is replaced as
a whole or is as it was. -/
structure AllOrNothing (writing : Writing) (before : Directory)
    (result : Except Failure Nat × Directory) : Prop where
  /-- The file that is written is the whole artifact, and its size is given. -/
  whole : ∀ size, result.1 = .ok size → size = writing.artifact.length ∧
    ∃ place, before.locate writing.path = .ok place ∧
      Directory.entry? result.2 place = some (.file writing.artifact)
  /-- A failure names the path, and what stands there has not changed. -/
  nothing : ∀ failure, result.1 = .error failure →
    (∃ reason, failure = .io writing.path reason) ∧
      ∀ place, before.locate writing.path = .ok place →
        Directory.entry? result.2 place = before.entry? place
  /-- It is written if neither of the two files is kept from being written. -/
  possible : (∃ size, result.1 = .ok size) ↔
    before.Writable (temporaryPath writing.path) ∧ before.Writable writing.path
  /-- No temporary file is left. -/
  no_temporary : result.2.isFile (temporaryPath writing.path) = false
  /-- Nothing else has changed. -/
  elsewhere : ∀ place, before.locate writing.path ≠ .ok place →
    before.locate (temporaryPath writing.path) ≠ .ok place →
      Directory.entry? result.2 place = before.entry? place
  /-- Every path leads where it led. -/
  ways : ∀ path place, result.2.locate path = .ok place ↔ before.locate path = .ok place
  /-- An artifact that is written is read back, also after others are written that spare it. -/
  rereads : ∀ size later, result.1 = .ok size → size < UInt64.size →
    (∀ other ∈ later, Spares other before writing.path) →
      SnapshotFile.read (performAll result.2 later) writing.path = writing.readBack

theorem perform_allOrNothing (before : Directory) (writing : Writing) :
    writing.AllOrNothing before (perform before writing) := by
  rcases perform_cases before writing with ⟨after, replaced, eq⟩ | ⟨refusal, after, replaced, eq⟩
  all_goals
    rw [eq]
    have same := replaced.sameWays
    constructor
    case no_temporary => exact replaced.no_temporary
    case elsewhere => exact fun place => replaced.elsewhere
    case ways => exact fun path place => same.locate_eq_ok_iff
  case inl.whole =>
    rintro size ⟨⟩
    exact ⟨rfl, replaced.holds⟩
  case inl.nothing => nofun
  case inl.possible => exact iff_of_true ⟨_, rfl⟩ (replaced.succeeds_iff.mp rfl)
  case inl.rereads =>
    rintro size later ⟨⟩ short spared
    obtain ⟨place, leads, holds⟩ := replaced.holds
    obtain ⟨still, unchanged⟩ := performAll_spares (same.locate_eq_ok_iff.mpr leads)
      fun other member => (spared other member).congr same
    exact read_of_holds still (unchanged.trans holds) short
  case inr.whole => nofun
  case inr.nothing =>
    rintro failure ⟨⟩
    exact ⟨⟨_, rfl⟩, fun place => replaced.unchanged⟩
  case inr.possible => exact iff_of_false nofun (mt replaced.succeeds_iff.mpr nofun)
  case inr.rereads => nofun

end Writing

/-- An artifact is written as a whole or not at all, and is read back until its file is written again. In
one directory plain names stand for themselves, and so do their temporary names; a name is spared by
the writing of another whose temporary name it is not. -/
theorem write_allOrNothing (directory : Directory) (path program : String) (snapshot : Snapshot) :
    Writing.AllOrNothing ⟨path, program, snapshot⟩ directory (write directory path program snapshot) ∧
    (Path.Plain path → directory.locate path = .ok (named path) ∧
      temporaryPath path = temporaryName path ∧
      ∀ other : Writing, Path.Plain other.path → other.path ≠ path →
        temporaryName other.path ≠ path → other.Spares directory path) := by
  refine ⟨Writing.perform_allOrNothing directory ⟨path, program, snapshot⟩, fun plain => ?_⟩
  refine ⟨locate_of_plain plain, temporaryPath_of_plain plain, fun other others differs unlike => ?_⟩
  exact Writing.spares_of_plain directory plain others differs unlike

/-- A working directory with a directory in it and a file left under a temporary name. -/
def cluttered : Directory := ⟨[(named "d", .directory), (named ".a.tmp", .file [9])]⟩

/-- An artifact is read back after a writing that is refused and one to its own temporary name; the
refusal names the path. -/
theorem write_allOrNothing_cluttered :
    Path.Plain "a" ∧
    (∃ size, (write cluttered "a" "fib" ⟨false, [], 0⟩).1 = .ok size ∧
      read (Writing.performAll (write cluttered "a" "fib" ⟨false, [], 0⟩).2
        [⟨"d", "fib", ⟨true, [], 0⟩⟩, ⟨".a.tmp", "sum", ⟨false, [], 0⟩⟩]) "a" =
        .ok ⟨"fib", .of (Snapshot.encode ⟨false, [], 0⟩), size, ⟨false, [], 0⟩⟩) ∧
    ∃ reason, (write cluttered "d" "fib" ⟨true, [], 0⟩).1 = .error (.io "d" reason) := by
  have plain : Path.Plain "a" := ⟨by decide, by decide, by decide, by decide, by decide⟩
  have plain_d : Path.Plain "d" := ⟨by decide, by decide, by decide, by decide, by decide⟩
  have plain_temporary : Path.Plain ".a.tmp" :=
    ⟨by decide, by decide, by decide, by decide, by decide⟩
  obtain ⟨written, places⟩ := write_allOrNothing cluttered "a" "fib" ⟨false, [], 0⟩
  obtain ⟨leads, temporary, spared⟩ := places plain
  refine ⟨plain, ?_, ?_⟩
  · have free : cluttered.Writable "a" := ⟨named "a", leads, by decide⟩
    have temporary_free : cluttered.Writable (temporaryPath "a") := by
      rw [temporary]
      exact ⟨named ".a.tmp", locate_of_plain plain_temporary, by decide⟩
    obtain ⟨size, successful⟩ := written.possible.mpr ⟨temporary_free, free⟩
    have short : size < UInt64.size := by
      rw [(written.whole size successful).1]
      decide +kernel
    refine ⟨size, successful, ?_⟩
    have reread := written.rereads size _ successful short (List.forall_mem_cons.mpr
      ⟨spared ⟨"d", "fib", ⟨true, [], 0⟩⟩ plain_d (by decide) (by decide),
        List.forall_mem_singleton.mpr
          (spared ⟨".a.tmp", "sum", ⟨false, [], 0⟩⟩ plain_temporary (by decide) (by decide))⟩)
    rw [reread, (written.whole size successful).1]
    rfl
  · obtain ⟨blocked, -⟩ := write_allOrNothing cluttered "d" "fib" ⟨true, [], 0⟩
    cases ended : (write cluttered "d" "fib" ⟨true, [], 0⟩).1 with
    | ok size =>
        obtain ⟨-, place, leads', free⟩ := blocked.possible.mp ⟨size, ended⟩
        cases (locate_of_plain plain_d).symm.trans leads'
        exact absurd rfl free
    | error failure =>
        obtain ⟨⟨reason, rfl⟩, -⟩ := blocked.nothing failure ended
        exact ⟨reason, rfl⟩

end SnapshotFile

end Ferry
