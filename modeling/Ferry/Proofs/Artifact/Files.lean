import Ferry.Host.Basic
import Ferry.Proofs.Artifact.Sealing
import Ferry.Proofs.Except

/-!
# What is written to a file can be read from it

A path that leads to a place goes on leading there as long as no directory vanishes, and neither the
writing of a file nor the move onto its place takes a directory away. So the file that was replaced
holds the bytes that were written, and the artifact in it is the one that was sealed.
-/

namespace Ferry

namespace Directory

variable {directory before after : Directory} {location other : Location}

/-- A place without a name is a directory, whatever the entries are. -/
theorem entry?_outermost (directory : Directory) (outermost : location.names = []) :
    directory.entry? location = some .directory :=
  if_pos outermost

theorem entry?_inner (directory : Directory) (inner : location.names ≠ []) :
    directory.entry? location = directory.entries.lookup location :=
  if_neg inner

theorem entry?_erase_of_ne (directory : Directory) (differs : other ≠ location) :
    Directory.entry? (directory.erase location) other = directory.entry? other := by
  have same : (directory.erase location).entries.lookup other =
      directory.entries.lookup other := by
    rcases directory with ⟨entries⟩
    induction entries with
    | nil => rfl
    | cons entry rest ih =>
        rcases entry with ⟨place, content⟩
        simp only [erase] at ih ⊢
        by_cases erased : place = location
        · have elsewhere : (other == place) = false := by
            rw [erased]
            exact beq_eq_false_iff_ne.mpr differs
          rw [List.filter_cons_of_neg (by simp [erased]), List.lookup_cons, elsewhere]
          exact ih
        · rw [List.filter_cons_of_pos (by simp [erased]), List.lookup_cons, List.lookup_cons, ih]
  by_cases outermost : other.names = []
  · rw [entry?_outermost _ outermost, entry?_outermost _ outermost]
  · rw [entry?_inner _ outermost, entry?_inner _ outermost, same]

theorem entry?_put_of_ne (directory : Directory) (entry : Entry) (differs : other ≠ location) :
    Directory.entry? (directory.put location entry) other = directory.entry? other := by
  have elsewhere : (other == location) = false := beq_eq_false_iff_ne.mpr differs
  rw [← entry?_erase_of_ne directory differs, entry?, entry?, put, List.lookup_cons, elsewhere]

theorem entry?_put_self (directory : Directory) (entry : Entry) (inner : location.names ≠ []) :
    Directory.entry? (directory.put location entry) location = some entry := by
  rw [entry?_inner _ inner, put, List.lookup_cons_self]

theorem entry?_erase_self (directory : Directory) (inner : location.names ≠ []) :
    Directory.entry? (directory.erase location) location = none := by
  rw [entry?_inner _ inner, List.lookup_eq_none_iff]
  intro entry member
  have elsewhere : entry.1 ≠ location := of_decide_eq_true (List.mem_filter.mp member).2
  simp [elsewhere.symm]

/-- Erasing leaves nothing that was not there before. -/
theorem entry?_of_erase {entry : Entry}
    (stands : Directory.entry? (directory.erase location) other = some entry) :
    directory.entry? other = some entry := by
  by_cases differs : other = location
  · subst differs
    by_cases outermost : other.names = []
    · rw [entry?_outermost _ outermost] at stands ⊢
      exact stands
    · rw [entry?_erase_self directory outermost] at stands
      contradiction
  · rw [← stands, entry?_erase_of_ne directory differs]

/-- What is not a directory has a name. -/
theorem names_ne_nil (free : directory.entry? location ≠ some .directory) :
    location.names ≠ [] :=
  fun outermost => free (entry?_outermost directory outermost)

/-- Every directory that was there is still there. -/
def Keeps (before after : Directory) : Prop :=
  ∀ location, before.entry? location = some .directory → after.entry? location = some .directory

theorem Keeps.trans {between : Directory} (first : before.Keeps between)
    (second : between.Keeps after) : before.Keeps after :=
  fun location stands => second location (first location stands)

/-- Where no directory is, anything may change. -/
theorem keeps_of_elsewhere (free : before.entry? location ≠ some .directory)
    (elsewhere : ∀ other, other ≠ location → after.entry? other = before.entry? other) :
    before.Keeps after := by
  intro other stands
  have differs : other ≠ location := by
    rintro rfl
    exact free stands
  rw [elsewhere other differs, stands]

theorem keeps_put {entry : Entry} (free : directory.entry? location ≠ some .directory) :
    directory.Keeps (directory.put location entry) :=
  keeps_of_elsewhere free fun _ => entry?_put_of_ne directory entry

theorem keeps_erase (free : directory.entry? location ≠ some .directory) :
    directory.Keeps (directory.erase location) :=
  keeps_of_elsewhere free fun _ => entry?_erase_of_ne directory

theorem Keeps.walk {here : Location} {components : List String} (keeps : before.Keeps after)
    (leads : before.walk here components = .ok location) :
    after.walk here components = .ok location := by
  induction components generalizing here with
  | nil => exact leads
  | cons component rest ih =>
      rw [Directory.walk] at leads ⊢
      cases stands : before.entry? here with
      | none => simp [stands] at leads
      | some entry =>
          cases entry with
          | file bytes => simp [stands] at leads
          | directory =>
              rw [keeps here stands]
              rw [stands] at leads
              simp only at leads ⊢
              cases stepped : stepTo here component with
              | error refusal => simp [stepped] at leads
              | ok next =>
                  rw [stepped] at leads
                  exact ih leads

/-- A path goes on leading where it led. -/
theorem Keeps.locate {path : String} (keeps : before.Keeps after)
    (leads : before.locate path = .ok location) : after.locate path = .ok location := by
  rw [Directory.locate, follow] at leads ⊢
  split at leads
  · cases leads
  · rename_i nonempty
    split at leads
    · cases leads
    · rename_i fits
      rw [if_neg nonempty, if_neg fits]
      exact keeps.walk leads

theorem read_eq_ok_iff {path : String} {bytes : Bytes} :
    directory.read path = .ok bytes ↔ ∃ location,
      directory.locate path = .ok location ∧ directory.entry? location = some (.file bytes) := by
  rw [Directory.read, bind_eq_ok_iff]
  refine exists_congr fun location => and_congr_right fun _ => ?_
  split <;> simp_all

theorem write_eq_ok_iff {path : String} {bytes : Bytes} :
    directory.write path bytes = .ok after ↔ ∃ location,
      directory.locate path = .ok location ∧ directory.entry? location ≠ some .directory ∧
        after = directory.put location (.file bytes) := by
  rw [Directory.write, bind_eq_ok_iff]
  refine exists_congr fun location => and_congr_right fun _ => ?_
  split <;> simp_all [eq_comm]

theorem rename_eq_ok_iff {source target : String} :
    directory.rename source target = .ok after ↔ ∃ bytes start goal,
      directory.read source = .ok bytes ∧ directory.locate source = .ok start ∧
        directory.locate target = .ok goal ∧ directory.entry? goal ≠ some .directory ∧
          after = (directory.erase start).put goal (.file bytes) := by
  rw [rename, bind_eq_ok_iff]
  refine exists_congr fun bytes => ?_
  constructor
  · rintro ⟨readable, moved⟩
    rcases bind_eq_ok_iff.mp moved with ⟨start, starts, moved⟩
    rcases bind_eq_ok_iff.mp moved with ⟨goal, leads, moved⟩
    split at moved
    · cases moved
    · rename_i free
      cases moved
      exact ⟨start, goal, readable, starts, leads, free, rfl⟩
  · rintro ⟨start, goal, readable, starts, leads, free, rfl⟩
    refine ⟨readable, bind_eq_ok_iff.mpr ⟨start, starts, bind_eq_ok_iff.mpr ⟨goal, leads, ?_⟩⟩⟩
    split
    · contradiction
    · rfl

/-- A file that was written holds what was written to it. -/
theorem read_of_write {path : String} {bytes : Bytes}
    (written : directory.write path bytes = .ok after) : after.read path = .ok bytes := by
  rcases write_eq_ok_iff.mp written with ⟨location, leads, free, rfl⟩
  exact read_eq_ok_iff.mpr ⟨location, (keeps_put free).locate leads,
    entry?_put_self directory _ (names_ne_nil free)⟩

/-- A file that was moved is found where it was moved to. -/
theorem read_of_rename {source target : String} {bytes : Bytes}
    (readable : directory.read source = .ok bytes)
    (moved : directory.rename source target = .ok after) : after.read target = .ok bytes := by
  rcases rename_eq_ok_iff.mp moved with ⟨_, start, goal, same, starts, leads, free, rfl⟩
  rw [readable] at same
  cases same
  rcases read_eq_ok_iff.mp readable with ⟨location, starts', stands⟩
  rw [starts] at starts'
  cases starts'
  have keeps : directory.Keeps ((directory.erase start).put goal (.file bytes)) :=
    (keeps_erase (by simp [stands])).trans (keeps_put fun other => free (entry?_of_erase other))
  exact read_eq_ok_iff.mpr ⟨goal, keeps.locate leads,
    entry?_put_self _ _ (names_ne_nil free)⟩

end Directory

namespace SnapshotFile

variable {directory after : Directory} {path : String}

/-- A file that was replaced holds the new bytes. -/
theorem read_of_replace {bytes : Bytes}
    (replaced : replace directory path bytes = (.ok (), after)) : after.read path = .ok bytes := by
  rw [replace] at replaced
  split at replaced
  · cases replaced
  · rename_i written isWritten
    split at replaced
    · rename_i renamed isRenamed
      cases replaced
      exact Directory.read_of_rename (Directory.read_of_write isWritten) isRenamed
    · cases replaced

/-- A file takes all bytes that one wants to keep in it. -/
def Stores (directory : Directory) (path : String) : Prop :=
  ∀ bytes, ∃ after, replace directory path bytes = (.ok (), after)

theorem Stores.write (stores : Stores directory path) (program : String) (snapshot : Snapshot) :
    ∃ size after, SnapshotFile.write directory path program snapshot = (.ok size, after) := by
  obtain ⟨after, replaced⟩ := stores (Envelope.ofSnapshot program snapshot).toBytes
  exact ⟨_, after, by rw [SnapshotFile.write, replaced]⟩

theorem read_eq_ok_iff {stored : StoredSnapshot} :
    read directory path = .ok stored ↔
      ∃ bytes, directory.read path = .ok bytes ∧ StoredSnapshot.ofBytes? bytes = .ok stored := by
  rw [read]
  cases directory.read path with
  | error refusal => simp
  | ok bytes =>
      cases opened : StoredSnapshot.ofBytes? bytes <;> simp [opened]

/-- The artifact that was written to a file is read from it as it was sealed. -/
theorem read_of_write {program : String} {snapshot : Snapshot} {size : Nat}
    (wellFormed : snapshot.WellFormed)
    (short : (Envelope.ofSnapshot program snapshot).toBytes.length < UInt64.size)
    (written : write directory path program snapshot = (.ok size, after)) :
    read after path = .ok ⟨program, .of snapshot.encode, size, snapshot⟩ := by
  rw [write] at written
  split at written
  · rename_i replaced
    cases written
    rw [read, read_of_replace replaced]
    simp only [StoredSnapshot.ofBytes?_ofSnapshot wellFormed short]
  · cases written

end SnapshotFile

/-- A host starts from the snapshot in an artifact of its program, or from the beginning if that is not
valid. -/
theorem Host.loadInitial_eq_of_read {config : Config} {directory : Directory} {path : String}
    {stored : StoredSnapshot} (source : config.fromSnapshot = some path)
    (readable : SnapshotFile.read directory path = .ok stored)
    (program : stored.program = config.program.name) :
    loadInitial config directory = .ok ((some stored.snapshot).filter (·.valid)) := by
  have admitted := StoredSnapshot.ensureProgram_eq_ok_iff.mpr program.symm
  simp [loadInitial, source, readable, admitted, bind, Except.bind]

theorem Host.loadInitial_of_read {config : Config} {directory : Directory} {path : String}
    {stored : StoredSnapshot} (source : config.fromSnapshot = some path)
    (readable : SnapshotFile.read directory path = .ok stored)
    (program : stored.program = config.program.name) (valid : stored.snapshot.valid = true) :
    loadInitial config directory = .ok (some stored.snapshot) := by
  rw [loadInitial_eq_of_read source readable program, Option.filter_some, if_pos valid]

end Ferry
