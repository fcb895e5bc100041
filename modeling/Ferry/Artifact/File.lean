import Ferry.Artifact.Directory
import Ferry.Artifact.Envelope

/-!
# Artifact files

A snapshot is kept in a file as an artifact. Writing is all or nothing: the artifact is first
written under a temporary name beside the target and then moved onto it, and when either fails the
temporary file is removed and the target is as it was.
-/

namespace Ferry.SnapshotFile

/-- The path under which an artifact is written before it is moved to its place. -/
def temporaryPath (path : String) : String :=
  let name := (Path.fileName? path).getD "snapshot"
  Path.withName path s!".{name}.tmp"

/-- Writes a file under its temporary name and moves it to its place. The directory is returned in
either case: a move that fails has cost a file that stood under the temporary name before, while a
write that fails leaves nothing behind. -/
def replace (directory : Directory) (path : String) (bytes : Bytes) :
    Except Directory.Refusal Unit × Directory :=
  let temporary := temporaryPath path
  match directory.write temporary bytes with
  | .error refusal => (.error refusal, directory)
  | .ok written =>
      match written.rename temporary path with
      | .ok renamed => (.ok (), renamed)
      | .error refusal => (.error refusal, (written.remove temporary).toOption.getD written)

/-- Writes the artifact of a snapshot and gives its size. -/
def write (directory : Directory) (path program : String) (snapshot : Snapshot) :
    Except Failure Nat × Directory :=
  let bytes := (Envelope.ofSnapshot program snapshot).toBytes
  match replace directory path bytes with
  | (.ok (), after) => (.ok bytes.length, after)
  | (.error refusal, after) => (.error (.io path refusal.message), after)

/-- Reads and opens the artifact in a file. -/
def read (directory : Directory) (path : String) : Except Failure StoredSnapshot :=
  match directory.read path with
  | .error refusal => .error (.io path refusal.message)
  | .ok bytes =>
      match StoredSnapshot.ofBytes? bytes with
      | .error defect => .error defect.toFailure
      | .ok stored => .ok stored

end Ferry.SnapshotFile
