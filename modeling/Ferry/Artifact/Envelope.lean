import Ferry.Artifact.Digest
import Ferry.Snapshot.Bytes
import Ferry.Text.Quoted

/-!
# Artifacts

An artifact is a sealed snapshot: four bytes that mark it, then an envelope with a format version,
the name of the program that was running, the digest of the payload, and the payload, which is the
bytes of the snapshot. Reading an artifact judges its form; opening it judges the digest first and
then the payload.
-/

namespace Ferry

/-- A snapshot under seal. -/
structure Envelope where
  /-- The version of the format. -/
  formatVersion : UInt32
  /-- The name of the program that was running. -/
  program : String
  /-- The digest of the payload. -/
  checksum : Digest
  /-- The bytes of the snapshot. -/
  payload : Bytes
  deriving DecidableEq, Repr

instance : Wire Envelope where
  write envelope :=
    Wire.write envelope.formatVersion ++ Wire.write envelope.program ++
      envelope.checksum.bytes ++ Wire.write envelope.payload
  read :=
    (Wire.read (α := UInt32)).andThen fun formatVersion =>
    (Wire.read (α := String)).andThen fun program =>
    (FixedBytes.readRaw 32).andThen fun checksum =>
    Wire.Reader.map (fun payload => ⟨formatVersion, program, checksum, payload⟩)
      (Wire.read (α := Bytes))

namespace Envelope

/-- The bytes that every artifact begins with. -/
def magic : Bytes := [0x53, 0x4B, 0x49, 0x46]

/-- The format version that this library writes and reads. -/
def currentVersion : UInt32 := 1

/-- What is wrong with an artifact. -/
inductive Defect where
  /-- It does not begin with the mark of an artifact. -/
  | badMagic
  /-- It is written in another format version. -/
  | unsupportedVersion (found : UInt32)
  /-- Its payload has another digest than the recorded one. -/
  | checksumMismatch (recorded computed : Digest)
  /-- Its envelope or its payload cannot be read. -/
  | malformed (reason : String)
  deriving DecidableEq, Repr

namespace Defect

/-- The description of a defect. -/
def message : Defect → String
  | badMagic => "not a snapshot artifact (bad magic)"
  | unsupportedVersion found => s!"unsupported artifact format version {found.toNat}"
  | checksumMismatch recorded computed =>
      s!"checksum mismatch: recorded {recorded.text}, computed {computed.text}"
  | malformed reason => s!"malformed artifact: {reason}"

/-- A defect of an artifact is a failure to read a snapshot. -/
def toFailure (defect : Defect) : Failure := .deserialization defect.message

end Defect

/-- Seals a snapshot. -/
def ofSnapshot (program : String) (snapshot : Snapshot) : Envelope :=
  ⟨currentVersion, program, .of snapshot.encode, snapshot.encode⟩

/-- The snapshot under the seal. -/
def snapshot? (envelope : Envelope) : Except Defect Snapshot :=
  let computed := Digest.of envelope.payload
  if computed ≠ envelope.checksum then
    .error (.checksumMismatch envelope.checksum computed)
  else
    match Snapshot.decode envelope.payload with
    | .ok snapshot => .ok snapshot
    | .error failure => .error (.malformed failure.message)

/-- The bytes of an artifact. -/
def toBytes (envelope : Envelope) : Bytes := magic ++ Wire.write envelope

/-- The envelope of an artifact. The version is judged last. -/
def ofBytes? (bytes : Bytes) : Except Defect Envelope :=
  if ¬ magic.isPrefixOf bytes then .error .badMagic
  else
    match Wire.decode (α := Envelope) (bytes.drop magic.length) with
    | .error (.malformed cause) => .error (.malformed cause.message)
    | .error (.trailing count) => .error (.malformed s!"{count} trailing bytes after envelope")
    | .ok envelope =>
        if envelope.formatVersion ≠ currentVersion then
          .error (.unsupportedVersion envelope.formatVersion)
        else .ok envelope

end Envelope

/-- What an artifact says, once it has been read and opened. -/
structure StoredSnapshot where
  /-- The name of the program that was running. -/
  program : String
  /-- The recorded digest. -/
  checksum : Digest
  /-- The number of bytes of the artifact. -/
  size : Nat
  snapshot : Snapshot
  deriving DecidableEq, Repr

namespace StoredSnapshot

/-- Reads and opens an artifact. -/
def ofBytes? (bytes : Bytes) : Except Envelope.Defect StoredSnapshot :=
  match Envelope.ofBytes? bytes with
  | .error defect => .error defect
  | .ok envelope =>
      match envelope.snapshot? with
      | .error defect => .error defect
      | .ok snapshot => .ok ⟨envelope.program, envelope.checksum, bytes.length, snapshot⟩

/-- Refuses a snapshot of another program. -/
def ensureProgram (stored : StoredSnapshot) (program : String) : Except Failure Unit :=
  if stored.program ≠ program then
    .error (.configuration ("snapshot was captured from program " ++
      s!"{Text.quoted stored.program}, not {Text.quoted program}"))
  else .ok ()

end StoredSnapshot

end Ferry
