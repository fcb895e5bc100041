import Ferry.Snapshot.Basic
import Ferry.Wire.Basic

/-!
# Snapshots as bytes

The wire form of a snapshot is its mark of validity, its frames and its entry function; that of a
frame is its program counter, its function, its locals and its operands. Decoding takes a byte
sequence as a whole: it refuses malformed bytes, bytes left over, and snapshots that are not well
formed, in this order.
-/

namespace Ferry

instance : Wire Frame where
  write frame :=
    Wire.write frame.programCounter ++ Wire.write frame.functionIndex ++
      Wire.write frame.locals ++ Wire.write frame.operands
  read :=
    (Wire.read (α := UInt32)).andThen fun programCounter =>
    (Wire.read (α := UInt32)).andThen fun functionIndex =>
    (Wire.read (α := List Word)).andThen fun locals =>
    Wire.Reader.map (fun operands => ⟨programCounter, functionIndex, locals, operands⟩)
      (Wire.read (α := List Word))

instance : Wire Snapshot where
  write snapshot :=
    Wire.write snapshot.valid ++ Wire.write snapshot.frames ++ Wire.write snapshot.entry
  read :=
    (Wire.read (α := Bool)).andThen fun valid =>
    (Wire.read (α := List Frame)).andThen fun frames =>
    Wire.Reader.map (fun entry => ⟨valid, frames, entry⟩) (Wire.read (α := UInt32))

namespace Snapshot

/-- The bytes of a snapshot. -/
def encode (snapshot : Snapshot) : Bytes := Wire.write snapshot

/-- The well-formed snapshot that the bytes spell. -/
def decode (bytes : Bytes) : Except Failure Snapshot :=
  match Wire.decode (α := Snapshot) bytes with
  | .error (.malformed cause) => .error (.deserialization cause.message)
  | .error (.trailing count) =>
      .error (.deserialization s!"{count} trailing bytes after snapshot")
  | .ok snapshot =>
      match snapshot.check with
      | .ok () => .ok snapshot
      | .error failure => .error failure

end Snapshot

end Ferry
