import Ferry.Proofs.Artifact.Sealing
import Ferry.Proofs.Except
import Ferry.Proofs.Snapshot.Format
import Ferry.Proofs.Wire.Measured

/-!
# The format of artifacts

Behind its mark an artifact spells an envelope: a version, and contents that have the layout of the
current version. An artifact is read exactly if it does so and the version is the current one. Of all
artifacts with the same envelope the written one is the only shortest. The snapshot under the seal
has a format of its own, which is judged after the digest.
-/

namespace Ferry

namespace Wire

/-- The bytes spell what follows the version in an envelope: the name of a program, a digest and a
payload. -/
inductive SpellsContents : Bytes → String → Digest → Bytes → Prop where
  | intro {name content : Bytes} {program : String} {checksum : Digest} {payload : Bytes}
      (spells_program : SpellsText name program) (spells_payload : Measured content payload) :
      SpellsContents (name ++ (checksum.bytes ++ content)) program checksum payload

/-- The bytes spell an envelope: its version and its contents. -/
inductive SpellsEnvelope : Bytes → Envelope → Prop where
  | intro {version contents : Bytes} {formatVersion : UInt32} {program : String}
      {checksum : Digest} {payload : Bytes} (spells_version : SpellsUInt32 version formatVersion)
      (spells_contents : SpellsContents contents program checksum payload) :
      SpellsEnvelope (version ++ contents) ⟨formatVersion, program, checksum, payload⟩

theorem exact_envelope : Exact (Wire.read (α := Envelope)) SpellsEnvelope := by
  refine (exact_uint32.andThen fun formatVersion => exact_string.andThen fun program =>
    (exact_readRaw 32).andThen fun checksum =>
      exact_bytes.map (Envelope.mk formatVersion program checksum)).congr fun bytes envelope => ?_
  constructor
  · rintro ⟨_, _, _, rfl, version, _, _, _, rfl, name, _, _, _, rfl, rfl, _, content, rfl⟩
    exact .intro version (.intro name content)
  · rintro ⟨version, ⟨name, content⟩⟩
    exact ⟨_, _, _, rfl, version, _, _, _, rfl, name, _, _, _, rfl, rfl, _, content, rfl⟩

variable {bytes : Bytes} {envelope : Envelope}

theorem SpellsEnvelope.trims (spells : SpellsEnvelope bytes envelope) :
    Trims (Wire.write envelope) bytes := by
  cases spells with
  | @intro _ _ _ _ checksum payload version contents =>
      cases contents with
      | intro name content =>
          have digest : Trims checksum.bytes checksum.bytes := .inl rfl
          have trims := version.trims.append (name.trims.append (digest.append content.trims))
          rw [← write_bytes payload, ← List.append_assoc, ← List.append_assoc] at trims
          exact trims

end Wire

namespace Envelope

open Wire

variable {envelope : Envelope}

theorem countable_of_spells {bytes : Bytes} (spells : SpellsEnvelope bytes envelope) :
    envelope.Countable := by
  rcases spells with ⟨-, ⟨name, content⟩⟩
  exact ⟨name.length_lt, content.length_lt⟩

/-- An artifact is read if its mark is followed by what spells an envelope of the current version. -/
theorem ofBytes?_eq_ok_iff {bytes : Bytes} :
    ofBytes? bytes = .ok envelope ↔ ∃ body, bytes = magic ++ body ∧
      SpellsEnvelope body envelope ∧ envelope.formatVersion = currentVersion := by
  constructor
  · intro read
    by_cases marked : magic.isPrefixOf bytes = true
    · obtain ⟨body, rfl⟩ := List.isPrefixOf_iff_prefix.mp marked
      refine ⟨body, rfl, ?_⟩
      cases decoded : Wire.decode (α := Envelope) body with
      | error error =>
          obtain ⟨reason, unread⟩ := ofBytes?_of_malformed decoded
          rw [unread] at read
          cases read
      | ok other =>
          rw [ofBytes?_of_decode decoded] at read
          split at read
          · rename_i current
            cases read
            exact ⟨exact_envelope.decode_eq_ok_iff.mp decoded, current⟩
          · cases read
    · rw [ofBytes?, if_pos marked] at read
      cases read
  · rintro ⟨body, rfl, spells, current⟩
    rw [ofBytes?_of_decode (exact_envelope.decode_eq_ok_iff.mpr spells), if_pos current]

theorem spells_write (countable : envelope.Countable) :
    SpellsEnvelope (Wire.write envelope) envelope :=
  exact_envelope.decode_eq_ok_iff.mp (Wire.decode_write countable.readsBack)

/-- What follows an envelope is left over. -/
theorem ofBytes?_of_extended {body more : Bytes} (spells : SpellsEnvelope body envelope)
    (some_more : more ≠ []) :
    ofBytes? (magic ++ (body ++ more)) =
      .error (.malformed s!"{more.length} trailing bytes after envelope") := by
  have taken : Wire.read (body ++ more) = .ok (envelope, more) :=
    (exact_envelope _ _ _).mpr ⟨body, spells, rfl⟩
  rw [ofBytes?, magic_isPrefixOf, List.drop_left, Wire.decode_eq_trailing taken some_more]
  rfl

/-- What an artifact is read as is written no longer than it was. -/
theorem trims_of_read {bytes : Bytes} (read : ofBytes? bytes = .ok envelope) :
    Trims envelope.toBytes bytes := by
  obtain ⟨body, rfl, spells, -⟩ := ofBytes?_eq_ok_iff.mp read
  have mark : Trims magic magic := .inl rfl
  exact mark.append spells.trims

/-- The seal is broken if the payload has another digest, whatever else is wrong with it. -/
theorem snapshot?_of_mismatch (mismatch : envelope.checksum ≠ .of envelope.payload) :
    envelope.snapshot? = .error (.checksumMismatch envelope.checksum (.of envelope.payload)) := by
  rw [snapshot?, if_pos (Ne.symm mismatch)]

/-- Under an intact seal is what the payload decodes to. -/
theorem snapshot?_of_intact (intact : envelope.checksum = .of envelope.payload) :
    envelope.snapshot? =
      (Snapshot.decode envelope.payload).mapError fun failure => .malformed failure.message := by
  rw [snapshot?, if_neg (Decidable.not_not.mpr intact.symm)]
  cases Snapshot.decode envelope.payload <;> rfl

theorem snapshot?_eq_ok_iff {snapshot : Snapshot} :
    envelope.snapshot? = .ok snapshot ↔
      envelope.checksum = .of envelope.payload ∧
        Snapshot.decode envelope.payload = .ok snapshot := by
  by_cases intact : envelope.checksum = .of envelope.payload
  · rw [snapshot?_of_intact intact, mapError_eq_ok_iff]
    exact (and_iff_right intact).symm
  · simp [snapshot?_of_mismatch intact, intact]

/-- The seal of a snapshot is intact, so opening it comes down to the check of the snapshot. -/
theorem snapshot?_ofSnapshot_eq_check {program : String} {snapshot : Snapshot}
    (countable : snapshot.Countable) :
    (ofSnapshot program snapshot).snapshot? =
      match snapshot.check with
      | .ok () => .ok snapshot
      | .error failure => .error (.malformed failure.message) := by
  have decoded : Snapshot.decode (ofSnapshot program snapshot).payload =
      snapshot.check.map fun _ => snapshot := Snapshot.decode_encode_eq_check countable
  rw [snapshot?_of_intact rfl, decoded]
  cases snapshot.check <;> rfl

/-- An envelope comes back from its bytes if it has the current version, and is refused for its version
otherwise. What bytes are read as comes back from its own bytes, which are no more, and fewer if they
are others. A snapshot comes back from under its seal if it is well formed, and is refused as malformed
otherwise. A seal opens exactly if the digest is that of the payload and the payload decodes; the
digest is judged first. The lengths in what is written have 64 bits, as those of all sequences in
memory have. -/
theorem layers_exact :
    (∀ envelope : Envelope, envelope.Countable →
      (envelope.formatVersion = currentVersion → ofBytes? envelope.toBytes = .ok envelope) ∧
      (envelope.formatVersion ≠ currentVersion →
        ofBytes? envelope.toBytes = .error (.unsupportedVersion envelope.formatVersion))) ∧
    (∀ bytes envelope, ofBytes? bytes = .ok envelope →
      ofBytes? envelope.toBytes = .ok envelope ∧ envelope.toBytes.length ≤ bytes.length ∧
        (bytes ≠ envelope.toBytes → envelope.toBytes.length < bytes.length)) ∧
    (∀ program snapshot, snapshot.Countable →
      (snapshot.check = .ok () → (ofSnapshot program snapshot).snapshot? = .ok snapshot) ∧
      ∀ failure, snapshot.check = .error failure →
        (ofSnapshot program snapshot).snapshot? = .error (.malformed failure.message)) ∧
    ∀ envelope : Envelope,
      (∀ snapshot, envelope.snapshot? = .ok snapshot ↔
        envelope.checksum = .of envelope.payload ∧
          Snapshot.decode envelope.payload = .ok snapshot) ∧
      (envelope.checksum ≠ .of envelope.payload →
        envelope.snapshot? = .error (.checksumMismatch envelope.checksum (.of envelope.payload))) ∧
      ∀ failure, envelope.checksum = .of envelope.payload →
        Snapshot.decode envelope.payload = .error failure →
        envelope.snapshot? = .error (.malformed failure.message) := by
  refine ⟨?_, ?_, ?_, ?_⟩
  · intro envelope countable
    have read := ofBytes?_of_decode (Wire.decode_write countable.readsBack)
    constructor
    · intro current
      rw [toBytes, read, if_pos current]
    · intro foreign
      rw [toBytes, read, if_neg foreign]
  · intro bytes envelope read
    obtain ⟨_, -, spells, current⟩ := ofBytes?_eq_ok_iff.mp read
    have trims := trims_of_read read
    exact ⟨ofBytes?_toBytes (countable_of_spells spells) current, trims.length_le,
      fun differs => trims.resolve_left differs.symm⟩
  · intro program snapshot countable
    rw [snapshot?_ofSnapshot_eq_check countable]
    constructor
    · intro sound
      rw [sound]
    · intro failure unsound
      rw [unsound]
  · intro envelope
    refine ⟨fun snapshot => snapshot?_eq_ok_iff, snapshot?_of_mismatch, ?_⟩
    intro failure intact undecoded
    rw [snapshot?_of_intact intact, undecoded]
    rfl

/-- An artifact that is padded in three places is longer than it must be, one of version 300
is refused for its version, a valid snapshot without frames as malformed, and a payload that does not
decode for its digest. -/
theorem layers_exact_padded :
    (ofBytes? (magic ++ ([129, 0, 131, 0, 102, 195, 173] ++ List.replicate 32 0 ++ [129, 0, 0])) =
        .ok ⟨1, "fí", ⟨List.replicate 32 0, rfl⟩, [0]⟩ ∧
      (toBytes ⟨1, "fí", ⟨List.replicate 32 0, rfl⟩, [0]⟩).length < 46) ∧
    (Countable ⟨300, "fí", ⟨List.replicate 32 0, rfl⟩, [0]⟩ ∧
      ofBytes? (toBytes ⟨300, "fí", ⟨List.replicate 32 0, rfl⟩, [0]⟩) =
        .error (.unsupportedVersion 300)) ∧
    (Snapshot.Countable ⟨true, [], 0⟩ ∧
      (ofSnapshot "fí" ⟨true, [], 0⟩).snapshot? =
        .error (.malformed (Failure.deserialization "valid snapshot without frames").message)) ∧
    snapshot? ⟨1, "fí", ⟨List.replicate 32 0, rfl⟩, [0]⟩ =
      .error (.checksumMismatch ⟨List.replicate 32 0, rfl⟩ (.of [0])) := by
  obtain ⟨written, read, sealed, opened⟩ := layers_exact
  have padded : ofBytes? (magic ++ ([129, 0, 131, 0, 102, 195, 173] ++ List.replicate 32 0 ++
      [129, 0, 0])) = .ok ⟨1, "fí", ⟨List.replicate 32 0, rfl⟩, [0]⟩ := rfl
  have countable : Countable ⟨300, "fí", ⟨List.replicate 32 0, rfl⟩, [0]⟩ := ⟨by decide, by decide⟩
  have stray : Snapshot.Countable ⟨true, [], 0⟩ := ⟨by decide, nofun⟩
  refine ⟨⟨padded, ?_⟩, ⟨countable, (written _ countable).2 (by decide)⟩,
    ⟨stray, (sealed "fí" _ stray).2 _ rfl⟩, (opened _).2.1 ?_⟩
  · exact (read _ _ padded).2.2 (by decide +kernel)
  · intro same
    have first_bytes := congrArg (fun digest : Digest => digest.bytes.head?) same
    exact absurd first_bytes (by decide +kernel)

end Envelope

namespace StoredSnapshot

variable {program : String} {snapshot : Snapshot}

/-- The artifact of a snapshot is opened to what was sealed, exactly if the snapshot is well
formed. -/
theorem ofBytes?_ofSnapshot_eq_ok_iff {stored : StoredSnapshot}
    (countable : (Envelope.ofSnapshot program snapshot).Countable) :
    ofBytes? (Envelope.ofSnapshot program snapshot).toBytes = .ok stored ↔
      snapshot.check = .ok () ∧ stored = ⟨program, .of snapshot.encode,
        (Envelope.ofSnapshot program snapshot).toBytes.length, snapshot⟩ := by
  have inner : snapshot.Countable := Snapshot.countable_of_length countable.payload
  rw [ofBytes?, Envelope.ofBytes?_toBytes countable rfl]
  simp only [Envelope.snapshot?_ofSnapshot_eq_check inner]
  cases sound : snapshot.check with
  | error failure => simp
  | ok _ =>
      simp only [Except.ok.injEq, true_and]
      exact eq_comm

theorem ofBytes?_ofSnapshot_of_unsound {failure : Failure}
    (countable : (Envelope.ofSnapshot program snapshot).Countable)
    (unsound : snapshot.check = .error failure) :
    ofBytes? (Envelope.ofSnapshot program snapshot).toBytes =
      .error (.malformed failure.message) := by
  have inner : snapshot.Countable := Snapshot.countable_of_length countable.payload
  rw [ofBytes?, Envelope.ofBytes?_toBytes countable rfl]
  simp only [Envelope.snapshot?_ofSnapshot_eq_check inner, unsound]

end StoredSnapshot

end Ferry
