import Ferry.Proofs.Artifact.Format

/-!
# Damaged artifacts are refused

An artifact that is cut off, that something follows, or whose payload is changed, is not read. A cut
inside the mark is found as such, any other cut and anything that follows as a malformation, because
envelopes delimit themselves. Changed bytes in the payload shift nothing, so that they are found by
the digest, unless the changed payload happens to have the same one.
-/

namespace Ferry

namespace Envelope

variable {envelope : Envelope}

/-- What stands in an artifact before the bytes of the payload. -/
def beforePayload (envelope : Envelope) : Bytes :=
  magic ++ (Wire.write envelope.formatVersion ++ Wire.write envelope.program ++
    envelope.checksum.bytes ++ Wire.writeNumber envelope.payload.length)

/-- The payload is the last field of an artifact. A payload of the same length stands at the same
place. -/
theorem toBytes_of_payload {payload : Bytes} (same : payload.length = envelope.payload.length) :
    ({ envelope with payload }).toBytes = envelope.beforePayload ++ payload := by
  change magic ++ (_ ++ _ ++ _ ++ Wire.write payload) = _
  rw [Wire.write_bytes, same, beforePayload]
  simp only [List.append_assoc]

/-- An artifact that is cut off inside its mark bears none. -/
theorem ofBytes?_of_short {part : Bytes} (short : part.length < magic.length) :
    ofBytes? part = .error .badMagic := by
  have unmarked : ¬ magic.isPrefixOf part = true := by
    intro marked
    have length_le := (List.isPrefixOf_iff_prefix.mp marked).length_le
    omega
  rw [ofBytes?, if_pos unmarked]

/-- An artifact that is cut off behind its mark has no complete envelope. -/
theorem ofBytes?_of_isPrefix (countable : envelope.Countable) {part : Bytes}
    (within : part <+: envelope.toBytes) (proper : part ≠ envelope.toBytes)
    (long : magic.length ≤ part.length) :
    ∃ reason, ofBytes? part = .error (.malformed reason) := by
  obtain ⟨body, rfl⟩ : magic <+: part :=
    List.prefix_of_prefix_length_le (List.prefix_append magic _) within long
  have body_within : body <+: Wire.write envelope := (List.prefix_append_right_inj magic).mp within
  have body_proper : body ≠ Wire.write envelope := fun same => proper (by rw [same, toBytes])
  obtain ⟨cause, malformed⟩ :=
    Wire.decode_eq_malformed_of_isPrefix Wire.exact_envelope.steady countable.readsBack body_within body_proper
  exact ofBytes?_of_malformed malformed

/-- What follows an artifact is left over. -/
theorem ofBytes?_append (countable : envelope.Countable) {more : Bytes} (some_more : more ≠ []) :
    ∃ reason, ofBytes? (envelope.toBytes ++ more) = .error (.malformed reason) := by
  rw [toBytes, List.append_assoc]
  exact ⟨_, ofBytes?_of_extended (spells_write countable) some_more⟩

/-- An envelope whose payload is changed is read as such. Nothing but its digest tells. -/
theorem ofBytes?_of_payload (countable : envelope.Countable)
    (current : envelope.formatVersion = currentVersion) {payload : Bytes}
    (same : payload.length = envelope.payload.length) :
    ofBytes? (envelope.beforePayload ++ payload) = .ok { envelope with payload } := by
  have changed_countable : ({ envelope with payload }).Countable :=
    ⟨countable.program, same ▸ countable.payload⟩
  rw [← toBytes_of_payload same]
  exact ofBytes?_toBytes changed_countable current

/-- Bytes that differ from an artifact in the payload only are the artifact of another payload. -/
theorem eq_append_of_changed {damaged : Bytes}
    (same_length : damaged.length = envelope.toBytes.length)
    (same : ∀ place < envelope.beforePayload.length,
      damaged[place]? = envelope.toBytes[place]?) :
    damaged = envelope.beforePayload ++ damaged.drop envelope.beforePayload.length ∧
      (damaged.drop envelope.beforePayload.length).length = envelope.payload.length := by
  have whole : envelope.toBytes = envelope.beforePayload ++ envelope.payload :=
    toBytes_of_payload rfl
  have front_eq : damaged.take envelope.beforePayload.length = envelope.beforePayload := by
    apply List.ext_getElem?
    intro place
    by_cases before : place < envelope.beforePayload.length
    · rw [List.getElem?_take_of_lt before, same place before, whole,
        List.getElem?_append_left before]
    · rw [List.getElem?_eq_none (Nat.not_lt.mp before), List.getElem?_eq_none]
      rw [List.length_take]
      omega
  constructor
  · have parts := List.take_append_drop envelope.beforePayload.length damaged
    rw [front_eq] at parts
    exact parts.symm
  · rw [List.length_drop, same_length, whole, List.length_append, Nat.add_sub_cancel_left]

end Envelope

namespace StoredSnapshot

open Envelope

/-- What is not read as an envelope is not opened either. -/
theorem ofBytes?_of_unread {bytes : Bytes} {defect : Defect}
    (unread : Envelope.ofBytes? bytes = .error defect) : ofBytes? bytes = .error defect := by
  rw [ofBytes?, unread]

/-- What becomes of the artifact of an envelope, whole or damaged, when it is read and opened. -/
structure DetectsDamage (envelope : Envelope) (snapshot : Snapshot) : Prop where
  /-- The artifact itself gives the snapshot. -/
  whole : ∃ stored, ofBytes? envelope.toBytes = .ok stored ∧ stored.snapshot = snapshot
  /-- Cut off inside its mark, it is not taken for an artifact. -/
  unmarked : ∀ part, part <+: envelope.toBytes → part.length < magic.length →
    ofBytes? part = .error .badMagic
  /-- Cut off elsewhere, it is malformed. -/
  cut : ∀ part, part <+: envelope.toBytes → part ≠ envelope.toBytes →
    magic.length ≤ part.length → ∃ reason, ofBytes? part = .error (.malformed reason)
  /-- With something behind it, it is malformed. -/
  extended : ∀ more, more ≠ [] →
    ∃ reason, ofBytes? (envelope.toBytes ++ more) = .error (.malformed reason)
  /-- The payload is what the artifact ends with. -/
  payload : envelope.toBytes.drop envelope.beforePayload.length = envelope.payload
  /-- Changed at any places of the payload, and only there, it does not have the digest that is
  recorded, unless the changed payload collides with the old one. -/
  changed : ∀ damaged : Bytes, damaged.length = envelope.toBytes.length →
    (∀ place < envelope.beforePayload.length, damaged[place]? = envelope.toBytes[place]?) →
    damaged ≠ envelope.toBytes →
    (Digest.of (damaged.drop envelope.beforePayload.length) = .of envelope.payload →
      damaged.drop envelope.beforePayload.length = envelope.payload) →
    ofBytes? damaged = .error (.checksumMismatch envelope.checksum
      (.of (damaged.drop envelope.beforePayload.length)))

theorem detectsDamage {envelope : Envelope} {snapshot : Snapshot} (countable : envelope.Countable)
    (current : envelope.formatVersion = currentVersion)
    (sealed : envelope.checksum = .of envelope.payload)
    (opens : envelope.snapshot? = .ok snapshot) : DetectsDamage envelope snapshot := by
  have whole : envelope.toBytes = envelope.beforePayload ++ envelope.payload :=
    toBytes_of_payload rfl
  constructor
  case whole =>
    refine ⟨⟨envelope.program, envelope.checksum, envelope.toBytes.length, snapshot⟩, ?_, rfl⟩
    rw [ofBytes?, ofBytes?_toBytes countable current]
    simp only [opens]
  case unmarked =>
    intro part _ short
    exact ofBytes?_of_unread (ofBytes?_of_short short)
  case cut =>
    intro part within proper long
    obtain ⟨reason, unread⟩ := Envelope.ofBytes?_of_isPrefix countable within proper long
    exact ⟨reason, ofBytes?_of_unread unread⟩
  case extended =>
    intro more some_more
    obtain ⟨reason, unread⟩ := Envelope.ofBytes?_append countable some_more
    exact ⟨reason, ofBytes?_of_unread unread⟩
  case payload =>
    rw [whole]
    exact List.drop_left
  case changed =>
    intro damaged same_length same differs distinct
    obtain ⟨damaged_eq, payload_length⟩ := eq_append_of_changed same_length same
    have mismatch : Digest.of (damaged.drop envelope.beforePayload.length) ≠ envelope.checksum := by
      rw [sealed]
      intro collides
      rw [damaged_eq, distinct collides, ← whole] at differs
      contradiction
    have read := ofBytes?_of_payload countable current payload_length
    rw [← damaged_eq] at read
    rw [ofBytes?, read]
    simp only [snapshot?, if_pos mismatch]

/-- Damage to the artifact of a well-formed snapshot is detected, if the artifact has a length of 64
bits, as all bytes in memory have. -/
theorem damage_detected (program : String) {snapshot : Snapshot} (sound : snapshot.check = .ok ())
    (short : (Envelope.ofSnapshot program snapshot).toBytes.length < UInt64.size) :
    DetectsDamage (.ofSnapshot program snapshot) snapshot := by
  have countable := countable_of_length short
  have inner : snapshot.Countable := Snapshot.countable_of_length countable.payload
  exact detectsDamage countable rfl rfl
    (snapshot?_ofSnapshot (Snapshot.check_eq_ok_iff.mp sound) inner program)

/-- With another entry function in its payload, the artifact of a snapshot of `fib` has another digest
than the recorded one; without its last byte it is malformed. -/
theorem damage_detected_fib :
    (∃ recorded computed, ofBytes?
        ((Envelope.ofSnapshot "fib" ⟨true, [⟨2, 0, [9], [9, 2]⟩], 0⟩).beforePayload ++
          [1, 1, 2, 0, 1, 18, 2, 18, 4, 1]) = .error (.checksumMismatch recorded computed)) ∧
    ∃ reason, ofBytes?
      (Envelope.ofSnapshot "fib" ⟨true, [⟨2, 0, [9], [9, 2]⟩], 0⟩).toBytes.dropLast =
        .error (.malformed reason) := by
  have encode_eq : Snapshot.encode ⟨true, [⟨2, 0, [9], [9, 2]⟩], 0⟩ =
      [1, 1, 2, 0, 1, 18, 2, 18, 4, 0] := by decide +kernel
  have payload_eq : (Envelope.ofSnapshot "fib" ⟨true, [⟨2, 0, [9], [9, 2]⟩], 0⟩).payload =
      [1, 1, 2, 0, 1, 18, 2, 18, 4, 0] := encode_eq
  have short : (Envelope.ofSnapshot "fib" ⟨true, [⟨2, 0, [9], [9, 2]⟩], 0⟩).toBytes.length <
      UInt64.size := by
    have length_le := length_toBytes_ofSnapshot_le "fib" ⟨true, [⟨2, 0, [9], [9, 2]⟩], 0⟩
    rw [encode_eq] at length_le
    exact Nat.lt_of_le_of_lt length_le (by decide)
  have detects := damage_detected "fib" rfl short
  -- Nothing but the payload of this envelope matters from here on.
  generalize Envelope.ofSnapshot "fib" ⟨true, [⟨2, 0, [9], [9, 2]⟩], 0⟩ = envelope at *
  have whole : envelope.toBytes = envelope.beforePayload ++ envelope.payload :=
    toBytes_of_payload rfl
  rw [payload_eq] at whole
  constructor
  · have dropped : (envelope.beforePayload ++ [1, 1, 2, 0, 1, 18, 2, 18, 4, 1]).drop
        envelope.beforePayload.length = [1, 1, 2, 0, 1, 18, 2, 18, 4, 1] := List.drop_left
    refine ⟨_, _, detects.changed _ ?_ ?_ ?_ ?_⟩
    · rw [whole, List.length_append, List.length_append]
      rfl
    · intro place before
      rw [whole, List.getElem?_append_left before, List.getElem?_append_left before]
    · rw [whole]
      exact fun same => absurd (List.append_cancel_left same) (by decide)
    · rw [dropped, payload_eq]
      intro collides
      have first_bytes := congrArg (fun digest : Digest => digest.bytes.head?) collides
      exact absurd first_bytes (by decide +kernel)
  · have length_eq := length_toBytes envelope
    have magic_eq : magic.length = 4 := rfl
    refine detects.cut _ (List.dropLast_prefix _) ?_ ?_
    · intro same
      have lengths := congrArg List.length same
      rw [List.length_dropLast] at lengths
      omega
    · rw [List.length_dropLast]
      omega

end StoredSnapshot

end Ferry
