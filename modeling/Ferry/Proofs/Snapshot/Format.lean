import Ferry.Proofs.Wire.SelfDelimiting

/-!
# The format of snapshots

The bytes of a snapshot are its mark of validity, its frames and its entry function. Numbers in them
may be padded within their widths, so that one snapshot has many spellings. Decoding accepts exactly
the spellings of well-formed snapshots. Encoding chooses the shortest one, and no other is as short.
-/

namespace Ferry

namespace Wire

variable {bytes : Bytes}

theorem SpellsUInt32.trims {value : UInt32} (spells : SpellsUInt32 bytes value) :
    Trims (Wire.write value) bytes :=
  spells.groups.trims

theorem SpellsWord.trims {word : Word} (spells : SpellsWord bytes word) :
    Trims (Wire.write word) bytes :=
  spells.groups.trims

theorem SpellsFrame.trims {frame : Frame} (spells : SpellsFrame bytes frame) :
    Trims (Wire.write frame) bytes := by
  cases spells with
  | intro counter index slots stack =>
      have words_trim : ∀ front word, SpellsWord front word → Trims (Wire.write word) front :=
        fun _ _ => SpellsWord.trims
      have trims := counter.trims.append (index.trims.append
        ((slots.trims words_trim).append (stack.trims words_trim)))
      rwa [← List.append_assoc, ← List.append_assoc] at trims

theorem SpellsSnapshot.trims {snapshot : Snapshot} (spells : SpellsSnapshot bytes snapshot) :
    Trims snapshot.encode bytes := by
  cases spells with
  | @intro _ _ valid _ _ stack index =>
      have frames_trim : ∀ front frame, SpellsFrame front frame → Trims (Wire.write frame) front :=
        fun _ _ => SpellsFrame.trims
      have mark : Trims (Wire.write valid) [if valid then 1 else 0] := .inl rfl
      have trims := mark.append ((stack.trims frames_trim).append index.trims)
      rwa [← List.append_assoc] at trims

end Wire

namespace Snapshot

open Wire

theorem countable_of_spells {bytes : Bytes} {snapshot : Snapshot}
    (spells : SpellsSnapshot bytes snapshot) : snapshot.Countable := by
  rcases spells with ⟨⟨frames_lt, each⟩, -⟩
  refine ⟨frames_lt.lt, each.forall_mem ?_⟩
  rintro _ _ ⟨-, -, ⟨locals_lt, -⟩, ⟨operands_lt, -⟩⟩
  exact ⟨locals_lt.lt, operands_lt.lt⟩

/-- Decoding accepts what spells a well-formed snapshot. -/
theorem decode_eq_ok_iff {bytes : Bytes} {snapshot : Snapshot} :
    decode bytes = .ok snapshot ↔ SpellsSnapshot bytes snapshot ∧ snapshot.WellFormed := by
  rw [← exact_snapshot.decode_eq_ok_iff, ← check_eq_ok_iff, decode]
  cases read : Wire.decode (α := Snapshot) bytes with
  | error cause => cases cause <;> simp
  | ok other =>
      simp only [Except.ok.injEq]
      constructor
      · intro accepted
        split at accepted
        · rename_i sound
          cases accepted
          exact ⟨rfl, sound⟩
        · cases accepted
      · rintro ⟨rfl, sound⟩
        rw [sound]

theorem decode_eq_error {bytes : Bytes} {failure : Failure}
    (refused : decode bytes = .error failure) : ∃ reason, failure = .deserialization reason := by
  rw [decode] at refused
  split at refused
  · cases refused
    exact ⟨_, rfl⟩
  · cases refused
    exact ⟨_, rfl⟩
  · split at refused
    · cases refused
    · rename_i checked
      cases refused
      obtain ⟨defect, rfl⟩ := deserialization_of_check checked
      exact ⟨_, rfl⟩

/-- Bytes are decoded to a snapshot exactly if they spell it and it is well formed. They spell no
other one, and what is refused is refused as a failure to read a snapshot. Encoding gives the
snapshot back in its shortest spelling, which is shorter than every other one; so decoding and
encoding again never lengthens anything, and once is enough. -/
theorem format_exact (bytes : Bytes) :
    (∀ snapshot, decode bytes = .ok snapshot ↔
      SpellsSnapshot bytes snapshot ∧ (snapshot.valid = true ↔ snapshot.frames ≠ [])) ∧
    (∀ snapshot other, SpellsSnapshot bytes snapshot → SpellsSnapshot bytes other →
      other = snapshot) ∧
    (∀ failure, decode bytes = .error failure → failure.kind = "deserialization") ∧
    (∀ snapshot, decode bytes = .ok snapshot → decode snapshot.encode = .ok snapshot ∧
      (bytes ≠ snapshot.encode → snapshot.encode.length < bytes.length)) ∧
    ∀ again, (decode bytes).map encode = .ok again →
      again.length ≤ bytes.length ∧ (decode again).map encode = .ok again := by
  have shortest : ∀ snapshot, decode bytes = .ok snapshot →
      decode snapshot.encode = .ok snapshot ∧ Trims snapshot.encode bytes := by
    intro snapshot accepted
    obtain ⟨spells, wellFormed⟩ := decode_eq_ok_iff.mp accepted
    exact ⟨decode_encode wellFormed (countable_of_spells spells), spells.trims⟩
  refine ⟨fun _ => decode_eq_ok_iff, ?_, ?_, ?_, ?_⟩
  · intro snapshot other spells spells_other
    have read := exact_snapshot.decode_eq_ok_iff.mpr spells
    rw [exact_snapshot.decode_eq_ok_iff.mpr spells_other] at read
    exact Except.ok.inj read
  · intro failure refused
    obtain ⟨reason, rfl⟩ := decode_eq_error refused
    rfl
  · intro snapshot accepted
    obtain ⟨back, trims⟩ := shortest snapshot accepted
    exact ⟨back, fun differs => trims.resolve_left differs.symm⟩
  · intro again encoded
    cases accepted : decode bytes with
    | error failure => simp [accepted, Except.map] at encoded
    | ok snapshot =>
        rw [accepted] at encoded
        cases encoded
        obtain ⟨back, trims⟩ := shortest snapshot accepted
        exact ⟨trims.length_le, by rw [back]; rfl⟩

/-- Spelled with a padded count and a padded word, a snapshot takes two bytes more than it must. -/
theorem format_exact_padded :
    decode [1, 129, 0, 255, 255, 255, 255, 15, 0, 1, 255, 0, 0, 5] =
      .ok ⟨true, [⟨4294967295, 0, [-64], []⟩], 5⟩ ∧
    SpellsSnapshot [1, 129, 0, 255, 255, 255, 255, 15, 0, 1, 255, 0, 0, 5]
      ⟨true, [⟨4294967295, 0, [-64], []⟩], 5⟩ ∧
    encode ⟨true, [⟨4294967295, 0, [-64], []⟩], 5⟩ =
      [1, 1, 255, 255, 255, 255, 15, 0, 1, 127, 0, 5] ∧
    (encode ⟨true, [⟨4294967295, 0, [-64], []⟩], 5⟩).length < 14 := by
  have accepted : decode [1, 129, 0, 255, 255, 255, 255, 15, 0, 1, 255, 0, 0, 5] =
      .ok ⟨true, [⟨4294967295, 0, [-64], []⟩], 5⟩ := by
    have read : (decode [1, 129, 0, 255, 255, 255, 255, 15, 0, 1, 255, 0, 0, 5]).toOption =
        some ⟨true, [⟨4294967295, 0, [-64], []⟩], 5⟩ := by decide +kernel
    revert read
    cases decode [1, 129, 0, 255, 255, 255, 255, 15, 0, 1, 255, 0, 0, 5] with
    | error failure => exact nofun
    | ok snapshot => exact fun read => congrArg Except.ok (Option.some.inj read)
  have encoded : encode ⟨true, [⟨4294967295, 0, [-64], []⟩], 5⟩ =
      [1, 1, 255, 255, 255, 255, 15, 0, 1, 127, 0, 5] := by decide +kernel
  have laws := format_exact [1, 129, 0, 255, 255, 255, 255, 15, 0, 1, 255, 0, 0, 5]
  refine ⟨accepted, ((laws.1 _).mp accepted).1, encoded, (laws.2.2.2.1 _ accepted).2 ?_⟩
  rw [encoded]
  decide

end Snapshot

end Ferry
