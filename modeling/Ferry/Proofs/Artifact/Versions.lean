import Ferry.Proofs.Artifact.Format

/-!
# Artifacts of other versions

The version stands first in an envelope and is judged last. So an artifact of another version is found
to be one only if everything behind its version has the layout of the current version; any other
layout, longer or shorter or with other fields, is taken for a malformation.
-/

namespace Ferry.Envelope

open Wire

variable {envelope : Envelope} {version : UInt32} {rest : Bytes}

theorem spellsEnvelope_of_contents (version : UInt32) {program : String} {checksum : Digest}
    {payload : Bytes} (contents : SpellsContents rest program checksum payload) :
    SpellsEnvelope (Wire.write version ++ rest) ⟨version, program, checksum, payload⟩ := by
  obtain ⟨front, spells_version, whole⟩ := (exact_uint32 _ _ _).mp (readsBack_uint32 version rest)
  rw [whole]
  exact .intro spells_version contents

/-- Behind the version that is written there stand the contents. -/
theorem spellsEnvelope_append_iff :
    SpellsEnvelope (Wire.write version ++ rest) envelope ↔
      envelope.formatVersion = version ∧
        SpellsContents rest envelope.program envelope.checksum envelope.payload := by
  constructor
  · intro spells
    have written : Wire.read (Wire.write version ++ rest) = .ok (version, rest) :=
      readsBack_uint32 version rest
    generalize Wire.write version ++ rest = bytes at spells written
    cases spells with
    | intro spells_version contents =>
        rw [(exact_uint32 _ _ _).mpr ⟨_, spells_version, rfl⟩] at written
        cases written
        exact ⟨rfl, contents⟩
  · rintro ⟨rfl, contents⟩
    exact spellsEnvelope_of_contents _ contents

/-- No version makes up for contents of another layout. -/
theorem malformed_of_layout (version : UInt32)
    (other_layout : ∀ program checksum payload, ¬ SpellsContents rest program checksum payload) :
    ∃ reason, ofBytes? (magic ++ (Wire.write version ++ rest)) = .error (.malformed reason) := by
  cases decoded : Wire.decode (α := Envelope) (Wire.write version ++ rest) with
  | error error => exact ofBytes?_of_malformed decoded
  | ok envelope =>
      have spells := exact_envelope.decode_eq_ok_iff.mp decoded
      exact absurd (spellsEnvelope_append_iff.mp spells).2 (other_layout _ _ _)

/-- An artifact of another version is found to be one if what follows the version has the layout of the
current version, and is malformed otherwise. In particular none is found whose layout is the current
one with more behind it: the version could be read, but what is left over is judged before it. -/
theorem version_found_iff (foreign : version ≠ currentVersion) (rest : Bytes) :
    (ofBytes? (magic ++ (Wire.write version ++ rest)) = .error (.unsupportedVersion version) ↔
      ∃ program checksum payload, SpellsContents rest program checksum payload) ∧
    ((∀ program checksum payload, ¬ SpellsContents rest program checksum payload) →
      ∃ reason, ofBytes? (magic ++ (Wire.write version ++ rest)) = .error (.malformed reason)) ∧
    ∀ program checksum payload more, SpellsContents rest program checksum payload → more ≠ [] →
      ofBytes? (magic ++ (Wire.write version ++ (rest ++ more))) =
        .error (.malformed s!"{more.length} trailing bytes after envelope") := by
  refine ⟨⟨?_, ?_⟩, malformed_of_layout version, ?_⟩
  · intro found
    apply Classical.byContradiction
    intro none
    obtain ⟨reason, malformed⟩ := malformed_of_layout version fun program checksum payload contents =>
      none ⟨program, checksum, payload, contents⟩
    rw [malformed] at found
    cases found
  · rintro ⟨program, checksum, payload, contents⟩
    have spells := spellsEnvelope_of_contents version contents
    rw [ofBytes?_of_decode (exact_envelope.decode_eq_ok_iff.mpr spells), if_neg foreign]
  · intro program checksum payload more contents some_more
    rw [← List.append_assoc (Wire.write version)]
    exact ofBytes?_of_extended (spellsEnvelope_of_contents version contents) some_more

/-- The contents of an envelope without a name and without a payload. -/
def emptyContents : Bytes := [0] ++ (List.replicate 32 0 ++ [0])

theorem spellsContents_empty : SpellsContents emptyContents "" ⟨List.replicate 32 0, rfl⟩ [] := by
  have zero : Numeral 10 UInt64.size [0] 0 := ⟨.last (by decide), by decide, by decide⟩
  have nothing : Measured [0] [] := @Measured.intro [0] [] zero
  have unnamed : SpellsText [0] "" := nothing
  exact @SpellsContents.intro [0] [0] "" ⟨List.replicate 32 0, rfl⟩ [] unnamed nothing

/-- Empty contents are found to be of version two. No contents at all are not, and neither are the
empty ones with one more byte. -/
theorem version_found_iff_empty :
    (2 : UInt32) ≠ currentVersion ∧
    ofBytes? (magic ++ (Wire.write (2 : UInt32) ++ emptyContents)) =
      .error (.unsupportedVersion 2) ∧
    (∃ reason, ofBytes? (magic ++ (Wire.write (2 : UInt32) ++ [])) =
      .error (.malformed reason)) ∧
    ofBytes? (magic ++ (Wire.write (2 : UInt32) ++ (emptyContents ++ [7]))) =
      .error (.malformed "1 trailing bytes after envelope") := by
  have foreign : (2 : UInt32) ≠ currentVersion := by decide
  have nothing_spelled : ∀ program checksum payload, ¬ SpellsContents [] program checksum payload := by
    intro program checksum payload contents
    generalize whole : ([] : Bytes) = bytes at contents
    cases contents with
    | intro name content =>
        have digest_length := checksum.length_eq
        have lengths := congrArg List.length whole
        simp only [List.length_nil, List.length_append] at lengths
        omega
  obtain ⟨found, -, extended⟩ := version_found_iff foreign emptyContents
  exact ⟨foreign, found.mpr ⟨_, _, _, spellsContents_empty⟩,
    (version_found_iff foreign []).2.1 nothing_spelled,
    extended _ _ _ [7] spellsContents_empty (by decide)⟩

/-- An artifact of version two whose layout has one byte more is not found to be of another version. -/
theorem extended_not_found :
    ofBytes? (magic ++ (Wire.write (2 : UInt32) ++ (emptyContents ++ [7]))) =
      .error (.malformed "1 trailing bytes after envelope") ∧
    ¬ ∀ (version : UInt32) (rest : Bytes), version ≠ currentVersion →
      ofBytes? (magic ++ (Wire.write version ++ rest)) = .error (.unsupportedVersion version) := by
  have malformed : ofBytes? (magic ++ (Wire.write (2 : UInt32) ++ (emptyContents ++ [7]))) =
      .error (.malformed "1 trailing bytes after envelope") := by
    rw [← List.append_assoc (Wire.write (2 : UInt32))]
    exact ofBytes?_of_extended (spellsEnvelope_of_contents 2 spellsContents_empty) (by decide)
  refine ⟨malformed, ?_⟩
  intro recognised
  have found := recognised 2 (emptyContents ++ [7]) (by decide)
  rw [malformed] at found
  cases found

end Ferry.Envelope
