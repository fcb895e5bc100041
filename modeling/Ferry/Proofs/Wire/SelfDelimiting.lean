import Ferry.Proofs.Wire.Spelling

/-!
# Wire forms delimit themselves

A reader takes what it takes whatever follows. If a value reads back, no proper beginning of its
wire form spells anything: the value that is read from the beginning would be read from the whole
as well, and would leave over what was cut off. Bytes after a wire form are always left over. So
the bytes of a snapshot are exactly as long as they must be.
-/

namespace Ferry

namespace Wire

variable {α β : Type}

/-- What a reader takes from the front of its input does not depend on what follows. -/
def Steady (read : Reader α) : Prop :=
  ∀ input value rest more, read input = .ok (value, rest) →
    read (input ++ more) = .ok (value, rest ++ more)

/-- An exact reader takes what spells its value and does not look further. -/
theorem Exact.steady {read : Reader α} {spelled : Bytes → α → Prop} (exact : Exact read spelled) :
    Steady read := by
  intro input value rest more taken
  obtain ⟨front, spells, rfl⟩ := (exact _ _ _).mp taken
  exact (exact _ _ _).mpr ⟨front, spells, List.append_assoc ..⟩

theorem Steady.map {read : Reader α} (steady : Steady read) (f : α → β) :
    Steady (Reader.map f read) := by
  intro input value rest more taken
  rw [Reader.map] at taken
  split at taken
  · rename_i inner left first
    cases taken
    exact map_of_ok (steady _ _ _ more first)
  · cases taken

theorem steady_snapshot : Steady (Wire.read (α := Snapshot)) :=
  exact_snapshot.steady

section Delimiting

variable [Wire α] {value : α}

/-- Nothing is read from a proper beginning of a wire form. -/
theorem decode_eq_malformed_of_isPrefix (steady : Steady (Wire.read (α := α)))
    (back : ReadsBack value) {part : Bytes} (within : part <+: Wire.write value)
    (proper : part ≠ Wire.write value) :
    ∃ cause, decode (α := α) part = .error (.malformed cause) := by
  rcases within with ⟨cut, whole⟩
  cases taken : Wire.read (α := α) part with
  | error cause => exact ⟨cause, by rw [decode, taken]⟩
  | ok pair =>
      rcases pair with ⟨other, rest⟩
      have read_whole := steady _ _ _ cut taken
      have read_eq := back []
      rw [List.append_nil, ← whole, read_whole] at read_eq
      simp only [Except.ok.injEq, Prod.mk.injEq, List.append_eq_nil_iff] at read_eq
      rw [read_eq.2.2, List.append_nil] at whole
      exact absurd whole proper

/-- What a reader leaves is left over. -/
theorem decode_eq_trailing {input more : Bytes} (taken : Wire.read input = .ok (value, more))
    (some_more : more ≠ []) : decode (α := α) input = .error (.trailing more.length) := by
  rw [decode, taken]
  cases more with
  | nil => contradiction
  | cons byte more => rfl

/-- Bytes after a wire form are left over. -/
theorem decode_append_eq_trailing (back : ReadsBack value) {more : Bytes} (some_more : more ≠ []) :
    decode (α := α) (Wire.write value ++ more) = .error (.trailing more.length) :=
  decode_eq_trailing (back more) some_more

end Delimiting

end Wire

namespace Snapshot

variable {snapshot : Snapshot}

/-- Decoding the bytes of a snapshot comes down to the check of its structure. -/
theorem decode_encode_eq_check (countable : snapshot.Countable) :
    decode snapshot.encode = snapshot.check.map fun _ => snapshot := by
  rw [decode, encode, Wire.decode_write countable.readsBack]
  cases checked : snapshot.check <;> simp only [checked, Except.map]

theorem check_eq_ok_iff : snapshot.check = .ok () ↔ snapshot.WellFormed := by
  rw [← defect?_eq_none_iff, check]
  cases snapshot.defect? <;> simp

/-- A check fails as a failure to read a snapshot. -/
theorem deserialization_of_check {failure : Failure} (refused : snapshot.check = .error failure) :
    ∃ defect : Defect, failure = .deserialization defect.message := by
  rw [check] at refused
  split at refused
  · cases refused
  · rename_i defect found
    cases refused
    exact ⟨defect, rfl⟩

/-- A snapshot is read back from its bytes exactly if it is well formed, and refused for its defect
otherwise. Nothing is read back from fewer bytes or from more. The lengths of the sequences in the
snapshot have 64 bits, as those of all sequences in memory have. -/
theorem bytes_exact (countable : snapshot.Countable) :
    (decode snapshot.encode = .ok snapshot ↔ snapshot.check = .ok ()) ∧
    (∀ failure, snapshot.check = .error failure → decode snapshot.encode = .error failure ∧
      ∃ reason, failure = .deserialization reason) ∧
    (∀ part, part <+: snapshot.encode → part ≠ snapshot.encode →
      ∃ reason, decode part = .error (.deserialization reason)) ∧
    ∀ more, more ≠ [] → ∃ reason, decode (snapshot.encode ++ more) =
      .error (.deserialization reason) := by
  refine ⟨?_, ?_, ?_, ?_⟩
  · rw [decode_encode_eq_check countable]
    cases snapshot.check <;> simp [Except.map]
  · intro failure refused
    rcases deserialization_of_check refused with ⟨defect, rfl⟩
    refine ⟨?_, defect.message, rfl⟩
    rw [decode_encode_eq_check countable, refused]
    rfl
  · intro part within proper
    rcases Wire.decode_eq_malformed_of_isPrefix Wire.steady_snapshot countable.readsBack within
      proper with ⟨cause, malformed⟩
    exact ⟨cause.message, by rw [decode, malformed]⟩
  · intro more some_more
    have trailing := Wire.decode_append_eq_trailing countable.readsBack some_more
    exact ⟨_, by rw [decode, encode, trailing]⟩

/-- The words and counts at the edges of their ranges are read back; a byte less, or one more, is
refused. -/
theorem bytes_exact_at_edges :
    decode (encode ⟨true, [⟨4294967295, 128, [Int64.minValue, Int64.maxValue], [-1, 64]⟩], 127⟩) =
      .ok ⟨true, [⟨4294967295, 128, [Int64.minValue, Int64.maxValue], [-1, 64]⟩], 127⟩ ∧
    (∃ reason, decode (encode ⟨true, [⟨4294967295, 128, [Int64.minValue, Int64.maxValue],
      [-1, 64]⟩], 127⟩).dropLast = .error (.deserialization reason)) ∧
    ∃ reason, decode (encode ⟨true, [⟨4294967295, 128, [Int64.minValue, Int64.maxValue],
      [-1, 64]⟩], 127⟩ ++ [0]) = .error (.deserialization reason) := by
  have countable : Countable ⟨true, [⟨4294967295, 128, [Int64.minValue, Int64.maxValue],
      [-1, 64]⟩], 127⟩ := by
    refine ⟨by decide, ?_⟩
    intro frame member
    obtain rfl := List.mem_singleton.mp member
    exact ⟨by decide, by decide⟩
  have laws := bytes_exact countable
  refine ⟨laws.1.mpr rfl, laws.2.2.1 _ (List.dropLast_prefix _) ?_, laws.2.2.2 [0] (by decide)⟩
  intro same
  have shorter := congrArg List.length same
  rw [List.length_dropLast] at shorter
  have nonempty : 0 < (encode ⟨true, [⟨4294967295, 128, [Int64.minValue, Int64.maxValue],
      [-1, 64]⟩], 127⟩).length := Nat.succ_pos _
  omega

end Snapshot

end Ferry
