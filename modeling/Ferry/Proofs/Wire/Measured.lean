import Ferry.Proofs.Wire.Spelling

/-!
# Contents whose length is known

A text, a session id and the payload of an artifact are written as bytes behind their number, and a
digest as bytes whose number is known beforehand. In both cases the reader takes so many bytes, and
what they say is judged without a further look at the input; so these readers are exact as well.
-/

namespace Ferry.Wire

variable {α : Type} {bytes : Bytes}

/-- The bytes spell a number of 64 bits, and as many bytes as it says are the content. -/
inductive Measured : Bytes → Bytes → Prop where
  | intro {count content : Bytes} (counts : Numeral 10 UInt64.size count content.length) :
      Measured (count ++ content) content

theorem exact_takeBytes (count : Nat) :
    Exact (takeBytes count) fun bytes content => bytes.length = count ∧ content = bytes := by
  intro input content rest
  constructor
  · intro taken
    rw [takeBytes] at taken
    split at taken
    · cases taken
    · rename_i enough
      cases taken
      refine ⟨input.take count, ⟨?_, rfl⟩, (List.take_append_drop count input).symm⟩
      exact List.length_take_of_le (Nat.not_lt.mp enough)
  · rintro ⟨front, ⟨rfl, rfl⟩, rfl⟩
    exact takeBytes_append content rest

/-- Bytes without a length before them are taken by their number alone. -/
theorem exact_readRaw (count : Nat) :
    Exact (FixedBytes.readRaw count) fun bytes value => bytes = value.bytes := by
  intro input value rest
  constructor
  · intro taken
    rw [FixedBytes.readRaw] at taken
    split at taken
    · cases taken
      exact ⟨_, rfl, (List.take_append_drop count input).symm⟩
    · cases taken
  · rintro ⟨_, rfl, rfl⟩
    exact readRaw_append value rest

theorem exact_measured : Exact (readLength.andThen takeBytes) Measured := by
  refine (exact_readNumber_long.andThen exact_takeBytes).congr fun bytes content => ?_
  constructor
  · rintro ⟨count, _, _, rfl, counts, rfl, rfl⟩
    exact .intro counts
  · rintro ⟨counts⟩
    exact ⟨_, _, _, rfl, counts, rfl, rfl⟩

/-- A verdict on what has been read is given without a further look at the input. -/
theorem exact_verdict {read : Reader α} (verdict : Option α)
    (accepts : ∀ value rest, verdict = some value → read rest = .ok (value, rest))
    (refuses : ∀ rest, verdict = none → ∃ cause, read rest = .error cause) :
    Exact read fun bytes value => bytes = [] ∧ verdict = some value := by
  intro input value rest
  cases given : verdict with
  | none =>
      obtain ⟨cause, refused⟩ := refuses input given
      simp [refused]
  | some other =>
      rw [accepts other input given]
      simp only [Except.ok.injEq, Prod.mk.injEq, Option.some.injEq]
      constructor
      · rintro ⟨rfl, rfl⟩
        exact ⟨[], ⟨rfl, rfl⟩, rfl⟩
      · rintro ⟨_, ⟨rfl, rfl⟩, rfl⟩
        exact ⟨rfl, rfl⟩

/-- The bytes spell a text: its encoding and the length of that. -/
def SpellsText (bytes : Bytes) (text : String) : Prop := Measured bytes (Bytes.ofText text)

/-- The bytes spell a session id: its bytes and their number. -/
def SpellsId (bytes : Bytes) (id : SessionId) : Prop := Measured bytes id.bytes

theorem exact_string : Exact (Wire.read (α := String)) SpellsText := by
  refine (exact_measured.andThen fun content => exact_verdict (Bytes.text? content)
    (fun text rest read => ?_) (fun rest unread => ?_)).congr fun bytes text => ?_
  · simp only [read]
  · simp only [unread]
    exact ⟨_, rfl⟩
  constructor
  · rintro ⟨_, _, content, rfl, measured, rfl, read⟩
    rw [Bytes.eq_ofText_of_text? read] at measured
    rwa [List.append_nil]
  · intro measured
    exact ⟨bytes, [], _, (List.append_nil bytes).symm, measured, rfl, Bytes.text?_ofText text⟩

theorem ofBytes?_eq_some_iff {count : Nat} {bytes : Bytes} {value : FixedBytes count} :
    FixedBytes.ofBytes? count bytes = some value ↔ bytes = value.bytes := by
  rw [FixedBytes.ofBytes?]
  split
  · rename_i fits
    rw [Option.some.injEq]
    constructor
    · rintro rfl
      rfl
    · intro same
      exact FixedBytes.ext same
  · rename_i misfits
    constructor
    · intro found
      cases found
    · rintro rfl
      exact absurd value.length_eq misfits

theorem exact_sessionId : Exact (Wire.read (α := SessionId)) SpellsId := by
  refine (exact_readNumber_long.andThen fun count => (exact_takeBytes count).andThen
    fun content => exact_verdict (FixedBytes.ofBytes? 16 content)
      (fun id rest found => ?_) (fun rest misfits => ?_)).congr fun bytes id => ?_
  · simp only [found]
  · simp only [misfits]
    exact ⟨_, rfl⟩
  constructor
  · rintro ⟨_, _, count, rfl, counts, _, _, content, rfl, ⟨rfl, rfl⟩, rfl, found⟩
    rw [ofBytes?_eq_some_iff.mp found] at counts ⊢
    rw [List.append_nil]
    exact .intro counts
  · rintro ⟨counts⟩
    exact ⟨_, _, _, rfl, counts, id.bytes, [], id.bytes, (List.append_nil _).symm, ⟨rfl, rfl⟩, rfl,
      ofBytes?_eq_some_iff.mpr rfl⟩

/-- A sequence of bytes is spelled by its length and itself. -/
theorem exact_bytes : Exact (Wire.read (α := Bytes)) Measured := by
  have itself : ∀ body content : Bytes,
      Repeated (fun bytes byte => bytes = [byte]) body content ↔ content = body := by
    intro body content
    constructor
    · intro each
      induction each with
      | nil => rfl
      | cons head _ ih => rw [head, ih, List.singleton_append]
    · rintro rfl
      induction content with
      | nil => exact .nil
      | cons byte content ih => exact @Repeated.cons _ _ [byte] content byte content rfl ih
  refine (exact_list exact_byte).congr fun bytes content => ?_
  constructor
  · rintro ⟨counts, each⟩
    obtain rfl := (itself _ _).mp each
    exact .intro counts
  · rintro ⟨counts⟩
    exact .intro counts ((itself _ _).mpr rfl)

theorem write_bytes (content : Bytes) :
    Wire.write content = writeNumber content.length ++ content :=
  congrArg (writeNumber content.length ++ ·) (List.flatMap_singleton' content)

/-- A content is measured by a number of 64 bits. -/
theorem Measured.length_lt {content : Bytes} (measured : Measured bytes content) :
    content.length < UInt64.size := by
  cases measured with
  | intro counts => exact counts.lt

/-- No length is shorter than the one that is written. -/
theorem Measured.trims {content : Bytes} (measured : Measured bytes content) :
    Trims (writeNumber content.length ++ content) bytes := by
  cases measured with
  | intro counts =>
      have same : Trims content content := .inl rfl
      exact counts.groups.trims.append same

end Ferry.Wire
