import Mathlib.Algebra.GroupWithZero.Nat
import Mathlib.Data.List.SplitLengths
import Ferry.Proofs.Text.Hex
import Ferry.Session.Id

/-!
# Which texts session ids have

The digits of an id can be shown in four forms: bare, in hyphenated groups, and these in braces or
after the resource name. A text is read as an id exactly if it becomes one of the forms of this id
when its letters are made lower-case, possibly with one mark in front. No text has two of these
forms, so the text that an id is written as is read as this id and as no other.
-/

namespace Ferry.SessionId

open Text

variable {digits text : List Char} {lengths : List Nat} {parts : List (List Char)} {id : SessionId}

/-- Digits in groups of 8, 4, 4, 4 and 12, with a hyphen between each two groups. -/
def Hyphenated (digits text : List Char) : Prop :=
  ∃ parts : List (List Char), parts.map List.length = [8, 4, 4, 4, 12] ∧
    parts.flatten = digits ∧ ['-'].intercalate parts = text

/-- The forms in which digits are shown. -/
inductive ShownAs (digits : List Char) : List Char → Prop where
  | bare : ShownAs digits digits
  | hyphenated {text : List Char} (grouped : Hyphenated digits text) : ShownAs digits text
  | braced {text : List Char} (grouped : Hyphenated digits text) :
      ShownAs digits ('\x7b' :: text ++ ['\x7d'])
  | named {text : List Char} (grouped : Hyphenated digits text) :
      ShownAs digits ("urn:uuid:".toList ++ text)

theorem hyphenate_eq (lengths : List Nat) (digits : List Char) :
    hyphenate lengths digits = (lengths.splitLengths digits).flatMap ('-' :: ·) := by
  induction lengths generalizing digits with
  | nil => rfl
  | cons length rest ih => rw [hyphenate, ih, List.splitLengths_cons, List.flatMap_cons]

theorem flatMap_hyphen (occupied : parts ≠ []) :
    parts.flatMap ('-' :: ·) = '-' :: ['-'].intercalate parts := by
  induction parts with
  | nil => contradiction
  | cons first rest ih =>
      cases rest with
      | nil => simp
      | cons second rest =>
          rw [List.flatMap_cons, ih (List.cons_ne_nil _ _), List.intercalate_cons_cons]
          simp

theorem length_digits (id : SessionId) : id.digits.length = 32 := by
  rw [digits, length_flatMap_hexByte, id.length_eq]

/-- The digits of an id are written in hyphenated groups. -/
theorem hyphenated_grouped (id : SessionId) : Hyphenated id.digits id.grouped := by
  have parts_length : (groups.splitLengths id.digits).map List.length = groups :=
    List.map_splitLengths_length _ _ (Nat.le_of_eq id.length_digits.symm)
  have occupied : groups.splitLengths id.digits ≠ [] := by
    rw [groups, List.splitLengths_cons]
    exact List.cons_ne_nil _ _
  refine ⟨groups.splitLengths id.digits, parts_length,
    List.flatten_splitLengths _ _ (Nat.le_of_eq id.length_digits), ?_⟩
  rw [grouped, hyphenate_eq, flatMap_hyphen occupied]
  rfl

theorem unhyphenate?_flatMap (parts : List (List Char)) :
    unhyphenate? (parts.map List.length) (parts.flatMap ('-' :: ·)) = some parts.flatten := by
  induction parts with
  | nil => rfl
  | cons part rest ih => simp [unhyphenate?, ih]

theorem unhyphenate?_cons_eq_some_iff {length : Nat} :
    unhyphenate? (length :: lengths) text = some digits ↔
      ∃ inner later, text = '-' :: inner ∧ unhyphenate? lengths (inner.drop length) = some later ∧
        inner.take length ++ later = digits := by
  cases text with
  | nil => simp [unhyphenate?]
  | cons c inner =>
      by_cases hyphen : c = '-'
      · simp [unhyphenate?, hyphen, Option.map_eq_some_iff]
      · simp [unhyphenate?, hyphen]

theorem length_le_of_unhyphenate? (joined : unhyphenate? lengths text = some digits) :
    digits.length ≤ lengths.sum := by
  induction lengths generalizing text digits with
  | nil =>
      cases text with
      | nil =>
          cases joined
          exact Nat.le_refl _
      | cons => cases joined
  | cons length lengths ih =>
      obtain ⟨inner, later, -, onward, rfl⟩ := unhyphenate?_cons_eq_some_iff.mp joined
      have later_le := ih onward
      rw [List.length_append, List.length_take, List.sum_cons]
      omega

/-- Only the last group can be too short, and then there are too few digits. -/
theorem exists_parts_of_unhyphenate? (joined : unhyphenate? lengths text = some digits)
    (full : lengths.sum ≤ digits.length) :
    ∃ parts : List (List Char), parts.map List.length = lengths ∧ parts.flatten = digits ∧
      parts.flatMap ('-' :: ·) = text := by
  induction lengths generalizing text digits with
  | nil =>
      cases text with
      | nil =>
          cases joined
          exact ⟨[], rfl, rfl, rfl⟩
      | cons => cases joined
  | cons length lengths ih =>
      obtain ⟨inner, later, rfl, onward, rfl⟩ := unhyphenate?_cons_eq_some_iff.mp joined
      have later_le := length_le_of_unhyphenate? onward
      rw [List.length_append, List.length_take, List.sum_cons] at full
      obtain ⟨parts, parts_length, whole, spaced⟩ := ih onward (by omega)
      refine ⟨inner.take length :: parts, ?_, ?_, ?_⟩
      · rw [List.map_cons, parts_length, List.length_take]
        congr 1
        omega
      · rw [List.flatten_cons, whole]
      · rw [List.flatMap_cons, spaced, List.cons_append, List.take_append_drop]

/-- All digits are taken from hyphenated groups, and from nothing else. -/
theorem unhyphenate?_eq_some_iff (full : digits.length = 32) :
    unhyphenate? groups ('-' :: text) = some digits ↔ Hyphenated digits text := by
  constructor
  · intro joined
    obtain ⟨parts, parts_length, whole, spaced⟩ :=
      exists_parts_of_unhyphenate? joined (Nat.le_of_eq full.symm)
    have occupied : parts ≠ [] := by
      rintro rfl
      cases parts_length
    rw [flatMap_hyphen occupied] at spaced
    exact ⟨parts, parts_length, whole, List.tail_eq_of_cons_eq spaced⟩
  · rintro ⟨parts, parts_length, rfl, rfl⟩
    have occupied : parts ≠ [] := by
      rintro rfl
      cases parts_length
    rw [← flatMap_hyphen occupied, ← unhyphenate?_flatMap, parts_length]
    rfl

/-- Letters may be made lower-case before the hyphens are taken out. -/
theorem unhyphenate?_toLower (lengths : List Nat) (text : List Char) :
    unhyphenate? lengths (text.map Char.toLower) =
      (unhyphenate? lengths text).map (List.map Char.toLower) := by
  induction lengths generalizing text with
  | nil => cases text <;> rfl
  | cons length lengths ih =>
      ext digits
      simp only [Option.map_eq_some_iff, unhyphenate?_cons_eq_some_iff]
      constructor
      · rintro ⟨inner, later, lower, onward, rfl⟩
        obtain ⟨c, inner, rfl, isHyphen, rfl⟩ := List.map_eq_cons_iff.mp lower
        rw [← List.map_drop, ih] at onward
        obtain ⟨later, joined, rfl⟩ := Option.map_eq_some_iff.mp onward
        rw [(toLower_eq_iff rfl).mp isHyphen]
        exact ⟨_, ⟨inner, later, rfl, joined, rfl⟩, by rw [List.map_append, List.map_take]⟩
      · rintro ⟨_, ⟨inner, later, rfl, onward, rfl⟩, rfl⟩
        refine ⟨inner.map Char.toLower, later.map Char.toLower, rfl, ?_, ?_⟩
        · rw [← List.map_drop, ih, onward, Option.map_some]
        · rw [List.map_append, List.map_take]

theorem ofDigits?_eq_some_iff : ofDigits? text = some id ↔ text.map Char.toLower = id.digits := by
  rw [ofDigits?, Option.bind_eq_some_iff, digits]
  simp only [bytesOfHex?_eq_some_iff, FixedBytes.ofBytes?]
  constructor
  · rintro ⟨bytes, spelled, enough⟩
    split at enough
    · cases enough
      exact spelled
    · cases enough
  · intro spelled
    exact ⟨id.bytes, spelled, dif_pos id.length_eq⟩

theorem ofGrouped?_eq_some_iff :
    ofGrouped? text = some id ↔ Hyphenated id.digits (text.map Char.toLower) := by
  have joined : ofGrouped? text = some id ↔
      (unhyphenate? groups ('-' :: text)).map (List.map Char.toLower) = some id.digits := by
    simp only [ofGrouped?, Option.bind_eq_some_iff, ofDigits?_eq_some_iff, Option.map_eq_some_iff]
  rw [joined, ← unhyphenate?_toLower]
  exact unhyphenate?_eq_some_iff id.length_digits

theorem braced?_eq_some_iff {inner : List Char} :
    braced? text = some inner ↔ text = '\x7b' :: inner ++ ['\x7d'] := by
  constructor
  · intro found
    unfold braced? at found
    split at found
    · split at found
      · rename_i closed
        obtain ⟨front, rfl⟩ := List.getLast?_eq_some_iff.mp closed
        rw [List.dropLast_concat] at found
        cases found
        rfl
      · cases found
    · cases found
  · rintro rfl
    simp [braced?]

theorem named?_eq_some_iff {inner : List Char} :
    named? text = some inner ↔
      ∃ name, text = name ++ inner ∧ name.map Char.toLower = resourceName := by
  rw [named?]
  constructor
  · intro found
    split at found
    · rename_i isName
      cases found
      exact ⟨text.take resourceName.length, (List.take_append_drop _ _).symm, isName⟩
    · cases found
  · rintro ⟨name, rfl, isName⟩
    have length_eq : resourceName.length = name.length := by rw [← isName, List.length_map]
    rw [length_eq, List.take_left, List.drop_left, if_pos isName]

theorem bind_braced?_eq_some_iff :
    (braced? text).bind ofGrouped? = some id ↔
      ∃ form, Hyphenated id.digits form ∧ text.map Char.toLower = '\x7b' :: form ++ ['\x7d'] := by
  simp only [Option.bind_eq_some_iff, braced?_eq_some_iff, ofGrouped?_eq_some_iff]
  constructor
  · rintro ⟨inner, rfl, grouped⟩
    exact ⟨inner.map Char.toLower, grouped, by simp⟩
  · rintro ⟨form, grouped, lower⟩
    obtain ⟨front, back, rfl, lower, closes⟩ := List.map_eq_append_iff.mp lower
    obtain ⟨first, inner, rfl, opens, rfl⟩ := List.map_eq_cons_iff.mp lower
    obtain ⟨last, rest, rfl, closes, nothing⟩ := List.map_eq_cons_iff.mp closes
    rw [(toLower_eq_iff rfl).mp opens, (toLower_eq_iff rfl).mp closes,
      List.map_eq_nil_iff.mp nothing]
    exact ⟨inner, rfl, grouped⟩

theorem bind_named?_eq_some_iff :
    (named? text).bind ofGrouped? = some id ↔
      ∃ form, Hyphenated id.digits form ∧ text.map Char.toLower = resourceName ++ form := by
  simp only [Option.bind_eq_some_iff, named?_eq_some_iff, ofGrouped?_eq_some_iff]
  constructor
  · rintro ⟨inner, ⟨name, rfl, isName⟩, grouped⟩
    exact ⟨inner.map Char.toLower, grouped, by rw [List.map_append, isName]⟩
  · rintro ⟨form, grouped, lower⟩
    obtain ⟨name, inner, rfl, isName, rfl⟩ := List.map_eq_append_iff.mp lower
    exact ⟨inner, ⟨name, rfl, isName⟩, grouped⟩

theorem Hyphenated.exists_groups (grouped : Hyphenated digits text) :
    ∃ a b c d e : List Char, (a.length = 8 ∧ b.length = 4 ∧ c.length = 4 ∧ d.length = 4 ∧
      e.length = 12) ∧ digits = a ++ (b ++ (c ++ (d ++ e))) ∧
      text = a ++ '-' :: (b ++ '-' :: (c ++ '-' :: (d ++ '-' :: e))) := by
  obtain ⟨parts, lengths, rfl, rfl⟩ := grouped
  obtain ⟨a, parts, rfl, a_length, lengths⟩ := List.map_eq_cons_iff.mp lengths
  obtain ⟨b, parts, rfl, b_length, lengths⟩ := List.map_eq_cons_iff.mp lengths
  obtain ⟨c, parts, rfl, c_length, lengths⟩ := List.map_eq_cons_iff.mp lengths
  obtain ⟨d, parts, rfl, d_length, lengths⟩ := List.map_eq_cons_iff.mp lengths
  obtain ⟨e, parts, rfl, e_length, lengths⟩ := List.map_eq_cons_iff.mp lengths
  obtain rfl := List.map_eq_nil_iff.mp lengths
  refine ⟨a, b, c, d, e, ⟨a_length, b_length, c_length, d_length, e_length⟩, ?_, ?_⟩
  · simp
  · simp [List.intercalate_cons_cons]

theorem Hyphenated.length_eq (grouped : Hyphenated digits text) : text.length = 36 := by
  obtain ⟨a, b, c, d, e, lengths, -, rfl⟩ := grouped.exists_groups
  simp only [List.length_append, List.length_cons]
  omega

theorem Hyphenated.head?_eq (grouped : Hyphenated digits text) : text.head? = digits.head? := by
  obtain ⟨a, b, c, d, e, lengths, rfl, rfl⟩ := grouped.exists_groups
  cases a with
  | nil => exact absurd lengths.1 (by decide)
  | cons first rest => rfl

theorem ofDigits?_eq_none (other : text.length ≠ 32) : ofDigits? text = none := by
  refine Option.eq_none_iff_forall_ne_some.mpr fun id read => other ?_
  rw [← List.length_map Char.toLower, ofDigits?_eq_some_iff.mp read, length_digits]

theorem ofGrouped?_eq_none (other : text.length ≠ 36) : ofGrouped? text = none := by
  refine Option.eq_none_iff_forall_ne_some.mpr fun id read => other ?_
  rw [← List.length_map Char.toLower, (ofGrouped?_eq_some_iff.mp read).length_eq]

theorem bind_braced?_eq_none (other : text.length ≠ 38) :
    (braced? text).bind ofGrouped? = none := by
  refine Option.eq_none_iff_forall_ne_some.mpr fun id read => other ?_
  obtain ⟨form, grouped, lower⟩ := bind_braced?_eq_some_iff.mp read
  rw [← List.length_map Char.toLower, lower, List.length_append, List.length_cons,
    grouped.length_eq, List.length_singleton]

/-- A text without a mark is read as the id whose digits it shows. -/
theorem ofUnmarked?_eq_some_iff :
    ofUnmarked? text = some id ↔ ShownAs id.digits (text.map Char.toLower) := by
  constructor
  · intro read
    simp only [ofUnmarked?, Option.or_eq_some_iff] at read
    rcases read with bare | ⟨-, grouped | ⟨-, braced | ⟨-, named⟩⟩⟩
    · rw [ofDigits?_eq_some_iff.mp bare]
      exact .bare
    · exact .hyphenated (ofGrouped?_eq_some_iff.mp grouped)
    · obtain ⟨form, grouped, lower⟩ := bind_braced?_eq_some_iff.mp braced
      rw [lower]
      exact .braced grouped
    · obtain ⟨form, grouped, lower⟩ := bind_named?_eq_some_iff.mp named
      rw [lower]
      exact .named grouped
  · intro shown
    generalize lower : text.map Char.toLower = form at shown
    have length_eq : text.length = form.length := by rw [← lower, List.length_map]
    rw [ofUnmarked?]
    -- The four forms have four lengths, so none of those that are tried before can be read.
    cases shown with
    | bare => rw [ofDigits?_eq_some_iff.mpr lower, Option.some_or]
    | hyphenated grouped =>
        rw [grouped.length_eq] at length_eq
        rw [ofDigits?_eq_none (by omega), Option.none_or,
          ofGrouped?_eq_some_iff.mpr (lower ▸ grouped), Option.some_or]
    | braced grouped =>
        rw [List.length_append, List.length_cons, grouped.length_eq] at length_eq
        rw [ofDigits?_eq_none (by omega), Option.none_or, ofGrouped?_eq_none (by omega),
          Option.none_or, bind_braced?_eq_some_iff.mpr ⟨_, grouped, lower⟩, Option.some_or]
    | named grouped =>
        rw [List.length_append, grouped.length_eq] at length_eq
        change text.length = 9 + 36 at length_eq
        rw [ofDigits?_eq_none (by omega), Option.none_or, ofGrouped?_eq_none (by omega),
          Option.none_or, bind_braced?_eq_none (by omega), Option.none_or]
        exact bind_named?_eq_some_iff.mpr ⟨_, grouped, lower⟩

/-- The digits of ids are 32 lower-case digits. -/
theorem exists_digits_iff :
    (∃ id : SessionId, id.digits = digits) ↔
      digits.length = 32 ∧ ∀ c ∈ digits, c ∈ hexAlphabet := by
  rw [← @exists_flatMap_hexByte_iff digits 16]
  constructor
  · rintro ⟨id, rfl⟩
    exact ⟨id.bytes, id.length_eq, rfl⟩
  · rintro ⟨bytes, length_eq, rfl⟩
    exact ⟨⟨bytes, length_eq⟩, rfl⟩

/-- No form begins with the letter with which the mark begins. -/
theorem not_shownAs_mark (rest : List Char) :
    ¬ ShownAs id.digits ((mark ++ rest).map Char.toLower) := by
  have notDigit : id.digits.head? ≠ some 's' := by
    intro first
    have member := (exists_digits_iff.mp ⟨id, rfl⟩).2 _ (List.mem_of_head? first)
    exact absurd member (by decide)
  generalize begins : (mark ++ rest).map Char.toLower = form
  have first : form.head? = some 's' := by
    rw [← begins]
    rfl
  intro shown
  cases shown with
  | bare => exact notDigit first
  | hyphenated grouped => exact notDigit (grouped.head?_eq ▸ first)
  | braced => exact absurd first (by simp)
  | named => exact absurd first (by simp)

/-- A text is read as the id whose digits it shows, possibly behind a mark. -/
theorem ofText?_eq_some_iff {t : String} :
    ofText? t = some id ↔ ∃ spelled, (t.toList = spelled ∨ t.toList = mark ++ spelled) ∧
      ShownAs id.digits (spelled.map Char.toLower) := by
  simp only [ofText?, ofUnmarked?_eq_some_iff, List.isPrefixOf_iff_prefix]
  split
  · rename_i marked
    obtain ⟨rest, whole⟩ := marked
    rw [← whole, List.drop_left]
    constructor
    · intro shown
      exact ⟨rest, .inr rfl, shown⟩
    · rintro ⟨spelled, rfl | same, shown⟩
      · exact absurd shown (not_shownAs_mark rest)
      · rwa [List.append_cancel_left same]
  · rename_i unmarked
    constructor
    · intro shown
      exact ⟨_, .inl rfl, shown⟩
    · rintro ⟨spelled, rfl | same, shown⟩
      · exact shown
      · exact absurd ⟨spelled, same.symm⟩ unmarked

theorem Hyphenated.mem_cases (grouped : Hyphenated digits text) :
    ∀ c ∈ text, c = '-' ∨ c ∈ digits := by
  obtain ⟨a, b, c, d, e, -, rfl, rfl⟩ := grouped.exists_groups
  intro x member
  simp only [List.mem_append, List.mem_cons] at member ⊢
  grind

/-- An id is written in lower case. -/
theorem toLower_grouped (id : SessionId) : id.grouped.map Char.toLower = id.grouped := by
  have lower : ∀ c ∈ hexAlphabet, c.toLower = c := by
    intro c member
    obtain ⟨value, value_lt, rfl⟩ := (exists_hexDigit_iff c).mpr member
    exact toLower_hexDigit value value_lt
  have each : ∀ c ∈ id.grouped, c.toLower = c := by
    intro c member
    rcases id.hyphenated_grouped.mem_cases c member with rfl | isDigit
    · rfl
    · exact lower c ((exists_digits_iff.mp ⟨id, rfl⟩).2 c isDigit)
  calc id.grouped.map Char.toLower = id.grouped.map fun c => c := List.map_congr_left each
    _ = id.grouped := List.map_id' _

theorem ofText?_text (id : SessionId) : ofText? id.text = some id := by
  refine ofText?_eq_some_iff.mpr ⟨id.grouped, .inr String.toList_ofList, .hyphenated ?_⟩
  rw [toLower_grouped]
  exact id.hyphenated_grouped

/-- Every id is written as a mark and two digits for each byte in hyphenated groups, no two ids have
one text, and the text of an id is read as this id. A text is read as an id exactly if it shows the
digits of this id in some form, with letters of either case and with at most one mark in front. So
it is read as some id exactly if it shows 32 digits in this way. -/
theorem text_faithful :
    (∀ id : SessionId, ofText? id.text = some id ∧ ∃ grouped,
      Hyphenated (id.bytes.flatMap fun b =>
        [Nat.digitChar (b.toNat / 16), Nat.digitChar (b.toNat % 16)]) grouped ∧
      id.text.toList = "session_".toList ++ grouped) ∧
    (∀ id other : SessionId, id.text = other.text → id = other) ∧
    (∀ t id, ofText? t = some id ↔ ∃ spelled,
      (t.toList = spelled ∨ t.toList = "session_".toList ++ spelled) ∧
        ShownAs id.digits (spelled.map Char.toLower)) ∧
    (∀ t, (∃ id, ofText? t = some id) ↔ ∃ spelled digits,
      (t.toList = spelled ∨ t.toList = "session_".toList ++ spelled) ∧
        ShownAs digits (spelled.map Char.toLower) ∧
        digits.length = 32 ∧ ∀ c ∈ digits, c ∈ "0123456789abcdef".toList) ∧
    ∀ t id, ofText? t = some id → ofText? id.text = some id := by
  refine ⟨?_, ?_, fun t id => ofText?_eq_some_iff, ?_, fun _ id _ => ofText?_text id⟩
  · intro id
    exact ⟨ofText?_text id, id.grouped, id.hyphenated_grouped, String.toList_ofList⟩
  · intro id other same
    have read := ofText?_text id
    rw [same, ofText?_text] at read
    exact (Option.some.inj read).symm
  · intro t
    constructor
    · rintro ⟨id, read⟩
      obtain ⟨spelled, given, shown⟩ := ofText?_eq_some_iff.mp read
      exact ⟨spelled, id.digits, given, shown, exists_digits_iff.mp ⟨id, rfl⟩⟩
    · rintro ⟨spelled, digits, given, shown, areDigits⟩
      obtain ⟨id, rfl⟩ := exists_digits_iff.mpr areDigits
      exact ⟨id, ofText?_eq_some_iff.mpr ⟨spelled, given, shown⟩⟩

/-- Behind a mark, the resource name and digits of both cases are read as the id that is written in
lower case; behind two marks nothing is read. -/
theorem text_faithful_urn :
    ∃ id : SessionId, id.text = "session_67e55044-10b1-426f-9247-bb680e5fe0c8" ∧
      ofText? "session_URN:Uuid:67E55044-10B1-426f-9247-bb680e5fe0c8" = some id ∧
      ofText? id.text = some id ∧
      ofText? "session_session_67e55044-10b1-426f-9247-bb680e5fe0c8" = none := by
  have read := (text_faithful.2.2.1 "session_URN:Uuid:67E55044-10B1-426f-9247-bb680e5fe0c8"
    ⟨[0x67, 0xe5, 0x50, 0x44, 0x10, 0xb1, 0x42, 0x6f,
      0x92, 0x47, 0xbb, 0x68, 0x0e, 0x5f, 0xe0, 0xc8], rfl⟩).mpr
      ⟨"URN:Uuid:67E55044-10B1-426f-9247-bb680e5fe0c8".toList, .inr (by decide),
        .named ⟨["67e55044".toList, "10b1".toList, "426f".toList, "9247".toList,
          "bb680e5fe0c8".toList], by decide, by decide, by decide⟩⟩
  exact ⟨_, by decide, read, text_faithful.2.2.2.2 _ _ read, by decide⟩

end Ferry.SessionId
