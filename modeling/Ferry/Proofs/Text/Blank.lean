import Mathlib.Data.List.DropRight
import Ferry.Text.Blank

/-!
# Trimmed texts

Dropping what satisfies a condition from the end of a list leaves the one part that does not end
with it. Trimming a text leaves the one part that neither begins nor ends with a blank character and
has nothing but such characters around it.
-/

namespace Ferry.Text

variable {α : Type} {p : α → Bool} {l front back : List α}

/-- A list ends with an element that satisfies a condition. -/
def EndsWith (p : α → Bool) (l : List α) : Prop := ∃ x, l.getLast? = some x ∧ p x = true

/-- A list begins with an element that satisfies a condition. -/
def BeginsWith (p : α → Bool) (l : List α) : Prop := ∃ x, l.head? = some x ∧ p x = true

theorem not_endsWith_nil : ¬ EndsWith p [] := by
  rintro ⟨x, last, -⟩
  cases last

@[simp]
theorem endsWith_concat_iff {x : α} : EndsWith p (l ++ [x]) ↔ p x = true := by
  simp [EndsWith]

@[simp]
theorem beginsWith_cons_iff {x : α} : BeginsWith p (x :: l) ↔ p x = true := by
  simp [BeginsWith]

theorem endsWith_append_iff (occupied : back ≠ []) :
    EndsWith p (front ++ back) ↔ EndsWith p back := by
  rw [EndsWith, EndsWith, List.getLast?_append_of_ne_nil _ occupied]

theorem beginsWith_append_iff (occupied : front ≠ []) :
    BeginsWith p (front ++ back) ↔ BeginsWith p front := by
  cases front with
  | nil => contradiction
  | cons x rest => simp

theorem endsWith_of_forall (occupied : l ≠ []) (all : ∀ x ∈ l, p x = true) : EndsWith p l :=
  ⟨l.getLast occupied, List.getLast?_eq_some_getLast occupied, all _ (List.getLast_mem occupied)⟩

/-- What is left of a list after its end was dropped, and what was dropped. -/
theorem exists_dropEndWhile (p : α → Bool) (l : List α) :
    ∃ back, l = dropEndWhile p l ++ back ∧ (∀ x ∈ back, p x = true) ∧
      ¬ EndsWith p (dropEndWhile p l) := by
  refine ⟨l.rtakeWhile p, List.rdropWhile_append_rtakeWhile.symm,
    fun x member => List.mem_rtakeWhile_imp member, ?_⟩
  rintro ⟨x, last, holds⟩
  have occupied : l.rdropWhile p ≠ [] := by
    intro empty
    rw [dropEndWhile, ← List.rdropWhile, empty] at last
    cases last
  have same : (l.rdropWhile p).getLast occupied = x :=
    Option.some.inj ((List.getLast?_eq_some_getLast occupied).symm.trans last)
  exact List.rdropWhile_last_not p l occupied (same ▸ holds)

/-- Only one part can be left. -/
theorem dropEndWhile_append (all : ∀ x ∈ back, p x = true) (ends : ¬ EndsWith p front) :
    dropEndWhile p (front ++ back) = front := by
  induction back using List.reverseRecOn with
  | nil =>
      rw [List.append_nil]
      apply List.rdropWhile_eq_self_iff.mpr
      intro occupied holds
      exact ends ⟨_, List.getLast?_eq_some_getLast occupied, holds⟩
  | append_singleton back x ih =>
      obtain ⟨others, last⟩ := List.forall_mem_append.mp all
      have holds : p x = true := last x (List.mem_singleton_self x)
      rw [← List.append_assoc]
      exact (List.rdropWhile_concat_pos p (front ++ back) x holds).trans (ih others)

/-- What is left of a list after its beginning was dropped, and what was dropped. -/
theorem exists_dropWhile (p : α → Bool) (l : List α) :
    ∃ front, l = front ++ l.dropWhile p ∧ (∀ x ∈ front, p x = true) ∧
      ¬ BeginsWith p (l.dropWhile p) := by
  refine ⟨l.takeWhile p, List.takeWhile_append_dropWhile.symm,
    fun x member => List.mem_takeWhile_imp member, ?_⟩
  rintro ⟨x, first, holds⟩
  have stops := List.head?_dropWhile_not p l
  rw [first] at stops
  exact absurd holds (Bool.eq_false_iff.mp stops)

theorem dropWhile_append (all : ∀ x ∈ front, p x = true) (begins : ¬ BeginsWith p back) :
    (front ++ back).dropWhile p = back := by
  induction front with
  | nil =>
      cases back with
      | nil => rfl
      | cons x rest => exact List.dropWhile_cons_of_neg (fun holds => begins (by simpa using holds))
  | cons x rest ih =>
      obtain ⟨holds, others⟩ := List.forall_mem_cons.mp all
      rw [List.cons_append, List.dropWhile_cons_of_pos holds]
      exact ih others

/-- What is left of a text after it was trimmed, and what was around it. -/
theorem exists_trim (text : List Char) :
    ∃ front back, text = front ++ trim text ++ back ∧ AllBlank front ∧ AllBlank back ∧
      ¬ BeginsWith isBlank (trim text) ∧ ¬ EndsWith isBlank (trim text) := by
  obtain ⟨front, whole, blank, begins⟩ := exists_dropWhile isBlank text
  obtain ⟨back, inner, blanks, ends⟩ := exists_dropEndWhile isBlank (text.dropWhile isBlank)
  refine ⟨front, back, ?_, blank, blanks, ?_, ends⟩
  · rw [List.append_assoc, trim, ← inner]
    exact whole
  · intro starts
    apply begins
    have occupied : trim text ≠ [] := by
      rintro empty
      obtain ⟨x, first, -⟩ := starts
      rw [empty] at first
      cases first
    rw [inner]
    exact (beginsWith_append_iff occupied).mpr starts

/-- Only one part of a text can be left. -/
theorem trim_append {front inner back : List Char} (blank : AllBlank front)
    (begins : ¬ BeginsWith isBlank inner) (ends : ¬ EndsWith isBlank inner)
    (blanks : AllBlank back) : trim (front ++ inner ++ back) = inner := by
  by_cases empty : inner = []
  · have all : AllBlank (front ++ back) := List.forall_mem_append.mpr ⟨blank, blanks⟩
    rw [empty, List.append_nil, trim, List.dropWhile_eq_nil_iff.mpr all]
    rfl
  · have starts : ¬ BeginsWith isBlank (inner ++ back) := fun starts =>
      begins ((beginsWith_append_iff empty).mp starts)
    rw [List.append_assoc, trim, dropWhile_append blank starts]
    exact dropEndWhile_append blanks ends

theorem trim_eq_nil_iff {text : List Char} : trim text = [] ↔ AllBlank text := by
  constructor
  · intro nothing
    obtain ⟨front, back, whole, blank, blanks, -, -⟩ := exists_trim text
    rw [nothing, List.append_nil] at whole
    rw [whole]
    exact List.forall_mem_append.mpr ⟨blank, blanks⟩
  · intro blank
    rw [trim, List.dropWhile_eq_nil_iff.mpr blank]
    rfl

end Ferry.Text
