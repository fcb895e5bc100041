import Ferry.Proofs.Artifact.Files

/-!
# Names beside a file

A path that leads to a file ends in the name of the file, and its temporary path ends in the temporary
name; so the two lead to different places. A plain name leads to its own place in the working
directory.
-/

namespace Ferry

namespace Path

theorem split_ne_nil (text : List Char) : split text ≠ [] := by
  cases text with
  | nil => exact List.cons_ne_nil _ _
  | cons c rest =>
      rw [split]
      split
      · exact List.cons_ne_nil _ _
      · split <;> exact List.cons_ne_nil _ _

theorem split_append (front rest : List Char) :
    split (front ++ '/' :: rest) = split front ++ split rest := by
  induction front with
  | nil => rfl
  | cons c front ih =>
      rw [List.cons_append, split, split, ih]
      split
      · rfl
      · cases parts : split front with
        | nil => exact absurd parts (split_ne_nil front)
        | cons first others => rfl

theorem split_of_unslashed {text : List Char} (unslashed : '/' ∉ text) : split text = [text] := by
  induction text with
  | nil => rfl
  | cons c rest ih =>
      obtain ⟨differs, unslashed⟩ := not_or.mp (mt List.mem_cons.mpr unslashed)
      rw [split, if_neg (Ne.symm differs), ih unslashed]

theorem unslashed_of_mem_split {text component : List Char} (member : component ∈ split text) :
    '/' ∉ component := by
  induction text generalizing component with
  | nil =>
      obtain rfl := List.mem_singleton.mp member
      exact List.not_mem_nil
  | cons c rest ih =>
      rw [split] at member
      split at member
      · rcases List.mem_cons.mp member with rfl | member
        · exact List.not_mem_nil
        · exact ih member
      · rename_i differs
        cases parts : split rest with
        | nil => exact absurd parts (split_ne_nil rest)
        | cons first others =>
            rw [parts] at member ih
            rcases List.mem_cons.mp member with rfl | member
            · exact fun slash => (List.mem_cons.mp slash).elim (Ne.symm differs)
                (ih List.mem_cons_self)
            · exact ih (List.mem_cons_of_mem _ member)

theorem unslashed_of_mem {path component : String} (member : component ∈ components path) :
    '/' ∉ component.toList := by
  obtain ⟨part, within, rfl⟩ := List.mem_map.mp member
  rw [String.toList_ofList]
  exact unslashed_of_mem_split within

/-- The last of the components that spell a path is the last component of the path. -/
theorem components_ofComponents_concat (outer : List String) {name : String}
    (unslashed : '/' ∉ name.toList) :
    ∃ front, components (ofComponents (outer ++ [name])) = front ++ [name] := by
  by_cases alone : outer = []
  · refine ⟨[], ?_⟩
    rw [alone, ofComponents, List.nil_append, String.intercalate_singleton, components,
      split_of_unslashed unslashed]
    simp
  · refine ⟨components (ofComponents outer), ?_⟩
    have text_eq : (ofComponents (outer ++ [name])).toList =
        (ofComponents outer).toList ++ '/' :: name.toList := by
      rw [ofComponents, String.intercalate_append_of_ne_nil alone (List.cons_ne_nil _ _),
        String.intercalate_singleton]
      simp [ofComponents]
    rw [components, text_eq, split_append, split_of_unslashed unslashed, List.map_append]
    simp [components]

/-- A file name is followed by nothing in its path. -/
def EndsIn (path name : String) : Prop :=
  (∃ front, components path = front ++ [name]) ∧ stays name = false ∧ name ≠ ".."

variable {path name : String}

theorem EndsIn.reversed_eq (ends : EndsIn path name) : ∃ outer, reversed path = name :: outer := by
  obtain ⟨⟨front, parts⟩, moves, -⟩ := ends
  refine ⟨front.reverse, ?_⟩
  rw [reversed, parts, List.reverse_append, List.reverse_singleton, List.singleton_append,
    List.dropWhile_cons, if_neg (by rw [moves]; exact Bool.false_ne_true)]

theorem EndsIn.unslashed (ends : EndsIn path name) : '/' ∉ name.toList := by
  obtain ⟨⟨front, parts⟩, -⟩ := ends
  exact unslashed_of_mem (parts ▸ List.mem_append_right front (List.mem_singleton_self name))

/-- A plain name is one by which a file can be called: it is neither empty nor dots that lead
elsewhere, it has no slash in it, and it is not too long. -/
structure Plain (name : String) : Prop where
  nonempty : name ≠ ""
  unslashed : '/' ∉ name.toList
  notHere : name ≠ "."
  notOuter : name ≠ ".."
  suitable : Directory.suitable name = true

theorem Plain.components_eq (plain : Plain name) : components name = [name] := by
  simp [components, split_of_unslashed plain.unslashed]

theorem Plain.endsIn (plain : Plain name) : EndsIn name name :=
  ⟨⟨[], plain.components_eq⟩, by simp [stays, plain.nonempty, plain.notHere], plain.notOuter⟩

end Path

namespace SnapshotFile

open Ferry.Path

variable {path name : String}

/-- The name under which an artifact is written before it is moved to its place. -/
def temporaryName (name : String) : String := s!".{name}.tmp"

theorem toList_temporaryName (name : String) :
    (temporaryName name).toList = '.' :: (name.toList ++ ['.', 't', 'm', 'p']) := by
  change ("." ++ name ++ ".tmp").toList = _
  simp [String.toList_append]

theorem temporaryName_ne (name : String) : temporaryName name ≠ name := by
  intro same
  have lengths := congrArg (fun text : String => text.toList.length) same
  simp only [toList_temporaryName, List.length_cons, List.length_append] at lengths
  omega

/-- The temporary path of a plain name is its temporary name. -/
theorem temporaryPath_of_plain (plain : Plain name) : temporaryPath name = temporaryName name := by
  have reversed_eq : reversed name = [name] := by
    simp [reversed, plain.components_eq, stays, plain.nonempty, plain.notHere]
  simp only [temporaryPath, fileName?, withName, reversed_eq, if_neg plain.notOuter]
  rw [Option.getD_some, trimmed, List.reverse_singleton, ofComponents, String.intercalate_singleton]
  rfl

/-- A temporary path ends in the temporary name of the file. -/
theorem endsIn_temporaryPath (ends : EndsIn path name) :
    EndsIn (temporaryPath path) (temporaryName name) := by
  obtain ⟨outer, reversed_eq⟩ := ends.reversed_eq
  have path_eq : temporaryPath path =
      ofComponents ((trimmed outer).reverse ++ [temporaryName name]) := by
    simp only [temporaryPath, fileName?, withName, reversed_eq, if_neg ends.2.2]
    rw [Option.getD_some, List.reverse_cons]
    rfl
  have unslashed : '/' ∉ (temporaryName name).toList := by
    rw [toList_temporaryName]
    have inner := ends.unslashed
    simp [inner]
  have long : 5 ≤ (temporaryName name).toList.length := by
    simp [toList_temporaryName]
  refine ⟨?_, ?_, ?_⟩
  · rw [path_eq]
    exact components_ofComponents_concat _ unslashed
  · rw [stays, Bool.or_eq_false_iff]
    constructor <;> rw [beq_eq_false_iff_ne] <;> intro same <;> rw [same] at long <;>
      exact absurd long (by decide)
  · intro same
    rw [same] at long
    exact absurd long (by decide)

end SnapshotFile

namespace Directory

open Ferry.Path

variable {directory : Directory} {here location : Location}

/-- The last component is followed from a directory. -/
theorem walk_concat_eq_ok_iff {front : List String} {last : String} :
    directory.walk here (front ++ [last]) = .ok location ↔
      ∃ between, directory.walk here front = .ok between ∧
        directory.entry? between = some .directory ∧ stepTo between last = .ok location := by
  induction front generalizing here with
  | nil =>
      rw [List.nil_append, walk, walk]
      cases stands : directory.entry? here with
      | none => simp [stands]
      | some entry =>
          cases entry with
          | file bytes => simp [stands]
          | directory =>
              simp only [Except.ok.injEq, exists_eq_left', stands, true_and]
              cases stepTo here last <;> simp [walk]
  | cons component front ih =>
      rw [List.cons_append, walk, walk]
      cases directory.entry? here with
      | none => simp
      | some entry =>
          cases entry with
          | file bytes => simp
          | directory =>
              cases stepTo here component with
              | error refusal => simp
              | ok next => exact ih

/-- All places that enclose a place are directories. -/
def Encloses (directory : Directory) (location : Location) : Prop :=
  ∀ outer, outer <:+ location.names → outer ≠ location.names →
    directory.entry? ⟨location.anchor, outer⟩ = some .directory

theorem encloses_of_outermost (outermost : location.names = []) : directory.Encloses location := by
  intro outer within differs
  rw [outermost] at within differs
  exact absurd (List.suffix_nil.mp within) differs

theorem Encloses.parent (encloses : directory.Encloses location) :
    directory.Encloses location.parent ∧
      directory.entry? location.parent = some .directory := by
  rcases location with ⟨anchor, names⟩
  cases names with
  | nil => exact ⟨encloses_of_outermost rfl, rfl⟩
  | cons name outer =>
      refine ⟨fun further within differs => ?_, ?_⟩
      · refine encloses further (within.trans (List.suffix_cons name outer)) ?_
        rintro rfl
        have length_le := within.length_le
        exact Nat.not_succ_le_self outer.length length_le
      · exact encloses outer (List.suffix_cons name outer) (List.cons_ne_self name outer).symm

theorem Encloses.child (encloses : directory.Encloses location)
    (stands : directory.entry? location = some .directory) (name : String) :
    directory.Encloses (location.child name) := by
  intro outer within differs
  rcases List.suffix_cons_iff.mp within with same | within
  · exact absurd same differs
  · by_cases same : outer = location.names
    · rw [same]
      exact stands
    · exact encloses outer within same

theorem Encloses.walk {components : List String} (encloses : directory.Encloses here)
    (leads : directory.walk here components = .ok location) : directory.Encloses location := by
  induction components generalizing here with
  | nil =>
      cases leads
      exact encloses
  | cons component rest ih =>
      rw [Directory.walk] at leads
      cases stands : directory.entry? here with
      | none => simp [stands] at leads
      | some entry =>
          cases entry with
          | file bytes => simp [stands] at leads
          | directory =>
              rw [stands] at leads
              simp only at leads
              cases stepped : stepTo here component with
              | error refusal => simp [stepped] at leads
              | ok next =>
                  rw [stepped] at leads
                  refine ih ?_ leads
                  rw [stepTo] at stepped
                  split at stepped
                  · cases stepped
                    exact encloses
                  · split at stepped
                    · cases stepped
                      exact encloses.parent.1
                    · split at stepped
                      · cases stepped
                        exact encloses.child stands component
                      · cases stepped

theorem walk_of_locate {path : String} (leads : directory.locate path = .ok location) :
    directory.walk (origin path) (components path) = .ok location := by
  rw [locate, follow] at leads
  split at leads
  · cases leads
  · split at leads
    · cases leads
    · exact leads

theorem encloses_origin (directory : Directory) (path : String) :
    directory.Encloses (origin path) := by
  apply encloses_of_outermost
  rw [origin]
  split <;> rfl

/-- A path that ends in a name leads to a place of that name. -/
theorem head?_of_endsIn {path name : String} (ends : EndsIn path name)
    (leads : directory.locate path = .ok location) : location.names.head? = some name := by
  obtain ⟨⟨front, parts⟩, moves, differs⟩ := ends
  have walked := walk_of_locate leads
  rw [parts] at walked
  obtain ⟨between, -, -, stepped⟩ := walk_concat_eq_ok_iff.mp walked
  rw [stepTo, if_neg (by rw [moves]; exact Bool.false_ne_true), if_neg differs] at stepped
  split at stepped
  · cases stepped
    rfl
  · cases stepped

/-- A path that does not lead to a directory ends in a name. -/
theorem exists_endsIn {path : String} (leads : directory.locate path = .ok location)
    (free : directory.entry? location ≠ some .directory) : ∃ name, EndsIn path name := by
  have walked := walk_of_locate leads
  rcases List.eq_nil_or_concat (components path) with none | ⟨front, last, parts⟩
  · exact absurd (List.map_eq_nil_iff.mp none) (split_ne_nil _)
  · rw [List.concat_eq_append] at parts
    rw [parts] at walked
    obtain ⟨between, reached, stands, stepped⟩ := walk_concat_eq_ok_iff.mp walked
    refine ⟨last, ⟨front, parts⟩, ?_, ?_⟩
    · rw [← Bool.not_eq_true]
      intro remains
      rw [stepTo, if_pos remains] at stepped
      cases stepped
      exact free stands
    · rintro rfl
      have stepped_out : location = between.parent := by
        simpa [stepTo, stays, eq_comm] using stepped
      have encloses := (encloses_origin directory path).walk reached
      rw [stepped_out] at free
      exact free encloses.parent.2

/-- The place of a name in the working directory. -/
def named (name : String) : Location := Location.child {} name

/-- A plain name leads to its own place. -/
theorem locate_of_plain {name : String} (plain : Plain name) :
    directory.locate name = .ok (named name) := by
  have short : ¬ maxLength < (Bytes.ofText name).length := by
    have suitable := plain.suitable
    simp only [Directory.suitable, Bool.and_eq_true, decide_eq_true_eq] at suitable
    exact Nat.not_lt.mpr (Nat.le_trans suitable.1 (by decide))
  have begins : origin name = {} := by
    rw [origin, if_neg]
    exact fun slash => plain.unslashed (List.mem_of_mem_head? slash)
  have moves : ¬ stays name = true := by
    simp [stays, plain.nonempty, plain.notHere]
  rw [locate, follow, if_neg plain.nonempty, if_neg short, plain.components_eq, begins]
  simp only [walk, entry?, if_pos, stepTo, if_neg moves, if_neg plain.notOuter, plain.suitable]
  rfl

/-- The temporary path of a file leads to another place than that of the file. -/
theorem temporary_ne {path : String} {start : Location}
    (leads : directory.locate path = .ok location)
    (free : directory.entry? location ≠ some .directory)
    (starts : directory.locate (SnapshotFile.temporaryPath path) = .ok start) :
    start ≠ location := by
  obtain ⟨name, ends⟩ := exists_endsIn leads free
  have target_name := head?_of_endsIn ends leads
  have start_name := head?_of_endsIn (SnapshotFile.endsIn_temporaryPath ends) starts
  rintro rfl
  rw [target_name] at start_name
  exact SnapshotFile.temporaryName_ne name (Option.some.inj start_name).symm

end Directory

end Ferry
