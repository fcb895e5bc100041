import Ferry.Proofs.Machine.Validity

/-!
# What a table of functions is refused for

A table is judged function by function. The first one that repeats a name or is unfit decides: a
repeated name is told before anything else about the function, then its body as a whole, and then
the first instruction that names a target, a slot or a function that does not exist. A table that is
not refused becomes a module, in which names and indices lead to each other.
-/

namespace Ferry

namespace Function

/-- What is wrong with an instruction at offset `pc` of a function in a table of `count`. -/
inductive Misuses (function : Function) (count pc : Nat) : Instruction → Module.Defect → Prop where
  | jump {target : UInt32} (outside : function.code.size ≤ target.toNat) :
      Misuses function count pc (.jump target)
        (.badJump function.name pc target function.code.size)
  | jumpIf {target : UInt32} (outside : function.code.size ≤ target.toNat) :
      Misuses function count pc (.jumpIf target)
        (.badJump function.name pc target function.code.size)
  | jumpIfNot {target : UInt32} (outside : function.code.size ≤ target.toNat) :
      Misuses function count pc (.jumpIfNot target)
        (.badJump function.name pc target function.code.size)
  | localGet {slot : UInt32} (missing : function.locals ≤ slot) :
      Misuses function count pc (.localGet slot) (.badLocal function.name pc slot function.locals)
  | localSet {slot : UInt32} (missing : function.locals ≤ slot) :
      Misuses function count pc (.localSet slot) (.badLocal function.name pc slot function.locals)
  | localTee {slot : UInt32} (missing : function.locals ≤ slot) :
      Misuses function count pc (.localTee slot) (.badLocal function.name pc slot function.locals)
  | call {callee : UInt32} (unknown : count ≤ callee.toNat) :
      Misuses function count pc (.call callee) (.badCall function.name pc callee)

/-- The last instruction of the body is one after which control does not go on. -/
def Ends (function : Function) : Prop :=
  ∃ last, function.code.back? = some last ∧
    (last = .ret ∨ last = .unreachable ∨ ∃ target, last = .jump target)

/-- What an unfit function is refused for. -/
inductive Refused (function : Function) (count : Nat) : Module.Defect → Prop where
  | emptyBody (empty : function.code = #[]) : Refused function count (.emptyBody function.name)
  | missingTerminator (occupied : function.code ≠ #[]) (goesOn : ¬ function.Ends) :
      Refused function count (.missingTerminator function.name)
  | paramsExceedLocals (ends : function.Ends) (exceed : function.locals < function.params) :
      Refused function count
        (.paramsExceedLocals function.name function.params function.locals)
  /-- The first instruction with which something is wrong. -/
  | instruction {before after : List Instruction} {instruction : Instruction}
      {defect : Module.Defect} (ends : function.Ends)
      (params_le : function.params ≤ function.locals)
      (parted : function.code.toList = before ++ instruction :: after)
      (admits : ∀ other ∈ before, function.Admits count other)
      (misuses : function.Misuses count before.length instruction defect) :
      Refused function count defect

variable {function : Function} {count pc : Nat} {instruction : Instruction}
  {defect : Module.Defect}

theorem instructionDefect?_eq_some_iff :
    function.instructionDefect? count pc instruction = some defect ↔
      function.Misuses count pc instruction defect := by
  cases instruction
  case jump | jumpIf | jumpIfNot | localGet | localSet | localTee | call =>
    simp only [instructionDefect?, Instruction.jumpTarget?, Instruction.localSlot?,
      Instruction.callee?, Option.bind_some, Option.bind_none, Option.or_none, Option.none_or,
      Option.ite_none_right_eq_some, Option.some.injEq]
    constructor
    · rintro ⟨misused, rfl⟩
      constructor
      exact misused
    · intro misuses
      cases misuses
      exact ⟨by assumption, rfl⟩
  all_goals
    simp only [instructionDefect?, Instruction.jumpTarget?, Instruction.localSlot?,
      Instruction.callee?, Option.bind_none, Option.or_none, reduceCtorEq, false_iff]
    rintro ⟨⟩

theorem ends_iff :
    function.Ends ↔ ∃ last, function.code.back? = some last ∧ last.isTerminator = true := by
  have terminator_iff (last : Instruction) : last.isTerminator = true ↔
      last = .ret ∨ last = .unreachable ∨ ∃ target, last = .jump target := by
    cases last <;> simp [Instruction.isTerminator]
  simp only [Ends, terminator_iff]

/-- The search through a body stops at the first instruction that is not admitted. -/
theorem findSome?_instructionDefect?_eq_some_iff :
    (function.code.toList.zipIdx.findSome? fun pair =>
        function.instructionDefect? count pair.2 pair.1) = some defect ↔
      ∃ before instruction after, function.code.toList = before ++ instruction :: after ∧
        (∀ other ∈ before, function.Admits count other) ∧
        function.Misuses count before.length instruction defect := by
  rw [List.findSome?_eq_some_iff]
  constructor
  · rintro ⟨front, pair, back, parted, found, clean⟩
    obtain ⟨before, rest, whole, rfl, tail⟩ := List.zipIdx_eq_append_iff.mp parted
    obtain ⟨instruction, after, rfl, rfl, -⟩ := List.zipIdx_eq_cons_iff.mp tail.symm
    rw [instructionDefect?_eq_some_iff, Nat.zero_add] at found
    refine ⟨before, instruction, after, whole, ?_, found⟩
    intro other member
    obtain ⟨pc, at_pc⟩ := List.mem_iff_getElem?.mp member
    exact (function.instructionDefect?_eq_none_iff count pc other).mp
      (clean (other, pc) (List.mk_mem_zipIdx_iff_getElem?.mpr at_pc))
  · rintro ⟨before, instruction, after, whole, admits, misuses⟩
    refine ⟨before.zipIdx, (instruction, before.length), after.zipIdx (before.length + 1), ?_,
      instructionDefect?_eq_some_iff.mpr misuses, ?_⟩
    · rw [whole, List.zipIdx_append, List.zipIdx_cons, Nat.zero_add]
    · rintro ⟨other, pc⟩ member
      have at_pc := List.mk_mem_zipIdx_iff_getElem?.mp member
      exact (function.instructionDefect?_eq_none_iff count pc other).mpr
        (admits other (List.mem_of_getElem? at_pc))

theorem defect?_of_empty (empty : function.code = #[]) :
    function.defect? count = some (.emptyBody function.name) := by
  simp [defect?, empty]

theorem defect?_of_not_ends (occupied : function.code ≠ #[]) (goesOn : ¬ function.Ends) :
    function.defect? count = some (.missingTerminator function.name) := by
  cases back : function.code.back? with
  | none => exact absurd (Array.back?_eq_none_iff.mp back) occupied
  | some last =>
      have falls : ¬ last.isTerminator = true := fun ends =>
        goesOn (ends_iff.mpr ⟨last, back, ends⟩)
      simp [defect?, back, falls]

theorem defect?_of_exceed (ends : function.Ends) (exceed : function.locals < function.params) :
    function.defect? count =
      some (.paramsExceedLocals function.name function.params function.locals) := by
  obtain ⟨last, isLast, terminator⟩ := ends_iff.mp ends
  simp [defect?, isLast, terminator, exceed]

theorem defect?_of_ends (ends : function.Ends) (params_le : function.params ≤ function.locals) :
    function.defect? count = function.code.toList.zipIdx.findSome? fun pair =>
      function.instructionDefect? count pair.2 pair.1 := by
  obtain ⟨last, isLast, terminator⟩ := ends_iff.mp ends
  simp [defect?, isLast, terminator, UInt32.not_lt.mpr params_le]

/-- A function is refused for the first thing that is wrong with it. -/
theorem defect?_eq_some_iff :
    function.defect? count = some defect ↔ function.Refused count defect := by
  constructor
  · intro found
    by_cases empty : function.code = #[]
    · rw [defect?_of_empty empty] at found
      cases found
      exact .emptyBody empty
    by_cases ends : function.Ends
    · by_cases exceed : function.locals < function.params
      · rw [defect?_of_exceed ends exceed] at found
        cases found
        exact .paramsExceedLocals ends exceed
      · have params_le := UInt32.not_lt.mp exceed
        rw [defect?_of_ends ends params_le, findSome?_instructionDefect?_eq_some_iff] at found
        obtain ⟨before, instruction, after, parted, admits, misuses⟩ := found
        exact .instruction ends params_le parted admits misuses
    · rw [defect?_of_not_ends empty ends] at found
      cases found
      exact .missingTerminator empty ends
  · intro refused
    cases refused with
    | emptyBody empty => exact defect?_of_empty empty
    | missingTerminator occupied goesOn => exact defect?_of_not_ends occupied goesOn
    | paramsExceedLocals ends exceed => exact defect?_of_exceed ends exceed
    | instruction ends params_le parted admits misuses =>
        rw [defect?_of_ends ends params_le]
        exact findSome?_instructionDefect?_eq_some_iff.mpr
          ⟨_, _, _, parted, admits, misuses⟩

end Function

namespace Module

/-- What a table of functions is refused for. -/
inductive Refused (functions : Array Function) : Defect → Prop where
  | noFunctions (empty : functions = #[]) : Refused functions .noFunctions
  | duplicateName {before after : List Function} {function : Function}
      (parted : functions.toList = before ++ function :: after)
      (clean : Clean functions.size [] before)
      (repeated : function.name ∈ before.map Function.name) :
      Refused functions (.duplicateName function.name)
  | function {before after : List Function} {function : Function} {defect : Defect}
      (parted : functions.toList = before ++ function :: after)
      (clean : Clean functions.size [] before)
      (new : function.name ∉ before.map Function.name)
      (refused : function.Refused functions.size defect) : Refused functions defect

variable {count : Nat} {earlier : List String} {functions : List Function} {defect : Defect}

/-- The first function that repeats a name or is unfit decides. -/
theorem defectAmong?_eq_some_iff :
    defectAmong? count earlier functions = some defect ↔
      ∃ before function after, functions = before ++ function :: after ∧
        Clean count earlier before ∧
        (function.name ∈ before.map Function.name ++ earlier ∧
            defect = .duplicateName function.name ∨
          function.name ∉ before.map Function.name ++ earlier ∧ function.Refused count defect) := by
  -- By induction on the table: the name of a function that is passed over moves to `earlier`.
  induction functions generalizing earlier with
  | nil => simp [defectAmong?]
  | cons first rest ih =>
      rw [defectAmong?]
      constructor
      · intro found
        split at found
        · rename_i known
          cases found
          exact ⟨[], first, rest, rfl, clean_nil _ _, .inl ⟨known, rfl⟩⟩
        · rename_i new
          rcases Option.or_eq_some_iff.mp found with unfit | ⟨fit, found⟩
          · exact ⟨[], first, rest, rfl, clean_nil _ _,
              .inr ⟨new, Function.defect?_eq_some_iff.mp unfit⟩⟩
          · obtain ⟨before, function, after, rfl, clean, decides⟩ := ih.mp found
            refine ⟨first :: before, function, after, rfl, ?_, ?_⟩
            · exact clean_cons_iff.mpr
                ⟨new, (Function.defect?_eq_none_iff _ _).mp fit, clean⟩
            · simpa [or_left_comm] using decides
      · rintro ⟨before, function, after, parted, clean, decides⟩
        cases before with
        | nil =>
            cases parted
            rcases decides with ⟨known, rfl⟩ | ⟨new, refused⟩
            · rw [if_pos (by simpa using known)]
            · rw [if_neg (by simpa using new), Function.defect?_eq_some_iff.mpr refused,
                Option.some_or]
        | cons _ before =>
            cases parted
            obtain ⟨new, fit, clean⟩ := clean_cons_iff.mp clean
            rw [if_neg new, (Function.defect?_eq_none_iff _ _).mpr fit, Option.none_or]
            refine ih.mpr ⟨before, function, after, rfl, clean, ?_⟩
            simpa [or_left_comm] using decides

/-- A table is refused for what is wrong with its first function that is not clean. -/
theorem defect?_eq_some_iff {functions : Array Function} :
    defect? functions = some defect ↔ Refused functions defect := by
  rw [defect?]
  constructor
  · intro found
    split at found
    · rename_i empty
      cases found
      exact .noFunctions (Array.isEmpty_iff.mp empty)
    · obtain ⟨before, function, after, parted, clean, ⟨known, rfl⟩ | ⟨new, refused⟩⟩ :=
        defectAmong?_eq_some_iff.mp found
      · exact .duplicateName parted clean (by simpa using known)
      · exact .function parted clean (by simpa using new) refused
  · intro refused
    have occupied {before after : List Function} {function : Function}
        (parted : functions.toList = before ++ function :: after) :
        ¬ functions.isEmpty = true := by
      intro empty
      rw [Array.isEmpty_iff.mp empty] at parted
      exact List.append_ne_nil_of_right_ne_nil _ (List.cons_ne_nil _ _) parted.symm
    cases refused with
    | noFunctions empty => rw [empty]; rfl
    | duplicateName parted clean repeated =>
        rw [if_neg (occupied parted)]
        exact defectAmong?_eq_some_iff.mpr
          ⟨_, _, _, parted, clean, .inl ⟨by simpa using repeated, rfl⟩⟩
    | function parted clean new refused =>
        rw [if_neg (occupied parted)]
        exact defectAmong?_eq_some_iff.mpr
          ⟨_, _, _, parted, clean, .inr ⟨by simpa using new, refused⟩⟩

theorem ofFunctions?_eq_ok_iff {functions : Array Function} {module : Module} :
    ofFunctions? functions = .ok module ↔ module.functions = functions := by
  rw [ofFunctions?]
  constructor
  · intro judged
    split at judged
    · cases judged
      rfl
    · cases judged
  · rintro rfl
    split
    · rfl
    · rename_i found
      rw [module.sound] at found
      cases found

theorem ofFunctions?_eq_error_iff {functions : Array Function} :
    ofFunctions? functions = .error defect ↔ Refused functions defect := by
  rw [← defect?_eq_some_iff, ofFunctions?]
  constructor
  · intro judged
    split at judged
    · cases judged
    · rename_i found
      cases judged
      exact found
  · intro found
    split
    · rename_i sound
      rw [sound] at found
      cases found
    · rename_i found'
      rw [found] at found'
      cases found'
      rfl

theorem export?_eq_none_iff {module : Module} {name : String} :
    module.export? name = none ↔ ∀ function ∈ module.functions, function.name ≠ name := by
  simp [export?]

/-- A name leads to the function that bears it, if indices can tell all functions apart. -/
theorem exists_of_export? {module : Module} {name : String} {index : UInt32}
    (countable : module.size ≤ UInt32.size) (found : module.export? name = some index) :
    ∃ function, module.function? index = some function ∧ function.name = name := by
  rw [export?, Option.map_eq_some_iff] at found
  obtain ⟨position, found, rfl⟩ := found
  obtain ⟨inside, same, -⟩ := List.findIdx?_eq_some_iff_getElem.mp found
  have position_lt : position < UInt32.size := Nat.lt_of_lt_of_le inside countable
  refine ⟨module.functions.toList[position], ?_, by simpa using same⟩
  rw [function?, UInt32.toNat_ofNat_of_lt' position_lt]
  exact Array.getElem?_eq_getElem inside

/-- A table becomes a module if it has functions, their names are distinct and each of them is fit.
Otherwise it is refused for what is wrong with the first function that repeats a name or is unfit.
In a module the index of a function leads to it, its name to its index, and any other name to
nothing. -/
theorem judged_exactly (functions : Array Function) (countable : functions.size ≤ UInt32.size) :
    ((∃ module, ofFunctions? functions = .ok module) ↔
      functions ≠ #[] ∧ (functions.toList.map Function.name).Nodup ∧
        ∀ function ∈ functions, function.Fit functions.size) ∧
    (∀ defect, ofFunctions? functions = .error defect ↔ Refused functions defect) ∧
    ∀ module, ofFunctions? functions = .ok module →
      (∀ (position : Nat) function, functions[position]? = some function →
        module.function? (.ofNat position) = some function ∧
          module.export? function.name = some (.ofNat position)) ∧
      (∀ name index, module.export? name = some index ↔
        ∃ function, module.function? index = some function ∧ function.name = name) ∧
      ∀ name, module.export? name = none ↔ ∀ function ∈ functions, function.name ≠ name := by
  refine ⟨?_, fun defect => ofFunctions?_eq_error_iff, ?_⟩
  · constructor
    · rintro ⟨module, judged⟩
      obtain rfl := ofFunctions?_eq_ok_iff.mp judged
      obtain ⟨occupied, clean⟩ := (defect?_eq_none_iff _).mp module.sound
      exact ⟨occupied, clean.nodup, fun function => module.fit⟩
    · rintro ⟨occupied, nodup, fit⟩
      have clean : Clean functions.size [] functions.toList :=
        ⟨nodup, fun _ _ => List.not_mem_nil, fun function member =>
          fit function (Array.mem_toList_iff.mp member)⟩
      exact ⟨⟨functions, (defect?_eq_none_iff functions).mpr ⟨occupied, clean⟩⟩,
        ofFunctions?_eq_ok_iff.mpr rfl⟩
  · intro module judged
    obtain rfl := ofFunctions?_eq_ok_iff.mp judged
    refine ⟨?_, ?_, fun name => export?_eq_none_iff⟩
    · intro position function at_position
      obtain ⟨inside, -⟩ := Array.getElem?_eq_some_iff.mp at_position
      have found : module.function? (.ofNat position) = some function := by
        rwa [function?, UInt32.toNat_ofNat_of_lt' (Nat.lt_of_lt_of_le inside countable)]
      exact ⟨found, export?_name found⟩
    · intro name index
      constructor
      · exact exists_of_export? countable
      · rintro ⟨function, found, rfl⟩
        exact export?_name found

/-- Of several defects the first one is told: a jump out of the body before a missing slot behind it
and a later function, and a repeated name before the empty body that bears it. Two functions of
which one calls the other are a module, in which they are found. -/
theorem judged_exactly_crowded :
    ofFunctions? #[.ofCode "f" 0 #[.const 1, .ret],
      .ofCode "g" 1 #[.localGet 0, .jumpIf 7, .localSet 3, .ret], .ofCode "f" 0 #[]] =
        .error (.badJump "g" 1 7 4) ∧
    ofFunctions? #[.ofCode "f" 0 #[.const 1, .ret], .ofCode "f" 0 #[]] =
      .error (.duplicateName "f") ∧
    ∃ module, ofFunctions? #[.ofCode "f" 0 #[.call 1, .ret], .ofCode "g" 0 #[.const 1, .ret]] =
      .ok module ∧ module.export? "g" = some 1 ∧ module.export? "h" = none := by
  refine ⟨?_, ?_, ?_⟩
  · have clean : Clean 3 [] [.ofCode "f" 0 #[.const 1, .ret]] :=
      defectAmong?_eq_none_iff.mp (by decide)
    have admits : ∀ other ∈ [Instruction.localGet 0],
        (Function.ofCode "g" 1 #[.localGet 0, .jumpIf 7, .localSet 3, .ret]).Admits 3 other :=
      List.forall_mem_singleton.mpr
        ((Function.instructionDefect?_eq_none_iff _ 3 0 _).mp (by decide))
    refine ((judged_exactly _ (by decide)).2.1 _).mpr
      (@Refused.function _ [_] [_] _ _ rfl clean (by decide) ?_)
    exact @Function.Refused.instruction _ _ [_] [_, _] _ _ ⟨.ret, rfl, .inl rfl⟩ (by decide) rfl
      admits (.jumpIf (by decide))
  · have clean : Clean 2 [] [.ofCode "f" 0 #[.const 1, .ret]] :=
      defectAmong?_eq_none_iff.mp (by decide)
    exact ((judged_exactly _ (by decide)).2.1 _).mpr
      (@Refused.duplicateName _ [_] [] _ rfl clean (by decide))
  · obtain ⟨accepted, -, found⟩ := judged_exactly
      #[.ofCode "f" 0 #[.call 1, .ret], .ofCode "g" 0 #[.const 1, .ret]] (by decide)
    have sound := (defect?_eq_none_iff
      #[.ofCode "f" 0 #[.call 1, .ret], .ofCode "g" 0 #[.const 1, .ret]]).mp (by decide)
    obtain ⟨module, judged⟩ := accepted.mpr ⟨sound.1, sound.2.nodup, fun function member =>
      sound.2.fit function (Array.mem_toList_iff.mpr member)⟩
    obtain ⟨indices, -, absent⟩ := found module judged
    exact ⟨module, judged, (indices 1 _ rfl).2, (absent "h").mpr (by decide)⟩

end Module

end Ferry
