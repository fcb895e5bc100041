import Ferry.Machine.Module

/-!
# What the judgement of a module guarantees

A function without defects ends in a terminator, has room for its parameters among its slots, and
names only jump targets, slots and functions that exist. `Function.defect?` finds nothing exactly in
this case, and `Module.defect?` finds nothing in a table exactly if it holds only such functions, at
least one, and their names are distinct.
-/

namespace Ferry

namespace Function

/-- The operands of an instruction name things that exist, in a table of `count` functions. -/
structure Admits (function : Function) (count : Nat) (instruction : Instruction) : Prop where
  jump : ∀ target, instruction.jumpTarget? = some target → target.toNat < function.code.size
  slot : ∀ slot, instruction.localSlot? = some slot → slot < function.locals
  callee : ∀ callee, instruction.callee? = some callee → callee.toNat < count

/-- A function that is fit to stand in a table of `count` functions. -/
structure Fit (function : Function) (count : Nat) : Prop where
  /-- The body ends in an instruction after which control does not go on. -/
  terminated : ∃ last, function.code.back? = some last ∧ last.isTerminator = true
  params_le : function.params ≤ function.locals
  admits : ∀ (pc : Nat) (instruction : Instruction), function.code[pc]? = some instruction →
    function.Admits count instruction

theorem instructionDefect?_eq_none_iff (function : Function) (count pc : Nat)
    (instruction : Instruction) :
    function.instructionDefect? count pc instruction = none ↔
      function.Admits count instruction := by
  simp only [instructionDefect?, Option.or_eq_none_iff, Option.bind_eq_none_iff]
  constructor
  · rintro ⟨jump, slot, callee⟩
    refine ⟨fun target named => ?_, fun slot' named => ?_, fun callee' named => ?_⟩
    · simpa using jump target named
    · simpa using slot slot' named
    · simpa using callee callee' named
  · rintro ⟨jump, slot, callee⟩
    refine ⟨fun target named => ?_, fun slot' named => ?_, fun callee' named => ?_⟩
    · simpa using jump target named
    · simpa using slot slot' named
    · simpa using callee callee' named

/-- Nothing is wrong with a function exactly if it is fit. -/
theorem defect?_eq_none_iff (function : Function) (count : Nat) :
    function.defect? count = none ↔ function.Fit count := by
  have bodies : (function.code.toList.zipIdx.findSome? fun pair =>
        function.instructionDefect? count pair.2 pair.1) = none ↔
      ∀ (pc : Nat) (instruction : Instruction), function.code[pc]? = some instruction →
        function.Admits count instruction := by
    simp only [List.findSome?_eq_none_iff, Prod.forall, instructionDefect?_eq_none_iff,
      List.mk_mem_zipIdx_iff_getElem?, Array.getElem?_toList]
    exact forall_comm
  cases back : function.code.back? with
  | none =>
      simp only [defect?, back, reduceCtorEq, false_iff]
      rintro ⟨⟨last, isLast, -⟩, -, -⟩
      simp [back] at isLast
  | some last =>
      by_cases terminator : last.isTerminator = true
      · by_cases params : function.locals < function.params
        · simp only [defect?, back, terminator, not_true_eq_false, if_false, params, if_true,
            reduceCtorEq, false_iff]
          intro fit
          exact absurd fit.params_le (UInt32.not_le.mpr params)
        · simp only [defect?, back, terminator, not_true_eq_false, if_false, params]
          apply bodies.trans
          constructor
          · intro admits
            exact ⟨⟨last, back, terminator⟩, UInt32.not_lt.mp params, admits⟩
          · intro fit
            exact fit.admits
      · simp only [defect?, back, terminator, not_false_eq_true, if_true, reduceCtorEq, false_iff]
        rintro ⟨⟨last', isLast, ends⟩, -, -⟩
        rw [back] at isLast
        cases isLast
        exact terminator ends

end Function

namespace Module

/-- Consecutive functions of a table of `count` are fit, and their names are new: each differs from
the others and from those before them. -/
structure Clean (count : Nat) (earlier : List String) (functions : List Function) : Prop where
  nodup : (functions.map Function.name).Nodup
  fresh : ∀ function ∈ functions, function.name ∉ earlier
  fit : ∀ function ∈ functions, function.Fit count

theorem clean_nil (count : Nat) (earlier : List String) : Clean count earlier [] :=
  ⟨List.nodup_nil, List.forall_mem_nil _, List.forall_mem_nil _⟩

theorem clean_cons_iff {count : Nat} {earlier : List String} {function : Function}
    {rest : List Function} :
    Clean count earlier (function :: rest) ↔
      function.name ∉ earlier ∧ function.Fit count ∧
        Clean count (function.name :: earlier) rest := by
  constructor
  · rintro ⟨nodup, fresh, fit⟩
    obtain ⟨single, nodup⟩ := List.nodup_cons.mp nodup
    obtain ⟨new, fresh⟩ := List.forall_mem_cons.mp fresh
    obtain ⟨function_fit, fit⟩ := List.forall_mem_cons.mp fit
    refine ⟨new, function_fit, nodup, ?_, fit⟩
    intro other member known
    rcases List.mem_cons.mp known with same | known
    · exact single (List.mem_map.mpr ⟨other, member, same⟩)
    · exact fresh other member known
  · rintro ⟨new, function_fit, nodup, fresh, fit⟩
    refine ⟨List.nodup_cons.mpr ⟨?_, nodup⟩, List.forall_mem_cons.mpr ⟨new, ?_⟩,
      List.forall_mem_cons.mpr ⟨function_fit, fit⟩⟩
    · intro repeated
      obtain ⟨other, member, same⟩ := List.mem_map.mp repeated
      exact fresh other member (same ▸ List.mem_cons_self)
    · exact fun other member known => fresh other member (List.mem_cons_of_mem _ known)

theorem defectAmong?_eq_none_iff {count : Nat} {earlier : List String}
    {functions : List Function} :
    defectAmong? count earlier functions = none ↔ Clean count earlier functions := by
  induction functions generalizing earlier with
  | nil => exact iff_of_true rfl (clean_nil count earlier)
  | cons function rest ih =>
      rw [clean_cons_iff, defectAmong?, ← ih, ← Function.defect?_eq_none_iff]
      by_cases known : function.name ∈ earlier
      · simp [known]
      · simp [known, Option.or_eq_none_iff]

/-- Nothing is wrong with a table if it has functions and they are clean. -/
theorem defect?_eq_none_iff (functions : Array Function) :
    defect? functions = none ↔
      functions ≠ #[] ∧ Clean functions.size [] functions.toList := by
  rw [← defectAmong?_eq_none_iff, defect?]
  by_cases empty : functions = #[]
  · simp [empty]
  · simp [empty]

theorem clean (module : Module) : Clean module.size [] module.functions.toList :=
  ((defect?_eq_none_iff module.functions).mp module.sound).2

/-- Every function of a module is fit to stand in it. -/
theorem fit (module : Module) {function : Function} (member : function ∈ module.functions) :
    function.Fit module.size :=
  module.clean.fit function (Array.mem_toList_iff.mpr member)

theorem fit_of_function? {module : Module} {index : UInt32} {function : Function}
    (found : module.function? index = some function) : function.Fit module.size :=
  module.fit (Array.mem_of_getElem? found)

/-- The functions of a module have distinct names. -/
theorem nodup_names (module : Module) : (module.functions.toList.map Function.name).Nodup :=
  module.clean.nodup

/-- The name of a function leads back to it. -/
theorem export?_name {module : Module} {index : UInt32} {function : Function}
    (found : module.function? index = some function) :
    module.export? function.name = some index := by
  obtain ⟨inside, isFunction⟩ := Array.getElem?_eq_some_iff.mp found
  have position : module.functions.toList.findIdx? (fun other => other.name == function.name) =
      some index.toNat := by
    refine List.findIdx?_eq_some_iff_getElem.mpr ⟨inside, ?_, ?_⟩
    · simp [isFunction]
    · intro earlier before same
      have distinct := List.pairwise_iff_getElem.mp module.nodup_names earlier index.toNat
      simp only [List.length_map, Array.length_toList, List.getElem_map, Array.getElem_toList,
        isFunction] at distinct
      exact distinct (Nat.lt_trans before inside) inside before (by simpa using same)
  simp [export?, position]

/-- An index names a function exactly if it is below the number of functions. -/
theorem function?_isSome_iff (module : Module) (index : UInt32) :
    (module.function? index).isSome ↔ index.toNat < module.size := by
  simp [function?, size]

end Module

end Ferry
