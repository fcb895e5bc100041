import Ferry.Keyboard

/-!
# Which binding an event finds

A binding takes the place of an earlier one for the same key with the same modifiers and leaves all
others alone. An event looks for the binding without the shift key, while a binding keeps the
modifiers that it was given. So the latest binding of a key is found if it is without shift; one
with shift is never found, and an event with shift stands for the key without it.
-/

namespace Ferry

/-- The key with the modifiers but shift. -/
def KeyCombo.unshifted (combo : KeyCombo) : KeyCombo :=
  { combo with modifiers := { combo.modifiers with shift := false } }

theorem KeyCombo.unshifted_eq_self_iff {combo : KeyCombo} :
    combo.unshifted = combo ↔ combo.modifiers.shift = false := by
  constructor
  · intro same
    rw [← same]
    rfl
  · rcases combo with ⟨code, shift, control, alt, superKey, hyper, metaKey⟩
    rintro rfl
    rfl

namespace KeyMap

/-- A map after several keys have been bound, one after the other. -/
def bindAll (map : KeyMap) (binds : List (KeyCombo × KeyAction)) : KeyMap :=
  binds.foldl (fun map binding => map.bind binding.1 binding.2) map

variable (map : KeyMap) (binds : List (KeyCombo × KeyAction)) (combo bound : KeyCombo)
  (action : KeyAction) {kind : KeyEventKind}

theorem bindAll_append (later : List (KeyCombo × KeyAction)) :
    map.bindAll (binds ++ later) = (map.bindAll binds).bindAll later :=
  List.foldl_append

theorem bindAll_concat :
    map.bindAll (binds ++ [(bound, action)]) = (map.bindAll binds).bind bound action := by
  rw [bindAll_append]
  rfl

/-- Leaving out the bindings of other keys does not matter. -/
private theorem lookup_filter_ne {bindings : List (KeyCombo × KeyAction)} (other : combo ≠ bound) :
    (bindings.filter fun binding => binding.1 ≠ bound).lookup combo = bindings.lookup combo := by
  induction bindings with
  | nil => rfl
  | cons binding rest ih =>
      rcases binding with ⟨key, meaning⟩
      rw [List.filter_cons]
      split
      · rw [List.lookup_cons, List.lookup_cons, ih]
      · rename_i dropped
        have same : key = bound := by simpa using dropped
        have differs : (combo == key) = false := beq_false_of_ne (same ▸ other)
        rw [ih, List.lookup_cons, differs]

theorem action?_bind_self : (map.bind bound action).action? bound = some action := by
  rw [action?, bind, List.lookup_cons_self]

theorem action?_bind_of_ne (other : combo ≠ bound) :
    (map.bind bound action).action? combo = map.action? combo := by
  have differs : (combo == bound) = false := beq_false_of_ne other
  rw [action?, bind, List.lookup_cons, differs]
  exact lookup_filter_ne combo bound other

/-- Bindings of other keys do not change what a key is bound to. -/
theorem action?_bindAll_of_forall (others : ∀ binding ∈ binds, binding.1 ≠ combo) :
    (map.bindAll binds).action? combo = map.action? combo := by
  induction binds generalizing map with
  | nil => rfl
  | cons binding rest ih =>
      obtain ⟨other, others⟩ := List.forall_mem_cons.mp others
      have onward := ih (map.bind binding.1 binding.2) others
      exact onward.trans (action?_bind_of_ne map combo binding.1 binding.2 other.symm)

/-- The latest binding of a key is in force. -/
theorem action?_bindAll_of_latest {older newer : List (KeyCombo × KeyAction)}
    (latest : ∀ binding ∈ newer, binding.1 ≠ combo) :
    (map.bindAll (older ++ (combo, action) :: newer)).action? combo = some action := by
  rw [bindAll_append]
  exact (action?_bindAll_of_forall ((map.bindAll older).bind combo action) newer combo latest).trans
    (action?_bind_self _ _ _)

theorem actionOf?_of_held (held : kind ≠ .release) :
    map.actionOf? kind combo = map.action? combo.unshifted := by
  cases kind with
  | press | repeated => rfl
  | release => contradiction

/-- A binding concerns the events that look for it. -/
theorem actionOf?_bind_of_ne (kind : KeyEventKind) (other : bound ≠ combo.unshifted) :
    (map.bind bound action).actionOf? kind combo = map.actionOf? kind combo := by
  by_cases held : kind = .release
  · rw [held]
    rfl
  · rw [actionOf?_of_held _ _ held, actionOf?_of_held _ _ held]
    exact action?_bind_of_ne map combo.unshifted bound action other.symm

/-- What the events of keys find after several bindings. -/
structure Answers (map : KeyMap) (binds : List (KeyCombo × KeyAction)) : Prop where
  /-- The release of a key means nothing. -/
  released : ∀ combo, (map.bindAll binds).actionOf? .release combo = none
  /-- A key with modifiers but shift stands for the action of its latest binding. -/
  latest : ∀ kind ≠ .release, ∀ combo, combo.modifiers.shift = false →
    ∀ older newer action, binds = older ++ (combo, action) :: newer →
      (∀ binding ∈ newer, binding.1 ≠ combo) →
      (map.bindAll binds).actionOf? kind combo = some action
  /-- Without a binding of its own it stands for what it stood for before. -/
  unbound : ∀ kind combo, combo.modifiers.shift = false →
    (∀ binding ∈ binds, binding.1 ≠ combo) →
    (map.bindAll binds).actionOf? kind combo = map.actionOf? kind combo
  /-- A key with shift stands for what it stands for without. -/
  shifted : ∀ kind combo, (map.bindAll binds).actionOf? kind combo =
    (map.bindAll binds).actionOf? kind combo.unshifted
  /-- A further binding concerns the events of one key, with shift and without. -/
  others : ∀ bound action kind combo, bound ≠ combo.unshifted →
    (map.bindAll (binds ++ [(bound, action)])).actionOf? kind combo =
      (map.bindAll binds).actionOf? kind combo
  /-- A further binding with shift concerns nothing. -/
  unreachable : ∀ bound action, bound.modifiers.shift = true → ∀ kind combo,
    (map.bindAll (binds ++ [(bound, action)])).actionOf? kind combo =
      (map.bindAll binds).actionOf? kind combo

/-- After any bindings of a map the latest one of a key is found, provided that it is without
shift; those with shift are never found. -/
theorem bindings_answer : map.Answers binds := by
  constructor
  case released => exact fun combo => rfl
  case latest =>
    rintro kind held combo plain older newer action rfl latest
    rw [actionOf?_of_held _ _ held, KeyCombo.unshifted_eq_self_iff.mpr plain]
    exact action?_bindAll_of_latest map combo action latest
  case unbound =>
    intro kind combo plain others
    by_cases held : kind = .release
    · rw [held]
      rfl
    · rw [actionOf?_of_held _ _ held, actionOf?_of_held _ _ held,
        KeyCombo.unshifted_eq_self_iff.mpr plain]
      exact action?_bindAll_of_forall map binds combo others
  case shifted =>
    intro kind combo
    cases kind <;> rfl
  case others =>
    intro bound action kind combo other
    rw [bindAll_concat]
    exact actionOf?_bind_of_ne _ combo bound action kind other
  case unreachable =>
    intro bound action shifted kind combo
    rw [bindAll_concat]
    apply actionOf?_bind_of_ne
    rintro rfl
    contradiction

/-- The key x with shift, when it is bound, stands for nothing, and the binding of r without shift
changes what r stands for with shift, although that has a binding of its own. -/
theorem shift_not_found :
    (initial.bindAll [(⟨.char 'x', { shift := true }⟩, .abort)]).actionOf? .press
      ⟨.char 'x', { shift := true }⟩ = none ∧
    (initial.bindAll [(⟨.char 'r', { shift := true }⟩, .abort)]).actionOf? .press
      ⟨.char 'r', { shift := true }⟩ = some .resumeOrRun ∧
    (initial.bindAll [(⟨.char 'r', { shift := true }⟩, .abort),
      (.plain (.char 'r'), .snapshotNow)]).actionOf? .press
      ⟨.char 'r', { shift := true }⟩ = some .snapshotNow ∧
    ¬ ∀ binds combo kind older newer action, kind ≠ .release →
      binds = older ++ (combo, action) :: newer → (∀ binding ∈ newer, binding.1 ≠ combo) →
      (initial.bindAll binds).actionOf? kind combo = some action := by
  have missed : (initial.bindAll [(⟨.char 'x', { shift := true }⟩, .abort)]).actionOf? .press
      ⟨.char 'x', { shift := true }⟩ = none := rfl
  refine ⟨missed, rfl, rfl, ?_⟩
  intro found
  have shown := found [(⟨.char 'x', { shift := true }⟩, .abort)] ⟨.char 'x', { shift := true }⟩
    .press [] [] .abort (by decide) rfl (List.forall_mem_nil _)
  rw [missed] at shown
  cases shown

end KeyMap

end Ferry
