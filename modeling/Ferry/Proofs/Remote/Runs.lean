import Ferry.Host.Remote

/-!
# The runs of a remote host

Runs are numbered in the order in which they begin, so a number names at most one run. The table of
runs is then told by the stage of each number: adding, moving and removing a run changes one entry.
-/

namespace Ferry.Remote

/-- Whether a run still has work for its snapshot or its outcome to do, and does not only wait for a
reply. -/
def Stage.isWorking : Stage → Bool
  | .spawned _ | .invoking _ _ | .returned _ => true
  | .handing | .telling _ => false

/-- Every run has a number of its own, below the number of runs so far. -/
structure Numbered (host : Remote) : Prop where
  nodup : (host.runs.map Run.id).Nodup
  lt : ∀ run ∈ host.runs, run.id < host.spawned

variable {host : Remote}

private theorem find?_eq_some_iff {runs : List Run} (nodup : (runs.map Run.id).Nodup) {number : Nat}
    {run : Run} :
    (runs.find? fun r => r.id == number) = some run ↔ run ∈ runs ∧ run.id = number := by
  induction runs with
  | nil => simp
  | cons first rest ih =>
      rw [List.map_cons, List.nodup_cons] at nodup
      by_cases here : first.id = number
      · rw [List.find?_cons_of_pos (by simp [here]), Option.some.injEq, List.mem_cons]
        constructor
        · rintro rfl
          exact ⟨.inl rfl, here⟩
        · rintro ⟨rfl | later, same⟩
          · rfl
          · exact absurd (List.mem_map.mpr ⟨run, later, same.trans here.symm⟩) nodup.1
      · rw [List.find?_cons_of_neg (by simp [here]), ih nodup.2, List.mem_cons]
        constructor
        · rintro ⟨later, same⟩
          exact ⟨.inr later, same⟩
        · rintro ⟨rfl | later, same⟩
          · exact absurd same here
          · exact ⟨later, same⟩

/-- The stage of a number is told by the only run that bears it. -/
theorem stage?_eq_some_iff (numbered : host.Numbered) {run : Nat} {stage : Stage} :
    host.stage? run = some stage ↔ ⟨run, stage⟩ ∈ host.runs := by
  rw [stage?, Option.map_eq_some_iff]
  constructor
  · rintro ⟨⟨number, found⟩, isFound, rfl⟩
    rcases (find?_eq_some_iff numbered.nodup).mp isFound with ⟨member, rfl⟩
    exact member
  · intro member
    exact ⟨⟨run, stage⟩, (find?_eq_some_iff numbered.nodup).mpr ⟨member, rfl⟩, rfl⟩

theorem stage?_eq_none_of_le (numbered : host.Numbered) {run : Nat} (le : host.spawned ≤ run) :
    host.stage? run = none := by
  cases found : host.stage? run with
  | none => rfl
  | some stage =>
      have below := numbered.lt _ ((stage?_eq_some_iff numbered).mp found)
      exact absurd le (Nat.not_le.mpr below)

theorem stage?_spawn (numbered : host.Numbered) (snapshot : Option Snapshot) (run : Nat) :
    (host.spawn snapshot).stage? run =
      if run = host.spawned then some (.spawned snapshot) else host.stage? run := by
  have split_off : (host.spawn snapshot).stage? run =
      (host.stage? run).or (if host.spawned = run then some (.spawned snapshot) else none) := by
    simp only [stage?, spawn, List.find?_append, Option.map_or, List.find?_singleton, beq_iff_eq]
    split <;> rfl
  rw [split_off]
  by_cases last : run = host.spawned
  · subst last
    rw [stage?_eq_none_of_le numbered (Nat.le_refl _), if_pos rfl, Option.none_or]
  · rw [if_neg last, if_neg (Ne.symm last), Option.or_none]

theorem stage?_setStage (other : Nat) (stage : Stage) (run : Nat) :
    (host.setStage other stage).stage? run =
      if run = other then (host.stage? run).map fun _ => stage else host.stage? run := by
  have same_ids : (fun r : Run => r.id == run) ∘
      (fun r : Run => if r.id = other then { r with stage } else r) = fun r => r.id == run := by
    funext r
    simp only [Function.comp]
    split <;> rfl
  simp only [stage?, setStage, List.find?_map, same_ids]
  cases found : host.runs.find? fun r => r.id == run with
  | none => simp
  | some r =>
      have isRun : r.id = run := by simpa using List.find?_some found
      by_cases moved : run = other
      · simp [isRun, moved]
      · simp [isRun, moved]

theorem stage?_removeRun (other run : Nat) :
    (host.removeRun other).stage? run = if run = other then none else host.stage? run := by
  simp only [stage?, removeRun, List.find?_filter]
  by_cases removed : run = other
  · rw [if_pos removed, Option.map_eq_none_iff, List.find?_eq_none]
    rintro r - both
    have kept : ¬ r.id = other ∧ r.id = run := by simpa using both
    exact kept.1 (kept.2.trans removed)
  · rw [if_neg removed]
    congr 2
    funext r
    by_cases isRun : r.id = run
    · simp [isRun, removed]
    · simp [isRun]

theorem stage?_setStage_of_some {other : Nat} {before : Stage} (stands : host.stage? other = some before)
    (stage : Stage) (run : Nat) :
    (host.setStage other stage).stage? run =
      if run = other then some stage else host.stage? run := by
  rw [stage?_setStage]
  by_cases moved : run = other
  · rw [if_pos moved, if_pos moved, moved, stands, Option.map_some]
  · rw [if_neg moved, if_neg moved]

theorem stage?_congr {other : Remote} (runs : other.runs = host.runs) : other.stage? = host.stage? := by
  funext run
  rw [stage?, runs, stage?]

theorem Numbered.congr (numbered : host.Numbered) {other : Remote} (runs : other.runs = host.runs)
    (spawned : other.spawned = host.spawned) : other.Numbered := by
  constructor
  · rw [runs]
    exact numbered.nodup
  · rw [runs, spawned]
    exact numbered.lt

theorem Numbered.spawn (numbered : host.Numbered) (snapshot : Option Snapshot) :
    (host.spawn snapshot).Numbered := by
  constructor
  · simp only [Remote.spawn, List.map_append, List.map_cons, List.map_nil]
    refine List.nodup_append.mpr ⟨numbered.nodup, by simp, ?_⟩
    rintro number member last isLast rfl
    obtain ⟨run, isRun, rfl⟩ := List.mem_map.mp member
    exact Nat.ne_of_lt (numbered.lt run isRun) (List.mem_singleton.mp isLast)
  · intro run member
    rcases List.mem_append.mp member with earlier | last
    · exact Nat.lt_succ_of_lt (numbered.lt run earlier)
    · rw [List.mem_singleton.mp last]
      exact Nat.lt_succ_self _

theorem Numbered.setStage (numbered : host.Numbered) (run : Nat) (stage : Stage) :
    (host.setStage run stage).Numbered := by
  have same_ids : (host.setStage run stage).runs.map Run.id = host.runs.map Run.id := by
    simp only [Remote.setStage, List.map_map]
    apply List.map_congr_left
    intro r _
    simp only [Function.comp]
    split <;> rfl
  constructor
  · rw [same_ids]
    exact numbered.nodup
  · intro r member
    have isNumber : r.id ∈ host.runs.map Run.id := same_ids ▸ List.mem_map_of_mem member
    obtain ⟨before, isRun, same⟩ := List.mem_map.mp isNumber
    exact same ▸ numbered.lt before isRun

theorem Numbered.removeRun (numbered : host.Numbered) (run : Nat) :
    (host.removeRun run).Numbered := by
  constructor
  · exact numbered.nodup.sublist (List.filter_sublist.map _)
  · intro r member
    exact numbered.lt r (List.mem_filter.mp member).1

/-- The stages after a run was added to another state with the same runs. -/
theorem stage?_spawn_of {base : Remote} (numbered : host.Numbered) (runs : base.runs = host.runs)
    (spawned : base.spawned = host.spawned) (snapshot : Option Snapshot) :
    (base.spawn snapshot).stage? =
      fun run => if run = host.spawned then some (.spawned snapshot) else host.stage? run := by
  rw [funext (stage?_spawn (numbered.congr runs spawned) snapshot), stage?_congr runs, spawned]

/-- The stages after a run was moved in another state with the same runs. -/
theorem stage?_setStage_of {base : Remote} (runs : base.runs = host.runs) {number : Nat}
    {before : Stage} (stands : host.stage? number = some before) (after : Stage) :
    (base.setStage number after).stage? =
      fun run => if run = number then some after else host.stage? run := by
  have stages := stage?_congr runs
  rw [funext (stage?_setStage_of_some (stages ▸ stands) after), stages]

end Ferry.Remote
