/-
This file states the laws of the three truth values and of clauses joined by `and` and `or`.
-/
import EntityFilter.Query.Truth

namespace EntityFilter

namespace Truth

@[simp] theorem and_true (value : Truth) : and value (some true) = value := by
  rcases value with _ | _ | _ <;> rfl

@[simp] theorem true_and (value : Truth) : and (some true) value = value := by
  rcases value with _ | _ | _ <;> rfl

@[simp] theorem or_false (value : Truth) : or value (some false) = value := by
  rcases value with _ | _ | _ <;> rfl

theorem and_assoc (first second third : Truth) :
    and (and first second) third = and first (and second third) := by
  rcases first with _ | _ | _ <;> rcases second with _ | _ | _ <;>
    rcases third with _ | _ | _ <;> rfl

@[simp] theorem all_nil : all [] = some true := rfl

@[simp] theorem all_cons (value : Truth) (values : List Truth) :
    all (value :: values) = and value (all values) := rfl

@[simp] theorem any_nil : any [] = some false := rfl

@[simp] theorem any_cons (value : Truth) (values : List Truth) :
    any (value :: values) = or value (any values) := rfl

theorem all_append (front back : List Truth) :
    all (front ++ back) = and (all front) (all back) := by
  induction front with
  | nil => simp
  | cons value front inductionHypothesis =>
      simp only [List.cons_append, all_cons, inductionHypothesis, and_assoc]

@[simp] theorem holds_some (value : Bool) : holds (some value) = value := by
  cases value <;> rfl

@[simp] theorem holds_and (left right : Truth) :
    holds (and left right) = (holds left && holds right) := by
  rcases left with _ | _ | _ <;> rcases right with _ | _ | _ <;> rfl

@[simp] theorem holds_or (left right : Truth) :
    holds (or left right) = (holds left || holds right) := by
  rcases left with _ | _ | _ <;> rcases right with _ | _ | _ <;> rfl

/-- A conjunction selects a row exactly when every part does. -/
theorem holds_all (values : List Truth) : holds (all values) = values.all holds := by
  induction values with
  | nil => rfl
  | cons value values inductionHypothesis => simp [inductionHypothesis]

/-- A disjunction selects a row exactly when some alternative does. -/
theorem holds_any (values : List Truth) : holds (any values) = values.any holds := by
  induction values with
  | nil => rfl
  | cons value values inductionHypothesis => simp [inductionHypothesis]

end Truth

namespace Conjunction

variable {Part Image : Type}

/-- A change of every part does not move the borders of the runs. -/
theorem runsFrom_map (change : Part → Image) (clauses : List (Conjunction × Part)) :
    runsFrom (clauses.map (Prod.map id change)) =
      ((runsFrom clauses).1.map change, (runsFrom clauses).2.map (List.map change)) := by
  induction clauses with
  | nil => rfl
  | cons clause clauses inductionHypothesis =>
      obtain ⟨conjunction, part⟩ := clause
      cases conjunction <;> simp [runsFrom, inductionHypothesis]

theorem runs_map (change : Part → Image) (clauses : List (Conjunction × Part)) :
    runs (clauses.map (Prod.map id change)) = (runs clauses).map (List.map change) := by
  cases clauses with
  | nil => rfl
  | cons clause clauses => simp [runs, runsFrom_map]

/-- Every run after the open one starts with the clause of its `or`. -/
theorem ne_nil_of_mem_runsFrom {run : List Part} {clauses : List (Conjunction × Part)}
    (member : run ∈ (runsFrom clauses).2) : run ≠ [] := by
  induction clauses with
  | nil => simp [runsFrom] at member
  | cons clause clauses inductionHypothesis =>
      obtain ⟨conjunction, part⟩ := clause
      cases conjunction with
      | and => exact inductionHypothesis member
      | or =>
          rcases List.mem_cons.mp member with first | later
          · simp [first]
          · exact inductionHypothesis later

theorem ne_nil_of_mem_runs {run : List Part} {clauses : List (Conjunction × Part)}
    (member : run ∈ runs clauses) : run ≠ [] := by
  cases clauses with
  | nil => simp [runs] at member
  | cons clause clauses =>
      rcases List.mem_cons.mp member with first | later
      · simp [first]
      · exact ne_nil_of_mem_runsFrom later

theorem mem_of_mem_runsFrom {part : Part} {clauses : List (Conjunction × Part)}
    (member : part ∈ (runsFrom clauses).1 ∨ ∃ run ∈ (runsFrom clauses).2, part ∈ run) :
    ∃ clause ∈ clauses, clause.2 = part := by
  induction clauses with
  | nil => simp [runsFrom] at member
  | cons clause clauses inductionHypothesis =>
      obtain ⟨conjunction, first⟩ := clause
      by_cases same : first = part
      · exact ⟨_, List.mem_cons_self, same⟩
      · have later : part ∈ (runsFrom clauses).1 ∨ ∃ run ∈ (runsFrom clauses).2, part ∈ run := by
          cases conjunction <;> simpa [runsFrom, Ne.symm same] using member
        obtain ⟨clause, given, rfl⟩ := inductionHypothesis later
        exact ⟨clause, List.mem_cons_of_mem _ given, rfl⟩

/-- The parts of the runs are those of the clauses. -/
theorem mem_of_mem_runs {run : List Part} {part : Part} {clauses : List (Conjunction × Part)}
    (listed : run ∈ runs clauses) (member : part ∈ run) : ∃ clause ∈ clauses, clause.2 = part := by
  cases clauses with
  | nil => cases listed
  | cons clause clauses =>
      by_cases same : clause.2 = part
      · exact ⟨clause, List.mem_cons_self, same⟩
      · have later : part ∈ (runsFrom clauses).1 ∨ ∃ run ∈ (runsFrom clauses).2, part ∈ run := by
          rcases List.mem_cons.mp listed with rfl | listed
          · exact Or.inl ((List.mem_cons.mp member).resolve_left (Ne.symm same))
          · exact Or.inr ⟨run, listed, member⟩
        obtain ⟨other, given, rfl⟩ := mem_of_mem_runsFrom later
        exact ⟨other, List.mem_cons_of_mem _ given, rfl⟩

theorem flatten_runsFrom (clauses : List (Conjunction × Part)) :
    (runsFrom clauses).1 ++ (runsFrom clauses).2.flatten = clauses.map Prod.snd := by
  induction clauses with
  | nil => rfl
  | cons clause clauses inductionHypothesis =>
      obtain ⟨conjunction, part⟩ := clause
      rw [List.map_cons, ← inductionHypothesis]
      cases conjunction <;> simp [runsFrom]

/-- The runs hold every clause once, in order. -/
theorem flatten_runs (clauses : List (Conjunction × Part)) :
    (runs clauses).flatten = clauses.map Prod.snd := by
  cases clauses with
  | nil => rfl
  | cons clause clauses => simp [runs, ← flatten_runsFrom clauses]

@[simp] theorem truth_nil : truth [] = some true := rfl

theorem truth_eq_any {clauses : List (Conjunction × Truth)} (present : clauses ≠ []) :
    truth clauses = Truth.any ((runs clauses).map Truth.all) := by
  simp [truth, List.isEmpty_iff, present]

@[simp] theorem truth_singleton (conjunction : Conjunction) (value : Truth) :
    truth [(conjunction, value)] = value := by
  simp [truth, runs, runsFrom]

theorem runsFrom_all_and {clauses : List (Conjunction × Part)}
    (joined : ∀ clause ∈ clauses, clause.1 = .and) :
    runsFrom clauses = (clauses.map Prod.snd, []) := by
  induction clauses with
  | nil => rfl
  | cons clause clauses inductionHypothesis =>
      obtain ⟨conjunction, part⟩ := clause
      obtain rfl : conjunction = .and := joined _ List.mem_cons_self
      have tail := inductionHypothesis fun clause member =>
        joined clause (List.mem_cons_of_mem _ member)
      simp [runsFrom, tail]

/-- Clauses that are all joined by `and` are one conjunction. -/
theorem truth_all_and {clauses : List (Conjunction × Truth)}
    (joined : ∀ clause ∈ clauses, clause.1 = .and) :
    truth clauses = Truth.all (clauses.map Prod.snd) := by
  cases clauses with
  | nil => rfl
  | cons clause clauses =>
      have tail := runsFrom_all_and fun later member =>
        joined later (List.mem_cons_of_mem _ member)
      simp [truth, runs, tail]

theorem runsFrom_all_or {clauses : List (Conjunction × Part)}
    (joined : ∀ clause ∈ clauses, clause.1 = .or) :
    runsFrom clauses = ([], clauses.map fun clause => [clause.2]) := by
  induction clauses with
  | nil => rfl
  | cons clause clauses inductionHypothesis =>
      obtain ⟨conjunction, part⟩ := clause
      obtain rfl : conjunction = .or := joined _ List.mem_cons_self
      have tail := inductionHypothesis fun clause member =>
        joined clause (List.mem_cons_of_mem _ member)
      simp [runsFrom, tail]

/-- Clauses that are joined by `or` after the first one are one disjunction. -/
theorem truth_all_or {first : Conjunction × Truth} {clauses : List (Conjunction × Truth)}
    (joined : ∀ clause ∈ clauses, clause.1 = .or) :
    truth (first :: clauses) = Truth.any ((first :: clauses).map Prod.snd) := by
  have tail := runsFrom_all_or joined
  simp only [truth, runs, tail, List.isEmpty_cons, Bool.false_eq_true, if_false, List.map_cons,
    List.map_map, Truth.any_cons, Truth.all_cons, Truth.all_nil, Truth.and_true]
  congr 2
  exact List.map_congr_left fun clause _ => Truth.and_true clause.2

end Conjunction

end EntityFilter
