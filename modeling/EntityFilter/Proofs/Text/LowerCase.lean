/-
This file proves that text in lower case stays as it is when it is put in lower case again.
-/
import EntityFilter.Text.LetterCase

namespace EntityFilter.Text

namespace CaseRun

/-- The first character that a run leads to. -/
def low (run : CaseRun) : Nat :=
  ((run.first : Int) + run.shift).toNat

/-- The last character that a run leads to. -/
def high (run : CaseRun) : Nat :=
  ((run.last : Int) + run.shift).toNat

/-- The characters that a run leads to are none of the other run: they lie below it, above it, or
between its steps. -/
def isApartFrom (run other : CaseRun) : Bool :=
  Nat.blt run.high other.first || Nat.blt other.last run.low
    || (Nat.beq run.step 2 || Nat.beq run.first run.last) && Nat.beq other.step 2
      && Nat.beq ((run.low + other.first) % 2) 1 && Nat.blt 0 run.low

theorem shift?_eq_some {run : CaseRun} {code image : Nat} :
    run.shift? code = some image ↔
      run.first ≤ code ∧ code ≤ run.last ∧ (code - run.first) % run.step = 0 ∧
        ((code : Int) + run.shift).toNat = image := by
  rw [shift?]
  split
  · next inside => simp [inside]
  · next outside =>
      constructor
      · nofun
      · rintro ⟨first, last, step, _⟩
        exact absurd ⟨first, last, step⟩ outside

theorem shift?_eq_none_of_isApartFrom {run other : CaseRun} {code image : Nat}
    (apart : run.isApartFrom other = true) (shifted : run.shift? code = some image) :
    other.shift? image = none := by
  obtain ⟨first, last, step, rfl⟩ := shift?_eq_some.mp shifted
  rw [Option.eq_none_iff_forall_ne_some]
  intro again back
  obtain ⟨otherFirst, otherLast, otherStep, _⟩ := shift?_eq_some.mp back
  simp only [isApartFrom, low, high, Bool.or_eq_true, Bool.and_eq_true, Nat.blt_eq,
    Nat.beq_eq] at apart
  rcases apart with (below | above) | ⟨⟨⟨steps, otherSteps⟩, odd⟩, positive⟩
  · omega
  · omega
  · rw [otherSteps] at otherStep
    rcases steps with steps | single
    · rw [steps] at step
      omega
    · omega

end CaseRun

/-- What has another form in lower case: the capital letters of ASCII, the dotted capital i, and the
letters of the runs. -/
def capitalRuns : List CaseRun :=
  ⟨0x41, 0x5A, 1, 32⟩ :: ⟨0x130, 0x130, 1, 0⟩ :: lowerRuns

/-- No run leads to a character that has another form in lower case. -/
theorem isApartFrom_capitalRuns :
    ∀ run ∈ lowerRuns, ∀ other ∈ capitalRuns, run.isApartFrom other = true := by
  -- runs are compared by their ends and steps, as their characters are too many
  have checked : (lowerRuns.all fun run => capitalRuns.all run.isApartFrom) = true := by
    decide +kernel
  intro run listed other among
  exact List.all_eq_true.mp (List.all_eq_true.mp checked run listed) other among

/-- A character that lower case leaves as it is, wherever it stands. -/
def IsLowered (char : Char) : Prop :=
  char.toNat ≠ 0x3A3 ∧ lowerCharacter char = [char]

instance : DecidablePred IsLowered :=
  fun _ => inferInstanceAs (Decidable (_ ∧ _))

theorem isLowered_of_no_shift {char : Char}
    (plain : ∀ run ∈ capitalRuns, run.shift? char.toNat = none) : IsLowered char := by
  simp only [capitalRuns, List.forall_mem_cons] at plain
  obtain ⟨ascii, dotted, runs⟩ := plain
  have unchanged : lowerRuns.findSome? (·.shift? char.toNat) = none :=
    List.findSome?_eq_none_iff.mpr runs
  refine ⟨fun sigma => ?_, ?_⟩
  · rw [sigma] at unchanged
    revert unchanged
    decide +kernel
  · rw [lowerCharacter]
    split
    · have small : ¬('A'.val ≤ char.val ∧ char.val ≤ 'Z'.val) := by
        rintro ⟨first, last⟩
        rw [CaseRun.shift?, if_pos ⟨first, last, Nat.mod_one _⟩] at ascii
        cases ascii
      have same : char.toLower = char := dif_neg small
      rw [same]
    · split
      · next dot =>
          rw [dot] at dotted
          cases dotted
      · rw [unchanged]
        rfl

/-- A run leads to characters that lower case leaves as they are. -/
theorem isLowered_of_shift? {run : CaseRun} (listed : run ∈ lowerRuns) {code image : Nat}
    (leads : run.shift? code = some image) : IsLowered (Char.ofNat image) := by
  by_cases valid : image.isValidChar
  · have same : (Char.ofNat image).toNat = image := by
      rw [Char.ofNat, dif_pos valid]
      rfl
    refine isLowered_of_no_shift fun other among => ?_
    rw [same]
    exact CaseRun.shift?_eq_none_of_isApartFrom
      (isApartFrom_capitalRuns run listed other among) leads
  · have zero : IsLowered (Char.ofNat 0) := by decide
    rwa [Char.ofNat, dif_neg valid]

/-- Lower case makes characters that it leaves as they are. -/
theorem isLowered_of_mem_lowerCharacter {char : Char} (noSigma : char.toNat ≠ 0x3A3) :
    ∀ lowered ∈ lowerCharacter char, IsLowered lowered := by
  have letters : ∀ code < 128, IsLowered (Char.ofNat code).toLower := by decide
  have plainDot : IsLowered 'i' := by decide
  have dotAbove : IsLowered (Char.ofNat 0x307) := by decide +kernel
  intro lowered member
  rw [lowerCharacter] at member
  split at member
  · next small =>
      obtain rfl := List.mem_singleton.mp member
      have letter := letters char.toNat small
      rwa [Char.ofNat_toNat] at letter
  · next large =>
      split at member
      · rcases List.mem_cons.mp member with rfl | member
        · exact plainDot
        · rwa [List.mem_singleton.mp member]
      · next noDot =>
          obtain rfl := List.mem_singleton.mp member
          cases shifted : lowerRuns.findSome? (·.shift? char.toNat) with
          | none =>
              refine ⟨noSigma, ?_⟩
              rw [Option.elim_none, lowerCharacter, if_neg large, if_neg noDot, shifted]
              rfl
          | some image =>
              obtain ⟨run, listed, leads⟩ := List.exists_of_findSome?_eq_some shifted
              exact isLowered_of_shift? listed leads

theorem isLowered_of_mem_lowerAfter {before text : List Char} :
    ∀ char ∈ lowerAfter before text, IsLowered char := by
  have final : IsLowered (Char.ofNat 0x3C2) := by decide +kernel
  have inner : IsLowered (Char.ofNat 0x3C3) := by decide +kernel
  induction text generalizing before with
  | nil => exact List.forall_mem_nil _
  | cons first rest inductionHypothesis =>
      intro char member
      rw [lowerAfter] at member
      rcases List.mem_append.mp member with here | later
      · split at here
        · obtain rfl := List.mem_singleton.mp here
          split
          · exact final
          · exact inner
        · next noSigma => exact isLowered_of_mem_lowerCharacter noSigma char here
      · exact inductionHypothesis char later

theorem lowerAfter_of_isLowered {text : List Char} (lowered : ∀ char ∈ text, IsLowered char)
    (before : List Char) : lowerAfter before text = text := by
  induction text generalizing before with
  | nil => rfl
  | cons char text inductionHypothesis =>
      obtain ⟨⟨noSigma, same⟩, others⟩ := List.forall_mem_cons.mp lowered
      rw [lowerAfter, if_neg noSigma, same, inductionHypothesis others]
      rfl

/-- Text in lower case is its own lower case form. -/
theorem lowerCase_lowerCase (text : String) : lowerCase (lowerCase text) = lowerCase text := by
  rw [lowerCase, lowerCharacters]
  refine congrArg String.ofList ?_
  rw [lowerCase, lowerCharacters, String.toList_ofList]
  exact lowerAfter_of_isLowered isLowered_of_mem_lowerAfter []

end EntityFilter.Text
