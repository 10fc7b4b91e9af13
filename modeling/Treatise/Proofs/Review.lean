import Treatise.Review

/-!
# The problems of reviews

The problems of steps taken one after the other are put together in order. So the steps meet no
problem exactly if none of them does, and they can then be taken apart.
-/

namespace Treatise.Review

variable {Problem α β : Type}

@[simp]
theorem value_pure (value : α) : (pure value : Review Problem α).value = value := rfl

@[simp]
theorem problems_pure (value : α) : (pure value : Review Problem α).problems = [] := rfl

@[simp]
theorem value_bind (first : Review Problem α) (next : α → Review Problem β) :
    (first >>= next).value = (next first.value).value := rfl

@[simp]
theorem problems_bind (first : Review Problem α) (next : α → Review Problem β) :
    (first >>= next).problems = first.problems ++ (next first.value).problems := rfl

@[simp]
theorem problems_report (location : Location) (problem : Problem) :
    (report location problem).problems = [⟨location, problem⟩] := rfl

@[simp]
theorem problems_require (condition : Bool) (location : Location) (problem : Problem) :
    (require condition location problem).problems = [] ↔ condition = true := by
  cases condition <;> simp [require]

/-! ## Reviews without problems -/

theorem eq_clean_iff {review : Review Problem α} {result : α} :
    review = ⟨result, []⟩ ↔ review.value = result ∧ review.problems = [] := by
  constructor
  · rintro rfl
    exact ⟨rfl, rfl⟩
  · rintro ⟨rfl, clean⟩
    exact congrArg (Review.mk review.value) clean

theorem pure_eq_clean_iff {value result : α} :
    (pure value : Review Problem α) = ⟨result, []⟩ ↔ value = result := by
  simp [eq_clean_iff]

/-- A step after another meets no problem exactly if neither of them does. -/
theorem bind_eq_clean_iff {first : Review Problem α} {next : α → Review Problem β} {result : β} :
    first >>= next = ⟨result, []⟩ ↔ ∃ value, first = ⟨value, []⟩ ∧ next value = ⟨result, []⟩ := by
  simp only [eq_clean_iff, value_bind, problems_bind, List.append_eq_nil_iff]
  constructor
  · rintro ⟨value, first, second⟩
    exact ⟨_, ⟨rfl, first⟩, value, second⟩
  · rintro ⟨_, ⟨rfl, first⟩, value, second⟩
    exact ⟨value, first, second⟩

@[simp]
theorem report_bind_ne_clean {location : Location} {problem : Problem}
    {next : Unit → Review Problem α} {result : α} :
    ¬ report location problem >>= next = ⟨result, []⟩ := by
  intro clean
  cases congrArg Review.problems clean

end Treatise.Review
