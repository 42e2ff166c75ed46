import Mathlib.Data.List.Basic

/-! Going through a list in order, with what is known of the elements before. -/

namespace LinuxPro

/-- What holds of each element once it holds of all earlier ones holds of every element. -/
theorem forall_of_earlier {α : Type} {holds : α → Prop} {all : List α}
    (next : ∀ before a after, all = before ++ a :: after → (∀ b ∈ before, holds b) → holds a) :
    ∀ a ∈ all, holds a := by
  -- The elements already dealt with are carried along as the part before the rest.
  have rest : ∀ later before, all = before ++ later → (∀ b ∈ before, holds b) →
      ∀ a ∈ later, holds a := by
    intro later
    induction later with
    | nil => simp
    | cons a later ih =>
      intro before split earlier b member
      have here := next before a later split earlier
      rcases List.mem_cons.mp member with rfl | member
      · exact here
      · refine ih (before ++ [a]) (by simp [split]) ?_ b member
        intro c among
        rcases List.mem_append.mp among with among | last
        · exact earlier c among
        · rw [List.mem_singleton.mp last]
          exact here
  exact rest all [] rfl (by simp)

end LinuxPro
