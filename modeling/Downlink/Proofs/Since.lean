import Mathlib.Data.List.Basic

/-!
What a history says of the present: an entry started something, and no later entry ended it.
-/
namespace Downlink

variable {H : Type} {starts : List H → H → Prop} {ends : H → Prop} {history : List H} {last : H}

/-- Whether an entry starts it may depend on the entries before. -/
def Since (starts : List H → H → Prop) (ends : H → Prop) (history : List H) : Prop :=
  ∃ before entry after,
    history = before ++ entry :: after ∧ starts before entry ∧ ∀ later ∈ after, ¬ ends later

theorem not_since_nil : ¬ Since starts ends [] := by
  rintro ⟨before, entry, after, hsplit, _⟩
  simp at hsplit

theorem since_append_singleton :
    Since starts ends (history ++ [last]) ↔
      starts history last ∨ Since starts ends history ∧ ¬ ends last := by
  constructor
  · rintro ⟨before, entry, after, hsplit, hstarts, hlasts⟩
    rcases List.eq_nil_or_concat' after with rfl | ⟨after, later, rfl⟩
    · obtain ⟨rfl, hentry⟩ := List.append_inj' hsplit rfl
      cases hentry
      exact Or.inl hstarts
    · rw [← List.cons_append, ← List.append_assoc] at hsplit
      obtain ⟨rfl, hlater⟩ := List.append_inj' hsplit rfl
      cases hlater
      refine Or.inr ⟨⟨before, entry, after, rfl, hstarts, ?_⟩, ?_⟩
      · exact fun other hm => hlasts other (List.mem_append_left _ hm)
      · exact hlasts last (List.mem_append_right _ (List.mem_singleton_self _))
  · rintro (hstarts | ⟨⟨before, entry, after, rfl, hstarts, hlasts⟩, hlast⟩)
    · exact ⟨history, last, [], rfl, hstarts, by simp⟩
    · refine ⟨before, entry, after ++ [last], by simp, hstarts, ?_⟩
      intro later hm
      rcases List.mem_append.mp hm with hm | hm
      · exact hlasts later hm
      · rwa [List.mem_singleton.mp hm]

end Downlink
