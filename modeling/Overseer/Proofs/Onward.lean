import Overseer.Proofs.History

/-!
# What may follow

`S.Onward h s h' s'` says that the occurrences of `h'` may follow in the state `s` with the history
`h`, and lead to `s'`. It begins with the state at hand, where a longer run says nothing about the
state that a shorter one has come to.
-/

namespace Overseer.System

variable {σ ε ρ : Type} {S : System σ ε ρ} {h h₁ h₂ : List (Occurrence σ ε)} {s s₁ s₂ : σ} {e : ε}

/-- The occurrences of the second list may follow those of the first. -/
inductive Onward (S : System σ ε ρ) :
    List (Occurrence σ ε) → σ → List (Occurrence σ ε) → σ → Prop
  | here {h : List (Occurrence σ ε)} {s : σ} : Onward S h s [] s
  | next {h h₁ : List (Occurrence σ ε)} {s s₁ : σ} {e : ε} : S.allows h s e = true →
      Onward S (h ++ [⟨s, e⟩]) (S.happen s e).1 h₁ s₁ → Onward S h s (⟨s, e⟩ :: h₁) s₁

theorem Onward.single (hall : S.allows h s e = true) :
    S.Onward h s [⟨s, e⟩] (S.happen s e).1 :=
  .next hall .here

theorem Onward.trans (h₁₂ : S.Onward h s h₁ s₁) (h₂₃ : S.Onward (h ++ h₁) s₁ h₂ s₂) :
    S.Onward h s (h₁ ++ h₂) s₂ := by
  induction h₁₂ with
  | here => rwa [List.append_nil] at h₂₃
  | next hall _ ih =>
    rw [← List.append_cons] at ih
    exact .next hall (ih h₂₃)

/-- What may follow a run goes on with it. -/
theorem Onward.run (honward : S.Onward h s h₁ s₁) (hrun : S.Run h s) : S.Run (h ++ h₁) s₁ := by
  induction honward with
  | here => rwa [List.append_nil]
  | next hall _ ih =>
    have hlonger := ih (hrun.next hall)
    rwa [← List.append_cons] at hlonger

end Overseer.System
