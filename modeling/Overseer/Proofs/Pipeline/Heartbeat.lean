import Overseer.Heartbeat
import Overseer.Proofs.Pipeline.Calls

/-!
# Ticks through the stages of the heartbeat

The first stage of the heartbeat looks at its product before it answers, and the second one adds
without a look. So a tick whose product is too large is an error, and a product that is even passes
unchanged, but a sum that is too large is a panic, which no recovery catches (`ends_process`). There
are exactly two ticks whose product is not too large while the sum is (`panics_iff`). They are close
to a third of the bound, further than any heartbeat gets.
-/

namespace Overseer.Heartbeat

/-- The fault of a tick whose product is too large. -/
def tooLarge (tick : Nat) : Fault := ⟨toString tick ++ " * " ++ toString 3 ++ " overflows", []⟩

/-- The fault of an even product, which the second stage does not take. -/
def isEven (value : Nat) : Fault := ⟨toString value ++ " is even", []⟩

/-- What a sum carries that is too large. -/
def overflow : Payload := .text "attempt to add with overflow"

/-- How a tick ends. -/
def ending (tick : Nat) : Ending Nat :=
  if bound ≤ tick * 3 then .fault (tooLarge tick)
  else if tick * 3 % 2 = 0 then .value (tick * 3)
  else if tick * 3 + 7 < bound then .value (tick * 3 + 7)
  else .panic overflow

/-- The records of a tick: the stage that failed, and the number that was skipped. -/
def records (tick : Nat) : List Record :=
  if bound ≤ tick * 3 then [StageFailure.record ⟨scale 3, tick, tooLarge tick⟩ pipelineName]
  else if tick * 3 % 2 = 0 then
    [StageFailure.record ⟨offset 7, tick * 3, isEven (tick * 3)⟩ pipelineName,
      skippedRecord (tick * 3) (isEven (tick * 3))]
  else []

theorem run_scale (tick : Nat) (rs : List Record) : Code.on ((scale 3).run tick) rs =
    (.ok (if tick * 3 < bound then .ok (tick * 3) else .error (tooLarge tick)), rs) := by
  simp only [Stage.run, scale, Code.on_bind, Code.on_pure]
  split <;> rfl

theorem run_offset (value : Nat) (rs : List Record) : Code.on ((offset 7).run value) rs =
    (if value % 2 = 0 then .ok (.error (isEven value))
      else if value + 7 < bound then .ok (.ok (value + 7)) else .error overflow, rs) := by
  simp only [Stage.run, offset, Code.on_bind, beq_iff_eq]
  by_cases heven : value % 2 = 0
  · simp only [if_pos heven]
    rfl
  · simp only [if_neg heven, Code.on_pure]
    split <;> rfl

/-- What becomes of a tick that is pushed through the stages, and what is recorded about it. -/
theorem ends_process (tick : Nat) (rs : List Record) :
    Code.ends (process stages tick) rs = (ending tick, rs ++ records tick) := by
  simp only [process, stages, Sequence.process, Sequence.run, Code.ends, Code.on_bind, run_scale,
    ending, records]
  by_cases hlarge : bound ≤ tick * 3
  · simp only [if_pos hlarge, if_neg (Nat.not_lt.2 hlarge), Code.on_pure]
    rfl
  · simp only [if_neg hlarge, if_pos (Nat.not_le.1 hlarge), Code.on_bind, run_offset]
    by_cases heven : tick * 3 % 2 = 0
    · simp only [if_pos heven, Code.on_pure]
      exact Prod.ext rfl (List.append_assoc rs [_] [_])
    · simp only [if_neg heven, List.append_nil]
      by_cases hsum : tick * 3 + 7 < bound
      · simp only [if_pos hsum]
        rfl
      · simp only [if_neg hsum]

/-- Two ticks of 64 bits end in a panic. -/
theorem panics_iff {tick : Nat} (hword : tick < bound) : ending tick = .panic overflow ↔
    tick = 6148914691236517203 ∨ tick = 6148914691236517205 := by
  have hbound : bound = 18446744073709551616 := rfl
  unfold ending
  rw [hbound] at hword ⊢
  split_ifs <;> simp <;> omega

/-- A tick of 64 bits that the stages accept can make them panic. -/
theorem exists_panic : ∃ tick < bound, ∀ rs,
    (Code.ends (process stages tick) rs).1 = .panic overflow := by
  have hword : 6148914691236517203 < bound := by decide
  refine ⟨_, hword, fun rs => ?_⟩
  rw [ends_process]
  exact (panics_iff hword).2 (.inl rfl)

end Overseer.Heartbeat
