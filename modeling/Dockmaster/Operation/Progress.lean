/-!
# Progress of operations

An operation goes from phase to phase until it has a result. That it comes to an end is seen from a
rank, a pair of numbers of which every step lowers the first or keeps it and lowers the second.
-/

namespace Dockmaster

/-- What becomes of an operation when it goes on: it is in a new phase, or it has a result. -/
inductive Progress (σ α : Type) where
  /-- The operation is in a new phase. -/
  | running (phase : σ)
  /-- The operation is over. -/
  | finished (result : α)

/-- The progress of an operation that has another as its part. -/
def Progress.map {σ τ α β : Type} (f : σ → τ) (g : α → β) : Progress σ α → Progress τ β
  | .running phase => .running (f phase)
  | .finished result => .finished (g result)

/-- How far a phase is from the end. -/
abbrev Rank := Nat × Nat

/-- The order on ranks. -/
abbrev Rank.Below : Rank → Rank → Prop := Prod.Lex (· < ·) (· < ·)

/-- A rank with a smaller first number is below. -/
theorem Rank.below_of_fst {r s : Rank} (h : r.1 < s.1) : r.Below s :=
  Prod.lex_def.2 (.inl h)

/-- A rank with the same first and a smaller second number is below. -/
theorem Rank.below_of_snd {r s : Rank} (h : r.1 = s.1) (h' : r.2 < s.2) : r.Below s :=
  Prod.lex_def.2 (.inr ⟨h, h'⟩)

end Dockmaster
