import Mathlib

/-! Loops whose body either leaves with a result or goes round with less to do. -/

namespace LinuxPro

/-- What one round of a loop does. -/
inductive Round (State Result : Type) where
  | again (next : State)
  | leave (result : Result)
deriving DecidableEq, Repr

section Loop

variable {State Result : Type} (size : State → Nat) (body : State → Round State Result)

/-- Every round that goes on leaves less to do. -/
def Shrinks : Prop := ∀ state next, body state = .again next → size next < size state

variable {size body}

/-- Runs the body until it leaves. -/
def loop (shrinks : Shrinks size body) (state : State) : Result :=
  -- The equation of the round is what shows that less is left to do.
  match _ : body state with
  | .leave result => result
  | .again next => loop shrinks next
termination_by size state
decreasing_by exact shrinks state next ‹_›

variable (shrinks : Shrinks size body)

/-- A round that leaves ends the loop. -/
theorem loop_leave {state : State} {result : Result} (round : body state = .leave result) :
    loop shrinks state = result := by
  rw [loop]
  split <;> simp_all

/-- Any other round is followed by the next one. -/
theorem loop_again {state next : State} (round : body state = .again next) :
    loop shrinks state = loop shrinks next := by
  rw [loop]
  split <;> simp_all

/-- What every round keeps holds where the loop leaves. -/
theorem loop_invariant (Inv : State → Prop) (Post : Result → Prop)
    (keeps : ∀ state next, Inv state → body state = .again next → Inv next)
    (leaves : ∀ state result, Inv state → body state = .leave result → Post result)
    {state : State} (start : Inv state) : Post (loop shrinks state) := by
  -- The induction is on what is left to do, as the loop itself recurs.
  fun_induction loop shrinks state with
  | case1 state result round => exact leaves state result start round
  | case2 state next round ih => exact ih (keeps state next start round)

end Loop

end LinuxPro
