import LinuxPro.Relay.Transfer
import Mathlib.Order.Basic

/-! What one block of the relay's loop, and one pass through the loop, does to its variables. -/

namespace LinuxPro.Relay

open Tls (ReadResult)

variable {σ : Type} {s t u : State σ} {pass : Pass σ} {side : Side} {cause : Option Cause}

/-- Forwarding is symmetric. -/
@[simp] theorem Side.other_other (side : Side) : side.other.other = side := by
  cases side <;> rfl

/-- A party is not forwarded to itself. -/
@[simp] theorem Side.other_ne (side : Side) : side.other ≠ side := by
  cases side <;> decide

/-- The answer to the read of a block. -/
abbrev answer (pass : Pass σ) (side : Side) (s : State σ) : ReadResult bufferSize :=
  (pass.read side s.tls).1

/-- The array after an answer was stored in it, all zero otherwise. -/
def filled (message : Chars) : Chars := (Chars.bzero bufferSize).store message

/-- The variables after the read of a block. -/
def readIn (pass : Pass σ) (side : Side) (s : State σ) : State σ :=
  { s with
    ret := (answer pass side s).result
    buffer := filled (answer pass side s).data
    tls := (pass.read side s.tls).2
    received := Function.update s.received side (s.received side ++ (answer pass side s).data) }

/-- The variables after a block that forwarded what it read. -/
def passedOn (pass : Pass σ) (side : Side) (s : State σ) : State σ :=
  { readIn pass side s with
    sent := Function.update s.sent side.other (s.sent side.other ++ (answer pass side s).data)
    printed := s.printed ++
      [⟨side, (answer pass side s).result, filled (answer pass side s).data⟩] }

/-- What was stored at the front of the array is what a write of that many bytes takes from it. -/
theorem take_filled (message : ReadResult bufferSize) :
    (filled message.data).take message.result.toInt.toNat = message.data := by
  -- The result counts the bytes that were stored.
  rw [← message.counts, filled, Chars.store, List.take_left]

/-- A result that is not positive comes without data. -/
theorem data_of_not_positive {message : ReadResult bufferSize} (failed : ¬ 0 < message.result) :
    message.data = [] := by
  have small : message.result.toInt ≤ 0 := by
    simpa [Int32.lt_iff_toInt_lt] using failed
  rw [← List.length_eq_zero_iff, message.counts]
  omega

/-- A write that returns the number of bytes it was given has sent what was read. -/
theorem sslWrite_run (pass : Pass σ) (side : Side) (s : State σ) :
    (sslWrite pass side.other (answer pass side s).result).run (readIn pass side s) =
      if pass.write side.other = (answer pass side s).result then
        pure (pass.write side.other, { readIn pass side s with
          sent := Function.update s.sent side.other
            (s.sent side.other ++ (answer pass side s).data) })
      else pure (pass.write side.other, readIn pass side s) := by
  have taken := take_filled (answer pass side s)
  by_cases whole : pass.write side.other = (answer pass side s).result
  · rw [if_pos whole, ← taken]
    simp [sslWrite, readIn, whole]
  · rw [if_neg whole]
    simp [sslWrite, readIn, whole]

/-- A block reads, and goes on exactly if there was something to read and it was written whole. -/
theorem forward_run (pass : Pass σ) (side : Side) (s : State σ) :
    (forward pass side).run s =
      if 0 < (answer pass side s).result then
        if pass.write side.other = (answer pass side s).result then
          pure (none, passedOn pass side s)
        else pure (some (.writeFailed side.other), readIn pass side s)
      else pure (some (.readFailed side), readIn pass side s) := by
  have read : (forward pass side).run s =
      (if (readIn pass side s).ret > 0 then do
        if (readIn pass side s).ret ≠ (← sslWrite pass side.other (readIn pass side s).ret) then
          return some (.writeFailed side.other)
        else
          print side
          return none
      else return some (.readFailed side) : RelayM σ (Option Cause)).run (readIn pass side s) := rfl
  rw [read]
  have result : (readIn pass side s).ret = (answer pass side s).result := rfl
  -- The two tests of the block are decided by the two answers.
  by_cases positive : 0 < (answer pass side s).result
  · by_cases whole : pass.write side.other = (answer pass side s).result
    · simp [positive, whole, result, sslWrite_run, print, passedOn]
      rfl
    · simp [positive, whole, Ne.symm whole, result, sslWrite_run]
  · simp [positive, result]

/-- What a block can do, and why it leaves the loop if it does. -/
inductive Block (pass : Pass σ) (side : Side) (s : State σ) : Option Cause → State σ → Prop where
  /-- The socket is not in the set. -/
  | skipped (idle : pass.ready side = false) : Block pass side s none s
  /-- What was read was written whole. -/
  | forwarded (ready : pass.ready side = true) (positive : 0 < (answer pass side s).result)
      (whole : pass.write side.other = (answer pass side s).result) :
      Block pass side s none (passedOn pass side s)
  /-- What was read was not written, or not whole. -/
  | unwritten (ready : pass.ready side = true) (positive : 0 < (answer pass side s).result)
      (short : pass.write side.other ≠ (answer pass side s).result) :
      Block pass side s (some (.writeFailed side.other)) (readIn pass side s)
  /-- Nothing was read. -/
  | unread (ready : pass.ready side = true) (failed : ¬ 0 < (answer pass side s).result) :
      Block pass side s (some (.readFailed side)) (readIn pass side s)

/-- A block does nothing else. -/
theorem block_of_run (ran : (forwardIfReady pass side).run s = pure (cause, t)) :
    Block pass side s cause t := by
  cases ready : pass.ready side with
  | false =>
    have same : (pure (none, s) : Id _) = pure (cause, t) := by
      simpa [forwardIfReady, ready] using ran
    cases same
    exact .skipped ready
  | true =>
    simp only [forwardIfReady, ready, if_true, forward_run] at ran
    -- The two answers pick one of the three outcomes of the block.
    split at ran
    · rename_i positive
      split at ran
      · rename_i whole
        cases ran
        exact .forwarded ready positive whole
      · rename_i short
        cases ran
        exact .unwritten ready positive short
    · rename_i failed
      cases ran
      exact .unread ready failed

/-- The variables after `select`. -/
abbrev selected (pass : Pass σ) (s : State σ) : State σ := { s with ret := pass.select }

/-- What a pass through the loop can do, and why it is the last if it is. -/
inductive Body (pass : Pass σ) (s : State σ) : Option Cause → State σ → Prop where
  | selectFailed (failed : pass.select < 0) : Body pass s (some .selectFailed) (selected pass s)
  | timedOut (idle : pass.select = 0) : Body pass s none (selected pass s)
  /-- The block for the client leaves the loop, so that for the server is not reached. -/
  | first {cause : Cause} {t : State σ}
      (block : Block pass .client (selected pass s) (some cause) t) : Body pass s (some cause) t
  /-- Both blocks are reached, one after the other. -/
  | both {cause : Option Cause} {t u : State σ}
      (block : Block pass .client (selected pass s) none t)
      (next : Block pass .server t cause u) : Body pass s cause u

/-- The result of `select` decides whether the sockets are looked at. -/
theorem loopBody_run (pass : Pass σ) (s : State σ) :
    (loopBody pass).run s =
      (if pass.select < 0 then return some .selectFailed
      else if pass.select = 0 then return none
      else do
        match ← forwardIfReady pass .client with
        | some cause => return some cause
        | none => forwardIfReady pass .server : RelayM σ (Option Cause)).run
          (selected pass s) := rfl

/-- A pass does nothing else. -/
theorem body_of_run (ran : (loopBody pass).run s = pure (cause, t)) : Body pass s cause t := by
  rw [loopBody_run] at ran
  split at ran
  · rename_i failed
    cases ran
    exact .selectFailed failed
  split at ran
  · rename_i idle
    cases ran
    exact .timedOut idle
  rcases ended : (forwardIfReady pass .client).run (selected pass s) with ⟨left, u⟩
  have first : (forwardIfReady pass .client).run (selected pass s) = pure (left, u) := ended
  -- The block for the server is reached only if that for the client goes on.
  cases left with
  | some left =>
    simp only [StateT.run_bind, first, pure_bind] at ran
    cases ran
    exact .first (block_of_run first)
  | none =>
    simp only [StateT.run_bind, first, pure_bind] at ran
    exact .both (block_of_run first) (block_of_run ran)

/-- A block that is not entered does nothing. -/
theorem forwardIfReady_idle (s : State σ) (idle : pass.ready side = false) :
    (forwardIfReady pass side).run s = pure (none, s) := by
  simp [forwardIfReady, idle]

/-- A block that is entered forwards what a read that succeeds hands to a write that takes it. -/
theorem forwardIfReady_whole (ready : pass.ready side = true)
    (positive : 0 < (answer pass side s).result)
    (whole : pass.write side.other = (answer pass side s).result) :
    (forwardIfReady pass side).run s = pure (none, passedOn pass side s) := by
  rw [forwardIfReady, if_pos ready, forward_run, if_pos positive, if_pos whole]

/-- A pass with one party ready forwards what that party sent, and does nothing else. -/
theorem runPass_one (side : Side) (one : pass.select = 1)
    (only : ∀ z, pass.ready z = decide (z = side))
    (positive : 0 < (answer pass side (selected pass s)).result)
    (whole : pass.write side.other = (answer pass side (selected pass s)).result) :
    runPass pass s = { passedOn pass side (selected pass s) with left := none } := by
  have ready : pass.ready side = true := by simp [only]
  have forwarded := forwardIfReady_whole ready positive whole
  have ran : (loopBody pass).run s = pure (none, passedOn pass side (selected pass s)) := by
    rw [loopBody_run, if_neg (by rw [one]; decide), if_neg (by rw [one]; decide)]
    -- The block of the party that is not ready comes after or before the one that forwards.
    cases side with
    | client =>
      have idle : pass.ready .server = false := by simp [only]
      simp only [StateT.run_bind, forwarded, pure_bind]
      exact forwardIfReady_idle _ idle
    | server =>
      have idle : pass.ready .client = false := by simp [only]
      simp only [StateT.run_bind, forwardIfReady_idle _ idle, pure_bind]
      exact forwarded
  rw [runPass, ran]
  rfl

/-- A step of the relay is a pass through the loop. -/
theorem body_of_step {tls : σ} (step : (transfer tls).Step s pass t) :
    ∃ cause u, Body pass s cause u ∧ t = { u with left := cause } := by
  rcases ended : (loopBody pass).run s with ⟨cause, u⟩
  have ran := step.2
  simp only [transfer, runPass, ended, Except.ok.injEq] at ran
  exact ⟨cause, u, body_of_run ended, ran.symm⟩

end LinuxPro.Relay
