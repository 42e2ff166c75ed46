import LinuxPro.Relay.TransferLaws

/-! What the relay reads from one party it writes to the other, up to the chunk it ends on. -/

namespace LinuxPro.Relay

open Tls (ReadResult)

variable {σ : Type} {s t u : State σ} {pass : Pass σ} {side : Side} {tls : σ}

/-- Everything read from a party was written to the other. -/
def Balanced (s : State σ) : Prop :=
  ∀ side, s.received side = s.sent side.other

/-- Everything read from a party was written to the other or is what is left over of it. -/
def BalancedBut (lost : Side → Chars) (s : State σ) : Prop :=
  ∀ side, s.received side = s.sent side.other ++ lost side

/-- Why a pass ends the loop, with what was read in it from each party and not forwarded. -/
inductive Ends (last : Pass σ) : Cause → (Side → Chars) → Prop where
  | select (failed : last.select < 0) : Ends last .selectFailed fun _ => []
  | read {side : Side} {tls : σ} (ready : last.ready side = true)
      (failed : (last.read side tls).1.result ≤ 0) : Ends last (.readFailed side) fun _ => []
  | write {side : Side} {tls : σ} (ready : last.ready side = true)
      (positive : 0 < (last.read side tls).1.result)
      (differs : last.write side.other ≠ (last.read side tls).1.result) :
      Ends last (.writeFailed side.other)
        (Function.update (fun _ => []) side (last.read side tls).1.data)

/-- A block that goes on has forwarded what it read. -/
theorem Block.balanced (block : Block pass side s none t) (before : Balanced s) : Balanced t := by
  cases block with
  | skipped _ => exact before
  | forwarded _ _ _ =>
    intro z
    by_cases here : z = side
    · -- The same bytes were added to what was read and to what was sent.
      subst here
      simp [passedOn, readIn, before z]
    · -- The other direction has neither been read nor written.
      have there : z.other ≠ side.other := by
        intro same
        exact here (by simpa using congrArg Side.other same)
      simp [passedOn, readIn, here, there, before z]

/-- A block that leaves the loop has lost at most what it read. -/
theorem Block.ends {cause : Cause} (block : Block pass side s (some cause) t)
    (before : Balanced s) : ∃ lost, Ends pass cause lost ∧ BalancedBut lost t := by
  cases block with
  | unwritten ready positive short =>
    refine ⟨_, .write ready positive short, fun z => ?_⟩
    -- What was read last is what is lost, in this direction only.
    by_cases here : z = side
    · subst here
      simp [readIn, before z]
    · simp [readIn, here, before z]
  | unread ready failed =>
    refine ⟨_, .read ready (Int32.not_lt.mp failed), fun z => ?_⟩
    -- Without a positive result nothing was stored.
    have nothing := data_of_not_positive failed
    by_cases here : z = side
    · subst here
      simp [readIn, nothing, before z]
    · simp [readIn, here, before z]

/-- A pass keeps the two directions balanced, unless it ends the loop. -/
theorem Body.balanced {cause : Option Cause} (body : Body pass s cause t) (before : Balanced s) :
    match cause with
    | none => Balanced t
    | some cause => ∃ lost, Ends pass cause lost ∧ BalancedBut lost t := by
  have chosen : Balanced (selected pass s) := before
  cases body with
  | selectFailed failed => exact ⟨_, .select failed, fun z => by simpa using before z⟩
  | timedOut _ => exact chosen
  | first block => exact block.ends chosen
  | both block next =>
    -- The block for the server starts in the balance that the one for the client has kept.
    have between := block.balanced chosen
    cases cause with
    | none => exact next.balanced between
    | some cause => exact next.ends between

/-- What is known of the relay after a sequence of passes. -/
def Faithful (passes : List (Pass σ)) (s : State σ) : Prop :=
  (s.left = none ∧ Balanced s) ∨
    ∃ before last cause lost, passes = before ++ [last] ∧ s.left = some cause ∧
      Ends last cause lost ∧ BalancedBut lost s

/-- Nothing is done once the loop was left. -/
theorem passes_of_left {passes : List (Pass σ)} (run : (transfer tls).Run s passes t)
    {cause : Cause} (ended : s.left = some cause) : passes = [] ∧ t = s := by
  cases run with
  | nil => exact ⟨rfl, rfl⟩
  | cons step _ =>
    -- A further pass would need the loop to be running.
    have running : s.left = none := step.1
    rw [ended] at running
    cases running

/-- A run that starts in balance stays faithful to what it reads. -/
theorem faithful_of_run {passes : List (Pass σ)} (run : (transfer tls).Run s passes t)
    (running : s.left = none) (before : Balanced s) : Faithful passes t := by
  -- The first pass either keeps the balance for the rest of the run or is the last.
  induction run with
  | nil => exact .inl ⟨running, before⟩
  | @cons s next t pass rest step tail ih =>
    obtain ⟨cause, u, body, rfl⟩ := body_of_step step
    have after := body.balanced before
    cases cause with
    | none =>
      rcases ih rfl after with going | ⟨earlier, last, cause, lost, split, ended⟩
      · exact .inl going
      · exact .inr ⟨pass :: earlier, last, cause, lost, by simp [split], ended⟩
    | some cause =>
      obtain ⟨lost, ends, balanced⟩ := after
      obtain ⟨rfl, rfl⟩ := passes_of_left tail rfl
      exact .inr ⟨[], pass, cause, lost, rfl, rfl, ends, balanced⟩

/--
The relay forwards each direction byte for byte, and loses at most the chunk it ends on.

As long as the loop goes on, what was written to a party is exactly what was read from the other.
The loop ends with a pass in which `select` or a read failed, or a write did not take it all.
Only in the last case is anything lost, which is that one chunk.
-/
theorem transfer_fidelity {passes : List (Pass σ)}
    (run : (transfer tls).Run (begins tls) passes s) : Faithful passes s :=
  faithful_of_run run rfl fun _ => rfl

/-- A read of these bytes. -/
def readOf (data : Chars) (fits : data.length ≤ bufferSize) : ReadResult bufferSize where
  result := .ofNat data.length
  data := data
  fits := fits
  counts := by
    have small : data.length < 2 ^ 31 := Nat.lt_of_le_of_lt fits (by decide)
    simp [Int32.toInt_ofNat_of_lt small]

/-- A pass in which both parties are ready, with what each sends and what each write returns. -/
def bothReady (client server : ReadResult bufferSize) (write : Side → Int32) : Pass Unit where
  select := 2
  ready _ := true
  read side _ := (if side = .client then client else server, ())
  write := write

/-- A pass can be made exactly while the loop goes on. -/
instance (tls : σ) (s : State σ) (pass : Pass σ) : Decidable ((transfer tls).enabled s pass) :=
  inferInstanceAs (Decidable (s.left = none))

/-- A chunk that the server does not take in full is the only one that is lost. -/
theorem transfer_fidelity_last_chunk : ∃ passes s, (transfer ()).Run (begins ()) passes s ∧
    s.left = some (.writeFailed .server) ∧ s.received .client = [1, 2, 5, 6] ∧
    s.sent .server = [1, 2] ∧ s.received .server = [3] ∧ s.sent .client = [3] ∧
    Faithful passes s := by
  -- The first pass forwards in both directions, and in the second only one of two bytes is taken.
  obtain ⟨s, run, passed⟩ := (transfer ()).exists_run_of_play (begins ())
    [bothReady (readOf [1, 2] (by decide)) (readOf [3] (by decide)) fun side =>
        if side = .client then 1 else 2,
      bothReady (readOf [5, 6] (by decide)) (readOf [4] (by decide)) fun _ => 1]
    (fun s => decide (s.left = some (.writeFailed .server) ∧ s.received .client = [1, 2, 5, 6] ∧
      s.sent .server = [1, 2] ∧ s.received .server = [3] ∧ s.sent .client = [3])) (by decide)
  simp only [decide_eq_true_eq] at passed
  obtain ⟨left, fromClient, toServer, fromServer, toClient⟩ := passed
  exact ⟨_, s, run, left, fromClient, toServer, fromServer, toClient, transfer_fidelity run⟩

end LinuxPro.Relay
