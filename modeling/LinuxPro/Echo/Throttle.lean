import LinuxPro.Echo.Dispatch

/-! When the echo server's throttle holds: reading goes on only after the output has drained. -/

namespace LinuxPro.Echo

variable {w v s t u : State} {p : Ptr} {b c : Bev} {actions : List (Action Ptr Unit)}

/-- A dispatch calls `drained_writecb` while this output is queued. -/
def WakesWith (s : State) (p : Ptr) (output : Bytes) : Prop :=
  ∃ first c, (program.runReadcb p).run s = .ok ((), first) ∧ first.heap p = some c ∧
    c.writePending = true ∧ c.writecb = some .drainedWritecb ∧ c.output = output

/-- The output of a connection is down to the mark `readcb` waits for at some point of a run. -/
def DrainsAlong (s : State) (actions : List (Action Ptr Unit)) (p : Ptr) : Prop :=
  ∃ done rest m c, actions = done ++ rest ∧ echo.Run s done m ∧ m.heap p = some c ∧
    c.output.length ≤ lowMark

/-- What the throttle of the echo server promises of one run. -/
structure Throttles (actions : List (Action Ptr Unit)) : Prop where
  /-- Whenever `drained_writecb` turns reading on, the output is down to the mark. -/
  wakes : ∀ before p after s output, actions = before ++ .dispatch p :: after →
    echo.Run echo.start before s → WakesWith s p output → output.length ≤ lowMark
  /-- Between a `readcb` and the next byte that is read, the output has been down to the mark. -/
  waits : ∀ before p between chunk after s t u b,
    actions = before ++ .dispatch p :: (between ++ .receive p chunk :: after) →
    echo.Run echo.start before s → s.heap p = some b → b.readPending = true →
    echo.Step s (.dispatch p) t → echo.Run t between u → echo.enabled u (.receive p chunk) →
    DrainsAlong t between p

/--
No dispatch finds both data callbacks pending with more than the mark to be queued.

Input that `readcb` is about to echo counts along with the output that is already queued.
-/
def NoRefill (start : State) (actions : List (Action Ptr Unit)) : Prop :=
  ∀ before p after s b, actions = before ++ .dispatch p :: after → echo.Run start before s →
    s.heap p = some b → b.readPending = true → b.writePending = true →
    b.output.length + b.input.length ≤ lowMark

/-- Leaving out the beginning of a run leaves out no dispatch of its rest. -/
theorem NoRefill.rest {before rest : List (Action Ptr Unit)}
    (spared : NoRefill s (before ++ rest)) (run : echo.Run s before t) : NoRefill t rest := by
  intro first p after m b split later
  exact spared (before ++ first) p after m b (by simp [split]) (run.append later)

/-- Leaving out the end of a run leaves out no dispatch of its beginning. -/
theorem NoRefill.beginning {before rest : List (Action Ptr Unit)}
    (spared : NoRefill s (before ++ rest)) : NoRefill s before := by
  intro first p after m b split run
  exact spared first p (after ++ rest) m b (by simp [split]) run

/-- The output a dispatch wakes with is the one the read phase leaves. -/
theorem wakesWith_iff (ok : Ok s) (live : s.heap p = some b) (output : Bytes) :
    WakesWith s p output ↔ b.writePending = true ∧ (afterRead p b).output = output := by
  have conn := ok.conns p b live
  obtain ⟨first, ran, only⟩ := runReadcb_run conn live
  -- The read phase neither makes the notification pending nor takes it back.
  have pending : (afterRead p b).writePending = b.writePending := by
    unfold afterRead
    split <;> rfl
  constructor
  · rintro ⟨first', c, ran', found, waits, -, same⟩
    cases ran'.symm.trans ran
    cases found.symm.trans only.live
    exact ⟨pending ▸ waits, same⟩
  · rintro ⟨waits, same⟩
    have waits' := pending.trans waits
    refine ⟨first, _, ran, only.live, waits', ?_, same⟩
    simpa [waits'] using conn.afterRead.2.2

/-- A notification that is delivered finds the queue short unless input was added to it. -/
theorem afterRead_output (conn : Conn p b) (pending : b.writePending = true)
    (spared : b.readPending = true → b.output.length + b.input.length ≤ lowMark) :
    (afterRead p b).output.length ≤ lowMark := by
  -- Without input the queue is the one that the notification was about.
  unfold afterRead
  split
  · rename_i reads
    simpa [refilled] using spared reads
  · exact conn.drained pending

/-- A dispatch that lets a connection read leaves it with a short queue. -/
theorem dispatched_on (conn : Conn p b) (off : b.readPending = false → b.enabled.read = false)
    (spared : b.readPending = true → b.writePending = true →
      b.output.length + b.input.length ≤ lowMark)
    (on : (afterWrite p (afterRead p b)).enabled.read = true) :
    (afterWrite p (afterRead p b)).output.length ≤ lowMark := by
  cases pending : b.writePending with
  | true =>
    -- The write callback changes no queue.
    have short := afterRead_output conn pending fun reads => spared reads pending
    have same : (afterWrite p (afterRead p b)).output = (afterRead p b).output := by
      unfold afterWrite
      split <;> rfl
    rwa [same]
  | false =>
    -- Nothing turns reading on, and `readcb` turns it off.
    exfalso
    cases reads : b.readPending <;>
      simp_all [afterWrite, afterRead, refilled, EvMask.without, evRead]

/-- A connection that does not read keeps so through a step, unless its output has drained. -/
theorem Ok.off_step (ok : Ok w) (live : w.heap p = some b) (off : b.enabled.read = false)
    {act : Action Ptr Unit} (spared : NoRefill w [act]) (step : echo.Step w act v) :
    ∃ c, v.heap p = some c ∧ (c.enabled.read = false ∨ c.output.length ≤ lowMark) := by
  -- Reading is turned on by a dispatch only.
  rcases act.accept_or_dispatch_or_network with ⟨how, rfl⟩ | ⟨q, rfl⟩ | network
  · -- The connection is older than the one that is accepted.
    have old : p ≠ w.accepted := by
      rintro rfl
      cases live.symm.trans (ok.fresh _ (Nat.le_refl _))
    cases step_accept step
    exact ⟨b, by simpa [accepted, old] using live, .inl off⟩
  · obtain ⟨b', was, only⟩ := step_dispatch ok step
    by_cases here : p = q
    · subst here
      cases was.symm.trans live
      refine ⟨_, only.live, ?_⟩
      cases on : (afterWrite p (afterRead p b)).enabled.read with
      | false => exact .inl rfl
      | true =>
        exact .inr (dispatched_on (ok.conns p b live) (fun _ => off)
          (spared [] p [] w b rfl (.nil w) live) on)
    · exact ⟨b, by simpa [only.heap, here] using live, .inl off⟩
  · obtain ⟨c, live', change⟩ := (Program.step_network network step).2.2.1 p b live
    refine ⟨c, live', .inl ?_⟩
    cases change with
    | same => exact off
    | receive _ on => simp [off] at on
    | send _ => exact off
    | report _ => simp [Program.reported, EvMask.without, off]

/-- A connection that does not read keeps so along a run, unless its output has drained. -/
theorem off_run (run : echo.Run t actions u) (ok : Ok t) (spared : NoRefill t actions)
    (live : t.heap p = some b) (off : b.enabled.read = false) :
    DrainsAlong t actions p ∨ ∃ c, u.heap p = some c ∧ c.enabled.read = false := by
  -- The rest of the run starts from where the first step has led.
  induction run generalizing b with
  | nil => exact .inr ⟨b, live, off⟩
  | @cons s t u act rest step tail ih =>
    have whole : NoRefill s ([act] ++ rest) := spared
    obtain ⟨c, live', off' | short⟩ := ok.off_step live off whole.beginning step
    · rcases ih (ok.step step) (whole.rest step.run) live' off' with drains | rest
      · obtain ⟨done, left, m, d, split, ran, found, low⟩ := drains
        exact .inl ⟨act :: done, left, m, d, by simp [split], .cons step ran, found, low⟩
      · exact .inr rest
    · exact .inl ⟨[act], rest, t, c, rfl, step.run, live', short⟩

/--
The throttle holds along a run exactly when no dispatch both refills and reports the output.

`drained_writecb` stays installed with a watermark of zero.
Output that drains completely after reading has resumed makes it pending while new input may be waiting.
The next dispatch echoes that input first, so a notification about the old output turns reading on over the new one.
-/
theorem echo_throttles_iff (actions : List (Action Ptr Unit)) :
    Throttles actions ↔ NoRefill echo.start actions := by
  constructor
  · intro throttles before p after s b split run live reads writes
    -- With both callbacks pending, the write callback is called on the refilled queue.
    have short := throttles.wakes before p after s _ split run
      ((wakesWith_iff (ok_start.run run) live _).mpr ⟨writes, rfl⟩)
    simpa [afterRead, reads, refilled] using short
  · intro spared
    refine ⟨?_, ?_⟩
    · intro before p after s output split run wakes
      cases live : s.heap p with
      | none =>
        -- Nothing is called on a connection that is not there.
        obtain ⟨first, c, ran, found, -⟩ := wakes
        cases (Program.runReadcb_gone live).symm.trans ran
        cases found.symm.trans live
      | some b =>
        have ok := ok_start.run run
        obtain ⟨writes, rfl⟩ := (wakesWith_iff ok live output).mp wakes
        exact afterRead_output (ok.conns p b live) writes fun reads =>
          spared before p after s b split run live reads writes
    · intro before p between chunk after s t u b split run live reads step later enabled
      have ok := ok_start.run run
      obtain ⟨b', was, only⟩ := step_dispatch ok step
      cases was.symm.trans live
      have here := spared before p _ s b split run live reads
      cases on : (afterWrite p (afterRead p b)).enabled.read with
      | true =>
        have short := dispatched_on (ok.conns p b live) (by simp [reads]) (fun _ => here) on
        exact ⟨[], between, t, _, rfl, .nil t, only.live, short⟩
      | false =>
        -- Reading is off until the output has drained, so nothing can be read before.
        have whole : NoRefill echo.start ((before ++ [.dispatch p]) ++
            (between ++ .receive p chunk :: after)) := by simpa [split] using spared
        have rest := (whole.rest (run.append step.run)).beginning
        rcases off_run later (ok.step step) rest only.live on with drained | ⟨c, found, off⟩
        · exact drained
        · obtain ⟨d, found', reading, -⟩ := enabled
          cases found.symm.trans found'
          simp [off] at reading

/-- A notification about output that is gone turns reading on over thirty-nine queued bytes. -/
theorem refill_wakes_early : ¬ ∀ actions, Throttles actions := by
  -- The output drains completely right after more input has arrived.
  intro claim
  obtain ⟨s, run, passed⟩ := echo.exists_run_of_play echo.start
    [.accept (), .receive 0 [1, 2], .dispatch 0, .send 0 1, .dispatch 0,
      .receive 0 (List.replicate 39 7), .send 0 1]
    (fun s => (s.heap 0).any fun b : Bev => b.readPending && b.writePending &&
      decide (b.output.length + b.input.length = 39)) (by decide)
  simp only [Bool.and_eq_true, Option.any_eq_true, decide_eq_true_eq] at passed
  obtain ⟨b, live, ⟨reads, writes⟩, total⟩ := passed
  have wakes := (wakesWith_iff (ok_start.run run) live _).mpr ⟨writes, rfl⟩
  have short := (claim (_ ++ .dispatch 0 :: [])).wakes _ 0 [] s _ rfl run wakes
  simp [afterRead, reads, refilled, total, lowMark] at short

end LinuxPro.Echo
