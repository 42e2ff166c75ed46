import LinuxPro.Event.LoopLaws
import LinuxPro.Proxy.Pair

/-! Everything one phase of a dispatch can do to a pair, and what every phase keeps. -/

namespace LinuxPro.Proxy

variable {w v : State} {x y : Ptr} {a b : Bev}

/-- What running one deferred callback of the first side can do, seen from the whole memory. -/
inductive Phase (x y : Ptr) (w : State) : State → Prop where
  /-- No callback was due. -/
  | idle : Phase x y w w
  /-- `readcb` moves the input over. -/
  | relay {a b : Bev} (opened : Opened w x y a b) (pending : a.readPending = true) :
      Phase x y w (relayed w x y a b)
  /-- `drained_writecb` opens the other direction again. -/
  | resume {a b : Bev} (opened : Opened w x y a b) (pending : a.writePending = true)
      (waiting : a.writecb = some .drainedWritecb) : Phase x y w (resumed w x y a b)
  /-- `eventcb` has nothing to do for the reports it is given. -/
  | other {a : Bev} (live : w.heap x = some a) (quiet : a.eventPending.hangup = false) :
      Phase x y w ((w.enter (.event .eventcb x a.eventPending a.ctx)).put x
        { a with eventPending := {} })
  /-- `eventcb` releases the side and leaves the other to write what is left. -/
  | flush {a b : Bev} (opened : Opened w x y a b) (gone : a.eventPending.hangup = true)
      (left : b.output ++ a.input ≠ []) :
      Phase x y w (((flushed w x y a.eventPending a).put y (flushing x a b)).drop x)
  /-- `eventcb` releases both sides. -/
  | close {a b : Bev} (opened : Opened w x y a b) (gone : a.eventPending.hangup = true)
      (empty : b.output ++ a.input = []) :
      Phase x y w (((flushed w x y a.eventPending a).drop y).drop x)
  /-- `close_on_finished_writecb` finds output left. -/
  | linger {a : Bev} (draining : Draining w y x a) (pending : a.writePending = true)
      (left : a.output ≠ []) :
      Phase x y w ((w.enter (.data .closeOnFinishedWritecb x none a.input.length)).put x
        { a with writePending := false })
  /-- `close_on_finished_writecb` releases the side that has written everything. -/
  | finish {a : Bev} (draining : Draining w y x a) (pending : a.writePending = true)
      (done : a.output = []) :
      Phase x y w ((w.enter (.data .closeOnFinishedWritecb x none a.input.length)).drop x)
  /-- `eventcb` releases a side that was left to drain. -/
  | abandon {a : Bev} (draining : Draining w y x a) (gone : a.eventPending.hangup = true) :
      Phase x y w ((w.enter (.event .eventcb x a.eventPending none)).drop x)

/-- What is stored for one end of an open pair does not hide the other. -/
theorem Opened.far_put (apart : x ≠ y) (opened : Opened w x y a b) (c : Bev) :
    (w.put x c).heap y = some b := by
  simp [apart.symm, opened.far]

/-- A pending `readcb` of an open pair relays. -/
theorem Opened.run_relay (apart : x ≠ y) (opened : Opened w x y a b)
    (pending : a.readPending = true) :
    (program.runReadcb x).run w = .ok ((), relayed w x y a b) := by
  have near := World.put_heap_self w x { a with readPending := false }
  have far := opened.far_put apart { a with readPending := false }
  -- Clearing the mark and entering the callback leave the queues as they were.
  rw [Program.runReadcb_call opened.near pending opened.forth.reading opened.forth.partner]
  simp only [program, readcb_run near far apart, World.enter_put, World.put_put]
  rfl

/-- A pending `drained_writecb` of an open pair opens the other direction. -/
theorem Opened.run_resume (apart : x ≠ y) (opened : Opened w x y a b)
    (pending : a.writePending = true) (waiting : a.writecb = some .drainedWritecb) :
    (program.runWritecb x).run w = .ok ((), resumed w x y a b) := by
  -- As for `readcb`, only the mark of the callback is cleared before it runs.
  have near := World.put_heap_self w x { a with writePending := false }
  have far := opened.far_put apart { a with writePending := false }
  rw [Program.runWritecb_call opened.near pending waiting opened.forth.partner]
  simp only [program, drainedWritecb_run near far apart, World.enter_put, World.put_put]

/-- Reports that hang up are reports. -/
theorem hangup_pending {what : BevEvents} (gone : what.hangup = true) : what ≠ {} := by
  rintro rfl
  simp [BevEvents.hangup] at gone

/-- A hang-up of an open pair with bytes left leaves the other side to write them. -/
theorem Opened.run_flush (apart : x ≠ y) (opened : Opened w x y a b)
    (gone : a.eventPending.hangup = true) (left : b.output ++ a.input ≠ []) :
    (program.runEventcb x).run w =
      .ok ((), ((flushed w x y a.eventPending a).put y (flushing x a b)).drop x) := by
  -- The side is live when `eventcb` runs, and its partner is found through the context.
  have near := World.put_heap_self w x { a with eventPending := {} }
  have far := opened.far_put apart { a with eventPending := {} }
  rw [Program.runEventcb_call opened.near (hangup_pending gone) opened.forth.watching
    opened.forth.partner]
  simp only [program, eventcb_run_flush near far apart gone left, flushed, World.enter_put,
    World.drop_put_put _ _ _ apart]
  rfl

/-- A hang-up of an open pair with nothing left releases both sides. -/
theorem Opened.run_close (apart : x ≠ y) (opened : Opened w x y a b)
    (gone : a.eventPending.hangup = true) (empty : b.output ++ a.input = []) :
    (program.runEventcb x).run w =
      .ok ((), ((flushed w x y a.eventPending a).drop y).drop x) := by
  -- The partner goes first, so the side itself is still there to be released.
  have near := World.put_heap_self w x { a with eventPending := {} }
  have far := opened.far_put apart { a with eventPending := {} }
  rw [Program.runEventcb_call opened.near (hangup_pending gone) opened.forth.watching
    opened.forth.partner]
  simp only [program, eventcb_run_close near far apart gone empty, flushed, World.enter_put,
    World.drop_drop_put _ _ apart]

/-- Reports that are not a hang-up are handled by clearing them. -/
theorem run_other (live : w.heap x = some a) (watching : a.eventcb = some .eventcb)
    (quiet : a.eventPending.hangup = false) (pending : a.eventPending ≠ {}) :
    (program.runEventcb x).run w =
      .ok ((), (w.enter (.event .eventcb x a.eventPending a.ctx)).put x
        { a with eventPending := {} }) := by
  -- Whoever the context names, `eventcb` returns before it looks.
  have near := World.put_heap_self w x { a with eventPending := {} }
  rw [Program.runEventcb_call live pending watching rfl]
  simp only [program, eventcb_run_other near quiet, World.enter_put]

/-- A hang-up of a side left to drain releases it at once. -/
theorem Draining.run_abandon (draining : Draining w y x a)
    (gone : a.eventPending.hangup = true) :
    (program.runEventcb x).run w =
      .ok ((), (w.enter (.event .eventcb x a.eventPending none)).drop x) := by
  -- Without a partner there is nothing to flush, so only the side itself is released.
  have live := World.put_heap_self w x { a with eventPending := {} }
  rw [Program.runEventcb_call draining.live (hangup_pending gone) draining.watching
    draining.alone]
  simp only [program, eventcb_run_alone live gone, World.enter_put, World.drop_put]

/-- The pending closing callback of a side with output left has no effect. -/
theorem Draining.run_linger (draining : Draining w y x a) (pending : a.writePending = true)
    (left : a.output ≠ []) :
    (program.runWritecb x).run w =
      .ok ((), (w.enter (.data .closeOnFinishedWritecb x none a.input.length)).put x
        { a with writePending := false }) := by
  -- The context is gone, but the closing callback asks for its own output only.
  have live := World.put_heap_self w x { a with writePending := false }
  rw [Program.runWritecb_call draining.live pending draining.closing draining.alone]
  simp only [program, closeOnFinishedWritecb_run_busy live left, World.enter_put]

/-- The pending closing callback of a side with nothing left releases it. -/
theorem Draining.run_finish (draining : Draining w y x a) (pending : a.writePending = true)
    (done : a.output = []) :
    (program.runWritecb x).run w =
      .ok ((), (w.enter (.data .closeOnFinishedWritecb x none a.input.length)).drop x) := by
  have live := World.put_heap_self w x { a with writePending := false }
  rw [Program.runWritecb_call draining.live pending draining.closing draining.alone]
  simp only [program, closeOnFinishedWritecb_run_done live done, World.enter_put, World.drop_put]

/-- The read phase of a dispatch never faults, and does one of the things listed. -/
theorem runReadcb_phase (apart : x ≠ y) (ok : PairOk w x y) :
    ∃ v, (program.runReadcb x).run w = .ok ((), v) ∧ Phase x y w v := by
  -- Only an open pair has a read callback, which runs when it is pending.
  rcases ok with ⟨a, b, opened⟩ | ⟨b, draining⟩ | ⟨a, draining⟩ | finished
  · cases pending : a.readPending with
    | false => exact ⟨w, Program.runReadcb_idle opened.near (.inl pending), .idle⟩
    | true => exact ⟨_, opened.run_relay apart pending, .relay opened pending⟩
  · exact ⟨w, Program.runReadcb_gone draining.gone, .idle⟩
  · exact ⟨w, Program.runReadcb_idle draining.live (.inr draining.deaf), .idle⟩
  · exact ⟨w, Program.runReadcb_gone finished.near, .idle⟩

/-- The write phase of a dispatch never faults, and does one of the things listed. -/
theorem runWritecb_phase (apart : x ≠ y) (ok : PairOk w x y) :
    ∃ v, (program.runWritecb x).run w = .ok ((), v) ∧ Phase x y w v := by
  -- A choked side waits for `drained_writecb`, a side left to drain for the closing callback.
  rcases ok with ⟨a, b, opened⟩ | ⟨b, draining⟩ | ⟨a, draining⟩ | finished
  · by_cases waiting : a.writecb = some .drainedWritecb
    · cases pending : a.writePending with
      | false => exact ⟨w, Program.runWritecb_idle opened.near (.inl pending), .idle⟩
      | true =>
        exact ⟨_, opened.run_resume apart pending waiting, .resume opened pending waiting⟩
    · exact ⟨w, Program.runWritecb_idle opened.near (.inr (opened.back.unchoked waiting).1), .idle⟩
  · exact ⟨w, Program.runWritecb_gone draining.gone, .idle⟩
  · cases pending : a.writePending with
    | false => exact ⟨w, Program.runWritecb_idle draining.live (.inl pending), .idle⟩
    | true =>
      by_cases done : a.output = []
      · exact ⟨_, draining.run_finish pending done, .finish draining pending done⟩
      · exact ⟨_, draining.run_linger pending done, .linger draining pending done⟩
  · exact ⟨w, Program.runWritecb_gone finished.near, .idle⟩

/-- The event phase of a dispatch never faults, and does one of the things listed. -/
theorem runEventcb_phase (apart : x ≠ y) (ok : PairOk w x y) :
    ∃ v, (program.runEventcb x).run w = .ok ((), v) ∧ Phase x y w v := by
  -- A live side has `eventcb` installed whether or not its partner is still there.
  have quiet : ∀ {a : Bev}, w.heap x = some a → a.eventcb = some .eventcb →
      a.eventPending.hangup = false →
      ∃ v, (program.runEventcb x).run w = .ok ((), v) ∧ Phase x y w v := by
    intro a live watching quiet
    by_cases pending : a.eventPending = {}
    · exact ⟨w, Program.runEventcb_idle live (.inl pending), .idle⟩
    · exact ⟨_, run_other live watching quiet pending, .other live quiet⟩
  rcases ok with ⟨a, b, opened⟩ | ⟨b, draining⟩ | ⟨a, draining⟩ | finished
  · cases gone : a.eventPending.hangup with
    | false => exact quiet opened.near opened.forth.watching gone
    | true =>
      by_cases empty : b.output ++ a.input = []
      · exact ⟨_, opened.run_close apart gone empty, .close opened gone empty⟩
      · exact ⟨_, opened.run_flush apart gone empty, .flush opened gone empty⟩
  · exact ⟨w, Program.runEventcb_gone draining.gone, .idle⟩
  · cases gone : a.eventPending.hangup with
    | false => exact quiet draining.live draining.watching gone
    | true => exact ⟨_, draining.run_abandon gone, .abandon draining gone⟩
  · exact ⟨w, Program.runEventcb_gone finished.near, .idle⟩

end LinuxPro.Proxy
