import LinuxPro.Proxy.Phase

/-! Every phase of a dispatch takes a pair from one of its states to another. -/

namespace LinuxPro.Proxy

variable {w v : State} {x y : Ptr} {a b : Bev}

/-- After `readcb` the bytes of the direction it serves have been moved on. -/
theorem flow_relay (received : v.received x = w.received x) (sent : v.sent y = w.sent y) :
    flow v x y (handedOver a b) (takenOver x a b) = (flow w x y a b).relay maxOutput := by
  -- The limit is reached in the model of the direction exactly when `readcb` finds it reached.
  by_cases full : Full a b
  · simp [flow, Flow.relay, received, sent, full]
    exact .inr full
  · have below : ¬ maxOutput ≤ b.output.length + a.input.length := full
    simp [flow, Flow.relay, received, sent, full, below]

/-- After `readcb` the bytes of the opposite direction are where they were. -/
theorem flow_relay_back (received : v.received y = w.received y) (sent : v.sent x = w.sent x) :
    flow v y x (takenOver x a b) (handedOver a b) = flow w y x b a := by
  simp [flow, received, sent]

/-- After `readcb` the direction it serves is still wired. -/
theorem Wired.relay (forth : Wired w x y a b) (received : v.received x = w.received x)
    (sent : v.sent y = w.sent y) : Wired v x y (handedOver a b) (takenOver x a b) where
  partner := by simp [forth.partner]
  reading := by simp [forth.reading]
  watching := by simp [forth.watching]
  writable := by simpa using forth.writable
  choked := by
    -- Reaching the limit chokes the direction, and a direction choked before stays so.
    by_cases full : Full a b
    · simp [full]
    · simpa [full] using forth.choked
  unchoked := by
    by_cases full : Full a b
    · simp [full]
    · simpa [full] using forth.unchoked
  sound := flow_relay received sent ▸ forth.sound.relay half_lt_maxOutput

/-- After `readcb` the opposite direction is still wired. -/
theorem Wired.relay_back (back : Wired w y x b a) (received : v.received y = w.received y)
    (sent : v.sent x = w.sent x) : Wired v y x (takenOver x a b) (handedOver a b) where
  partner := by simp [back.partner]
  reading := by simp [back.reading]
  watching := by simp [back.watching]
  writable := by simpa using back.writable
  choked := by simpa using back.choked
  unchoked := by simpa using back.unchoked
  sound := flow_relay_back received sent ▸ back.sound

/-- The mark of a pending read callback plays no part in how an end is wired. -/
theorem Wired.clearRead (forth : Wired w x y a b) (pending : Bool) :
    Wired w x y { a with readPending := pending } b :=
  ⟨forth.partner, forth.reading, forth.watching, forth.writable, forth.choked, forth.unchoked,
    forth.sound⟩

/-- Nor does it as seen from the other end. -/
theorem Wired.clearRead_back (back : Wired w y x b a) (pending : Bool) :
    Wired w y x b { a with readPending := pending } :=
  ⟨back.partner, back.reading, back.watching, back.writable, back.choked, back.unchoked,
    back.sound⟩

/-- `drained_writecb` keeps the direction whose bytes it does not wait for. -/
theorem Wired.resume (forth : Wired w x y a b) (received : v.received x = w.received x)
    (sent : v.sent y = w.sent y) :
    Wired v x y (awake y { a with writePending := false }) (unblocked b) where
  partner := rfl
  reading := rfl
  watching := rfl
  writable := forth.writable
  choked := forth.choked
  unchoked := forth.unchoked
  sound := forth.sound_frame received sent

/-- `drained_writecb` opens the direction whose output has drained. -/
theorem Wired.resume_back (back : Wired w y x b a) (pending : a.writePending = true)
    (received : v.received y = w.received y) (sent : v.sent x = w.sent x) :
    Wired v y x (unblocked b) (awake y { a with writePending := false }) where
  partner := back.partner
  reading := back.reading
  watching := back.watching
  writable := by
    intro quiet
    simp [back.writable quiet]
  choked := by simp
  unchoked := by simp [evRead]
  sound := by
    -- The notification is delivered, which is the resumption of the direction.
    have resumed := back.sound.resume half_lt_maxOutput pending
    have same : flow v y x b { a with writecb := none, writePending := false } =
        (flow w y x b a).resume := by
      simp [flow, Flow.resume, received, sent]
    exact same ▸ resumed

/-- Clearing reports that are not a hang-up leaves an end wired. -/
theorem Wired.calm (forth : Wired w x y a b) (quiet : a.eventPending.hangup = false)
    (received : v.received x = w.received x) (sent : v.sent y = w.sent y) :
    Wired v x y { a with eventPending := {} } b where
  partner := forth.partner
  reading := forth.reading
  watching := forth.watching
  writable := fun _ => forth.writable quiet
  choked := forth.choked
  unchoked := by
    intro free
    obtain ⟨none, low, off, on⟩ := forth.unchoked free
    exact ⟨none, low, off, fun _ => on quiet⟩
  sound := forth.sound_frame received sent

/-- What is pending on one end does not matter to the bytes that come from the other. -/
theorem Wired.calm_back (back : Wired w y x b a) (received : v.received y = w.received y)
    (sent : v.sent x = w.sent x) : Wired v y x b { a with eventPending := {} } where
  partner := back.partner
  reading := back.reading
  watching := back.watching
  writable := back.writable
  choked := back.choked
  unchoked := back.unchoked
  sound := back.sound_frame received sent

/-- A hang-up the event callback was entered with is on record. -/
theorem HungUp.entered {what : BevEvents} (gone : what.hangup = true) {ctx : Option Ptr}
    (member : Call.event .eventcb x what ctx ∈ v.calls) : HungUp v x :=
  ⟨what, ctx, member, gone⟩

/-- When one side hangs up with bytes left for the other, the other is left to drain. -/
theorem Opened.flush (apart : x ≠ y) (opened : Opened w x y a b)
    (gone : a.eventPending.hangup = true) (left : b.output ++ a.input ≠ []) :
    Draining (((flushed w x y a.eventPending a).put y (flushing x a b)).drop x) x y
      (flushing x a b) where
  gone := by simp
  live := by simp [apart.symm]
  hung := .entered gone (List.mem_cons_of_mem _ List.mem_cons_self)
  alone := rfl
  deaf := rfl
  closing := rfl
  watching := rfl
  stopped := by simp [flushing, EvMask.without, evRead]
  writable := by
    intro quiet
    simp only [flushing, takenOver_eventPending] at quiet
    simp [flushing, EvMask.without, evRead, opened.back.writable quiet]
  busy := .inl (by simpa [flushing] using left)
  whole := by
    have whole := opened.forth.sound.whole
    simp only [flow] at whole
    simp [flushing, whole]
  back := opened.back.sound.sent_leads

/-- When one side hangs up with nothing left for the other, both are over. -/
theorem Opened.close (opened : Opened w x y a b)
    (gone : a.eventPending.hangup = true) (empty : b.output ++ a.input = []) :
    Over (((flushed w x y a.eventPending a).drop y).drop x) x y where
  near := by simp
  far := by simp
  forth := by
    -- Everything that was read has been written, since no queue holds anything.
    have whole := opened.forth.sound.whole
    simp only [flow, List.append_assoc, empty, List.append_nil] at whole
    exact ⟨opened.forth.sound.sent_leads, .inr whole⟩
  back := ⟨opened.back.sound.sent_leads,
    .inl (.entered gone (List.mem_cons_of_mem _ List.mem_cons_self))⟩

/-- A record only grows when a callback is entered. -/
theorem HungUp.enter (hung : HungUp w x) (call : Call Ptr DataCb EventCb) :
    HungUp (w.enter call) x :=
  hung.mono fun _ member => List.mem_cons_of_mem call member

/-- A side left to drain keeps draining while it has output. -/
theorem Draining.linger (apart : x ≠ y) (draining : Draining w y x a) (left : a.output ≠ [])
    (call : Call Ptr DataCb EventCb) :
    Draining ((w.enter call).put x { a with writePending := false }) y x
      { a with writePending := false } where
  gone := by simp [apart.symm, draining.gone]
  live := by simp
  hung := draining.hung.enter call
  alone := draining.alone
  deaf := draining.deaf
  closing := draining.closing
  watching := draining.watching
  stopped := draining.stopped
  writable := draining.writable
  busy := .inl left
  whole := draining.whole
  back := draining.back

/-- A side left to drain is not disturbed by reports that are not a hang-up. -/
theorem Draining.calm (apart : x ≠ y) (draining : Draining w y x a)
    (quiet : a.eventPending.hangup = false) (call : Call Ptr DataCb EventCb) :
    Draining ((w.enter call).put x { a with eventPending := {} }) y x
      { a with eventPending := {} } where
  gone := by simp [apart.symm, draining.gone]
  live := by simp
  hung := draining.hung.enter call
  alone := draining.alone
  deaf := draining.deaf
  closing := draining.closing
  watching := draining.watching
  stopped := draining.stopped
  writable := fun _ => draining.writable quiet
  busy := draining.busy
  whole := draining.whole
  back := draining.back

/-- A side released with an empty output has written everything it was given. -/
theorem Draining.finish (apart : x ≠ y) (draining : Draining w y x a) (done : a.output = [])
    (call : Call Ptr DataCb EventCb) : Over ((w.enter call).drop x) x y where
  near := by simp
  far := by simp [apart.symm, draining.gone]
  forth := ⟨draining.back, .inl (draining.hung.enter call)⟩
  back := by
    have whole := draining.whole
    simp only [done, List.append_nil] at whole
    exact ⟨by simp [whole], .inr whole⟩

/-- A side that hangs up while it drains is released at once. -/
theorem Draining.abandon (apart : x ≠ y) (draining : Draining w y x a)
    (gone : a.eventPending.hangup = true) :
    Over ((w.enter (.event .eventcb x a.eventPending none)).drop x) x y where
  near := by simp
  far := by simp [apart.symm, draining.gone]
  forth := ⟨draining.back, .inl (draining.hung.enter _)⟩
  back := ⟨by simp [draining.whole], .inl (.entered gone List.mem_cons_self)⟩

/-- Handing over the input keeps an open pair open. -/
theorem Opened.relay (apart : x ≠ y) (opened : Opened w x y a b) :
    Opened (relayed w x y a b) x y (handedOver { a with readPending := false } b)
      (takenOver x a b) where
  near := by simp [apart]
  far := by simp
  forth := (opened.forth.clearRead false).relay rfl rfl
  back := (opened.back.clearRead_back false).relay_back rfl rfl

/-- Delivering the notification that output has drained keeps an open pair open. -/
theorem Opened.resume (apart : x ≠ y) (opened : Opened w x y a b)
    (pending : a.writePending = true) :
    Opened (resumed w x y a b) x y (awake y { a with writePending := false })
      (unblocked b) where
  near := by simp [apart]
  far := by simp
  forth := opened.forth.resume rfl rfl
  back := opened.back.resume_back pending rfl rfl

/-- Reports that are not a hang-up keep an open pair open. -/
theorem Opened.calm (apart : x ≠ y) (opened : Opened w x y a b)
    (quiet : a.eventPending.hangup = false) (call : Call Ptr DataCb EventCb) :
    Opened ((w.enter call).put x { a with eventPending := {} }) x y
      { a with eventPending := {} } b where
  near := by simp
  far := by simp [apart.symm, opened.far]
  forth := opened.forth.calm quiet rfl rfl
  back := opened.back.calm_back rfl rfl

/-- Whatever a phase of a dispatch does, the pair ends in one of its states. -/
theorem Phase.pairOk (apart : x ≠ y) (ok : PairOk w x y) (phase : Phase x y w v) :
    PairOk v x y := by
  cases phase with
  | idle => exact ok
  | relay opened _ => exact .inl ⟨_, _, opened.relay apart⟩
  | resume opened pending _ => exact .inl ⟨_, _, opened.resume apart pending⟩
  | other live quiet =>
    -- The side is live, so the pair is open or it is the side left to drain.
    rcases ok with ⟨a, b, opened⟩ | ⟨b, draining⟩ | ⟨a, draining⟩ | finished
    · cases live.symm.trans opened.near
      exact .inl ⟨_, _, opened.calm apart quiet _⟩
    · cases live.symm.trans draining.gone
    · cases live.symm.trans draining.live
      exact .inr (.inr (.inl ⟨_, draining.calm apart quiet _⟩))
    · cases live.symm.trans finished.near
  | flush opened gone left => exact .inr (.inl ⟨_, opened.flush apart gone left⟩)
  | close opened gone empty => exact .inr (.inr (.inr (opened.close gone empty)))
  | linger draining _ left => exact .inr (.inr (.inl ⟨_, draining.linger apart left _⟩))
  | finish draining _ done => exact .inr (.inr (.inr (draining.finish apart done _)))
  | abandon draining gone => exact .inr (.inr (.inr (draining.abandon apart gone)))

/-- A phase touches no bufferevent of another pair. -/
theorem Phase.sameAt (phase : Phase x y w v) {z : Ptr} (near : z ≠ x) (far : z ≠ y) :
    SameAt w v z := by
  cases phase <;> constructor <;> simp [near, far]

/--
What is left of a bufferevent that outlives a phase.

It was live before, its reports are still pending or cleared, and only `readcb` appends to its output.
-/
theorem Phase.survivor (phase : Phase x y w v) {z : Ptr} {c : Bev} (live : v.heap z = some c) :
    ∃ b, w.heap z = some b ∧ (c.eventPending = b.eventPending ∨ c.eventPending = {}) ∧
      (c.output = b.output ∨
        ∃ a, Opened w x y a b ∧ readCall x y a ∈ v.calls ∧ c.output = b.output ++ a.input) := by
  -- What a phase has stored last is looked at first, down to what was live before it.
  cases phase with
  | idle => exact ⟨c, live, .inl rfl, .inl rfl⟩
  | @relay a b opened _ =>
    rcases World.live_of_put live with ⟨rfl, rfl⟩ | live
    · -- The far end has taken the input over.
      exact ⟨b, opened.far, .inl (by simp), .inr ⟨a, opened, List.mem_cons_self, by simp⟩⟩
    rcases World.live_of_put live with ⟨rfl, rfl⟩ | live
    · exact ⟨a, opened.near, .inl (by simp), .inl (by simp)⟩
    · exact ⟨c, live, .inl rfl, .inl rfl⟩
  | @resume a b opened _ _ =>
    rcases World.live_of_put live with ⟨rfl, rfl⟩ | live
    · exact ⟨b, opened.far, .inl (by simp), .inl (by simp)⟩
    rcases World.live_of_put live with ⟨rfl, rfl⟩ | live
    · exact ⟨a, opened.near, .inl (by simp), .inl (by simp)⟩
    · exact ⟨c, live, .inl rfl, .inl rfl⟩
  | @other a present _ =>
    rcases World.live_of_put live with ⟨rfl, rfl⟩ | live
    · -- Its reports were handled.
      exact ⟨a, present, .inr rfl, .inl rfl⟩
    · exact ⟨c, live, .inl rfl, .inl rfl⟩
  | @flush a b opened _ _ =>
    obtain ⟨-, live⟩ := World.live_of_drop live
    rcases World.live_of_put live with ⟨rfl, rfl⟩ | live
    · -- The far end has taken over what was left of the input.
      exact ⟨b, opened.far, .inl (by simp [flushing]),
        .inr ⟨a, opened, List.mem_cons_self, by simp [flushing]⟩⟩
    · exact ⟨c, live, .inl rfl, .inl rfl⟩
  | close opened _ _ =>
    exact ⟨c, (World.live_of_drop (World.live_of_drop live).2).2, .inl rfl, .inl rfl⟩
  | @linger a draining _ _ =>
    rcases World.live_of_put live with ⟨rfl, rfl⟩ | live
    · exact ⟨a, draining.live, .inl rfl, .inl rfl⟩
    · exact ⟨c, live, .inl rfl, .inl rfl⟩
  | finish draining _ _ =>
    exact ⟨c, (World.live_of_drop live).2, .inl rfl, .inl rfl⟩
  | abandon draining _ =>
    exact ⟨c, (World.live_of_drop live).2, .inl rfl, .inl rfl⟩

/-- A bufferevent that is gone stays gone through a phase. -/
theorem Phase.gone (phase : Phase x y w v) {z : Ptr} (gone : w.heap z = none) :
    v.heap z = none := by
  -- Whatever is live after a phase was live before it.
  cases after : v.heap z with
  | none => rfl
  | some c =>
    obtain ⟨b, live, -⟩ := phase.survivor after
    cases live.symm.trans gone

/-- A phase reads nothing from any socket. -/
theorem Phase.received (phase : Phase x y w v) : v.received = w.received := by
  cases phase <;> rfl

/-- A phase writes nothing to any socket. -/
theorem Phase.sent (phase : Phase x y w v) : v.sent = w.sent := by
  cases phase <;> rfl

/-- A phase accepts no connection. -/
theorem Phase.accepted (phase : Phase x y w v) : v.accepted = w.accepted := by
  cases phase <;> rfl

/-- A phase only adds to the record of callbacks. -/
theorem Phase.grown (phase : Phase x y w v) : ∀ call ∈ w.calls, call ∈ v.calls := by
  intro call member
  cases phase <;> simp [flushed, member]

end LinuxPro.Proxy
