import LinuxPro.Proxy.Preserve

/-! Every reachable state of the proxy is made of pairs that are in one of their states. -/

namespace LinuxPro.Proxy

variable {w v : State} {x y : Ptr} {a b : Bev}

/-- What holds of the whole memory between any two steps. -/
structure Ok (w : State) : Prop where
  /-- Every pair is in one of its states. -/
  pairs : ∀ x, PairOk w x x.peer
  /-- Connections that were not accepted yet have left no trace. -/
  fresh : ∀ x, w.accepted ≤ x.conn →
    w.heap x = none ∧ w.received x = [] ∧ w.sent x = [] ∧ x ∉ w.freed
  /-- Released bufferevents stay released. -/
  lives : w.Lifetimes

/-- A change confined to one pair keeps every pair in one of its states. -/
theorem pairs_of_local (pairs : ∀ z, PairOk w z z.peer) (here : PairOk v x x.peer)
    (elsewhere : ∀ z, z ≠ x → z ≠ x.peer → SameAt w v z)
    (grown : ∀ call ∈ w.calls, call ∈ v.calls) : ∀ z, PairOk v z z.peer := by
  intro z
  by_cases same : z.conn = x.conn
  · -- The two ends of the changed pair see the same state.
    rcases Ptr.eq_or_eq_peer same with rfl | rfl
    · exact here
    · simpa using here.symm
  · -- Both ends of any other pair are untouched.
    have near : SameAt w v z := elsewhere z
      (by rintro rfl; simp at same)
      (by rintro rfl; simp at same)
    have far : SameAt w v z.peer := elsewhere z.peer
      (by intro hit; exact same (by rw [← hit]; simp))
      (by intro hit; exact same (by rw [← Ptr.peer_conn z, hit]; simp))
    exact (pairs z).frame near far grown

/-- Bytes that arrive keep the direction they belong to wired. -/
theorem Wired.receive (forth : Wired w x y a b) (on : a.enabled.read = true) (chunk : Bytes)
    (received : v.received x = w.received x ++ chunk) (sent : v.sent y = w.sent y) :
    Wired v x y { a with input := a.input ++ chunk, readPending := true } b := by
  -- Only an open direction is read from.
  have free : b.writecb ≠ some .drainedWritecb := by
    intro waiting
    simp [(forth.choked waiting).1] at on
  have grown : flow v x y { a with input := a.input ++ chunk, readPending := true } b =
      (flow w x y a b).receive chunk := by
    simp [flow, Flow.receive, received, sent]
  have sound := forth.sound.receive (by simp [flow, free]) chunk
  exact ⟨forth.partner, forth.reading, forth.watching, forth.writable, forth.choked,
    forth.unchoked, grown ▸ sound⟩

/-- Bytes that arrive do not matter to the opposite direction. -/
theorem Wired.receive_back (back : Wired w y x b a) (chunk : Bytes)
    (received : v.received y = w.received y) (sent : v.sent x = w.sent x) :
    Wired v y x b { a with input := a.input ++ chunk, readPending := true } :=
  ⟨back.partner, back.reading, back.watching, back.writable, back.choked, back.unchoked,
    back.sound_frame received sent⟩

/-- Bytes that leave keep the direction they belong to wired. -/
theorem Wired.send (back : Wired w y x b a) (count : Nat) (received : v.received y = w.received y)
    (sent : v.sent x = w.sent x ++ a.output.take count) :
    Wired v y x b (Program.drained a count) := by
  -- The watermark is the low mark exactly while the direction is choked.
  have gone : flow v y x b (Program.drained a count) =
      (flow w y x b a).send (maxOutput / 2) count := by
    by_cases waiting : a.writecb = some .drainedWritecb
    · simp [flow, Flow.send, Program.drained, received, sent, waiting, (back.choked waiting).2.2]
    · simp [flow, Flow.send, Program.drained, received, sent, (back.unchoked waiting).1]
  exact ⟨back.partner, back.reading, back.watching, back.writable, back.choked, back.unchoked,
    gone ▸ back.sound.send count⟩

/-- Bytes that leave do not matter to the opposite direction. -/
theorem Wired.send_back (forth : Wired w x y a b) (count : Nat)
    (received : v.received x = w.received x) (sent : v.sent y = w.sent y) :
    Wired v x y (Program.drained a count) b :=
  ⟨forth.partner, forth.reading, forth.watching, forth.writable, forth.choked,
    forth.unchoked, forth.sound_frame received sent⟩

/-- A report keeps an end wired, and can excuse it from reading and writing. -/
theorem Wired.report (forth : Wired w x y a b) {what : BevEvents} {stopped : EvMask}
    (excused : what.hangup = false → stopped = {}) (received : v.received x = w.received x)
    (sent : v.sent y = w.sent y) : Wired v x y (Program.reported a what stopped) b where
  partner := forth.partner
  reading := forth.reading
  watching := forth.watching
  writable := by
    simp only [Program.reported, BevEvents.or_hangup, Bool.or_eq_false_iff]
    rintro ⟨before, now⟩
    simp [excused now, EvMask.without, forth.writable before]
  choked := by
    intro waiting
    obtain ⟨off, blamed, low⟩ := forth.choked waiting
    exact ⟨by simp [Program.reported, EvMask.without, off], blamed, low⟩
  unchoked := by
    intro free
    obtain ⟨none, low, off, on⟩ := forth.unchoked free
    refine ⟨none, low, off, ?_⟩
    simp only [Program.reported, BevEvents.or_hangup, Bool.or_eq_false_iff]
    rintro ⟨before, now⟩
    simp [excused now, EvMask.without, on before]
  sound := forth.sound_frame received sent

/-- A report on one end does not matter to the bytes that come from the other. -/
theorem Wired.report_back (back : Wired w y x b a) (what : BevEvents) (stopped : EvMask)
    (received : v.received y = w.received y) (sent : v.sent x = w.sent x) :
    Wired v y x b (Program.reported a what stopped) :=
  ⟨back.partner, back.reading, back.watching, back.writable, back.choked, back.unchoked,
    back.sound_frame received sent⟩

/-- Bytes that arrive keep an open pair open. -/
theorem Opened.receive (apart : x ≠ y) (opened : Opened w x y a b) (on : a.enabled.read = true)
    (chunk : Bytes) :
    Opened (Program.received w x a chunk) x y
      { a with input := a.input ++ chunk, readPending := true } b where
  near := by simp [Program.received]
  far := by simp [Program.received, apart.symm, opened.far]
  forth := opened.forth.receive on chunk (by simp [Program.received]) rfl
  back := opened.back.receive_back chunk (by simp [Program.received, apart.symm]) rfl

/-- Bytes that leave keep an open pair open. -/
theorem Opened.send (apart : x ≠ y) (opened : Opened w x y a b) (count : Nat) :
    Opened (Program.written w x a count) x y (Program.drained a count) b where
  near := by simp [Program.written]
  far := by simp [Program.written, apart.symm, opened.far]
  forth := opened.forth.send_back count rfl (by simp [Program.written, apart.symm])
  back := opened.back.send count rfl (by simp [Program.written])

/-- Reports keep an open pair open until the event callback runs. -/
theorem Opened.report (apart : x ≠ y) (opened : Opened w x y a b) {what : BevEvents}
    {stopped : EvMask} (excused : what.hangup = false → stopped = {}) :
    Opened (w.put x (Program.reported a what stopped)) x y (Program.reported a what stopped)
      b where
  near := by simp
  far := by simp [apart.symm, opened.far]
  forth := opened.forth.report excused rfl rfl
  back := opened.back.report_back what stopped rfl rfl

/-- Bytes that leave keep a side draining, and the last of them calls for its release. -/
theorem Draining.send (apart : x ≠ y) (draining : Draining w y x a) (count : Nat) :
    Draining (Program.written w x a count) y x (Program.drained a count) where
  gone := by simp [Program.written, apart.symm, draining.gone]
  live := by simp [Program.written]
  hung := draining.hung
  alone := draining.alone
  deaf := draining.deaf
  closing := draining.closing
  watching := draining.watching
  stopped := draining.stopped
  writable := draining.writable
  busy := by
    -- An empty queue is at or below every watermark, whichever was left installed.
    by_cases empty : a.output.drop count = []
    · simp [Program.drained, empty, draining.closing]
    · exact .inl empty
  whole := by simp [Program.written, Program.drained, draining.whole]
  back := by simpa [Program.written, apart.symm] using draining.back

/-- Reports keep a side draining until the event callback runs. -/
theorem Draining.report (apart : x ≠ y) (draining : Draining w y x a) {what : BevEvents}
    {stopped : EvMask} (excused : what.hangup = false → stopped = {}) :
    Draining (w.put x (Program.reported a what stopped)) y x
      (Program.reported a what stopped) where
  gone := by simp [apart.symm, draining.gone]
  live := by simp
  hung := draining.hung
  alone := draining.alone
  deaf := draining.deaf
  closing := draining.closing
  watching := draining.watching
  stopped := by simp [Program.reported, EvMask.without, draining.stopped]
  writable := by
    simp only [Program.reported, BevEvents.or_hangup, Bool.or_eq_false_iff]
    rintro ⟨before, now⟩
    simp [excused now, EvMask.without, draining.writable before]
  busy := draining.busy
  whole := draining.whole
  back := draining.back

/-- A live side either relays to its partner or is the one left to drain. -/
theorem PairOk.of_live (ok : PairOk w x y) (live : w.heap x = some a) :
    (∃ b, Opened w x y a b) ∨ Draining w y x a := by
  -- In the other two states the side is gone.
  rcases ok with ⟨a', b, opened⟩ | ⟨b, draining⟩ | ⟨a', draining⟩ | finished
  · cases live.symm.trans opened.near
    exact .inl ⟨b, opened⟩
  · cases live.symm.trans draining.gone
  · cases live.symm.trans draining.live
    exact .inr draining
  · cases live.symm.trans finished.near

/-- A dispatch runs through its three phases without a fault. -/
theorem dispatch_run (ok : PairOk w x x.peer) :
    ∃ first second v, (program.dispatch x).run w = .ok ((), v) ∧
      ((program.runReadcb x).run w = .ok ((), first) ∧ Phase x x.peer w first) ∧
      ((program.runWritecb x).run first = .ok ((), second) ∧ Phase x x.peer first second) ∧
      ((program.runEventcb x).run second = .ok ((), v) ∧ Phase x x.peer second v) := by
  -- Each phase leaves the pair in a state the next one can start from.
  have apart := (Ptr.peer_ne x).symm
  obtain ⟨first, ranFirst, readPhase⟩ := runReadcb_phase apart ok
  have okFirst := readPhase.pairOk apart ok
  obtain ⟨second, ranSecond, writePhase⟩ := runWritecb_phase apart okFirst
  have okSecond := writePhase.pairOk apart okFirst
  obtain ⟨v, ranThird, eventPhase⟩ := runEventcb_phase apart okSecond
  refine ⟨first, second, v, ?_, ⟨ranFirst, readPhase⟩, ⟨ranSecond, writePhase⟩,
    ⟨ranThird, eventPhase⟩⟩
  simp [Program.dispatch, ranFirst, ranSecond, ranThird]

/-- What a dispatch does is what its three phases do. -/
theorem step_dispatch (ok : PairOk w x x.peer) (step : proxy.Step w (.dispatch x) v) :
    ∃ first second,
      ((program.runReadcb x).run w = .ok ((), first) ∧ Phase x x.peer w first) ∧
      ((program.runWritecb x).run first = .ok ((), second) ∧ Phase x x.peer first second) ∧
      ((program.runEventcb x).run second = .ok ((), v) ∧ Phase x x.peer second v) := by
  -- Code is deterministic, so the run that exists is the run that was made.
  obtain ⟨first, second, v', ran, phases⟩ := dispatch_run ok
  have same : v' = v := by
    simpa [proxy, Program.machine, Program.perform, ran, Except.map] using step.2
  exact ⟨first, second, same ▸ phases⟩

/-- What each phase keeps, a dispatch keeps. -/
theorem dispatch_preserves (property : State → Prop) (ok : PairOk w x x.peer)
    (step : proxy.Step w (.dispatch x) v)
    (keeps : ∀ {s t : State}, Phase x x.peer s t → property s → property t)
    (before : property w) : property v := by
  obtain ⟨first, second, ⟨-, read⟩, ⟨-, write⟩, ⟨-, event⟩⟩ := step_dispatch ok step
  exact keeps event (keeps write (keeps read before))

/-- A phase that does anything runs a callback of a live side. -/
theorem Phase.idle_or_live (phase : Phase x y w v) : v = w ∨ ∃ a, w.heap x = some a := by
  -- Every state of a pair in which a phase acts says that the side is live.
  cases phase with
  | idle => exact .inl rfl
  | relay opened _ => exact .inr ⟨_, opened.near⟩
  | resume opened _ _ => exact .inr ⟨_, opened.near⟩
  | other live _ => exact .inr ⟨_, live⟩
  | flush opened _ _ => exact .inr ⟨_, opened.near⟩
  | close opened _ _ => exact .inr ⟨_, opened.near⟩
  | linger draining _ _ => exact .inr ⟨_, draining.live⟩
  | finish draining _ _ => exact .inr ⟨_, draining.live⟩
  | abandon draining _ => exact .inr ⟨_, draining.live⟩

/-- What a phase adds to the record of callbacks. -/
theorem Phase.entered (phase : Phase x y w v) {call : Call Ptr DataCb EventCb}
    (member : call ∈ v.calls) :
    call ∈ w.calls ∨ ∃ a, w.heap x = some a ∧
      (call = readCall x y a ∨ call = .data .drainedWritecb x (some y) a.input.length ∨
        call = .data .closeOnFinishedWritecb x none a.input.length ∨
        ∃ ctx, call = .event .eventcb x a.eventPending ctx) := by
  -- Each kind of phase enters the callbacks that are written into its final memory.
  cases phase with
  | idle => exact .inl member
  | relay opened _ =>
    rcases List.mem_cons.mp member with rfl | member
    · exact .inr ⟨_, opened.near, .inl rfl⟩
    · exact .inl member
  | resume opened _ _ =>
    rcases List.mem_cons.mp member with rfl | member
    · exact .inr ⟨_, opened.near, .inr (.inl rfl)⟩
    · exact .inl member
  | other live _ =>
    rcases List.mem_cons.mp member with rfl | member
    · exact .inr ⟨_, live, .inr (.inr (.inr ⟨_, rfl⟩))⟩
    · exact .inl member
  -- A hang-up enters `eventcb`, which enters `readcb` in turn.
  | flush opened _ _ =>
    rcases List.mem_cons.mp member with rfl | member
    · exact .inr ⟨_, opened.near, .inl rfl⟩
    · rcases List.mem_cons.mp member with rfl | member
      · exact .inr ⟨_, opened.near, .inr (.inr (.inr ⟨_, rfl⟩))⟩
      · exact .inl member
  | close opened _ _ =>
    rcases List.mem_cons.mp member with rfl | member
    · exact .inr ⟨_, opened.near, .inl rfl⟩
    · rcases List.mem_cons.mp member with rfl | member
      · exact .inr ⟨_, opened.near, .inr (.inr (.inr ⟨_, rfl⟩))⟩
      · exact .inl member
  | linger draining _ _ =>
    rcases List.mem_cons.mp member with rfl | member
    · exact .inr ⟨_, draining.live, .inr (.inr (.inl rfl))⟩
    · exact .inl member
  | finish draining _ _ =>
    rcases List.mem_cons.mp member with rfl | member
    · exact .inr ⟨_, draining.live, .inr (.inr (.inl rfl))⟩
    · exact .inl member
  | abandon draining _ =>
    rcases List.mem_cons.mp member with rfl | member
    · exact .inr ⟨_, draining.live, .inr (.inr (.inr ⟨_, rfl⟩))⟩
    · exact .inl member

/-- A phase releases no bufferevent of another pair. -/
theorem Phase.freed (phase : Phase x y w v) {z : Ptr} (near : z ≠ x) (far : z ≠ y)
    (unfreed : z ∉ w.freed) : z ∉ v.freed := by
  cases phase <;> simp [flushed, near, far, unfreed]

/-- A phase releases only what is live, and writes only to what was not released. -/
theorem Phase.lives (apart : x ≠ y) (phase : Phase x y w v) (lives : w.Lifetimes) :
    v.Lifetimes := by
  -- What a phase stores or releases is live, so it was not released before.
  cases phase with
  | idle => exact lives
  | relay opened _ =>
    exact ((lives.enter _).put (lives.unfreed opened.near) _).put (lives.unfreed opened.far) _
  | resume opened _ _ =>
    exact ((lives.enter _).put (lives.unfreed opened.near) _).put (lives.unfreed opened.far) _
  | other live _ => exact (lives.enter _).put (lives.unfreed live) _
  | @flush a b opened _ _ =>
    refine (((lives.enter _).enter _).put (lives.unfreed opened.far) _).drop (b := a) ?_
    simp [apart, opened.near]
  | @close a b opened _ _ =>
    refine (((lives.enter _).enter _).drop opened.far).drop (b := a) ?_
    simp [apart, opened.near]
  | linger draining _ _ => exact (lives.enter _).put (lives.unfreed draining.live) _
  | finish draining _ _ => exact (lives.enter _).drop draining.live
  | abandon draining _ => exact (lives.enter _).drop draining.live

/-- A live bufferevent belongs to an accepted connection. -/
theorem Ok.conn_lt (ok : Ok w) (live : w.heap x = some a) : x.conn < w.accepted := by
  by_contra late
  cases live.symm.trans (ok.fresh x (by omega)).1

/-- Every phase keeps the whole memory in order. -/
theorem Ok.phase (ok : Ok w) (phase : Phase x x.peer w v) : Ok v := by
  rcases phase.idle_or_live with rfl | ⟨a, live⟩
  · exact ok
  · have apart := (Ptr.peer_ne x).symm
    refine ⟨pairs_of_local ok.pairs (phase.pairOk apart (ok.pairs x))
      (fun z near far => phase.sameAt near far) phase.grown, ?_, phase.lives apart ok.lives⟩
    -- Connections that are yet to come are none of this pair's business.
    intro z late
    rw [phase.accepted] at late
    have early := ok.conn_lt live
    have near : z ≠ x := by rintro rfl; omega
    have far : z ≠ x.peer := by rintro rfl; simp at late; omega
    obtain ⟨none, received, sent, unfreed⟩ := ok.fresh z late
    have same := phase.sameAt near far
    exact ⟨same.heap.trans none, same.received.trans received, same.sent.trans sent,
      phase.freed near far unfreed⟩

/-- A step that rewrites one live bufferevent keeps the whole memory in order. -/
theorem Ok.rewrite (ok : Ok w) (live : w.heap x = some a) (here : PairOk v x x.peer)
    (elsewhere : ∀ z, z ≠ x → SameAt w v z) (calls : v.calls = w.calls)
    (freed : v.freed = w.freed) (accepted : v.accepted = w.accepted) {c : Bev}
    (written : v.heap x = some c) : Ok v := by
  -- Bufferevents that are released, or of connections yet to come, are not the live one.
  refine ⟨pairs_of_local ok.pairs here (fun z near _ => elsewhere z near) (by simp [calls]), ?_,
    ⟨freed ▸ ok.lives.once, ?_⟩⟩
  · intro z late
    rw [accepted] at late
    have early := ok.conn_lt live
    have same := elsewhere z (by rintro rfl; omega)
    obtain ⟨none, received, sent, unfreed⟩ := ok.fresh z late
    exact ⟨same.heap.trans none, same.received.trans received, same.sent.trans sent,
      freed ▸ unfreed⟩
  · intro z member
    rw [freed] at member
    have other : z ≠ x := fun hit => ok.lives.unfreed live (hit ▸ member)
    exact (elsewhere z other).heap.trans (ok.lives.dead z member)

/-- Before anything is accepted the memory is in order. -/
theorem ok_start : Ok proxy.start where
  pairs x := .inr (.inr (.inr ⟨rfl, rfl, ⟨⟨[], rfl⟩, .inr rfl⟩, ⟨⟨[], rfl⟩, .inr rfl⟩⟩))
  fresh x _ := ⟨rfl, rfl, rfl, by simp [proxy, Program.machine, World.empty]⟩
  lives := ⟨List.nodup_nil, by simp [proxy, Program.machine, World.empty]⟩

/-- The ends of a pair that was just accepted are wired to each other. -/
theorem wired_fresh (received : w.received x = []) (sent : w.sent y = []) :
    Wired w x y (freshEnd y) (freshEnd x) where
  partner := rfl
  reading := rfl
  watching := rfl
  writable := fun _ => rfl
  choked := by simp [freshEnd]
  unchoked := fun _ => ⟨rfl, rfl, rfl, fun _ => rfl⟩
  sound := by
    constructor <;> simp [flow, freshEnd, received, sent, maxOutput]

/-- Accepting a client adds one pair, which is open or already over. -/
theorem Ok.accept (ok : Ok w) (connected : Bool) :
    ∃ v, (acceptCb connected).run w = .ok ((), v) ∧ Ok v := by
  -- Both new objects are fresh, so no pointer and no record mentions them.
  have freshIn := ok.fresh ⟨w.accepted, .bIn⟩ (Nat.le_refl _)
  have freshOut := ok.fresh ⟨w.accepted, .bOut⟩ (Nat.le_refl _)
  have lives : ({ w with accepted := w.accepted + 1 } : State).Lifetimes :=
    ⟨ok.lives.once, ok.lives.dead⟩
  have later : ∀ z : Ptr, w.accepted + 1 ≤ z.conn →
      z ≠ ⟨w.accepted, .bIn⟩ ∧ z ≠ ⟨w.accepted, .bOut⟩ := by
    intro z late
    constructor <;> rintro rfl <;> exact absurd late (Nat.not_succ_le_self _)
  cases connected with
  | true =>
    refine ⟨_, acceptCb_run_connected, ?_, ?_, ?_⟩
    · refine pairs_of_local (x := ⟨w.accepted, .bIn⟩) ok.pairs ?_ ?_ (by simp)
      · exact .inl ⟨freshEnd ⟨w.accepted, .bOut⟩, freshEnd ⟨w.accepted, .bIn⟩,
          by simp, by simp [Ptr.peer], wired_fresh freshIn.2.1 freshOut.2.2.1,
          wired_fresh freshOut.2.1 freshIn.2.2.1⟩
      · intro z near far
        constructor <;> simp_all [Ptr.peer]
    · intro z late
      obtain ⟨notIn, notOut⟩ := later z late
      simpa [notIn, notOut] using ok.fresh z (by simp at late; omega)
    · exact (lives.put freshIn.2.2.2 _).put freshOut.2.2.2 _
  | false =>
    refine ⟨_, acceptCb_run_failed, ?_, ?_, ?_⟩
    · refine pairs_of_local (x := ⟨w.accepted, .bIn⟩) ok.pairs ?_ ?_ (by simp)
      · -- Neither end ever read or wrote a byte.
        refine .inr (.inr (.inr ⟨by simp, by simp [Ptr.peer], ?_, ?_⟩))
        · exact ⟨by simp [Ptr.peer, freshOut.2.2.1],
            .inr (by simp [Ptr.peer, freshIn.2.1, freshOut.2.2.1])⟩
        · exact ⟨by simp [Ptr.peer, freshIn.2.2.1],
            .inr (by simp [Ptr.peer, freshOut.2.1, freshIn.2.2.1])⟩
      · intro z near far
        constructor <;> simp_all [Ptr.peer]
    · intro z late
      obtain ⟨notIn, notOut⟩ := later z late
      simpa [notIn, notOut] using ok.fresh z (by simp at late; omega)
    · have both := (lives.put freshIn.2.2.2 {}).put freshOut.2.2.2 {}
      have first := both.drop (p := ⟨w.accepted, .bOut⟩) (b := {}) (by simp)
      exact first.drop (b := {}) (by simp)

/-- Every action the environment may take runs without a fault and keeps the memory in order. -/
theorem Ok.exec (ok : Ok w) {act : Action Ptr Bool} (enabled : proxy.enabled w act) :
    ∃ v, proxy.exec w act = .ok v ∧ Ok v := by
  -- One case for each action; all but the first are confined to a single pair.
  cases act with
  | accept connected =>
    obtain ⟨v, ran, okay⟩ := ok.accept connected
    exact ⟨v, by simp [proxy, Program.machine, Program.perform, program, ran, Except.map], okay⟩
  | receive x chunk =>
    obtain ⟨a, live, on, -⟩ := enabled
    refine ⟨Program.received w x a chunk, Program.exec_receive live chunk, ?_⟩
    have here : PairOk (Program.received w x a chunk) x x.peer := by
      rcases (ok.pairs x).of_live live with ⟨b, opened⟩ | draining
      · exact .inl ⟨_, _, opened.receive (Ptr.peer_ne x).symm on chunk⟩
      · simp [draining.stopped] at on
    exact ok.rewrite live here (fun z other => by constructor <;> simp [Program.received, other])
      rfl rfl rfl (by simp [Program.received]; rfl)
  | send x count =>
    obtain ⟨a, live, -, -⟩ := enabled
    refine ⟨Program.written w x a count, Program.exec_send live count, ?_⟩
    have here : PairOk (Program.written w x a count) x x.peer := by
      rcases (ok.pairs x).of_live live with ⟨b, opened⟩ | draining
      · exact .inl ⟨_, _, opened.send (Ptr.peer_ne x).symm count⟩
      · exact .inr (.inr (.inl ⟨_, draining.send (Ptr.peer_ne x).symm count⟩))
    exact ok.rewrite live here (fun z other => by constructor <;> simp [Program.written, other])
      rfl rfl rfl (by simp [Program.written]; rfl)
  | report x what stopped =>
    obtain ⟨a, live, excused⟩ := enabled
    refine ⟨w.put x (Program.reported a what stopped), Program.exec_report live what stopped, ?_⟩
    have here : PairOk (w.put x (Program.reported a what stopped)) x x.peer := by
      rcases (ok.pairs x).of_live live with ⟨b, opened⟩ | draining
      · exact .inl ⟨_, _, opened.report (Ptr.peer_ne x).symm excused⟩
      · exact .inr (.inr (.inl ⟨_, draining.report (Ptr.peer_ne x).symm excused⟩))
    exact ok.rewrite live here (fun z other => by constructor <;> simp [other])
      rfl rfl rfl (by simp; rfl)
  | dispatch x =>
    obtain ⟨first, second, v, ran, ⟨-, readPhase⟩, ⟨-, writePhase⟩, ⟨-, eventPhase⟩⟩ :=
      dispatch_run (ok.pairs x)
    exact ⟨v, by simp [proxy, Program.machine, Program.perform, ran, Except.map],
      ((ok.phase readPhase).phase writePhase).phase eventPhase⟩

/-- Every step keeps the memory in order. -/
theorem Ok.step (ok : Ok w) {act : Action Ptr Bool} (step : proxy.Step w act v) : Ok v := by
  obtain ⟨v', ran, okay⟩ := ok.exec step.1
  cases ran.symm.trans step.2
  exact okay

/-- What is live after a connection was accepted is new or was live before. -/
theorem step_accept_live {connected : Bool} (step : proxy.Step w (.accept connected) v) {z : Ptr}
    {c : Bev} (live : v.heap z = some c) :
    (z.conn = w.accepted ∧ c = freshEnd z.peer) ∨ w.heap z = some c := by
  have ran := Program.step_accept step
  cases connected with
  | true =>
    -- The two new objects are looked up first, the outer one being stored last.
    cases acceptCb_run_connected.symm.trans ran
    rcases World.live_of_put live with ⟨rfl, rfl⟩ | live
    · exact .inl ⟨rfl, rfl⟩
    rcases World.live_of_put live with ⟨rfl, rfl⟩ | live
    · exact .inl ⟨rfl, rfl⟩
    · exact .inr live
  | false =>
    -- Both of them were released again, and what is live is neither.
    cases acceptCb_run_failed.symm.trans ran
    obtain ⟨notIn, live⟩ := World.live_of_drop live
    obtain ⟨notOut, live⟩ := World.live_of_drop live
    rcases World.live_of_put live with ⟨out, -⟩ | live
    · exact absurd out notOut
    rcases World.live_of_put live with ⟨inn, -⟩ | live
    · exact absurd inn notIn
    · exact .inr live

/-- Accepting a connection leaves what came before alone. -/
theorem step_accept_keeps {connected : Bool} (step : proxy.Step w (.accept connected) v) :
    v.calls = w.calls ∧ v.accepted = w.accepted + 1 ∧ v.received = w.received ∧
      ∀ z : Ptr, z.conn < w.accepted → v.heap z = w.heap z := by
  -- Objects of earlier connections differ from both of the new ones.
  have ran := Program.step_accept step
  have old : ∀ z : Ptr, z.conn < w.accepted → z ≠ ⟨w.accepted, .bIn⟩ ∧ z ≠ ⟨w.accepted, .bOut⟩ := by
    intro z early
    constructor <;> rintro rfl <;> exact absurd early (Nat.lt_irrefl _)
  cases connected with
  | true =>
    cases acceptCb_run_connected.symm.trans ran
    exact ⟨rfl, rfl, rfl, fun z early => by simp [old z early]⟩
  | false =>
    cases acceptCb_run_failed.symm.trans ran
    exact ⟨rfl, rfl, rfl, fun z early => by simp [old z early]⟩

/-- Between dispatches a live bufferevent was just accepted or has been changed in one way. -/
theorem step_changed {act : Action Ptr Bool} (step : proxy.Step w act v)
    (settled : ∀ x, act ≠ .dispatch x) {z : Ptr} {c : Bev} (live : v.heap z = some c) :
    (z.conn = w.accepted ∧ c = freshEnd z.peer) ∨
      ∃ b, w.heap z = some b ∧ Program.Change act z b c := by
  -- Sockets change a live object in the way of their action, and make none live.
  rcases act.accept_or_dispatch_or_network with ⟨how, rfl⟩ | ⟨x, rfl⟩ | network
  · exact (step_accept_live step live).imp_right fun was => ⟨c, was, .same⟩
  · exact absurd rfl (settled x)
  · obtain ⟨-, -, kept, gone⟩ := Program.step_network network step
    cases was : w.heap z with
    | none => cases (gone z was).1.symm.trans live
    | some b =>
      obtain ⟨c', live', change⟩ := kept z b was
      cases live'.symm.trans live
      exact .inr ⟨b, rfl, change⟩

/-- Between dispatches no callback is entered. -/
theorem step_calls {act : Action Ptr Bool} (step : proxy.Step w act v)
    (settled : ∀ x, act ≠ .dispatch x) : v.calls = w.calls := by
  -- Neither the listener nor a socket runs a callback of a bufferevent.
  rcases act.accept_or_dispatch_or_network with ⟨how, rfl⟩ | ⟨x, rfl⟩ | network
  · exact (step_accept_keeps step).1
  · exact absurd rfl (settled x)
  · exact (Program.step_network network step).1

/-- An action is a dispatch, or it is none. -/
theorem dispatch_or_settled (act : Action Ptr Bool) :
    (∃ x, act = .dispatch x) ∨ ∀ x, act ≠ .dispatch x := by
  cases act <;> simp

/-- Every reachable memory is in order. -/
theorem ok_reachable (reached : proxy.Reachable w) : Ok w :=
  reached.invariant Ok ok_start fun ok step => ok.step step

end LinuxPro.Proxy
