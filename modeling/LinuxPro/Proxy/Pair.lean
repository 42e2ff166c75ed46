import LinuxPro.Lib.Flow
import LinuxPro.Proxy.Effects

/-! The states a pair of bufferevents can be in, and what holds of its two directions in each. -/

namespace LinuxPro.Proxy

/-- The other bufferevent of the same accepted connection. -/
def Ptr.peer : Ptr → Ptr
  | ⟨conn, .bIn⟩ => ⟨conn, .bOut⟩
  | ⟨conn, .bOut⟩ => ⟨conn, .bIn⟩

/-- The peer of the peer is the bufferevent itself. -/
@[simp] theorem Ptr.peer_peer (x : Ptr) : x.peer.peer = x := by
  rcases x with ⟨conn, side⟩
  cases side <;> rfl

/-- Peers belong to the same connection. -/
@[simp] theorem Ptr.peer_conn (x : Ptr) : x.peer.conn = x.conn := by
  rcases x with ⟨conn, side⟩
  cases side <;> rfl

/-- The two ends of a connection are different objects. -/
@[simp] theorem Ptr.peer_ne (x : Ptr) : x.peer ≠ x := by
  rcases x with ⟨conn, side⟩
  cases side <;> simp [Ptr.peer]

/-- A connection has no third end. -/
theorem Ptr.eq_or_eq_peer {x z : Ptr} (same : z.conn = x.conn) : z = x ∨ z = x.peer := by
  -- Two of the four combinations of ends are the same object, the other two are peers.
  rcases x with ⟨conn, side⟩
  rcases z with ⟨conn', side'⟩
  cases side <;> cases side' <;> simp_all [Ptr.peer]

/-- The event callback has handled an end of file or an error on this side. -/
def HungUp (w : State) (x : Ptr) : Prop :=
  ∃ what ctx, Call.event .eventcb x what ctx ∈ w.calls ∧ what.hangup = true

/--
The bytes relayed from one side to the other.

The direction counts as choked while the receiving side waits to report that it has drained.
-/
def flow (w : State) (x y : Ptr) (a b : Bev) : Flow UInt8 where
  received := w.received x
  unread := a.input
  unsent := b.output
  sent := w.sent y
  choked := decide (b.writecb = some .drainedWritecb)
  signal := b.writePending

/-- What ties the two ends of one direction together while both are live. -/
structure Wired (w : State) (x y : Ptr) (a b : Bev) : Prop where
  /-- The context of the reading side is the side it writes to. -/
  partner : a.ctx = some y
  /-- The reading side is read by `readcb`. -/
  reading : a.readcb = some .readcb
  /-- The reading side is watched by `eventcb`. -/
  watching : a.eventcb = some .eventcb
  /-- Only a report can have stopped the reading side from writing. -/
  writable : a.eventPending.hangup = false → a.enabled.write = true
  /-- A choked direction is one `readcb` stopped and the watermark watches. -/
  choked : b.writecb = some .drainedWritecb →
    a.enabled.read = false ∧ a.readOffBy = some .readcb ∧ b.writeLow = maxOutput / 2
  /-- An open direction has no write callback, and only a report can have stopped it. -/
  unchoked : b.writecb ≠ some .drainedWritecb →
    b.writecb = none ∧ b.writeLow = 0 ∧ a.readOffBy = none ∧
      (a.eventPending.hangup = false → a.enabled.read = true)
  /-- The bytes of the direction are accounted for. -/
  sound : (flow w x y a b).Sound (maxOutput / 2) maxOutput

/-- The bytes of a direction stay accounted for while its two sockets are left alone. -/
theorem Wired.sound_frame {w v : State} {x y : Ptr} {a b : Bev} (forth : Wired w x y a b)
    (received : v.received x = w.received x) (sent : v.sent y = w.sent y) :
    (flow v x y a b).Sound (maxOutput / 2) maxOutput := by
  -- The memory enters into a direction only through what its sockets have seen.
  have same : flow v x y a b = flow w x y a b := by simp [flow, received, sent]
  exact same ▸ forth.sound

/-- Both ends are live and relay to each other. -/
structure Opened (w : State) (x y : Ptr) (a b : Bev) : Prop where
  near : w.heap x = some a
  far : w.heap y = some b
  forth : Wired w x y a b
  back : Wired w y x b a

/-- The first side has gone away, and the second stays until its output has been written. -/
structure Draining (w : State) (x y : Ptr) (b : Bev) : Prop where
  gone : w.heap x = none
  live : w.heap y = some b
  /-- The side that is gone was released by its own event callback. -/
  hung : HungUp w x
  alone : b.ctx = none
  deaf : b.readcb = none
  closing : b.writecb = some .closeOnFinishedWritecb
  watching : b.eventcb = some .eventcb
  stopped : b.enabled.read = false
  writable : b.eventPending.hangup = false → b.enabled.write = true
  /-- There is something left to write, or the closing callback is already on its way. -/
  busy : b.output ≠ [] ∨ b.writePending = true
  /-- Everything read from the side that is gone is written or still queued. -/
  whole : w.received x = w.sent y ++ b.output
  /-- What was written to the side that is gone came from the other. -/
  back : w.sent x <+: w.received y

/-- Nothing was lost on the way to a side that did not hang up itself. -/
def Settled (w : State) (x y : Ptr) : Prop :=
  w.sent y <+: w.received x ∧ (HungUp w y ∨ w.received x = w.sent y)

/-- Neither side is live, be it released or not yet accepted. -/
structure Over (w : State) (x y : Ptr) : Prop where
  near : w.heap x = none
  far : w.heap y = none
  forth : Settled w x y
  back : Settled w y x

/-- The states a pair can be in. -/
def PairOk (w : State) (x y : Ptr) : Prop :=
  (∃ a b, Opened w x y a b) ∨ (∃ b, Draining w x y b) ∨ (∃ a, Draining w y x a) ∨ Over w x y

variable {w v : State} {x y : Ptr} {a b : Bev}

/-- An open pair is open from either side. -/
theorem Opened.symm (opened : Opened w x y a b) : Opened w y x b a :=
  ⟨opened.far, opened.near, opened.back, opened.forth⟩

/-- The state of a pair does not depend on the side it is seen from. -/
theorem PairOk.symm (ok : PairOk w x y) : PairOk w y x := by
  -- Seen from the other end, the two draining states trade places.
  rcases ok with ⟨a, b, opened⟩ | ⟨b, draining⟩ | ⟨a, draining⟩ | finished
  · exact .inl ⟨b, a, opened.symm⟩
  · exact .inr (.inr (.inl ⟨b, draining⟩))
  · exact .inr (.inl ⟨a, draining⟩)
  · exact .inr (.inr (.inr ⟨finished.far, finished.near, finished.back, finished.forth⟩))

/-- What one memory shares with another as far as one bufferevent is concerned. -/
structure SameAt (w v : State) (z : Ptr) : Prop where
  heap : v.heap z = w.heap z
  received : v.received z = w.received z
  sent : v.sent z = w.sent z

/-- A hang-up stays on record. -/
theorem HungUp.mono (grown : ∀ call ∈ w.calls, call ∈ v.calls) (hung : HungUp w x) :
    HungUp v x := by
  obtain ⟨what, ctx, member, hangup⟩ := hung
  exact ⟨what, ctx, grown _ member, hangup⟩

/-- The account of a finished direction survives changes elsewhere. -/
theorem Settled.frame (near : SameAt w v x) (far : SameAt w v y)
    (grown : ∀ call ∈ w.calls, call ∈ v.calls) (settled : Settled w x y) : Settled v x y := by
  -- Only the record of hang-ups can have changed, and it only grows.
  unfold Settled at *
  rw [near.received, far.sent]
  exact ⟨settled.1, settled.2.imp_left (HungUp.mono grown)⟩

/-- A direction survives changes elsewhere. -/
theorem Wired.frame (near : SameAt w v x) (far : SameAt w v y) (wired : Wired w x y a b) :
    Wired v x y a b :=
  { wired with sound := wired.sound_frame near.received far.sent }

/-- A side left to drain survives changes elsewhere. -/
theorem Draining.frame (near : SameAt w v x) (far : SameAt w v y)
    (grown : ∀ call ∈ w.calls, call ∈ v.calls) (draining : Draining w x y b) :
    Draining v x y b :=
  { draining with
    gone := near.heap ▸ draining.gone
    live := far.heap ▸ draining.live
    hung := draining.hung.mono grown
    whole := by rw [near.received, far.sent]; exact draining.whole
    back := by rw [near.sent, far.received]; exact draining.back }

/-- The state of a pair survives every change that does not touch its two ends. -/
theorem PairOk.frame (near : SameAt w v x) (far : SameAt w v y)
    (grown : ∀ call ∈ w.calls, call ∈ v.calls) (ok : PairOk w x y) : PairOk v x y := by
  -- Each of the four states is carried over by the frame lemma of its own.
  rcases ok with ⟨a, b, opened⟩ | ⟨b, draining⟩ | ⟨a, draining⟩ | finished
  · exact .inl ⟨a, b, near.heap ▸ opened.near, far.heap ▸ opened.far,
      opened.forth.frame near far, opened.back.frame far near⟩
  · exact .inr (.inl ⟨b, draining.frame near far grown⟩)
  · exact .inr (.inr (.inl ⟨a, draining.frame far near grown⟩))
  · exact .inr (.inr (.inr ⟨near.heap ▸ finished.near, far.heap ▸ finished.far,
      finished.forth.frame near far grown, finished.back.frame far near grown⟩))

end LinuxPro.Proxy
