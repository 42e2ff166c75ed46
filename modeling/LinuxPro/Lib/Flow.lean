import Mathlib.Data.List.Basic

/-! A relayed stream with hysteresis: reading stops at a high mark and resumes below a low one. -/

namespace LinuxPro

/--
One direction of a relay between two queues.

Elements arrive in the unread queue, are moved to the unsent queue, and leave from its front.
-/
structure Flow (α : Type) where
  /-- Everything that ever arrived. -/
  received : List α
  /-- What arrived and was not moved yet. -/
  unread : List α
  /-- What was moved and has not left yet. -/
  unsent : List α
  /-- Everything that ever left. -/
  sent : List α
  /-- Whether arrivals are switched off. -/
  choked : Bool
  /-- Whether a notification that the unsent queue drained is on its way. -/
  signal : Bool

namespace Flow

variable {α : Type}

/-- A chunk arrives. -/
def receive (f : Flow α) (chunk : List α) : Flow α :=
  { f with received := f.received ++ chunk, unread := f.unread ++ chunk }

/-- Everything unread is moved on, and a queue at its high mark switches arrivals off. -/
def relay (high : Nat) (f : Flow α) : Flow α :=
  { f with
    unread := []
    unsent := f.unsent ++ f.unread
    choked := f.choked || decide (high ≤ (f.unsent ++ f.unread).length) }

/-- A number of elements leave, and a choked queue at its low mark raises the notification. -/
def send (low count : Nat) (f : Flow α) : Flow α :=
  { f with
    sent := f.sent ++ f.unsent.take count
    unsent := f.unsent.drop count
    signal := f.signal || (f.choked && decide ((f.unsent.drop count).length ≤ low)) }

/-- The notification is delivered, and arrivals are switched on again. -/
def resume (f : Flow α) : Flow α :=
  { f with choked := false, signal := false }

/-- What a relayed stream keeps between any two of its operations. -/
structure Sound (low high : Nat) (f : Flow α) : Prop where
  /-- Nothing is lost, duplicated or reordered. -/
  whole : f.received = f.sent ++ f.unsent ++ f.unread
  /-- A choked stream has nothing left to move. -/
  starved : f.choked = true → f.unread = []
  /-- A choked stream either has yet to cross its low mark or was already told that it did. -/
  woken : f.choked = true → low < f.unsent.length ∨ f.signal = true
  /-- An open stream has room below its high mark. -/
  roomy : f.choked = false → f.unsent.length < high
  /-- Only a choked stream has a notification on its way. -/
  quiet : f.choked = false → f.signal = false
  /-- A notification on its way is still true when it is delivered. -/
  drained : f.signal = true → f.unsent.length ≤ low

variable {low high : Nat} {f : Flow α}

/-- Arrivals on an open stream keep it sound. -/
theorem Sound.receive (sound : f.Sound low high) (isOpen : f.choked = false) (chunk : List α) :
    (f.receive chunk).Sound low high where
  whole := by simp [Flow.receive, sound.whole]
  starved := by simp [Flow.receive, isOpen]
  woken := by simp [Flow.receive, isOpen]
  roomy := by simpa [Flow.receive] using sound.roomy
  quiet := by simpa [Flow.receive] using sound.quiet
  drained := by simpa [Flow.receive] using sound.drained

/-- Moving on what is unread keeps the stream sound, whichever state it is in. -/
theorem Sound.relay (sound : f.Sound low high) (apart : low < high) :
    (f.relay high).Sound low high := by
  -- A choked stream moves nothing, and an open one is choked exactly when it reaches the mark.
  cases choked : f.choked with
  | true =>
    have unread := sound.starved choked
    have woken := sound.woken choked
    have drained := sound.drained
    have whole := sound.whole
    constructor <;> simp_all [Flow.relay]
  | false =>
    have signal := sound.quiet choked
    have whole := sound.whole
    constructor <;> simp_all [Flow.relay]
    -- The queue that just reached its high mark is still far from its low one.
    intro reached
    omega

/-- Elements leaving keep the stream sound, however many leave. -/
theorem Sound.send (sound : f.Sound low high) (count : Nat) :
    (f.send low count).Sound low high := by
  cases choked : f.choked with
  | true =>
    -- Crossing the low mark and raising the notification are the same event.
    have unread := sound.starved choked
    have woken := sound.woken choked
    have drained := sound.drained
    refine ⟨by simp [Flow.send, sound.whole], by simp [Flow.send, unread], ?_,
      by simp [Flow.send, choked], by simp [Flow.send, choked], ?_⟩
    · intro _
      simp only [Flow.send, choked, Bool.true_and, Bool.or_eq_true, decide_eq_true_eq]
      omega
    · simp only [Flow.send, choked, Bool.true_and, Bool.or_eq_true, decide_eq_true_eq,
        List.length_drop]
      intro raised
      rcases raised with raised | raised
      · have := drained raised
        omega
      · exact raised
  | false =>
    -- An open stream only gains room.
    have signal := sound.quiet choked
    have roomy := sound.roomy choked
    refine ⟨by simp [Flow.send, sound.whole], by simp [Flow.send, choked],
      by simp [Flow.send, choked], ?_, by simp [Flow.send, choked, signal],
      by simp [Flow.send, choked, signal]⟩
    intro _
    simp only [Flow.send, List.length_drop]
    omega

/-- Delivering a notification that was raised leaves an open stream with room. -/
theorem Sound.resume (sound : f.Sound low high) (apart : low < high)
    (raised : f.signal = true) : f.resume.Sound low high where
  whole := sound.whole
  starved := by simp [Flow.resume]
  woken := by simp [Flow.resume]
  roomy := by
    -- The notification was raised below the low mark, and nothing was moved since.
    intro _
    have := sound.drained raised
    simp only [Flow.resume]
    omega
  quiet := by simp [Flow.resume]
  drained := by simp [Flow.resume]

/-- What has left is always a prefix of what arrived. -/
theorem Sound.sent_leads (sound : f.Sound low high) : f.sent <+: f.received :=
  ⟨f.unsent ++ f.unread, by simp [sound.whole]⟩

/-- A stream never holds more than its high mark and one more batch. -/
theorem Sound.relay_bounded (sound : f.Sound low high) {batch : Nat}
    (bounded : f.unread.length ≤ batch) (before : f.unsent.length < high + batch) :
    (f.relay high).unsent.length < high + batch := by
  -- A choked stream moves nothing, and an open one starts below the high mark.
  cases choked : f.choked with
  | true => simpa [Flow.relay, sound.starved choked] using before
  | false =>
    have := sound.roomy choked
    simp only [Flow.relay, List.length_append]
    omega

end Flow

end LinuxPro
