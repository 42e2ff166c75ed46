import LinuxPro.Lib.Earlier
import LinuxPro.Relay.Fidelity

/-! When the relay waits for traffic while it holds bytes that were already decrypted. -/

namespace LinuxPro.Relay

open Tls (ReadResult)

/-- What one party sent under one encryption, in the lengths TLS allows. -/
structure Record where
  bytes : Chars
  nonempty : 1 ≤ bytes.length
  bounded : bytes.length ≤ 16384

/-- The TLS layer of one connection. -/
structure Layer where
  /-- The records that have arrived and were not decrypted, which is what `select` looks at. -/
  kernel : List Record
  /-- The bytes that were decrypted and not read. -/
  pending : Chars

/-- Decrypt one record if there is nothing left of the one before. -/
def Layer.decrypt (layer : Layer) : Layer :=
  match layer.pending, layer.kernel with
  | [], record :: rest => { kernel := rest, pending := record.bytes }
  | _, _ => layer

/-- `SSL_read` of as much as the array holds. -/
def Layer.sslRead (layer : Layer) : ReadResult bufferSize × Layer :=
  (readOf (layer.decrypt.pending.take bufferSize) (List.length_take_le _ _),
    { layer.decrypt with pending := layer.decrypt.pending.drop bufferSize })

/-- One more record arrives. -/
def Layer.arrive (layer : Layer) (record : Record) : Layer :=
  { layer with kernel := layer.kernel ++ [record] }

/-- What happens to the relay. -/
inductive Event where
  /-- A record arrives from a party. -/
  | arrives (side : Side) (record : Record)
  /-- The loop makes one pass, with these answers of `select` and of the writes. -/
  | passes (select : Int32) (ready : Side → Bool) (write : Side → Int32)

/-- A pass whose reads are answered by the two TLS layers. -/
def layered (select : Int32) (ready : Side → Bool) (write : Side → Int32) :
    Pass (Side → Layer) where
  select := select
  ready := ready
  read side layers :=
    ((layers side).sslRead.1, Function.update layers side (layers side).sslRead.2)
  write := write

/-- A record arrives on the connection to a party. -/
def arrive (s : State (Side → Layer)) (side : Side) (record : Record) : State (Side → Layer) :=
  { s with tls := Function.update s.tls side ((s.tls side).arrive record) }

/-- The relay over two TLS layers, with `select` reporting only what the kernel holds. -/
def relay : Machine (State (Side → Layer)) Event Empty where
  start := begins fun _ => ⟨[], []⟩
  enabled s
    | .arrives _ _ => True
    | .passes _ ready _ => s.left = none ∧ ∀ side, ready side = true → (s.tls side).kernel ≠ []
  exec s
    | .arrives side record => .ok (arrive s side record)
    | .passes select ready write => .ok (runPass (layered select ready write) s)

/-- The records that arrive in the course of some events. -/
def arrivals : List Event → List (Side × Record)
  | [] => []
  | .arrives side record :: rest => (side, record) :: arrivals rest
  | .passes _ _ _ :: rest => arrivals rest

/-- The records that arrive in two stretches of events arrive one after the other. -/
@[simp] theorem arrivals_append (first second : List Event) :
    arrivals (first ++ second) = arrivals first ++ arrivals second := by
  induction first with
  | nil => rfl
  | cons event first ih => cases event <;> simp [arrivals, ih]

/-- The bytes of the records of one party. -/
def bytesFrom (side : Side) (records : List (Side × Record)) : Chars :=
  records.flatMap fun arrived => if arrived.1 = side then arrived.2.bytes else []

/-- The bytes that a party has sent and the kernel still holds. -/
def Layer.undecrypted (layer : Layer) : Chars :=
  layer.kernel.flatMap fun record => record.bytes

/--
The relay never waits for traffic with decrypted bytes at hand.

Whenever it is about to call `select`, both queues of decrypted bytes are empty, and what has
arrived from a party was written to the other or is still in the kernel.
-/
def NeverSleeps (records : List (Side × Record)) : Prop :=
  ∀ events s, arrivals events <+: records → relay.Run relay.start events s → s.left = none →
    ∀ side, (s.tls side).pending = [] ∧
      bytesFrom side (arrivals events) = s.sent side.other ++ (s.tls side).undecrypted

section Layer

/-- A read moves bytes along and loses none. -/
theorem Layer.sslRead_whole (layer : Layer) :
    layer.sslRead.1.data ++ (layer.sslRead.2.pending ++ layer.sslRead.2.undecrypted) =
      layer.pending ++ layer.undecrypted := by
  have decrypted : layer.decrypt.pending ++ layer.decrypt.undecrypted =
      layer.pending ++ layer.undecrypted := by
    unfold decrypt
    split
    · -- The bytes of the first record move from the kernel to the queue.
      rename_i empty queue
      simp [undecrypted, empty, queue]
    · rfl
  rw [← decrypted, ← List.append_assoc]
  exact congrArg (· ++ layer.decrypt.undecrypted) (List.take_append_drop _ _)

/-- Whether no record in the kernel is longer than the array, and nothing is left of the last. -/
def Layer.Tidy (layer : Layer) : Prop :=
  layer.pending = [] ∧ ∀ record ∈ layer.kernel, record.bytes.length ≤ bufferSize

/-- One read takes the whole of a record that is not longer than the array. -/
theorem Layer.Tidy.sslRead {layer : Layer} (tidy : layer.Tidy) : layer.sslRead.2.Tidy := by
  obtain ⟨none, short⟩ := tidy
  cases queue : layer.kernel with
  | nil =>
    -- There is nothing to read.
    simp [Tidy, Layer.sslRead, Layer.decrypt, none, queue]
  | cons record rest =>
    -- The record that is decrypted is read as a whole.
    rw [queue] at short
    simpa [Tidy, Layer.sslRead, Layer.decrypt, none, queue] using short

end Layer

section Steps

variable {select : Int32} {ready : Side → Bool} {write : Side → Int32}
  {s t : State (Side → Layer)} {side : Side} {cause : Option Cause}

/-- What a party has sent, by how far it has come. -/
def content (s : State (Side → Layer)) (side : Side) : Chars :=
  s.received side ++ ((s.tls side).pending ++ (s.tls side).undecrypted)

/-- A read moves the bytes of its own party along and leaves those of the other alone. -/
theorem content_readIn (z : Side) :
    content (readIn (layered select ready write) side s) z = content s z := by
  by_cases here : z = side
  · -- What was read has left the layer of this party.
    subst here
    simpa [content, readIn, layered] using (s.tls z).sslRead_whole
  · simp [content, readIn, layered, here]

/-- A block neither adds to what the parties have sent nor takes from it. -/
theorem Block.content (block : Block (layered select ready write) side s cause t) (z : Side) :
    content t z = content s z := by
  cases block with
  | skipped _ => rfl
  -- However a block ends after its read, writing and printing move nothing between the layers.
  | forwarded _ _ _ => exact content_readIn z
  | unwritten _ _ _ => exact content_readIn z
  | unread _ _ => exact content_readIn z

/-- A read keeps both layers tidy. -/
theorem tidy_readIn (before : ∀ z, (s.tls z).Tidy) (z : Side) :
    ((readIn (layered select ready write) side s).tls z).Tidy := by
  by_cases here : z = side
  · subst here
    simpa [readIn, layered] using (before z).sslRead
  · simpa [readIn, layered, here] using before z

/-- Writing and printing leave the layers as the read left them. -/
theorem passedOn_tls {σ : Type} (pass : Pass σ) (side : Side) (s : State σ) :
    (passedOn pass side s).tls = (readIn pass side s).tls := rfl

/-- A block keeps both layers tidy. -/
theorem Block.tidy (block : Block (layered select ready write) side s cause t)
    (before : ∀ z, (s.tls z).Tidy) (z : Side) : (t.tls z).Tidy := by
  cases block with
  | skipped _ => exact before z
  | forwarded _ _ _ =>
    rw [passedOn_tls]
    exact tidy_readIn before z
  | unwritten _ _ _ => exact tidy_readIn before z
  | unread _ _ => exact tidy_readIn before z

/-- A pass neither adds to what the parties have sent nor takes from it. -/
theorem Body.content (body : Body (layered select ready write) s cause t) (z : Side) :
    content t z = content s z := by
  cases body with
  | selectFailed _ => rfl
  | timedOut _ => rfl
  | first block => exact block.content z
  | both block next => exact (next.content z).trans (block.content z)

/-- A pass keeps both layers tidy. -/
theorem Body.tidy (body : Body (layered select ready write) s cause t)
    (before : ∀ z, (s.tls z).Tidy) (z : Side) : (t.tls z).Tidy := by
  cases body with
  | selectFailed _ => exact before z
  | timedOut _ => exact before z
  | first block => exact block.tidy before z
  | both block next => exact next.tidy (block.tidy before) z

/-- What an event can do. -/
theorem relay_step_cases {event : Event} (step : relay.Step s event t) :
    (∃ side record, event = .arrives side record ∧ t = arrive s side record) ∨
    ∃ select ready write cause u, event = .passes select ready write ∧ s.left = none ∧
      Body (layered select ready write) s cause u ∧ t = { u with left := cause } := by
  obtain ⟨able, ran⟩ := step
  cases event with
  | arrives side record =>
    simp only [relay, Except.ok.injEq] at ran
    exact .inl ⟨side, record, rfl, ran.symm⟩
  | passes select ready write =>
    rcases ended : (loopBody (layered select ready write)).run s with ⟨cause, u⟩
    simp only [relay, runPass, ended, Except.ok.injEq] at ran
    exact .inr ⟨select, ready, write, cause, u, rfl, able.1, body_of_run ended, ran.symm⟩

end Steps

section Runs

variable {s t : State (Side → Layer)} {events : List Event}

/-- An arrival adds its record to what its party has sent. -/
theorem content_arrive (s : State (Side → Layer)) (side z : Side) (record : Record) :
    content (arrive s side record) z =
      content s z ++ if side = z then record.bytes else [] := by
  by_cases here : side = z
  · subst here
    simp [content, arrive, Layer.arrive, Layer.undecrypted]
  · simp [content, arrive, here, Ne.symm here]

/-- What a party has sent at the end of a run is what it had sent before and what has arrived. -/
theorem content_of_run (run : relay.Run s events t) (z : Side) :
    content t z = content s z ++ bytesFrom z (arrivals events) := by
  -- Only an arrival changes the content, and it is the next of the arrivals.
  induction run with
  | nil => simp [arrivals, bytesFrom]
  | cons step _ ih =>
    rcases relay_step_cases step with
      ⟨side, record, rfl, rfl⟩ | ⟨_, _, _, cause, u, rfl, _, body, rfl⟩
    · -- The record is the first of the arrivals.
      rw [ih, content_arrive]
      simp [arrivals, bytesFrom]
    · rw [ih]
      exact congrArg (· ++ _) (body.content z)

/-- While the loop goes on, everything that was read was forwarded. -/
theorem balanced_of_run (run : relay.Run s events t) (before : s.left = none → Balanced s) :
    t.left = none → Balanced t := by
  refine run.preserves (fun s => s.left = none → Balanced s) (fun _ => True) ?_ (by simp) before
  intro s event t _ holds step
  rcases relay_step_cases step with
    ⟨side, record, rfl, rfl⟩ | ⟨_, _, _, cause, u, rfl, running, body, rfl⟩
  · -- An arrival neither reads nor writes.
    exact holds
  · -- A pass after which the loop goes on is one that left it in balance.
    intro going
    have after := body.balanced (holds running)
    cases going
    exact after

/-- Records that are not longer than the array leave nothing behind in the TLS layers. -/
theorem tidy_of_run (run : relay.Run s events t)
    (short : ∀ arrived ∈ arrivals events, arrived.2.bytes.length ≤ bufferSize)
    (before : ∀ z, (s.tls z).Tidy) : ∀ z, (t.tls z).Tidy := by
  induction run with
  | nil => exact before
  | cons step _ ih =>
    rcases relay_step_cases step with
      ⟨side, record, rfl, rfl⟩ | ⟨_, _, _, cause, u, rfl, _, body, rfl⟩
    · simp only [arrivals, List.forall_mem_cons] at short
      refine ih short.2 fun z => ?_
      -- The record that arrives is the only one that is new in its layer.
      by_cases here : z = side
      · subst here
        have fits : record.bytes.length ≤ bufferSize := short.1
        simpa [Layer.Tidy, arrive, Layer.arrive, or_imp, forall_and, fits] using before z
      · simpa [arrive, here] using before z
    · exact ih short (body.tidy before)

end Runs

section Delivery

/-- The pass that `select` lets the loop make for one record, with a write that takes it all. -/
def passFor (side : Side) (record : Record) : Event :=
  .passes 1 (fun z => decide (z = side)) fun _ => .ofNat (min bufferSize record.bytes.length)

/-- The number of bytes of a record that are read at once is the positive result of the read. -/
theorem result_positive (record : Record) :
    0 < Int32.ofNat (min bufferSize record.bytes.length) := by
  -- There is at least one byte, and not so many that the result would be negative.
  have some : 0 < min bufferSize record.bytes.length :=
    Nat.lt_min.mpr ⟨by decide, record.nonempty⟩
  have small : min bufferSize record.bytes.length < 2 ^ 31 :=
    Nat.lt_of_le_of_lt (Nat.min_le_left _ _) (by decide)
  rw [Int32.lt_iff_toInt_lt, Int32.toInt_ofNat_of_lt small]
  exact Int.ofNat_lt.mpr some

/-- One read of a layer with a single record takes as much of it as fits in the array. -/
theorem Layer.sslRead_one (record : Record) :
    (Layer.mk [record] []).sslRead.1.result = .ofNat (min bufferSize record.bytes.length) ∧
      (Layer.mk [record] []).sslRead.2 = ⟨[], record.bytes.drop bufferSize⟩ := by
  refine ⟨?_, rfl⟩
  rw [← List.length_take]
  rfl

/-- The pass for a record leaves behind in the layer what did not fit in the array. -/
theorem step_passFor {s : State (Side → Layer)} {side : Side} {record : Record}
    (running : s.left = none) (arrived : s.tls side = ⟨[record], []⟩) :
    ∃ t, relay.Step s (passFor side record) t ∧ t.left = none ∧
      t.tls = Function.update s.tls side ⟨[], record.bytes.drop bufferSize⟩ := by
  -- The record is what lets `select` report the socket.
  have able : relay.enabled s (passFor side record) := by
    refine ⟨running, fun z ready => ?_⟩
    have here : z = side := by simpa using ready
    simp [here, arrived]
  obtain ⟨result, rest⟩ := Layer.sslRead_one record
  rw [← arrived] at result rest
  have positive : 0 < (s.tls side).sslRead.1.result := by
    rw [result]
    exact result_positive record
  rw [← rest]
  refine ⟨_, ⟨able, congrArg Except.ok (runPass_one side rfl (fun _ => rfl) positive ?_)⟩, rfl, rfl⟩
  exact result.symm

/-- A record that finds both layers empty is read once, as far as it fits in the array. -/
theorem run_deliver {s : State (Side → Layer)} (running : s.left = none)
    (idle : ∀ z, s.tls z = ⟨[], []⟩) (side : Side) (record : Record) :
    ∃ t, relay.Run s [.arrives side record, passFor side record] t ∧ t.left = none ∧
      t.tls = Function.update s.tls side ⟨[], record.bytes.drop bufferSize⟩ := by
  have alone : (arrive s side record).tls side = ⟨[record], []⟩ := by
    simp [arrive, Layer.arrive, idle]
  obtain ⟨t, step, left, layers⟩ := step_passFor (s := arrive s side record) running alone
  refine ⟨t, .cons (t := arrive s side record) ⟨trivial, rfl⟩ step.run, left, ?_⟩
  rw [layers, arrive, Function.update_idem]

/-- Records that each fit in the array can be delivered one by one, with nothing left behind. -/
theorem run_deliver_all (records : List (Side × Record))
    (short : ∀ arrived ∈ records, arrived.2.bytes.length ≤ bufferSize)
    {s : State (Side → Layer)} (running : s.left = none) (idle : ∀ z, s.tls z = ⟨[], []⟩) :
    ∃ events t, relay.Run s events t ∧ arrivals events = records ∧ t.left = none ∧
      ∀ z, t.tls z = ⟨[], []⟩ := by
  -- Each record is taken whole by the pass that follows it.
  induction records generalizing s with
  | nil => exact ⟨[], s, .nil s, rfl, running, idle⟩
  | cons arrived records ih =>
    rw [List.forall_mem_cons] at short
    obtain ⟨fits, short⟩ := short
    obtain ⟨t, run, left, layers⟩ := run_deliver running idle arrived.1 arrived.2
    have emptied : ∀ z, t.tls z = ⟨[], []⟩ := by
      intro z
      rw [layers, List.drop_eq_nil_of_le fits]
      by_cases here : z = arrived.1
      · simp [here]
      · simp [here, idle]
    obtain ⟨events, u, later, same, last⟩ := ih short left emptied
    exact ⟨_, u, run.append later, by simp [arrivals, passFor, same], last⟩

end Delivery

/--
The relay sleeps on decrypted bytes exactly if a record longer than its array arrives.

The condition is on the records alone, whatever the order in which the two parties are served.
-/
theorem never_sleeps_iff (records : List (Side × Record)) :
    NeverSleeps records ↔ ∀ arrived ∈ records, arrived.2.bytes.length ≤ bufferSize := by
  constructor
  · intro never
    refine forall_of_earlier fun before arrived after split short => ?_
    -- The earlier records are delivered first, so that this one finds both layers empty.
    obtain ⟨events, s, earlier, same, running, idle⟩ :=
      run_deliver_all before short (s := relay.start) rfl fun _ => rfl
    obtain ⟨t, run, left, layers⟩ := run_deliver running idle arrived.1 arrived.2
    have known : arrivals (events ++ [.arrives arrived.1 arrived.2, passFor arrived.1 arrived.2])
        <+: records := by
      rw [arrivals_append, same, split]
      exact ⟨after, by simp [arrivals, passFor]⟩
    have empty := (never _ t known (earlier.append run) left arrived.1).1
    simpa [layers] using empty
  · -- Every record that arrives is read as a whole, so that the layers stay tidy.
    intro short events s known run running side
    have tidy := tidy_of_run run (fun arrived member => short arrived (known.subset member))
      (fun z => by simp [relay, begins, Layer.Tidy])
    have balanced := balanced_of_run run (fun _ _ => rfl) running
    have whole := content_of_run run side
    refine ⟨(tidy side).1, ?_⟩
    rw [← balanced side]
    simpa [content, (tidy side).1, relay, begins, Layer.undecrypted] using whole.symm

/-- A record that is one byte longer than the array. -/
def longRecord : Record where
  bytes := List.replicate (bufferSize + 1) 65
  nonempty := by simp
  bounded := by
    rw [List.length_replicate]
    decide

/-- The last byte of a long record is kept while the loop waits, with nothing in the kernel. -/
theorem long_record_left_behind :
    ∃ s, relay.Run relay.start [.arrives .client longRecord, passFor .client longRecord] s ∧
      s.left = none ∧ s.tls .client = ⟨[], [65]⟩ ∧ ¬ NeverSleeps [(.client, longRecord)] := by
  obtain ⟨s, run, left, layers⟩ :=
    run_deliver (s := relay.start) rfl (fun _ => rfl) .client longRecord
  have behind : s.tls .client = ⟨[], [65]⟩ := by
    simp [layers, longRecord]
  refine ⟨s, run, left, behind, fun never => ?_⟩
  have empty := (never _ s (by simp [arrivals, passFor]) run left .client).1
  simp [behind] at empty

end LinuxPro.Relay
