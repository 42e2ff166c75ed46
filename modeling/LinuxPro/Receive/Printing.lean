import LinuxPro.Fifo.Reader
import LinuxPro.Relay.Fidelity
import LinuxPro.Tls.Classify
import LinuxPro.Tls.Client

/-! Whether an array that was received in is printed as what was just read, and no further. -/

namespace LinuxPro.Receive

open Tls (ReadResult)

section Fifo

open Fifo

/-- The array of a call once the zero was stored behind the bytes that were read. -/
def terminated (call : Fifo.Call) : Chars :=
  (call.buf.bytes.store call.answer.data).set call.answer.result.toInt.toNat 0

/-- The zero lies within the array, whatever the stack held. -/
theorem terminated_shows (call : Fifo.Call) : (terminated call).Shows call.answer.data := by
  -- One byte less is read than the array holds.
  have room : call.answer.data.length < call.buf.bytes.length := by
    rw [call.buf.sized]
    exact Nat.lt_succ_of_le call.answer.fits
  rw [terminated, ← call.answer.counts, Chars.set_store room]
  exact Chars.shows_strcpy _ _

/-- What a call prints. -/
def printedBy (call : Fifo.Call) : List Fifo.Output :=
  .called call.fd call.event ::
    if call.answer.result ≤ 0 then
      if call.answer.result = -1 then [.readFailed]
      else if call.answer.result = 0 then [.connectionClosed]
      else []
    else [.read call.answer.result (terminated call)]

/-- A call prints that, whether or not it goes on to stop the reader. -/
theorem fifoRead_output (call : Fifo.Call) (s : Fifo.State) :
    ((fifoRead call).run s).2.output = s.output ++ printedBy call := by
  unfold fifoRead printedBy
  -- The result picks the branch, and a failure is told from the end of the pipe.
  by_cases nothing : call.answer.result ≤ 0
  · by_cases failed : call.answer.result = -1
    · simp [failed, print, eventDel, eventBaseLoopbreak]
      rfl
    by_cases closed : call.answer.result = 0
    · simp [closed, print, eventDel, eventBaseLoopbreak]
      rfl
    · simp [nothing, failed, closed, print, eventDel, eventBaseLoopbreak]
      rfl
  · simp [nothing, print]
    rfl

/-- The only array that a call prints is the one it has terminated. -/
theorem eq_of_read_mem {call : Fifo.Call} {len : Int32} {buf : Chars}
    (printed : .read len buf ∈ printedBy call) :
    len = call.answer.result ∧ buf = terminated call := by
  unfold printedBy at printed
  split at printed
  · -- Without a positive result no array is printed.
    split at printed
    · simp at printed
    · split at printed <;> simp at printed
  · simpa using printed

/-- Whatever it was called for before, the reader prints what the present call has read. -/
def FifoShows : Prop :=
  ∀ s call t, reader.Reachable s → reader.Step s call t →
    ∃ printed, t.output = s.output ++ printed ∧
      ∀ len buf, .read len buf ∈ printed → buf.Shows call.answer.data

/-- The reader stores a zero behind what it has read, for which it leaves one byte. -/
theorem fifo_shows : FifoShows := by
  -- The array is the call's own, so that no earlier one matters.
  rintro s call t - ⟨-, ran⟩
  simp only [reader, Except.ok.injEq] at ran
  refine ⟨printedBy call, by rw [← ran, fifoRead_output], fun len buf member => ?_⟩
  rw [(eq_of_read_mem member).2]
  exact terminated_shows call

end Fifo

section Tls

open LinuxPro.Tls

/-- An array with one byte more than is read shows what was read. -/
theorem zeroed_shows (read : ReadResult maxBuf) :
    ((Chars.bzero (maxBuf + 1)).store read.data).Shows read.data :=
  (Chars.shows_store_bzero_iff _ _).mpr (.inl (Nat.lt_succ_of_le read.fits))

/-- The variables of the client once it has received something. -/
def heard (connect : Int32) (read : ReadResult maxBuf) (s : Client.State) : Client.State :=
  { s with
    buffer := (Chars.bzero (maxBuf + 1)).store read.data
    len := read.result
    output := s.output ++ [if connect = -1 then .connectErrors else .connected] }

/-- The array that the client sends its answer from. -/
def answered : Chars := (Chars.bzero (maxBuf + 1)).strcpy Client.answer

/-- The variables of the client once it has sent its answer. -/
def replied (written : Int32) (s : Client.State) : Client.State :=
  { s with
    buffer := answered
    len := written
    written := s.written ++ [answered.take answered.strlen] }

/-- Sending the answer prints one message, which is not about anything received. -/
theorem send_output (written : Int32) (s : Client.State) :
    ∃ message, ((Client.send written).run s).2.output = s.output ++ [message] ∧
      ∀ buffer len, message ≠ .received buffer len := by
  -- The message depends on the result of the write only.
  have ran : (Client.send written).run s =
      (if written < 0 then Client.print (.sendFailed answered)
      else Client.print (.sendSucceeded answered written)).run (replied written s) := rfl
  rw [ran]
  split
  · exact ⟨.sendFailed answered, rfl, by simp⟩
  · exact ⟨.sendSucceeded answered written, rfl, by simp⟩

/-- What the client prints as received is the array it has just read into. -/
theorem main_output (connect : Int32) (read : ReadResult maxBuf) (written : Int32)
    (s : Client.State) :
    ((Client.main connect read written).run s).2.output =
      if read.result > 0 then
        ((Client.send written).run { heard connect read s with
          output := (heard connect read s).output ++
            [.received ((Chars.bzero (maxBuf + 1)).store read.data) read.result] }).2.output
      else (heard connect read s).output ++ [.receiveFailed] := by
  have ran : (Client.main connect read written).run s =
      (do
        if read.result > 0 then
          Client.print (.received ((Chars.bzero (maxBuf + 1)).store read.data) read.result)
          Client.send written
        else
          Client.print .receiveFailed
        Client.finish : Client.ClientM Unit).run (heard connect read s) := rfl
  rw [ran]
  -- The calls at the end print nothing.
  split <;> rfl

/-- The client prints what it has received, whatever its variables held before. -/
def ClientShows : Prop :=
  ∀ buffer len connect read written printed count,
    .received printed count ∈
      ((Client.main connect read written).run (Client.begins buffer len)).2.output →
    printed.Shows read.data

/-- The client clears its array, which holds one byte more than is read. -/
theorem client_shows : ClientShows := by
  intro buffer len connect read written printed count member
  have earlier : .received printed count ∉
      (heard connect read (Client.begins buffer len)).output := by
    simp only [heard, Client.begins]
    split <;> simp
  -- Of the messages before and behind the one in question none is of its kind.
  rw [main_output] at member
  split at member
  · obtain ⟨message, output, other⟩ := send_output written _
    rw [output] at member
    simp only [List.mem_append, List.mem_singleton, earlier, false_or,
      Ne.symm (other printed count), or_false, Client.Output.received.injEq] at member
    rw [member.1]
    exact zeroed_shows read
  · -- Nothing was received.
    simp [earlier] at member

/-- What a turn prints as received is the array it has just read into. -/
theorem eq_of_received_mem {ssl : Nat} {conn : Conn} {buf : Chars} {len : UInt32}
    (printed : .printf (.received buf len) ∈ turnCalls ssl conn) :
    buf = (Chars.bzero (maxBuf + 1)).store conn.read.data ∧
      len = conn.read.result.toUInt32 := by
  unfold turnCalls sessionCalls exchange at printed
  split at printed
  · -- Nothing is read after a failure to send.
    simp at printed
  · split at printed
    · simpa using printed
    · simp at printed

/-- The server prints what it has received on a connection, whatever came before. -/
def ServerShows : Prop :=
  ∀ start before conn, (serve start before).1 = .waiting →
    ∃ calls, (serve start (before ++ [conn])).2.calls = (serve start before).2.calls ++ calls ∧
      ∀ buf len, .printf (.received buf len) ∈ calls → buf.Shows conn.read.data

/-- The server clears its array, which holds one byte more than is read. -/
theorem server_shows : ServerShows := by
  intro start before conn waits
  have shaken := (serve_waits_iff start before).mp waits
  by_cases broken : conn.handshake = -1
  · -- The loop ends without anything being read.
    obtain ⟨v, waiting, next⟩ := serve_next shaken start
    refine ⟨leaveCalls v.created conn, ?_, by simp [leaveCalls]⟩
    rw [next, waiting, acceptLoop_leave_calls broken, acceptLoop_nil]
    simp
  · -- The next `accept` follows the calls of the turn.
    obtain ⟨ssl, -, calls⟩ := (serve_turn shaken start conn).2 broken
    refine ⟨turnCalls ssl conn ++ [.accept sizeofSockaddr], by simpa using calls, ?_⟩
    intro buf len member
    have turn : .printf (.received buf len) ∈ turnCalls ssl conn := by simpa using member
    rw [(eq_of_received_mem turn).1]
    exact zeroed_shows conn.read

end Tls

section Relay

open Relay

variable {σ : Type} {s t : Relay.State σ} {pass : Pass σ} {side : Side} {cause : Option Cause}
  {tls : σ}

/-- The bytes at the front of the array that the count printed with it stands for. -/
def message (print : Print) : Chars := print.buffer.take print.count.toInt.toNat

/-- The messages from one party, as they were printed one after the other. -/
def messagesFrom (side : Side) (printed : List Print) : Chars :=
  (printed.filter fun print => print.side = side).flatMap message

/-- What was printed is what was forwarded, each time from an array cleared before the read. -/
structure Printed (s : Relay.State σ) : Prop where
  sent : ∀ side, messagesFrom side s.printed = s.sent side.other
  cleared : ∀ print ∈ s.printed, print.buffer = filled (message print)

/-- The message of a print is what was read. -/
theorem message_read (side : Side) (read : ReadResult bufferSize) :
    message ⟨side, read.result, filled read.data⟩ = read.data := take_filled read

/-- A block prints at most what it has just read, and only once that was forwarded. -/
theorem printed_of_block (block : Block pass side s cause t) (before : Printed s) : Printed t := by
  cases block with
  | skipped _ => exact before
  -- A block that leaves the loop neither sends nor prints.
  | unwritten _ _ _ => exact ⟨before.sent, before.cleared⟩
  | unread _ _ => exact ⟨before.sent, before.cleared⟩
  | forwarded _ _ _ =>
    have read := message_read side (answer pass side s)
    refine ⟨fun z => ?_, fun print member => ?_⟩
    · have earlier : (s.printed.filter fun print => print.side = z).flatMap message =
        s.sent z.other := before.sent z
      -- The message is the next one of its own party.
      by_cases here : side = z
      · subst here
        simp [messagesFrom, passedOn, earlier, read]
      · have there : z.other ≠ side.other := by
          intro same
          exact here (by simpa using (congrArg Side.other same).symm)
        simp [messagesFrom, passedOn, readIn, earlier, here, there]
    · -- The array was all zero before the read.
      rcases List.mem_append.mp member with earlier | now
      · exact before.cleared print earlier
      · rw [List.mem_singleton.mp now, read]

/-- So does a pass, for both parties. -/
theorem printed_of_body (body : Body pass s cause t) (before : Printed s) : Printed t := by
  have chosen : Printed (selected pass s) := ⟨before.sent, before.cleared⟩
  cases body with
  | selectFailed _ => exact chosen
  | timedOut _ => exact chosen
  | first block => exact printed_of_block block chosen
  | both block next => exact printed_of_block next (printed_of_block block chosen)

/-- And so does every run. -/
theorem printed_of_run {passes : List (Pass σ)}
    (run : (transfer tls).Run (begins tls) passes s) : Printed s := by
  refine run.preserves Printed (fun _ => True) ?_ (by simp) ⟨fun _ => rfl, by simp [begins]⟩
  intro s pass t _ before step
  obtain ⟨cause, u, body, rfl⟩ := body_of_step step
  -- Why the loop is left, if it is, is noted behind the pass.
  have after := printed_of_body body before
  exact ⟨after.sent, after.cleared⟩

/-- What was printed of a party is a beginning of what was read from it. -/
theorem messagesFrom_received {passes : List (Pass σ)}
    (run : (transfer tls).Run (begins tls) passes s) (side : Side) :
    messagesFrom side s.printed <+: s.received side := by
  rw [(printed_of_run run).sent side]
  rcases faithful_of_run run rfl fun _ => rfl with
    ⟨-, balanced⟩ | ⟨-, -, -, lost, -, -, -, balanced⟩
  · -- The loop goes on, and everything that was read was forwarded.
    exact ⟨[], by rw [List.append_nil, balanced side]⟩
  · -- The loop was left, and what was not forwarded was read last.
    exact ⟨lost side, (balanced side).symm⟩

/-- A message is shown by the array it was printed from unless it fills the array. -/
theorem print_shows_iff {passes : List (Pass σ)} (run : (transfer tls).Run (begins tls) passes s)
    {print : Print} (member : print ∈ s.printed) :
    print.buffer.Shows (message print) ↔
      (message print).length < bufferSize ∨ 0 ∈ message print := by
  rw [← Chars.shows_store_bzero_iff, ← filled, ← (printed_of_run run).cleared print member]

/--
Every program prints what it has just read, but the relay only if that has an end in its array.

The reader of the pipe reads one byte less than its array holds, and the arrays of the TLS client
and the TLS server hold one byte more than they read.
The relay clears its array before each read but lets the read fill it, and nothing ends a message
of that length unless it has a zero in it.
-/
theorem shows_received_iff {passes : List (Pass σ)}
    (run : (transfer tls).Run (begins tls) passes s) :
    FifoShows ∧ ClientShows ∧ ServerShows ∧
      (∀ side, messagesFrom side s.printed <+: s.received side) ∧
      ∀ print ∈ s.printed, (print.buffer.Shows (message print) ↔
        (message print).length < bufferSize ∨ 0 ∈ message print) :=
  ⟨fifo_shows, client_shows, server_shows, messagesFrom_received run,
    fun _ member => print_shows_iff run member⟩

/-- A short message in each direction is shown, also after a longer one in the other. -/
theorem shows_received_both_ways : ∃ passes s, (transfer ()).Run (begins ()) passes s ∧
    s.printed.map message = [[1, 2, 3], [4]] ∧
    ∀ print ∈ s.printed, print.buffer.Shows (message print) := by
  obtain ⟨s, run, passed⟩ := (transfer ()).exists_run_of_play (begins ())
    [bothReady (readOf [1, 2, 3] (by decide)) (readOf [4] (by decide)) fun side =>
      if side = .client then 1 else 3]
    (fun s => decide (s.printed.map message = [[1, 2, 3], [4]])) (by decide)
  have messages := of_decide_eq_true passed
  -- Neither message comes near the size of the array.
  have short : ∀ data ∈ s.printed.map message, data.length < bufferSize := by
    rw [messages]
    decide
  refine ⟨_, s, run, messages, fun print member => ?_⟩
  obtain ⟨-, -, -, -, shows⟩ := shows_received_iff run
  exact (shows print member).mpr (.inl (short _ (List.mem_map_of_mem member)))

/-- A message that fills the array of the relay and has no zero in it. -/
def full : ReadResult bufferSize :=
  readOf (List.replicate bufferSize 65) (by rw [List.length_replicate])

/-- A pass in which the client sends that message, and the server takes it. -/
def fullPass : Pass Unit where
  select := 1
  ready side := decide (side = .client)
  read _ _ := (full, ())
  write _ := full.result

/-- The relay prints its array with no zero in it after a read that fills it. -/
theorem full_message_unterminated :
    ∃ s, (transfer ()).Run (begins ()) [fullPass] s ∧
      ∃ print ∈ s.printed, print.count = 4096 ∧ 0 ∉ print.buffer := by
  have count : full.result = 4096 := congrArg Int32.ofNat List.length_replicate
  have positive : 0 < full.result := by
    rw [count]
    decide
  refine ⟨_, Machine.Step.run ⟨rfl, congrArg Except.ok
    (runPass_one .client rfl (fun _ => rfl) positive rfl)⟩,
    ⟨.client, full.result, filled full.data⟩, by simp [passedOn, fullPass], count, ?_⟩
  -- The message is as long as the array, and has no zero in it.
  rw [filled, Chars.zero_mem_store_bzero]
  simp [full, readOf]

end Relay

end LinuxPro.Receive
