import LinuxPro.Tls.Serving

/-! Which results of OpenSSL the server takes for what they are, through an unsigned variable. -/

namespace LinuxPro.Tls

variable {start s : Server} {conn : Conn} {before : List Conn} {ssl : Nat} {turn : List Call}

/-- What the server should make of the results on a connection, given the calls of its turn. -/
structure Classified (conn : Conn) (turn : List Call) : Prop where
  /-- A failure to send is reported after a result that is not positive. -/
  failed : (∃ buf, .printf (.sendFailed buf) ∈ turn) ↔ conn.written ≤ 0
  /-- Success is reported after a positive result. -/
  succeeded : (∃ buf len, .printf (.sendSucceeded buf len) ∈ turn) ↔ 0 < conn.written
  /-- Nothing is read unless the write succeeded. -/
  reads : (∃ ssl size, .sslRead ssl size ∈ turn) ↔ 0 < conn.written
  /-- Data is reported after a read with a positive result. -/
  received : (∃ buf len, .printf (.received buf len) ∈ turn) ↔
    0 < conn.written ∧ 0 < conn.read.result
  /-- Every way through the session leads to its cleanup. -/
  cleans : ∃ ssl calls, turn = calls ++ [.sslShutdown ssl, .sslFree ssl, .close conn.fd]

/-- What the server should make of all results in a sequence of connections. -/
structure Classifies (start : Server) (conns : List Conn) : Prop where
  /-- Each connection that is reached and shakes hands is classified by the calls of its turn. -/
  turns : ∀ before conn after, conns = before ++ conn :: after →
    (serve start before).1 = .waiting → conn.handshake = 1 →
    ∃ turn, (serve start (before ++ [conn])).2.calls =
      (serve start before).2.calls ++ turn ++ [.accept sizeofSockaddr] ∧ Classified conn turn
  /-- Whatever a session has left in the variable, each `accept` is given the size again. -/
  accepts : ∃ calls, (serve start conns).2.calls = start.calls ++ calls ∧
    ∀ len, .accept len ∈ calls → len = sizeofSockaddr

/-- A signed result is zero exactly if it is zero as an unsigned one. -/
theorem toUInt32_eq_zero_iff (result : Int32) : result.toUInt32 = 0 ↔ result = 0 := by
  constructor
  · -- The conversion keeps the bits.
    intro zero
    cases result
    cases zero
    rfl
  · rintro rfl
    rfl

/-- The unsigned comparisons tell only zero from the rest. -/
theorem turnCalls_classifies (ssl : Nat) (conn : Conn) :
    ((∃ buf, .printf (.sendFailed buf) ∈ turnCalls ssl conn) ↔ conn.written = 0) ∧
    ((∃ buf len, .printf (.sendSucceeded buf len) ∈ turnCalls ssl conn) ↔ conn.written ≠ 0) ∧
    ((∃ ssl' size, .sslRead ssl' size ∈ turnCalls ssl conn) ↔ conn.written ≠ 0) ∧
    ((∃ buf len, .printf (.received buf len) ∈ turnCalls ssl conn) ↔
      conn.written ≠ 0 ∧ conn.read.result ≠ 0) := by
  have write := toUInt32_eq_zero_iff conn.written
  have read := toUInt32_eq_zero_iff conn.read.result
  -- The two results pick one of the three lists of calls between the greeting and the cleanup.
  by_cases failed : conn.written.toUInt32 = 0
  · simp [turnCalls, sessionCalls, exchange, ← write, failed]
  by_cases nothing : conn.read.result.toUInt32 = 0
  · simp [turnCalls, sessionCalls, exchange, ← write, ← read, failed, nothing]
  · have arrived : 0 < conn.read.result.toUInt32 := UInt32.pos_iff_ne_zero.mpr nothing
    simp [turnCalls, sessionCalls, exchange, ← write, ← read, failed, nothing, arrived]

/-- A turn ends in the cleanup. -/
theorem turnCalls_cleans (ssl : Nat) (conn : Conn) :
    ∃ ssl' calls, turnCalls ssl conn =
      calls ++ [.sslShutdown ssl', .sslFree ssl', .close conn.fd] :=
  ⟨ssl, .printf (.gotConnection conn.fd) :: .sslNew ssl :: .sslSetFd ssl conn.fd ::
    .sslAccept ssl :: .sslWrite ssl greeting :: exchange ssl conn, by
    simp [turnCalls, sessionCalls]⟩

/-- A result is positive, zero or negative as an integer. -/
theorem result_cases (result : Int32) :
    (result = 0 ↔ result.toInt = 0) ∧ (result ≤ 0 ↔ result.toInt ≤ 0) ∧
      (0 < result ↔ 0 < result.toInt) ∧ (0 ≤ result ↔ 0 ≤ result.toInt) := by
  refine ⟨?_, Int32.le_iff_toInt_le, Int32.lt_iff_toInt_lt, Int32.le_iff_toInt_le⟩
  rw [← Int32.toInt_inj]
  rfl

/-- The calls of a turn classify its results exactly if no negative one was looked at. -/
theorem classified_turnCalls_iff (ssl : Nat) (conn : Conn) :
    Classified conn (turnCalls ssl conn) ↔
      0 ≤ conn.written ∧ (0 < conn.written → 0 ≤ conn.read.result) := by
  obtain ⟨failed, succeeded, reads, received⟩ := turnCalls_classifies ssl conn
  obtain ⟨zero, atMost, positive, atLeast⟩ := result_cases conn.written
  obtain ⟨zero', _, positive', atLeast'⟩ := result_cases conn.read.result
  constructor
  · intro classified
    -- The reports tell zero from the rest, and should tell positive from the rest.
    have written := failed.symm.trans classified.failed
    have read := received.symm.trans classified.received
    rw [zero, atMost] at written
    rw [ne_eq, ne_eq, zero, zero', positive, positive'] at read
    rw [atLeast, positive, atLeast']
    omega
  · rintro ⟨writes, looks⟩
    rw [atLeast] at writes
    rw [positive, atLeast'] at looks
    refine ⟨failed.trans ?_, succeeded.trans ?_, reads.trans ?_, received.trans ?_,
      turnCalls_cleans ssl conn⟩
    · rw [zero, atMost]
      omega
    · rw [ne_eq, zero, positive]
      omega
    · rw [ne_eq, zero, positive]
      omega
    · rw [ne_eq, ne_eq, zero, zero', positive, positive']
      omega

/-- The only `accept` of a turn is the one that precedes it. -/
theorem accept_not_mem_turnCalls (ssl : Nat) (conn : Conn) (len : UInt32) :
    .accept len ∉ turnCalls ssl conn := by
  unfold turnCalls sessionCalls exchange
  split <;> simp

/-- The calls for a connection that ends the loop. -/
def leaveCalls (ssl : Nat) (conn : Conn) : List Call :=
  [.printf (.gotConnection conn.fd), .sslNew ssl, .sslSetFd ssl conn.fd, .sslAccept ssl,
    .perror "accept", .close conn.fd, .closeListener, .sslCtxFree]

/-- A handshake that returns minus one is followed by the calls that end the loop. -/
theorem acceptLoop_leave_calls (broken : conn.handshake = -1) (rest : List Incoming) (s : Server) :
    ((acceptLoop (.connection conn :: rest)).run s).2.calls =
      s.calls ++ .accept sizeofSockaddr :: leaveCalls s.created conn := by
  simp [acceptLoop, session, sslNew, setLen, call, broken, leaveCalls]
  rfl

/-- What holds of the calls for every connection holds of all calls that are made. -/
theorem serve_calls {holds : Call → Prop} (accepts : holds (.accept sizeofSockaddr))
    (turns : ∀ ssl conn, ∀ made ∈ turnCalls ssl conn, holds made)
    (leaves : ∀ ssl conn, ∀ made ∈ leaveCalls ssl conn, holds made) (conns : List Conn)
    (start : Server) :
    ∃ calls, (serve start conns).2.calls = start.calls ++ calls ∧ ∀ made ∈ calls, holds made := by
  -- Each turn makes one `accept`, and the loop may end after any of them.
  induction conns generalizing start with
  | nil => exact ⟨[.accept sizeofSockaddr], by simp [serve, acceptLoop_nil], by simpa using accepts⟩
  | cons conn conns ih =>
    by_cases broken : conn.handshake = -1
    · -- No later connection is accepted.
      refine ⟨_, acceptLoop_leave_calls broken (conns.map .connection) start, ?_⟩
      exact List.forall_mem_cons.mpr ⟨accepts, leaves _ _⟩
    · -- The others are served from the state that this turn leaves.
      obtain ⟨next, made, goesOn⟩ := acceptLoop_goOn broken start
      obtain ⟨calls, later, rest⟩ := ih next
      have same : serve start (conn :: conns) = serve next conns := goesOn _
      refine ⟨.accept sizeofSockaddr :: turnCalls start.created conn ++ calls, ?_, ?_⟩
      · rw [same, later, made, List.append_assoc]
      · exact List.forall_mem_append.mpr ⟨List.forall_mem_cons.mpr ⟨accepts, turns _ _⟩, rest⟩

/-- Every `accept` is given the size of an address, whatever the variable held before. -/
theorem serve_accepts (conns : List Conn) (start : Server) :
    ∃ calls, (serve start conns).2.calls = start.calls ++ calls ∧
      ∀ len, .accept len ∈ calls → len = sizeofSockaddr := by
  have each : ∃ calls, (serve start conns).2.calls = start.calls ++ calls ∧
      ∀ made ∈ calls, ∀ len, made = .accept len → len = sizeofSockaddr := by
    refine serve_calls (by simp) (fun ssl conn made member len same => ?_) ?_ conns start
    · exact absurd (same ▸ member) (accept_not_mem_turnCalls ssl conn len)
    · simp [leaveCalls]
  obtain ⟨calls, made, sizes⟩ := each
  exact ⟨calls, made, fun len member => sizes _ member len rfl⟩

/-- The server waits after a sequence of connections exactly if it got past all of them. -/
theorem serve_waits_iff (start : Server) (conns : List Conn) :
    (serve start conns).1 = .waiting ↔ ∀ conn ∈ conns, conn.handshake ≠ -1 := by
  induction conns generalizing start with
  | nil => simp [serve, acceptLoop_nil]
  | cons conn conns ih =>
    by_cases broken : conn.handshake = -1
    · have left := acceptLoop_leave broken (conns.map .connection) start
      simp [serve, left, broken]
    · obtain ⟨next, -, goesOn⟩ := acceptLoop_goOn broken start
      have same : serve start (conn :: conns) = serve next conns := goesOn _
      simp [same, ih, broken]

/-- A server that takes results for what they are was given none that is negative. -/
theorem Classifies.results {start : Server} {conns : List Conn}
    (classifies : Classifies start conns) :
    ∀ before conn after, conns = before ++ conn :: after →
      (∀ earlier ∈ before, earlier.handshake ≠ -1) → conn.handshake = 1 →
      0 ≤ conn.written ∧ (0 < conn.written → 0 ≤ conn.read.result) := by
  intro before conn after split reached shaken
  obtain ⟨turn, made, classified⟩ := classifies.turns before conn after split
    ((serve_waits_iff start before).mpr reached) shaken
  -- The calls of the turn are those that a session makes.
  obtain ⟨ssl, -, calls⟩ := (serve_turn reached start conn).2 (ne_of_shaken shaken)
  have same : turn = turnCalls ssl conn := by simpa using made.symm.trans calls
  rw [same] at classified
  exact (classified_turnCalls_iff ssl conn).mp classified

/--
The server takes results for what they are exactly if none of those it looks at is negative.

A negative result becomes a large unsigned one, so that a write that failed counts as a success and
a read that failed counts as data.
-/
theorem classifies_iff (start : Server) (conns : List Conn) :
    Classifies start conns ↔ ∀ before conn after, conns = before ++ conn :: after →
      (∀ earlier ∈ before, earlier.handshake ≠ -1) → conn.handshake = 1 →
      0 ≤ conn.written ∧ (0 < conn.written → 0 ≤ conn.read.result) := by
  constructor
  · exact Classifies.results
  · intro results
    refine ⟨fun before conn after split waits shaken => ?_, serve_accepts conns start⟩
    have reached := (serve_waits_iff start before).mp waits
    obtain ⟨ssl, -, calls⟩ := (serve_turn reached start conn).2 (ne_of_shaken shaken)
    exact ⟨turnCalls ssl conn, calls, (classified_turnCalls_iff ssl conn).mpr
      (results before conn after split reached shaken)⟩

/-- A connection on which the write fails. -/
def unwritable : Conn where
  fd := 5
  addrLen := 16
  handshake := 1
  written := -1
  read := ⟨-1, [], by decide, by decide⟩

/-- A write that failed is reported as a success, and so is the read that follows. -/
theorem failed_write_reported_as_success :
    (serve ⟨0, [], 0, []⟩ [unwritable]).2.calls =
      [.accept 16, .printf (.gotConnection 5), .sslNew 0, .sslSetFd 0 5, .sslAccept 0,
        .sslWrite 0 greeting, .printf (.sendSucceeded greeted 4294967295), .sslRead 0 maxBuf,
        .printf (.received (.bzero (maxBuf + 1)) 4294967295), .sslShutdown 0, .sslFree 0, .close 5,
        .accept 16] ∧
      ¬ Classifies ⟨0, [], 0, []⟩ [unwritable] := by
  constructor
  · have shaken : unwritable.handshake ≠ -1 := by decide
    obtain ⟨next, made, goesOn⟩ := acceptLoop_goOn shaken ⟨0, [], 0, []⟩
    have last : serve ⟨0, [], 0, []⟩ [unwritable] = (acceptLoop []).run next := goesOn []
    -- Both results are minus one, which the variable holds as the largest unsigned number.
    have minusOne : (-1 : Int32).toUInt32 = 4294967295 := by decide
    rw [last, acceptLoop_nil]
    simp [made, turnCalls, sessionCalls, exchange, unwritable, minusOne, sizeofSockaddr,
      Chars.store]
  · -- The connection is the first one, and its handshake succeeds.
    intro classifies
    obtain ⟨written, _⟩ := classifies.results [] unwritable [] rfl (by simp) rfl
    exact absurd written (by decide)

end LinuxPro.Tls
