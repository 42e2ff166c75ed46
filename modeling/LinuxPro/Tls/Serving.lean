import LinuxPro.Lib.Earlier
import LinuxPro.Tls.Server

/-! When the TLS server keeps serving: which handshakes it survives, and what it leaves behind. -/

namespace LinuxPro.Tls

variable {start s v : Server} {conn : Conn} {ssl : Nat}

/-- The array once the greeting has been copied into it. -/
def greeted : Chars := (Chars.bzero (maxBuf + 1)).strcpy greeting

/-- What is written to a client is the greeting. -/
theorem take_greeted : greeted.take greeted.strlen = greeting := by
  -- What is written is as long as the text in the array, which is the greeting itself.
  rw [Chars.take_strlen]
  exact Chars.text_strcpy _ (Chars.printable_of_all (by decide))

/-- The calls between the greeting and the label `finish`. -/
def exchange (ssl : Nat) (conn : Conn) : List Call :=
  if conn.written.toUInt32 ≤ 0 then [.printf (.sendFailed greeted)]
  else
    [.printf (.sendSucceeded greeted conn.written.toUInt32), .sslRead ssl maxBuf,
      .printf (if conn.read.result.toUInt32 > 0 then
        .received ((Chars.bzero (maxBuf + 1)).store conn.read.data) conn.read.result.toUInt32
      else .receiveFailed)]

/-- The calls of a session whose handshake did not return minus one. -/
def sessionCalls (ssl : Nat) (conn : Conn) : List Call :=
  [.sslNew ssl, .sslSetFd ssl conn.fd, .sslAccept ssl, .sslWrite ssl greeting] ++
    exchange ssl conn ++ [.sslShutdown ssl, .sslFree ssl, .close conn.fd]

/-- A session goes on to the next connection unless the handshake returned minus one. -/
theorem session_run (shaken : conn.handshake ≠ -1) (s : Server) :
    ∃ v, (session conn).run s = (.goOn, v) ∧ v.created = s.created + 1 ∧
      v.calls = s.calls ++ sessionCalls s.created conn := by
  have sent : ((Chars.bzero (maxBuf + 1)).strcpy greeting).take
      ((Chars.bzero (maxBuf + 1)).strcpy greeting).strlen = greeting := take_greeted
  -- The result of the write picks the way to `finish`, and that of the read the message.
  by_cases failed : conn.written.toUInt32 = 0
  · refine ⟨_, by simp [session, sslNew, call, setBuf, setLen, shaken, sent, failed]; rfl, ?_⟩
    simp [sessionCalls, exchange, failed, greeted]
  by_cases arrived : 0 < conn.read.result.toUInt32
  · refine ⟨_, by
      simp [session, sslNew, call, setBuf, setLen, shaken, sent, failed, arrived]; rfl, ?_⟩
    simp [sessionCalls, exchange, failed, arrived, greeted]
  · refine ⟨_, by
      simp [session, sslNew, call, setBuf, setLen, shaken, sent, failed, arrived]; rfl, ?_⟩
    simp [sessionCalls, exchange, failed, arrived, greeted]

/-- The calls the server makes between accepting a connection and the next `accept`. -/
def turnCalls (ssl : Nat) (conn : Conn) : List Call :=
  .printf (.gotConnection conn.fd) :: sessionCalls ssl conn

/-- With nothing left to accept the server waits. -/
theorem acceptLoop_nil (s : Server) :
    (acceptLoop []).run s = (.waiting,
      { s with len := sizeofSockaddr, calls := s.calls ++ [.accept sizeofSockaddr] }) := by
  simp [acceptLoop, setLen, call]
  rfl

/-- A session that goes on leads to the rest of the loop. -/
theorem acceptLoop_goOn (shaken : conn.handshake ≠ -1) (s : Server) :
    ∃ v, v.calls = s.calls ++ .accept sizeofSockaddr :: turnCalls s.created conn ∧
      ∀ rest, (acceptLoop (.connection conn :: rest)).run s = (acceptLoop rest).run v := by
  -- The session starts with the connection announced and the address length stored.
  obtain ⟨v, ran, -, calls⟩ := session_run shaken
    { s with
      len := conn.addrLen
      calls := s.calls ++ [.accept sizeofSockaddr, .printf (.gotConnection conn.fd)] }
  refine ⟨v, by simp [calls, turnCalls], fun rest => ?_⟩
  simp [acceptLoop, setLen, call, ran]
  rfl

/-- A handshake that returns minus one ends the loop. -/
theorem acceptLoop_leave (broken : conn.handshake = -1) (rest : List Incoming) (s : Server) :
    ((acceptLoop (.connection conn :: rest)).run s).1 = .returned := by
  simp [acceptLoop, session, sslNew, setLen, call, broken]
  rfl

/-- The loop gets past every connection whose handshake did not return minus one. -/
theorem acceptLoop_served {conns : List Conn} (shaken : ∀ conn ∈ conns, conn.handshake ≠ -1)
    (s : Server) :
    ∃ v, ∀ rest, (acceptLoop (conns.map .connection ++ rest)).run s = (acceptLoop rest).run v := by
  induction conns generalizing s with
  | nil => exact ⟨s, fun _ => rfl⟩
  | cons conn conns ih =>
    -- One turn leads to the state from which the remaining connections are served.
    obtain ⟨next, -, first⟩ := acceptLoop_goOn (shaken conn (by simp)) s
    obtain ⟨v, later⟩ := ih (fun c member => shaken c (by simp [member])) next
    refine ⟨v, fun rest => ?_⟩
    rw [List.map_cons, List.cons_append, first, later]

/-- The server once these connections were accepted one after the other. -/
def serve (start : Server) (conns : List Conn) : Status × Server :=
  (acceptLoop (conns.map .connection)).run start

/-- What the server owes to one connection, given the calls it makes on its behalf. -/
structure Serves (start : Server) (before : List Conn) (conn : Conn) (turn : List Call) :
    Prop where
  /-- The calls lie between the `accept` that returned the connection and the next one. -/
  calls : (serve start (before ++ [conn])).2.calls =
    (serve start before).2.calls ++ turn ++ [.accept sizeofSockaddr]
  /-- The server goes on to wait for the next connection. -/
  waits : (serve start (before ++ [conn])).1 = .waiting
  /-- The descriptor is closed exactly once, and no other is closed. -/
  closed : turn.count (.close conn.fd) = 1 ∧ ∀ fd, .close fd ∈ turn → fd = conn.fd
  /-- Every SSL object created is freed exactly once, and no other is freed. -/
  freed : ∀ ssl, turn.count (.sslFree ssl) = turn.count (.sslNew ssl)
  created : ∃ ssl, turn.count (.sslNew ssl) = 1
  /-- Nothing is sent or received before the handshake has succeeded. -/
  secured : ∀ ssl data size, .sslWrite ssl data ∈ turn ∨ .sslRead ssl size ∈ turn →
    conn.handshake = 1

/-- What the server owes to every connection of a sequence. -/
def KeepsServing (start : Server) (conns : List Conn) : Prop :=
  ∀ before conn after, conns = before ++ conn :: after → ∃ turn, Serves start before conn turn

/-- A turn closes its descriptor once, and frees once the one SSL object it creates. -/
theorem turnCalls_counts (ssl : Nat) (conn : Conn) :
    ((turnCalls ssl conn).count (.close conn.fd) = 1 ∧
      ∀ fd, .close fd ∈ turnCalls ssl conn → fd = conn.fd) ∧
    (∀ other, (turnCalls ssl conn).count (.sslFree other) =
      (turnCalls ssl conn).count (.sslNew other)) ∧
    (turnCalls ssl conn).count (.sslNew ssl) = 1 := by
  -- Both outcomes of the exchange only read and print.
  unfold turnCalls sessionCalls exchange
  split
  · simp [List.count_cons]
  · simp [List.count_cons]

/-- Every turn sends the greeting. -/
theorem turnCalls_writes (ssl : Nat) (conn : Conn) :
    .sslWrite ssl greeting ∈ turnCalls ssl conn := by
  simp [turnCalls, sessionCalls]

/-- With every earlier handshake in order, a connection is accepted where the server waits. -/
theorem serve_next {before : List Conn} (shaken : ∀ conn ∈ before, conn.handshake ≠ -1)
    (start : Server) :
    ∃ v, serve start before = (acceptLoop []).run v ∧
      ∀ conn, serve start (before ++ [conn]) = (acceptLoop [.connection conn]).run v := by
  obtain ⟨v, later⟩ := acceptLoop_served shaken start
  exact ⟨v, by simpa [serve] using later [],
    fun conn => by simpa [serve] using later [.connection conn]⟩

/-- With every earlier handshake in order, a connection gets its turn or ends the loop. -/
theorem serve_turn {before : List Conn} (shaken : ∀ conn ∈ before, conn.handshake ≠ -1)
    (start : Server) (conn : Conn) :
    (conn.handshake = -1 → (serve start (before ++ [conn])).1 = .returned) ∧
    (conn.handshake ≠ -1 → ∃ ssl,
      (serve start (before ++ [conn])).1 = .waiting ∧
      (serve start (before ++ [conn])).2.calls =
        (serve start before).2.calls ++ turnCalls ssl conn ++ [.accept sizeofSockaddr]) := by
  obtain ⟨v, waits, next⟩ := serve_next shaken start
  rw [waits, next conn]
  refine ⟨fun broken => acceptLoop_leave broken [] v, fun whole => ?_⟩
  -- The turn starts where the server was left waiting.
  obtain ⟨u, calls, goesOn⟩ := acceptLoop_goOn whole v
  refine ⟨v.created, ?_⟩
  rw [goesOn [], acceptLoop_nil, acceptLoop_nil]
  simp [calls]

/-- A connection that is served as it should be has succeeded in its handshake. -/
theorem Serves.handshake {before : List Conn} {turn : List Call}
    (shaken : ∀ conn ∈ before, conn.handshake ≠ -1) (serves : Serves start before conn turn) :
    conn.handshake = 1 := by
  -- The calls that were owed are compared with the calls that were made.
  obtain ⟨leaves, goesOn⟩ := serve_turn shaken start conn
  by_cases broken : conn.handshake = -1
  · have waits := serves.waits
    rw [leaves broken] at waits
    cases waits
  · -- The calls are those of a turn, and a turn sends the greeting.
    obtain ⟨ssl, -, calls⟩ := goesOn broken
    have same : turn = turnCalls ssl conn := by
      have both := serves.calls.symm.trans calls
      simpa using both
    subst same
    exact serves.secured ssl greeting 0 (.inl (turnCalls_writes ssl conn))

/-- A handshake that succeeded did not return minus one. -/
theorem ne_of_shaken (shaken : conn.handshake = 1) : conn.handshake ≠ -1 := by
  rw [shaken]
  decide

/--
The server keeps serving exactly as long as every handshake succeeds.

A handshake that returns minus one ends the loop and leaks its SSL object.
A handshake that fails with any other result is taken for a success, and the greeting is sent all the same.
-/
theorem keeps_serving_iff (start : Server) (conns : List Conn) :
    KeepsServing start conns ↔ ∀ conn ∈ conns, conn.handshake = 1 := by
  -- Up to the first handshake that fails, the loop is known to get to each connection.
  constructor
  · intro keeps
    refine forall_of_earlier fun before conn after split earlier => ?_
    obtain ⟨turn, serves⟩ := keeps before conn after split
    exact serves.handshake fun c member => ne_of_shaken (earlier c member)
  · intro shaken before conn after split
    have earlier : ∀ c ∈ before, c.handshake ≠ -1 := fun c member =>
      ne_of_shaken (shaken c (by simp [split, member]))
    have here : conn.handshake = 1 := shaken conn (by simp [split])
    obtain ⟨-, goesOn⟩ := serve_turn earlier start conn
    obtain ⟨ssl, waits, calls⟩ := goesOn (ne_of_shaken here)
    obtain ⟨closed, freed, created⟩ := turnCalls_counts ssl conn
    exact ⟨turnCalls ssl conn, calls, waits, closed, freed, ⟨ssl, created⟩, fun _ _ _ _ => here⟩

/-- One client whose handshake fails with minus one is enough to stop the server. -/
theorem failed_handshake_stops_server : ¬ ∀ start conns, KeepsServing start conns := by
  -- The server has returned, so it does not wait for the next connection.
  intro claim
  have keeps := claim ⟨0, [], 0, []⟩
    [⟨5, 16, -1, 14, ⟨-1, [], by decide, by decide⟩⟩]
  obtain ⟨turn, serves⟩ := keeps [] _ [] rfl
  have stopped : (serve ⟨0, [], 0, []⟩
      ([] ++ [⟨5, 16, -1, 14, ⟨-1, [], by decide, by decide⟩⟩])).1 = .returned := by rfl
  have waits := serves.waits
  rw [stopped] at waits
  cases waits

end LinuxPro.Tls
