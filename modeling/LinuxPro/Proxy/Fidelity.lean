import LinuxPro.Proxy.Invariant

/-! The proxy relays every byte once and in order, and gives up bytes only for a side that left. -/

namespace LinuxPro.Proxy

variable {w v : State} {x y : Ptr} {a b : Bev}

/-- Two live ends of a pair relay to each other. -/
theorem PairOk.of_both (ok : PairOk w x y) (near : w.heap x = some a) (far : w.heap y = some b) :
    Opened w x y a b := by
  -- Every other state of the pair has lost at least one of its ends.
  rcases ok.of_live near with ⟨b', opened⟩ | draining
  · cases far.symm.trans opened.far
    exact opened
  · cases far.symm.trans draining.gone

/-- What was written to one end is always the beginning of what was read from the other. -/
theorem PairOk.sent_leads (ok : PairOk w x y) : w.sent y <+: w.received x := by
  -- In an open pair this follows from the queues, and elsewhere it is part of the state.
  rcases ok with ⟨a, b, opened⟩ | ⟨b, draining⟩ | ⟨a, draining⟩ | finished
  · exact opened.forth.sound.sent_leads
  · exact ⟨b.output, draining.whole.symm⟩
  · exact draining.back
  · exact finished.forth.1

/--
While both ends are live, every byte read from one is written, queued for writing, or unread.

The three parts appear in the order in which the bytes arrived.
Nothing else is ever written to the other end, whether or not both are still live.
-/
theorem relay_fidelity (reached : proxy.Reachable w) (x : Ptr) :
    (∀ a b, w.heap x = some a → w.heap x.peer = some b →
      w.sent x.peer ++ b.output ++ a.input = w.received x) ∧
      w.sent x.peer <+: w.received x := by
  have ok := (ok_reachable reached).pairs x
  refine ⟨?_, ok.sent_leads⟩
  intro a b near far
  exact (ok.of_both near far).forth.sound.whole.symm

/-- The client's end of the first accepted connection. -/
def firstIn : Ptr := ⟨0, .bIn⟩

/-- The server's end of the first accepted connection. -/
def firstOut : Ptr := ⟨0, .bOut⟩

/-- Five bytes on their way: two written, one queued for writing, and two still unread. -/
theorem relay_fidelity_on_the_way : ∃ w a b, proxy.Reachable w ∧
    w.heap firstIn = some a ∧ w.heap firstOut = some b ∧
    w.sent firstOut = [1, 2] ∧ b.output = [3] ∧ a.input = [4, 5] ∧
    w.sent firstOut ++ b.output ++ a.input = w.received firstIn := by
  -- Bytes are unread, queued and sent at the same time.
  obtain ⟨w, run, passed⟩ := proxy.exists_run_of_play proxy.start
    [.accept true, .receive firstIn [1, 2, 3], .dispatch firstIn, .send firstOut 2,
      .receive firstIn [4, 5]]
    (fun w => decide (w.sent firstOut = [1, 2]) &&
      (w.heap firstIn).any (fun a : Bev => decide (a.input = [4, 5])) &&
      (w.heap firstOut).any (fun b : Bev => decide (b.output = [3]))) (by decide)
  simp only [Bool.and_eq_true, decide_eq_true_eq, Option.any_eq_true] at passed
  obtain ⟨⟨sent, a, near, input⟩, b, far, output⟩ := passed
  exact ⟨w, a, b, ⟨_, run⟩, near, far, sent, output, input,
    (relay_fidelity ⟨_, run⟩ firstIn).1 a b near far⟩

/-- The output queue of a bufferevent, which is empty once the bufferevent is released. -/
def outputOf (w : State) (x : Ptr) : Bytes :=
  (w.heap x).elim [] fun b => b.output

/-- The input queue of a bufferevent, which is empty once the bufferevent is released. -/
def inputOf (w : State) (x : Ptr) : Bytes :=
  (w.heap x).elim [] fun b => b.input

/--
Bytes on their way to a side are never given up before that side itself has hung up.

Until its own end of file or error has been handled, everything read from its partner is written to it or still queued in a live bufferevent.
A side that was released without hanging up has therefore been sent everything.
-/
theorem kept_until_hangup (reached : proxy.Reachable w) (x : Ptr) (stays : ¬ HungUp w x.peer) :
    w.received x = w.sent x.peer ++ outputOf w x.peer ++ inputOf w x := by
  have ok := (ok_reachable reached).pairs x
  rcases ok with ⟨a, b, opened⟩ | ⟨b, draining⟩ | ⟨a, draining⟩ | finished
  · simpa [outputOf, inputOf, flow, opened.near, opened.far] using opened.forth.sound.whole
  · simpa [outputOf, inputOf, draining.gone, draining.live] using draining.whole
  -- A side that left its partner behind has hung up.
  · exact absurd draining.hung stays
  · have settled := finished.forth.2.resolve_left stays
    simpa [outputOf, inputOf, finished.near, finished.far] using settled

/-- After the server hangs up, the client is still sent what had been read from the server. -/
theorem kept_until_hangup_flushing : ∃ w, proxy.Reachable w ∧ w.heap firstOut = none ∧
    outputOf w firstIn = [8] ∧
    w.received firstOut = w.sent firstIn ++ outputOf w firstIn ++ inputOf w firstOut := by
  -- One of the server's two bytes is still queued when its end of file is dispatched.
  obtain ⟨w, run, passed⟩ := proxy.exists_run_of_play proxy.start
    [.accept true, .receive firstOut [7, 8], .dispatch firstOut, .send firstIn 1,
      .report firstOut { eof := true } evRead, .dispatch firstOut]
    (fun w => (w.heap firstOut).isNone && decide (outputOf w firstIn = [8]) &&
      w.calls.all fun
        | .event _ p _ _ => decide (p ≠ firstIn)
        | .data .. => true) (by decide)
  simp only [Bool.and_eq_true, Option.isNone_iff_eq_none, decide_eq_true_eq, List.all_eq_true]
    at passed
  obtain ⟨⟨gone, output⟩, silent⟩ := passed
  refine ⟨w, ⟨_, run⟩, gone, output, kept_until_hangup ⟨_, run⟩ firstOut ?_⟩
  rintro ⟨what, ctx, member, -⟩
  simpa [firstOut, firstIn, Ptr.peer] using silent _ member

/--
An end of file alone already costs bytes: the peer that finished sending is not sent the rest.

Here the server's bytes are queued for a client that closes its sending direction, and are dropped.
-/
theorem half_close_drops_output : ¬ ∀ actions w, proxy.Run proxy.start actions w →
    (∀ x what stopped, Action.report x what stopped ∈ actions → what.error = false) →
    ∀ x, w.received x = w.sent x.peer ++ outputOf w x.peer ++ inputOf w x := by
  -- A byte is queued for the client when its end of file is dispatched.
  intro claim
  obtain ⟨w, run, passed⟩ := proxy.exists_run_of_play proxy.start
    [.accept true, .receive firstOut [7], .dispatch firstOut,
      .report firstIn { eof := true } evRead, .dispatch firstIn]
    (fun w => decide (w.received firstOut = [7] ∧ w.sent firstIn = [] ∧
      outputOf w firstIn = [] ∧ inputOf w firstOut = [])) (by decide)
  have errorless : ∀ x what stopped, Action.report x what stopped ∈ [Action.accept true,
      .receive firstOut [7], .dispatch firstOut, .report firstIn { eof := true } evRead,
      .dispatch firstIn] → what.error = false := by
    simp only [List.mem_cons, reduceCtorEq, false_or, Action.report.injEq, List.not_mem_nil,
      or_false]
    rintro x what stopped ⟨-, rfl, -⟩
    rfl
  have account := claim _ w run errorless firstOut
  simp only [decide_eq_true_eq] at passed
  obtain ⟨received, sent, output, input⟩ := passed
  rw [show firstOut.peer = firstIn from rfl, received, sent, output, input] at account
  cases account

end LinuxPro.Proxy
