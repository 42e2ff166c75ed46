import LinuxPro.Event.Bufferevent
import LinuxPro.Lib.Fault

/-! What each bufferevent call does to the memory when its pointers are live. -/

namespace LinuxPro

variable {Ptr DataCb EventCb : Type}

namespace World

variable (w : World Ptr DataCb EventCb) (call : Call Ptr DataCb EventCb)

-- Entering a callback only adds to the record of calls.

@[simp] theorem enter_heap : (w.enter call).heap = w.heap := rfl

@[simp] theorem enter_received : (w.enter call).received = w.received := rfl

@[simp] theorem enter_sent : (w.enter call).sent = w.sent := rfl

@[simp] theorem enter_freed : (w.enter call).freed = w.freed := rfl

@[simp] theorem enter_calls : (w.enter call).calls = call :: w.calls := rfl

variable [DecidableEq Ptr] (p q : Ptr) (b c : Bufferevent Ptr DataCb EventCb)

/-- Storing changes the one pointer it is given. -/
@[simp] theorem put_heap : (w.put p b).heap q = if q = p then some b else w.heap q := by
  -- The updated function is read at an arbitrary pointer.
  simp [put, Function.update_apply]

/-- What was stored is found under its pointer. -/
theorem put_heap_self : (w.put p b).heap p = some b := by
  simp

/-- Releasing changes the one pointer it is given. -/
@[simp] theorem drop_heap : (w.drop p).heap q = if q = p then none else w.heap q := by
  simp [drop, Function.update_apply]

variable {w p q b c}

/-- What is live after something was stored is that, or was live before. -/
theorem live_of_put (live : (w.put p b).heap q = some c) :
    q = p ∧ b = c ∨ w.heap q = some c := by
  by_cases here : q = p
  · exact .inl ⟨here, by simpa [here] using live⟩
  · exact .inr (by simpa [here] using live)

/-- What is live after something was released is something else that was live before. -/
theorem live_of_drop (live : (w.drop p).heap q = some c) : q ≠ p ∧ w.heap q = some c := by
  by_cases here : q = p
  · simp [here] at live
  · exact ⟨here, by simpa [here] using live⟩

variable (w p q b c)

-- Neither storing nor releasing touches the history, except that a release is recorded.

@[simp] theorem put_accepted : (w.put p b).accepted = w.accepted := rfl

@[simp] theorem put_received : (w.put p b).received = w.received := rfl

@[simp] theorem put_sent : (w.put p b).sent = w.sent := rfl

@[simp] theorem put_freed : (w.put p b).freed = w.freed := rfl

@[simp] theorem put_calls : (w.put p b).calls = w.calls := rfl

@[simp] theorem drop_accepted : (w.drop p).accepted = w.accepted := rfl

@[simp] theorem drop_received : (w.drop p).received = w.received := rfl

@[simp] theorem drop_sent : (w.drop p).sent = w.sent := rfl

@[simp] theorem drop_freed : (w.drop p).freed = p :: w.freed := rfl

@[simp] theorem drop_calls : (w.drop p).calls = w.calls := rfl

/-- A later store under the same pointer wins. -/
@[simp] theorem put_put : (w.put p b).put p c = w.put p c := by
  simp [put]

/-- What was stored last is irrelevant once the pointer is released. -/
@[simp] theorem drop_put : (w.put p b).drop p = w.drop p := by
  simp [put, drop]

/-- A later store under the same pointer wins, also with another pointer's store between. -/
theorem put_put_put {p q : Ptr} (apart : p ≠ q) (d : Bufferevent Ptr DataCb EventCb) :
    ((w.put p b).put q c).put p d = (w.put p d).put q c := by
  simp [put, Function.update_comm apart]

/-- A store is forgotten by a later release, also with another pointer's store between. -/
theorem drop_put_put {p q : Ptr} (apart : p ≠ q) :
    ((w.put p b).put q c).drop p = (w.put q c).drop p := by
  simp [put, drop, Function.update_comm apart]

/-- A store is forgotten by a later release, also with another pointer's release between. -/
theorem drop_drop_put {p q : Ptr} (apart : p ≠ q) :
    ((w.put p b).drop q).drop p = (w.drop q).drop p := by
  simp [put, drop, Function.update_comm apart]

/-- The order of a store and of the entry of a callback is not observable. -/
theorem enter_put : (w.put p b).enter call = (w.enter call).put p b := rfl

end World

/-- No bufferevent is released twice, and none that was released is live. -/
structure World.Lifetimes (w : World Ptr DataCb EventCb) : Prop where
  once : w.freed.Nodup
  dead : ∀ p ∈ w.freed, w.heap p = none

section Lifetimes

variable {w : World Ptr DataCb EventCb} {p : Ptr} {b : Bufferevent Ptr DataCb EventCb}

/-- Entering a callback releases nothing. -/
theorem World.Lifetimes.enter (lives : w.Lifetimes) (call : Call Ptr DataCb EventCb) :
    (w.enter call).Lifetimes :=
  ⟨lives.once, lives.dead⟩

/-- A live bufferevent has not been released. -/
theorem World.Lifetimes.unfreed (lives : w.Lifetimes) (live : w.heap p = some b) :
    p ∉ w.freed := by
  intro member
  cases live.symm.trans (lives.dead p member)

variable [DecidableEq Ptr]

/-- Writing to a bufferevent that was not released keeps the released ones dead. -/
theorem World.Lifetimes.put (lives : w.Lifetimes) (unfreed : p ∉ w.freed)
    (c : Bufferevent Ptr DataCb EventCb) : (w.put p c).Lifetimes where
  once := lives.once
  dead q member := by
    have other : q ≠ p := fun same => unfreed (same ▸ member)
    simp [other, lives.dead q member]

/-- Releasing a live bufferevent releases it for the first time. -/
theorem World.Lifetimes.drop (lives : w.Lifetimes) (live : w.heap p = some b) :
    (w.drop p).Lifetimes where
  once := List.nodup_cons.mpr ⟨lives.unfreed live, lives.once⟩
  dead q member := by
    rcases List.mem_cons.mp member with rfl | member
    · simp
    · simp [lives.dead q member]

end Lifetimes

variable (w : World Ptr DataCb EventCb) (p : Ptr)

/-- Reading through a pointer gives the live bufferevent it leads to. -/
@[simp] theorem deref_run :
    (deref p).run w = (w.heap p).elim (.error (.useAfterFree p)) fun b => .ok (b, w) := by
  -- Only a pointer to nothing faults.
  cases live : w.heap p <;> simp [deref, live]

/-- A data callback entered on a live bufferevent is recorded with the input it finds. -/
@[simp] theorem enterData_run (cb : DataCb) (ctx : Option Ptr) :
    (enterData cb p ctx).run w = (w.heap p).elim (.error (.useAfterFree p)) fun b =>
      .ok ((), w.enter (.data cb p ctx b.input.length)) := by
  simp only [enterData, StateT.run_bind, deref_run]
  cases w.heap p <;> rfl

/-- An event callback entered on a live bufferevent is recorded with its reports. -/
@[simp] theorem enterEvent_run (cb : EventCb) (what : BevEvents) (ctx : Option Ptr) :
    (enterEvent cb p what ctx).run w = (w.heap p).elim (.error (.useAfterFree p)) fun _ =>
      .ok ((), w.enter (.event cb p what ctx)) := by
  simp only [enterEvent, StateT.run_bind, deref_run]
  cases w.heap p <;> rfl

/-- The bytes of a queue are read through the pointer of its bufferevent. -/
@[simp] theorem evbufferBytes_run (buf : Evbuffer Ptr) :
    (evbufferBytes buf).run w = match buf with
      | .input p => (w.heap p).elim (.error (.useAfterFree p)) fun b => .ok (b.input, w)
      | .output p => (w.heap p).elim (.error (.useAfterFree p)) fun b => .ok (b.output, w) := by
  -- Either queue is a field of the bufferevent that the pointer leads to.
  cases buf with
  | input p =>
    simp only [evbufferBytes, StateT.run_bind, deref_run]
    cases w.heap p <;> rfl
  | output p =>
    simp only [evbufferBytes, StateT.run_bind, deref_run]
    cases w.heap p <;> rfl

/-- Referring to the input queue needs a live bufferevent. -/
@[simp] theorem buffereventGetInput_run :
    (buffereventGetInput p).run w = (w.heap p).elim (.error (.useAfterFree p)) fun _ =>
      .ok (.input p, w) := by
  simp only [buffereventGetInput, StateT.run_bind, deref_run]
  cases w.heap p <;> rfl

/-- Referring to the output queue needs a live bufferevent. -/
@[simp] theorem buffereventGetOutput_run :
    (buffereventGetOutput p).run w = (w.heap p).elim (.error (.useAfterFree p)) fun _ =>
      .ok (.output p, w) := by
  simp only [buffereventGetOutput, StateT.run_bind, deref_run]
  cases w.heap p <;> rfl

variable [DecidableEq Ptr]

/-- Writing through a live pointer stores the changed bufferevent. -/
@[simp] theorem update_run
    (f : Bufferevent Ptr DataCb EventCb → Bufferevent Ptr DataCb EventCb) :
    (update p f).run w = (w.heap p).elim (.error (.useAfterFree p)) fun b =>
      .ok ((), w.put p (f b)) := by
  simp only [update, StateT.run_bind, deref_run]
  cases w.heap p <;> rfl

/-- Only a live bufferevent can be released. -/
@[simp] theorem buffereventFree_run :
    (buffereventFree p).run w = (w.heap p).elim (.error (.doubleFree p)) fun _ =>
      .ok ((), w.drop p) := by
  cases live : w.heap p <;> simp [buffereventFree, live]

end LinuxPro
