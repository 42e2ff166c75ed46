import LinuxPro.Json.Grammar
import LinuxPro.Json.Parser

/-!
What a callback makes of the tree of a text.

A callback is asked about each value of the tree in the order of the text. Its answers decide what
is kept, and what it leaves of a value is what goes into the result.
-/

namespace LinuxPro.Json

section Visit

variable {World : Type} (callback : Option (Callback World))

/-- The answer of a callback, by the depth and its own state. Without one everything is kept. -/
def ask (event : ParseEvent) (value : BasicJson) : StateM (Int × World) (Bool × BasicJson) :=
  fun state =>
    match callback with
    | none => ((true, value), state)
    | some callback =>
      -- The callback is told the depth, and its own state is threaded through.
      let answer := callback state.2 state.1 event value
      ((answer.1, answer.2.1), (state.1, answer.2.2))

/-- A step in or out of a container, which is counted for the callback. -/
def deepen (levels : Int) : StateM (Int × World) Unit := fun state =>
  match callback with
  | none => ((), state)
  | some _ => ((), (state.1 + levels, state.2))

/-- What an answer leaves of a value. -/
def keepIf (answer : Bool × BasicJson) : BasicJson := if answer.1 then answer.2 else .discarded

/-- The question that comes behind every value. -/
def report (value : BasicJson) : StateM (Int × World) BasicJson := do
  return keepIf (← ask callback .value value)

/-- The question at the end of a container. -/
def askEnd (event : ParseEvent) (built : BasicJson) : StateM (Int × World) BasicJson := do
  -- The step out comes before the question, so that both ends have one depth.
  deepen callback (-1)
  return keepIf (← ask callback event built)

/-- Whether there is something left of a value. -/
def isKept (value : BasicJson) : Bool := !value.isDiscarded

mutual

/--
What goes on inside a container that was refused.

Nothing in it is asked about, except that the end of an empty array is told all the same.
-/
def pass : BasicJson → StateM (Int × World) Unit
  | .object entries => passMembers entries
  | .array elements => do
    -- The parser tests for the closing bracket before it looks whether the array is kept.
    if elements.isEmpty then
      let _ ← askEnd callback .arrayEnd .discarded
    else passElements elements
  | _ => return ()

/-- What goes on at the members of an object that was refused. -/
def passMembers : List (Chars × BasicJson) → StateM (Int × World) Unit
  | [] => return ()
  | (_, tree) :: rest => do
    pass tree
    passMembers rest

/-- What goes on at the elements of an array that was refused. -/
def passElements : List BasicJson → StateM (Int × World) Unit
  | [] => return ()
  | tree :: rest => do
    pass tree
    passElements rest

end

mutual

/--
What becomes of a tree.

The start of a container decides whether it is gone through. If so, its end and then the whole
value are asked about. If not, the callback has the last word on what stands in its place, the
step in is not taken back, and an empty array has its end told nevertheless.
-/
def visit : BasicJson → StateM (Int × World) BasicJson
  | .object entries => do
    let (keep, seen) ← ask callback .objectStart .discarded
    deepen callback 1
    if keep then
      let kept ← visitMembers entries
      report callback (← askEnd callback .objectEnd (.object (SortedMap.firsts kept)))
    else
      -- The members are gone through, as the parser has to find the end.
      passMembers callback entries
      return seen
  | .array elements => do
    let (keep, seen) ← ask callback .arrayStart .discarded
    deepen callback 1
    if keep then
      let kept ← visitElements elements
      report callback (← askEnd callback .arrayEnd (.array kept))
    -- The end of an empty array is told even if its start was refused.
    else if elements.isEmpty then askEnd callback .arrayEnd seen
    else
      passElements callback elements
      return seen
  | leaf => report callback leaf

/-- The members that are kept: those whose key is, if there is something left of the value. -/
def visitMembers : List (Chars × BasicJson) → StateM (Int × World) (List (Chars × BasicJson))
  | [] => return []
  | (key, tree) :: rest => do
    -- The callback gets a copy of the key, so that only its answer counts.
    let (keep, _) ← ask callback .key (.string key)
    let value ← visit tree
    let kept ← visitMembers rest
    -- The value is visited whether its key was kept or not.
    return if keep && isKept value then (key, value) :: kept else kept

/-- The elements that are kept: those of which there is something left. -/
def visitElements : List BasicJson → StateM (Int × World) (List BasicJson)
  | [] => return []
  | tree :: rest => do
    let value ← visit tree
    let kept ← visitElements rest
    -- An element of which nothing is left takes no place in the array.
    return if isKept value then value :: kept else kept

end

/-- The value of a text with this tree, which is null if the callback has left nothing of it. -/
def outcome (tree : BasicJson) (world : World) : BasicJson × World :=
  let ended := visit callback tree (0, world)
  -- The parser returns null for a value that was discarded as a whole.
  (if ended.1.isDiscarded then .null else ended.1, ended.2.2)

/-- A callback that keeps every value as it is. -/
def Accepting : Prop :=
  ∀ asked ∈ callback, ∀ world depth event value,
    (asked world depth event value).1 = true ∧ (asked world depth event value).2.1 = value

end Visit

section Accepting

variable {World : Type} {callback : Option (Callback World)}

/-- The parts of a computation that passes a state on. -/
theorem stateM_bind {σ α β : Type} (code : StateM σ α) (next : α → StateM σ β) (state : σ) :
    (code >>= next) state = next (code state).1 (code state).2 := rfl

/-- Without a callback nothing is ever refused. -/
theorem accepting_none : Accepting (none : Option (Callback World)) := by
  rintro asked ⟨⟩

/-- An accepting callback says yes and leaves the value. -/
theorem Accepting.ask (accepting : Accepting callback) (event : ParseEvent) (value : BasicJson)
    (state : Int × World) : (ask callback event value state).1 = (true, value) := by
  -- Without a callback the answer is yes by definition.
  cases callback with
  | none => rfl
  | some asked =>
    obtain ⟨keeps, same⟩ := accepting asked rfl state.2 state.1 event value
    exact Prod.ext keeps same

/-- An accepting callback leaves a value as it was reported. -/
theorem Accepting.report (accepting : Accepting callback) (value : BasicJson)
    (state : Int × World) : (report callback value state).1 = value := by
  show keepIf (Json.ask callback .value value state).1 = value
  rw [accepting.ask]
  rfl

/-- An accepting callback leaves a container as it was built. -/
theorem Accepting.askEnd (accepting : Accepting callback) (event : ParseEvent) (built : BasicJson)
    (state : Int × World) : (askEnd callback event built state).1 = built := by
  show keepIf (Json.ask callback event built (deepen callback (-1) state).2).1 = built
  rw [accepting.ask]
  rfl

/-- The value of a tree is kept if the tree is there. -/
theorem isKept_settled {tree : BasicJson} (kept : tree.Every BasicJson.Kept) :
    isKept tree.settled = true := by
  rw [isKept, kept.here.settled]
  rfl

/-- Elements that are left as they are give the values of their trees. -/
theorem visitElements_eq (elements : List BasicJson)
    (kept : ∀ tree ∈ elements, tree.Every BasicJson.Kept)
    (visited : ∀ tree ∈ elements, ∀ state, (visit callback tree state).1 = tree.settled)
    (state : Int × World) :
    (visitElements callback elements state).1 = elements.map BasicJson.settled := by
  induction elements generalizing state with
  | nil => rfl
  | cons tree rest ih =>
    rw [visitElements, stateM_bind, visited tree (by simp), stateM_bind]
    -- Each value is kept, as that of a tree which is there.
    show (if isKept tree.settled then _ else _ : List BasicJson) = _
    rw [isKept_settled (kept tree (by simp)), if_pos rfl,
      ih (fun tree member => kept tree (by simp [member]))
        (fun tree member => visited tree (by simp [member]))]
    rfl

/-- The members that an accepting callback keeps have the values of their trees. -/
theorem Accepting.visitMembers (accepting : Accepting callback)
    (entries : List (Chars × BasicJson))
    (kept : ∀ entry ∈ entries, entry.2.Every BasicJson.Kept)
    (visited : ∀ entry ∈ entries, ∀ state, (visit callback entry.2 state).1 = entry.2.settled)
    (state : Int × World) :
    (visitMembers callback entries state).1 =
      entries.map fun entry => (entry.1, entry.2.settled) := by
  induction entries generalizing state with
  | nil => rfl
  | cons entry rest ih =>
    rw [Json.visitMembers, stateM_bind, accepting.ask]
    show (((visit callback entry.2 >>= _) : StateM _ _) _).1 = _
    rw [stateM_bind, visited entry (by simp), stateM_bind]
    -- The key is kept, and so is the value.
    show (if true && isKept entry.2.settled then _ else _ : List (Chars × BasicJson)) = _
    rw [isKept_settled (kept entry (by simp)), Bool.and_self, if_pos rfl,
      ih (fun entry member => kept entry (by simp [member]))
        (fun entry member => visited entry (by simp [member]))]
    rfl

/-- An accepting callback leaves the value of a tree. -/
theorem Accepting.visit (accepting : Accepting callback) (tree : BasicJson)
    (kept : tree.Every BasicJson.Kept) (state : Int × World) :
    (visit callback tree state).1 = tree.settled := by
  -- The induction is over the tree, with the state that the callback is in at each value.
  induction tree using BasicJson.induct generalizing state with
  | object entries ih =>
    have inside := (BasicJson.every_object.mp kept).2
    rw [Json.visit, stateM_bind, accepting.ask]
    -- The start of the object is accepted, so the members are visited.
    show ((do
      deepen callback 1
      let kept ← Json.visitMembers callback entries
      Json.report callback (← Json.askEnd callback .objectEnd
        (.object (SortedMap.firsts kept))) : StateM _ BasicJson) _).1 = _
    rw [stateM_bind, stateM_bind, stateM_bind, accepting.report, accepting.askEnd,
      accepting.visitMembers entries inside fun entry member => ih entry member (inside entry member),
      BasicJson.settled_object]
  | array elements ih =>
    have inside := (BasicJson.every_array.mp kept).2
    rw [Json.visit, stateM_bind, accepting.ask]
    show ((do
      deepen callback 1
      let kept ← Json.visitElements callback elements
      Json.report callback (← Json.askEnd callback .arrayEnd (.array kept)) :
        StateM _ BasicJson) _).1 = _
    rw [stateM_bind, stateM_bind, stateM_bind, accepting.report, accepting.askEnd,
      visitElements_eq elements inside fun tree member => ih tree member (inside tree member),
      BasicJson.settled_array]
  | discarded => exact absurd rfl kept.here
  | _ =>
    rw [Json.visit, accepting.report, BasicJson.settled] <;> simp

/-- With an accepting callback a text has the value of its tree. -/
theorem Accepting.outcome (accepting : Accepting callback) (tree : BasicJson)
    (kept : tree.Every BasicJson.Kept) (world : World) :
    (outcome callback tree world).1 = tree.settled := by
  show (if (Json.visit callback tree (0, world)).1.isDiscarded then _ else _ : BasicJson) = _
  -- The value of the tree is not discarded, so it is returned as it is.
  rw [accepting.visit tree kept, kept.here.settled]
  rfl

end Accepting

/-- A text never has a value that is not there. -/
theorem outcome_ne_discarded {World : Type} (callback : Option (Callback World))
    (tree : BasicJson) (world : World) : (outcome callback tree world).1 ≠ .discarded := by
  show (if (visit callback tree (0, world)).1.isDiscarded then _ else _ : BasicJson) ≠ _
  split
  · simp
  · rename_i there
    intro discarded
    rw [discarded] at there
    exact there rfl

end LinuxPro.Json
