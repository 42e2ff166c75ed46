import LinuxPro.Lib.ByteReader

/-!
Readers on input that is cut short, and bounds on how much a reader takes.

A reader that reports the end of its input, and nothing else, by an error behaves the same on longer
input unless that error is reported.
-/

namespace LinuxPro.Reader

variable {ε α β : Type}

/--
How an outcome on some input is related to the outcome with more input behind it.

Either the end of the input was in the way, or both fail, or both read the same and leave their
input where it was. The bytes asked for and those left add up to the same total throughout, which
may differ between the two if they started to count at different places.
-/
inductive Continued (ends : Nat → ε → Prop) (total total' : Nat) (more : Chars) :
    Except ε (α × Source) → Except ε (α × Source) → Prop where
  | ended {fault : ε} (reported : ends total fault) (other : Except ε (α × Source)) :
      Continued ends total total' more (.error fault) other
  | failed (fault fault' : ε) : Continued ends total total' more (.error fault) (.error fault')
  | read (value : α) {rest : Chars} (last : Option UInt8) {count count' : Nat}
      (balanced : count + rest.length = total) (balanced' : count' + rest.length = total') :
      Continued ends total total' more (.ok (value, ⟨rest, last, count⟩))
        (.ok (value, ⟨rest ++ more, last, count'⟩))

/-- Code on some input is continued by code on any longer input, after a certain byte. -/
def Extends (ends : Nat → ε → Prop) (before : Option UInt8) (code code' : Reader ε α) : Prop :=
  ∀ left count count' more,
    Continued ends (count + left.length) (count' + left.length) more (code ⟨left, before, count⟩)
      (code' ⟨left ++ more, before, count'⟩)

section Extends

variable {ends : Nat → ε → Prop} {before : Option UInt8}

/-- A value that is given without reading is the same on longer input. -/
theorem extends_pure (value : α) : Extends ends before (pure value) (pure value) :=
  fun _ _ _ _ => .read value before rfl rfl

/-- Code that fails the same way on any input is continued by itself. -/
theorem extends_of_error {code : Reader ε α} (fault : Nat → ε)
    (fails : ∀ left count, code ⟨left, before, count⟩ = .error (fault count)) :
    Extends ends before code code := by
  intro left count count' more
  rw [fails, fails]
  exact .failed _ _

/-- Code that ends its input at once is continued by any code. -/
theorem extends_of_ends {code code' : Reader ε α} {fault : ε} (always : ∀ total, ends total fault)
    (fails : ∀ source, code source = .error fault) : Extends ends before code code' := by
  intro left count count' more
  rw [fails]
  exact .ended (always _) _

/-- Code in sequence is continued part by part. -/
theorem Extends.bind {code code' : Reader ε α} {next next' : α → Reader ε β}
    (first : Extends ends before code code')
    (second : ∀ value last, Extends ends last (next value) (next' value)) :
    Extends ends before (code >>= next) (code' >>= next') := by
  intro left count count' more
  have continued := first left count count' more
  show Continued ends _ _ more (code _ >>= fun ended => next ended.1 ended.2)
    (code' _ >>= fun ended => next' ended.1 ended.2)
  generalize code ⟨left, before, count⟩ = outcome at continued
  generalize code' ⟨left ++ more, before, count'⟩ = outcome' at continued
  cases continued with
  | ended reported other => exact .ended reported _
  | failed fault fault' => exact .failed fault fault'
  | read value last balanced balanced' =>
    -- The second part starts where the first one has stopped, with the same total.
    have rest := second value last
    rw [← balanced, ← balanced']
    exact rest _ _ _ more

/-- What is returned may be reworked at the end. -/
theorem Extends.map {code code' : Reader ε α} (first : Extends ends before code code')
    (make : α → β) :
    Extends ends before (do return make (← code)) (do return make (← code')) :=
  first.bind fun value _ => extends_pure (make value)

/-- Code that looks at the byte read last behaves as it does for that byte. -/
theorem extends_current_bind {next next' : Option UInt8 → Reader ε β}
    (rest : Extends ends before (next before) (next' before)) :
    Extends ends before (current >>= next) (current >>= next') := rest

/-- Asking for a byte is continued if its absence is reported as the end of the input. -/
theorem extends_get_bind {next next' : Option UInt8 → Reader ε β}
    (atEnd : ∀ count, ∃ fault, next none ⟨[], none, count + 1⟩ = .error fault ∧ ends count fault)
    (rest : ∀ byte, Extends ends (some byte) (next (some byte)) (next' (some byte))) :
    Extends ends before (get >>= next) (get >>= next') := by
  intro left count count' more
  cases left with
  | nil =>
    -- The longer input may go on here, so the shorter one has to report its end.
    obtain ⟨fault, failed, reported⟩ := atEnd count
    show Continued ends count count' more (next none ⟨[], none, count + 1⟩) _
    rw [failed]
    exact .ended reported _
  | cons byte left =>
    show Continued ends _ _ more (next (some byte) ⟨left, some byte, count + 1⟩)
      (next' (some byte) ⟨left ++ more, some byte, count' + 1⟩)
    -- One byte is moved from those that are left to those that were asked for.
    have balanced (count : Nat) : count + (byte :: left).length = count + 1 + left.length := by
      rw [List.length_cons]
      omega
    rw [balanced, balanced]
    exact rest byte left (count + 1) (count' + 1) more

/-- A test that does not look at the input has the same outcome on longer input. -/
theorem extends_ite {condition : Prop} [Decidable condition] {yes yes' no no' : Reader ε α}
    (whenTrue : condition → Extends ends before yes yes')
    (whenFalse : ¬ condition → Extends ends before no no') :
    Extends ends before (if condition then yes else no) (if condition then yes' else no') := by
  by_cases holds : condition
  · rw [if_pos holds, if_pos holds]
    exact whenTrue holds
  · rw [if_neg holds, if_neg holds]
    exact whenFalse holds

/-- Generated values are continued one by one. -/
theorem extends_generateN {generate generate' : Reader ε α}
    (each : ∀ before, Extends ends before generate generate') (count : Nat)
    (before : Option UInt8) :
    Extends ends before (generateN count generate) (generateN count generate') := by
  induction count generalizing before with
  | zero => exact extends_pure []
  | succ count ih => exact (each before).bind fun value last => (ih last).map _

/-- What was read to the end of its input is reported as cut short on any proper beginning. -/
theorem Extends.cut {code code' : Reader ε α} (extends_ : Extends ends before code code')
    {left more : Chars} {count : Nat} {value : α} {last : Option UInt8} {total : Nat}
    (longer : more ≠ [])
    (read : code' ⟨left ++ more, before, count⟩ = .ok (value, ⟨[], last, total⟩)) :
    ∃ fault, code ⟨left, before, count⟩ = .error fault ∧ ends (count + left.length) fault := by
  have continued := extends_ left count count more
  rw [read] at continued
  generalize code ⟨left, before, count⟩ = outcome at continued
  generalize reached : Except.ok (value, (⟨[], last, total⟩ : Source)) = outcome' at continued
  cases continued with
  | ended reported other => exact ⟨_, rfl, reported⟩
  -- The longer input was read, so it did not fail.
  | failed fault fault' => cases reached
  | read value' last' balanced balanced' =>
    -- Something would be left of the longer input.
    simp only [Except.ok.injEq, Prod.mk.injEq, Source.mk.injEq, List.nil_eq, List.append_eq_nil_iff]
      at reached
    exact absurd reached.2.1.2 longer

/-- What was read to the end of its input is read the same in front of any other input. -/
theorem Extends.takes {code code' : Reader ε α} (extends_ : Extends ends before code code')
    {left : Chars} {count : Nat} {value : α} {last : Option UInt8} {total : Nat}
    (read : code ⟨left, before, count⟩ = .ok (value, ⟨[], last, total⟩)) (count' : Nat)
    (more : Chars) :
    code' ⟨left ++ more, before, count'⟩ = .ok (value, ⟨more, last, count' + left.length⟩) := by
  have continued := extends_ left count count' more
  rw [read] at continued
  generalize code' ⟨left ++ more, before, count'⟩ = outcome' at continued ⊢
  cases continued with
  | read value' last' balanced balanced' =>
    -- Nothing was left of the shorter input, so that all else is left of the longer one.
    rw [List.nil_append, ← balanced']
    rfl

end Extends

/-- An outcome that is a permitted error, or a value of which something holds for the bytes read. -/
inductive Ran (good : ε → Prop) (P : Nat → α → Prop) (size : Nat) :
    Except ε (α × Source) → Prop where
  | error {fault : ε} (permitted : good fault) : Ran good P size (.error fault)
  | ok {value : α} {source : Source} (read : Nat) (taken : size = read + source.left.length)
      (holds : P read value) : Ran good P size (.ok (value, source))

/-- What code does on any input up to a size, however it was entered. -/
def Runs (good : ε → Prop) (size : Nat) (code : Reader ε α) (P : Nat → α → Prop) : Prop :=
  ∀ source : Source, source.left.length ≤ size → Ran good P source.left.length (code source)

section Runs

variable {good : ε → Prop} {size : Nat}

/-- A value that is given without reading. -/
theorem runs_pure {value : α} {P : Nat → α → Prop} (holds : P 0 value) :
    Runs good size (pure value) P :=
  fun _ _ => .ok 0 (Nat.zero_add _).symm holds

/-- Code that always fails in a permitted way. -/
theorem runs_of_error {code : Reader ε α} {P : Nat → α → Prop}
    (fails : ∀ source, ∃ fault, code source = .error fault ∧ good fault) :
    Runs good size code P := by
  intro source _
  obtain ⟨fault, failed, permitted⟩ := fails source
  rw [failed]
  exact .error permitted

/-- Code in sequence takes what its parts take. -/
theorem Runs.bind {code : Reader ε α} {next : α → Reader ε β} {P : Nat → α → Prop}
    {Q : Nat → β → Prop} (first : Runs good size code P)
    (second : ∀ read value, read ≤ size → P read value →
      Runs good (size - read) (next value) fun more result => Q (read + more) result) :
    Runs good size (code >>= next) Q := by
  intro source small
  have ran := first source small
  show Ran good Q _ (code source >>= fun ended => next ended.1 ended.2)
  generalize code source = outcome at ran
  cases ran with
  | error permitted => exact .error permitted
  | @ok value middle read taken holds =>
    -- What the second part may take is what the first one has left.
    have rest := second read value (by omega) holds middle (by omega)
    show Ran good Q _ (next value middle)
    generalize next value middle = outcome at rest
    cases rest with
    | error permitted => exact .error permitted
    | @ok result last more taken' holds' => exact .ok (read + more) (by omega) holds'

/-- What holds up to a size holds up to a smaller one. -/
theorem Runs.mono {code : Reader ε α} {P : Nat → α → Prop} {smaller : Nat}
    (runs : Runs good size code P) (below : smaller ≤ size) : Runs good smaller code P :=
  fun source small => runs source (Nat.le_trans small below)

/-- What is known of the value may be weakened. -/
theorem Runs.imp {code : Reader ε α} {P Q : Nat → α → Prop} (runs : Runs good size code P)
    (weaker : ∀ read value, read ≤ size → P read value → Q read value) : Runs good size code Q := by
  intro source small
  have ran := runs source small
  generalize code source = outcome at ran
  -- Errors are permitted as before, and of a value less is asked.
  cases ran with
  | error permitted => exact .error permitted
  | ok read taken holds => exact .ok read taken (weaker _ _ (by omega) holds)

/-- What is returned may be reworked at the end. -/
theorem Runs.map {code : Reader ε α} {P : Nat → α → Prop} {Q : Nat → β → Prop}
    (first : Runs good size code P) (make : α → β)
    (made : ∀ read value, read ≤ size → P read value → Q read (make value)) :
    Runs good size (do return make (← code)) Q :=
  first.bind fun read value small holds => runs_pure (made read value small holds)

/-- A test that does not look at the input. -/
theorem runs_ite {condition : Prop} [Decidable condition] {yes no : Reader ε α}
    {P : Nat → α → Prop} (whenTrue : condition → Runs good size yes P)
    (whenFalse : ¬ condition → Runs good size no P) :
    Runs good size (if condition then yes else no) P := by
  by_cases holds : condition
  · rw [if_pos holds]
    exact whenTrue holds
  · rw [if_neg holds]
    exact whenFalse holds

/-- Asking for a byte takes it, and what follows is judged by it or by the end of the input. -/
theorem runs_get_bind {next : Option UInt8 → Reader ε β} {Q : Nat → β → Prop}
    (atEnd : ∀ count, Ran good Q 0 (next none ⟨[], none, count⟩))
    (rest : ∀ byte, 1 ≤ size →
      Runs good (size - 1) (next (some byte)) fun more result => Q (1 + more) result) :
    Runs good size (get >>= next) Q := by
  intro source small
  cases source with
  | mk left before count =>
    cases left with
    | nil => exact atEnd (count + 1)
    | cons byte left =>
      rw [List.length_cons] at small
      -- The byte is taken, and the rest is shorter by one.
      have ran := rest byte (by omega) ⟨left, some byte, count + 1⟩
        (show left.length ≤ _ by omega)
      show Ran good Q (left.length + 1) (next (some byte) ⟨left, some byte, count + 1⟩)
      generalize next (some byte) ⟨left, some byte, count + 1⟩ = outcome at ran
      cases ran with
      | error permitted => exact .error permitted
      | @ok result last more taken holds =>
        exact .ok (1 + more) (by rw [taken]; omega) holds

/-- Looking at the byte read last takes nothing. -/
theorem runs_current : Runs good size (current : Reader ε _) fun read _ => read = 0 :=
  fun _ _ => .ok 0 (Nat.zero_add _).symm rfl

/-- So many values are generated, and each of them takes what it takes alone. -/
theorem runs_generateN {generate : Reader ε α} {P : Nat → α → Prop}
    (each : Runs good size generate P)
    (grow : ∀ read more value, P read value → P (read + more) value) (count : Nat)
    (takes : ∀ read value, P read value → 1 ≤ read) :
    Runs good size (generateN count generate) fun read values =>
      values.length = count ∧ count ≤ read ∧ ∀ value ∈ values, P read value := by
  induction count generalizing size with
  | zero => exact runs_pure ⟨rfl, Nat.le_refl 0, by simp⟩
  | succ count ih =>
    -- The first value takes at least a byte, and the others are read from less.
    apply each.bind
    intro read value small holds
    apply (ih (each.mono (Nat.sub_le _ _))).map
    intro more values _ collected
    obtain ⟨length, enough, all⟩ := collected
    have one := takes read value holds
    refine ⟨by rw [List.length_cons, length], by omega, ?_⟩
    -- The first value was read before the others, and they were read behind it.
    intro result member
    rcases List.mem_cons.mp member with rfl | later
    · exact grow read more _ holds
    · rw [Nat.add_comm]
      exact grow more read _ (all result later)

end Runs

end LinuxPro.Reader
