import LinuxPro.Json.Soundness

/-! That a parser goes through every text of the grammar, and asks its callback about its tree. -/

namespace LinuxPro.Json

/-- White space and then a mark prolong no number. -/
theorem delimited_of_blank {space rest : Chars} (blank : Blank space) (delimited : Delimited rest) :
    Delimited (space ++ rest) := by
  cases space with
  | nil => exact delimited
  | cons byte space =>
    intro head member
    cases member
    -- Each of the four bytes of white space ends a number.
    rcases (List.forall_mem_cons.mp blank).1 with rfl | rfl | rfl | rfl <;> decide

section Unfolding

variable {World : Type} {callback : Option (Callback World)} {state asked : Int × World}
  {keep : Bool} {seen : BasicJson}

/-- What becomes of an array, by what the callback says at its start. -/
theorem visit_array (elements : List BasicJson)
    (answer : ask callback .arrayStart .discarded state = ((keep, seen), asked)) :
    visit callback (.array elements) state =
      if keep then
        (do
          let kept ← visitElements callback elements
          report callback (← askEnd callback .arrayEnd (.array kept))) (deepen callback 1 asked).2
      else if elements.isEmpty then askEnd callback .arrayEnd seen (deepen callback 1 asked).2
      else (seen, (passElements callback elements (deepen callback 1 asked).2).2) := by
  rw [visit, stateM_bind, answer]
  -- The callback has answered, and what remains depends on its answer alone.
  show (if keep then _ else _ : StateM (Int × World) BasicJson) (deepen callback 1 asked).2 = _
  cases keep with
  | true => rfl
  -- The end of an empty array is told even if its start was refused.
  | false => cases elements <;> rfl

/-- What becomes of an object, by what the callback says at its start. -/
theorem visit_object (entries : List (Chars × BasicJson))
    (answer : ask callback .objectStart .discarded state = ((keep, seen), asked)) :
    visit callback (.object entries) state =
      if keep then
        (do
          let kept ← visitMembers callback entries
          report callback (← askEnd callback .objectEnd (.object (SortedMap.firsts kept))))
          (deepen callback 1 asked).2
      else (seen, (passMembers callback entries (deepen callback 1 asked).2).2) := by
  rw [visit, stateM_bind, answer]
  show (if keep then _ else _ : StateM (Int × World) BasicJson) (deepen callback 1 asked).2 = _
  cases keep <;> rfl

/-- What an element adds to the elements that are kept. -/
def keptElement (value : BasicJson) : List BasicJson := if isKept value then [value] else []

/-- What a member adds to the members that are kept. -/
def keptMember (tag : Bool) (key : Chars) (value : BasicJson) : List (Chars × BasicJson) :=
  if tag && isKept value then [(key, value)] else []

/-- There is nothing to go through. -/
@[simp] theorem visitElements_nil : visitElements callback [] state = ([], state) := rfl

/-- There is nothing to go through in an object without members either. -/
@[simp] theorem visitMembers_nil : visitMembers callback [] state = ([], state) := rfl

/-- The elements that are kept, by the first of them. -/
theorem visitElements_cons (tree : BasicJson) (rest : List BasicJson) :
    visitElements callback (tree :: rest) state =
      (keptElement (visit callback tree state).1 ++
          (visitElements callback rest (visit callback tree state).2).1,
        (visitElements callback rest (visit callback tree state).2).2) := by
  rw [visitElements, stateM_bind, stateM_bind, keptElement]
  cases isKept (visit callback tree state).1 <;> rfl

/-- The members that are kept, by the first of them and what the callback says to its key. -/
theorem visitMembers_cons {key : Chars} {tree : BasicJson} (rest : List (Chars × BasicJson))
    (answer : ask callback .key (.string key) state = ((keep, seen), asked)) :
    visitMembers callback ((key, tree) :: rest) state =
      (keptMember keep key (visit callback tree asked).1 ++
          (visitMembers callback rest (visit callback tree asked).2).1,
        (visitMembers callback rest (visit callback tree asked).2).2) := by
  rw [visitMembers, stateM_bind, answer]
  show ((visit callback tree >>= _ : StateM _ _) asked) = _
  -- The answer about the key counts together with what becomes of the value.
  rw [stateM_bind, stateM_bind, keptMember]
  cases keep && isKept (visit callback tree asked).1 <;> rfl

variable {strtod : Chars → UInt64} {text : Chars}

/-- A value without others inside it is only reported. -/
theorem visit_scalar {value : BasicJson} (written : IsScalar strtod text value) :
    visit callback value = report callback value := by
  cases written with
  | number number => cases number <;> rw [visit] <;> simp
  | _ => rw [visit] <;> simp

/-- Inside a refused container a value without others inside it is not asked about. -/
theorem pass_scalar {value : BasicJson} (written : IsScalar strtod text value) :
    pass callback value state = ((), state) := by
  cases written with
  | number number => cases number <;> (unfold pass; rfl)
  | _ => unfold pass; rfl

/-- An array that is written with elements is not empty. -/
theorem WritesElements.isEmpty {trees : List BasicJson}
    (elements : WritesElements strtod text trees) : trees.isEmpty = false := by
  cases elements <;> rfl

/-- Inside a refused container an array with elements is gone through. -/
theorem pass_array {trees : List BasicJson} (elements : WritesElements strtod text trees) :
    pass callback (.array trees) state = passElements callback trees state := by
  rw [pass, elements.isEmpty]
  rfl

end Unfolding

namespace Parser

variable {World α β : Type} {settings : Settings World} {fuel : Nat}

/-- Code ends with a value where so much is left of the text, unless its fuel is too little. -/
def Gives (result : Except Failure (α × Parser World)) (value : α) (state : Int × World)
    (rest : Chars) : Prop :=
  result = .error .outOfFuel ∨
    ∃ after, result = .ok (value, after) ∧ after.lexer.left = rest ∧ after.errored = false ∧
      after.state = state

/-- Code in sequence. -/
theorem Gives.bind {code : Parsing World α} {next : α → Parsing World β} {parser : Parser World}
    {value : α} {value' : β} {state state' : Int × World} {rest rest' : Chars}
    (first : Gives (code parser) value state rest)
    (later : ∀ after : Parser World, after.lexer.left = rest → after.errored = false →
      after.state = state → Gives (next value after) value' state' rest') :
    Gives ((code >>= next) parser) value' state' rest' := by
  -- Code that ran out of fuel is not continued.
  rcases first with out | ⟨after, run, left, fine, same⟩
  · exact .inl (bind_error out)
  · rw [bind_ok run]
    exact later after left fine same

/-! The tokens of a text of the grammar. -/

/-- The next token, if it is the text of one. -/
theorem next_lexeme {parser : Parser World} {space text rest : Chars} {token : Token}
    (blank : Blank space) (lexeme : Lexeme settings.strtod text token)
    (separated : ∀ value, IsNumber settings.strtod text value → Delimited rest)
    (here : parser.lexer.left = space ++ (text ++ rest)) :
    (parser.next settings).lastToken = token ∧ (parser.next settings).lexer.left = rest :=
  Lexer.scan_lexeme settings.strtod blank lexeme separated here

/-- A mark is no number. -/
theorem not_isNumber_mark {strtod : Chars → UInt64} {byte : UInt8}
    (mark : Lexer.scanNumberInit byte = none) {text : Chars} {value : BasicJson} :
    ¬IsNumber strtod (byte :: text) value := by
  intro number
  obtain ⟨_, number, _⟩ := isNumber_iff.mp number
  -- The lexer starts no number at this byte.
  obtain ⟨state, starts, _⟩ := numberText_cons.mp number
  cases mark.symm.trans starts

/-- The next token, if it is a mark. -/
theorem next_punctuation {parser : Parser World} {space rest : Chars} (token : Token)
    {byte : UInt8} (mark : token.punctuation = some byte) (blank : Blank space)
    (here : parser.lexer.left = space ++ byte :: rest) :
    (parser.next settings).lastToken = token ∧ (parser.next settings).lexer.left = rest := by
  -- What follows a mark cannot prolong it, as it is no number.
  refine next_lexeme blank (.of_punctuation mark) (fun value number => ?_) here
  exact absurd number (not_isNumber_mark (by cases token <;> cases mark <;> decide))

/-- A value does not start with a closing bracket. -/
theorem next_opening {parser : Parser World} {space text rest : Chars} {tree : BasicJson}
    (writes : Writes settings.strtod text tree) (blank : Blank space)
    (separated : ∀ value, IsNumber settings.strtod text value → Delimited rest)
    (here : parser.lexer.left = space ++ (text ++ rest)) :
    (parser.next settings).lastToken ≠ .endArray := by
  cases writes with
  -- No token of a scalar is a closing bracket.
  | scalar written =>
    obtain ⟨token, known⟩ := written.exists_token
    rw [(next_lexeme blank (.scalar written known) separated here).1]
    rintro rfl
    cases known
  | emptyArray | array =>
    rw [(next_punctuation .beginArray rfl blank here).1]
    simp
  | emptyObject | object =>
    rw [(next_punctuation .beginObject rfl blank here).1]
    simp

/-- A comma or a closing bracket prolongs no number. -/
theorem separated_of_mark {strtod : Chars → UInt64} {behind rest : Chars} (blank : Blank behind)
    (byte : UInt8) (mark : byte ∈ ([0x2c, 0x5d, 0x7d] : Chars)) {text : Chars} :
    ∀ value, IsNumber strtod text value → Delimited (behind ++ byte :: rest) := by
  intro _ _
  apply delimited_of_blank blank
  -- Only the first byte behind a number could prolong it.
  intro head member
  cases member
  simp only [List.mem_cons, List.not_mem_nil, or_false] at mark
  rcases mark with rfl | rfl | rfl <;> decide

/-- The elements of an array do not start with its closing bracket. -/
theorem next_element {parser : Parser World} {text rest : Chars} {trees : List BasicJson}
    (elements : WritesElements settings.strtod text trees)
    (here : parser.lexer.left = text ++ rest) :
    (parser.next settings).lastToken ≠ .endArray := by
  cases elements with
  | last blank element blank' =>
    exact next_opening element blank (separated_of_mark blank' 0x5d (by decide))
      (here.trans (by simp; rfl))
  | cons blank element blank' later =>
    exact next_opening element blank (separated_of_mark blank' 0x2c (by decide))
      (here.trans (by simp; rfl))

/-- The key of a member, and the text behind it. -/
theorem next_key {parser : Parser World} {before inside rest : Chars} {chars : List Char}
    (blank : Blank before) (spelled : SpellsAll inside chars)
    (here : parser.lexer.left = before ++ (0x22 :: (inside ++ [0x22]) ++ rest)) :
    (parser.next settings).lastToken = .valueString (Utf8.bytes chars) ∧
      (parser.next settings).lexer.left = rest :=
  next_lexeme blank (.scalar (.string spelled) rfl)
    (fun _ number => absurd number (not_isNumber_mark (by decide))) here

/-- The members of an object do not start with its closing bracket. -/
theorem next_member {parser : Parser World} {text rest : Chars}
    {entries : List (Chars × BasicJson)} (members : WritesMembers settings.strtod text entries)
    (here : parser.lexer.left = text ++ rest) :
    (parser.next settings).lastToken ≠ .endObject := by
  -- A member starts with its key, which is a string.
  have named {entry rest key : Chars} {tree : BasicJson}
      (member : WritesMember settings.strtod entry key tree)
      (here : parser.lexer.left = entry ++ rest) :
      (parser.next settings).lastToken ≠ .endObject := by
    obtain ⟨blank, spelled, _, _, _⟩ := member
    rw [(next_key blank spelled (here.trans (by simp; rfl))).1]
    simp
  cases members with
  | last member => exact named member (here.trans (List.append_assoc _ _ _))
  | cons member => exact named member (here.trans (List.append_assoc _ _ _))

/-! The parser at each kind of value. -/

/-- What `parse_internal` does behind an opening square bracket. -/
def arrayFrom (settings : Settings World) (fuel : Nat) (keep : Bool) (result : BasicJson) :
    Parsing World BasicJson := do
  if (← get).lastToken = .endArray then
    reportValue settings keep (← finish settings .arrayEnd true result)
  else endLoop settings .arrayEnd keep (← parseElements settings fuel keep result)

/-- What `parse_internal` does behind an opening curly bracket. -/
def objectFrom (settings : Settings World) (fuel : Nat) (keep : Bool) (result : BasicJson) :
    Parsing World BasicJson := do
  if (← get).lastToken = .endObject then
    reportValue settings keep (← finish settings .objectEnd keep result)
  else endLoop settings .objectEnd keep (← parseMembers settings fuel keep result)

/-- An array inside something that was refused. -/
theorem parseInternal_array_false {parser : Parser World} (opened : parser.lastToken = .beginArray) :
    parseInternal settings (fuel + 1) false parser =
      arrayFrom settings fuel false .discarded (parser.next settings) := by
  rw [parseInternal, get_bind, opened]
  rfl

/-- An object inside something that was refused. -/
theorem parseInternal_object_false {parser : Parser World}
    (opened : parser.lastToken = .beginObject) :
    parseInternal settings (fuel + 1) false parser =
      objectFrom settings fuel false .discarded (parser.next settings) := by
  rw [parseInternal, get_bind, opened]
  rfl

/-- An array, by what the callback says at its start. -/
theorem parseInternal_array_true {parser : Parser World} {keep : Bool} {seen : BasicJson}
    {asked : Int × World} (opened : parser.lastToken = .beginArray)
    (answer : ask settings.callback .arrayStart .discarded parser.state = ((keep, seen), asked)) :
    parseInternal settings (fuel + 1) true parser =
      arrayFrom settings fuel keep (if keep then .array [] else seen)
        ((parser.told (deepen settings.callback 1 asked).2).next settings) := by
  rw [parseInternal, get_bind, opened]
  simp only [start_eq, tells_bind, stateM_bind, answer]
  rfl

/-- An object, by what the callback says at its start. -/
theorem parseInternal_object_true {parser : Parser World} {keep : Bool} {seen : BasicJson}
    {asked : Int × World} (opened : parser.lastToken = .beginObject)
    (answer : ask settings.callback .objectStart .discarded parser.state = ((keep, seen), asked)) :
    parseInternal settings (fuel + 1) true parser =
      objectFrom settings fuel keep (if keep then .object [] else seen)
        ((parser.told (deepen settings.callback 1 asked).2).next settings) := by
  rw [parseInternal, get_bind, opened]
  simp only [start_eq, tells_bind, stateM_bind, answer]
  rfl

/-- A token that is a finite value is reported as that value. -/
theorem parseInternal_value {parser : Parser World} {keep : Bool} {value : BasicJson}
    (known : parser.lastToken.scalar = some value) (finite : value.IsFinite) :
    parseInternal settings (fuel + 1) keep parser = reportValue settings keep value parser := by
  rw [parseInternal, get_bind]
  cases token : parser.lastToken with
  -- A double is the one token that is tested before it is reported.
  | valueFloat bits =>
    rw [token] at known
    cases known
    show parseScalar settings keep parser = _
    rw [parseScalar, get_bind, token]
    simp only [show isFinite bits = true from finite, Bool.not_true, Bool.false_eq_true, if_false]
  | literalNull | literalTrue | literalFalse | valueString | valueUnsigned | valueInteger =>
    rw [token] at known
    cases known
    show parseScalar settings keep parser = _
    rw [parseScalar, get_bind, token]
  -- Any other token is no value.
  | _ =>
    rw [token] at known
    cases known

/-- An array behind an element that is kept or not. -/
theorem grown_array (before : List BasicJson) (value : BasicJson) :
    grown true (.array before) value = .array (before ++ keptElement value) := by
  unfold grown keptElement isKept
  cases value.isDiscarded <;> simp [BasicJson.append]

/-- An object behind a member that is kept or not. -/
theorem joined_object (tag : Bool) (before : List (Chars × BasicJson)) (key : Chars)
    (value : BasicJson) :
    joined true tag (.object before) key value =
      .object ((keptMember tag key value).foldl
        (fun built entry => SortedMap.insert entry.1 entry.2 built) before) := by
  unfold joined keptMember isKept
  -- The member is inserted only if both its key and its value are kept.
  cases tag <;> cases value.isDiscarded <;> rfl

/-- The question about a key, by its answer. -/
theorem keepTag_told {parser : Parser World} {key : Chars} {keep : Bool} {seen : BasicJson}
    {asked : Int × World}
    (answer : ask settings.callback .key (.string key) parser.state = ((keep, seen), asked)) :
    keepTag settings true key (parser.next settings) =
      .ok (keep, (parser.next settings).told asked) := by
  rw [keepTag_eq]
  show Except.ok (_, _) = _
  rw [stateM_bind, show (parser.next settings).state = parser.state from rfl, answer]
  rfl

/-- The end of a loop at its closing bracket. -/
theorem gives_closing {type : TokenType} (token : Token) {byte : UInt8} {built : BasicJson}
    {parser : Parser World} {space rest : Chars} (mark : token.punctuation = some byte)
    (kind : token.type = type) (blank : Blank space) (fine : parser.errored = false)
    (here : parser.lexer.left = space ++ byte :: rest) :
    Gives ((expect settings type >>= fun met => pure (met, built)) (parser.next settings))
      (true, built) parser.state rest := by
  obtain ⟨read, left⟩ := @next_punctuation World settings parser space rest token byte mark blank here
  -- The token that is expected has been read already.
  have met : expect settings type (parser.next settings) = .ok (true, parser.next settings) := by
    rw [expect_eq, read, if_pos kind]
  rw [bind_ok met]
  exact .inr ⟨_, rfl, left, fine, rfl⟩

/-! Inside a container that was refused. -/

mutual

/-- A value inside something that was refused is read past. -/
theorem passes_value {text : Chars} {tree : BasicJson} : Writes settings.strtod text tree →
    tree.Every BasicJson.IsFinite →
    ∀ (fuel : Nat) (parser : Parser World) (space rest : Chars), Blank space →
      (∀ value, IsNumber settings.strtod text value → Delimited rest) →
      parser.lexer.left = space ++ (text ++ rest) → parser.errored = false →
      ∃ value, Gives (parseInternal settings fuel false (parser.next settings)) value
        (pass settings.callback tree parser.state).2 rest
  -- The recursion is over the text of the value, and the fuel only has to last.
  | _, _, 0, _, _, _, _, _, _, _ => ⟨.null, .inl rfl⟩
  | .scalar written, finite, fuel + 1, parser, space, rest, blank, separated, here, fine => by
    -- Nothing is asked about a scalar here.
    obtain ⟨token, known⟩ := written.exists_token
    obtain ⟨read, left⟩ := next_lexeme blank (.scalar written known) separated here
    rw [parseInternal_value (read ▸ known) finite.here, pass_scalar written]
    exact ⟨_, .inr ⟨_, rfl, left, fine, rfl⟩⟩
  | .emptyArray blank', _, fuel + 1, parser, space, rest, blank, _, here, fine => by
    obtain ⟨read, left⟩ :=
      @next_punctuation World settings parser space _ .beginArray _ rfl blank here
    obtain ⟨closed, left⟩ := @next_punctuation World settings (parser.next settings) _ rest
      .endArray _ rfl blank' (by rw [left]; simp)
    rw [parseInternal_array_false read, arrayFrom, get_bind, if_pos closed, finish_eq, tells_bind]
    -- The end of an empty array is told although nothing of it is kept.
    exact ⟨_, .inr ⟨_, rfl, left, fine, rfl⟩⟩
  | .array elements, finite, fuel + 1, parser, space, rest, blank, _, here, fine => by
    obtain ⟨read, left⟩ :=
      @next_punctuation World settings parser space _ .beginArray _ rfl blank here
    rw [parseInternal_array_false read, arrayFrom, get_bind, if_neg (next_element elements left),
      pass_array elements]
    refine ⟨.discarded, ?_⟩
    -- The loop over the elements goes on without building anything.
    exact (passes_elements elements finite.2 fuel (parser.next settings) .discarded rest left
      fine).bind fun after left fine same => .inr ⟨after, rfl, left, fine, same⟩
  | .emptyObject blank', _, fuel + 1, parser, space, rest, blank, _, here, fine => by
    obtain ⟨read, left⟩ :=
      @next_punctuation World settings parser space _ .beginObject _ rfl blank here
    obtain ⟨closed, left⟩ := @next_punctuation World settings (parser.next settings) _ rest
      .endObject _ rfl blank' (by rw [left]; simp)
    -- In contrast to an array, the end of an empty object is not told.
    rw [parseInternal_object_false read, objectFrom, get_bind, if_pos closed]
    exact ⟨_, .inr ⟨_, rfl, left, fine, rfl⟩⟩
  | .object members, finite, fuel + 1, parser, space, rest, blank, _, here, fine => by
    obtain ⟨read, left⟩ :=
      @next_punctuation World settings parser space _ .beginObject _ rfl blank here
    rw [parseInternal_object_false read, objectFrom, get_bind, if_neg (next_member members left)]
    refine ⟨.discarded, ?_⟩
    exact (passes_members members finite.2 fuel (parser.next settings) .discarded rest left
      fine).bind fun after left fine same => .inr ⟨after, rfl, left, fine, same⟩

/-- Elements of an array that was refused are read past. -/
theorem passes_elements {text : Chars} {trees : List BasicJson} :
    WritesElements settings.strtod text trees →
    BasicJson.EveryElement BasicJson.IsFinite trees →
    ∀ (fuel : Nat) (parser : Parser World) (built : BasicJson) (rest : Chars),
      parser.lexer.left = text ++ rest → parser.errored = false →
      Gives (parseElements settings fuel false built (parser.next settings)) (true, built)
        (passElements settings.callback trees parser.state).2 rest
  | _, _, 0, _, _, _, _, _ => .inl rfl
  | .last blank element blank', finite, fuel + 1, parser, built, rest, here, fine => by
    obtain ⟨value, given⟩ := passes_value element finite.1 fuel parser _ _ blank
      (@separated_of_mark settings.strtod _ rest blank' 0x5d (by decide) _) (by rw [here]; simp) fine
    rcases given with out | ⟨after, run, left, fine, same⟩
    · exact .inl (by rw [parseElements, bind_error out])
    · -- Behind the last element there is the closing bracket, not a comma.
      obtain ⟨closed, _⟩ :=
        @next_punctuation World settings after _ rest .endArray _ rfl blank' left
      rw [parseElements_of_run run fine, if_neg (by rw [closed]; simp)]
      have ends := @gives_closing World settings .endArray .endArray _ built after _ rest rfl rfl
        blank' fine left
      rwa [same] at ends
  | .cons blank element blank' later, finite, fuel + 1, parser, built, rest, here, fine => by
    rename_i between gap behind value values
    obtain ⟨value, given⟩ := passes_value element finite.1 fuel parser _
      (gap ++ 0x2c :: (behind ++ rest)) blank (separated_of_mark blank' 0x2c (by decide))
      (by rw [here]; simp) fine
    rcases given with out | ⟨after, run, left, fine, same⟩
    · exact .inl (by rw [parseElements, bind_error out])
    · obtain ⟨comma, left⟩ :=
        @next_punctuation World settings after _ _ .valueSeparator _ rfl blank' left
      rw [parseElements_of_run run fine, if_pos comma]
      -- The comma was read, so that the next element is the one to go on with.
      have ends := passes_elements later finite.2 fuel (after.next settings) built rest left fine
      rwa [show (after.next settings).state = after.state from rfl, same] at ends

/-- Members of an object that was refused are read past. -/
theorem passes_members {text : Chars} {entries : List (Chars × BasicJson)} :
    WritesMembers settings.strtod text entries →
    BasicJson.EveryMember BasicJson.IsFinite entries →
    ∀ (fuel : Nat) (parser : Parser World) (built : BasicJson) (rest : Chars),
      parser.lexer.left = text ++ rest → parser.errored = false →
      Gives (parseMembers settings fuel false built (parser.next settings)) (true, built)
        (passMembers settings.callback entries parser.state).2 rest
  | _, _, 0, _, _, _, _, _ => .inl rfl
  | .last (.mk blank spelled blank' blank'' writes) final, finite, fuel + 1, parser, built, rest,
      here, fine => by
    -- The key and the colon are read before the value.
    obtain ⟨name, left⟩ :=
      @next_key World settings parser _ _ _ _ blank spelled (by rw [here]; simp; rfl)
    obtain ⟨colon, left⟩ := @next_punctuation World settings (parser.next settings) _ _
      .nameSeparator _ rfl blank' left
    obtain ⟨value, given⟩ := passes_value writes finite.1 fuel
      ((parser.next settings).next settings) _ _ blank''
      (@separated_of_mark settings.strtod _ rest final 0x7d (by decide) _) left fine
    rcases given with out | ⟨after, run, left, fine, same⟩
    · exact .inl (parseMembers_of_error name rfl colon out)
    · -- Behind the last member there is the closing bracket, not a comma.
      obtain ⟨closed, _⟩ :=
        @next_punctuation World settings after _ rest .endObject _ rfl final left
      rw [parseMembers_of_run name rfl colon run fine, if_neg (by rw [closed]; simp)]
      have ends := @gives_closing World settings .endObject .endObject _ built after _ rest rfl rfl
        final fine left
      rwa [same] at ends
  | .cons (.mk blank spelled blank' blank'' writes) final later, finite, fuel + 1, parser, built,
      rest, here, fine => by
    obtain ⟨name, left⟩ :=
      @next_key World settings parser _ _ _ _ blank spelled (by rw [here]; simp; rfl)
    obtain ⟨colon, left⟩ := @next_punctuation World settings (parser.next settings) _ _
      .nameSeparator _ rfl blank' left
    obtain ⟨value, given⟩ := passes_value writes finite.1 fuel
      ((parser.next settings).next settings) _ _ blank''
      (@separated_of_mark settings.strtod _ (_ ++ rest) final 0x2c (by decide) _) left fine
    rcases given with out | ⟨after, run, left, fine, same⟩
    · exact .inl (parseMembers_of_error name rfl colon out)
    · obtain ⟨comma, left⟩ :=
        @next_punctuation World settings after _ _ .valueSeparator _ rfl final left
      rw [parseMembers_of_run name rfl colon run fine, if_pos comma]
      have ends := passes_members later finite.2 fuel (after.next settings) built rest left fine
      rwa [show (after.next settings).state = after.state from rfl, same] at ends

end

/-! Through a container that is kept. -/

mutual

/-- A value that is written is read, and the callback is asked about its tree. -/
theorem gives_value {text : Chars} {tree : BasicJson} : Writes settings.strtod text tree →
    tree.Every BasicJson.IsFinite →
    ∀ (fuel : Nat) (parser : Parser World) (space rest : Chars), Blank space →
      (∀ value, IsNumber settings.strtod text value → Delimited rest) →
      parser.lexer.left = space ++ (text ++ rest) → parser.errored = false →
      Gives (parseInternal settings fuel true (parser.next settings))
        (visit settings.callback tree parser.state).1
        (visit settings.callback tree parser.state).2 rest
  -- As above, the recursion is over the text.
  | _, _, 0, _, _, _, _, _, _, _ => .inl rfl
  | .scalar written, finite, fuel + 1, parser, space, rest, blank, separated, here, fine => by
    obtain ⟨token, known⟩ := written.exists_token
    obtain ⟨read, left⟩ := next_lexeme blank (.scalar written known) separated here
    -- A scalar is reported, and the callback may replace it.
    rw [parseInternal_value (read ▸ known) finite.here, visit_scalar written, reportValue_eq]
    exact .inr ⟨_, rfl, left, fine, rfl⟩
  | .emptyArray blank', _, fuel + 1, parser, space, rest, blank, _, here, fine => by
    obtain ⟨read, left⟩ :=
      @next_punctuation World settings parser space _ .beginArray _ rfl blank here
    obtain ⟨⟨⟨keep, seen⟩, asked⟩, answer⟩ : ∃ answer,
        ask settings.callback .arrayStart .discarded parser.state = answer := ⟨_, rfl⟩
    rw [visit_array [] answer, parseInternal_array_true read answer, arrayFrom, get_bind]
    obtain ⟨closed, left⟩ := @next_punctuation World settings
      ((parser.next settings).told (deepen settings.callback 1 asked).2) _ rest .endArray _ rfl
      blank' (left.trans (by simp))
    rw [if_pos closed, finish_eq, tells_bind]
    -- The end is told in any case, and the value only if the start was not refused.
    cases keep with
    | false => exact .inr ⟨_, rfl, left, fine, rfl⟩
    | true =>
      rw [reportValue_eq]
      exact .inr ⟨_, rfl, left, fine, rfl⟩
  | .array elements, finite, fuel + 1, parser, space, rest, blank, _, here, fine => by
    obtain ⟨read, left⟩ :=
      @next_punctuation World settings parser space _ .beginArray _ rfl blank here
    -- The callback is asked before the first element is read.
    obtain ⟨⟨⟨keep, seen⟩, asked⟩, answer⟩ : ∃ answer,
        ask settings.callback .arrayStart .discarded parser.state = answer := ⟨_, rfl⟩
    have open_ : ((parser.next settings).told (deepen settings.callback 1 asked).2).lexer.left =
      _ ++ rest := left
    rw [visit_array _ answer, parseInternal_array_true read answer, arrayFrom, get_bind,
      if_neg (next_element elements open_)]
    cases keep with
    | false =>
      -- The elements of an array that was refused are only read past.
      rw [elements.isEmpty]
      exact (passes_elements elements finite.2 fuel _ seen rest open_ fine).bind
        fun after left fine same => .inr ⟨after, rfl, left, fine, same⟩
    | true =>
      refine (gives_elements elements finite.2 fuel _ [] rest open_ fine).bind
        fun after left fine same => ?_
      -- Behind the closing bracket the end is told, and then the whole array as a value.
      rw [endLoop, if_pos rfl, finish_eq, tells_bind, reportValue_eq, same]
      exact .inr ⟨_, rfl, left, fine, rfl⟩
  | .emptyObject blank', _, fuel + 1, parser, space, rest, blank, _, here, fine => by
    obtain ⟨read, left⟩ :=
      @next_punctuation World settings parser space _ .beginObject _ rfl blank here
    obtain ⟨⟨⟨keep, seen⟩, asked⟩, answer⟩ : ∃ answer,
        ask settings.callback .objectStart .discarded parser.state = answer := ⟨_, rfl⟩
    rw [visit_object [] answer, parseInternal_object_true read answer, objectFrom, get_bind]
    obtain ⟨closed, left⟩ := @next_punctuation World settings
      ((parser.next settings).told (deepen settings.callback 1 asked).2) _ rest .endObject _ rfl
      blank' (left.trans (by simp))
    rw [if_pos closed]
    cases keep with
    | false => exact .inr ⟨_, rfl, left, fine, rfl⟩
    | true =>
      rw [finish_eq, tells_bind, reportValue_eq, if_pos rfl, visitMembers, pure_bind,
        SortedMap.firsts_nil]
      exact .inr ⟨_, rfl, left, fine, rfl⟩
  | .object members, finite, fuel + 1, parser, space, rest, blank, _, here, fine => by
    obtain ⟨read, left⟩ :=
      @next_punctuation World settings parser space _ .beginObject _ rfl blank here
    obtain ⟨⟨⟨keep, seen⟩, asked⟩, answer⟩ : ∃ answer,
        ask settings.callback .objectStart .discarded parser.state = answer := ⟨_, rfl⟩
    have open_ : ((parser.next settings).told (deepen settings.callback 1 asked).2).lexer.left =
      _ ++ rest := left
    rw [visit_object _ answer, parseInternal_object_true read answer, objectFrom, get_bind,
      if_neg (next_member members open_)]
    cases keep with
    | false =>
      exact (passes_members members finite.2 fuel _ seen rest open_ fine).bind
        fun after left fine same => .inr ⟨after, rfl, left, fine, same⟩
    | true =>
      refine (gives_members members finite.2 fuel _ [] rest open_ fine).bind
        fun after left fine same => ?_
      -- The members that were kept were inserted one by one.
      rw [endLoop, if_pos rfl, SortedMap.foldl_insert_eq_firsts, finish_eq, tells_bind,
        reportValue_eq, same]
      exact .inr ⟨_, rfl, left, fine, rfl⟩

/-- Elements that are written are read up to the closing bracket. -/
theorem gives_elements {text : Chars} {trees : List BasicJson} :
    WritesElements settings.strtod text trees →
    BasicJson.EveryElement BasicJson.IsFinite trees →
    ∀ (fuel : Nat) (parser : Parser World) (before : List BasicJson) (rest : Chars),
      parser.lexer.left = text ++ rest → parser.errored = false →
      Gives (parseElements settings fuel true (.array before) (parser.next settings))
        (true, .array (before ++ (visitElements settings.callback trees parser.state).1))
        (visitElements settings.callback trees parser.state).2 rest
  | _, _, 0, _, _, _, _, _ => .inl rfl
  | .last blank element blank', finite, fuel + 1, parser, before, rest, here, fine => by
    -- The last element is followed by the closing bracket.
    rename_i tree
    have given := gives_value element finite.1 fuel parser _ _ blank
      (@separated_of_mark settings.strtod _ rest blank' 0x5d (by decide) _) (by rw [here]; simp) fine
    rcases given with out | ⟨after, run, left, fine, same⟩
    · exact .inl (by rw [parseElements, bind_error out])
    · obtain ⟨closed, _⟩ :=
        @next_punctuation World settings after _ rest .endArray _ rfl blank' left
      rw [parseElements_of_run run fine, if_neg (by rw [closed]; simp), visitElements_cons,
        grown_array, visitElements_nil, List.append_nil, ← same]
      exact gives_closing .endArray rfl rfl blank' fine left
  | .cons blank element blank' later, finite, fuel + 1, parser, before, rest, here, fine => by
    rename_i between gap behind tree trees
    have given := gives_value element finite.1 fuel parser _ (gap ++ 0x2c :: (behind ++ rest)) blank
      (separated_of_mark blank' 0x2c (by decide)) (by rw [here]; simp) fine
    rcases given with out | ⟨after, run, left, fine, same⟩
    · exact .inl (by rw [parseElements, bind_error out])
    · obtain ⟨comma, left⟩ :=
        @next_punctuation World settings after _ _ .valueSeparator _ rfl blank' left
      rw [parseElements_of_run run fine, if_pos comma, visitElements_cons, grown_array]
      -- What was built so far goes on with this element, if it was kept.
      have ends := gives_elements later finite.2 fuel (after.next settings)
        (before ++ keptElement (visit settings.callback tree parser.state).1) rest left fine
      rw [show (after.next settings).state = after.state from rfl, same, List.append_assoc] at ends
      exact ends

/-- Members that are written are read up to the closing bracket. -/
theorem gives_members {text : Chars} {entries : List (Chars × BasicJson)} :
    WritesMembers settings.strtod text entries →
    BasicJson.EveryMember BasicJson.IsFinite entries →
    ∀ (fuel : Nat) (parser : Parser World) (before : List (Chars × BasicJson)) (rest : Chars),
      parser.lexer.left = text ++ rest → parser.errored = false →
      Gives (parseMembers settings fuel true (.object before) (parser.next settings))
        (true, .object ((visitMembers settings.callback entries parser.state).1.foldl
          (fun built entry => SortedMap.insert entry.1 entry.2 built) before))
        (visitMembers settings.callback entries parser.state).2 rest
  | _, _, 0, _, _, _, _, _ => .inl rfl
  | .last (.mk blank spelled blank' blank'' writes) final, finite, fuel + 1, parser, before, rest,
      here, fine => by
    rename_i tree _ _ _ _ _ chars
    obtain ⟨name, left⟩ :=
      @next_key World settings parser _ _ _ _ blank spelled (by rw [here]; simp; rfl)
    obtain ⟨⟨⟨tag, seen⟩, asked⟩, answer⟩ : ∃ answer,
        ask settings.callback .key (.string (Utf8.bytes chars)) parser.state = answer := ⟨_, rfl⟩
    -- The answer about the key is kept until the value is read.
    have told := keepTag_told answer
    obtain ⟨colon, left⟩ := @next_punctuation World settings ((parser.next settings).told asked) _ _
      .nameSeparator _ rfl blank' left
    have given := gives_value writes finite.1 fuel
      ((((parser.next settings).told asked)).next settings) _ _ blank''
      (@separated_of_mark settings.strtod _ rest final 0x7d (by decide) _) left fine
    rcases given with out | ⟨after, run, left, fine, same⟩
    · exact .inl (parseMembers_of_error name told colon out)
    · obtain ⟨closed, _⟩ :=
        @next_punctuation World settings after _ rest .endObject _ rfl final left
      -- Asking about the key has changed the state that the value is asked in.
      replace same : after.state = (visit settings.callback tree asked).2 := same
      rw [parseMembers_of_run name told colon run fine, if_neg (by rw [closed]; simp),
        visitMembers_cons _ answer, joined_object, visitMembers_nil, List.append_nil, ← same]
      exact gives_closing .endObject rfl rfl final fine left
  | .cons (.mk blank spelled blank' blank'' writes) final later, finite, fuel + 1, parser, before,
      rest, here, fine => by
    rename_i tree entries _ _ _ _ _ chars
    obtain ⟨name, left⟩ :=
      @next_key World settings parser _ _ _ _ blank spelled (by rw [here]; simp; rfl)
    obtain ⟨⟨⟨tag, seen⟩, asked⟩, answer⟩ : ∃ answer,
        ask settings.callback .key (.string (Utf8.bytes chars)) parser.state = answer := ⟨_, rfl⟩
    have told := keepTag_told answer
    obtain ⟨colon, left⟩ := @next_punctuation World settings ((parser.next settings).told asked) _ _
      .nameSeparator _ rfl blank' left
    have given := gives_value writes finite.1 fuel
      ((((parser.next settings).told asked)).next settings) _ _ blank''
      (@separated_of_mark settings.strtod _ (_ ++ rest) final 0x2c (by decide) _) left fine
    rcases given with out | ⟨after, run, left, fine, same⟩
    · exact .inl (parseMembers_of_error name told colon out)
    · obtain ⟨comma, left⟩ :=
        @next_punctuation World settings after _ _ .valueSeparator _ rfl final left
      replace same : after.state = (visit settings.callback tree asked).2 := same
      rw [parseMembers_of_run name told colon run fine, if_pos comma, visitMembers_cons _ answer,
        joined_object]
      -- What was built so far goes on with this member, if it was kept.
      have ends := gives_members later finite.2 fuel (after.next settings)
        ((keptMember tag (Utf8.bytes chars) (visit settings.callback tree asked).1).foldl
          (fun built entry => SortedMap.insert entry.1 entry.2 built) before) rest left fine
      rw [show (after.next settings).state = after.state from rfl, same,
        ← List.foldl_append] at ends
      exact ends

end

/-! Numbers that are not finite. -/

section Overflow

variable {strtod : Chars → UInt64}

/-- Code throws because of a number that is not finite, unless its fuel is too little. -/
def Overflows (result : Except Failure (α × Parser Unit)) : Prop :=
  result = .error .outOfFuel ∨
    ∃ whatArg, result = .error (.thrown (.outOfRange 406 whatArg))

/-- Code behind a number that is not finite is not reached. -/
theorem Overflows.bind {code : Parsing Unit α} {next : α → Parsing Unit β} {parser : Parser Unit}
    (overflows : Overflows (code parser)) : Overflows ((code >>= next) parser) := by
  rcases overflows with out | ⟨whatArg, thrown⟩
  · exact .inl (bind_error out)
  · exact .inr ⟨whatArg, bind_error thrown⟩

/-- A token that is a number but not a finite one. -/
theorem overflows_scalar {parser : Parser Unit} {value : BasicJson}
    (known : parser.lastToken.scalar = some value) (infinite : ¬value.IsFinite) :
    Overflows (parseInternal (plain strtod) (fuel + 1) true parser) := by
  -- Only a double can be infinite.
  obtain ⟨bits, rfl⟩ : ∃ bits, value = .numberFloat bits := by
    cases value <;> first | exact ⟨_, rfl⟩ | exact absurd trivial infinite
  have token : parser.lastToken = .valueFloat bits := Token.scalar_inj known rfl
  have unbounded : isFinite bits = false := by simpa [BasicJson.IsFinite] using infinite
  rw [parseInternal_scalar (by rw [token]; simp) (by rw [token]; simp), parseScalar, get_bind, token]
  simp only [unbounded, Bool.not_false, if_true]
  exact .inr ⟨_, rfl⟩

mutual

/-- A value with a number in it that is not finite is not read through. -/
theorem overflows_value {text : Chars} {tree : BasicJson} : Writes strtod text tree →
    ¬tree.Every BasicJson.IsFinite →
    ∀ (fuel : Nat) (parser : Parser Unit) (space rest : Chars), Blank space →
      (∀ value, IsNumber strtod text value → Delimited rest) →
      parser.lexer.left = space ++ (text ++ rest) → parser.errored = false →
      Overflows (parseInternal (plain strtod) fuel true (parser.next (plain strtod)))
  | _, _, 0, _, _, _, _, _, _, _ => .inl rfl
  | .scalar written, infinite, fuel + 1, parser, space, rest, blank, separated, here, _ => by
    obtain ⟨token, known⟩ := written.exists_token
    obtain ⟨read, _⟩ := @next_lexeme Unit (plain strtod) parser space _ rest token blank
      (.scalar written known) separated here
    -- This is the number itself.
    exact overflows_scalar (read ▸ known) fun finite => infinite (written.every finite)
  | .emptyArray _, infinite, _, _, _, _, _, _, _, _ => absurd ⟨trivial, trivial⟩ infinite
  | .array elements, infinite, fuel + 1, parser, space, rest, blank, _, here, fine => by
    obtain ⟨read, left⟩ :=
      @next_punctuation Unit (plain strtod) parser space _ .beginArray _ rfl blank here
    rw [parseInternal_array read, if_neg (next_element elements left)]
    exact (overflows_elements elements (fun finite => infinite ⟨trivial, finite⟩) fuel
      (parser.next (plain strtod)) [] rest left fine).bind
  | .emptyObject _, infinite, _, _, _, _, _, _, _, _ => absurd ⟨trivial, trivial⟩ infinite
  | .object members, infinite, fuel + 1, parser, space, rest, blank, _, here, fine => by
    obtain ⟨read, left⟩ :=
      @next_punctuation Unit (plain strtod) parser space _ .beginObject _ rfl blank here
    rw [parseInternal_object read, if_neg (next_member members left)]
    exact (overflows_members members (fun finite => infinite ⟨trivial, finite⟩) fuel
      (parser.next (plain strtod)) [] rest left fine).bind

/-- Elements with such a number are not read through. -/
theorem overflows_elements {text : Chars} {trees : List BasicJson} :
    WritesElements strtod text trees → ¬BasicJson.EveryElement BasicJson.IsFinite trees →
    ∀ (fuel : Nat) (parser : Parser Unit) (before : List BasicJson) (rest : Chars),
      parser.lexer.left = text ++ rest → parser.errored = false →
      Overflows (parseElements (plain strtod) fuel true (.array before)
        (parser.next (plain strtod)))
  | _, _, 0, _, _, _, _, _ => .inl rfl
  | .last blank element blank', infinite, fuel + 1, parser, before, rest, here, fine => by
    rw [parseElements]
    -- It is in the only element.
    exact (overflows_value element (fun finite => infinite ⟨finite, trivial⟩) fuel parser _ _ blank
      (@separated_of_mark strtod _ rest blank' 0x5d (by decide) _) (by rw [here]; simp) fine).bind
  | .cons blank element blank' later, infinite, fuel + 1, parser, before, rest, here, fine => by
    rename_i space word gap behind tree trees
    have there : parser.lexer.left = space ++ (word ++ (gap ++ 0x2c :: (behind ++ rest))) :=
      here.trans (by simp)
    have separated := @separated_of_mark strtod gap (behind ++ rest) blank' 0x2c (by decide) word
    by_cases finite : tree.Every BasicJson.IsFinite
    · -- The number is behind this element, which is read through.
      rcases @gives_value Unit (plain strtod) _ _ element finite fuel parser _ _ blank separated
        there fine with out | ⟨after, run, left, fine, _⟩
      · exact .inl (by rw [parseElements, bind_error out])
      · obtain ⟨comma, left⟩ :=
          @next_punctuation Unit (plain strtod) after _ _ .valueSeparator _ rfl blank' left
        rw [parseElements_of_run run fine, if_pos comma, grown_array]
        exact overflows_elements later (fun finite' => infinite ⟨finite, finite'⟩) fuel
          (after.next (plain strtod)) _ rest left fine
    · -- It is in this element, so that the rest is not reached.
      rw [parseElements]
      exact (overflows_value element finite fuel parser _ _ blank separated there fine).bind

/-- Members with such a number are not read through. -/
theorem overflows_members {text : Chars} {entries : List (Chars × BasicJson)} :
    WritesMembers strtod text entries → ¬BasicJson.EveryMember BasicJson.IsFinite entries →
    ∀ (fuel : Nat) (parser : Parser Unit) (before : List (Chars × BasicJson)) (rest : Chars),
      parser.lexer.left = text ++ rest → parser.errored = false →
      Overflows (parseMembers (plain strtod) fuel true (.object before)
        (parser.next (plain strtod)))
  | _, _, 0, _, _, _, _, _ => .inl rfl
  | .last (.mk blank spelled blank' blank'' writes) final, infinite, fuel + 1, parser, before, rest,
      here, fine => by
    obtain ⟨name, left⟩ :=
      @next_key Unit (plain strtod) parser _ _ _ _ blank spelled (by rw [here]; simp; rfl)
    obtain ⟨colon, left⟩ := @next_punctuation Unit (plain strtod) (parser.next (plain strtod)) _ _
      .nameSeparator _ rfl blank' left
    rw [parseMembers_of_key name rfl colon]
    exact (overflows_value writes (fun finite => infinite ⟨finite, trivial⟩) fuel
      ((parser.next (plain strtod)).next (plain strtod)) _ _ blank''
      (@separated_of_mark strtod _ rest final 0x7d (by decide) _) left fine).bind
  | .cons (.mk blank spelled blank' blank'' writes) final later, infinite, fuel + 1, parser, before,
      rest, here, fine => by
    rename_i gap more tree entries _ _ _ _ word chars
    obtain ⟨name, left⟩ :=
      @next_key Unit (plain strtod) parser _ _ _ _ blank spelled (by rw [here]; simp; rfl)
    obtain ⟨colon, left⟩ := @next_punctuation Unit (plain strtod) (parser.next (plain strtod)) _ _
      .nameSeparator _ rfl blank' left
    have separated := @separated_of_mark strtod gap (more ++ rest) final 0x2c (by decide) word
    by_cases finite : tree.Every BasicJson.IsFinite
    · -- The number is behind this member, which is read through.
      rcases @gives_value Unit (plain strtod) _ _ writes finite fuel
        ((parser.next (plain strtod)).next (plain strtod)) _ _ blank'' separated left fine with
        out | ⟨after, run, left, fine, _⟩
      · exact .inl (parseMembers_of_error name rfl colon out)
      · obtain ⟨comma, left⟩ :=
          @next_punctuation Unit (plain strtod) after _ _ .valueSeparator _ rfl final left
        rw [parseMembers_of_run name rfl colon run fine, if_pos comma, joined_object]
        exact overflows_members later (fun finite' => infinite ⟨finite, finite'⟩) fuel
          (after.next (plain strtod)) _ rest left fine
    · -- It is in this member.
      rw [parseMembers_of_key name rfl colon]
      exact (overflows_value writes finite fuel ((parser.next (plain strtod)).next (plain strtod))
        _ _ blank'' separated left fine).bind

end

end Overflow

end Parser

end LinuxPro.Json
