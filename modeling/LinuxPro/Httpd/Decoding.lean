import LinuxPro.Httpd.Safety

/-! The parameter values that reach the handler unchanged, although they are decoded twice. -/

namespace LinuxPro.Httpd

open Http (evhttpParseQuery evhttpFindHeader ampersand equals pieces parameters)
open Percent (Plain mark encode decode)

variable {escape : UInt8 → Bool} {path v w key value : Chars}

/-- The bytes that have a meaning in a uri, and the percent sign. -/
def reserved : Chars := .ofString ":/?#[]@!$&'()*+,;=%"

/-- The uri that a client sends for these two values. -/
def clientUri (escape : UInt8 → Bool) (path v w : Chars) : Chars :=
  path ++ .ofString "?q=" ++ encode escape v ++ .ofString "&s=" ++ encode escape w

/-- Whether a value has neither an ampersand nor anything that decoding changes. -/
def Unchanged (value : Chars) : Prop := ampersand ∉ value ∧ Plain value

/-- The query of the uri after it was decoded once. -/
def decodedQuery (v w : Chars) : Chars := .ofString "q=" ++ v ++ .ofString "&s=" ++ w

/-- The decoder leaves the fixed parts of the query alone and undoes the encoding of the others. -/
theorem decode_clientUri (covers : ∀ byte ∈ reserved, escape byte = true) (unmarked : mark ∉ path) :
    decode false (clientUri escape path v w) =
      decode false path ++ mark :: decodedQuery v w := by
  -- The two bytes that decoding looks for are among those that are encoded.
  have percents : escape Percent.percent = true := covers _ (by decide)
  have pluses : escape Percent.plus = true := covers _ (by decide)
  have marked : Chars.ofString "?q=" = mark :: Chars.ofString "q=" := rfl
  have ended : ∀ value, decode true (encode escape value) = value := by
    intro value
    simpa [decode, Percent.decodeBehind] using Percent.decode_encode percents pluses value []
  simp only [clientUri, marked, List.append_assoc, List.cons_append]
  -- The path is decoded on its own, and then the parts of the query from left to right.
  rw [Percent.decode_append_mark unmarked, Percent.decode_append_ordinary (by decide) (by decide),
    Percent.decode_encode percents pluses,
    Percent.decode_append_ordinary (by decide) (by decide), ended]
  simp [decodedQuery]

/-- A text that decodes to itself is one that decoding leaves alone, also as a C string. -/
theorem text_decode_eq_self_iff (printable : ∀ byte ∈ value, byte ≠ 0) :
    (decode true value).text = value ↔ Plain value := by
  rw [← Percent.decode_eq_self_iff]
  constructor
  · intro same
    -- The text is part of what was decoded, which is no longer than the value.
    have part : (decode true value).text <+: decode true value := List.takeWhile_prefix _
    rw [same] at part
    exact (part.eq_of_length_le (Percent.length_decode_le true value)).symm
  · -- A value has no zero in it, so that it is its own text.
    intro same
    rw [same]
    exact Chars.text_eq_self printable

section Piece

variable {rest : Chars} {headers : List (Chars × Chars)}

/-- Whether a text can be a key in a query. -/
structure IsKey (key : Chars) : Prop where
  single : equals ∉ key
  whole : ampersand ∉ key
  nonempty : key ≠ []

/-- A value without an ampersand makes one piece with its key. -/
theorem pieces_key (isKey : IsKey key) (whole : ampersand ∉ value)
    (follows : rest = [] ∨ ∃ more, rest = ampersand :: more) :
    pieces (key ++ equals :: (value ++ rest)) = (key ++ equals :: value) :: pieces rest.tail := by
  have apart : ampersand ∉ key ++ equals :: value := by
    have different : ampersand ≠ equals := by decide
    simp [isKey.whole, whole, different]
  rcases follows with rfl | ⟨more, rfl⟩
  · -- It is the last piece.
    rw [List.append_nil, Http.pieces_single apart (by simp)]
    rfl
  · simpa using Http.pieces_append apart

/-- What is read from such a piece is the key and the decoded value. -/
theorem parameters_key (isKey : IsKey key) (whole : ampersand ∉ value)
    (follows : rest = [] ∨ ∃ more, rest = ampersand :: more) :
    parameters (pieces (key ++ equals :: (value ++ rest))) =
      (parameters (pieces rest.tail)).map ((key, (decode true value).text) :: ·) := by
  rw [pieces_key isKey whole follows, parameters,
    Http.parameter_piece isKey.single isKey.nonempty]
  cases parameters (pieces rest.tail) <;> rfl

/-- A value that is read as it was meant has no ampersand and is left alone by decoding. -/
theorem unchanged_of_parameters (isKey : IsKey key) (printable : ∀ byte ∈ value, byte ≠ 0)
    (follows : rest = [] ∨ ∃ more, rest = ampersand :: more)
    (found : parameters (pieces (key ++ equals :: (value ++ rest))) = some headers) :
    ∃ read others, headers = (key, read) :: others ∧
      (read = value → Unchanged value ∧ parameters (pieces rest.tail) = some others) := by
  by_cases cut : ampersand ∈ value
  · -- Only what precedes the ampersand is read, and it does not become longer.
    obtain ⟨first, later, rfl, whole⟩ := List.eq_append_cons_of_mem cut
    rw [List.append_assoc, List.cons_append, parameters_key isKey whole (.inr ⟨_, rfl⟩)] at found
    obtain ⟨others, _, rfl⟩ := Option.map_eq_some_iff.mp found
    refine ⟨_, others, rfl, fun same => ?_⟩
    have shorter : (decode true first).text.length ≤ first.length :=
      (List.takeWhile_prefix _).length_le.trans (Percent.length_decode_le true first)
    rw [same, List.length_append, List.length_cons] at shorter
    omega
  · -- The piece ends with the value, which is decoded.
    rw [parameters_key isKey cut follows] at found
    obtain ⟨others, later, rfl⟩ := Option.map_eq_some_iff.mp found
    exact ⟨_, others, rfl, fun same => ⟨⟨cut, (text_decode_eq_self_iff printable).mp same⟩, later⟩⟩

end Piece

section Find

variable {other read : Chars} {headers : List (Chars × Chars)}

/-- The first header of a name is the one that is found. -/
theorem find_same : evhttpFindHeader ((key, read) :: headers) key = some read := by
  simp [evhttpFindHeader]

/-- A header of another name is passed over. -/
theorem find_other (different : key.map Http.lower ≠ other.map Http.lower) :
    evhttpFindHeader ((key, read) :: headers) other = evhttpFindHeader headers other := by
  simp [evhttpFindHeader, different]

end Find

/-- The name of the first parameter. -/
theorem isKey_q : IsKey (.ofString "q") := ⟨by decide, by decide, by decide⟩

/-- The name of the second parameter. -/
theorem isKey_s : IsKey (.ofString "s") := ⟨by decide, by decide, by decide⟩

/-- The decoded query as two pieces. -/
theorem decodedQuery_eq (v w : Chars) : decodedQuery v w = Chars.ofString "q" ++
    equals :: (v ++ ampersand :: (Chars.ofString "s" ++ equals :: (w ++ []))) := by
  have first : Chars.ofString "q=" = Chars.ofString "q" ++ [equals] := rfl
  have second : Chars.ofString "&s=" = ampersand :: (Chars.ofString "s" ++ [equals]) := rfl
  simp [decodedQuery, first, second]

/-- Both values are found in the query that was decoded once exactly if both are left unchanged. -/
theorem find_iff {uri : Chars} (query : Http.queryPart uri = decodedQuery v w)
    (printable : ∀ byte ∈ v, byte ≠ 0) (printable' : ∀ byte ∈ w, byte ≠ 0) :
    (evhttpFindHeader (evhttpParseQuery uri) (.ofString "q") = some v ∧
      evhttpFindHeader (evhttpParseQuery uri) (.ofString "s") = some w) ↔
      Unchanged v ∧ Unchanged w := by
  have different : (Chars.ofString "q").map Http.lower ≠ (Chars.ofString "s").map Http.lower := by
    decide
  rw [evhttpParseQuery, query, decodedQuery_eq]
  constructor
  · rintro ⟨foundQ, foundS⟩
    cases parsed : parameters (pieces (Chars.ofString "q" ++
        equals :: (v ++ ampersand :: (Chars.ofString "s" ++ equals :: (w ++ []))))) with
    | none =>
      -- Nothing would be found in a malformed query.
      rw [parsed] at foundQ
      cases foundQ
    | some headers =>
      rw [parsed, Option.getD_some] at foundQ foundS
      -- The first header is that of the first value, and the second is looked at only then.
      obtain ⟨readQ, others, rfl, meantQ⟩ :=
        unchanged_of_parameters isKey_q printable (.inr ⟨_, rfl⟩) parsed
      rw [find_same] at foundQ
      rw [find_other different] at foundS
      obtain ⟨first, later⟩ := meantQ (Option.some.inj foundQ)
      obtain ⟨readS, more, rfl, meantS⟩ :=
        unchanged_of_parameters isKey_s printable' (.inl rfl) later
      rw [find_same] at foundS
      exact ⟨first, (meantS (Option.some.inj foundS)).1⟩
  · -- Both pieces are read as they were meant.
    rintro ⟨⟨whole, plain⟩, whole', plain'⟩
    have none : parameters (pieces []) = some [] := rfl
    rw [parameters_key isKey_q whole (.inr ⟨_, rfl⟩), List.tail_cons,
      parameters_key isKey_s whole' (.inl rfl), List.tail_nil, none,
      (text_decode_eq_self_iff printable).mpr plain,
      (text_decode_eq_self_iff printable').mpr plain']
    exact ⟨find_same, (find_other different).trans find_same⟩

/-- The path once it is decoded, as the text before the first zero in it. -/
def pathText (path : Chars) : Chars := (decode false path).text

/--
The query that begins at a question mark in the decoded path: the rest of the path with what the
client meant behind it, unless a zero in the path cuts that off.
-/
def shiftedQuery (path v w : Chars) : Chars :=
  Http.queryPart (pathText path) ++
    if 0 ∈ decode false path then [] else mark :: decodedQuery v w

/--
Whether the values of a client reach the handler.

If the decoded path has no question mark and no zero, the query begins where the client meant it,
and both values have to be left unchanged. If it has a question mark, the query begins there, and
the first parameters of the two names in it count.
-/
def Delivered (path v w : Chars) : Prop :=
  (mark ∉ pathText path ∧ 0 ∉ decode false path ∧ Unchanged v ∧ Unchanged w) ∨
    (mark ∈ pathText path ∧ Http.HasParameter (shiftedQuery path v w) (.ofString "q") v ∧
      Http.HasParameter (shiftedQuery path v w) (.ofString "s") w)

/-- The query behind a question mark in the path goes on to the end of the uri. -/
theorem queryPart_append {first : Chars} (marked : mark ∈ first) (rest : Chars) :
    Http.queryPart (first ++ rest) = Http.queryPart first ++ rest := by
  obtain ⟨before, behind, rfl, unmarked⟩ := List.eq_append_cons_of_mem marked
  rw [List.append_assoc, List.cons_append, Http.queryPart_mark unmarked,
    Http.queryPart_mark unmarked]

/-- Text without a question mark has no query. -/
theorem queryPart_unmarked {text : Chars} (unmarked : mark ∉ text) : Http.queryPart text = [] := by
  have ordinary : text.dropWhile (fun byte => byte ≠ mark) = [] := by
    rw [List.dropWhile_eq_nil_iff]
    exact Chars.ne_of_not_mem unmarked
  rw [Http.queryPart, ordinary, List.tail_nil]

/-- The decoded uri of a client, which a zero in the path cuts off. -/
theorem decodedUri_clientUri (covers : ∀ byte ∈ reserved, escape byte = true)
    (unmarked : mark ∉ path) (printable : ∀ byte ∈ v, byte ≠ 0)
    (printable' : ∀ byte ∈ w, byte ≠ 0) :
    decodedUri libevent (clientUri escape path v w) = pathText path ++
      (if 0 ∈ decode false path then [] else mark :: decodedQuery v w) := by
  have decoded : decodedUri libevent (clientUri escape path v w) =
      (decode false path ++ mark :: decodedQuery v w).text :=
    congrArg Chars.text (decode_clientUri covers unmarked)
  rw [decoded]
  split
  · -- The text ends at the zero, before anything that follows the path.
    rename_i zero
    obtain ⟨before, behind, cut, _⟩ := List.eq_append_cons_of_mem zero
    rw [pathText, cut, List.append_assoc, List.cons_append, Chars.text_append_zero,
      Chars.text_append_zero, List.append_nil]
  · -- No zero was decoded, so that the decoded uri is a text as a whole.
    rename_i whole
    have printablePath : ∀ byte ∈ decode false path, byte ≠ 0 := fun byte member same =>
      whole (same ▸ member)
    have first : ∀ byte ∈ mark :: Chars.ofString "q=", byte ≠ 0 :=
      Chars.printable_of_all (by decide)
    have second : ∀ byte ∈ Chars.ofString "&s=", byte ≠ 0 := Chars.printable_of_all (by decide)
    rw [pathText, Chars.text_eq_self printablePath]
    apply Chars.text_eq_self
    simp only [decodedQuery, ← List.cons_append, List.forall_mem_append]
    exact ⟨printablePath, ⟨⟨first, printable⟩, second⟩, printable'⟩

/-- Both values are found in the uri exactly if they reach the handler. -/
theorem delivered_iff (covers : ∀ byte ∈ reserved, escape byte = true) (unmarked : mark ∉ path)
    (printable : ∀ byte ∈ v, byte ≠ 0) (printable' : ∀ byte ∈ w, byte ≠ 0) {uri : Chars}
    (decoded : uri = decodedUri libevent (clientUri escape path v w)) :
    (evhttpFindHeader (evhttpParseQuery uri) (.ofString "q") = some v ∧
      evhttpFindHeader (evhttpParseQuery uri) (.ofString "s") = some w) ↔
      Delivered path v w := by
  rw [decodedUri_clientUri covers unmarked printable printable'] at decoded
  unfold Delivered
  by_cases marked : mark ∈ pathText path
  · -- The query begins inside the path.
    simp only [marked, not_true_eq_false, false_and, false_or, true_and]
    rw [Http.find_parseQuery_iff, Http.find_parseQuery_iff, decoded, queryPart_append marked]
    rfl
  · simp only [marked, not_false_eq_true, true_and, false_and, or_false]
    by_cases zero : 0 ∈ decode false path
    · -- Nothing is left of the query, so that nothing is found in it.
      simp only [zero, not_true_eq_false, false_and, iff_false]
      rw [if_pos zero, List.append_nil] at decoded
      rw [Http.find_parseQuery_iff, decoded, queryPart_unmarked marked]
      rintro ⟨⟨_, before, piece, after, split, _⟩, _⟩
      have none : pieces [] = [] := rfl
      simp [none] at split
    · -- The query is the one that the client meant, decoded once.
      simp only [zero, not_false_eq_true, true_and]
      rw [if_neg zero] at decoded
      apply find_iff _ printable printable'
      rw [decoded, Http.queryPart_mark marked]

/-- What libevent finds is a text already. -/
theorem find_map_text (uri key : Chars) :
    (evhttpFindHeader (evhttpParseQuery uri) key).map Chars.text =
      evhttpFindHeader (evhttpParseQuery uri) key := by
  cases found : evhttpFindHeader (evhttpParseQuery uri) key with
  | none => rfl
  | some value =>
    exact congrArg some ((Http.find_parseQuery_iff uri key value).mp found).text_eq

/-- Encode the bytes that have a meaning in a uri. -/
def escapeReserved (byte : UInt8) : Bool := decide (byte ∈ reserved)

/-- A request for this uri, without a body. -/
def requestFor (uri : Chars) (printable : uri.all (· ≠ 0) = true) : Request where
  uri := uri
  printable := by simpa using printable
  inputBuffer := []

/-- A request with `a=b?` and `c/d` for the two values. -/
def separators : Request := requestFor (.ofString "/echo?q=a%3Db%3F&s=c%2Fd") (by decide)

/-- A request with `a+b` and `c` for the two values. -/
def encodedPlus : Request := requestFor (.ofString "/echo?q=a%2Bb&s=c") (by decide)

end LinuxPro.Httpd
