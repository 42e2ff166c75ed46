import LinuxPro.Http.Libevent
import LinuxPro.Lib.Percent

/-! How libevent decodes a uri and finds the parameters in its query. -/

namespace LinuxPro.Http

/-- `evhttp_decode_uri`, which takes a plus for a space only behind the first question mark. -/
def evhttpDecodeUri (uri : Chars) : Chars := Percent.decode false uri

/-- The text behind the first question mark. -/
def queryPart (uri : Chars) : Chars := (uri.dropWhile fun byte => byte ≠ Percent.mark).tail

/-- The byte `&`. -/
def ampersand : UInt8 := 38

/-- The byte `=`. -/
def equals : UInt8 := 61

/-- The pieces of a query between ampersands, where nothing behind the last one is no piece. -/
def pieces (query : Chars) : List Chars :=
  let all := query.splitOn ampersand
  if all.getLast? = some [] then all.dropLast else all

/-- The key and the decoded value of a piece, which has to have a key and an equals sign. -/
def parameter (piece : Chars) : Option (Chars × Chars) :=
  match piece.takeWhile (· ≠ equals), piece.dropWhile (· ≠ equals) with
  -- There is no equals sign.
  | _, [] => none
  -- There is nothing in front of it.
  | [], _ => none
  -- The value is kept as a text, so that a zero among what was decoded ends it.
  | key, _ :: value => some (key, (Percent.decode true value).text)

/-- The parameters of all the pieces, unless one is malformed. -/
def parameters : List Chars → Option (List (Chars × Chars))
  | [] => some []
  | piece :: rest => do
    let header ← parameter piece
    let headers ← parameters rest
    return header :: headers

/-- `evhttp_parse_query`, which leaves no parameters behind if one of the pieces is malformed. -/
def evhttpParseQuery (uri : Chars) : List (Chars × Chars) :=
  (parameters (pieces (queryPart uri))).getD []

example : evhttpParseQuery (.ofString "/a?q=1+2&s=%41=") =
    [(.ofString "q", .ofString "1 2"), (.ofString "s", .ofString "A=")] := by
  decide

/-- The name in a piece, which precedes its first equals sign. -/
def nameOf (piece : Chars) : Chars := piece.takeWhile (· ≠ equals)

/-- The value in a piece before it is decoded. -/
def valueOf (piece : Chars) : Chars := (piece.dropWhile (· ≠ equals)).tail

/-- Whether a piece has an equals sign and a name in front of it. -/
def IsNamed (piece : Chars) : Prop := equals ∈ piece ∧ nameOf piece ≠ []

/-- Whether two names are the same, whatever the case of their letters. -/
def SameName (name key : Chars) : Prop := name.map lower = key.map lower

/--
Whether a query gives this value to this name: all its pieces are well formed, and the first one
with the name has a value that is decoded to this one.
-/
def HasParameter (query key value : Chars) : Prop :=
  (∀ piece ∈ pieces query, IsNamed piece) ∧
    ∃ before piece after, pieces query = before ++ piece :: after ∧ SameName (nameOf piece) key ∧
      (∀ earlier ∈ before, ¬ SameName (nameOf earlier) key) ∧
      (Percent.decode true (valueOf piece)).text = value

/-- The header that is made of a well-formed piece. -/
def headerOf (piece : Chars) : Chars × Chars :=
  (nameOf piece, (Percent.decode true (valueOf piece)).text)

/-- A piece has a parameter exactly if it is well formed. -/
theorem parameter_eq (piece : Chars) [Decidable (IsNamed piece)] :
    parameter piece = if IsNamed piece then some (headerOf piece) else none := by
  have sign : piece.dropWhile (· ≠ equals) = [] ↔ equals ∉ piece := by
    rw [List.dropWhile_eq_nil_iff]
    constructor
    · intro ordinary member
      simpa using ordinary equals member
    · intro absent byte member
      simpa using fun same : byte = equals => absent (same ▸ member)
  unfold parameter
  split
  · -- Nothing is left behind the name, so that there is no equals sign.
    rename_i nothing
    rw [if_neg fun named : IsNamed piece => sign.mp nothing named.1]
  · -- The equals sign comes first.
    rename_i nothing _
    rw [if_neg fun named : IsNamed piece => named.2 nothing]
  · rename_i value name behind nonempty
    have named : IsNamed piece := by
      refine ⟨?_, nonempty⟩
      by_contra absent
      rw [sign.mpr absent] at behind
      cases behind
    rw [if_pos named, headerOf, nameOf, valueOf, behind]
    rfl

open Classical in
/-- There are parameters exactly if all pieces are well formed. -/
theorem parameters_eq (all : List Chars) :
    parameters all = if ∀ piece ∈ all, IsNamed piece then some (all.map headerOf) else none := by
  -- A malformed piece takes all the others with it.
  induction all with
  | nil => simp [parameters]
  | cons piece rest ih =>
    rw [parameters, parameter_eq, ih]
    by_cases named : IsNamed piece
    · by_cases others : ∀ piece ∈ rest, IsNamed piece
      · rw [if_pos named, if_pos others, if_pos (by simpa [named] using others)]
        rfl
      · rw [if_pos named, if_neg others, if_neg (by simpa [named] using others)]
        rfl
    · have malformed : ¬ ∀ other ∈ piece :: rest, IsNamed other :=
        fun all => named (all piece List.mem_cons_self)
      rw [if_neg named, if_neg malformed]
      rfl

/-- What is found under a name in a uri is what its query has for it. -/
theorem find_parseQuery_iff (uri key value : Chars) :
    evhttpFindHeader (evhttpParseQuery uri) key = some value ↔
      HasParameter (queryPart uri) key value := by
  classical
  unfold evhttpFindHeader evhttpParseQuery HasParameter
  rw [parameters_eq]
  by_cases formed : ∀ piece ∈ pieces (queryPart uri), IsNamed piece
  · -- The first header of the name is made of the first piece of the name.
    rw [if_pos formed, Option.getD_some, List.find?_map, Option.map_map,
      Option.map_eq_some_iff]
    simp only [List.find?_eq_some_iff_append, Function.comp_apply, decide_eq_true_eq,
      Bool.not_eq_true', decide_eq_false_iff_not]
    constructor
    · rintro ⟨piece, ⟨same, before, after, split, earlier⟩, rfl⟩
      exact ⟨formed, before, piece, after, split, same, earlier, rfl⟩
    · rintro ⟨_, before, piece, after, split, same, earlier, rfl⟩
      exact ⟨piece, ⟨same, before, after, split, earlier⟩, rfl⟩
  · -- There is nothing to be found in a malformed query.
    rw [if_neg formed]
    exact iff_of_false (by simp) fun has => formed has.1

/-- The value that is found is a text. -/
theorem HasParameter.text_eq {query key value : Chars} (has : HasParameter query key value) :
    value.text = value := by
  obtain ⟨_, _, _, _, _, _, _, rfl⟩ := has
  exact Chars.text_eq_self fun _ => Chars.ne_zero_of_mem_text

section Split

variable {key value query before rest : Chars}

/-- The query begins behind the first question mark. -/
theorem queryPart_mark (unmarked : Percent.mark ∉ before) :
    queryPart (before ++ Percent.mark :: rest) = rest := by
  have ordinary := Chars.ne_of_not_mem unmarked
  rw [queryPart, List.dropWhile_append_of_pos ordinary]
  simp

/-- A piece ends before the first ampersand. -/
theorem pieces_append (whole : ampersand ∉ value) :
    pieces (value ++ ampersand :: rest) = value :: pieces rest := by
  -- What follows is split into one piece at least, so that the last one is among them.
  have some := List.splitOn_ne_nil ampersand rest
  rw [pieces, List.splitOn_append_cons_self_of_not_mem whole, pieces]
  cases more : List.splitOn ampersand rest with
  | nil => exact absurd more some
  | cons piece others =>
    simp only [List.getLast?_cons_cons, List.dropLast_cons_cons]
    split <;> rfl

/-- A query without an ampersand is a single piece. -/
theorem pieces_single (whole : ampersand ∉ query) (nonempty : query ≠ []) :
    pieces query = [query] := by
  simp [pieces, List.splitOn_eq_singleton whole, nonempty]

/-- A piece with a key is split at its first equals sign. -/
theorem parameter_piece (single : equals ∉ key) (nonempty : key ≠ []) :
    parameter (key ++ equals :: value) = some (key, (Percent.decode true value).text) := by
  have ordinary := Chars.ne_of_not_mem single
  cases key with
  | nil => exact absurd rfl nonempty
  | cons byte key =>
    -- The key is all that precedes the equals sign, and it is not empty.
    simp only [parameter, List.takeWhile_append_of_pos ordinary,
      List.dropWhile_append_of_pos ordinary]
    simp

/-- A piece is no longer than the query it was split from. -/
theorem length_le_of_mem_pieces {piece : Chars} (member : piece ∈ pieces query) :
    piece.length ≤ query.length := by
  -- What follows the first ampersand is a shorter query.
  induction size : query.length using Nat.strong_induction_on generalizing query with
  | _ size ih =>
    by_cases cut : ampersand ∈ query
    · obtain ⟨first, later, rfl, whole⟩ := List.eq_append_cons_of_mem cut
      rw [List.length_append, List.length_cons] at size
      rw [pieces_append whole, List.mem_cons] at member
      rcases member with rfl | member
      · omega
      · have shorter := ih later.length (by omega) member rfl
        omega
    · by_cases empty : query = []
      · rw [empty] at member
        cases member
      · rw [pieces_single cut empty, List.mem_singleton] at member
        rw [member, size]

/-- A value is no longer than the query that has it. -/
theorem HasParameter.length_le (has : HasParameter query key value) : value.length ≤ query.length := by
  obtain ⟨_, before, piece, after, split, _, _, rfl⟩ := has
  have member : piece ∈ pieces query := by simp [split]
  calc (Percent.decode true (valueOf piece)).text.length
    _ ≤ (Percent.decode true (valueOf piece)).length := (List.takeWhile_prefix _).length_le
    _ ≤ (valueOf piece).length := Percent.length_decode_le true _
    _ ≤ (piece.dropWhile (· ≠ equals)).length := by simp [valueOf]
    _ ≤ piece.length := (List.dropWhile_sublist _).length_le
    _ ≤ query.length := length_le_of_mem_pieces member

/-- The query is no longer than the uri. -/
theorem length_queryPart_le (uri : Chars) : (queryPart uri).length ≤ uri.length := by
  have shorter := (List.dropWhile_sublist (fun byte => byte ≠ Percent.mark) (l := uri)).length_le
  rw [queryPart, List.length_tail]
  omega

end Split

end LinuxPro.Http
