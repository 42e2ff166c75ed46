import LinuxPro.Http.Query
import LinuxPro.Httpd.Handler

/-! The requests for which the handler stays within its arrays. -/

namespace LinuxPro.Httpd

open Http (printed)

variable (evhttp : Evhttp)

/-- The parameter of this name that the handler finds in a request. -/
def param (req : Request) (key : Chars) : Option Chars :=
  (evhttp.findHeader (evhttp.parseQuery (decodedUri evhttp req.uri)) key).map Chars.text

/-- A labelled value with a newline behind it. -/
def line (label value : Chars) : Chars := label ++ value ++ .ofString "\n"

/-- The six texts that are echoed for a request with these values of its parameters. -/
def echoed (req : Request) (q s : Chars) : List Chars :=
  [line (.ofString "uri=") req.uri, line (.ofString "uri=") req.uri,
    line (.ofString "decoded_uri=") (decodedUri evhttp req.uri), line (.ofString "q=") q,
    line (.ofString "s=") s, line (.ofString "post_data=") req.inputBuffer.text]

/-- The six texts that are echoed for a request. -/
def lines (req : Request) : List Chars :=
  echoed evhttp req (printed (param evhttp req (.ofString "q")))
    (printed (param evhttp req (.ofString "s")))

/-- The length of what is printed for the parameter of this name. -/
def paramLength (req : Request) (key : Chars) : Nat := (printed (param evhttp req key)).length

/-- Whether a body fits in `post_data` with a zero in it or behind it. -/
def BodyFits (body : Chars) : Prop := body.length < 512 ∨ body.length = 512 ∧ 0 ∈ body

instance (body : Chars) : Decidable (BodyFits body) := inferInstanceAs (Decidable (_ ∨ _))

/-- The length of all that is echoed for a request apart from the labels. -/
def echoLength (req : Request) : Nat :=
  2 * req.uri.length + (decodedUri evhttp req.uri).length +
    paramLength evhttp req (.ofString "q") + paramLength evhttp req (.ofString "s") +
    req.inputBuffer.text.length

/-- Whether a request fits in the arrays, by the lengths of its parts and of what is made of them. -/
structure Fits (req : Request) : Prop where
  /-- The decoded uri fits in `tmp` with its label, a newline and a zero. -/
  decoded : (decodedUri evhttp req.uri).length ≤ 1010
  /-- The first parameter fits in `tmp` likewise. -/
  q : paramLength evhttp req (.ofString "q") ≤ 1020
  /-- The second parameter fits in `tmp` likewise. -/
  s : paramLength evhttp req (.ofString "s") ≤ 1020
  /-- All together fit in `output` with the labels, the newlines and a zero. -/
  output : echoLength evhttp req ≤ 2007
  /-- The body fits in `post_data`. -/
  body : BodyFits req.inputBuffer

instance (req : Request) : Decidable (Fits evhttp req) :=
  decidable_of_iff
    ((decodedUri evhttp req.uri).length ≤ 1010 ∧ paramLength evhttp req (.ofString "q") ≤ 1020 ∧
      paramLength evhttp req (.ofString "s") ≤ 1020 ∧ echoLength evhttp req ≤ 2007 ∧
      BodyFits req.inputBuffer)
    ⟨fun ⟨decoded, q, s, output, body⟩ => ⟨decoded, q, s, output, body⟩,
      fun fits => ⟨fits.decoded, fits.q, fits.s, fits.output, fits.body⟩⟩

/-- Libevent returns nothing that is longer than what it was given. -/
structure Evhttp.Shortens : Prop where
  decodeUri : ∀ uri, (evhttp.decodeUri uri).length ≤ uri.length
  findHeader : ∀ {uri key value}, evhttp.findHeader (evhttp.parseQuery uri) key = some value →
    value.length ≤ uri.length

/-- The reply that echoes these texts. -/
def reply (texts : List Chars) : Reply where
  code := 200
  reason := .ofString "OK"
  headers := [(.ofString "Server", signature),
    (.ofString "Content-Type", .ofString "text/plain; charset=UTF-8"),
    (.ofString "Connection", .ofString "close")]
  body := .ofString "It works!\n" ++ texts.flatten ++ .ofString "\n"

variable {evhttp} {frame : Frame} {out : Chars}

/-- An operation on an array faults exactly if it does not succeed. -/
theorem on_spec {α : Type} {place : Variable} {outcome : Except BufferFault α} {condition : Prop}
    {ends : α → Prop} (spec : OkIff outcome condition ends) :
    SucceedsIff (on place outcome) frame condition fun value t => t = frame ∧ ends value := by
  refine ⟨fun holds => ?_, fun fails => ?_⟩
  · obtain ⟨value, rfl, ended⟩ := spec.1 holds
    exact ⟨(value, frame), rfl, rfl, ended⟩
  · obtain ⟨kind, rfl⟩ := spec.2 fails
    exact ⟨⟨place, kind⟩, rfl⟩

/-- A text is formatted exactly if it fits in `tmp` with a zero behind it. -/
theorem sprintf_spec {text : Chars} (printable : ∀ byte ∈ text, byte ≠ 0) :
    SucceedsIff (sprintf text) frame (text.length < 1024) fun _ t =>
      ∃ tmp, t = { frame with tmp := tmp } ∧ tmp.Holds text := by
  -- Storing the array back cannot fault.
  refine .get (.bind_always (on_spec (frame.tmp.strcpy_spec printable)) ?_)
  rintro tmp t ⟨rfl, holds⟩
  exact .modify ⟨tmp, rfl, holds⟩

/-- The text in `tmp` is appended exactly if it fits in `output` with a zero behind it. -/
theorem strcat_spec {text : Chars} (formatted : frame.tmp.Holds text)
    (holds : frame.output.Holds out) (printable : ∀ byte ∈ out ++ text, byte ≠ 0) :
    SucceedsIff strcat frame ((out ++ text).length < 2048) fun _ t =>
      ∃ output, t = { frame with output := output } ∧ output.Holds (out ++ text) := by
  -- There is a text in `tmp`, so that only the room in `output` matters.
  refine .get (.always_bind (on_spec (.of_ok formatted rfl)) ?_)
  rintro _ t ⟨rfl, rfl⟩
  refine .get (.bind_always (on_spec (Buffer.strcat_spec holds printable)) ?_)
  rintro output t ⟨rfl, joined⟩
  exact .modify ⟨output, rfl, joined⟩

/-- Whether a text fits in `tmp` and, behind what was echoed before, in `output`. -/
def EchoFits (out text : Chars) : Prop :=
  text.length < 1024 ∧ (out ++ text).length < 2048

/-- A labelled value is echoed exactly if it fits in `tmp` and, behind the others, in `output`. -/
theorem echo_spec {label value : Chars} (holds : frame.output.Holds out)
    (printable : ∀ byte ∈ out ++ line label value, byte ≠ 0) :
    SucceedsIff (echo label value) frame (EchoFits out (line label value)) fun _ t =>
      ∃ output tmp, t = { frame with output := output, tmp := tmp } ∧
        output.Holds (out ++ line label value) := by
  have alone : ∀ byte ∈ line label value, byte ≠ 0 := fun byte member =>
    printable byte (List.mem_append_right out member)
  -- The two conditions are those of the two calls.
  refine .bind (sprintf_spec alone) ?_
  rintro _ t ⟨tmp, rfl, formatted⟩
  refine OkIff.imp (strcat_spec formatted holds printable) Iff.rfl ?_
  rintro ⟨_, t⟩ ⟨output, rfl, joined⟩
  exact ⟨output, tmp, rfl, joined⟩

/-- The body is copied exactly if it fits in `post_data`. -/
theorem evbufferCopyout_spec (body : Chars) :
    SucceedsIff (evbufferCopyout body) frame (body.length ≤ 512) fun _ t =>
      ∃ postData, t = { frame with postData := postData } ∧
        postData.bytes = frame.postData.bytes.store body := by
  refine .get (.bind_always (on_spec (frame.postData.store_spec body)) ?_)
  rintro postData t ⟨rfl, stored⟩
  exact .modify ⟨postData, rfl, stored⟩

/-- A labelled value has no zero in it if neither the label nor the value does. -/
theorem line_printable {label value : Chars} (fixed : label.all (· ≠ 0) = true)
    (printable : ∀ byte ∈ value, byte ≠ 0) : ∀ byte ∈ line label value, byte ≠ 0 := by
  have ends : ∀ byte ∈ Chars.ofString "\n", byte ≠ 0 := Chars.printable_of_all (by decide)
  -- The three parts of the line are looked at one by one.
  simp only [line, List.forall_mem_append]
  exact ⟨⟨Chars.printable_of_all fixed, printable⟩, ends⟩

/-- What is printed for a parameter has no zero in it. -/
theorem printed_param_printable (req : Request) (key : Chars) :
    ∀ byte ∈ printed (param evhttp req key), byte ≠ 0 := by
  unfold param
  cases evhttp.findHeader (evhttp.parseQuery (decodedUri evhttp req.uri)) key with
  -- A parameter that is absent is printed as a literal.
  | none =>
    have fixed : ∀ byte ∈ Chars.ofString "(null)", byte ≠ 0 := Chars.printable_of_all (by decide)
    exact fixed
  -- One that is present is printed up to its first zero.
  | some value => exact fun byte inside => Chars.ne_zero_of_mem_text inside

/-- There is no zero in what is echoed. -/
theorem lines_printable (req : Request) :
    ∀ text ∈ lines evhttp req, ∀ byte ∈ text, byte ≠ 0 := by
  have uri : ∀ byte ∈ line (.ofString "uri=") req.uri, byte ≠ 0 :=
    line_printable (by decide) req.printable
  simp only [lines, echoed, List.forall_mem_cons]
  refine ⟨uri, uri, line_printable (by decide) fun _ => Chars.ne_zero_of_mem_text,
    line_printable (by decide) (printed_param_printable req _),
    line_printable (by decide) (printed_param_printable req _),
    line_printable (by decide) fun _ => Chars.ne_zero_of_mem_text, by simp⟩

/-- What each operation of the handler needs, in the order in which it makes them. -/
def Steps (evhttp : Evhttp) (req : Request) : Prop :=
  match lines evhttp req with
  | [first, second, decoded, q, s, posted] =>
    EchoFits [] first ∧ EchoFits first second ∧ EchoFits (first ++ second) decoded ∧
      EchoFits (first ++ second ++ decoded) q ∧ EchoFits (first ++ second ++ decoded ++ q) s ∧
      req.inputBuffer.length ≤ 512 ∧ (req.inputBuffer.length < 512 ∨ 0 ∈ req.inputBuffer) ∧
      EchoFits (first ++ second ++ decoded ++ q ++ s) posted
  | _ => False

/-- A body that is copied and terminated is one that fits. -/
theorem bodyFits_iff (body : Chars) :
    BodyFits body ↔ body.length ≤ 512 ∧ (body.length < 512 ∨ 0 ∈ body) := by
  unfold BodyFits
  -- The two differ in how they put a body of exactly this length.
  by_cases inside : 0 ∈ body <;> simp only [inside, and_true, and_false, or_true, or_false]
  · omega
  · omega

/-- The length of a labelled value. -/
theorem length_line (label value : Chars) :
    (line label value).length = label.length + value.length + 1 := by
  simp only [line, List.length_append]
  rfl

/-- What the operations need one after the other is what fits at the end. -/
theorem steps_iff_fits (req : Request) : Steps evhttp req ↔ Fits evhttp req := by
  -- The labels are counted once and for all.
  have uri : (Chars.ofString "uri=").length = 4 := by decide
  have decodedLabel : (Chars.ofString "decoded_uri=").length = 12 := by decide
  have qLabel : (Chars.ofString "q=").length = 2 := by decide
  have sLabel : (Chars.ofString "s=").length = 2 := by decide
  have postLabel : (Chars.ofString "post_data=").length = 10 := by decide
  -- The text of the body is part of it.
  have part : req.inputBuffer.text.length ≤ req.inputBuffer.length :=
    (List.takeWhile_prefix _).length_le
  unfold Steps
  simp only [lines, echoed, EchoFits, List.length_append, List.nil_append, length_line, uri,
    decodedLabel, qLabel, sLabel, postLabel]
  constructor
  · -- The last line is appended to all the others, so that it needs room for them all.
    rintro ⟨_, _, decoded, q, s, short, terminated, posted⟩
    refine ⟨?_, ?_, ?_, ?_, (bodyFits_iff _).mpr ⟨short, terminated⟩⟩
    · omega
    · unfold paramLength
      omega
    · unfold paramLength
      omega
    · unfold echoLength paramLength
      omega
  · -- What was echoed at some point is no longer than what was echoed in the end.
    rintro ⟨decoded, q, s, output, body⟩
    obtain ⟨short, terminated⟩ := (bodyFits_iff _).mp body
    unfold echoLength at output
    unfold paramLength at q s output
    refine ⟨⟨?_, ?_⟩, ⟨?_, ?_⟩, ⟨?_, ?_⟩, ⟨?_, ?_⟩, ⟨?_, ?_⟩, short, terminated, ?_, ?_⟩ <;> omega

/-- The lookup of a parameter cannot fault. -/
theorem findParam_spec (key : Chars) :
    SucceedsIff (findParam evhttp key) frame True fun found t =>
      found = (evhttp.findHeader frame.params key).map Chars.text ∧
        t = { frame with lookups := frame.lookups ++ [(key, found)] } :=
  .of_ok rfl ⟨rfl, rfl⟩

/-- The text in an array of zeros that the body was copied to is that of the body. -/
theorem postData_text_spec {postData : Buffer 512} {body : Chars}
    (copied : postData.bytes = (Buffer.zeros 512).bytes.store body) :
    OkIff postData.text (body.length < 512 ∨ 0 ∈ body) fun text => text = body.text := by
  refine postData.text_spec.imp ?_ ?_
  · rw [copied]
    exact Chars.zero_mem_store_bzero 512 body
  · rintro text rfl
    rw [copied]
    exact Chars.text_store_bzero 512 body

/-- The handler succeeds exactly if all its operations do. -/
theorem httpdHandler_steps (tmp : Buffer 1024) (req : Request) :
    SucceedsIff (httpdHandler evhttp req) (begins tmp) (Steps evhttp req) fun _ t =>
      t.lookups = [(.ofString "q", param evhttp req (.ofString "q")),
        (.ofString "s", param evhttp req (.ofString "s"))] ∧ t.replies = [reply (lines evhttp req)] := by
  have printable := @lines_printable evhttp req
  simp only [lines, echoed, List.forall_mem_cons] at printable
  obtain ⟨uri, _, decoded, q, s, posted, _⟩ := printable
  have empty : (begins tmp).output.Holds [] := Buffer.zeros_holds (by decide)
  -- What `output` holds after each line has no zero in it either.
  have two := List.forall_mem_append.mpr ⟨uri, uri⟩
  have three := List.forall_mem_append.mpr ⟨two, decoded⟩
  have four := List.forall_mem_append.mpr ⟨three, q⟩
  have five := List.forall_mem_append.mpr ⟨four, s⟩
  have six := List.forall_mem_append.mpr ⟨five, posted⟩
  -- One line of the source after the other, each from the frame that the one before left.
  refine .bind (echo_spec empty uri) ?_
  rintro _ t ⟨output, tmp, rfl, holds⟩
  refine .bind (echo_spec holds two) ?_
  rintro _ t ⟨output, tmp, rfl, holds⟩
  refine .bind (echo_spec holds three) ?_
  rintro _ t ⟨output, tmp, rfl, holds⟩
  -- The parameters are parsed, and then looked up and echoed one by one.
  refine .modify_bind (.always_bind (findParam_spec _) ?_)
  rintro _ t ⟨rfl, rfl⟩
  refine .bind (echo_spec holds four) ?_
  rintro _ t ⟨output, tmp, rfl, holds⟩
  refine .always_bind (findParam_spec _) ?_
  rintro _ t ⟨rfl, rfl⟩
  refine .bind (echo_spec holds five) ?_
  rintro _ t ⟨output, tmp, rfl, holds⟩
  -- The body is copied, and then read as a text.
  refine .bind (evbufferCopyout_spec _) ?_
  rintro _ t ⟨postData, rfl, copied⟩
  refine .get (.bind (on_spec (postData_text_spec copied)) ?_)
  rintro _ t ⟨rfl, rfl⟩
  refine .bind_always (echo_spec holds six) ?_
  rintro _ t ⟨output, tmp, rfl, holds⟩
  -- The headers and the reply cannot fault any more.
  refine .modify_bind (.modify_bind (.modify_bind (.get ?_)))
  refine .always_bind (on_spec (.of_ok holds rfl)) ?_
  rintro _ t ⟨rfl, rfl⟩
  refine .modify ⟨rfl, ?_⟩
  simp [begins, reply, lines, echoed, param]

/-- A text is no longer than the memory it stands in. -/
theorem length_text_le (buf : Chars) : buf.text.length ≤ buf.length :=
  (List.takeWhile_prefix _).length_le

/-- What is printed for a parameter is no longer than the decoded uri, if it is one. -/
theorem Evhttp.Shortens.paramLength_le (shortens : evhttp.Shortens) (req : Request) (key : Chars) :
    paramLength evhttp req key ≤ (decodedUri evhttp req.uri).length + 6 := by
  unfold paramLength param
  cases found : evhttp.findHeader (evhttp.parseQuery (decodedUri evhttp req.uri)) key with
  | none =>
    -- The literal that is printed has six bytes.
    exact Nat.le_add_left 6 _
  | some value =>
    have short := shortens.findHeader found
    have text := length_text_le value
    show value.text.length ≤ _
    omega

/-- The decoded uri is no longer than the uri. -/
theorem Evhttp.Shortens.decodedUri_le (shortens : evhttp.Shortens) (uri : Chars) :
    (decodedUri evhttp uri).length ≤ uri.length :=
  (length_text_le _).trans (shortens.decodeUri uri)

/-- The functions of libevent as they decode and split a uri. -/
def libevent : Evhttp where
  decodeUri := Http.evhttpDecodeUri
  parseQuery := Http.evhttpParseQuery
  findHeader := Http.evhttpFindHeader

/-- Decoding and splitting a uri makes nothing longer. -/
theorem libevent_shortens : libevent.Shortens where
  decodeUri := Percent.length_decode_le false
  findHeader := by
    intro uri key value found
    exact ((Http.find_parseQuery_iff uri key value).mp found).length_le.trans
      (Http.length_queryPart_le uri)

/-- A request for a uri of this many bytes, without a body. -/
def requestOfLength (length : Nat) : Request where
  uri := List.replicate length 97
  printable := by
    intro byte member
    rw [List.eq_of_mem_replicate member]
    decide
  inputBuffer := []

/--
The handler stays within its arrays exactly if the request fits in them by its lengths.

Succeeding means that each `sprintf` and `strcat` and the copy of the body stayed within its array,
and that `post_data` was terminated when it was formatted. The first part assumes nothing of what
libevent returns. If that is never longer than what it was made of, only the sum of the lengths and
the body count, every short request fits, and none with a longer uri or body does.
-/
theorem echo_fits_iff (evhttp : Evhttp) (tmp : Buffer 1024) (req : Request) :
    ((∃ ended, (httpdHandler evhttp req).run (begins tmp) = .ok ended) ↔ Fits evhttp req) ∧
      (evhttp.Shortens →
        (Fits evhttp req ↔ echoLength evhttp req ≤ 2007 ∧ BodyFits req.inputBuffer) ∧
        (5 * req.uri.length + req.inputBuffer.length ≤ 1995 → req.inputBuffer.length < 512 →
          Fits evhttp req)) ∧
      (Fits evhttp req → req.uri.length ≤ 1003 ∧ req.inputBuffer.length ≤ 512) := by
  refine ⟨(httpdHandler_steps tmp req).exists_iff.trans (steps_iff_fits req), fun shortens => ?_,
    fun fits => ?_⟩
  · have decoded := shortens.decodedUri_le req.uri
    have q := shortens.paramLength_le req (.ofString "q")
    have s := shortens.paramLength_le req (.ofString "s")
    have text := length_text_le req.inputBuffer
    constructor
    · constructor
      · exact fun fits => ⟨fits.output, fits.body⟩
      · -- Twice the uri fits in `output`, so that once its length does in `tmp`.
        rintro ⟨output, body⟩
        have total := output
        unfold echoLength at total
        exact ⟨by omega, by omega, by omega, output, body⟩
    · -- Each of the three texts that libevent returns counts as one more uri.
      intro short body
      exact ⟨by omega, by omega, by omega, by unfold echoLength; omega, .inl body⟩
  · have output := fits.output
    have body := (bodyFits_iff _).mp fits.body
    unfold echoLength at output
    omega

/-- A request for a uri of 399 bytes is echoed, since five times that fits. -/
theorem echo_fits_short :
    ∃ ended, (httpdHandler libevent (requestOfLength 399)).run (begins (.zeros 1024)) =
      .ok ended := by
  have uri : (requestOfLength 399).uri.length = 399 := List.length_replicate
  have body : (requestOfLength 399).inputBuffer.length = 0 := rfl
  have fits := echo_fits_iff libevent (.zeros 1024) (requestOfLength 399)
  refine fits.1.mpr ((fits.2.1 libevent_shortens).2 ?_ ?_)
  · rw [uri, body]
  · rw [body]
    decide

/-- A text that does not fit in `tmp` with a zero behind it overflows it. -/
theorem sprintf_overflow {text : Chars} (long : 1024 ≤ text.length) :
    (sprintf text).run frame = .error ⟨.tmp, .overflow⟩ := by
  have needs : ¬ (text ++ [0]).length ≤ 1024 := by
    rw [List.length_append, List.length_singleton]
    omega
  have full : frame.tmp.strcpy text = .error .overflow := dif_neg needs
  simp [sprintf, full, on]

/-- A uri of more than 1018 bytes overflows `tmp` in the first operation of the handler. -/
theorem overflow_of_long_uri (tmp : Buffer 1024) {req : Request} (long : 1018 < req.uri.length) :
    (httpdHandler evhttp req).run (begins tmp) = .error ⟨.tmp, .overflow⟩ := by
  have label : (Chars.ofString "uri=").length = 4 := by decide
  have newline : (Chars.ofString "\n").length = 1 := by decide
  have needs : 1024 ≤ (.ofString "uri=" ++ req.uri ++ .ofString "\n" : Chars).length := by
    simp only [List.length_append, label, newline]
    omega
  -- Nothing else is done once the first operation has faulted.
  simp only [httpdHandler, echo, StateT.run_bind, sprintf_overflow needs, error_bind]

/-- The first line for a uri of 1019 bytes is as long as `tmp`, so that its zero does not fit. -/
theorem long_uri_overflows :
    (httpdHandler libevent (requestOfLength 1019)).run (begins (.zeros 1024)) =
      .error ⟨.tmp, .overflow⟩ := by
  refine overflow_of_long_uri _ ?_
  rw [requestOfLength, List.length_replicate]
  decide

end LinuxPro.Httpd
