import LinuxPro.Dns.Server
import Mathlib.Order.Basic

/-! What the DNS test server adds to the answer of a request, and that it never sends it. -/

namespace LinuxPro.Dns

variable {results : Nat → Int32} {questions : List Question} {question : Question} {s t : State}

/-- The records that a question should be answered with. -/
def answerTo (question : Question) : List Answer :=
  if question.type = evdnsTypeA ∧ question.dnsQuestionClass = evdnsClassInet then
    [.a question.name [[192, 168, 11, 11]] 10]
  else if question.type = evdnsTypePtr ∧ question.dnsQuestionClass = evdnsClassInet then
    [.ptr question.name (.ofString "foo.bar.example.com") 10]
  else []

/-- Whether every call that adds a record for one of the questions succeeds. -/
def Succeeds (results : Nat → Int32) (questions : List Question) : Prop :=
  ∀ i question, questions[i]? = some question → answerTo question ≠ [] → 0 ≤ results i

/-- A request is answered by one response, with a record for each question there is one for. -/
def Answered (results : Nat → Int32) (questions : List Question) (t : State) : Prop :=
  ∃ response, t.responses = [response] ∧
    (Succeeds results questions → response = questions.flatMap answerTo)

/-- A call that adds a record adds it exactly if it succeeds. -/
theorem addReply_run (result : Int32) (answer : Answer) (s : State) :
    (addReply result answer).run s =
      pure (result, { s with answers := s.answers ++ if 0 ≤ result then [answer] else [] }) := by
  by_cases succeeds : 0 ≤ result <;> simp [addReply, succeeds]

/-- The messages printed for a question. -/
def messages (result : Int32) (question : Question) : List Message :=
  if question.type = evdnsTypeA ∧ question.dnsQuestionClass = evdnsClassInet then
    .replyingA question.name :: if result < 0 then [.didntWork] else []
  else if question.type = evdnsTypePtr ∧ question.dnsQuestionClass = evdnsClassInet then
    .replyingPtr question.name :: if result < 0 then [.noLuck] else []
  else [.skipping question.name question.type question.dnsQuestionClass]

/-- For one question the records it should be answered with are added, unless that fails. -/
theorem replyTo_run (result : Int32) (question : Question) (s : State) :
    (replyTo result question).run s = pure ((),
      { s with
        answers := s.answers ++ if 0 ≤ result then answerTo question else []
        printed := s.printed ++ messages result question }) := by
  have address : htonl 0xc0a80b0b = [192, 168, 11, 11] := by decide
  -- The type and the class pick the branch, and the result whether it complains.
  by_cases isA : question.type = evdnsTypeA ∧ question.dnsQuestionClass = evdnsClassInet
  · by_cases failed : result < 0 <;>
      simp [replyTo, isA, evdnsServerRequestAddAReply, addReply_run, print, failed, address,
        answerTo, messages]
  by_cases isPtr : question.type = evdnsTypePtr ∧ question.dnsQuestionClass = evdnsClassInet
  · have distinct : evdnsTypePtr ≠ evdnsTypeA := by decide
    by_cases failed : result < 0 <;>
      simp [replyTo, isPtr, distinct, evdnsServerRequestAddPtrReply, addReply_run, print, failed,
        answerTo, messages]
  · simp [replyTo, isA, isPtr, print, answerTo, messages]

/-- The records that the callback adds, for each question whose call succeeds. -/
def added (results : Nat → Int32) : List Question → List Answer
  | [] => []
  | question :: rest =>
    (if 0 ≤ results 0 then answerTo question else []) ++ added (fun i => results (i + 1)) rest

/-- The callback adds records in the order of the questions, and sends nothing. -/
theorem evdnsServerCallback_run (results : Nat → Int32) (questions : List Question) (s : State) :
    ∃ printed, (evdnsServerCallback results questions).run s = pure ((),
      { s with answers := s.answers ++ added results questions, printed := printed }) := by
  -- Each question leaves the state in which the next one is looked at.
  induction questions generalizing results s with
  | nil => exact ⟨s.printed, by simp [evdnsServerCallback, added]⟩
  | cons question rest ih =>
    obtain ⟨printed, ran⟩ := ih (fun i => results (i + 1))
      { s with
        answers := s.answers ++ if 0 ≤ results 0 then answerTo question else []
        printed := s.printed ++ messages (results 0) question }
    exact ⟨printed, by simp [evdnsServerCallback, replyTo_run, ran, added]⟩

/-- If no call fails, the records are exactly those the questions should be answered with. -/
theorem added_of_succeeds (succeeds : Succeeds results questions) :
    added results questions = questions.flatMap answerTo := by
  induction questions generalizing results with
  | nil => rfl
  | cons question rest ih =>
    have later : added (fun i => results (i + 1)) rest = rest.flatMap answerTo :=
      ih fun i q found some => succeeds (i + 1) q (by simpa using found) some
    rw [added, later, List.flatMap_cons]
    by_cases none : answerTo question = []
    · -- Nothing is added for a question of another kind, whatever the result says.
      simp [none]
    · -- There is a record to add, and adding it succeeds.
      rw [if_pos (succeeds 0 question rfl none)]

/--
The callback answers no request, although it adds all the records it should.

It returns without `evdns_server_request_respond`, and with that call at its end every request would
be answered.
-/
theorem never_answers (results : Nat → Int32) (questions : List Question) :
    ¬ Answered results questions ((evdnsServerCallback results questions).run {}).2 ∧
      ((evdnsServerCallback results questions).run {}).2.responses = [] ∧
      Answered results questions
        ((do evdnsServerCallback results questions; evdnsServerRequestRespond).run {}).2 := by
  obtain ⟨printed, ran⟩ := evdnsServerCallback_run results questions {}
  have silent : ((evdnsServerCallback results questions).run {}).2.responses = [] := by
    rw [ran]
    rfl
  have responded :
      ((do evdnsServerCallback results questions; evdnsServerRequestRespond).run {}).2.responses =
        [added results questions] := by
    rw [StateT.run_bind, ran]
    rfl
  refine ⟨?_, silent, _, responded, added_of_succeeds⟩
  -- There would have to be a response.
  rintro ⟨response, one, _⟩
  rw [silent] at one
  cases one

/-- A question for the address of a name. -/
def addressQuestion : Question := ⟨evdnsTypeA, evdnsClassInet, .ofString "a.example.com"⟩

/-- The record for the one question of a request is added and never sent. -/
theorem address_question_unanswered :
    ((evdnsServerCallback (fun _ => 0) [addressQuestion]).run {}).2 =
      { answers := [.a (.ofString "a.example.com") [[192, 168, 11, 11]] 10], responses := [],
        printed := [.replyingA (.ofString "a.example.com")] } := by
  decide

end LinuxPro.Dns
