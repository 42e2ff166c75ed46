import LinuxPro.Lib.CString
import Mathlib.Control.Monad.Basic

/-! The callback of the DNS test server, which adds an answer for each question it knows. -/

namespace LinuxPro.Dns

/-- The question type `EVDNS_TYPE_A`. -/
def evdnsTypeA : Int32 := 1

/-- The question type `EVDNS_TYPE_PTR`. -/
def evdnsTypePtr : Int32 := 12

/-- The question class `EVDNS_CLASS_INET`. -/
def evdnsClassInet : Int32 := 1

/-- One of the questions of a request. -/
structure Question where
  type : Int32
  dnsQuestionClass : Int32
  name : Chars
  deriving DecidableEq

/-- A record that was added to the answer of a request. -/
inductive Answer where
  /-- Addresses, each as four bytes in network order. -/
  | a (name : Chars) (addrs : List Chars) (ttl : Int32)
  | ptr (name hostname : Chars) (ttl : Int32)
  deriving DecidableEq

/-- What the callback prints. -/
inductive Message where
  | replyingA (name : Chars)
  | replyingPtr (name : Chars)
  | didntWork
  | noLuck
  | skipping (name : Chars) (type dnsQuestionClass : Int32)
  deriving DecidableEq

/-- What has been done for a request. -/
structure State where
  /-- The records added so far, which the client does not see yet. -/
  answers : List Answer := []
  /-- The responses sent to the client, with the records that each of them carries. -/
  responses : List (List Answer) := []
  printed : List Message := []
  deriving DecidableEq

/-- Code of the callback. -/
abbrev ServerM := StateM State

/-- `printf` of a message. -/
def print (message : Message) : ServerM Unit :=
  modify fun s => { s with printed := s.printed ++ [message] }

/-- The bytes of a number in network order, which is what `htonl` leaves in memory. -/
def htonl (host : UInt32) : Chars :=
  [(host >>> 24).toUInt8, (host >>> 16).toUInt8, (host >>> 8).toUInt8, host.toUInt8]

/-- Add a record to the answer, unless the result says that this failed. -/
def addReply (result : Int32) (answer : Answer) : ServerM Int32 := do
  -- The library returns a negative number for a record it could not add.
  if 0 ≤ result then
    modify fun s => { s with answers := s.answers ++ [answer] }
  return result

/-- `evdns_server_request_add_a_reply`. -/
def evdnsServerRequestAddAReply (result : Int32) (name : Chars) (addrs : List Chars)
    (ttl : Int32) : ServerM Int32 :=
  addReply result (.a name addrs ttl)

/-- `evdns_server_request_add_ptr_reply` without an address, for the name of a question. -/
def evdnsServerRequestAddPtrReply (result : Int32) (inaddrName hostname : Chars) (ttl : Int32) :
    ServerM Int32 :=
  addReply result (.ptr inaddrName hostname ttl)

/-- `evdns_server_request_respond`, which sends the records that were added. -/
def evdnsServerRequestRespond : ServerM Unit :=
  modify fun s => { s with responses := s.responses ++ [s.answers] }

/-- What the loop does for one question, if adding a record for it has this result. -/
def replyTo (result : Int32) (question : Question) : ServerM Unit := do
  let ans := htonl 0xc0a80b0b
  -- The class is tested together with the type in both branches.
  if question.type = evdnsTypeA ∧ question.dnsQuestionClass = evdnsClassInet then
    print (.replyingA question.name)
    let r ← evdnsServerRequestAddAReply result question.name [ans] 10
    if r < 0 then
      print .didntWork
  else if question.type = evdnsTypePtr ∧ question.dnsQuestionClass = evdnsClassInet then
    print (.replyingPtr question.name)
    let r ← evdnsServerRequestAddPtrReply result question.name
      (.ofString "foo.bar.example.com") 10
    if r < 0 then
      print .noLuck
  else
    print (.skipping question.name question.type question.dnsQuestionClass)

/-- The callback, over the questions and the results of adding records for them. -/
def evdnsServerCallback (results : Nat → Int32) : List Question → ServerM Unit
  -- The callback returns at the end of the loop, without sending what was added.
  | [] => return
  | question :: rest => do
    replyTo (results 0) question
    evdnsServerCallback (fun i => results (i + 1)) rest

end LinuxPro.Dns
