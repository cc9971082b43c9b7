import Forgeant.Create
import Forgeant.Retry

namespace Forgeant

/-- The conversations that the chat calls of a trace were handed, with what each
call came back with. -/
def chats (es : List Event) : List (Conversation × Except StdException LlmResponse) :=
  es.filterMap (fun e => match e with | .chat c _ outcome => some (c, outcome) | _ => none)

/-- `d` is `c`, if with further messages. -/
def Conversation.Continues (d c : Conversation) : Prop := ∃ ms, d = c.extend ms

/-- The later chat call was handed what the earlier was handed and then its reply. -/
def Resumes (earlier later : Conversation × Except StdException LlmResponse) : Prop :=
  ∃ response, earlier.2 = .ok response ∧ later.1.Continues (earlier.1.add response.message)

/-- Chat calls that go on from one another, the first from `c`. -/
structure Unfolds (c : Conversation) (es : List Event) : Prop where
  resumes : (chats es).Pairwise Resumes
  continues : ∀ p ∈ chats es, p.1.Continues c

/-- Chat calls that all replied, and what goes on from `d` goes on from each. -/
structure Spans (c : Conversation) (es : List Event) (d : Conversation) : Prop extends
    Unfolds c es where
  reaches : ∀ p ∈ chats es, Resumes p (d, p.2)

/-- A request's body lists the messages of the conversation, each written on its
own, and holds nothing else that depends on them. -/
structure Wire.Lists (wire : Wire) (write : Message → List Json) : Prop where
  appends : ∀ {c : Conversation} {request : ChatRequest} {body : Json},
    wire.body c request = .ok body →
    ∃ members listed, body = .object members ∧
      Assoc.find? (str "messages") members = some (.array listed) ∧
      ∀ ms, wire.body (c.extend ms) request = .ok (.object (Assoc.set (str "messages")
        (.array (listed ++ ms.flatMap write)) members))

variable [Platform]

/-- What a chat call posts and comes back with, if it posts anything. -/
def Wire.posting (wire : Wire) :
    Event → Option ((Str × HttpHeaders × Str) × Except StdException LlmResponse)
  | .chat c request outcome =>
    match wire.body c request with
    | .ok body => some ((wire.url, wire.headers, body.dump), outcome)
    | .error _ => none
  | .execute _ _ _ => none

/-- The later request repeats the earlier one, with the reply to it and maybe
more at the end of its messages. -/
def Wire.Appends (wire : Wire) (write : Message → List Json) (earlier later : Exchange) : Prop :=
  ∃ response members listed more, wire.read earlier.outcome = .ok response ∧
    Assoc.find? (str "messages") members = some (.array listed) ∧
    earlier.request = (wire.url, wire.headers, (Json.object members).dump) ∧
    later.request = (wire.url, wire.headers, (Json.object (Assoc.set (str "messages")
      (.array (listed ++ write response.message ++ more)) members)).dump)

end Forgeant
