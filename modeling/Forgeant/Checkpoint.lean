import Forgeant.Conversion
import Forgeant.Json.Reading
import Forgeant.Replay

namespace Forgeant

variable [Platform]

def Conversation.save (c : Conversation) : Str := c.toJson.dump

def Conversation.load (text : Str) : Except StdException Conversation :=
  Json.parse text >>= Conversation.fromJson

def ContentBlock.Lasting (valid : Str → Prop) : ContentBlock → Prop
  | .text b => valid b.text
  | .toolUse b => valid b.id ∧ valid b.name ∧ b.input.Lasting valid
  | .toolResult b => valid b.toolUseId ∧ valid b.content

structure Conversation.Lasting (valid : Str → Prop) (c : Conversation) : Prop where
  prompt : ∀ prompt, c.systemPrompt = some prompt → valid prompt
  blocks : ∀ m ∈ c.messages, ∀ block ∈ m.content, block.Lasting valid

/-- What the model is shown of an execution. -/
def answerText : Except StdException Json → Str
  | .ok output => output.dump
  | .error e => e.what

/-- Among these messages, what is in front of `post` ends with a text that the
call rejected with `e`, and with the turn that says so. -/
structure Corrects {T : Type} (call : Call T) (messages : List Message) (e : StdException)
    (pre post : List Message) : Prop where
  place : messages = pre ++ correctiveMessage e.what :: post
  rejects : call.Rejects (extractLastText { messages := pre }) e

/-- The messages that a call with these events can add to those it leaves. -/
inductive Written {T : Type} (es : List Event) (call : Call T) (left : List Message) :
    Message → Prop
  | response {c : Conversation} {request : ChatRequest} {response : LlmResponse}
      (h : .chat c request (.ok response) ∈ es) : Written es call left response.message
  | results {c : Conversation} {request : ChatRequest} {response : LlmResponse}
      (h : .chat c request (.ok response) ∈ es) {results : List ContentBlock}
      (hresults : ∀ block ∈ results, ∃ use ∈ response.message.toolUses, ∃ outcome,
        .execute use.name use.input outcome ∈ es ∧ block = .toolResult (toolResult use outcome)) :
      Written es call left ⟨.tool, results⟩
  | corrective {e : StdException} {pre post : List Message} (h : Corrects call left e pre post) :
      Written es call left (correctiveMessage e.what)

end Forgeant
