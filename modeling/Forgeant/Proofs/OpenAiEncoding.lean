import Forgeant.Json.Reference
import Forgeant.Requests

namespace Forgeant

namespace Proofs.OpenAiEncoding
open OpenAiProvider

def CarriesCall (call : SaidCall) (wire : Json) : Prop :=
  wire.index (str "id") = .ok (.string call.id) ∧
  ∃ function, wire.index (str "function") = .ok function ∧
    function.index (str "name") = .ok (.string call.name) ∧
    function.index (str "arguments") = .ok (.string call.arguments)

/-- The content is the text, or null where there is no text. -/
def CarriesText (text : Str) (wire : Json) : Prop :=
  wire.index (str "content") = .ok (.string text) ∨
    text = [] ∧ wire.index (str "content") = .ok .null

def CarriesCalls (calls : List SaidCall) (wire : Json) : Prop :=
  ∃ wires, wire.value Json.elements (str "tool_calls") [] = .ok wires ∧
    List.Forall₂ CarriesCall calls wires

def Carries : Said → Json → Prop
  | .turn role _ text calls, wire =>
    wire.index (str "role") = .ok role.toJson ∧ CarriesText text wire ∧ CarriesCalls calls wire
  | .result id content, wire =>
    wire.index (str "role") = .ok (.string (str "tool")) ∧
    wire.index (str "tool_call_id") = .ok (.string id) ∧
    wire.index (str "content") = .ok (.string content)

def CarriesPrompt (prompt : Str) (wire : Json) : Prop :=
  wire.index (str "role") = .ok (.string (str "system")) ∧
  wire.index (str "content") = .ok (.string prompt)

theorem carriesCall_unique {call call' : SaidCall} {wire : Json} (h : CarriesCall call wire)
    (h' : CarriesCall call' wire) : call = call' := by
  obtain ⟨id, name, arguments⟩ := call
  obtain ⟨id', name', arguments'⟩ := call'
  obtain ⟨hid, function, hfunction, hname, harguments⟩ := h
  obtain ⟨hid', function', hfunction', hname', harguments'⟩ := h'
  cases hid.symm.trans hid'
  cases hfunction.symm.trans hfunction'
  cases hname.symm.trans hname'
  cases harguments.symm.trans harguments'
  rfl

theorem carriesText_unique {text text' : Str} {wire : Json} (h : CarriesText text wire)
    (h' : CarriesText text' wire) : text = text' := by
  rcases h with h | ⟨rfl, h⟩ <;> rcases h' with h' | ⟨rfl, h'⟩ <;> cases h.symm.trans h' <;> rfl

theorem toJson_injective {role role' : Role} (h : role.toJson = role'.toJson) : role = role' := by
  cases role <;> cases role' <;> first | rfl | exact absurd h (by simp [Role.toJson]; decide)

theorem carries_leftUnique : Relator.LeftUnique Carries := by
  intro said said' wire h h'
  cases said with
  | turn role spoken text calls =>
    cases said' with
    | turn role' spoken' text' calls' =>
      obtain ⟨hrole, htext, wires, hwires, hcalls⟩ := h
      obtain ⟨hrole', htext', wires', hwires', hcalls'⟩ := h'
      cases toJson_injective (Except.ok.inj (hrole.symm.trans hrole'))
      cases carriesText_unique htext htext'
      cases hwires.symm.trans hwires'
      have hunique : Relator.LeftUnique CarriesCall := fun _ _ _ h h' => carriesCall_unique h h'
      cases hunique.forall₂ hcalls hcalls'
      rfl
    | result id content =>
      have hrole : role.toJson = Role.tool.toJson := Except.ok.inj (h.1.symm.trans h'.1)
      exact absurd (toJson_injective hrole) spoken
  | result id content =>
    cases said' with
    | turn role spoken text calls =>
      have hrole : role.toJson = Role.tool.toJson := Except.ok.inj (h'.1.symm.trans h.1)
      exact absurd (toJson_injective hrole) spoken
    | result id' content' =>
      obtain ⟨_, hid, hcontent⟩ := h
      obtain ⟨_, hid', hcontent'⟩ := h'
      cases hid.symm.trans hid'
      cases hcontent.symm.trans hcontent'
      rfl

theorem carriesPrompt_leftUnique : Relator.LeftUnique CarriesPrompt := by
  intro prompt prompt' wire h h'
  exact Json.string.inj (Except.ok.inj (h.2.symm.trans h'.2))

theorem forall₂_carriesPrompt (c : Conversation) :
    List.Forall₂ CarriesPrompt c.systemPrompt.toList (c.systemPrompt.map systemMessage).toList := by
  cases c.systemPrompt with
  | none => exact .nil
  | some prompt => exact .cons ⟨rfl, rfl⟩ .nil

section

variable {α β γ : Type} {R : α → β → Prop}

theorem forall₂_append_iff {as bs : List α} {cs ds : List β} (h : as.length = cs.length) :
    List.Forall₂ R (as ++ bs) (cs ++ ds) ↔ List.Forall₂ R as cs ∧ List.Forall₂ R bs ds := by
  induction as generalizing cs with
  | nil =>
    cases cs with
    | nil => simp
    | cons c cs => cases h
  | cons a as ih =>
    cases cs with
    | nil => cases h
    | cons c cs => simp [ih (Nat.succ.inj h), and_assoc]

theorem forall₂_flatMap_iff {f : γ → List α} {g : γ → List β} {ls : List γ}
    (h : ∀ c ∈ ls, (f c).length = (g c).length) :
    List.Forall₂ R (ls.flatMap f) (ls.flatMap g) ↔ ∀ c ∈ ls, List.Forall₂ R (f c) (g c) := by
  induction ls with
  | nil => simp
  | cons c ls ih =>
    rw [List.flatMap_cons, List.flatMap_cons, forall₂_append_iff (h c (by simp)),
      ih (fun d hd => h d (by simp [hd]))]
    simp

end

/-- The last text is all the text exactly when the others are empty. -/
theorem flatten_eq_lastText_iff (m : Message) : m.texts.flatten = lastText m ↔ m.OneText := by
  unfold lastText Message.OneText
  rcases List.eq_nil_or_concat m.texts with h | ⟨init, last, h⟩
  · simp [h]
  · rw [h]
    simp

/-- The same message with all texts but the last left out. -/
def keepLast (m : Message) : Message :=
  if m.role = .tool then m
  else ⟨m.role, .text ⟨lastText m⟩ :: m.toolUses.map ContentBlock.toolUse⟩

theorem keepLast_placed {m : Message} (h : m.Placed) : (keepLast m).Placed := by
  unfold keepLast
  by_cases ht : m.role = .tool
  · rwa [if_pos ht]
  · rw [if_neg ht]
    simp only [Message.Placed, ht, if_false, Message.toolResults]
    rw [List.filterMap_eq_nil_iff]
    intro b hb
    rcases List.mem_cons.mp hb with rfl | hb
    · rfl
    · obtain ⟨u, _, rfl⟩ := List.mem_map.mp hb
      rfl

theorem keepLast_fields {m : Message} (h : m.role ≠ .tool) :
    (keepLast m).role = m.role ∧ (keepLast m).texts = [lastText m] ∧
      (keepLast m).toolUses = m.toolUses := by
  unfold keepLast
  rw [if_neg h]
  refine ⟨rfl, ?_, ?_⟩
  · simp [Message.texts, ContentBlock.text?, List.filterMap_map, Function.comp_def]
  · simp [Message.toolUses, List.filterMap_cons, ContentBlock.toolUse?, List.filterMap_map,
      Function.comp_def]

section

variable [Platform]

/-- The messages carry the conversation: after the optional system message
there is one for each thing said, in order. -/
def Carried (c : Conversation) (wires : List Json) : Prop :=
  ∃ leading rest, wires = leading ++ rest ∧
    List.Forall₂ CarriesPrompt c.systemPrompt.toList leading ∧ List.Forall₂ Carries c.said rest

/-- Another conversation is sent as the same messages only if it says the same.
A system prompt is sent as a message of role system would be, so both have one
or neither. -/
def Told (c : Conversation) : Prop :=
  ∀ d : Conversation, d.Placed → d.OneText → d.systemPrompt.isSome = c.systemPrompt.isSome →
    serializeMessages c = serializeMessages d → c.systemPrompt = d.systemPrompt ∧ c.said = d.said

theorem carriesCalls_serializeMessage (m : Message) :
    CarriesCalls (m.toolUses.map ToolUseBlock.said) (serializeMessage m) := by
  refine ⟨_, (serializeMessage_fields m).2.2, ?_⟩
  rw [List.forall₂_map_left_iff, List.forall₂_map_right_iff, List.forall₂_same]
  intro u _
  exact ⟨rfl, _, rfl, rfl, rfl⟩

theorem carriesText_serializeMessage_iff (m : Message) :
    CarriesText m.texts.flatten (serializeMessage m) ↔ m.OneText := by
  rw [← flatten_eq_lastText_iff, CarriesText, (serializeMessage_fields m).2.1]
  by_cases h : m.toolUses ≠ [] ∧ lastText m = []
  · rw [if_pos h, h.2]
    simp
  · rw [if_neg h]
    simp only [Except.ok.injEq, Json.string.injEq, reduceCtorEq, and_false, or_false]
    exact eq_comm

/-- The wire message of a turn carries it exactly when no text but the last
would have been overwritten. -/
theorem carries_serializeMessage_iff (m : Message) (spoken : m.role ≠ .tool) :
    Carries (.turn m.role spoken m.texts.flatten (m.toolUses.map ToolUseBlock.said))
      (serializeMessage m) ↔ m.OneText := by
  simp only [Carries, (serializeMessage_fields m).1, carriesText_serializeMessage_iff,
    carriesCalls_serializeMessage, and_true, true_and]

theorem forall₂_carries_iff (m : Message) :
    List.Forall₂ Carries m.said (wireMessages m) ↔ (m.role ≠ .tool → m.OneText) := by
  unfold Message.said wireMessages
  by_cases h : m.role = .tool
  · simp only [h, dite_true, if_true, ne_eq, not_true_eq_false, false_imp_iff, iff_true]
    unfold serializeToolResultMessages
    rw [List.forall₂_map_left_iff, List.forall₂_map_right_iff, List.forall₂_same]
    intro r _
    exact ⟨rfl, rfl, rfl⟩
  · simp [h, carries_serializeMessage_iff m h]

theorem said_length (m : Message) : m.said.length = (wireMessages m).length := by
  unfold Message.said wireMessages serializeToolResultMessages
  by_cases h : m.role = .tool <;> simp [h]

theorem carries_iff (c : Conversation) :
    List.Forall₂ Carries c.said (c.messages.flatMap wireMessages) ↔ c.OneText := by
  rw [Conversation.said, forall₂_flatMap_iff (fun m _ => said_length m)]
  simp only [forall₂_carries_iff, Conversation.OneText]

theorem carried_iff (c : Conversation) : Carried c (serializeMessages c) ↔ c.OneText := by
  rw [← carries_iff]
  constructor
  · intro ⟨leading, rest, hsplit, hprompt, hrest⟩
    have hlen := (forall₂_carriesPrompt c).length_eq.symm.trans hprompt.length_eq
    obtain ⟨_, rfl⟩ := List.append_inj hsplit hlen
    exact hrest
  · intro h
    exact ⟨_, _, rfl, forall₂_carriesPrompt c, h⟩

theorem told_of_oneText {c : Conversation} (h : c.OneText) : Told c := by
  intro d _ hd hprompt hwires
  have hlen : c.systemPrompt.toList.length = d.systemPrompt.toList.length := by
    rw [Option.length_toList, Option.length_toList, hprompt]
  have hc := forall₂_carriesPrompt c
  have hc' := forall₂_carriesPrompt d
  obtain ⟨hleading, hrest⟩ :=
    List.append_inj hwires (hc.length_eq.symm.trans (hlen.trans hc'.length_eq))
  constructor
  · rw [← hleading] at hc'
    have hlist := carriesPrompt_leftUnique.forall₂ hc hc'
    simpa using congrArg List.head? hlist
  · have hd' := (carries_iff d).mpr hd
    rw [← hrest] at hd'
    exact carries_leftUnique.forall₂ ((carries_iff c).mpr h) hd'

/-- The other texts do not show in the wire message. -/
theorem wireMessages_keepLast (m : Message) : wireMessages (keepLast m) = wireMessages m := by
  by_cases h : m.role = .tool
  · rw [keepLast, if_pos h]
  · obtain ⟨hrole, htexts, huses⟩ := keepLast_fields h
    have hfold := foldl_serializeBlock (keepLast m).content [] []
    rw [← Message.texts, ← Message.toolUses, htexts, huses] at hfold
    have hfold' := foldl_serializeBlock m.content [] []
    rw [← Message.texts, ← Message.toolUses] at hfold'
    simp only [wireMessages, hrole, h, if_false, serializeMessage]
    rw [hfold, hfold']
    rfl

theorem oneText_of_told {c : Conversation} (placed : c.Placed) (h : Told c) : c.OneText := by
  have hwires : serializeMessages c =
      serializeMessages { c with messages := c.messages.map keepLast } := by
    simp only [serializeMessages, List.flatMap_map, wireMessages_keepLast]
  have hplaced : ({ c with messages := c.messages.map keepLast } : Conversation).Placed := by
    intro m hm
    obtain ⟨n, hn, rfl⟩ := List.mem_map.mp hm
    exact keepLast_placed (placed n hn)
  have hone : ({ c with messages := c.messages.map keepLast } : Conversation).OneText := by
    intro m hm ht
    obtain ⟨n, hn, rfl⟩ := List.mem_map.mp hm
    by_cases hrole : n.role = .tool
    · exact absurd (by rw [keepLast, if_pos hrole, hrole]) ht
    · unfold Message.OneText
      rw [(keepLast_fields hrole).2.1]
      simp
  obtain ⟨_, hsaid⟩ := h _ hplaced hone rfl hwires
  have hcarries := (carries_iff _).mpr hone
  rw [← hsaid] at hcarries
  apply (carries_iff c).mp
  simpa only [List.flatMap_map, wireMessages_keepLast] using hcarries

/-- The encoder loses no content, and tells conversations apart by what they
say, exactly when no message has a text that a later one overwrites. -/
theorem serializeRequest_carries {σ : Type} (provider : OpenAiProvider σ) (c : Conversation)
    (placed : c.Placed) :
    (∀ request body, provider.serializeRequest c request = .ok body →
      body.index (str "messages") = .ok (.array (serializeMessages c))) ∧
    (Carried c (serializeMessages c) ↔ c.OneText) ∧ (Told c ↔ c.OneText) := by
  refine ⟨?_, carried_iff c, oneText_of_told placed, told_of_oneText⟩
  intro request body h
  exact serializeRequest_messages h

end

/-- A turn that asks for a tool, with the answer to it. -/
def weather : Conversation :=
  { messages := [.ofText .user (str "Denver?"),
      ⟨.assistant, [.text ⟨str "I look it up."⟩, .toolUse ⟨str "t1", str "get_weather", .null⟩]⟩,
      ⟨.tool, [.toolResult ⟨str "t1", str "72F", false⟩]⟩] }

def offline : OpenAiProvider Unit :=
  .make ⟨fun _ _ _ w => (.error (.other (str "offline")), w)⟩
    { apiKey := str "key", model := str "gpt-4o" }

theorem serializeRequest_carries_weather :
    letI := Platform.reference
    (Carried weather (serializeMessages weather) ↔ weather.OneText) ∧
      (Told weather ↔ weather.OneText) := by
  let platform := Platform.reference
  have placed : weather.Placed := by
    simp [Conversation.Placed, weather, Message.Placed, Message.ofText, Message.toolResults,
      ContentBlock.toolResult?]
  exact (serializeRequest_carries offline weather placed).2

/-- A message of two text blocks. -/
def twoTexts : Conversation := { messages := [⟨.user, [.text ⟨str "a"⟩, .text ⟨str "b"⟩]⟩] }

/-- Only the second text is sent. -/
theorem not_carried_twoTexts :
    letI := Platform.reference
    twoTexts.Placed ∧ ∃ body wires, offline.serializeRequest twoTexts {} = .ok body ∧
      body.index (str "messages") = .ok (.array wires) ∧ ¬ Carried twoTexts wires := by
  let platform := Platform.reference
  refine ⟨?_, _, _, rfl, rfl, ?_⟩
  · simp [Conversation.Placed, twoTexts, Message.Placed, Message.toolResults,
      ContentBlock.toolResult?]
  · intro h
    have hone := (carried_iff twoTexts).mp h
    have ha : str "a" = [] := hone _ (List.mem_singleton.mpr rfl) (by simp) _ (List.mem_cons_self)
    cases ha

end Proofs.OpenAiEncoding

end Forgeant
