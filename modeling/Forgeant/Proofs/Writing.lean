import Forgeant.Writing

namespace Forgeant.Proofs.Writing
open Effect Throwing

variable {σ α β γ : Type}

theorem effect_ext {x y : Effect σ α} (h : ∀ w, x.run w = y.run w) : x = y := by
  cases x
  cases y
  exact congrArg Effect.mk (funext h)

theorem bind_pure_id (x : Effect σ α) : id <$> x = x := by
  apply effect_ext
  intro w
  rcases h : x.run w with ⟨fault | a, v⟩
  · exact run_bind_error h _
  · exact run_bind_ok h _

theorem bind_assoc_run (x : Effect σ α) (f : α → Effect σ β) (g : β → Effect σ γ) :
    x >>= f >>= g = x >>= fun a => f a >>= g := by
  apply effect_ext
  intro w
  simp only [bind]
  rcases x.run w with ⟨fault | a, v⟩ <;> rfl

instance : LawfulMonad (Effect σ) :=
  LawfulMonad.mk' _ bind_pure_id (fun _ _ => rfl) bind_assoc_run

theorem run_put (v j : Json) : (put v).run j = (.ok (), v) := rfl

theorem run_pushBack (v : Json) (elems : List Json) :
    (pushBack v).run (.array elems) = (.ok (), .array (elems ++ [v])) := rfl

theorem run_member {key : Str} {x : Effect Json Unit} {v : Json} {members : List (Str × Json)}
    {r : Except Fault Unit} (h : x.run ((Assoc.find? key members).getD .null) = (r, v)) :
    (member key x).run (.object members) = (r, .object (Assoc.set key v members)) := by
  simp only [member, h]

theorem run_member_null {key : Str} {x : Effect Json Unit} {v : Json} {r : Except Fault Unit}
    (h : x.run .null = (r, v)) :
    (member key x).run .null = (r, .object (Assoc.set key v [])) := by
  simp only [member, h]

theorem fresh_eq {first v : Json} {x : Effect Json Unit} {u : Unit}
    (h : x.run first = (.ok u, v)) : (fresh first x : Effect σ Json) = pure v := by
  apply effect_ext
  intro w
  simp only [fresh, h]
  rfl

/-- Two statements on one member are one on it. -/
theorem member_bind (key : Str) (x y : Effect Json Unit) :
    (member key x >>= fun _ => member key y) = member key (x >>= fun _ => y) := by
  apply effect_ext
  intro j
  cases j with
  | null =>
    simp only [bind, member]
    rcases x.run .null with ⟨fault | u, v⟩
    · rfl
    · simp only [Assoc.find?_set_self, Option.getD_some, Assoc.set_set]
  | object members =>
    simp only [bind, member]
    rcases x.run ((Assoc.find? key members).getD .null) with ⟨fault | u, v⟩
    · rfl
    · simp only [Assoc.find?_set_self, Option.getD_some, Assoc.set_set]
  | _ => rfl

theorem member_forM (key : Str) (x : Effect Json Unit) (f : α → Effect Json Unit) (as : List α) :
    (member key x >>= fun _ => forM as (fun a => member key (f a))) =
      member key (x >>= fun _ => forM as f) := by
  induction as generalizing x with
  | nil => simp only [List.forM_nil, bind_pure_unit]
  | cons a as ih =>
    simp only [List.forM_cons]
    rw [← bind_assoc, member_bind, ih, bind_assoc]

theorem run_forM_pushBack (f : α → Json) (as : List α) (elems : List Json) :
    (forM as (fun a => pushBack (f a))).run (.array elems) =
      (.ok (), .array (elems ++ as.map f)) := by
  induction as generalizing elems with
  | nil => rw [List.forM_nil, List.map_nil, List.append_nil]; rfl
  | cons a as ih =>
    rw [List.forM_cons, run_bind_ok (run_pushBack (f a) elems), ih, List.map_cons,
      List.append_assoc, List.singleton_append]

/-- An array made empty and filled in a loop. -/
theorem put_forM_pushBack (f : α → Json) (as : List α) :
    (put (.array []) >>= fun _ => forM as (fun a => pushBack (f a))) = put (.array (as.map f)) := by
  apply effect_ext
  intro j
  rw [run_bind_ok (run_put (.array []) j), run_forM_pushBack]
  rfl

theorem member_fill (key : Str) (f : α → Json) (as : List α) :
    (member key (put (.array [])) >>= fun _ => forM as (fun a => member key (pushBack (f a)))) =
      member key (put (.array (as.map f))) := by
  rw [member_forM, put_forM_pushBack]

/-- A loop that fills an array which is there. -/
theorem run_fill {key : Str} {members : List (Str × Json)} {elems : List Json}
    (ho : Assoc.Ordered members) (hkey : Assoc.find? key members = some (.array elems))
    (f : α → Json) (as : List α) :
    (forM as (fun a => member key (pushBack (f a)))).run (.object members) =
      (.ok (), .object (Assoc.set key (.array (elems ++ as.map f)) members)) := by
  induction as generalizing elems members with
  | nil =>
    rw [List.map_nil, List.append_nil, ho.set_self hkey]
    rfl
  | cons a as ih =>
    have hpush : (member key (pushBack (f a))).run (.object members) =
        (.ok (), .object (Assoc.set key (.array (elems ++ [f a])) members)) := by
      apply run_member
      rw [hkey]
      rfl
    rw [List.forM_cons, run_bind_ok hpush, ih (ho.set _ _) (Assoc.find?_set_self _ _ _),
      Assoc.set_set, List.map_cons, List.append_assoc, List.singleton_append]

theorem run_bind_member_put (key : Str) (v : Json) (members : List (Str × Json))
    (f : Unit → Effect Json α) :
    (member key (put v) >>= f).run (.object members) =
      (f ()).run (.object (Assoc.set key v members)) :=
  run_bind_ok (run_member (run_put v _)) f

theorem run_bind_ifSome (key : Str) (o : Option β) (g : β → Json) (members : List (Str × Json))
    (f : Unit → Effect Json α) :
    (ifSome o (fun b => member key (put (g b))) >>= f).run (.object members) =
      (f ()).run (.object (Assoc.setSome key (o.map g) members)) := by
  cases o with
  | none => rfl
  | some b => exact run_bind_member_put key (g b) members f

theorem run_bind_ifTrue (key : Str) (c : Bool) (v : Json) (members : List (Str × Json))
    (f : Unit → Effect Json α) :
    (ifTrue c (member key (put v)) >>= f).run (.object members) =
      (f ()).run (.object (if c then Assoc.set key v members else members)) := by
  cases c with
  | false => rfl
  | true => exact run_bind_member_put key v members f

theorem run_bind_member_put_null (key : Str) (v : Json) (f : Unit → Effect Json α) :
    (member key (put v) >>= f).run .null = (f ()).run (.object (Assoc.set key v [])) := rfl

theorem bind_member_fill (key : Str) (f : α → Json) (as : List α) (g : Unit → Effect Json β) :
    (member key (put (.array [])) >>= fun _ =>
        forM as (fun a => member key (pushBack (f a))) >>= g) =
      member key (put (.array (as.map f))) >>= g := by
  rw [← bind_assoc, member_fill]

theorem fresh_error {first j : Json} {x : Effect Json Unit} {fault : Fault}
    (h : x.run first = (.error fault, j)) :
    (fresh first x : Effect σ Json) = .lift (.error fault) := by
  apply effect_ext
  intro w
  simp only [fresh, h]
  rfl

theorem fresh_put (v : Json) : (fresh .null (put v) : Effect σ Json) = pure v :=
  fresh_eq (run_put v .null)

theorem run_writeMessage (msg : Message) (j : Json) : msg.write.run j = (.ok (), msg.toJson) := by
  have hcontent : (fresh (.array []) (forM msg.content (fun block =>
      pushBack block.toJson)) : Effect Json Json) =
        pure (.array (msg.content.map ContentBlock.toJson)) :=
    fresh_eq (run_forM_pushBack ContentBlock.toJson msg.content [])
  simp only [Message.write, fresh_put, pure_bind, hcontent]
  rfl

theorem run_writeConversation (conv : Conversation) (j : Json) :
    conv.write.run j = (.ok (), conv.toJson) := by
  have hmessage (msg : Message) : (fresh .null msg.write : Effect Json Json) = pure msg.toJson :=
    fresh_eq (run_writeMessage msg .null)
  have hempty : Assoc.Ordered (Assoc.ofList [(str "messages", Json.array [])]) :=
    Assoc.ordered_ofList _
  have hfind : Assoc.find? (str "messages") (Assoc.setSome (str "system_prompt")
      (conv.systemPrompt.map .string) (Assoc.ofList [(str "messages", Json.array [])])) =
        some (.array []) := by
    rw [Assoc.find?_setSome_ne (by decide)]
    rfl
  unfold Conversation.write Conversation.toJson
  simp only [hmessage, pure_bind]
  rw [run_bind_ok (run_put _ j), Json.objectOf, run_bind_ifSome]
  exact run_fill (hempty.setSome _ _) hfind Message.toJson conv.messages

theorem object_of_type {schema : Json}
    (h : schema.value Json.getString (str "type") [] = .ok (str "object")) :
    ∃ members, schema = .object members := by
  cases schema with
  | object members => exact ⟨members, rfl⟩
  | _ => cases h

theorem schemaCopy_eq (schema : Json) :
    (schemaCopy schema : Effect σ Json) = .lift (std (closedSchema schema)) := by
  unfold schemaCopy closedSchema
  cases htype : schema.value Json.getString (str "type") [] with
  | error e => exact fresh_error rfl
  | ok type =>
    show fresh schema (if type = str "object" then _ else _) =
      .lift (std (if type = str "object" then _ else _))
    by_cases hobject : type = str "object"
    · rw [if_pos hobject, if_pos hobject]
      obtain ⟨members, rfl⟩ := object_of_type (hobject ▸ htype)
      exact fresh_eq rfl
    · rw [if_neg hobject, if_neg hobject]
      exact fresh_eq rfl

/-- A body that a schema is written to last, if there is one. -/
theorem fresh_body {key : Str} {first : Json} {members : List (Str × Json)}
    {x : Effect Json Unit} {o : Option Json} {write : Json → Effect Json Unit} {g : Json → Json}
    (hx : x.run first = (ifSome o (fun schema => do
      let schema ← .lift (std (closedSchema schema))
      write schema)).run (.object members))
    (hwrite : ∀ s, (write s).run (.object members) =
      (.ok (), .object (Assoc.set key (g s) members))) :
    (fresh first x : Effect σ Json) = .lift (std (do
      let schema ← o.mapM closedSchema
      return .object (Assoc.setSome key (schema.map g) members))) := by
  cases o with
  | none => exact fresh_eq hx
  | some a =>
    simp only [ifSome] at hx
    cases hclosed : closedSchema a with
    | error e =>
      rw [hclosed] at hx
      simp only [Option.mapM_some, hclosed]
      exact fresh_error hx
    | ok s =>
      rw [hclosed] at hx
      simp only [Option.mapM_some, hclosed]
      exact fresh_eq (hx.trans (hwrite s))

theorem find?_beforeTools {key : Str} (htools : key ≠ str "tools")
    (hmessages : key ≠ str "messages") (tools messages : Json) (c : Bool)
    (members : List (Str × Json)) :
    Assoc.find? key (if c then Assoc.set (str "tools") tools
        (Assoc.set (str "messages") messages members)
      else Assoc.set (str "messages") messages members) = Assoc.find? key members := by
  cases c with
  | false => exact Assoc.find?_set_ne hmessages _ _
  | true => exact (Assoc.find?_set_ne htools _ _).trans (Assoc.find?_set_ne hmessages _ _)

namespace Anthropic
open AnthropicProvider

theorem fresh_message (msg : Message) :
    (fresh .null (writeMessage msg) : Effect σ Json) = pure (serializeMessage msg) := by
  apply fresh_eq (u := ())
  unfold writeMessage serializeMessage wireRole
  simp only [fresh_put, pure_bind, member_fill]
  split <;> rfl

theorem run_writeOutputConfig {members : List (Str × Json)}
    (hunused : Assoc.find? (str "output_config") members = none) (schema : Json) :
    (writeOutputConfig schema).run (.object members) =
      (.ok (), .object (Assoc.set (str "output_config") (outputConfig schema) members)) := by
  unfold writeOutputConfig
  rw [member_bind, member_bind]
  apply run_member
  rw [hunused]
  rfl

theorem writeRequest_eq {ν : Type} (provider : AnthropicProvider ν) (c : Conversation)
    (request : ChatRequest) :
    (fresh .null (writeRequest provider c request) : Effect σ Json) =
      .lift (std (provider.serializeRequest c request)) := by
  unfold writeRequest serializeRequest
  simp only [fresh_message, pure_bind, schemaCopy_eq, bind_member_fill, member_fill]
  apply fresh_body
  · simp only [run_bind_member_put_null, run_bind_member_put, run_bind_ifSome, run_bind_ifTrue]
    rfl
  · apply run_writeOutputConfig
    rw [find?_beforeTools (by decide) (by decide), Assoc.find?_setSome_ne (by decide),
      Assoc.find?_setSome_ne (by decide)]
    rfl

end Anthropic

namespace OpenAi
open OpenAiProvider

theorem fresh_toolResult (result : ToolResultBlock) :
    (fresh .null (writeToolResult result) : Effect σ Json) = pure (toolResultMessage result) :=
  fresh_eq rfl

theorem run_writeToolResultMessages (msg : Message) (elems : List Json) :
    (writeToolResultMessages msg).run (.array elems) =
      (.ok (), .array (elems ++ serializeToolResultMessages msg)) := by
  unfold writeToolResultMessages serializeToolResultMessages Message.toolResults
  simp only [fresh_toolResult, pure_bind]
  induction msg.content generalizing elems with
  | nil =>
    rw [List.filterMap_nil, List.map_nil, List.append_nil]
    rfl
  | cons block blocks ih =>
    rw [List.forM_cons]
    cases block with
    | toolResult result =>
      rw [run_bind_ok (run_pushBack (toolResultMessage result) elems), ih, List.append_assoc]
      rfl
    | _ => exact ih elems

variable [Platform]

theorem writeBlock_eq (acc : Str × List Json) (block : ContentBlock) :
    (writeBlock (acc.1, .array acc.2) block : Effect σ (Str × Json)) =
      pure ((serializeBlock acc block).1, .array (serializeBlock acc block).2) := by
  cases block with
  | _ => rfl

theorem foldlM_writeBlock (acc : Str × List Json) (blocks : List ContentBlock) :
    (blocks.foldlM writeBlock (acc.1, .array acc.2) : Effect σ (Str × Json)) =
      pure ((blocks.foldl serializeBlock acc).1, .array (blocks.foldl serializeBlock acc).2) := by
  induction blocks generalizing acc with
  | nil => rfl
  | cons block blocks ih =>
    rw [List.foldlM_cons, writeBlock_eq, pure_bind, ih]
    rfl

theorem fresh_message (msg : Message) :
    (fresh .null (writeMessage msg) : Effect σ Json) = pure (serializeMessage msg) := by
  apply fresh_eq (u := ())
  unfold writeMessage serializeMessage
  rw [run_bind_member_put_null, foldlM_writeBlock ([], [])]
  simp only [pure_bind, Json.empty]
  split
  · rfl
  · rfl

/-- What one pass of the loop over the messages adds to them. -/
theorem run_wireMessages (msg : Message) (elems : List Json) :
    (if msg.role = .tool then writeToolResultMessages msg
      else pushBack (serializeMessage msg)).run (.array elems) =
        (.ok (), .array (elems ++ wireMessages msg)) := by
  unfold wireMessages
  split
  · exact run_writeToolResultMessages msg elems
  · rfl

theorem run_forM_wireMessages (msgs : List Message) (elems : List Json) :
    (forM msgs (fun msg => if msg.role = .tool then writeToolResultMessages msg
      else pushBack (serializeMessage msg))).run (.array elems) =
        (.ok (), .array (elems ++ msgs.flatMap wireMessages)) := by
  induction msgs generalizing elems with
  | nil =>
    rw [List.flatMap_nil, List.append_nil]
    rfl
  | cons msg msgs ih =>
    rw [List.forM_cons, run_bind_ok (run_wireMessages msg elems), ih, List.flatMap_cons,
      List.append_assoc]

theorem put_messages (elems : List Json) (msgs : List Message) :
    (put (.array elems) >>= fun _ => forM msgs (fun msg =>
      if msg.role = .tool then writeToolResultMessages msg else pushBack (serializeMessage msg))) =
      put (.array (elems ++ msgs.flatMap wireMessages)) := by
  apply effect_ext
  intro j
  rw [run_bind_ok (run_put _ j), run_forM_wireMessages]
  rfl

theorem bind_member_messages (key : Str) (c : Conversation) (g : Unit → Effect Json β) :
    (member key (put (.array [])) >>= fun _ =>
      ifSome c.systemPrompt (fun prompt => member key (pushBack (systemMessage prompt))) >>= fun _ =>
      forM c.messages (fun msg =>
        if msg.role = .tool then member key (writeToolResultMessages msg)
        else member key (pushBack (serializeMessage msg))) >>= g) =
      member key (put (.array (serializeMessages c))) >>= g := by
  simp only [← apply_ite (member key)]
  unfold serializeMessages
  cases c.systemPrompt with
  | none =>
    simp only [ifSome, pure_bind]
    rw [← bind_assoc, member_forM, put_messages]
    rfl
  | some prompt =>
    have hpush : (put (.array []) >>= fun _ => pushBack (systemMessage prompt)) =
        put (.array [systemMessage prompt]) := rfl
    simp only [ifSome]
    rw [← bind_assoc, ← bind_assoc, member_bind, hpush, member_forM, put_messages]
    rfl

omit [Platform] in
theorem run_writeResponseFormat (members : List (Str × Json)) (schema : Json) :
    (writeResponseFormat schema).run (.object members) =
      (.ok (), .object (Assoc.set (str "response_format") (responseFormat schema) members)) := by
  unfold writeResponseFormat
  rw [member_bind]
  apply run_member
  rfl

theorem writeRequest_eq {ν : Type} (provider : OpenAiProvider ν) (c : Conversation)
    (request : ChatRequest) :
    (fresh .null (writeRequest provider c request) : Effect σ Json) =
      .lift (std (provider.serializeRequest c request)) := by
  unfold writeRequest serializeRequest
  simp only [fresh_message, pure_bind, schemaCopy_eq, bind_member_messages, member_fill]
  apply fresh_body
  · simp only [run_bind_member_put_null, run_bind_member_put, run_bind_ifSome, run_bind_ifTrue]
    rfl
  · intro s
    exact run_writeResponseFormat _ s

end OpenAi

/-- The schema of the request has a `type` that is no string. -/
def Untyped (request : ChatRequest) : Prop :=
  ∃ schema type, request.outputSchema = some schema ∧ schema.index (str "type") = .ok type ∧
    ∀ s, type ≠ .string s

theorem closedSchema_of_type {schema : Json} {type : Str}
    (h : schema.value Json.getString (str "type") [] = .ok type) :
    ∃ copy, closedSchema schema = .ok copy := by
  unfold closedSchema
  rw [h]
  show ∃ copy, (if type = str "object" then _ else _) = _
  by_cases hobject : type = str "object"
  · rw [if_pos hobject]
    obtain ⟨members, rfl⟩ := object_of_type (hobject ▸ h)
    exact ⟨_, rfl⟩
  · rw [if_neg hobject]
    exact ⟨schema, rfl⟩

theorem closedSchema_throws {schema : Json} :
    (∃ e, closedSchema schema = .error e) ↔
      ∃ type, schema.index (str "type") = .ok type ∧ ∀ s, type ≠ .string s := by
  constructor
  · intro ⟨e, he⟩
    have huntyped : ∀ s, schema.value Json.getString (str "type") [] ≠ .ok s := by
      intro s hs
      obtain ⟨copy, hcopy⟩ := closedSchema_of_type hs
      rw [he] at hcopy
      cases hcopy
    cases hc : schema.contains (str "type") with
    | false => exact absurd (Json.value_of_missing hc _ _) (huntyped [])
    | true =>
      obtain ⟨type, htype⟩ := Json.index_of_contains hc
      refine ⟨type, htype, ?_⟩
      rintro s rfl
      exact huntyped s (Json.value_of_index htype _ _)
  · intro ⟨type, htype, huntyped⟩
    have hthrows : schema.value Json.getString (str "type") [] = .error .badVariantAccess := by
      rw [Json.value_of_index htype]
      cases type with
      | string s => exact absurd rfl (huntyped s)
      | _ => rfl
    refine ⟨.badVariantAccess, ?_⟩
    unfold closedSchema
    rw [hthrows]
    rfl

theorem copies_throws {request : ChatRequest} {f : Option Json → Json} :
    (∃ e, (do return f (← request.outputSchema.mapM closedSchema) : Except StdException Json) =
      .error e) ↔ Untyped request := by
  unfold Untyped
  cases request.outputSchema with
  | none =>
    constructor
    · rintro ⟨e, he⟩
      cases he
    · rintro ⟨schema, type, hschema, _⟩
      cases hschema
  | some schema =>
    simp only [Option.some.injEq, exists_and_left, exists_eq_left', ← closedSchema_throws]
    rw [Option.mapM_some]
    cases closedSchema schema with
    | error e => exact ⟨fun _ => ⟨e, rfl⟩, fun _ => ⟨e, rfl⟩⟩
    | ok copy =>
      constructor
      · rintro ⟨e, he⟩
        cases he
      · rintro ⟨e, he⟩
        cases he

/-- What the code builds statement by statement is what `to_json` of a
conversation and `serialize_request` of both providers are. The only statement
that throws is the one that reads the type of a schema. -/
theorem statements_refine [Platform] {ν : Type} (c : Conversation) :
    (∀ j, c.write.run j = (.ok (), c.toJson)) ∧
    (∀ (provider : AnthropicProvider ν) (request : ChatRequest),
      (fresh .null (provider.writeRequest c request) : Effect σ Json) =
        .lift (std (provider.serializeRequest c request)) ∧
      ((∃ e, provider.serializeRequest c request = .error e) ↔ Untyped request)) ∧
    ∀ (provider : OpenAiProvider ν) (request : ChatRequest),
      (fresh .null (provider.writeRequest c request) : Effect σ Json) =
        .lift (std (provider.serializeRequest c request)) ∧
      ((∃ e, provider.serializeRequest c request = .error e) ↔ Untyped request) :=
  ⟨run_writeConversation c,
    fun provider request => ⟨Anthropic.writeRequest_eq provider c request, copies_throws⟩,
    fun provider request => ⟨OpenAi.writeRequest_eq provider c request, copies_throws⟩⟩

end Forgeant.Proofs.Writing
