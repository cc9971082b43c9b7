import Forgeant.Json.Reference
import Forgeant.Schema
import Forgeant.Provider.Anthropic
import Forgeant.Provider.OpenAi

namespace Forgeant.Proofs.SchemaClosing
open SchemaBuilder

structure Wellbuilt (b : SchemaBuilder) : Prop where
  ordered : Assoc.Ordered b.schema_
  typed : ∃ type, Assoc.find? (str "type") b.schema_ = some (.string type)
  unclosed : Assoc.find? (str "additionalProperties") b.schema_ = none
  propsOrdered : Assoc.Ordered b.props
  made : ∀ t, SubschemaOf t b.build → ∃ p, Made p ∧ t = p.build

theorem subschema_cases {b : SchemaBuilder} {t : Json} (h : SubschemaOf t b.build) :
    (∃ name, Assoc.find? name b.props = some t) ∨
      Assoc.find? (str "items") b.schema_ = some t := by
  cases h with
  | @property _ _ name _ hprops h =>
    refine .inl ⟨name, ?_⟩
    rw [SchemaBuilder.props, hprops]
    exact h
  | items h => exact .inr h

theorem subschema_of_props {b : SchemaBuilder} {name : Str} {t : Json}
    (h : Assoc.find? name b.props = some t) : SubschemaOf t b.build := by
  unfold SchemaBuilder.props at h
  cases hf : Assoc.find? (str "properties") b.schema_ with
  | none =>
    rw [hf] at h
    cases h
  | some v =>
    obtain ⟨props, rfl⟩ := b.properties v hf
    rw [hf] at h
    exact .property hf h

theorem wellbuilt_make (type : Str) : Wellbuilt (.make type) where
  ordered := Assoc.Ordered.nil.set _ _
  typed := ⟨type, Assoc.find?_set_self _ _ _⟩
  unclosed := Assoc.find?_set_ne (by decide) _ _
  propsOrdered := by
    have : (SchemaBuilder.make type).props = [] := rfl
    rw [this]
    exact .nil
  made := by
    intro t h
    rcases subschema_cases h with ⟨_, h⟩ | h
    · cases h
    · cases h

theorem assign_props (b : SchemaBuilder) {key : Str} (value : Json)
    (other : str "properties" ≠ key) : (b.assign key value other).props = b.props := by
  unfold SchemaBuilder.props SchemaBuilder.assign
  rw [Assoc.find?_set_ne other]

theorem wellbuilt_assign {b : SchemaBuilder} (h : Wellbuilt b) {key : Str} (value : Json)
    (other : str "properties" ≠ key) (untyped : str "type" ≠ key)
    (keeps : str "additionalProperties" ≠ key)
    (made : key = str "items" → ∃ p, Made p ∧ value = p.build) :
    Wellbuilt (b.assign key value other) where
  ordered := h.ordered.set _ _
  typed := by
    obtain ⟨type, htype⟩ := h.typed
    exact ⟨type, (Assoc.find?_set_ne untyped _ _).trans htype⟩
  unclosed := (Assoc.find?_set_ne keeps _ _).trans h.unclosed
  propsOrdered := by
    rw [assign_props]
    exact h.propsOrdered
  made := by
    intro t ht
    rcases subschema_cases ht with ⟨name, hfind⟩ | hfind
    · rw [assign_props] at hfind
      exact h.made t (subschema_of_props hfind)
    · by_cases hk : str "items" = key
      · subst hk
        rw [SchemaBuilder.assign, Assoc.find?_set_self] at hfind
        cases hfind
        exact made rfl
      · rw [SchemaBuilder.assign, Assoc.find?_set_ne hk] at hfind
        exact h.made t (.items hfind)

theorem property_props (b : SchemaBuilder) (name : Str) (propSchema : Json) :
    (b.property name propSchema).props = Assoc.set name propSchema b.props := by
  rw [SchemaBuilder.props, SchemaBuilder.property, Assoc.find?_set_self]

theorem wellbuilt_property {b p : SchemaBuilder} (h : Wellbuilt b) (name : Str) (hp : Made p) :
    Wellbuilt (b.property name p.build) where
  ordered := h.ordered.set _ _
  typed := by
    obtain ⟨type, htype⟩ := h.typed
    exact ⟨type, (Assoc.find?_set_ne (by decide) _ _).trans htype⟩
  unclosed := (Assoc.find?_set_ne (by decide) _ _).trans h.unclosed
  propsOrdered := by
    rw [property_props]
    exact h.propsOrdered.set _ _
  made := by
    intro t ht
    rcases subschema_cases ht with ⟨name', hfind⟩ | hfind
    · rw [property_props] at hfind
      by_cases hn : name' = name
      · rw [hn, Assoc.find?_set_self] at hfind
        cases hfind
        exact ⟨p, hp, rfl⟩
      · rw [Assoc.find?_set_ne hn] at hfind
        exact h.made t (subschema_of_props hfind)
    · rw [SchemaBuilder.property, Assoc.find?_set_ne (by decide)] at hfind
      exact h.made t (.items hfind)

theorem made_wellbuilt {b : SchemaBuilder} (h : Made b) : Wellbuilt b := by
  induction h with
  | string => exact wellbuilt_make _
  | integer => exact wellbuilt_make _
  | number => exact wellbuilt_make _
  | boolean => exact wellbuilt_make _
  | object => exact wellbuilt_make _
  | array => exact wellbuilt_make _
  | description _ desc ih =>
    exact wellbuilt_assign ih _ (by decide) (by decide) (by decide) (fun h => absurd h (by decide))
  | defaultValue _ value ih =>
    exact wellbuilt_assign ih _ (by decide) (by decide) (by decide) (fun h => absurd h (by decide))
  | enumValues _ values ih =>
    exact wellbuilt_assign ih _ (by decide) (by decide) (by decide) (fun h => absurd h (by decide))
  | required _ fields ih =>
    exact wellbuilt_assign ih _ (by decide) (by decide) (by decide) (fun h => absurd h (by decide))
  | property _ name hp ih _ => exact wellbuilt_property ih name hp
  | items _ hp ih _ =>
    exact wellbuilt_assign ih _ (by decide) (by decide) (by decide) (fun _ => ⟨_, hp, rfl⟩)

/-- What closing a schema makes of the entry of a key. -/
def closeAt (k : Str) (v : Json) : Json :=
  if k = str "properties" then closeSchema.closeProperties v
  else if k = str "items" then closeSchema v else v

theorem closeMembers_eq_map (members : List (Str × Json)) :
    closeSchema.closeMembers members = members.map (fun e => (e.1, closeAt e.1 e.2)) := by
  induction members with
  | nil => rfl
  | cons e ms ih => rw [closeSchema.closeMembers, ih, List.map_cons, closeAt]

theorem closeEach_eq_map (props : List (Str × Json)) :
    closeSchema.closeEach props = props.map (fun e => (e.1, closeSchema e.2)) := by
  induction props with
  | nil => rfl
  | cons e ms ih => rw [closeSchema.closeEach, ih, List.map_cons]

theorem find?_closeMembers (k : Str) (members : List (Str × Json)) :
    Assoc.find? k (closeSchema.closeMembers members) =
      (Assoc.find? k members).map (closeAt k) := by
  rw [closeMembers_eq_map, Assoc.find?_mapKeyed]

theorem find?_closeEach (name : Str) (props : List (Str × Json)) :
    Assoc.find? name (closeSchema.closeEach props) = (Assoc.find? name props).map closeSchema := by
  rw [closeEach_eq_map, Assoc.find?_map]

/-- The entries of a built schema are left as they are exactly when each
schema among them is. -/
theorem closeMembers_eq_iff {b : SchemaBuilder} (h : Wellbuilt b) :
    closeSchema.closeMembers b.schema_ = b.schema_ ↔
      ∀ t, SubschemaOf t b.build → closeSchema t = t := by
  have hprops : ∀ v, Assoc.find? (str "properties") b.schema_ = some v → v = .object b.props := by
    intro v hv
    obtain ⟨props, rfl⟩ := b.properties v hv
    simp only [SchemaBuilder.props, hv]
  constructor
  · intro heq t ht
    have hat : ∀ k v, Assoc.find? k b.schema_ = some v → closeAt k v = v := by
      intro k v hv
      have hfind := find?_closeMembers k b.schema_
      rw [heq, hv] at hfind
      exact (Option.some.inj hfind).symm
    cases ht with
    | @property _ props name _ hp hfind =>
      have hclosed := hat _ _ hp
      simp only [closeAt, if_true, closeSchema.closeProperties, Json.object.injEq] at hclosed
      have heach := find?_closeEach name props
      rw [hclosed, hfind] at heach
      exact (Option.some.inj heach).symm
    | items hfind =>
      have hclosed := hat _ _ hfind
      rwa [closeAt, if_neg (by decide), if_pos rfl] at hclosed
  · intro hfixed
    have hordered : Assoc.Ordered (closeSchema.closeMembers b.schema_) := by
      rw [closeMembers_eq_map]
      exact (Assoc.ordered_mapKeyed closeAt).mpr h.ordered
    apply hordered.ext h.ordered
    intro k
    rw [find?_closeMembers]
    cases hv : Assoc.find? k b.schema_ with
    | none => rfl
    | some v =>
      rw [Option.map_some, Option.some.injEq, closeAt]
      by_cases hkey : k = str "properties"
      · subst hkey
        rw [if_pos rfl, hprops v hv, closeSchema.closeProperties, Json.object.injEq]
        have heach : Assoc.Ordered (closeSchema.closeEach b.props) := by
          rw [closeEach_eq_map]
          exact (Assoc.ordered_mapKeyed (fun _ => closeSchema)).mpr h.propsOrdered
        apply heach.ext h.propsOrdered
        intro name
        rw [find?_closeEach]
        cases ht : Assoc.find? name b.props with
        | none => rfl
        | some t => rw [Option.map_some, hfixed t (subschema_of_props ht)]
      · rw [if_neg hkey]
        by_cases hitems : k = str "items"
        · subst hitems
          rw [if_pos rfl, hfixed v (.items hv)]
        · rw [if_neg hitems]

theorem isObjectType_closeMembers (members : List (Str × Json)) :
    isObjectType (closeSchema.closeMembers members) = isObjectType members := by
  have htype : ∀ v, closeAt (str "type") v = v := by
    intro v
    rw [closeAt, if_neg (by decide), if_neg (by decide)]
  unfold isObjectType
  rw [find?_closeMembers]
  cases Assoc.find? (str "type") members with
  | none => rfl
  | some v => rw [Option.map_some, htype]

theorem isObjectSchema_build (b : SchemaBuilder) :
    b.build.IsObjectSchema ↔ isObjectType b.schema_ = true := by
  simp [Json.IsObjectSchema, SchemaBuilder.build]

/-- Closing the root touches the entry of `additionalProperties` only, which
a built schema has not got. -/
theorem closeRoot_injective {m m' : List (Str × Json)} (h : Assoc.Ordered m)
    (h' : Assoc.Ordered m') (hnone : Assoc.find? (str "additionalProperties") m = none)
    (hnone' : Assoc.find? (str "additionalProperties") m' = none)
    (htype : isObjectType m = isObjectType m') (heq : closeRoot m = closeRoot m') : m = m' := by
  unfold closeRoot at heq
  rw [← htype] at heq
  cases ho : isObjectType m with
  | false => simpa [ho] using heq
  | true =>
    simp only [ho, if_true] at heq
    apply h.ext h'
    intro k
    by_cases hk : k = str "additionalProperties"
    · rw [hk, hnone, hnone']
    · rw [← Assoc.find?_set_ne hk (.boolean false) m, heq, Assoc.find?_set_ne hk]

theorem closeMembers_unclosed {b : SchemaBuilder} (h : Wellbuilt b) :
    Assoc.find? (str "additionalProperties") (closeSchema.closeMembers b.schema_) = none := by
  rw [find?_closeMembers, h.unclosed]
  rfl

/-- Only the root of a built schema is closed by closing it exactly when each
schema in it is left as it is. -/
theorem root_iff {b : SchemaBuilder} (h : Wellbuilt b) :
    .object (closeRoot b.schema_) = closeSchema b.build ↔
      ∀ t, SubschemaOf t b.build → closeSchema t = t := by
  rw [← closeMembers_eq_iff h, SchemaBuilder.build, closeSchema, Json.object.injEq]
  constructor
  · intro heq
    have hordered : Assoc.Ordered (closeSchema.closeMembers b.schema_) := by
      rw [closeMembers_eq_map]
      exact (Assoc.ordered_mapKeyed closeAt).mpr h.ordered
    exact closeRoot_injective hordered h.ordered (closeMembers_unclosed h) h.unclosed
      (isObjectType_closeMembers _) heq.symm
  · intro heq
    rw [heq]

theorem fixed_iff {b : SchemaBuilder} (h : Wellbuilt b) :
    closeSchema b.build = b.build ↔
      ¬ b.build.IsObjectSchema ∧ ∀ t, SubschemaOf t b.build → closeSchema t = t := by
  rw [isObjectSchema_build]
  cases ho : isObjectType b.schema_ with
  | true =>
    apply iff_of_false
    · intro heq
      rw [SchemaBuilder.build, closeSchema, Json.object.injEq, closeRoot,
        isObjectType_closeMembers, ho, if_pos rfl] at heq
      have hfind := Assoc.find?_set_self (str "additionalProperties") (Json.boolean false)
        (closeSchema.closeMembers b.schema_)
      rw [heq, h.unclosed] at hfind
      cases hfind
    · intro hboth
      exact hboth.1 rfl
  | false =>
    rw [← root_iff h, closeRoot, ho]
    simp only [Bool.false_eq_true, if_false, not_false_eq_true, true_and]
    exact eq_comm

theorem subschema_sizeOf {s t : Json} (h : SubschemaOf t s) : sizeOf t < sizeOf s := by
  cases h with
  | @property members props name _ hprops h =>
    have hp := List.sizeOf_lt_of_mem (Assoc.find?_mem hprops)
    have ht := List.sizeOf_lt_of_mem (Assoc.find?_mem h)
    simp only [Prod.mk.sizeOf_spec, Json.object.sizeOf_spec] at hp ht ⊢
    omega
  | @items members _ h =>
    have ht := List.sizeOf_lt_of_mem (Assoc.find?_mem h)
    simp only [Prod.mk.sizeOf_spec, Json.object.sizeOf_spec] at ht ⊢
    omega

theorem noObjectInside_iff (s : Json) :
    NoObjectInside s ↔ ∀ c, SubschemaOf c s →
      ∀ t, Relation.ReflTransGen SubschemaOf t c → ¬ t.IsObjectSchema := by
  constructor
  · intro h c hc t ht
    exact h t (Relation.TransGen.tail' ht hc)
  · intro h t ht
    obtain ⟨c, htc, hc⟩ := Relation.TransGen.tail'_iff.mp ht
    exact h c hc t htc

/-- A built schema has nothing to close exactly when no schema in it, itself
included, is of type object. -/
theorem fixed_deep {b : SchemaBuilder} (h : Made b) :
    closeSchema b.build = b.build ↔
      ∀ t, Relation.ReflTransGen SubschemaOf t b.build → ¬ t.IsObjectSchema := by
  have hb := made_wellbuilt h
  rw [fixed_iff hb]
  -- by induction on the size: each schema inside is itself built
  have hchildren : ∀ c, SubschemaOf c b.build → (closeSchema c = c ↔
      ∀ t, Relation.ReflTransGen SubschemaOf t c → ¬ t.IsObjectSchema) := by
    intro c hc
    obtain ⟨p, hp, rfl⟩ := hb.made c hc
    have := subschema_sizeOf hc
    exact fixed_deep hp
  constructor
  · intro ⟨hroot, hfixed⟩ t ht
    rcases Relation.ReflTransGen.cases_tail_iff _ _ _ |>.mp ht with heq | ⟨c, htc, hc⟩
    · rwa [← heq]
    · exact (hchildren c hc).mp (hfixed c hc) t htc
  · intro hall
    refine ⟨hall _ .refl, ?_⟩
    intro c hc
    exact (hchildren c hc).mpr (fun t ht => hall t (ht.tail hc))
termination_by sizeOf b.build

theorem root_deep {b : SchemaBuilder} (h : Made b) :
    .object (closeRoot b.schema_) = closeSchema b.build ↔ NoObjectInside b.build := by
  have hb := made_wellbuilt h
  rw [root_iff hb, noObjectInside_iff]
  constructor
  · intro hfixed c hc
    obtain ⟨p, hp, rfl⟩ := hb.made c hc
    exact (fixed_deep hp).mp (hfixed _ hc)
  · intro hall c hc
    obtain ⟨p, hp, rfl⟩ := hb.made c hc
    exact (fixed_deep hp).mpr (hall _ hc)

theorem subschema_closeSchema {s t : Json} (h : SubschemaOf t (closeSchema s)) :
    ∃ u, SubschemaOf u s ∧ t = closeSchema u := by
  cases s with
  | object members =>
    have hroot : ∀ k, k ≠ str "additionalProperties" →
        Assoc.find? k (closeRoot (closeSchema.closeMembers members)) =
          (Assoc.find? k members).map (closeAt k) := by
      intro k hk
      rw [← find?_closeMembers, closeRoot]
      split
      · exact Assoc.find?_set_ne hk _ _
      · rfl
    rw [closeSchema] at h
    cases h with
    | @property _ props name _ hprops hfind =>
      rw [hroot _ (by decide), Option.map_eq_some_iff] at hprops
      obtain ⟨v, hv, hclosed⟩ := hprops
      rw [closeAt, if_pos rfl] at hclosed
      cases v with
      | object props' =>
        simp only [closeSchema.closeProperties, Json.object.injEq] at hclosed
        rw [← hclosed, find?_closeEach, Option.map_eq_some_iff] at hfind
        obtain ⟨u, hu, rfl⟩ := hfind
        exact ⟨u, .property hv hu, rfl⟩
      | _ => cases hclosed
    | items hfind =>
      rw [hroot _ (by decide), Option.map_eq_some_iff] at hfind
      obtain ⟨u, hu, rfl⟩ := hfind
      rw [closeAt, if_neg (by decide), if_pos rfl]
      exact ⟨u, .items hu, rfl⟩
  | _ => cases h

theorem closeSchema_closed {s t : Json}
    (h : Relation.ReflTransGen SubschemaOf t (closeSchema s)) (ho : t.IsObjectSchema) :
    t.index (str "additionalProperties") = .ok (.boolean false) := by
  have himage : ∃ u, t = closeSchema u := by
    clear ho
    induction h using Relation.ReflTransGen.head_induction_on with
    | refl => exact ⟨s, rfl⟩
    | head hstep _ ih =>
      obtain ⟨u, rfl⟩ := ih
      obtain ⟨v, _, rfl⟩ := subschema_closeSchema hstep
      exact ⟨v, rfl⟩
  obtain ⟨u, rfl⟩ := himage
  obtain ⟨members, hmembers, htype⟩ := ho
  cases u with
  | object ms =>
    simp only [closeSchema, Json.object.injEq] at hmembers
    have hms : isObjectType (closeSchema.closeMembers ms) = true := by
      rw [← hmembers, closeRoot] at htype
      split at htype
      · assumption
      · exact htype
    simp only [closeSchema, closeRoot, hms, if_true, Json.index, Assoc.find?_set_self]
  | _ => cases hmembers

theorem closedSchema_build {b : SchemaBuilder} (h : Wellbuilt b) :
    closedSchema b.build = .ok (.object (closeRoot b.schema_)) := by
  obtain ⟨type, htype⟩ := h.typed
  have hvalue : b.build.value Json.getString (str "type") [] = .ok type := by
    simp only [SchemaBuilder.build, Json.value, htype, Json.getString]
  have hobject : isObjectType b.schema_ = (type == str "object") := by
    simp only [isObjectType, htype]
  unfold closedSchema closeRoot
  rw [hvalue, hobject]
  by_cases ho : type = str "object"
  · subst ho
    rfl
  · simp only [beq_iff_eq, ho, if_false]
    change (if type = str "object" then _ else _) = _
    rw [if_neg ho]
    rfl

def openAiSchema : Path :=
  [.key (str "response_format"), .key (str "json_schema"), .key (str "schema")]

def anthropicSchema : Path :=
  [.key (str "output_config"), .key (str "format"), .key (str "schema")]

variable {σ : Type} (c : Conversation) (tools : List ToolView) {schema sent : Json}

theorem anthropic_sent (provider : AnthropicProvider σ) (hsent : closedSchema schema = .ok sent) :
    ∃ body, provider.serializeRequest c { tools := tools, outputSchema := some schema } = .ok body ∧
      body.node? anthropicSchema = some sent := by
  have hbody : ∃ members,
      provider.serializeRequest c { tools := tools, outputSchema := some schema } =
        .ok (.object (Assoc.set (str "output_config") (AnthropicProvider.outputConfig sent)
          members)) := by
    unfold AnthropicProvider.serializeRequest
    rw [Option.mapM_some, hsent]
    exact ⟨_, rfl⟩
  obtain ⟨members, hbody⟩ := hbody
  refine ⟨_, hbody, ?_⟩
  simp only [anthropicSchema, Json.node?, AnthropicProvider.outputConfig, Assoc.find?_set_self,
    Option.bind_some]

theorem openAi_sent [Platform] (provider : OpenAiProvider σ)
    (hsent : closedSchema schema = .ok sent) :
    ∃ body, provider.serializeRequest c { tools := tools, outputSchema := some schema } = .ok body ∧
      body.node? openAiSchema = some sent := by
  have hbody : ∃ members,
      provider.serializeRequest c { tools := tools, outputSchema := some schema } =
        .ok (.object (Assoc.set (str "response_format") (OpenAiProvider.responseFormat sent)
          members)) := by
    unfold OpenAiProvider.serializeRequest
    rw [Option.mapM_some, hsent]
    exact ⟨_, rfl⟩
  obtain ⟨members, hbody⟩ := hbody
  refine ⟨_, hbody, ?_⟩
  simp only [openAiSchema, Json.node?, OpenAiProvider.responseFormat, Assoc.find?_set_self,
    Option.bind_some]

/-- Both providers send a built schema, and what they send is closed at every
depth exactly when no schema inside it is of type object. -/
theorem serializeRequest_closes [Platform] {b : SchemaBuilder} (h : Made b)
    (openAi : OpenAiProvider σ) (anthropic : AnthropicProvider σ) (c : Conversation)
    (tools : List ToolView) :
    let request : ChatRequest := { tools := tools, outputSchema := some b.build }
    (∀ t, Relation.ReflTransGen SubschemaOf t (closeSchema b.build) → t.IsObjectSchema →
      t.index (str "additionalProperties") = .ok (.boolean false)) ∧
    (∃ body sent, openAi.serializeRequest c request = .ok body ∧
      body.node? openAiSchema = some sent ∧
      (sent = closeSchema b.build ↔ NoObjectInside b.build)) ∧
    ∃ body sent, anthropic.serializeRequest c request = .ok body ∧
      body.node? anthropicSchema = some sent ∧
      (sent = closeSchema b.build ↔ NoObjectInside b.build) := by
  have hsent := closedSchema_build (made_wellbuilt h)
  refine ⟨fun _ => closeSchema_closed, ?_, ?_⟩
  · obtain ⟨body, hbody, hnode⟩ := openAi_sent c tools openAi hsent
    exact ⟨body, _, hbody, hnode, root_deep h⟩
  · obtain ⟨body, hbody, hnode⟩ := anthropic_sent c tools anthropic hsent
    exact ⟨body, _, hbody, hnode, root_deep h⟩

/-- A person with a name. -/
def person : SchemaBuilder := Schema.object.property (str "name") Schema.string.build

def unreachable : HttpClient Unit := ⟨fun _ _ _ w => (.error (.other (str "unreachable")), w)⟩

def openAi : OpenAiProvider Unit := .make unreachable { apiKey := str "key", model := str "gpt-4o" }

def anthropic : AnthropicProvider Unit :=
  .make unreachable { apiKey := str "key", model := str "claude-sonnet-4-20250514" }

theorem serializeRequest_closes_person :
    letI := Platform.reference
    ∃ body sent, openAi.serializeRequest {} { outputSchema := some person.build } = .ok body ∧
      body.node? openAiSchema = some sent ∧
      (sent = closeSchema person.build ↔ NoObjectInside person.build) := by
  let platform := Platform.reference
  exact (serializeRequest_closes (.property .object _ .string) openAi anthropic {} []).2.1

/-- A person with an address that has a city. -/
def resident : SchemaBuilder :=
  Schema.object.property (str "address")
    (Schema.object.property (str "city") Schema.string.build).build

/-- The schema of the address is sent open. -/
theorem not_closes_resident :
    letI := Platform.reference
    ¬ ∀ b, Made b → ∀ body,
      openAi.serializeRequest {} { outputSchema := some b.build } = .ok body →
      body.node? openAiSchema = some (closeSchema b.build) := by
  let platform := Platform.reference
  intro h
  have hmade : Made resident := .property .object _ (.property .object _ .string)
  have hsent := closedSchema_build (made_wellbuilt hmade)
  obtain ⟨body, hbody, hnode⟩ := openAi_sent {} [] openAi hsent
  have hclosed := h resident hmade body hbody
  have hnested := (root_deep hmade).mp (Option.some.inj (hnode.symm.trans hclosed))
  have hinside : SubschemaOf (Schema.object.property (str "city") Schema.string.build).build
      resident.build := .property rfl (Assoc.find?_set_self _ _ _)
  exact hnested _ (.single hinside) ⟨_, rfl, rfl⟩

end Forgeant.Proofs.SchemaClosing
