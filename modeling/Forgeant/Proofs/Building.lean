import Forgeant.Building
import Forgeant.Proofs.Writing

namespace Forgeant.Proofs.Building
open Effect SchemaBuilder Writing

theorem entry_key {call : SchemaCall} {e : Str × Json} (h : call.entry? = some e) :
    e.1 ∈ [str "description", str "default", str "enum", str "required", str "items"] := by
  cases call with
  | property name propSchema => cases h
  | _ =>
    cases h
    simp

theorem entry_ne {call : SchemaCall} {e : Str × Json} (h : call.entry? = some e) :
    str "properties" ≠ e.1 ∧ str "type" ≠ e.1 := by
  have hne : ∀ key ∈ [str "description", str "default", str "enum", str "required",
      str "items"], str "properties" ≠ key ∧ str "type" ≠ key := by decide
  exact hne e.1 (entry_key h)

theorem entry_apply {call : SchemaCall} {e : Str × Json} (h : call.entry? = some e)
    (b : SchemaBuilder) : (b.apply call).schema_ = Assoc.set e.1 e.2 b.schema_ := by
  cases call with
  | property name propSchema => cases h
  | _ =>
    cases h
    rfl

theorem run_strings (key : Str) (strings : List Str) (members : List (Str × Json)) :
    (do
      member key (put (.array []))
      forM strings (fun s => member key (pushBack (.string s)))).run (.object members) =
        (.ok (), .object (Assoc.set key (.array (strings.map .string)) members)) := by
  rw [member_fill]
  exact run_member (run_put _ _)

theorem run_entry {call : SchemaCall} {e : Str × Json} (h : call.entry? = some e)
    (members : List (Str × Json)) :
    call.write.run (.object members) = (.ok (), .object (Assoc.set e.1 e.2 members)) := by
  cases call with
  | property name propSchema => cases h
  | enumValues values =>
    cases h
    exact run_strings _ values members
  | required fields =>
    cases h
    exact run_strings _ fields members
  | _ =>
    cases h
    rfl

/-- The statement on `schema_["properties"]`, which are there or have just been
put there. -/
theorem run_declare {members props : List (Str × Json)}
    (h : Assoc.find? (str "properties") members = some (.object props)) (name : Str)
    (propSchema : Json) :
    (member (str "properties") (member name (put propSchema))).run (.object members) =
      (.ok (), .object (Assoc.set (str "properties") (.object (Assoc.set name propSchema props))
        members)) := by
  apply run_member
  rw [h]
  rfl

theorem run_property (b : SchemaBuilder) (name : Str) (propSchema : Json) :
    (SchemaCall.property name propSchema).write.run (.object b.schema_) =
      (.ok (), .object (Assoc.set (str "properties")
        (.object (Assoc.set name propSchema b.props)) b.schema_)) := by
  have hcontains : (contains (str "properties")).run (.object b.schema_) =
    (.ok ((Json.object b.schema_).contains (str "properties")), .object b.schema_) := rfl
  show (contains (str "properties") >>= _).run _ = _
  rw [run_bind_ok hcontains, run_bind_ifTrue]
  unfold SchemaBuilder.props
  cases hfind : Assoc.find? (str "properties") b.schema_ with
  | none =>
    rw [Json.contains_object_false.mpr hfind]
    simp only [Bool.not_false, if_true]
    rw [run_declare (Assoc.find?_set_self _ _ _), Assoc.set_set]
  | some v =>
    obtain ⟨props, rfl⟩ := b.properties v hfind
    rw [Json.contains_of_index (Json.index_ok.mpr ⟨_, rfl, hfind⟩)]
    exact run_declare hfind name propSchema

theorem run_call (b : SchemaBuilder) (call : SchemaCall) :
    call.write.run (.object b.schema_) = (.ok (), .object (b.apply call).schema_) := by
  cases hentry : call.entry? with
  | some e => rw [run_entry hentry, entry_apply hentry]
  | none =>
    cases call with
    | property name propSchema => exact run_property b name propSchema
    | _ => cases hentry

theorem run_calls (b : SchemaBuilder) (calls : List SchemaCall) :
    (forM calls SchemaCall.write).run (.object b.schema_) =
      (.ok (), .object (calls.foldl SchemaBuilder.apply b).schema_) := by
  induction calls generalizing b with
  | nil => rfl
  | cons call calls ih => rw [List.forM_cons, run_bind_ok (run_call b call), ih, List.foldl_cons]

theorem find?_entries (calls : List SchemaCall) {key : Str}
    (h : key = str "properties" ∨ key = str "type") :
    Assoc.find? key (calls.filterMap SchemaCall.entry?).reverse = none := by
  apply Assoc.find?_none
  intro e he
  obtain ⟨call, _, hentry⟩ := List.mem_filterMap.mp (List.mem_reverse.mp he)
  obtain ⟨hproperties, htype⟩ := entry_ne hentry
  rcases h with rfl | rfl
  · exact hproperties.symm
  · exact htype.symm

theorem ordered_fields (type : Str) (calls : List SchemaCall) : Assoc.Ordered (fields type calls) :=
  (Assoc.ordered_ofList _).setSome _ _

theorem find?_properties (type : Str) (calls : List SchemaCall) :
    Assoc.find? (str "properties") (fields type calls) = properties? calls := by
  unfold fields
  cases properties? calls with
  | none =>
    show Assoc.find? _ (Assoc.ofList _) = none
    rw [Assoc.find?_ofList, Assoc.find?_append, find?_entries calls (.inl rfl)]
    rfl
  | some v => exact Assoc.find?_set_self _ v _

theorem find?_fields (type : Str) (calls : List SchemaCall) {key : Str}
    (h : key ≠ str "properties") : Assoc.find? key (fields type calls) =
      (lastEntry calls key).or (Assoc.find? key [(str "type", .string type)]) := by
  rw [fields, Assoc.find?_setSome_ne h, Assoc.find?_ofList, Assoc.find?_append]
  rfl

theorem fields_entry {call : SchemaCall} {e : Str × Json} (h : call.entry? = some e) (type : Str)
    (calls : List SchemaCall) :
    fields type (calls ++ [call]) = Assoc.set e.1 e.2 (fields type calls) := by
  have hproperties : properties? (calls ++ [call]) = properties? calls := by
    have hnone : call.property? = none := by
      cases call with
      | property name propSchema => cases h
      | _ => rfl
    simp only [properties?, List.filterMap_append, List.filterMap_cons_none hnone,
      List.filterMap_nil, List.append_nil]
  rw [fields, hproperties, List.filterMap_append, List.filterMap_cons_some h, List.filterMap_nil,
    List.reverse_append, List.reverse_singleton, List.singleton_append, List.cons_append,
    Assoc.ofList_cons, (Assoc.ordered_ofList _).setSome_comm (entry_ne h).1]
  rfl

theorem props_fields {type : Str} {calls : List SchemaCall} {b : SchemaBuilder}
    (hb : b.schema_ = fields type calls) :
    b.props = Assoc.ofList (calls.filterMap SchemaCall.property?).reverse := by
  unfold SchemaBuilder.props
  rw [hb, find?_properties]
  unfold properties?
  cases calls.filterMap SchemaCall.property? with
  | nil => rfl
  | cons p ps => rfl

theorem properties?_property (calls : List SchemaCall) (name : Str) (propSchema : Json) :
    properties? (calls ++ [SchemaCall.property name propSchema]) =
      some (.object (Assoc.set name propSchema
        (Assoc.ofList (calls.filterMap SchemaCall.property?).reverse))) := by
  have hprops : (calls ++ [SchemaCall.property name propSchema]).filterMap SchemaCall.property? =
      calls.filterMap SchemaCall.property? ++ [(name, propSchema)] := List.filterMap_append
  rw [← Assoc.ofList_cons (name, propSchema)]
  unfold properties?
  rw [hprops]
  cases calls.filterMap SchemaCall.property? with
  | nil => rfl
  | cons p ps =>
    have hreverse : (p :: ps ++ [(name, propSchema)]).reverse =
        (name, propSchema) :: (p :: ps).reverse := List.reverse_append
    rw [← hreverse]
    rfl

theorem fields_property {type : Str} {calls : List SchemaCall} {b : SchemaBuilder}
    (hb : b.schema_ = fields type calls) (name : Str) (propSchema : Json) :
    fields type (calls ++ [SchemaCall.property name propSchema]) =
      Assoc.set (str "properties") (.object (Assoc.set name propSchema b.props)) b.schema_ := by
  have hentries : (calls ++ [SchemaCall.property name propSchema]).filterMap SchemaCall.entry? =
      calls.filterMap SchemaCall.entry? := by
    rw [List.filterMap_append]
    exact List.append_nil _
  rw [props_fields hb, hb, fields, properties?_property, hentries, fields]
  cases properties? calls with
  | none => rfl
  | some v => exact (Assoc.set_set _ _ _ _).symm

theorem fields_apply {type : Str} {calls : List SchemaCall} {b : SchemaBuilder}
    (hb : b.schema_ = fields type calls) (call : SchemaCall) :
    (b.apply call).schema_ = fields type (calls ++ [call]) := by
  cases hentry : call.entry? with
  | some e => rw [entry_apply hentry, fields_entry hentry, hb]
  | none =>
    cases call with
    | property name propSchema => exact (fields_property hb name propSchema).symm
    | _ => cases hentry

theorem foldl_fields {type : Str} {b : SchemaBuilder} {before : List SchemaCall}
    (hb : b.schema_ = fields type before) (calls : List SchemaCall) :
    (calls.foldl SchemaBuilder.apply b).schema_ = fields type (before ++ calls) := by
  induction calls generalizing b before with
  | nil => rw [List.append_nil]; exact hb
  | cons call calls ih =>
    rw [List.foldl_cons, ih (fields_apply hb call), List.append_assoc, List.singleton_append]

theorem build_fields (type : Str) (calls : List SchemaCall) :
    (calls.foldl SchemaBuilder.apply (.make type)).schema_ = fields type calls := by
  have hmade : (SchemaBuilder.make type).schema_ = fields type [] := rfl
  exact foldl_fields hmade calls

theorem properties?_eq (calls : List SchemaCall) :
    properties? calls =
      if (Assoc.ofList (calls.filterMap SchemaCall.property?).reverse).isEmpty then none
      else some (.object (Assoc.ofList (calls.filterMap SchemaCall.property?).reverse)) := by
  unfold properties?
  cases calls.filterMap SchemaCall.property? with
  | nil => rfl
  | cons p ps =>
    rw [if_neg]
    · rfl
    · intro hempty
      have hnone : Assoc.find? p.1 (Assoc.ofList (p :: ps).reverse) = none := by
        rw [List.isEmpty_iff.mp hempty]
        rfl
      rw [Assoc.find?_ofList, Assoc.find?_eq_none] at hnone
      exact hnone (List.mem_map_of_mem (List.mem_reverse.mpr List.mem_cons_self))

theorem properties?_eq_iff {calls calls' : List SchemaCall} :
    properties? calls = properties? calls' ↔
      ∀ name, lastProperty calls name = lastProperty calls' name := by
  constructor
  · intro h name
    have hlast (calls : List SchemaCall) :
        lastProperty calls name = (properties? calls).bind (Json.node? [.key name]) := by
      unfold lastProperty properties?
      rw [← Assoc.find?_ofList]
      cases calls.filterMap SchemaCall.property? with
      | nil => rfl
      | cons p ps => exact (Option.bind_fun_some _).symm
    rw [hlast, hlast, h]
  · intro h
    have hprops : Assoc.ofList (calls.filterMap SchemaCall.property?).reverse =
        Assoc.ofList (calls'.filterMap SchemaCall.property?).reverse := by
      apply Assoc.Ordered.ext (Assoc.ordered_ofList _) (Assoc.ordered_ofList _)
      intro name
      rw [Assoc.find?_ofList, Assoc.find?_ofList]
      exact h name
    rw [properties?_eq, properties?_eq, hprops]

theorem find?_type (type : Str) (calls : List SchemaCall) :
    Assoc.find? (str "type") (fields type calls) = some (.string type) := by
  rw [find?_fields type calls (by decide), lastEntry, find?_entries calls (.inr rfl)]
  rfl

theorem fields_eq_iff {type type' : Str} {calls calls' : List SchemaCall} :
    fields type calls = fields type' calls' ↔ type = type' ∧
      (∀ key, lastEntry calls key = lastEntry calls' key) ∧
      ∀ name, lastProperty calls name = lastProperty calls' name := by
  rw [← properties?_eq_iff]
  constructor
  · intro h
    refine ⟨?_, ?_, ?_⟩
    · have htype := find?_type type calls
      rw [h, find?_type] at htype
      cases htype
      rfl
    · intro key
      by_cases hkey : key = str "properties" ∨ key = str "type"
      · rw [lastEntry, lastEntry, find?_entries calls hkey, find?_entries calls' hkey]
      · obtain ⟨hproperties, htype⟩ := not_or.mp hkey
        have hfind (type : Str) (calls : List SchemaCall) :
            Assoc.find? key (fields type calls) = lastEntry calls key := by
          rw [find?_fields type calls hproperties, Assoc.find?_cons, if_neg htype]
          exact Option.or_none
        rw [← hfind type, h, hfind]
    · rw [← find?_properties type, h, find?_properties]
  · rintro ⟨rfl, hentries, hproperties⟩
    apply Assoc.Ordered.ext (ordered_fields type calls) (ordered_fields type calls')
    intro key
    by_cases hkey : key = str "properties"
    · rw [hkey, find?_properties, find?_properties, hproperties]
    · rw [find?_fields type calls hkey, find?_fields type calls' hkey, hentries]

/-- A chain of calls on a builder never throws, and the last call for an entry or
a property says what the schema has there: two chains build one schema exactly
when they agree on these. -/
theorem builder_refines (type : Str) (calls : List SchemaCall) :
    (SchemaBuilder.write type calls).run .null =
      (.ok (), (calls.foldl SchemaBuilder.apply (.make type)).build) ∧
    (calls.foldl SchemaBuilder.apply (.make type)).schema_ = fields type calls ∧
    ∀ type' calls', (SchemaBuilder.write type calls).run .null =
        (SchemaBuilder.write type' calls').run .null ↔
      type = type' ∧ (∀ key, lastEntry calls key = lastEntry calls' key) ∧
        ∀ name, lastProperty calls name = lastProperty calls' name := by
  have hrun (type : Str) (calls : List SchemaCall) : (SchemaBuilder.write type calls).run .null =
      (.ok (), .object (fields type calls)) := by
    rw [SchemaBuilder.write, run_bind_member_put_null, ← build_fields]
    exact run_calls (.make type) calls
  refine ⟨?_, build_fields type calls, ?_⟩
  · rw [hrun, SchemaBuilder.build, build_fields]
  · intro type' calls'
    rw [hrun, hrun, ← fields_eq_iff, Prod.mk.injEq, Json.object.injEq]
    exact and_iff_right rfl

end Forgeant.Proofs.Building
