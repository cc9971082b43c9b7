import Forgeant.Replay
import Mathlib.Data.List.Dedup

namespace Forgeant.Proofs.Registry

variable {σ σ' : Type}

theorem registry_ext {a b : ToolRegistry σ} (h : a.tools_ = b.tools_) : a = b := by
  cases a
  cases b
  cases h
  rfl

theorem add_taken {registry : ToolRegistry σ} {tool : Tool σ}
    (h : tool.name ∈ registry.tools_.map Prod.fst) : registry.add tool = registry := by
  rw [ToolRegistry.add, dif_pos h]

theorem add_free {registry : ToolRegistry σ} {tool : Tool σ}
    (h : tool.name ∉ registry.tools_.map Prod.fst) :
    (registry.add tool).tools_ = registry.tools_ ++ [(tool.name, tool)] := by
  rw [ToolRegistry.add, dif_neg h]

theorem find?_isSome {registry : ToolRegistry σ} {name : Str} :
    (registry.find? name).isSome ↔ name ∈ registry.tools_.map Prod.fst := by
  rw [ToolRegistry.find?, Option.isSome_map, List.find?_isSome, List.mem_map]
  simp only [beq_iff_eq]

/-- A name keeps the tool that it was first given. -/
theorem find?_add (registry : ToolRegistry σ) (tool : Tool σ) (name : Str) :
    (registry.add tool).find? name =
      (registry.find? name).or (if tool.name = name then some tool else none) := by
  by_cases h : tool.name ∈ registry.tools_.map Prod.fst
  · rw [add_taken h]
    split
    · rename_i hname
      obtain ⟨first, hfirst⟩ := Option.isSome_iff_exists.mp (find?_isSome.mpr (hname ▸ h))
      rw [hfirst]
      rfl
    · rw [Option.or_none]
  · rw [ToolRegistry.find?, add_free h, List.find?_append, Option.map_or, ← ToolRegistry.find?]
    congr 1
    rw [List.find?_singleton]
    by_cases hname : tool.name = name
    · rw [if_pos hname, if_pos (beq_iff_eq.mpr hname)]
      rfl
    · rw [if_neg hname, if_neg (fun h => hname (beq_iff_eq.mp h))]
      rfl

/-- The first tool of that name. -/
def firstNamed (added : List (Tool σ)) (name : Str) : Option (Tool σ) :=
  added.find? (fun tool => tool.name == name)

theorem find?_addAll (added : List (Tool σ)) (registry : ToolRegistry σ) (name : Str) :
    (added.foldl ToolRegistry.add registry).find? name =
      (registry.find? name).or (firstNamed added name) := by
  induction added generalizing registry with
  | nil => rw [List.foldl_nil, firstNamed, List.find?_nil, Option.or_none]
  | cons tool added ih =>
    rw [List.foldl_cons, ih, find?_add, Option.or_assoc]
    congr 1
    by_cases hname : tool.name = name
    · have hbeq : (tool.name == name) = true := beq_iff_eq.mpr hname
      simp only [if_pos hname, firstNamed, List.find?_cons, hbeq, Option.some_or]
    · have hbeq : (tool.name == name) = false := beq_eq_false_iff_ne.mpr hname
      simp only [if_neg hname, firstNamed, List.find?_cons, hbeq, Option.none_or]

/-- Every tool is filed under its own name. -/
def Filed (registry : ToolRegistry σ) : Prop := ∀ p ∈ registry.tools_, p.1 = p.2.name

theorem filed_add {registry : ToolRegistry σ} (h : Filed registry) (tool : Tool σ) :
    Filed (registry.add tool) := by
  by_cases hname : tool.name ∈ registry.tools_.map Prod.fst
  · rw [add_taken hname]
    exact h
  · intro p hp
    rw [add_free hname, List.mem_append, List.mem_singleton] at hp
    rcases hp with hp | rfl
    · exact h p hp
    · rfl

theorem filed_addAll {registry : ToolRegistry σ} (h : Filed registry) (added : List (Tool σ)) :
    Filed (added.foldl ToolRegistry.add registry) := by
  induction added generalizing registry with
  | nil => exact h
  | cons tool added ih => exact ih (filed_add h tool)

theorem find?_eq_some {registry : ToolRegistry σ} {name : Str} {tool : Tool σ} :
    registry.find? name = some tool ↔ (name, tool) ∈ registry.tools_ := by
  constructor
  · intro h
    obtain ⟨p, hp, rfl⟩ := Option.map_eq_some_iff.mp h
    have hname := List.find?_some hp
    rw [← beq_iff_eq.mp hname]
    exact List.mem_of_find?_eq_some hp
  · intro h
    have hname : name ∈ registry.tools_.map Prod.fst := List.mem_map_of_mem h
    obtain ⟨first, hfirst⟩ := Option.isSome_iff_exists.mp (find?_isSome.mpr hname)
    obtain ⟨p, hp, rfl⟩ := Option.map_eq_some_iff.mp hfirst
    have hkey := List.find?_some hp
    rw [hfirst, List.inj_on_of_nodup_map registry.unique (List.mem_of_find?_eq_some hp) h
      (beq_iff_eq.mp hkey)]

/-- The views are those of the tools to be found, each under its name. -/
theorem mem_tools {registry : ToolRegistry σ} (h : Filed registry) {view : ToolView} :
    view ∈ registry.tools ↔ ∃ tool, registry.find? view.name = some tool ∧ view = tool.view := by
  rw [ToolRegistry.tools, List.mem_map]
  constructor
  · rintro ⟨⟨name, tool⟩, hp, rfl⟩
    refine ⟨tool, find?_eq_some.mpr ?_, rfl⟩
    rw [← h _ hp]
    exact hp
  · rintro ⟨tool, hfind, hview⟩
    exact ⟨_, find?_eq_some.mp hfind, hview.symm⟩

theorem tools_nodup {registry : ToolRegistry σ} (h : Filed registry) :
    (registry.tools.map ToolView.name).Nodup := by
  have hnames : registry.tools.map ToolView.name = registry.tools_.map Prod.fst := by
    rw [ToolRegistry.tools, List.map_map]
    apply List.map_congr_left
    intro p hp
    exact (h p hp).symm
  rw [hnames]
  exact registry.unique

theorem get_addAll (added : List (Tool σ)) (name : Str) :
    (added.foldl ToolRegistry.add {}).get name =
      match firstNamed added name with
      | some tool => .ok tool
      | none => .error (.runtimeError (str "unknown tool: " ++ name)) := by
  rw [ToolRegistry.get, find?_addAll]
  show (match firstNamed added name with
    | some tool => _
    | none => _) = _
  cases firstNamed added name with
  | none => rfl
  | some tool => rfl

theorem has_addAll (added : List (Tool σ)) (name : Str) :
    (added.foldl ToolRegistry.add {}).has name = true ↔ name ∈ added.map Tool.name := by
  rw [ToolRegistry.has, find?_addAll]
  show (firstNamed added name).isSome = true ↔ _
  rw [firstNamed, List.find?_isSome, List.mem_map]
  simp only [beq_iff_eq]

theorem size_addAll (added : List (Tool σ)) :
    (added.foldl ToolRegistry.add {}).size = (added.map Tool.name).dedup.length := by
  have hperm : ((added.foldl ToolRegistry.add {}).tools_.map Prod.fst).Perm
      (added.map Tool.name).dedup := by
    rw [List.perm_ext_iff_of_nodup (ToolRegistry.unique _) (List.nodup_dedup _)]
    intro name
    rw [List.mem_dedup, ← has_addAll, ToolRegistry.has, find?_isSome]
  rw [ToolRegistry.size, ← hperm.length_eq, List.length_map]

theorem tools_addAll (added : List (Tool σ)) :
    ((added.foldl ToolRegistry.add {}).tools.map ToolView.name).Nodup ∧
      ∀ view, view ∈ (added.foldl ToolRegistry.add {}).tools ↔
        ∃ tool, firstNamed added view.name = some tool ∧ view = tool.view := by
  have hfiled : Filed (added.foldl ToolRegistry.add {}) :=
    filed_addAll (fun p hp => absurd hp List.not_mem_nil) added
  refine ⟨tools_nodup hfiled, ?_⟩
  intro view
  rw [mem_tools hfiled, find?_addAll]
  rfl

/-- After any calls of `add`, every query reports the map from names to the first
tools of those names. -/
theorem registry_refines (added : List (Tool σ)) :
    (∀ name, (added.foldl ToolRegistry.add {}).get name =
      match firstNamed added name with
      | some tool => .ok tool
      | none => .error (.runtimeError (str "unknown tool: " ++ name))) ∧
    (∀ name, (added.foldl ToolRegistry.add {}).has name = true ↔ name ∈ added.map Tool.name) ∧
    (added.foldl ToolRegistry.add {}).size = (added.map Tool.name).dedup.length ∧
    ((added.foldl ToolRegistry.add {}).tools.map ToolView.name).Nodup ∧
    ∀ view, view ∈ (added.foldl ToolRegistry.add {}).tools ↔
      ∃ tool, firstNamed added view.name = some tool ∧ view = tool.view :=
  ⟨get_addAll added, has_addAll added, size_addAll added, tools_addAll added⟩

theorem mapTools_find? (registry : ToolRegistry σ) (f : Tool σ → Tool σ') (name : Str) :
    (registry.mapTools f).find? name = (registry.find? name).map f := by
  simp only [ToolRegistry.find?, ToolRegistry.mapTools, List.find?_map, Option.map_map]
  rfl

/-- If a tool does there what it does here, so does the registry. -/
theorem mapTools_execute {registry : ToolRegistry σ} {f : Tool σ → Tool σ'} (embed : σ → σ')
    {w : σ} (hf : ∀ tool input, (f tool).execute input (embed w) =
      ((tool.execute input w).1, embed (tool.execute input w).2)) (name : Str) (input : Json) :
    (registry.mapTools f).execute name input (embed w) =
      ((registry.execute name input w).1, embed (registry.execute name input w).2) := by
  rw [ToolRegistry.execute, ToolRegistry.execute, ToolRegistry.get, ToolRegistry.get,
    mapTools_find?]
  cases registry.find? name with
  | none => rfl
  | some tool => exact hf tool input

theorem mapTools_tools (registry : ToolRegistry σ) {f : Tool σ → Tool σ'}
    (hf : ∀ tool, (f tool).name = tool.name ∧ (f tool).description = tool.description ∧
      (f tool).parameters = tool.parameters) :
    (registry.mapTools f).tools = registry.tools := by
  simp only [ToolRegistry.tools, ToolRegistry.mapTools, List.map_map]
  apply List.map_congr_left
  intro p _
  simp only [Function.comp_apply, hf]

theorem mapTools_add (registry : ToolRegistry σ) {f : Tool σ → Tool σ'}
    (hf : ∀ tool, (f tool).name = tool.name) (tool : Tool σ) :
    (registry.add tool).mapTools f = (registry.mapTools f).add (f tool) := by
  have hnames : (registry.mapTools f).tools_.map Prod.fst = registry.tools_.map Prod.fst := by
    rw [ToolRegistry.mapTools, List.map_map]
    rfl
  apply registry_ext
  by_cases h : tool.name ∈ registry.tools_.map Prod.fst
  · rw [add_taken h, add_taken]
    rw [hnames, hf]
    exact h
  · have hfree : (f tool).name ∉ (registry.mapTools f).tools_.map Prod.fst := by
      rw [hnames, hf]
      exact h
    show (registry.add tool).tools_.map _ = _
    rw [add_free hfree, add_free h, List.map_append, hf]
    rfl

theorem mapTools_addAll (added : List (Tool σ)) (registry : ToolRegistry σ)
    {f : Tool σ → Tool σ'} (hf : ∀ tool, (f tool).name = tool.name) :
    (added.foldl ToolRegistry.add registry).mapTools f =
      (added.map f).foldl ToolRegistry.add (registry.mapTools f) := by
  induction added generalizing registry with
  | nil => rfl
  | cons tool added ih =>
    rw [List.foldl_cons, ih, mapTools_add registry hf]
    rfl

theorem addTools_eq (added : List (Tool σ)) (agent : Agent σ) :
    added.foldl Agent.addTool agent =
      { agent with registry := added.foldl ToolRegistry.add agent.registry } := by
  induction added generalizing agent with
  | nil => rfl
  | cons tool added ih =>
    rw [List.foldl_cons, ih]
    rfl

end Forgeant.Proofs.Registry
