import Forgeant.Proofs.Registry
import Forgeant.Proofs.Replay

namespace Forgeant.Proofs.Recording
open Registry Replay

variable {ν τ : Type} [Platform] {wire : Wire} {registry : ToolRegistry τ}

omit [Platform] in
theorem beside_execute (name : Str) (input : Json) (n : ν) (t : τ) :
    (registry.beside ν).execute name input (n, t) =
      ((registry.execute name input t).1, (n, (registry.execute name input t).2)) :=
  mapTools_execute (fun t => (n, t)) (fun _ _ => rfl) name input

omit [Platform] in
theorem beside_tools (ν : Type) (registry : ToolRegistry τ) :
    (registry.beside ν).tools = registry.tools :=
  mapTools_tools registry (fun _ => ⟨rfl, rfl, rfl⟩)

theorem twins_agent {ν' : Type} (wire : Wire) (registry : ToolRegistry τ) (options : AgentOptions)
    (client : HttpClient ν) (client' : HttpClient ν') :
    Twins (wire.agent client registry options) (wire.agent client' registry options) where
  options := rfl
  tools := (beside_tools ν registry).trans (beside_tools ν' registry).symm

theorem over_chat_error {client : HttpClient ν} {c : Conversation} {request : ChatRequest}
    {e : StdException} (h : wire.body c request = .error e) (n : ν) :
    (wire.over client).chat c request n = (.error e, n) := by
  simp only [Wire.over, HttpClient.chat, h]

theorem over_chat_ok {client : HttpClient ν} {c : Conversation} {request : ChatRequest}
    {body : Json} (h : wire.body c request = .ok body) (n : ν) :
    (wire.over client).chat c request n =
      (wire.read (client.post wire.url wire.headers body.dump n).1,
        (client.post wire.url wire.headers body.dump n).2) := by
  simp only [Wire.over, HttpClient.chat, h, Wire.read]
  rcases client.post wire.url wire.headers body.dump n with ⟨e | response, m⟩
  · rfl
  · dsimp only
    split
    · rfl
    · rfl

/-- The calls of a run over a client are those of a run over the client with its
log, and of one over what was logged. -/
theorem replays_logged {client : HttpClient ν} {w v : ν × τ} {es : List Event}
    (h : Replays (wire.over (client.beside τ)) (registry.beside ν) w es v) :
    ∃ log, log.map Exchange.request = es.filterMap wire.request ∧
      (∀ earlier, Replays (wire.over (client.recording.beside τ))
        (registry.beside (ν × List Exchange)) ((w.1, earlier), w.2) es
        ((v.1, earlier ++ log), v.2)) ∧
      ∀ later, Replays (wire.over (HttpClient.playback.beside τ))
        (registry.beside (List Exchange)) (log ++ later, w.2) es (later, v.2) := by
  induction h with
  | nil w =>
    refine ⟨[], rfl, ?_, ?_⟩
    · intro earlier
      rw [List.append_nil]
      exact .nil _
    · exact fun later => .nil _
  | chat hchat rest ih =>
    rename_i w v u es c request outcome
    obtain ⟨log, hlog, hrecord, hplay⟩ := ih
    cases hbody : wire.body c request with
    | error e =>
      rw [over_chat_error hbody] at hchat
      cases hchat
      refine ⟨log, ?_, ?_, ?_⟩
      · rw [hlog, List.filterMap_cons, Wire.request, hbody]
      · exact fun earlier => .chat (over_chat_error hbody _) (hrecord earlier)
      · exact fun later => .chat (over_chat_error hbody _) (hplay later)
    | ok body =>
      rw [over_chat_ok hbody] at hchat
      cases hchat
      let exchange : Exchange :=
        ⟨wire.url, wire.headers, body.dump, (client.post wire.url wire.headers body.dump w.1).1⟩
      refine ⟨exchange :: log, ?_, ?_, ?_⟩
      · rw [List.map_cons, hlog, List.filterMap_cons, Wire.request, hbody]
        rfl
      · intro earlier
        rw [List.append_cons]
        exact .chat (over_chat_ok hbody _) (hrecord (earlier ++ [exchange]))
      · exact fun later => .chat (over_chat_ok hbody _) (hplay later)
  | execute hexecute rest ih =>
    rename_i w v u es name input outcome
    obtain ⟨log, hlog, hrecord, hplay⟩ := ih
    obtain ⟨n, t⟩ := w
    rw [beside_execute] at hexecute
    cases hexecute
    exact ⟨log, hlog, fun earlier => .execute (beside_execute _ _ _ _) (hrecord earlier),
      fun later => .execute (beside_execute _ _ _ _) (hplay later)⟩

/-- What a call logs, and that the log is enough to make the call again. -/
theorem call_logged {T : Type} (wire : Wire) (registry : ToolRegistry τ) (options : AgentOptions)
    (client : HttpClient ν) (c : Call T) (s : Session (ν × τ)) :
    ∃ es log n t,
      ((wire.agent client registry options).call c s).2 = ⟨(n, t), s.trace ++ es⟩ ∧
      log.map Exchange.request = es.filterMap wire.request ∧
      (∀ earlier trace,
        (wire.agent client.recording registry options).call c
            ⟨((s.world.1, earlier), s.world.2), trace⟩ =
          (((wire.agent client registry options).call c s).1,
            ⟨((n, earlier ++ log), t), trace ++ es⟩)) ∧
      ∀ later trace,
        (wire.agent .playback registry options).call c ⟨(log ++ later, s.world.2), trace⟩ =
          (((wire.agent client registry options).call c s).1, ⟨(later, t), trace ++ es⟩) := by
  obtain ⟨es, hextends, hrecord⟩ :=
    replayable_call (twins_agent wire registry options client client.recording) c s
  obtain ⟨fs, hextends', hplay⟩ :=
    replayable_call (twins_agent wire registry options client .playback) c s
  obtain rfl : es = fs := List.append_cancel_left (hextends.trace.symm.trans hextends'.trace)
  obtain ⟨log, hlog, hrecorded, hplayed⟩ := replays_logged hextends.replays
  refine ⟨es, log, ((wire.agent client registry options).call c s).2.world.1,
    ((wire.agent client registry options).call c s).2.world.2, ?_, hlog, ?_, ?_⟩
  · rw [← hextends.trace]
  · exact fun earlier trace => hrecord ⟨_, trace⟩ _ (hrecorded earlier)
  · exact fun later trace => hplay ⟨_, trace⟩ _ (hplayed later)

/-- A call posts the requests that its chat calls encode to, in their order, and
no others; whether they are logged makes no difference to it. -/
theorem requests_posted {T : Type} (wire : Wire) (registry : ToolRegistry τ)
    (options : AgentOptions) (client : HttpClient ν) (c : Call T) (n : ν) (t : τ)
    (earlier : List Exchange) :
    let plain := (wire.agent client registry options).call c ⟨(n, t), []⟩
    ∃ log, log.map Exchange.request = plain.2.trace.filterMap wire.request ∧
      (wire.agent client.recording registry options).call c ⟨((n, earlier), t), []⟩ =
        (plain.1, ⟨((plain.2.world.1, earlier ++ log), plain.2.world.2), plain.2.trace⟩) := by
  obtain ⟨es, log, m, u, hplain, hlog, hrecord, _⟩ :=
    call_logged wire registry options client c ⟨(n, t), []⟩
  refine ⟨log, ?_, ?_⟩
  · rw [hplain]
    exact hlog
  · rw [hrecord, hplain]

/-- What the network answered settles a call: over the log of its exchanges it
returns the same, makes the same calls and leaves the tools in the same state,
and no answer is left over. -/
theorem playback_agrees {T : Type} (wire : Wire) (registry : ToolRegistry τ)
    (options : AgentOptions) (client : HttpClient ν) (c : Call T) (n : ν) (t : τ)
    (later : List Exchange) :
    let recorded := (wire.agent client.recording registry options).call c ⟨((n, []), t), []⟩
    (wire.agent .playback registry options).call c ⟨(recorded.2.world.1.2 ++ later, t), []⟩ =
      (recorded.1, ⟨(later, recorded.2.world.2), recorded.2.trace⟩) := by
  obtain ⟨es, log, m, u, _, _, hrecord, hplay⟩ :=
    call_logged wire registry options client c ⟨(n, t), []⟩
  dsimp only
  rw [hrecord]
  exact hplay later []

end Forgeant.Proofs.Recording
