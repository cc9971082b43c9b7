import Forgeant.Lifetimes
import Forgeant.Proofs.PerformPost

namespace Forgeant.Proofs.Lifetimes
open CurlHttpClient PerformPost

variable {ν σ : Type} {H H' : Heap Cell} {n m : ν} {s : σ} {curl : Curl ν}
  {client : CurlHttpClient} {impl handle : Ptr}

/-- The heap with a new client's `Impl` and handle. -/
def withClient (H : Heap Cell) : Heap Cell :=
  ((H.alloc (.impl none)).alloc (.easy {})).put H.next (.impl (some (H.next + 1)))

theorem cells_withClient (q : Ptr) :
    (withClient H).cells q =
      if q = H.next then some (.impl (some (H.next + 1)))
      else if q = H.next + 1 then some (.easy {}) else H.cells q := by
  have hne : H.next ≠ H.next + 1 := by omega
  simp only [withClient, Heap.cells_put, Heap.cells_alloc, Heap.next_alloc, if_neg hne]
  split
  · rfl
  · rfl

theorem run_construct (h : curl.easyInit n = (true, m)) (config : CurlConfig) :
    (construct curl config).run ⟨H, n, s⟩ =
      (.ok { impl_ := some H.next, config_ := config }, ⟨withClient H, m, s⟩) := by
  have halloc : (alloc (.impl none) : CurlEffect ν σ Ptr).run ⟨H, n, s⟩ =
      (.ok H.next, ⟨H.alloc (.impl none), n, s⟩) := rfl
  have hinit : (easyInit curl : CurlEffect ν σ (Option Ptr)).run ⟨H.alloc (.impl none), n, s⟩ =
      (.ok (some (H.next + 1)), ⟨(H.alloc (.impl none)).alloc (.easy {}), m, s⟩) := by
    simp only [easyInit, h, Heap.next_alloc]
  rw [construct, Effect.run_bind_ok halloc, Effect.run_bind_ok hinit]
  rfl

/-- A failed construction frees what it allocated before it throws. -/
theorem run_construct_fails (h : curl.easyInit n = (false, m)) (config : CurlConfig) :
    (construct curl config).run ⟨H, n, s⟩ =
      (.error (.std (.runtimeError (str "failed to initialize curl handle"))),
        ⟨(H.alloc (.impl none)).free H.next, m, s⟩) := by
  have halloc : (alloc (.impl none) : CurlEffect ν σ Ptr).run ⟨H, n, s⟩ =
      (.ok H.next, ⟨H.alloc (.impl none), n, s⟩) := rfl
  have hinit : (easyInit curl : CurlEffect ν σ (Option Ptr)).run ⟨H.alloc (.impl none), n, s⟩ =
      (.ok none, ⟨H.alloc (.impl none), m, s⟩) := by
    simp only [easyInit, h]
  have hfree : (free H.next : CurlEffect ν σ Unit).run ⟨H.alloc (.impl none), m, s⟩ =
      (.ok (), ⟨(H.alloc (.impl none)).free H.next, m, s⟩) := run_free (Heap.cells_alloc_self H _)
  rw [construct, Effect.run_bind_ok halloc, Effect.run_bind_ok hinit]
  show Effect.run (free H.next >>= fun _ => _) _ = _
  rw [Effect.run_bind_ok hfree]
  rfl

theorem cells_construct_fails (q : Ptr) :
    ((H.alloc (.impl none)).free H.next).cells q = H.cells q := by
  rw [Heap.cells_free, Heap.cells_alloc]
  split
  · rename_i hq
    rw [hq, H.fresh _ (Nat.le_refl _)]
  · rfl

theorem run_release (h : client.Holds H impl handle) :
    (client.release : CurlEffect ν σ Unit).run ⟨H, n, s⟩ =
      (.ok (), ⟨(H.free handle).free impl, n, s⟩) := by
  obtain ⟨easy, heasy⟩ := h.easyAt
  have hne : impl ≠ handle := ne_of_cells h.implAt heasy nofun
  have himpl : (H.free handle).cells impl = some (.impl (some handle)) := by
    rw [Heap.cells_free, if_neg hne, h.implAt]
  rw [release, h.eq]
  show Effect.run (load Cell.impl? impl >>= fun _ => _) _ = _
  rw [Effect.run_bind_ok (run_load Cell.impl? h.implAt rfl)]
  show Effect.run (easyCleanup handle >>= fun _ => _) _ = _
  rw [Effect.run_bind_ok (run_easyCleanup heasy), run_free himpl]

theorem run_release_movedFrom (h : client.impl_ = none) (w : CurlWorld ν σ) :
    (client.release : CurlEffect ν σ Unit).run w = (.ok (), w) := by
  rw [release, h]
  rfl

variable {clients : Nat → Option CurlHttpClient}

/-- The heaps differ at most in the state of live handles. -/
def Alike (H H' : Heap Cell) : Prop :=
  ∀ q, H'.cells q = H.cells q ∨
    ∃ easy easy', H.cells q = some (.easy easy) ∧ H'.cells q = some (.easy easy')

theorem Alike.symm (h : Alike H H') : Alike H' H := by
  intro q
  rcases h q with heq | ⟨easy, easy', heasy, heasy'⟩
  · exact .inl heq.symm
  · exact .inr ⟨easy', easy, heasy', heasy⟩

theorem alike_kept (h : Kept H handle H') {easy : Easy}
    (heasy : H.cells handle = some (.easy easy)) : Alike H H' := by
  intro q
  by_cases hq : q = handle
  · obtain ⟨easy', heasy'⟩ := h.easyAt
    exact .inr ⟨easy, easy', hq ▸ heasy, hq ▸ heasy'⟩
  · exact .inl (h.others q hq)

theorem Alike.implAt (h : Alike H H') {i : Ptr} {x : Option Ptr}
    (hi : H.cells i = some (.impl x)) : H'.cells i = some (.impl x) := by
  rcases h i with heq | ⟨easy, _, heasy, _⟩
  · rw [heq, hi]
  · rw [hi] at heasy
    cases heasy

theorem Alike.holds (h : Alike H H') (hc : client.Holds H impl handle) :
    client.Holds H' impl handle where
  eq := hc.eq
  implAt := h.implAt hc.implAt
  easyAt := by
    obtain ⟨easy, heasy⟩ := hc.easyAt
    rcases h handle with heq | ⟨_, easy', _, heasy'⟩
    · exact ⟨easy, by rw [heq, heasy]⟩
    · exact ⟨easy', heasy'⟩

theorem owned_alike (h : Owned H clients) (ha : Alike H H') : Owned H' clients where
  holds x client impl hx himpl := by
    obtain ⟨handle, hc⟩ := h.holds x client impl hx himpl
    exact ⟨handle, ha.holds hc⟩
  sole := h.sole
  handles i j handle hi hj := h.handles i j handle (ha.symm.implAt hi) (ha.symm.implAt hj)
  covered q cell hq := by
    have hlive : ∃ cell, H.cells q = some cell := by
      rcases ha q with heq | ⟨easy, _, heasy, _⟩
      · exact ⟨cell, by rw [← heq, hq]⟩
      · exact ⟨_, heasy⟩
    obtain ⟨cell', hcell'⟩ := hlive
    obtain ⟨x, client, impl, handle, hx, hc, hor⟩ := h.covered q cell' hcell'
    exact ⟨x, client, impl, handle, hx, ha.holds hc, hor⟩

theorem owned_same (h : Owned H clients) (hcells : ∀ q, H'.cells q = H.cells q) :
    Owned H' clients := owned_alike h (fun q => .inl (hcells q))

theorem holds_withClient (config : CurlConfig) :
    CurlHttpClient.Holds { impl_ := some H.next, config_ := config } (withClient H) H.next
      (H.next + 1) := by
  have hne : H.next + 1 ≠ H.next := by omega
  refine ⟨rfl, ?_, {}, ?_⟩
  · rw [cells_withClient, if_pos rfl]
  · rw [cells_withClient, if_neg hne, if_pos rfl]

theorem impl_withClient {i handle : Ptr}
    (h : (withClient H).cells i = some (.impl (some handle))) :
    i = H.next ∧ handle = H.next + 1 ∨ H.cells i = some (.impl (some handle)) := by
  rw [cells_withClient] at h
  split at h
  · rename_i hnext
    cases h
    exact .inl ⟨hnext, rfl⟩
  · split at h
    · cases h
    · exact .inr h

theorem handle_lt (h : Owned H clients) {i handle : Ptr}
    (hi : H.cells i = some (.impl (some handle))) : handle < H.next := by
  obtain ⟨y, client, impl, handle', _, hc, rfl | rfl⟩ := h.covered i _ hi
  · obtain ⟨easy, heasy⟩ := hc.easyAt
    rw [hc.implAt] at hi
    cases hi
    exact Heap.lt_next heasy
  · obtain ⟨easy, heasy⟩ := hc.easyAt
    rw [heasy] at hi
    cases hi

/-- A variable that gets the client just made. -/
theorem owned_construct (h : Owned H clients) {x : Nat} (hx : clients x = none)
    (config : CurlConfig) :
    Owned (withClient H)
      (Function.update clients x (some { impl_ := some H.next, config_ := config })) := by
  -- what was there before is still there, and apart from what is new
  have hold {q : Ptr} {cell : Cell} (hq : H.cells q = some cell) :
      (withClient H).cells q = some cell := by
    have hlt := Heap.lt_next hq
    rw [cells_withClient, if_neg (Nat.ne_of_lt hlt), if_neg (Nat.ne_of_lt (Nat.lt_succ_of_lt hlt)),
      hq]
  have hholds {client : CurlHttpClient} {impl handle : Ptr} (hc : client.Holds H impl handle) :
      client.Holds (withClient H) impl handle := by
    obtain ⟨easy, heasy⟩ := hc.easyAt
    exact ⟨hc.eq, hold hc.implAt, easy, hold heasy⟩
  have hnew := holds_withClient (H := H) config
  have hbefore {y : Nat} {client : CurlHttpClient} {impl : Ptr} (hy : clients y = some client)
      (himpl : client.impl_ = some impl) : impl < H.next := by
    obtain ⟨handle, hc⟩ := h.holds y client impl hy himpl
    exact Heap.lt_next hc.implAt
  refine ⟨?_, ?_, ?_, ?_⟩
  · intro y client impl hy himpl
    rw [Function.update_apply] at hy
    split at hy
    · obtain rfl := Option.some.inj hy
      obtain rfl := Option.some.inj himpl
      exact ⟨_, hnew⟩
    · obtain ⟨handle, hc⟩ := h.holds y client impl hy himpl
      exact ⟨handle, hholds hc⟩
  · intro y z client other impl hy hz himpl hother
    rw [Function.update_apply] at hy hz
    split at hy <;> split at hz
    · rename_i hyx hzx
      rw [hyx, hzx]
    · obtain rfl := Option.some.inj hy
      obtain rfl := Option.some.inj himpl
      exact absurd (hbefore hz hother) (Nat.lt_irrefl _)
    · obtain rfl := Option.some.inj hz
      obtain rfl := Option.some.inj hother
      exact absurd (hbefore hy himpl) (Nat.lt_irrefl _)
    · exact h.sole y z client other impl hy hz himpl hother
  · intro i j handle hi hj
    rcases impl_withClient hi with ⟨rfl, heq⟩ | hi <;>
      rcases impl_withClient hj with ⟨rfl, heq'⟩ | hj
    · rfl
    · have hlt := handle_lt h hj
      exact absurd heq (Nat.ne_of_lt (Nat.lt_succ_of_lt hlt))
    · have hlt := handle_lt h hi
      exact absurd heq' (Nat.ne_of_lt (Nat.lt_succ_of_lt hlt))
    · exact h.handles i j handle hi hj
  · intro q cell hq
    rw [cells_withClient] at hq
    split at hq
    · rename_i hqnext
      exact ⟨x, _, _, _, Function.update_self .., hnew, .inl hqnext⟩
    · split at hq
      · rename_i hqnext
        exact ⟨x, _, _, _, Function.update_self .., hnew, .inr hqnext⟩
      · obtain ⟨y, client, impl, handle, hy, hc, hor⟩ := h.covered q cell hq
        refine ⟨y, client, impl, handle, ?_, hholds hc, hor⟩
        rw [Function.update_of_ne, hy]
        rintro rfl
        rw [hx] at hy
        cases hy

/-- A variable without its client, whose memory is freed. -/
theorem owned_release (h : Owned H clients) {x : Nat} (hx : clients x = some client)
    (hc : client.Holds H impl handle) :
    Owned ((H.free handle).free impl) (Function.update clients x none) := by
  have hcells (q : Ptr) : ((H.free handle).free impl).cells q =
      if q = impl then none else if q = handle then none else H.cells q := by
    rw [Heap.cells_free, Heap.cells_free]
  have hlive {q : Ptr} {cell : Cell} (hq : ((H.free handle).free impl).cells q = some cell) :
      q ≠ impl ∧ q ≠ handle ∧ H.cells q = some cell := by
    rw [hcells] at hq
    split at hq
    · cases hq
    · split at hq
      · cases hq
      · exact ⟨‹_›, ‹_›, hq⟩
  -- another variable's client shares neither the `Impl` nor the handle
  have hother {y : Nat} {other : CurlHttpClient} {i p : Ptr} (hyx : y ≠ x)
      (hy : clients y = some other) (ho : other.Holds H i p) :
      other.Holds ((H.free handle).free impl) i p := by
    have hi : i ≠ impl := by
      rintro rfl
      exact hyx (h.sole y x other client _ hy hx ho.eq hc.eq)
    have hp : p ≠ handle := by
      rintro rfl
      exact hi (h.handles i impl _ ho.implAt hc.implAt)
    obtain ⟨easy, heasy⟩ := ho.easyAt
    obtain ⟨easy', heasy'⟩ := hc.easyAt
    refine ⟨ho.eq, ?_, easy, ?_⟩
    · rw [hcells, if_neg hi, if_neg (ne_of_cells ho.implAt heasy' nofun), ho.implAt]
    · rw [hcells, if_neg (ne_of_cells heasy hc.implAt nofun), if_neg hp, heasy]
  refine ⟨?_, ?_, ?_, ?_⟩
  · intro y other i hy hi
    rw [Function.update_apply] at hy
    split at hy
    · cases hy
    · obtain ⟨p, ho⟩ := h.holds y other i hy hi
      exact ⟨p, hother ‹_› hy ho⟩
  · intro y z other third i hy hz hi hi'
    rw [Function.update_apply] at hy hz
    split at hy
    · cases hy
    · split at hz
      · cases hz
      · exact h.sole y z other third i hy hz hi hi'
  · intro i j p hi hj
    exact h.handles i j p (hlive hi).2.2 (hlive hj).2.2
  · intro q cell hq
    obtain ⟨hqi, hqh, hq⟩ := hlive hq
    obtain ⟨y, other, i, p, hy, ho, hor⟩ := h.covered q cell hq
    have hyx : y ≠ x := by
      rintro rfl
      rw [hx] at hy
      cases hy
      have himpl : impl = i := Option.some.inj (hc.eq.symm.trans ho.eq)
      subst himpl
      have hhandle := hc.implAt.symm.trans ho.implAt
      cases hhandle
      exact hor.elim hqi hqh
    refine ⟨y, other, i, p, ?_, hother hyx hy ho, hor⟩
    rw [Function.update_of_ne hyx, hy]

/-- Only what a variable holds matters. -/
theorem owned_forget (h : Owned H clients) {x : Nat} (hx : clients x = some client)
    (hc : client.impl_ = none) : Owned H (Function.update clients x none) := by
  refine ⟨?_, ?_, h.handles, ?_⟩
  · intro y other i hy hi
    rw [Function.update_apply] at hy
    split at hy
    · cases hy
    · exact h.holds y other i hy hi
  · intro y z other third i hy hz hi hi'
    rw [Function.update_apply] at hy hz
    split at hy
    · cases hy
    · split at hz
      · cases hz
      · exact h.sole y z other third i hy hz hi hi'
  · intro q cell hq
    obtain ⟨y, other, i, p, hy, ho, hor⟩ := h.covered q cell hq
    refine ⟨y, other, i, p, ?_, ho, hor⟩
    rw [Function.update_of_ne, hy]
    rintro rfl
    rw [hx] at hy
    cases hy
    cases hc.symm.trans ho.eq

/-- A move hands the `Impl` on. -/
theorem owned_moved (h : Owned H clients) {x y : Nat} (hx : clients x = none)
    (hy : clients y = some client) : Owned H (Program.moved clients x y client) := by
  have hxy : x ≠ y := by
    rintro rfl
    rw [hx] at hy
    cases hy
  -- who holds something after the move held it before, but for `x`
  have hfrom {z : Nat} {other : CurlHttpClient} {i : Ptr}
      (hz : Program.moved clients x y client z = some other) (hi : other.impl_ = some i) :
      clients (if z = x then y else z) = some other := by
    rw [Program.moved, Function.update_apply] at hz
    split at hz
    · cases hz
      cases hi
    · rw [Function.update_apply] at hz
      split at hz
      · rw [if_pos ‹_›, hy, hz]
      · rw [if_neg ‹_›, hz]
  refine ⟨?_, ?_, h.handles, ?_⟩
  · intro z other i hz hi
    exact h.holds _ other i (hfrom hz hi) hi
  · intro z z' other third i hz hz' hi hi'
    have hsame := h.sole _ _ other third i (hfrom hz hi) (hfrom hz' hi') hi hi'
    have hne {z : Nat} {other : CurlHttpClient} {i : Ptr}
        (hz : Program.moved clients x y client z = some other) (hi : other.impl_ = some i) :
        z ≠ y := by
      rintro rfl
      rw [Program.moved, Function.update_self] at hz
      cases hz
      cases hi
    split at hsame <;> split at hsame
    · rw [‹z = x›, ‹z' = x›]
    · exact absurd hsame.symm (hne hz' hi')
    · exact absurd hsame (hne hz hi)
    · exact hsame
  · intro q cell hq
    obtain ⟨z, other, i, p, hz, ho, hor⟩ := h.covered q cell hq
    by_cases hzy : z = y
    · rw [hzy, hy] at hz
      cases hz
      refine ⟨x, client, i, p, ?_, ho, hor⟩
      rw [Program.moved, Function.update_of_ne hxy, Function.update_self]
    · refine ⟨z, other, i, p, ?_, ho, hor⟩
      rw [Program.moved, Function.update_of_ne hzy, Function.update_of_ne, hz]
      rintro rfl
      rw [hx] at hz
      cases hz

/-- A new client leaves nothing behind. -/
theorem cells_released (h : Kept (withClient H) (H.next + 1) H') (q : Ptr) :
    ((H'.free (H.next + 1)).free H.next).cells q = H.cells q := by
  rw [Heap.cells_free, Heap.cells_free]
  split
  · rename_i hq
    rw [hq, H.fresh _ (Nat.le_refl _)]
  · split
    · rename_i hq
      rw [hq, H.fresh _ (Nat.le_succ _)]
    · rename_i hq hq'
      rw [h.others q hq', cells_withClient, if_neg hq, if_neg hq']

/-- The thread of an `async_post` has a client of its own, and cleans up after it. -/
theorem run_asyncPost {text : Str} (h : curl.easyInit n = (true, m)) (hsize : text.length < 2 ^ 63)
    (client : CurlHttpClient) (url : Str) (headers : HttpHeaders) :
    ∃ H', (asyncPost curl client url headers text).run ⟨H, n, s⟩ =
      (reply curl none (doneBy curl client.config_ url headers text none s m),
        ⟨H', (doneBy curl client.config_ url headers text none s m).network,
          (doneBy curl client.config_ url headers text none s m).state.2.2⟩) ∧
      ∀ q, H'.cells q = H.cells q := by
  have hnew := holds_withClient (H := H) client.config_
  obtain ⟨H₁, hrun, hkept⟩ := run_request (n := m) (s := s) hnew hsize curl url headers none
  obtain ⟨easy, heasy⟩ := hnew.easyAt
  have hrelease := run_release (n := (doneBy curl client.config_ url headers text none s m).network)
    (s := (doneBy curl client.config_ url headers text none s m).state.2.2)
    ((alike_kept hkept heasy).holds hnew)
  refine ⟨(H₁.free (H.next + 1)).free H.next, ?_, ?_⟩
  · have hpost :
        (post curl { impl_ := some H.next, config_ := client.config_ } url headers text).run
          ⟨withClient H, m, s⟩ = _ := hrun
    rw [asyncPost, Effect.run_bind_ok (run_construct h client.config_)]
    have hdefined := reply_ne_undefined curl none
      (doneBy curl client.config_ url headers text none s m)
    simp only [Effect.closing, hpost]
    generalize reply curl none (doneBy curl client.config_ url headers text none s m) = result at *
    rcases result with fault | response
    · cases fault with
      | undefined => exact absurd rfl hdefined
      | _ => simp only [hrelease]
    · simp only [hrelease]
  · exact cells_released hkept

theorem run_asyncPost_fails (h : curl.easyInit n = (false, m)) (client : CurlHttpClient) (url : Str)
    (headers : HttpHeaders) (text : Str) :
    (asyncPost curl client url headers text).run ⟨H, n, s⟩ =
      (.error (.std (.runtimeError (str "failed to initialize curl handle"))),
        ⟨(H.alloc (.impl none)).free H.next, m, s⟩) := by
  rw [asyncPost, Effect.run_bind_error (run_construct_fails h client.config_)]

section

variable {α : Type} {p : Program ν σ} {x : CurlEffect ν σ α} {w : CurlWorld ν σ}

theorem after_ok {a : α} (h : x.run p.world = (.ok a, w))
    (next : Option α → Nat → Option CurlHttpClient) : p.after x next = some ⟨w, next (some a)⟩ := by
  simp only [Program.after, h]

theorem after_throws {e : StdException} (h : x.run p.world = (.error (.std e), w))
    (next : Option α → Nat → Option CurlHttpClient) : p.after x next = some ⟨w, next none⟩ := by
  simp only [Program.after, h]

theorem after_undefined (h : x.run p.world = (.error .undefined, w))
    (next : Option α → Nat → Option CurlHttpClient) : p.after x next = none := by
  simp only [Program.after, h]

theorem after_defined {result : Except Fault α} (h : x.run p.world = (result, w))
    (hdefined : result ≠ .error .undefined) (clients : Nat → Option CurlHttpClient) :
    p.after x (fun _ => clients) = some ⟨w, clients⟩ := by
  rcases result with fault | a
  · cases fault with
    | undefined => exact absurd rfl hdefined
    | _ => simp only [Program.after, h]
  · exact after_ok h _

/-- A request of a client without an `Impl` follows a null pointer. -/
theorem run_request_movedFrom (h : client.impl_ = none) (curl : Curl ν) (url : Str)
    (headers : HttpHeaders) (text : Str) (onChunk : Option (StreamCallback σ))
    (w : CurlWorld ν σ) :
    ((withLocal (.bytes text) (fun body => do
        let handle ← client.handleOf
        performPost curl client.config_ handle url headers body onChunk)).run w).1 =
      .error .undefined := by
  have hhandle (v : CurlWorld ν σ) :
      (client.handleOf : CurlEffect ν σ Ptr).run v = (.error .undefined, v) := by
    rw [handleOf, h]
    rfl
  show (Effect.run (Effect.closing (client.handleOf >>= _) (free w.heap.next)) _).1 = _
  simp only [Effect.closing, Effect.run_bind_error (hhandle _)]

end

variable {p : Program ν σ}

/-- The release of a variable's client, moved from or not, forgets that client. -/
theorem release_owned {w : CurlWorld ν σ} (h : Owned w.heap clients) {x : Nat}
    (hx : clients x = some client) :
    ∃ v, (client.release : CurlEffect ν σ Unit).run w = (.ok (), v) ∧
      Owned v.heap (Function.update clients x none) := by
  cases himpl : client.impl_ with
  | none => exact ⟨w, run_release_movedFrom himpl w, owned_forget h hx himpl⟩
  | some impl =>
    obtain ⟨handle, hc⟩ := h.holds x client impl hx himpl
    exact ⟨_, run_release hc, owned_release h hx hc⟩

/-- A request of a client with an `Impl` is defined, and leaves every client its
memory. -/
theorem request_owned {w : CurlWorld ν σ} (h : Owned w.heap clients) {x : Nat}
    (hx : clients x = some client) (himpl : client.impl_.isSome) {text : Str}
    (hsize : text.length < 2 ^ 63) (curl : Curl ν) (url : Str) (headers : HttpHeaders)
    (onChunk : Option (StreamCallback σ)) :
    ∃ result v, (withLocal (.bytes text) (fun body => do
        let handle ← client.handleOf
        performPost curl client.config_ handle url headers body onChunk)).run w = (result, v) ∧
      result ≠ .error .undefined ∧ Owned v.heap clients := by
  obtain ⟨impl, himpl⟩ := Option.isSome_iff_exists.mp himpl
  obtain ⟨handle, hc⟩ := h.holds x client impl hx himpl
  obtain ⟨_, heasy⟩ := hc.easyAt
  obtain ⟨H', hrun, hkept⟩ :=
    run_request (n := w.network) (s := w.user) hc hsize curl url headers onChunk
  exact ⟨_, _, hrun, reply_ne_undefined _ _ _, owned_alike h (alike_kept hkept heasy)⟩

/-- What the program may do it can do, and memory stays in order. -/
theorem exec_allowed (h : Owned p.world.heap p.clients) {command : Command σ}
    (ha : command.Allowed p.clients) (curl : Curl ν) :
    ∃ q, p.exec curl command = some q ∧ Owned q.world.heap q.clients := by
  cases command with
  | construct x config =>
    have hx : p.clients x = none := ha
    simp only [Program.exec, hx]
    rcases hinit : curl.easyInit p.world.network with ⟨_ | _, network⟩
    · have hrun := run_construct_fails (H := p.world.heap) (s := p.world.user) hinit config
      exact ⟨_, after_throws hrun _, owned_same h (fun q => cells_construct_fails q)⟩
    · have hrun := run_construct (H := p.world.heap) (s := p.world.user) hinit config
      exact ⟨_, after_ok hrun _, owned_construct h hx config⟩
  | moveConstruct x y =>
    obtain ⟨hx, hy⟩ := ha
    obtain ⟨client, hy⟩ := Option.isSome_iff_exists.mp hy
    simp only [Program.exec, hx, hy]
    exact ⟨_, rfl, owned_moved h hx hy⟩
  | moveAssign x y =>
    obtain ⟨hx, hy⟩ := ha
    obtain ⟨old, hx⟩ := Option.isSome_iff_exists.mp hx
    obtain ⟨client, hy⟩ := Option.isSome_iff_exists.mp hy
    by_cases hxy : x = y
    · refine ⟨p, ?_, h⟩
      simp only [Program.exec, hx, hy, if_pos hxy]
    · -- the old client is released first, as if `x` were empty
      have hy' : Function.update p.clients x none y = some client := by
        rw [Function.update_of_ne (Ne.symm hxy), hy]
      have hmoved : Program.moved (Function.update p.clients x none) x y client =
          Program.moved p.clients x y client := by
        rw [Program.moved, Function.update_idem, Program.moved]
      obtain ⟨w, hrun, howned⟩ := release_owned h hx
      have hassigned := owned_moved howned (Function.update_self ..) hy'
      rw [hmoved] at hassigned
      simp only [Program.exec, hx, hy, if_neg hxy]
      exact ⟨_, after_ok hrun _, hassigned⟩
  | destroy x =>
    obtain ⟨client, hx⟩ := Option.isSome_iff_exists.mp ha
    obtain ⟨w, hrun, howned⟩ := release_owned h hx
    simp only [Program.exec, hx]
    exact ⟨_, after_ok hrun _, howned⟩
  | post x url headers body hsize =>
    obtain ⟨client, hx, himpl⟩ := ha
    obtain ⟨_, _, hrun, hdefined, howned⟩ :=
      request_owned h hx himpl hsize curl url headers none
    simp only [Program.exec, hx]
    exact ⟨_, after_defined hrun hdefined _, howned⟩
  | postStream x url headers body hsize onChunk =>
    obtain ⟨client, hx, himpl⟩ := ha
    obtain ⟨_, _, hrun, hdefined, howned⟩ :=
      request_owned h hx himpl hsize curl url headers (some onChunk)
    simp only [Program.exec, hx]
    exact ⟨_, after_defined hrun hdefined _, howned⟩
  | asyncPost x url headers body hsize =>
    obtain ⟨client, hx⟩ := Option.isSome_iff_exists.mp ha
    simp only [Program.exec, hx]
    rcases hinit : curl.easyInit p.world.network with ⟨_ | _, network⟩
    · have hrun := run_asyncPost_fails (H := p.world.heap) (s := p.world.user) hinit client url
        headers body
      exact ⟨_, after_throws hrun _, owned_same h (fun q => cells_construct_fails q)⟩
    · obtain ⟨H', hrun, hcells⟩ := run_asyncPost (H := p.world.heap) (s := p.world.user) hinit hsize
        client url headers
      exact ⟨_, after_defined hrun (reply_ne_undefined _ _ _) _, owned_same h hcells⟩

/-- What it must not do is undefined. -/
theorem exec_forbidden {command : Command σ} (ha : ¬ command.Allowed p.clients) (curl : Curl ν) :
    p.exec curl command = none := by
  cases command with
  | construct x config =>
    obtain ⟨client, hx⟩ := Option.ne_none_iff_exists'.mp ha
    simp only [Program.exec, hx]
  | moveConstruct x y =>
    cases hx : p.clients x with
    | some client => simp only [Program.exec, hx]
    | none =>
      cases hy : p.clients y with
      | none => simp only [Program.exec, hx, hy]
      | some client => exact absurd ⟨hx, by rw [hy, Option.isSome_some]⟩ ha
  | moveAssign x y =>
    cases hx : p.clients x with
    | none => simp only [Program.exec, hx]
    | some old =>
      cases hy : p.clients y with
      | none => simp only [Program.exec, hx, hy]
      | some client =>
        exact absurd ⟨by rw [hx, Option.isSome_some], by rw [hy, Option.isSome_some]⟩ ha
  | destroy x =>
    cases hx : p.clients x with
    | none => simp only [Program.exec, hx]
    | some client => exact absurd (by rw [Command.Allowed, hx, Option.isSome_some]) ha
  | asyncPost x url headers body hsize =>
    cases hx : p.clients x with
    | none => simp only [Program.exec, hx]
    | some client => exact absurd (by rw [Command.Allowed, hx, Option.isSome_some]) ha
  | post x url headers body hsize =>
    cases hx : p.clients x with
    | none => simp only [Program.exec, hx]
    | some client =>
      have himpl : client.impl_ = none := by
        by_contra hne
        exact ha ⟨client, hx, Option.isSome_iff_ne_none.mpr hne⟩
      simp only [Program.exec, hx]
      exact after_undefined
        (Prod.ext (run_request_movedFrom himpl curl url headers body none _) rfl) _
  | postStream x url headers body hsize onChunk =>
    cases hx : p.clients x with
    | none => simp only [Program.exec, hx]
    | some client =>
      have himpl : client.impl_ = none := by
        by_contra hne
        exact ha ⟨client, hx, Option.isSome_iff_ne_none.mpr hne⟩
      simp only [Program.exec, hx]
      exact after_undefined
        (Prod.ext (run_request_movedFrom himpl curl url headers body (some onChunk) _) rfl) _

theorem owned_start (network : ν) (user : σ) :
    Owned (Program.start network user).world.heap (Program.start network user).clients :=
  ⟨nofun, nofun, nofun, nofun⟩

/-- Memory is in order wherever a run of statements gets to. -/
theorem run_owned {commands : List (Command σ)} {q : Program ν σ}
    (h : Owned p.world.heap p.clients) (hrun : p.run curl commands = some q) :
    Owned q.world.heap q.clients := by
  induction commands generalizing p with
  | nil =>
    cases hrun
    exact h
  | cons command commands ih =>
    by_cases ha : command.Allowed p.clients
    · obtain ⟨p', hexec, howned⟩ := exec_allowed h ha curl
      rw [Program.run, hexec] at hrun
      exact ih howned hrun
    · rw [Program.run, exec_forbidden ha] at hrun
      cases hrun

/-- A run gets stuck just where a statement does what it must not. -/
theorem run_none_iff (h : Owned p.world.heap p.clients) (commands : List (Command σ)) :
    p.run curl commands = none ↔
      ∃ before command rest q, commands = before ++ command :: rest ∧
        p.run curl before = some q ∧ ¬ command.Allowed q.clients := by
  induction commands generalizing p with
  | nil => simp [Program.run]
  | cons command commands ih =>
    by_cases ha : command.Allowed p.clients
    · obtain ⟨p', hexec, howned⟩ := exec_allowed h ha curl
      have hstep (rest : List (Command σ)) :
          p.run curl (command :: rest) = p'.run curl rest := by
        rw [Program.run, hexec, Option.bind_some]
      rw [hstep, ih howned]
      constructor
      · intro ⟨before, stuck, rest, q, hsplit, hq, hstuck⟩
        exact ⟨command :: before, stuck, rest, q, by rw [hsplit, List.cons_append],
          (hstep before).trans hq, hstuck⟩
      · intro ⟨before, stuck, rest, q, hsplit, hq, hstuck⟩
        cases before with
        | nil =>
          cases hsplit
          cases hq
          exact absurd ha hstuck
        | cons first before =>
          cases hsplit
          exact ⟨before, stuck, rest, q, rfl, (hstep before).symm.trans hq, hstuck⟩
    · constructor
      · intro _
        exact ⟨[], command, commands, p, rfl, rfl, ha⟩
      · intro _
        rw [Program.run, exec_forbidden ha, Option.bind_none]

theorem after_clients {α : Type} {x : CurlEffect ν σ α}
    {next : Option α → Nat → Option CurlHttpClient} {q : Program ν σ}
    (h : p.after x next = some q) : ∃ a, q.clients = next a := by
  unfold Program.after at h
  split at h
  · cases h
  · cases h
    exact ⟨_, rfl⟩
  · cases h
    exact ⟨_, rfl⟩

/-- Posts leave every variable as it is. -/
theorem emptied_after {α : Type} {x : CurlEffect ν σ α} {gone : Nat → Bool}
    (h : Emptied p.clients gone) {q : Program ν σ}
    (hexec : p.after x (fun _ => p.clients) = some q) : Emptied q.clients gone := by
  obtain ⟨_, hclients⟩ := after_clients hexec
  rw [hclients]
  exact h

theorem emptied_update {gone : Nat → Bool} (h : Emptied clients gone) {x : Nat} {b : Bool}
    {made : Option CurlHttpClient} (hmade : ∀ client, made = some client →
      (client.impl_ = none ↔ b = true)) :
    Emptied (Function.update clients x made) (Function.update gone x b) := by
  intro z other hz
  by_cases hzx : z = x
  · subst hzx
    rw [Function.update_self] at hz ⊢
    exact hmade other hz
  · rw [Function.update_of_ne hzx] at hz ⊢
    exact h z other hz

theorem emptied_moved {gone : Nat → Bool} (h : Emptied clients gone) {x y : Nat}
    (hy : clients y = some client) :
    Emptied (Program.moved clients x y client)
      (Function.update (Function.update gone x (gone y)) y true) := by
  apply emptied_update
  · apply emptied_update h
    intro other hother
    cases hother
    exact h y client hy
  · intro other hother
    cases hother
    exact ⟨fun _ => rfl, fun _ => rfl⟩

theorem exec_emptied {gone : Nat → Bool} (h : Emptied p.clients gone) {command : Command σ}
    {q : Program ν σ} (hexec : p.exec curl command = some q) :
    Emptied q.clients (command.movedFrom gone) := by
  have ha : command.Allowed p.clients := by
    by_contra hforbidden
    rw [exec_forbidden hforbidden] at hexec
    cases hexec
  cases command with
  | construct x config =>
    have hx : p.clients x = none := ha
    simp only [Program.exec, hx] at hexec
    rcases hinit : curl.easyInit p.world.network with ⟨_ | _, network⟩
    · -- nothing was made, so nothing is there
      rw [after_throws (run_construct_fails (H := p.world.heap) (s := p.world.user) hinit
        config)] at hexec
      cases hexec
      rw [Program.made, ← Function.update_eq_self x p.clients, hx]
      exact emptied_update h nofun
    · rw [after_ok (run_construct (H := p.world.heap) (s := p.world.user) hinit config)] at hexec
      cases hexec
      apply emptied_update h
      intro client hclient
      cases hclient
      simp
  | moveConstruct x y =>
    obtain ⟨hx, hy⟩ := ha
    obtain ⟨client, hy⟩ := Option.isSome_iff_exists.mp hy
    simp only [Program.exec, hx, hy] at hexec
    cases hexec
    exact emptied_moved h hy
  | moveAssign x y =>
    obtain ⟨hx, hy⟩ := ha
    obtain ⟨old, hx⟩ := Option.isSome_iff_exists.mp hx
    obtain ⟨client, hy⟩ := Option.isSome_iff_exists.mp hy
    simp only [Program.exec, hx, hy] at hexec
    by_cases hxy : x = y
    · rw [if_pos hxy] at hexec
      cases hexec
      rw [Command.movedFrom, if_pos hxy]
      exact h
    · rw [if_neg hxy] at hexec
      obtain ⟨_, hclients⟩ := after_clients hexec
      rw [Command.movedFrom, if_neg hxy, hclients]
      exact emptied_moved h hy
  | destroy x =>
    obtain ⟨client, hx⟩ := Option.isSome_iff_exists.mp ha
    simp only [Program.exec, hx] at hexec
    obtain ⟨_, hclients⟩ := after_clients hexec
    change Emptied q.clients gone
    rw [hclients, ← Function.update_eq_self x gone]
    exact emptied_update h nofun
  | post x url headers body hsize =>
    obtain ⟨client, hx, _⟩ := ha
    simp only [Program.exec, hx] at hexec
    exact emptied_after h hexec
  | postStream x url headers body hsize onChunk =>
    obtain ⟨client, hx, _⟩ := ha
    simp only [Program.exec, hx] at hexec
    exact emptied_after h hexec
  | asyncPost x url headers body hsize =>
    obtain ⟨client, hx⟩ := Option.isSome_iff_exists.mp ha
    simp only [Program.exec, hx] at hexec
    exact emptied_after h hexec

theorem run_emptied {gone : Nat → Bool} (h : Emptied p.clients gone) {commands : List (Command σ)}
    {q : Program ν σ} (hrun : p.run curl commands = some q) :
    Emptied q.clients (commands.foldl Command.movedFrom gone) := by
  induction commands generalizing p gone with
  | nil =>
    cases hrun
    exact h
  | cons command commands ih =>
    obtain ⟨p', hexec, hrest⟩ := Option.bind_eq_some_iff.mp hrun
    exact ih (exec_emptied h hexec) hrest

/-- Over any run of statements: the only undefined behaviour is to use an object
that is not there or to post with a client that was moved from; every live
client has a handle of its own; and once all are destroyed nothing is left. -/
theorem run_lifetimes (curl : Curl ν) (network : ν) (user : σ) (commands : List (Command σ)) :
    ((Program.start network user).run curl commands = none ↔
      ∃ before command rest q, commands = before ++ command :: rest ∧
        (Program.start network user).run curl before = some q ∧ ¬ command.Allowed q.clients) ∧
    ∀ q, (Program.start network user).run curl commands = some q →
      Owned q.world.heap q.clients ∧
      Emptied q.clients (commands.foldl Command.movedFrom (fun _ => false)) ∧
      ((∀ x, q.clients x = none) → ∀ address, q.world.heap.cells address = none) := by
  refine ⟨run_none_iff (owned_start network user) commands, ?_⟩
  intro q hq
  have howned := run_owned (owned_start network user) hq
  have hstart : Emptied (Program.start network user).clients (fun _ => false) := by
    intro x client hx
    cases hx
  refine ⟨howned, run_emptied hstart hq, ?_⟩
  intro hgone address
  by_contra hlive
  obtain ⟨cell, hcell⟩ := Option.ne_none_iff_exists'.mp hlive
  obtain ⟨x, client, _, _, hx, _, _⟩ := howned.covered address cell hcell
  rw [hgone x] at hx
  cases hx

end Forgeant.Proofs.Lifetimes
