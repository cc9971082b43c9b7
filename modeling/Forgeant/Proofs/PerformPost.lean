import Forgeant.CurlHttpClient

namespace Forgeant.Proofs.PerformPost
open CurlHttpClient

variable {ν σ α : Type} {H : Heap Cell} {n : ν} {s : σ}

theorem run_load (kind : Cell → Option α) {p : Ptr} {cell : Cell} {a : α}
    (h : H.cells p = some cell) (hkind : kind cell = some a) :
    (load kind p : CurlEffect ν σ α).run ⟨H, n, s⟩ = (.ok a, ⟨H, n, s⟩) := by
  simp only [load, h, Option.bind_some, hkind]

theorem run_free {p : Ptr} {cell : Cell} (h : H.cells p = some cell) :
    (free p : CurlEffect ν σ Unit).run ⟨H, n, s⟩ = (.ok (), ⟨H.free p, n, s⟩) := by
  simp only [free, h]

theorem run_slistFreeAll {p : Ptr} {lines : List Str} (h : H.cells p = some (.slist lines)) :
    (slistFreeAll p : CurlEffect ν σ Unit).run ⟨H, n, s⟩ = (.ok (), ⟨H.free p, n, s⟩) := by
  rw [slistFreeAll, Effect.run_bind_ok (run_load Cell.slist? h rfl), run_free h]

theorem run_easyCleanup {p : Ptr} {easy : Easy} (h : H.cells p = some (.easy easy)) :
    (easyCleanup p : CurlEffect ν σ Unit).run ⟨H, n, s⟩ = (.ok (), ⟨H.free p, n, s⟩) := by
  rw [easyCleanup, Effect.run_bind_ok (run_load Cell.easy? h rfl), run_free h]

theorem run_easySetopt {handle : Ptr} {easy : Easy} (h : H.cells handle = some (.easy easy))
    (set : EasyOptions → EasyOptions) :
    (easySetopt handle set : CurlEffect ν σ Unit).run ⟨H, n, s⟩ =
      (.ok (), ⟨H.put handle (.easy { easy with options := set easy.options }), n, s⟩) := by
  rw [easySetopt, Effect.run_bind_ok (run_load Cell.easy? h rfl)]
  rfl

/-- An option set after another. -/
theorem run_easySetopt_put {handle : Ptr} {cell : Cell} (h : H.cells handle = some cell)
    (easy : Easy) (set : EasyOptions → EasyOptions) :
    (easySetopt handle set : CurlEffect ν σ Unit).run ⟨H.put handle (.easy easy), n, s⟩ =
      (.ok (), ⟨H.put handle (.easy { easy with options := set easy.options }), n, s⟩) := by
  rw [run_easySetopt (Heap.cells_put_self h _), Heap.put_put]

/-- What a scope leaves of the heap: its local is gone. -/
theorem run_withLocal {cell : Cell} {body : Ptr → CurlEffect ν σ α} {w : CurlWorld ν σ}
    {result : Except Fault α} {last : Cell}
    (h : (body H.next).run ⟨H.alloc cell, n, s⟩ = (result, w))
    (hdefined : result ≠ .error .undefined) (hlive : w.heap.cells H.next = some last) :
    (withLocal cell body).run ⟨H, n, s⟩ = (result, { w with heap := w.heap.free H.next }) := by
  rw [withLocal]
  show (Effect.closing (body H.next) (free H.next)).run ⟨H.alloc cell, n, s⟩ = _
  simp only [Effect.closing, h]
  rcases result with fault | a
  · cases fault with
    | undefined => exact absurd rfl hdefined
    | _ => simp only [free, hlive]
  · simp only [free, hlive]

theorem run_appendLines (headers : HttpHeaders) (lines : List Str) :
    (headers.foldlM (fun list header => slistAppend list (headerLine header)) (some H.next) :
      CurlEffect ν σ (Option Ptr)).run ⟨H.alloc (.slist lines), n, s⟩ =
      (.ok (some H.next), ⟨H.alloc (.slist (lines ++ headers.map headerLine)), n, s⟩) := by
  induction headers generalizing lines with
  | nil =>
    rw [List.map_nil, List.append_nil]
    rfl
  | cons header headers ih =>
    have hstep : (slistAppend (some H.next) (headerLine header) : CurlEffect ν σ _).run
        ⟨H.alloc (.slist lines), n, s⟩ =
        (.ok (some H.next), ⟨H.alloc (.slist (lines ++ [headerLine header])), n, s⟩) := by
      rw [slistAppend,
        Effect.run_bind_ok (run_load Cell.slist? (Heap.cells_alloc_self H _) rfl)]
      show (Except.ok (some H.next), (⟨(H.alloc _).put H.next _, n, s⟩ : CurlWorld ν σ)) = _
      rw [Heap.alloc_put]
    rw [List.foldlM_cons, Effect.run_bind_ok hstep, ih, List.map_cons, List.append_assoc,
      List.singleton_append]

/-- The heap with the list of the headers. -/
def withList (H : Heap Cell) (headers : HttpHeaders) : Heap Cell :=
  if headers = [] then H else H.alloc (.slist (headers.map headerLine))

def listOf (H : Heap Cell) (headers : HttpHeaders) : Option Ptr :=
  if headers = [] then none else some H.next

theorem run_headerList (headers : HttpHeaders) :
    (headerList headers : CurlEffect ν σ (Option Ptr)).run ⟨H, n, s⟩ =
      (.ok (listOf H headers), ⟨withList H headers, n, s⟩) := by
  cases headers with
  | nil => rfl
  | cons header headers =>
    have hstep : (slistAppend none (headerLine header) : CurlEffect ν σ _).run ⟨H, n, s⟩ =
        (.ok (some H.next), ⟨H.alloc (.slist [headerLine header]), n, s⟩) := rfl
    rw [headerList, List.foldlM_cons, Effect.run_bind_ok hstep, run_appendLines]
    rfl

theorem ne_of_cells {p q : Ptr} {c d : Cell} (hp : H.cells p = some c) (hq : H.cells q = some d)
    (h : c ≠ d) : p ≠ q := by
  rintro rfl
  rw [hp] at hq
  exact h (Option.some.inj hq)

theorem toInt_length {text : Str} (h : text.length < 2 ^ 63) :
    (Int64.ofNat text.length).toInt = text.length := Int64.toInt_ofNat_of_lt h

/-- The size that the client sets is that of the body, not the -1 that stands
for a C string. -/
theorem length_ne_neg_one {text : Str} (h : text.length < 2 ^ 63) :
    Int64.ofNat text.length ≠ -1 := by
  intro heq
  have := congrArg Int64.toInt heq
  rw [toInt_length h] at this
  have hone : (-1 : Int64).toInt = -1 := rfl
  omega

/-- The options of a handle when the transfer starts. -/
def lastOptions (config : CurlConfig) (url : Str) (size : Int64) (body : Ptr) (list : Option Ptr)
    (response writeCtx : Ptr) : EasyOptions where
  url := some (Str.cstr url)
  post := true
  postFields := some body
  postFieldSize := size
  connectTimeout := config.connectTimeout
  timeout := config.transferTimeout
  httpHeader := list
  writeFunction := true
  writeData := some writeCtx
  headerFunction := true
  headerData := some response

/-- What the transfer finds in memory. -/
structure Prepared (H : Heap Cell) (config : CurlConfig) (url : Str) (headers : HttpHeaders)
    (text : Str) (handle body : Ptr) (list : Option Ptr) (response writeCtx : Ptr)
    (easy : Easy) : Prop where
  easyAt : H.cells handle = some (.easy easy)
  options : easy.options =
    lastOptions config url (Int64.ofNat text.length) body list response writeCtx
  bodyAt : H.cells body = some (.bytes text)
  listAt : ∀ l, list = some l → H.cells l = some (.slist (headers.map headerLine))
  noList : list = none → headers = []
  responseAt : H.cells response = some (.responseHeaders [])
  contextAt : H.cells writeCtx = some (.writeContext {})

section Performed

variable {config : CurlConfig} {url text : Str} {headers : HttpHeaders}
  {handle body response writeCtx : Ptr} {list : Option Ptr} {easy : Easy}

theorem Prepared.run_easyRequest
    (h : Prepared H config url headers text handle body list response writeCtx easy)
    (hsize : text.length < 2 ^ 63) :
    (easyRequest easy.options : CurlEffect ν σ EasyRequest).run ⟨H, n, s⟩ =
      (.ok (sent config url headers text), ⟨H, n, s⟩) := by
  have hdata : text.take (Int64.ofNat text.length).toInt.toNat = text := by
    rw [toInt_length hsize, Int.toNat_natCast, List.take_length]
  rw [h.options, easyRequest]
  simp only [lastOptions, loadFrom]
  rw [Effect.run_bind_ok (run_load Cell.bytes? h.bodyAt rfl)]
  cases hl : list with
  | none =>
    simp only [h.noList hl, hdata, if_neg (length_ne_neg_one hsize)]
    rfl
  | some l =>
    simp only []
    rw [Effect.run_bind_ok (run_load Cell.slist? (h.listAt l hl) rfl)]
    simp only [hdata, if_neg (length_ne_neg_one hsize)]
    rfl

/-- The heap after a transfer. -/
def heapAfter (H : Heap Cell) (handle response writeCtx : Ptr) (easy : Easy)
    (done : Performed (WriteContext × ResponseHeaders × σ) ν) : Heap Cell :=
  ((H.put writeCtx (.writeContext done.state.1)).put response
    (.responseHeaders done.state.2.1)).put handle
      (.easy { easy with responseCode := done.responseCode })

/-- The transfer that a prepared handle starts. -/
def doneBy (curl : Curl ν) (config : CurlConfig) (url : Str) (headers : HttpHeaders) (text : Str)
    (onChunk : Option (StreamCallback σ)) (s : σ) (n : ν) :
    Performed (WriteContext × ResponseHeaders × σ) ν :=
  curl.perform (sent config url headers text) onHeader (writeCallback onChunk) ({}, [], s) n

theorem Prepared.run_easyPerform
    (h : Prepared H config url headers text handle body list response writeCtx easy)
    (hsize : text.length < 2 ^ 63) (curl : Curl ν) (onChunk : Option (StreamCallback σ)) :
    (easyPerform curl onChunk handle).run ⟨H, n, s⟩ =
      (.ok (doneBy curl config url headers text onChunk s n).code,
        ⟨heapAfter H handle response writeCtx easy
            (doneBy curl config url headers text onChunk s n),
          (doneBy curl config url headers text onChunk s n).network,
          (doneBy curl config url headers text onChunk s n).state.2.2⟩) := by
  have hset : easy.options.writeFunction = true ∧ easy.options.headerFunction = true ∧
      easy.options.writeData = some writeCtx ∧ easy.options.headerData = some response := by
    rw [h.options]
    exact ⟨rfl, rfl, rfl, rfl⟩
  obtain ⟨hwrite, hheader, hctx, hresponse⟩ := hset
  rw [easyPerform, Effect.run_bind_ok (run_load Cell.easy? h.easyAt rfl)]
  simp only [hwrite, hheader, hctx, hresponse, Bool.not_true, Bool.or_self, Bool.false_eq_true,
    if_false, loadFrom, Option.getD_some]
  rw [Effect.run_bind_ok (h.run_easyRequest hsize),
    Effect.run_bind_ok (run_load Cell.writeContext? h.contextAt rfl),
    Effect.run_bind_ok (run_load Cell.responseHeaders? h.responseAt rfl)]
  rfl

theorem Prepared.cells_heapAfter
    (h : Prepared H config url headers text handle body list response writeCtx easy)
    (done : Performed (WriteContext × ResponseHeaders × σ) ν) (q : Ptr) :
    (heapAfter H handle response writeCtx easy done).cells q =
      if q = handle then some (.easy { easy with responseCode := done.responseCode })
      else if q = response then some (.responseHeaders done.state.2.1)
      else if q = writeCtx then some (.writeContext done.state.1)
      else H.cells q := by
  have hhr := ne_of_cells h.easyAt h.responseAt nofun
  have hhc := ne_of_cells h.easyAt h.contextAt nofun
  have hrc := ne_of_cells h.responseAt h.contextAt nofun
  simp only [heapAfter, Heap.cells_put, if_neg hhr, if_neg hhc, if_neg hrc, h.easyAt,
    h.responseAt, h.contextAt, Option.map_some]

/-- The heap once the header list is freed. -/
def withoutList (H : Heap Cell) : Option Ptr → Heap Cell
  | some list => H.free list
  | none => H

theorem cells_withoutList (list : Option Ptr) (q : Ptr) :
    (withoutList H list).cells q = if list = some q then none else H.cells q := by
  cases list with
  | none => rfl
  | some l =>
    rw [withoutList, Heap.cells_free]
    simp only [Option.some.injEq, eq_comm]

theorem next_withoutList (list : Option Ptr) : (withoutList H list).next = H.next := by
  cases list <;> rfl

/-- After the transfer the list is freed before anything is thrown. -/
theorem Prepared.run_performed
    (h : Prepared H config url headers text handle body list response writeCtx easy)
    (hsize : text.length < 2 ^ 63) (curl : Curl ν) (onChunk : Option (StreamCallback σ)) :
    (performed curl handle list onChunk response writeCtx).run ⟨H, n, s⟩ =
      (reply curl onChunk (doneBy curl config url headers text onChunk s n),
        ⟨withoutList (heapAfter H handle response writeCtx easy
            (doneBy curl config url headers text onChunk s n)) list,
          (doneBy curl config url headers text onChunk s n).network,
          (doneBy curl config url headers text onChunk s n).state.2.2⟩) := by
  rw [performed, Effect.run_bind_ok (h.run_easyPerform hsize curl onChunk)]
  generalize doneBy curl config url headers text onChunk s n = done
  have hcells := h.cells_heapAfter done
  have hne (q : Ptr) (cell : Cell) (hq : H.cells q = some cell)
      (hcell : cell ≠ .slist (headers.map headerLine)) : list ≠ some q := by
    intro hl
    exact ne_of_cells hq (h.listAt q hl) hcell rfl
  have hfree : (ifSet list slistFreeAll : CurlEffect ν σ Unit).run
        ⟨heapAfter H handle response writeCtx easy done, done.network, done.state.2.2⟩ =
      (.ok (), ⟨withoutList (heapAfter H handle response writeCtx easy done) list, done.network,
        done.state.2.2⟩) := by
    cases list with
    | none => rfl
    | some l =>
      have hlist := h.listAt l rfl
      have hlive : (heapAfter H handle response writeCtx easy done).cells l =
          some (.slist (headers.map headerLine)) := by
        rw [hcells, if_neg (ne_of_cells hlist h.easyAt nofun),
          if_neg (ne_of_cells hlist h.responseAt nofun),
          if_neg (ne_of_cells hlist h.contextAt nofun), hlist]
      exact run_slistFreeAll hlive
  have hctx : (withoutList (heapAfter H handle response writeCtx easy done) list).cells writeCtx =
      some (.writeContext done.state.1) := by
    rw [cells_withoutList, if_neg (hne writeCtx _ h.contextAt nofun), hcells,
      if_neg (ne_of_cells h.contextAt h.easyAt nofun),
      if_neg (ne_of_cells h.contextAt h.responseAt nofun), if_pos rfl]
  have heasy : (withoutList (heapAfter H handle response writeCtx easy done) list).cells handle =
      some (.easy { easy with responseCode := done.responseCode }) := by
    rw [cells_withoutList, if_neg (hne handle _ h.easyAt nofun), hcells, if_pos rfl]
  have hresponse : (withoutList (heapAfter H handle response writeCtx easy done) list).cells
      response = some (.responseHeaders done.state.2.1) := by
    rw [cells_withoutList, if_neg (hne response _ h.responseAt nofun), hcells,
      if_neg (ne_of_cells h.responseAt h.easyAt nofun), if_pos rfl]
  rw [Effect.run_bind_ok hfree, Effect.run_bind_ok (run_load Cell.writeContext? hctx rfl)]
  unfold reply
  split
  · rfl
  · rw [Effect.run_bind_ok (run_load Cell.easy? heasy rfl),
      Effect.run_bind_ok (run_load Cell.responseHeaders? hresponse rfl)]
    rfl

theorem reply_ne_undefined (curl : Curl ν) (onChunk : Option (StreamCallback σ))
    (done : Performed (WriteContext × ResponseHeaders × σ) ν) :
    reply curl onChunk done ≠ .error .undefined := by
  unfold reply
  split
  · nofun
  · nofun

/-- The heap in which the two locals live. -/
def withLocals (H : Heap Cell) : Heap Cell :=
  (H.alloc (.responseHeaders [])).alloc (.writeContext {})

theorem cells_withLocals (q : Ptr) : (withLocals H).cells q =
    if q = H.next + 1 then some (.writeContext {})
    else if q = H.next then some (.responseHeaders []) else H.cells q := by
  rw [withLocals, Heap.cells_alloc, Heap.cells_alloc]
  rfl

theorem live_withLocals {q : Ptr} {cell : Cell} (hq : H.cells q = some cell) :
    (withLocals H).cells q = some cell :=
  Heap.cells_alloc_live (Heap.cells_alloc_live hq _) _

theorem prepared_withLocals (heasy : H.cells handle = some (.easy easy))
    (hbody : H.cells body = some (.bytes text))
    (hlist : ∀ l, list = some l → H.cells l = some (.slist (headers.map headerLine)))
    (hnoList : list = none → headers = []) :
    let last := lastOptions config url (Int64.ofNat text.length) body list H.next (H.next + 1)
    Prepared ((withLocals H).put handle (.easy { easy with options := last })) config url headers
      text handle body list H.next (H.next + 1) { easy with options := last } := by
  intro last
  have hother {q : Ptr} {cell : Cell} (hq : (withLocals H).cells q = some cell)
      (hcell : cell ≠ .easy easy) (new : Cell) :
      ((withLocals H).put handle new).cells q = some cell := by
    rw [Heap.cells_put_ne (ne_of_cells hq (live_withLocals heasy) hcell), hq]
  have hresponse : (withLocals H).cells H.next = some (.responseHeaders []) :=
    Heap.cells_alloc_live (Heap.cells_alloc_self H _) _
  have hctx : (withLocals H).cells (H.next + 1) = some (.writeContext {}) :=
    Heap.cells_alloc_self (H.alloc (.responseHeaders [])) _
  exact {
    easyAt := Heap.cells_put_self (live_withLocals heasy) _
    options := rfl
    bodyAt := hother (live_withLocals hbody) nofun _
    listAt := fun l hl => hother (live_withLocals (hlist l hl)) nofun _
    noList := hnoList
    responseAt := hother hresponse nofun _
    contextAt := hother hctx nofun _ }

/-- The cells when the two locals are destroyed, and once they are: of what a
transfer left, only the handle stays. -/
theorem cells_freed_locals (heasy : H.cells handle = some (.easy easy))
    (hlist : ∀ l, list = some l → H.cells l = some (.slist (headers.map headerLine)))
    {after : Heap Cell} {cell : Cell} {final : Easy} {received : ResponseHeaders}
    {ctx : WriteContext}
    (hafter : ∀ q, after.cells q =
      if q = handle then some (.easy final)
      else if q = H.next then some (.responseHeaders received)
      else if q = H.next + 1 then some (.writeContext ctx)
      else ((withLocals H).put handle cell).cells q) :
    (withoutList after list).cells (H.next + 1) = some (.writeContext ctx) ∧
    ((withoutList after list).free (H.next + 1)).cells H.next = some (.responseHeaders received) ∧
    ∀ q, (((withoutList after list).free (H.next + 1)).free H.next).cells q =
      if q = handle then some (.easy final) else if list = some q then none else H.cells q := by
  have hlistLt (q : Ptr) (hq : H.next ≤ q) : list ≠ some q := by
    intro hl
    exact absurd (Heap.lt_next (hlist q hl)) (by omega)
  have hhandle := Heap.lt_next heasy
  have hctxHandle : H.next + 1 ≠ handle := by omega
  have hctxResponse : H.next + 1 ≠ H.next := by omega
  have hresponseHandle : H.next ≠ handle := by omega
  refine ⟨?_, ?_, ?_⟩
  · rw [cells_withoutList, if_neg (hlistLt _ (Nat.le_succ _)), hafter, if_neg hctxHandle,
      if_neg hctxResponse, if_pos rfl]
  · rw [Heap.cells_free, if_neg hctxResponse.symm, cells_withoutList,
      if_neg (hlistLt _ (Nat.le_refl _)), hafter, if_neg hresponseHandle, if_pos rfl]
  · intro q
    rw [Heap.cells_free, Heap.cells_free, cells_withoutList, hafter]
    by_cases hq : q = handle
    · have hlistHandle : list ≠ some handle := fun hl =>
        ne_of_cells heasy (hlist handle hl) nofun rfl
      rw [hq, if_neg hresponseHandle.symm, if_neg hctxHandle.symm, if_neg hlistHandle, if_pos rfl,
        if_pos rfl]
    · simp only [if_neg hq, Heap.cells_put_ne hq, cells_withLocals]
      by_cases hresp : q = H.next
      · rw [if_pos hresp, if_neg (hlistLt q (Nat.le_of_eq hresp.symm)), hresp,
          H.fresh _ (Nat.le_refl _)]
      · rw [if_neg hresp]
        by_cases hc : q = H.next + 1
        · have hle : H.next ≤ q := by omega
          rw [if_pos hc, if_neg (hlistLt q hle), H.fresh _ hle]
        · simp only [if_neg hc, if_neg hresp]

/-- The callbacks are set, each with its own local to work on. -/
theorem run_withCallbacks {writeCtx response : Ptr} (heasy : H.cells handle = some (.easy easy))
    (curl : Curl ν) (list : Option Ptr) (onChunk : Option (StreamCallback σ)) :
    (withCallbacks curl handle list onChunk response writeCtx).run ⟨H, n, s⟩ =
      (performed curl handle list onChunk response writeCtx).run
        ⟨H.put handle (.easy
          { easy with
            options :=
              { easy.options with
                writeFunction := true, writeData := some writeCtx
                headerFunction := true, headerData := some response } }), n, s⟩ := by
  rw [withCallbacks, Effect.run_bind_ok (run_easySetopt heasy _),
    Effect.run_bind_ok (run_easySetopt_put heasy _ _),
    Effect.run_bind_ok (run_easySetopt_put heasy _ _),
    Effect.run_bind_ok (run_easySetopt_put heasy _ _)]

/-- The part of `perform_post` in which its locals live. -/
theorem run_locals (heasy : H.cells handle = some (.easy easy))
    (hoptions : ∀ response writeCtx,
      { easy.options with
        writeFunction := true, writeData := some writeCtx
        headerFunction := true, headerData := some response } =
      lastOptions config url (Int64.ofNat text.length) body list response writeCtx)
    (hbody : H.cells body = some (.bytes text))
    (hlist : ∀ l, list = some l → H.cells l = some (.slist (headers.map headerLine)))
    (hnoList : list = none → headers = []) (hsize : text.length < 2 ^ 63)
    (curl : Curl ν) (onChunk : Option (StreamCallback σ)) :
    ∃ H' easy', (withLocal (.responseHeaders []) (fun response =>
      withLocal (.writeContext {}) (fun writeCtx =>
        withCallbacks curl handle list onChunk response writeCtx))).run ⟨H, n, s⟩ =
      (reply curl onChunk (doneBy curl config url headers text onChunk s n),
        ⟨H', (doneBy curl config url headers text onChunk s n).network,
          (doneBy curl config url headers text onChunk s n).state.2.2⟩) ∧
      H.next ≤ H'.next ∧
      ∀ q, H'.cells q =
        if q = handle then some (.easy easy') else if list = some q then none else H.cells q := by
  obtain ⟨last, hlast⟩ : ∃ last, last =
      lastOptions config url (Int64.ofNat text.length) body list H.next (H.next + 1) := ⟨_, rfl⟩
  have hprepared : Prepared ((withLocals H).put handle (.easy { easy with options := last }))
      config url headers text handle body list H.next (H.next + 1)
      { easy with options := last } := by
    rw [hlast]
    exact prepared_withLocals heasy hbody hlist hnoList
  have hrun := hprepared.run_performed (n := n) (s := s) hsize curl onChunk
  have hafter := hprepared.cells_heapAfter (doneBy curl config url headers text onChunk s n)
  generalize hdone : doneBy curl config url headers text onChunk s n = done at *
  generalize hheap : heapAfter ((withLocals H).put handle (.easy { easy with options := last }))
    handle H.next (H.next + 1) { easy with options := last } done = after at *
  have hafterNext : after.next = H.next + 2 := by
    rw [← hheap]
    rfl
  obtain ⟨hctxLive, hresponseLive, hfreed⟩ := cells_freed_locals heasy hlist hafter
  have hreply := reply_ne_undefined curl onChunk done
  refine ⟨((withoutList after list).free (H.next + 1)).free H.next,
    { easy with options := last, responseCode := done.responseCode }, ?_, ?_, hfreed⟩
  · have hsteps : (withCallbacks curl handle list onChunk H.next (H.next + 1)).run
        ⟨withLocals H, n, s⟩ =
        (reply curl onChunk done, ⟨withoutList after list, done.network, done.state.2.2⟩) := by
      rw [run_withCallbacks (live_withLocals heasy), hoptions, ← hlast]
      exact hrun
    have hscope : (withLocal (.writeContext {}) (fun writeCtx =>
        withCallbacks curl handle list onChunk H.next writeCtx)).run
        ⟨H.alloc (.responseHeaders []), n, s⟩ =
        (reply curl onChunk done,
          ⟨(withoutList after list).free (H.next + 1), done.network, done.state.2.2⟩) :=
      run_withLocal (H := H.alloc _) (w := ⟨withoutList after list, done.network, done.state.2.2⟩)
        hsteps hreply hctxLive
    exact run_withLocal (H := H)
      (w := ⟨(withoutList after list).free (H.next + 1), done.network, done.state.2.2⟩)
      hscope hreply hresponseLive
  · show H.next ≤ (withoutList after list).next
    rw [next_withoutList, hafterNext]
    omega

/-- From `H` to `H'` at most the state of one handle changed: what else was
live still is, and nothing else is. -/
structure Kept (H : Heap Cell) (handle : Ptr) (H' : Heap Cell) : Prop where
  next : H.next ≤ H'.next
  easyAt : ∃ easy, H'.cells handle = some (.easy easy)
  others : ∀ q, q ≠ handle → H'.cells q = H.cells q

/-- The options before there is a header list. -/
def firstOptions (config : CurlConfig) (url : Str) (size : Int64) (body : Ptr) : EasyOptions where
  url := some (Str.cstr url)
  post := true
  postFields := some body
  postFieldSize := size
  connectTimeout := config.connectTimeout
  timeout := config.transferTimeout

/-- Nothing is left of the options that were set before. -/
theorem run_configure (heasy : H.cells handle = some (.easy easy))
    (hbody : H.cells body = some (.bytes text)) (config : CurlConfig) (url : Str) :
    (configure config handle url body : CurlEffect ν σ Unit).run ⟨H, n, s⟩ =
      (.ok (), ⟨H.put handle (.easy
        { easy with options := firstOptions config url (Int64.ofNat text.length) body }), n, s⟩) := by
  have hbodyPut (e : Easy) : (H.put handle (.easy e)).cells body = some (.bytes text) := by
    rw [Heap.cells_put_ne (ne_of_cells hbody heasy nofun), hbody]
  rw [configure, easyReset, Effect.run_bind_ok (run_easySetopt heasy _),
    Effect.run_bind_ok (run_easySetopt_put heasy _ _),
    Effect.run_bind_ok (run_easySetopt_put heasy _ _),
    Effect.run_bind_ok (run_load Cell.bytes? (hbodyPut _) rfl),
    Effect.run_bind_ok (run_easySetopt_put heasy _ _),
    Effect.run_bind_ok (run_easySetopt_put heasy _ _),
    Effect.run_bind_ok (run_easySetopt_put heasy _ _),
    run_easySetopt_put heasy]
  rfl

/-- The heap once the option for the headers is set, if it is. -/
structure HeadersSet (H : Heap Cell) (headers : HttpHeaders) (handle : Ptr) (easy : Easy)
    (list : Option Ptr) (H' : Heap Cell) : Prop where
  next : H.next ≤ H'.next
  easyAt : H'.cells handle =
    some (.easy { easy with options := { easy.options with httpHeader := list } })
  listAt : ∀ l, list = some l → H'.cells l = some (.slist (headers.map headerLine)) ∧ H.next ≤ l
  noList : list = none → headers = []
  others : ∀ q, q ≠ handle → list ≠ some q → H'.cells q = H.cells q

theorem run_setHeaders (heasy : H.cells handle = some (.easy easy))
    (hunset : easy.options.httpHeader = none) (headers : HttpHeaders) :
    ∃ H', (ifSet (listOf H headers)
        (fun list => easySetopt handle (fun o => { o with httpHeader := some list })) :
        CurlEffect ν σ Unit).run ⟨withList H headers, n, s⟩ = (.ok (), ⟨H', n, s⟩) ∧
      HeadersSet H headers handle easy (listOf H headers) H' := by
  by_cases hnil : headers = []
  · -- the option stays as the reset left it
    have hlist : listOf H headers = none := if_pos hnil
    have hwith : withList H headers = H := if_pos hnil
    rw [hlist, hwith]
    refine ⟨H, rfl, Nat.le_refl _, ?_, nofun, fun _ => hnil, fun _ _ _ => rfl⟩
    rw [heasy, ← hunset]
  · have hlist : listOf H headers = some H.next := if_neg hnil
    have hwith : withList H headers = H.alloc (.slist (headers.map headerLine)) := if_neg hnil
    have hlive := Heap.cells_alloc_live heasy (.slist (headers.map headerLine))
    have hhandle := Heap.lt_next heasy
    rw [hlist, hwith, ifSet]
    refine ⟨_, run_easySetopt hlive (fun o => { o with httpHeader := some H.next }),
      Nat.le_succ _, Heap.cells_put_self hlive _, ?_, nofun, ?_⟩
    · intro l hl
      obtain rfl := Option.some.inj hl
      refine ⟨?_, Nat.le_refl _⟩
      rw [Heap.cells_put_ne (Nat.ne_of_gt hhandle), Heap.cells_alloc_self]
    · intro q hq hne
      rw [Heap.cells_put_ne hq, Heap.cells_alloc, if_neg]
      rintro rfl
      exact hne rfl

theorem run_performPost (heasy : H.cells handle = some (.easy easy))
    (hbody : H.cells body = some (.bytes text)) (hsize : text.length < 2 ^ 63) (curl : Curl ν)
    (config : CurlConfig) (url : Str) (headers : HttpHeaders)
    (onChunk : Option (StreamCallback σ)) :
    ∃ H', (performPost curl config handle url headers body onChunk).run ⟨H, n, s⟩ =
      (reply curl onChunk (doneBy curl config url headers text onChunk s n),
        ⟨H', (doneBy curl config url headers text onChunk s n).network,
          (doneBy curl config url headers text onChunk s n).state.2.2⟩) ∧
      Kept H handle H' := by
  obtain ⟨first, hfirst⟩ : ∃ first : Easy, first =
      { easy with options := firstOptions config url (Int64.ofNat text.length) body } := ⟨_, rfl⟩
  have hconfigure := run_configure (n := n) (s := s) heasy hbody config url
  rw [← hfirst] at hconfigure
  have hput : (H.put handle (.easy first)).cells handle = some (.easy first) :=
    Heap.cells_put_self heasy _
  have hothers (q : Ptr) (hq : q ≠ handle) :
      (H.put handle (.easy first)).cells q = H.cells q := Heap.cells_put_ne hq _
  have hunset : first.options.httpHeader = none := by
    rw [hfirst]
    rfl
  obtain ⟨H₂, hset, h₂⟩ := run_setHeaders (n := n) (s := s) hput hunset headers
  have hbody₂ : H₂.cells body = some (.bytes text) := by
    have hne := ne_of_cells hbody heasy nofun
    rw [h₂.others body hne, hothers body hne, hbody]
    intro hlist
    exact absurd (h₂.listAt body hlist).2 (Nat.not_le_of_lt (Heap.lt_next (h := H) hbody))
  rw [performPost, Effect.run_bind_ok hconfigure, Effect.run_bind_ok (run_headerList headers),
    Effect.run_bind_ok hset]
  obtain ⟨H', easy', hrun, hnext, hcells⟩ := run_locals (n := n) (s := s) h₂.easyAt
    (fun _ _ => by rw [hfirst]; rfl) hbody₂ (fun l hl => (h₂.listAt l hl).1) h₂.noList hsize curl
    onChunk
  refine ⟨H', hrun, Nat.le_trans h₂.next hnext, ⟨easy', ?_⟩, ?_⟩
  · rw [hcells, if_pos rfl]
  · intro q hq
    rw [hcells, if_neg hq]
    split
    · rename_i hlist
      exact (H.fresh q (h₂.listAt q hlist).2).symm
    · rename_i hlist
      rw [h₂.others q hq hlist, hothers q hq]

/-- `post` and `post_stream` of a client that holds a handle: the reply to the
transfer, and a heap in which only that handle's state changed. -/
theorem run_request {client : CurlHttpClient} {impl : Ptr} (h : client.Holds H impl handle)
    (hsize : text.length < 2 ^ 63) (curl : Curl ν) (url : Str) (headers : HttpHeaders)
    (onChunk : Option (StreamCallback σ)) :
    ∃ H', (withLocal (.bytes text) (fun body => do
        let handle ← client.handleOf
        performPost curl client.config_ handle url headers body onChunk)).run ⟨H, n, s⟩ =
      (reply curl onChunk (doneBy curl client.config_ url headers text onChunk s n),
        ⟨H', (doneBy curl client.config_ url headers text onChunk s n).network,
          (doneBy curl client.config_ url headers text onChunk s n).state.2.2⟩) ∧
      Kept H handle H' := by
  obtain ⟨easy, heasy⟩ := h.easyAt
  have himpl := Heap.cells_alloc_live h.implAt (.bytes text)
  have hhandle : (client.handleOf : CurlEffect ν σ Ptr).run ⟨H.alloc (.bytes text), n, s⟩ =
      (.ok handle, ⟨H.alloc (.bytes text), n, s⟩) := by
    rw [handleOf, h.eq, loadFrom, Effect.run_bind_ok (run_load Cell.impl? himpl rfl)]
    rfl
  obtain ⟨H₁, hrun, hkept⟩ := run_performPost (n := n) (s := s)
    (Heap.cells_alloc_live heasy (.bytes text)) (Heap.cells_alloc_self H (.bytes text)) hsize curl
    client.config_ url headers onChunk
  have hne : H.next ≠ handle := Nat.ne_of_gt (Heap.lt_next heasy)
  have hbody : H₁.cells H.next = some (.bytes text) := by
    rw [hkept.others _ hne, Heap.cells_alloc_self]
  refine ⟨H₁.free H.next, ?_, ?_, ?_, ?_⟩
  · have hbound := (Effect.run_bind_ok hhandle (fun handle =>
      performPost curl client.config_ handle url headers H.next onChunk)).trans hrun
    exact run_withLocal (H := H)
      (w := ⟨H₁, (doneBy curl client.config_ url headers text onChunk s n).network,
        (doneBy curl client.config_ url headers text onChunk s n).state.2.2⟩)
      hbound (reply_ne_undefined curl onChunk _) hbody
  · exact Nat.le_of_succ_le hkept.next
  · obtain ⟨easy', heasy'⟩ := hkept.easyAt
    refine ⟨easy', ?_⟩
    rw [Heap.cells_free, if_neg hne.symm, heasy']
  · intro q hq
    rw [Heap.cells_free]
    split
    · rename_i hfree
      rw [hfree, H.fresh _ (Nat.le_refl _)]
    · rename_i hfree
      rw [hkept.others q hq, Heap.cells_alloc, if_neg hfree]

end Performed

end Forgeant.Proofs.PerformPost
