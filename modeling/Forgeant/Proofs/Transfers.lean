import Forgeant.Proofs.HeaderLines
import Forgeant.Proofs.Lifetimes

namespace Forgeant.Proofs.Transfers
open CurlHttpClient PerformPost Lifetimes

variable {ν σ : Type} {s : σ} {ctx : WriteContext} {headers : ResponseHeaders}

/-- The state of the callbacks after one more header line. -/
theorem onHeader_eq (line : StringView) :
    onHeader line (ctx, headers, s) =
      (line.size, ctx, storeEntry headers (headerEntry line.chars), s) := by
  simp only [onHeader, HeaderLines.headerCallback_eq]

theorem size_eq_zero (chunk : StringView) : chunk.size = 0 ↔ chunk.chars = [] := by
  rw [← UInt64.toNat_inj, StringView.size, UInt64.toNat_ofNat_of_lt' chunk.size_lt]
  exact List.length_eq_zero_iff

theorem deliver_header (onData : StringView → WriteContext × ResponseHeaders × σ →
    UInt64 × WriteContext × ResponseHeaders × σ) (line : StringView) :
    deliver onHeader onData (.header line) (ctx, headers, s) =
      (true, ctx, storeEntry headers (headerEntry line.chars), s) := by
  rw [deliver, onHeader_eq, beq_self_eq_true]

theorem deliver_body (chunk : StringView) :
    deliver onHeader (writeCallback (none : Option (StreamCallback σ))) (.data chunk)
        (ctx, headers, s) =
      (true, { ctx with body := ctx.body ++ chunk.chars }, headers, s) := by
  simp only [deliver, writeCallback, beq_self_eq_true]

theorem deliver_chunk (onChunk : StreamCallback σ) (chunk : StringView) :
    deliver onHeader (writeCallback (some onChunk)) (.data chunk) (ctx, headers, s) =
      ((takeChunk onChunk chunk (ctx.aborted, s)).1,
        { ctx with aborted := (takeChunk onChunk chunk (ctx.aborted, s)).2.1 }, headers,
        (takeChunk onChunk chunk (ctx.aborted, s)).2.2) := by
  simp only [deliver, writeCallback, takeChunk]
  rcases onChunk chunk s with ⟨_ | _, user⟩
  · have hsize : ((0 : UInt64) == chunk.size) = chunk.chars.isEmpty := by
      rw [Bool.eq_iff_iff, beq_iff_eq, eq_comm, size_eq_zero, List.isEmpty_iff]
    simp [hsize]
  · simp

/-- The headers after the lines among the deliveries. -/
def storeLines (headers : ResponseHeaders) (deliveries : List Delivery) : ResponseHeaders :=
  (headerLines deliveries).foldl (fun headers line => storeEntry headers (headerEntry line.chars))
    headers

theorem storeLines_nil (deliveries : List Delivery) :
    storeLines [] deliveries = entries deliveries := by
  rw [storeLines, entries, ← List.foldl_map, HeaderLines.foldl_storeEntry, List.filterMap_map]
  rfl

theorem taken_body (deliveries : List Delivery) (ctx : WriteContext) (headers : ResponseHeaders) :
    Offer.Taken (deliver onHeader (writeCallback (none : Option (StreamCallback σ)))) deliveries
      (ctx, headers, s)
      ({ ctx with body := ctx.body ++ (chunks deliveries).flatMap StringView.chars },
        storeLines headers deliveries, s) := by
  induction deliveries generalizing ctx headers with
  | nil =>
    rw [Offer.taken_nil]
    simp only [chunks, storeLines, headerLines, List.filterMap_nil, List.flatMap_nil,
      List.append_nil, List.foldl_nil]
  | cons delivery deliveries ih =>
    cases delivery with
    | header line => exact .cons (deliver_header _ line) (ih ctx _)
    | data chunk =>
      apply Offer.Taken.cons (deliver_body chunk)
      have hrest := ih { ctx with body := ctx.body ++ chunk.chars } headers
      rw [List.append_assoc] at hrest
      exact hrest

theorem takeChunk_refused {onChunk : StreamCallback σ} {chunk : StringView} {t u : Bool × σ}
    (h : takeChunk onChunk chunk t = (false, u)) :
    chunk.chars ≠ [] ∧ onChunk chunk t.2 = (false, u.2) := by
  rcases hchunk : onChunk chunk t.2 with ⟨go, user⟩
  simp only [takeChunk, hchunk, Prod.mk.injEq, Bool.or_eq_false_iff, List.isEmpty_eq_false_iff] at h
  obtain ⟨⟨rfl, hne⟩, rfl⟩ := h
  exact ⟨hne, rfl⟩

/-- The callback is offered the chunks until libcurl stops, and the header
lines before that point are stored. -/
theorem offer_stream (onChunk : StreamCallback σ) (deliveries : List Delivery)
    (ctx : WriteContext) (headers : ResponseHeaders) (s : σ) :
    ∃ handed,
      ((Offer.offer (takeChunk onChunk) (chunks deliveries) (ctx.aborted, s)).1 = true →
        handed = deliveries) ∧
      ((Offer.offer (takeChunk onChunk) (chunks deliveries) (ctx.aborted, s)).1 = false →
        StopsAfter onChunk (ctx.aborted, s) deliveries handed
          (Offer.offer (takeChunk onChunk) (chunks deliveries) (ctx.aborted, s)).2.2) ∧
      Offer.offer (deliver onHeader (writeCallback (some onChunk))) deliveries (ctx, headers, s) =
        ((Offer.offer (takeChunk onChunk) (chunks deliveries) (ctx.aborted, s)).1,
          { ctx with
            aborted := (Offer.offer (takeChunk onChunk) (chunks deliveries) (ctx.aborted, s)).2.1 },
          storeLines headers handed,
          (Offer.offer (takeChunk onChunk) (chunks deliveries) (ctx.aborted, s)).2.2) := by
  induction deliveries generalizing ctx headers s with
  | nil => exact ⟨[], fun _ => rfl, nofun, rfl⟩
  | cons delivery deliveries ih =>
    cases delivery with
    | header line =>
      obtain ⟨handed, hall, hstops, hoffer⟩ :=
        ih ctx (storeEntry headers (headerEntry line.chars)) s
      refine ⟨.header line :: handed, ?_, ?_, ?_⟩
      · intro htrue
        rw [hall htrue]
      · intro hfalse
        obtain ⟨refused, rest, u, hplace, htaken, hrefused⟩ := hstops hfalse
        exact ⟨refused, rest, u, by rw [hplace, List.cons_append], htaken, hrefused⟩
      · rw [Offer.offer, deliver_header]
        exact hoffer
    | data chunk =>
      have hchunks : chunks (.data chunk :: deliveries) = chunk :: chunks deliveries := rfl
      rw [hchunks, Offer.offer, Offer.offer, deliver_chunk]
      rcases htake : takeChunk onChunk chunk (ctx.aborted, s) with ⟨_ | _, aborted, user⟩
      · exact ⟨[], fun h => absurd h Bool.false_ne_true,
          fun _ => ⟨chunk, deliveries, _, rfl, .nil _, takeChunk_refused htake⟩, rfl⟩
      · obtain ⟨handed, hall, hstops, hoffer⟩ := ih { ctx with aborted := aborted } headers user
        refine ⟨.data chunk :: handed, ?_, ?_, ?_⟩
        · intro htrue
          rw [hall htrue]
        · intro hfalse
          obtain ⟨refused, rest, u, hplace, htaken, hrefused⟩ := hstops hfalse
          exact ⟨refused, rest, u, by rw [hplace, List.cons_append], .cons htake htaken, hrefused⟩
        · exact hoffer

/-- A chunk that stops the transfer leaves the flag set. -/
theorem offer_stopped {onChunk : StreamCallback σ} {views : List StringView} {t u : Bool × σ}
    (h : Offer.offer (takeChunk onChunk) views t = (false, u)) : u.1 = true := by
  obtain ⟨_, chunk, _, v, _, _, hchunk⟩ := Offer.offer_false.mp h
  have hgo := (takeChunk_refused hchunk).2
  simp only [takeChunk, hgo, Prod.mk.injEq] at hchunk
  rw [← hchunk.2]
  simp

section

variable {H : Heap Cell} {n : ν} {curl : Curl ν} {script : EasyRequest → ν → Script ν}
  {config : CurlConfig} {url body : Str} {requestHeaders : HttpHeaders}

theorem doneBy_body (hcurl : curl.Documented script) :
    doneBy curl config url requestHeaders body (none : Option (StreamCallback σ)) s n =
      { code := (script (sent config url requestHeaders body) n).code
        responseCode := (script (sent config url requestHeaders body) n).responseCode
        state := ({ body := (received (script (sent config url requestHeaders body) n)).body },
          entries (script (sent config url requestHeaders body) n).deliveries, s)
        network := (script (sent config url requestHeaders body) n).network } := by
  rw [doneBy]
  apply hcurl.completes
  rw [Offer.offer_true, ← storeLines_nil]
  exact taken_body _ {} []

/-- The outcome of a `post`. -/
def posted {μ : Type} (curl : Curl ν) (script : Script μ) : Except Fault FullResponse :=
  if script.code = CURLE_OK then .ok (received script) else failure curl script.code

theorem reply_body (hcurl : curl.Documented script) :
    reply curl (none : Option (StreamCallback σ))
        (doneBy curl config url requestHeaders body none s n) =
      posted curl (script (sent config url requestHeaders body) n) := by
  rw [doneBy_body hcurl, reply, posted]
  by_cases hcode : (script (sent config url requestHeaders body) n).code = CURLE_OK
  · rw [if_neg (fun h => h.1 hcode), if_pos hcode]
    rfl
  · rw [if_pos ⟨hcode, rfl⟩, if_neg hcode]
    rfl

/-- Whatever the handle was used for before, `post` has libcurl send exactly its
own arguments and returns the whole answer, in whatever chunks it arrived. -/
theorem post_delivers (hcurl : curl.Documented script) {client : CurlHttpClient}
    {impl handle : Ptr} (h : client.Holds H impl handle) (url : Str)
    (requestHeaders : HttpHeaders) {body : Str} (hsize : body.length < 2 ^ 63) (n : ν) (s : σ) :
    ∃ H', (post curl client url requestHeaders body).run ⟨H, n, s⟩ =
      (posted curl (script (sent client.config_ url requestHeaders body) n),
        ⟨H', (script (sent client.config_ url requestHeaders body) n).network, s⟩) ∧
      Kept H handle H' := by
  obtain ⟨H', hrun, hkept⟩ := run_request (n := n) (s := s) h hsize curl url requestHeaders none
  refine ⟨H', ?_, hkept⟩
  rw [reply_body hcurl, doneBy_body hcurl] at hrun
  exact hrun

/-- The outcome of a `post_stream` whose callback let the transfer finish. -/
def streamed {μ : Type} (curl : Curl ν) (script : Script μ) (aborted : Bool) :
    Except Fault FullResponse :=
  if script.code = CURLE_OK ∨ aborted = true then .ok { received script with body := [] }
  else failure curl script.code

theorem length_nil_lt : ([] : Str).length < 2 ^ 63 := Nat.two_pow_pos 63

/-- An answer in three chunks, one of them empty. -/
def greeting : Script Unit where
  deliveries :=
    [.header ⟨str "Server: x\r\n", by decide⟩, .data ⟨str "he", by decide⟩, .data ⟨[], by decide⟩,
      .data ⟨str "llo", by decide⟩]
  code := CURLE_OK
  responseCode := 200
  network := ()

/-- What the streaming callback of a request is offered. -/
def offered (script : EasyRequest → ν → Script ν) (request : EasyRequest)
    (onChunk : StreamCallback σ) (n : ν) (s : σ) : Bool × Bool × σ :=
  Offer.offer (takeChunk onChunk) (chunks (script request n).deliveries) (false, s)

/-- What the callbacks of a streamed transfer end with, and the whole transfer
where libcurl is not stopped. -/
theorem doneBy_stream (hcurl : curl.Documented script) (onChunk : StreamCallback σ)
    (config : CurlConfig) (url : Str) (requestHeaders : HttpHeaders) (body : Str) (n : ν) (s : σ) :
    ∃ handed,
      (doneBy curl config url requestHeaders body (some onChunk) s n).state =
        ({ aborted := (offered script (sent config url requestHeaders body) onChunk n s).2.1 },
          entries handed, (offered script (sent config url requestHeaders body) onChunk n s).2.2) ∧
      ((offered script (sent config url requestHeaders body) onChunk n s).1 = true →
        handed = (script (sent config url requestHeaders body) n).deliveries ∧
        (doneBy curl config url requestHeaders body (some onChunk) s n).code =
          (script (sent config url requestHeaders body) n).code ∧
        (doneBy curl config url requestHeaders body (some onChunk) s n).responseCode =
          (script (sent config url requestHeaders body) n).responseCode ∧
        (doneBy curl config url requestHeaders body (some onChunk) s n).network =
          (script (sent config url requestHeaders body) n).network) ∧
      ((offered script (sent config url requestHeaders body) onChunk n s).1 = false →
        StopsAfter onChunk (false, s) (script (sent config url requestHeaders body) n).deliveries
          handed (offered script (sent config url requestHeaders body) onChunk n s).2.2) := by
  obtain ⟨handed, hall, hstops, hstream⟩ := offer_stream onChunk
    (script (sent config url requestHeaders body) n).deliveries {} [] s
  rw [storeLines_nil] at hstream
  have hoffer : Offer.offer (deliver onHeader (writeCallback (some onChunk)))
      (script (sent config url requestHeaders body) n).deliveries ({}, [], s) =
      ((offered script (sent config url requestHeaders body) onChunk n s).1,
        { aborted := (offered script (sent config url requestHeaders body) onChunk n s).2.1 },
        entries handed, (offered script (sent config url requestHeaders body) onChunk n s).2.2) :=
    hstream
  refine ⟨handed, ?_⟩
  cases hend : (offered script (sent config url requestHeaders body) onChunk n s).1 with
  | true =>
    rw [hend] at hoffer
    have hdone := hcurl.completes _ _ _ _ _ _ hoffer
    rw [doneBy, hdone]
    exact ⟨rfl, fun _ => ⟨hall hend, rfl, rfl, rfl⟩, nofun⟩
  | false =>
    rw [hend] at hoffer
    exact ⟨(hcurl.refuses _ _ _ _ _ _ hoffer).2, nofun, fun _ => hstops hend⟩

/-- A `post_stream` whose callback lets the transfer finish. -/
theorem postStream_finishes (hcurl : curl.Documented script) {client : CurlHttpClient}
    {impl handle : Ptr} (h : client.Holds H impl handle) (url : Str)
    (requestHeaders : HttpHeaders) {body : Str} (hsize : body.length < 2 ^ 63)
    (onChunk : StreamCallback σ) (n : ν) (s : σ)
    (hend : (offered script (sent client.config_ url requestHeaders body) onChunk n s).1 = true) :
    ∃ H', (postStream curl client url requestHeaders body onChunk).run ⟨H, n, s⟩ =
        (streamed curl (script (sent client.config_ url requestHeaders body) n)
          (offered script (sent client.config_ url requestHeaders body) onChunk n s).2.1,
        ⟨H', (script (sent client.config_ url requestHeaders body) n).network,
          (offered script (sent client.config_ url requestHeaders body) onChunk n s).2.2⟩) ∧
      Kept H handle H' := by
  obtain ⟨H', hrun, hkept⟩ :=
    run_request (n := n) (s := s) h hsize curl url requestHeaders (some onChunk)
  obtain ⟨handed, hstate, hall, _⟩ :=
    doneBy_stream hcurl onChunk client.config_ url requestHeaders body n s
  obtain ⟨rfl, hcode, hresponse, hnetwork⟩ := hall hend
  refine ⟨H', hrun.trans ?_, hkept⟩
  rw [reply, streamed, hstate, hcode, hresponse, hnetwork]
  simp only [Option.isNone_some, Bool.false_eq_true, if_false]
  generalize (offered script _ onChunk n s).2.1 = aborted
  by_cases hok : (script (sent client.config_ url requestHeaders body) n).code = CURLE_OK
  · rw [if_neg (fun h => h.1 hok), if_pos (.inl hok)]
    rfl
  · cases aborted with
    | true =>
      rw [if_neg (fun h => nomatch h.2), if_pos (.inr rfl)]
      rfl
    | false =>
      rw [if_pos ⟨hok, rfl⟩, if_neg (fun h => h.elim hok nofun)]
      rfl

/-- A `post_stream` whose callback stops the transfer returns all the same. -/
theorem postStream_stopped (hcurl : curl.Documented script) {client : CurlHttpClient}
    {impl handle : Ptr} (h : client.Holds H impl handle) (url : Str)
    (requestHeaders : HttpHeaders) {body : Str} (hsize : body.length < 2 ^ 63)
    (onChunk : StreamCallback σ) (n : ν) (s : σ)
    (hend : (offered script (sent client.config_ url requestHeaders body) onChunk n s).1 = false) :
    ∃ response handed H' network,
      (postStream curl client url requestHeaders body onChunk).run ⟨H, n, s⟩ =
        (.ok response, ⟨H', network,
          (offered script (sent client.config_ url requestHeaders body) onChunk n s).2.2⟩) ∧
      response.body = [] ∧ response.headers = entries handed ∧
      StopsAfter onChunk (false, s)
        (script (sent client.config_ url requestHeaders body) n).deliveries handed
        (offered script (sent client.config_ url requestHeaders body) onChunk n s).2.2 ∧
      Kept H handle H' := by
  obtain ⟨H', hrun, hkept⟩ :=
    run_request (n := n) (s := s) h hsize curl url requestHeaders (some onChunk)
  obtain ⟨handed, hstate, _, hstops⟩ :=
    doneBy_stream hcurl onChunk client.config_ url requestHeaders body n s
  have haborted : (offered script (sent client.config_ url requestHeaders body) onChunk n s).2.1 =
      true := offer_stopped (Prod.ext hend rfl)
  rw [reply, hstate, haborted, if_neg (fun h => nomatch h.2)] at hrun
  exact ⟨_, handed, H', _, hrun, rfl, rfl, hstops hend, hkept⟩

/-- `post_stream` offers the chunks in order until one that is not empty is
refused. It throws just when the transfer failed of itself and no chunk, not
even an empty one, was refused; the response never has a body. -/
theorem postStream_delivers (hcurl : curl.Documented script) {client : CurlHttpClient}
    {impl handle : Ptr} (h : client.Holds H impl handle) (url : Str)
    (requestHeaders : HttpHeaders) {body : Str} (hsize : body.length < 2 ^ 63)
    (onChunk : StreamCallback σ) (n : ν) (s : σ) :
    let request : EasyRequest :=
      { url := Str.cstr url, post := true, data := body
        headers := requestHeaders.map (fun header => Str.cstr (header.1 ++ str ": " ++ header.2))
        connectTimeout := client.config_.connectTimeout
        timeout := client.config_.transferTimeout }
    let (finished, aborted, user) := offered script request onChunk n s
    ∃ result H' network,
      (postStream curl client url requestHeaders body onChunk).run ⟨H, n, s⟩ =
        (result, ⟨H', network, user⟩) ∧
      Kept H handle H' ∧
      (finished = true → result = streamed curl (script request n) aborted ∧
        network = (script request n).network) ∧
      (finished = false → ∃ response handed, result = .ok response ∧ response.body = [] ∧
        response.headers = entries handed ∧
        StopsAfter onChunk (false, s) (script request n).deliveries handed user) := by
  intro request
  have hrequest : sent client.config_ url requestHeaders body = request := rfl
  have hfinishes := postStream_finishes hcurl h url requestHeaders hsize onChunk n s
  have hstopped := postStream_stopped hcurl h url requestHeaders hsize onChunk n s
  rw [hrequest] at hfinishes hstopped
  rcases hoffered : offered script request onChunk n s with ⟨finished, aborted, user⟩
  rw [hoffered] at hfinishes hstopped
  cases finished with
  | true =>
    obtain ⟨H', hrun, hkept⟩ := hfinishes rfl
    exact ⟨_, H', _, hrun, hkept, fun _ => ⟨rfl, rfl⟩, nofun⟩
  | false =>
    obtain ⟨response, handed, H', network, hrun, hbody, hheaders, hstops, hkept⟩ := hstopped rfl
    exact ⟨_, H', network, hrun, hkept, nofun,
      fun _ => ⟨response, handed, rfl, hbody, hheaders, hstops⟩⟩

/-- A callback that stops at the first chunk it is offered. -/
def stopAtOnce : StreamCallback Nat := fun _ offers => (false, offers + 1)

/-- A transfer that times out after an empty chunk. -/
def timeout : Script Unit where
  deliveries := [.data ⟨[], by decide⟩]
  code := 28
  responseCode := 0
  network := ()

/-- The empty chunk is refused, so the failure is not thrown. -/
theorem postStream_delivers_timeout :
    ∃ H', (postStream Curl.scripted { impl_ := some 0, config_ := {} } (str "http://x") [] []
        stopAtOnce).run ⟨withClient .empty, [timeout], 0⟩ = (.ok {}, ⟨H', [], 1⟩) := by
  obtain ⟨_, H', _, hrun, _, hend, _⟩ :=
    postStream_delivers Curl.scripted_documented (holds_withClient (H := .empty) {})
      (str "http://x") [] length_nil_lt stopAtOnce [timeout] 0
  obtain ⟨rfl, rfl⟩ := hend rfl
  exact ⟨H', hrun⟩

/-- The callback that keeps what it is handed. -/
def collect : StreamCallback Str := fun chunk text => (true, text ++ chunk.chars)

theorem offered_collect (script : EasyRequest → ν → Script ν) (request : EasyRequest) (n : ν)
    (text : Str) :
    offered script request collect n text =
      (true, false, text ++ (received (script request n)).body) := by
  have hfold (views : List StringView) (text : Str) :
      Offer.Taken (takeChunk collect) views (false, text)
        (false, text ++ views.flatMap StringView.chars) := by
    induction views generalizing text with
    | nil =>
      rw [List.flatMap_nil, List.append_nil]
      exact .nil _
    | cons view views ih =>
      rw [List.flatMap_cons, ← List.append_assoc]
      exact .cons rfl (ih _)
  exact Offer.offer_true.mpr (hfold _ text)

/-- `post`, `post_stream` with a callback that collects the chunks, and
`async_post` end alike on one transfer. -/
theorem posts_agree (hcurl : curl.Documented script) {client : CurlHttpClient}
    {impl handle : Ptr} (h : client.Holds H impl handle) (url : Str)
    (requestHeaders : HttpHeaders) {body : Str} (hsize : body.length < 2 ^ 63) (n : ν)
    (text : Str) :
    (∃ H', (post curl client url requestHeaders body).run ⟨H, n, text⟩ =
      (posted curl (script (sent client.config_ url requestHeaders body) n),
        ⟨H', (script (sent client.config_ url requestHeaders body) n).network, text⟩)) ∧
    (∃ H', (postStream curl client url requestHeaders body collect).run ⟨H, n, text⟩ =
      ((posted curl (script (sent client.config_ url requestHeaders body) n)).map
          (fun response => { response with body := [] }),
        ⟨H', (script (sent client.config_ url requestHeaders body) n).network,
          text ++ (received (script (sent client.config_ url requestHeaders body) n)).body⟩)) ∧
    ∀ m, curl.easyInit n = (true, m) →
      ∃ H', (asyncPost curl client url requestHeaders body).run ⟨H, n, text⟩ =
        (posted curl (script (sent client.config_ url requestHeaders body) m),
          ⟨H', (script (sent client.config_ url requestHeaders body) m).network, text⟩) := by
  refine ⟨?_, ?_, ?_⟩
  · obtain ⟨H', hrun, _⟩ := post_delivers hcurl h url requestHeaders hsize n text
    exact ⟨H', hrun⟩
  · have hend := offered_collect script (sent client.config_ url requestHeaders body) n text
    obtain ⟨H', hrun, _⟩ := postStream_finishes hcurl h url requestHeaders hsize collect n text
      (congrArg Prod.fst hend)
    rw [hend] at hrun
    refine ⟨H', hrun.trans ?_⟩
    rw [streamed, posted]
    by_cases hcode : (script (sent client.config_ url requestHeaders body) n).code = CURLE_OK
    · rw [if_pos (.inl hcode), if_pos hcode]
      rfl
    · rw [if_neg (fun h => h.elim hcode nofun), if_neg hcode]
      rfl
  · intro m hinit
    obtain ⟨H', hrun, _⟩ :=
      run_asyncPost (H := H) (s := text) hinit hsize client url requestHeaders
    rw [reply_body hcurl, doneBy_body hcurl] at hrun
    exact ⟨H', hrun⟩

theorem posts_agree_greeting :
    (∃ H', (post Curl.scripted { impl_ := some 0, config_ := {} } (str "http://x") [] []).run
        ⟨withClient .empty, [greeting], ([] : Str)⟩ =
      (.ok { statusCode := 200, headers := [(str "Server", str "x")], body := str "hello" },
        ⟨H', [], []⟩)) ∧
    (∃ H', (postStream Curl.scripted { impl_ := some 0, config_ := {} } (str "http://x") [] []
        collect).run ⟨withClient .empty, [greeting], ([] : Str)⟩ =
      (.ok { statusCode := 200, headers := [(str "Server", str "x")] },
        ⟨H', [], str "hello"⟩)) ∧
    ∀ m, Curl.scripted.easyInit [greeting] = (true, m) →
      ∃ H', (asyncPost Curl.scripted { impl_ := some 0, config_ := {} } (str "http://x") [] []).run
          ⟨withClient .empty, [greeting], ([] : Str)⟩ =
        (posted Curl.scripted (Curl.scripted.next (sent {} (str "http://x") [] []) m),
          ⟨H', (Curl.scripted.next (sent {} (str "http://x") [] []) m).network, ([] : Str)⟩) :=
  posts_agree Curl.scripted_documented (holds_withClient (H := .empty) {}) (str "http://x") []
    length_nil_lt
    [greeting] []

end

end Forgeant.Proofs.Transfers
