import Forgeant.Curl

namespace Forgeant

/-- `HttpResponse`, its headers included. -/
structure FullResponse extends HttpResponse where
  headers : ResponseHeaders := []

/-- `StreamCallback`; `σ` is the state the callback keeps. -/
abbrev StreamCallback (σ : Type) := StringView → σ → Bool × σ

/-- `CurlHttpClient::Config`, in seconds. -/
structure CurlConfig where
  connectTimeout : Int64 := 30
  transferTimeout : Int64 := 300

structure CurlHttpClient where
  impl_ : Option Ptr
  config_ : CurlConfig

structure CurlWorld (ν σ : Type) where
  heap : Heap Cell
  network : ν
  user : σ

abbrev CurlEffect (ν σ α : Type) := Effect (CurlWorld ν σ) α

namespace Effect

/-- `x`, and then `after` however `x` ended, as a destructor runs. -/
def closing {σ α : Type} (x : Effect σ α) (after : Effect σ Unit) : Effect σ α := ⟨fun w =>
  match x.run w with
  | (.error .undefined, v) => (.error .undefined, v)
  | (result, v) =>
    match after.run v with
    | (.ok _, u) => (result, u)
    | (.error fault, u) => (.error fault, u)⟩

end Effect

namespace Cell

def impl? : Cell → Option (Option Ptr)
  | .impl handle => some handle
  | _ => none

def easy? : Cell → Option Easy
  | .easy e => some e
  | _ => none

def slist? : Cell → Option (List Str)
  | .slist lines => some lines
  | _ => none

def bytes? : Cell → Option Str
  | .bytes s => some s
  | _ => none

def writeContext? : Cell → Option WriteContext
  | .writeContext ctx => some ctx
  | _ => none

def responseHeaders? : Cell → Option ResponseHeaders
  | .responseHeaders headers => some headers
  | _ => none

end Cell

namespace CurlHttpClient

variable {ν σ α : Type}

def alloc (cell : Cell) : CurlEffect ν σ Ptr :=
  ⟨fun w => (.ok w.heap.next, { w with heap := w.heap.alloc cell })⟩

/-- A pointer that is dead, or to another kind of object, must not be followed. -/
def load (kind : Cell → Option α) (p : Ptr) : CurlEffect ν σ α := ⟨fun w =>
  match (w.heap.cells p).bind kind with
  | some a => (.ok a, w)
  | none => (.error .undefined, w)⟩

def loadFrom (kind : Cell → Option α) : Option Ptr → CurlEffect ν σ α
  | some p => load kind p
  | none => .throw .undefined

def store (p : Ptr) (cell : Cell) : CurlEffect ν σ Unit :=
  ⟨fun w => (.ok (), { w with heap := w.heap.put p cell })⟩

def free (p : Ptr) : CurlEffect ν σ Unit := ⟨fun w =>
  match w.heap.cells p with
  | some _ => (.ok (), { w with heap := w.heap.free p })
  | none => (.error .undefined, w)⟩

/-- `if (p != nullptr) { f(p); }`. -/
def ifSet (p : Option Ptr) (f : Ptr → CurlEffect ν σ Unit) : CurlEffect ν σ Unit :=
  match p with
  | some p => f p
  | none => pure ()

/-- An object that lives as long as the scope it is declared in. -/
def withLocal (cell : Cell) (body : Ptr → CurlEffect ν σ α) : CurlEffect ν σ α := do
  let p ← alloc cell
  (body p).closing (free p)

def easyInit (curl : Curl ν) : CurlEffect ν σ (Option Ptr) := ⟨fun w =>
  match curl.easyInit w.network with
  | (true, network) =>
    (.ok (some w.heap.next), { w with heap := w.heap.alloc (.easy {}), network := network })
  | (false, network) => (.ok none, { w with network := network })⟩

def easyCleanup (handle : Ptr) : CurlEffect ν σ Unit := do
  let _ ← load Cell.easy? handle
  free handle

def easySetopt (handle : Ptr) (set : EasyOptions → EasyOptions) : CurlEffect ν σ Unit := do
  let easy ← load Cell.easy? handle
  store handle (.easy { easy with options := set easy.options })

def easyReset (handle : Ptr) : CurlEffect ν σ Unit := easySetopt handle (fun _ => {})

/-- `curl_slist_append`, which makes a list where there is none. -/
def slistAppend (list : Option Ptr) (line : Str) : CurlEffect ν σ (Option Ptr) :=
  match list with
  | none => do return some (← alloc (.slist [line]))
  | some p => do
    let lines ← load Cell.slist? p
    store p (.slist (lines ++ [line]))
    return some p

def slistFreeAll (list : Ptr) : CurlEffect ν σ Unit := do
  let _ ← load Cell.slist? list
  free list

/-- `write_callback`. -/
def writeCallback (onChunk : Option (StreamCallback σ)) (chunk : StringView)
    (state : WriteContext × ResponseHeaders × σ) : UInt64 × WriteContext × ResponseHeaders × σ :=
  let (ctx, headers, user) := state
  let total := chunk.size
  match onChunk with
  | some onChunk =>
    match onChunk chunk user with
    | (false, user) => (0, { ctx with aborted := true }, headers, user)
    | (true, user) => (total, ctx, headers, user)
  | none => (total, { ctx with body := ctx.body ++ chunk.chars }, headers, user)

/-- `header_callback` beside the state it leaves alone. -/
def onHeader (line : StringView) (state : WriteContext × ResponseHeaders × σ) :
    UInt64 × WriteContext × ResponseHeaders × σ :=
  let (ctx, headers, user) := state
  match headerCallback line headers with
  | some (total, headers) => (total, ctx, headers, user)
  | none => (0, ctx, headers, user)

/-- The request that the options of a handle amount to. -/
def easyRequest (options : EasyOptions) : CurlEffect ν σ EasyRequest := do
  let fields ← loadFrom Cell.bytes? options.postFields
  let headers ←
    match options.httpHeader with
    | some list => load Cell.slist? list
    | none => pure []
  return {
    url := options.url.getD []
    post := options.post
    data :=
      if options.postFieldSize = -1 then Str.cstr fields
      else fields.take options.postFieldSize.toInt.toNat
    headers := headers
    connectTimeout := options.connectTimeout
    timeout := options.timeout }

def transfer (curl : Curl ν) (onChunk : Option (StreamCallback σ)) (request : EasyRequest)
    (ctx : WriteContext) (headers : ResponseHeaders) :
    CurlEffect ν σ (Performed (WriteContext × ResponseHeaders × σ) ν) := ⟨fun w =>
  let done := curl.perform request onHeader (writeCallback onChunk) (ctx, headers, w.user) w.network
  (.ok done, { w with network := done.network, user := done.state.2.2 })⟩

/-- `curl_easy_perform`: what the options point to is read and written now. -/
def easyPerform (curl : Curl ν) (onChunk : Option (StreamCallback σ)) (handle : Ptr) :
    CurlEffect ν σ CurlCode := do
  let easy ← load Cell.easy? handle
  let options := easy.options
  if !options.writeFunction || !options.headerFunction then .throw .undefined
  let request ← easyRequest options
  let ctx ← loadFrom Cell.writeContext? options.writeData
  let headers ← loadFrom Cell.responseHeaders? options.headerData
  let done ← transfer curl onChunk request ctx headers
  store (options.writeData.getD 0) (.writeContext done.state.1)
  store (options.headerData.getD 0) (.responseHeaders done.state.2.1)
  store handle (.easy { easy with responseCode := done.responseCode })
  return done.code

/-- One header as a line of the list. -/
def headerLine (header : Str × Str) : Str := Str.cstr (header.1 ++ str ": " ++ header.2)

/-- The header list of a request; there is none for no headers. -/
def headerList (headers : HttpHeaders) : CurlEffect ν σ (Option Ptr) :=
  headers.foldlM (fun list header => slistAppend list (headerLine header)) none

/-- `perform_post` from `curl_easy_perform` on. -/
def performed (curl : Curl ν) (handle : Ptr) (list : Option Ptr)
    (onChunk : Option (StreamCallback σ)) (response writeCtx : Ptr) :
    CurlEffect ν σ FullResponse := do
  let res ← easyPerform curl onChunk handle
  ifSet list slistFreeAll
  let ctx ← load Cell.writeContext? writeCtx
  if res ≠ CURLE_OK ∧ ctx.aborted = false then
    .throw (.std (.runtimeError (str "HTTP request failed: " ++ curl.strerror res)))
  else
    let easy ← load Cell.easy? handle
    let headers ← load Cell.responseHeaders? response
    return {
      statusCode := easy.responseCode.toInt32.toInt
      headers := headers
      body := if onChunk.isNone then ctx.body else [] }

/-- `perform_post` from where its locals are declared. -/
def withCallbacks (curl : Curl ν) (handle : Ptr) (list : Option Ptr)
    (onChunk : Option (StreamCallback σ)) (response writeCtx : Ptr) :
    CurlEffect ν σ FullResponse := do
  easySetopt handle (fun o => { o with writeFunction := true })
  easySetopt handle (fun o => { o with writeData := some writeCtx })
  easySetopt handle (fun o => { o with headerFunction := true })
  easySetopt handle (fun o => { o with headerData := some response })
  performed curl handle list onChunk response writeCtx

/-- `perform_post` up to the header list. -/
def configure (config : CurlConfig) (handle : Ptr) (url : Str) (body : Ptr) :
    CurlEffect ν σ Unit := do
  easyReset handle
  easySetopt handle (fun o => { o with url := some (Str.cstr url) })
  easySetopt handle (fun o => { o with post := true })
  let bodyText ← load Cell.bytes? body
  easySetopt handle (fun o => { o with postFields := some body })
  easySetopt handle (fun o => { o with postFieldSize := Int64.ofNat bodyText.length })
  easySetopt handle (fun o => { o with connectTimeout := config.connectTimeout })
  easySetopt handle (fun o => { o with timeout := config.transferTimeout })

def performPost (curl : Curl ν) (config : CurlConfig) (handle : Ptr) (url : Str)
    (headers : HttpHeaders) (body : Ptr) (onChunk : Option (StreamCallback σ)) :
    CurlEffect ν σ FullResponse := do
  configure config handle url body
  let list ← headerList headers
  ifSet list (fun list => easySetopt handle (fun o => { o with httpHeader := some list }))
  withLocal (.responseHeaders []) (fun response =>
    withLocal (.writeContext {}) (fun writeCtx =>
      withCallbacks curl handle list onChunk response writeCtx))

/-- The easy handle that `impl_->handle` names. -/
def handleOf (client : CurlHttpClient) : CurlEffect ν σ Ptr := do
  let handle ← loadFrom Cell.impl? client.impl_
  match handle with
  | some handle => return handle
  | none => .throw .undefined

/-- `post`. The caller's body lives as long as the call. -/
def post (curl : Curl ν) (client : CurlHttpClient) (url : Str) (headers : HttpHeaders)
    (body : Str) : CurlEffect ν σ FullResponse :=
  withLocal (.bytes body) (fun body => do
    let handle ← client.handleOf
    performPost curl client.config_ handle url headers body none)

def postStream (curl : Curl ν) (client : CurlHttpClient) (url : Str) (headers : HttpHeaders)
    (body : Str) (onChunk : StreamCallback σ) : CurlEffect ν σ FullResponse :=
  withLocal (.bytes body) (fun body => do
    let handle ← client.handleOf
    performPost curl client.config_ handle url headers body (some onChunk))

def construct (curl : Curl ν) (config : CurlConfig) : CurlEffect ν σ CurlHttpClient := do
  let impl ← alloc (.impl none)
  let handle ← easyInit curl
  match handle with
  | some handle =>
    store impl (.impl (some handle))
    return { impl_ := some impl, config_ := config }
  | none =>
    free impl
    .throw (.std (.runtimeError (str "failed to initialize curl handle")))

/-- What the destructor does, and a move assignment with its old members. -/
def release (client : CurlHttpClient) : CurlEffect ν σ Unit :=
  ifSet client.impl_ (fun impl => do
    let handle ← load Cell.impl? impl
    ifSet handle easyCleanup
    free impl)

/-- The moved-from client: only its `impl_` is taken. -/
def movedFrom (client : CurlHttpClient) : CurlHttpClient := { client with impl_ := none }

/-- The call that `async_post` hands to its thread, run to its end. -/
def asyncPost (curl : Curl ν) (client : CurlHttpClient) (url : Str) (headers : HttpHeaders)
    (body : Str) : CurlEffect ν σ FullResponse := do
  let client ← construct curl client.config_
  (post curl client url headers body).closing client.release

/-- The client has an `Impl`, and that a handle. -/
structure Holds (client : CurlHttpClient) (H : Heap Cell) (impl handle : Ptr) : Prop where
  eq : client.impl_ = some impl
  implAt : H.cells impl = some (.impl (some handle))
  easyAt : ∃ easy, H.cells handle = some (.easy easy)

/-- What libcurl is asked to send. -/
def sent (config : CurlConfig) (url : Str) (headers : HttpHeaders) (body : Str) : EasyRequest where
  url := Str.cstr url
  post := true
  data := body
  headers := headers.map headerLine
  connectTimeout := config.connectTimeout
  timeout := config.transferTimeout

/-- What a call returns or throws after a transfer. -/
def reply (curl : Curl ν) (onChunk : Option (StreamCallback σ))
    (done : Performed (WriteContext × ResponseHeaders × σ) ν) : Except Fault FullResponse :=
  if done.code ≠ CURLE_OK ∧ done.state.1.aborted = false then
    .error (.std (.runtimeError (str "HTTP request failed: " ++ curl.strerror done.code)))
  else
    .ok {
      statusCode := done.responseCode.toInt32.toInt
      headers := done.state.2.1
      body := if onChunk.isNone then done.state.1.body else [] }

def headerLines (deliveries : List Delivery) : List StringView :=
  deliveries.filterMap (fun delivery => match delivery with | .header line => some line | _ => none)

def chunks (deliveries : List Delivery) : List StringView :=
  deliveries.filterMap (fun delivery => match delivery with | .data chunk => some chunk | _ => none)

/-- Of each header name the first line that gives it a value. -/
def entries (deliveries : List Delivery) : ResponseHeaders :=
  Assoc.ofList ((headerLines deliveries).filterMap (fun line => headerEntry line.chars))

/-- The response to a transfer that was not cut short. -/
def received {μ : Type} (script : Script μ) : FullResponse where
  statusCode := script.responseCode.toInt32.toInt
  headers := entries script.deliveries
  body := (chunks script.deliveries).flatMap StringView.chars

def failure (curl : Curl ν) (code : CurlCode) : Except Fault FullResponse :=
  .error (.std (.runtimeError (str "HTTP request failed: " ++ curl.strerror code)))

/-- What libcurl sees of the streaming callback: an empty chunk counts as taken
whatever the callback says. The flag remembers a refusal. -/
def takeChunk (onChunk : StreamCallback σ) (chunk : StringView) (t : Bool × σ) :
    Bool × Bool × σ :=
  let (go, user) := onChunk chunk t.2
  (go || chunk.chars.isEmpty, t.1 || !go, user)

/-- The callback took the chunks that were handed over, one by one, and refused
the next one, which is not empty. -/
def StopsAfter (onChunk : StreamCallback σ) (t : Bool × σ) (deliveries handed : List Delivery)
    (user : σ) : Prop :=
  ∃ refused rest u, deliveries = handed ++ .data refused :: rest ∧
    Offer.Taken (takeChunk onChunk) (chunks handed) t u ∧ refused.chars ≠ [] ∧
    onChunk refused u.2 = (false, user)

end CurlHttpClient

end Forgeant
