import Forgeant.CurlClient
import Forgeant.Library.Heap
import Forgeant.Library.Offer
import Forgeant.Throwing

namespace Forgeant

abbrev Ptr := Nat

abbrev CurlCode := Nat

def CURLE_OK : CurlCode := 0

/-- The options of an easy handle that the client sets, as `curl_easy_reset`
leaves them. The strings behind the pointers are not copied. -/
structure EasyOptions where
  url : Option Str := none
  post : Bool := false
  postFields : Option Ptr := none
  postFieldSize : Int64 := -1
  connectTimeout : Int64 := 300
  timeout : Int64 := 0
  httpHeader : Option Ptr := none
  writeFunction : Bool := false
  writeData : Option Ptr := none
  headerFunction : Bool := false
  headerData : Option Ptr := none

structure Easy where
  options : EasyOptions := {}
  responseCode : Int64 := 0

/-- `WriteContext`, with the string its `body` points to. -/
structure WriteContext where
  body : Str := []
  aborted : Bool := false

/-- The objects of the client and of libcurl that pointers point to. -/
inductive Cell where
  | impl (handle : Option Ptr)
  | easy (easy : Easy)
  | slist (lines : List Str)
  | bytes (s : Str)
  | writeContext (ctx : WriteContext)
  | responseHeaders (headers : ResponseHeaders)

/-- What libcurl makes of the options of a handle when a transfer starts. -/
structure EasyRequest where
  url : Str
  post : Bool
  data : Str
  headers : List Str
  connectTimeout : Int64
  timeout : Int64

/-- How a transfer ends: its code, the HTTP status received, the state of the
callbacks and the network after it. -/
structure Performed (τ ν : Type) where
  code : CurlCode
  responseCode : Int64
  state : τ
  network : ν

/-- libcurl. The callbacks work on a state `τ`; `ν` is everything that settles
what a transfer delivers. -/
structure Curl (ν : Type) where
  /-- Whether `curl_easy_init` gives a handle. -/
  easyInit : ν → Bool × ν
  perform : {τ : Type} → EasyRequest → (StringView → τ → UInt64 × τ) →
    (StringView → τ → UInt64 × τ) → τ → ν → Performed τ ν
  strerror : CurlCode → Str

/-- What libcurl hands to the callbacks: header lines and chunks of the body. -/
inductive Delivery where
  | header (line : StringView)
  | data (chunk : StringView)

/-- A callback takes what it is handed by returning its size. -/
def deliver {τ : Type} (onHeader onData : StringView → τ → UInt64 × τ) (delivery : Delivery)
    (t : τ) : Bool × τ :=
  match delivery with
  | .header line => ((onHeader line t).1 == line.size, (onHeader line t).2)
  | .data chunk => ((onData chunk t).1 == chunk.size, (onData chunk t).2)

/-- A transfer that no callback cuts short. -/
structure Script (ν : Type) where
  deliveries : List Delivery
  code : CurlCode
  responseCode : Int64
  network : ν

/-- The contract of `curl_easy_perform`: the callbacks are handed what there is
to deliver, in order; once one does not take it, the transfer ends with an error
and nothing more is handed over. -/
structure Curl.Documented {ν : Type} (curl : Curl ν) (script : EasyRequest → ν → Script ν) :
    Prop where
  completes : ∀ {τ : Type} (request : EasyRequest) (onHeader onData : StringView → τ → UInt64 × τ)
    (t : τ) (network : ν) (u : τ),
    Offer.offer (deliver onHeader onData) (script request network).deliveries t = (true, u) →
    curl.perform request onHeader onData t network =
      ⟨(script request network).code, (script request network).responseCode, u,
        (script request network).network⟩
  refuses : ∀ {τ : Type} (request : EasyRequest) (onHeader onData : StringView → τ → UInt64 × τ)
    (t : τ) (network : ν) (u : τ),
    Offer.offer (deliver onHeader onData) (script request network).deliveries t = (false, u) →
    (curl.perform request onHeader onData t network).code ≠ CURLE_OK ∧
      (curl.perform request onHeader onData t network).state = u

/-- The code of a transfer that a callback cut short. -/
def CURLE_WRITE_ERROR : CurlCode := 23

/-- A libcurl for which the network is the list of the transfers to come. -/
def Curl.scripted : Curl (List (Script Unit)) where
  easyInit network := (true, network)
  perform _ onHeader onData t network :=
    match network with
    | [] => ⟨7, 0, t, []⟩
    | transfer :: network =>
      match Offer.offer (deliver onHeader onData) transfer.deliveries t with
      | (true, u) => ⟨transfer.code, transfer.responseCode, u, network⟩
      | (false, u) => ⟨CURLE_WRITE_ERROR, transfer.responseCode, u, network⟩
  strerror _ := str "transfer failed"

/-- The transfer that `Curl.scripted` does next. -/
def Curl.scripted.next (_ : EasyRequest) (network : List (Script Unit)) :
    Script (List (Script Unit)) :=
  match network with
  | [] => ⟨[], 7, 0, []⟩
  | transfer :: network => ⟨transfer.deliveries, transfer.code, transfer.responseCode, network⟩

theorem Curl.scripted_documented : scripted.Documented scripted.next where
  completes request onHeader onData t network u h := by
    cases network with
    | nil =>
      cases h
      rfl
    | cons transfer network =>
      simp only [scripted.next] at h
      simp only [scripted, scripted.next, h]
  refuses request onHeader onData t network u h := by
    cases network with
    | nil => cases h
    | cons transfer network =>
      simp only [scripted.next] at h
      simp only [scripted, h]
      exact ⟨by decide, trivial⟩

end Forgeant
