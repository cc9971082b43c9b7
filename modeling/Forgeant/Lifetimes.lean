import Forgeant.CurlHttpClient

namespace Forgeant

/-- The objects by variable, and the world they are in. -/
structure Program (ν σ : Type) where
  world : CurlWorld ν σ
  clients : Nat → Option CurlHttpClient

/-- A statement of the program. The body of a request is a `std::string`, which
holds fewer than `2 ^ 63` bytes. -/
inductive Command (σ : Type) where
  | construct (x : Nat) (config : CurlConfig)
  | moveConstruct (x y : Nat)
  | moveAssign (x y : Nat)
  | destroy (x : Nat)
  | post (x : Nat) (url : Str) (headers : HttpHeaders) (body : Str)
      (hsize : body.length < 2 ^ 63)
  | postStream (x : Nat) (url : Str) (headers : HttpHeaders) (body : Str)
      (hsize : body.length < 2 ^ 63) (onChunk : StreamCallback σ)
  | asyncPost (x : Nat) (url : Str) (headers : HttpHeaders) (body : Str)
      (hsize : body.length < 2 ^ 63)

namespace Program

variable {ν σ α : Type}

/-- The program goes on after a call that returned or threw. -/
def after (x : CurlEffect ν σ α) (p : Program ν σ)
    (next : Option α → Nat → Option CurlHttpClient) : Option (Program ν σ) :=
  match x.run p.world with
  | (.error .undefined, _) => none
  | (.ok a, w) => some ⟨w, next (some a)⟩
  | (.error _, w) => some ⟨w, next none⟩

/-- `x` after a constructor call: what throws makes no object. -/
def made (clients : Nat → Option CurlHttpClient) (x : Nat) :
    Option CurlHttpClient → Nat → Option CurlHttpClient
  | some client => Function.update clients x (some client)
  | none => clients

/-- `y` moved into `x`. -/
def moved (clients : Nat → Option CurlHttpClient) (x y : Nat) (client : CurlHttpClient) :
    Nat → Option CurlHttpClient :=
  Function.update (Function.update clients x (some client)) y (some client.movedFrom)

/-- One statement; nothing where what it does is undefined. -/
def exec (curl : Curl ν) (p : Program ν σ) : Command σ → Option (Program ν σ)
  | .construct x config =>
    match p.clients x with
    | some _ => none
    | none =>
      after (CurlHttpClient.construct curl config) p (made p.clients x)
  | .moveConstruct x y =>
    match p.clients x, p.clients y with
    | none, some client => some { p with clients := moved p.clients x y client }
    | _, _ => none
  | .moveAssign x y =>
    match p.clients x, p.clients y with
    | some old, some client =>
      if x = y then some p
      else after old.release p (fun _ => moved p.clients x y client)
    | _, _ => none
  | .destroy x =>
    match p.clients x with
    | some client => after client.release p (fun _ => Function.update p.clients x none)
    | none => none
  | .post x url headers body _ =>
    match p.clients x with
    | some client => after (client.post curl url headers body) p (fun _ => p.clients)
    | none => none
  | .postStream x url headers body _ onChunk =>
    match p.clients x with
    | some client => after (client.postStream curl url headers body onChunk) p (fun _ => p.clients)
    | none => none
  | .asyncPost x url headers body _ =>
    match p.clients x with
    | some client => after (client.asyncPost curl url headers body) p (fun _ => p.clients)
    | none => none

def run (curl : Curl ν) : List (Command σ) → Program ν σ → Option (Program ν σ)
  | [], p => some p
  | command :: commands, p => (exec curl p command).bind (run curl commands)

/-- Before the first client. -/
def start (network : ν) (user : σ) : Program ν σ where
  world := ⟨.empty, network, user⟩
  clients _ := none

end Program

/-- Objects are made where there are none and used while they are there, and
only a client that was not moved from posts. -/
def Command.Allowed {σ : Type} (clients : Nat → Option CurlHttpClient) : Command σ → Prop
  | .construct x _ => clients x = none
  | .moveConstruct x y => clients x = none ∧ (clients y).isSome
  | .moveAssign x y => (clients x).isSome ∧ (clients y).isSome
  | .destroy x | .asyncPost x _ _ _ _ => (clients x).isSome
  | .post x _ _ _ _ | .postStream x _ _ _ _ _ =>
    ∃ client, clients x = some client ∧ client.impl_.isSome

/-- The variables whose client is moved from after the statement. -/
def Command.movedFrom {σ : Type} (gone : Nat → Bool) : Command σ → Nat → Bool
  | .construct x _ => Function.update gone x false
  | .moveConstruct x y => Function.update (Function.update gone x (gone y)) y true
  | .moveAssign x y =>
    if x = y then gone else Function.update (Function.update gone x (gone y)) y true
  | _ => gone

/-- Just the clients that are moved from have no `Impl`. -/
def Emptied (clients : Nat → Option CurlHttpClient) (gone : Nat → Bool) : Prop :=
  ∀ x client, clients x = some client → (client.impl_ = none ↔ gone x = true)

/-- Every client that was not moved from has its own `Impl`, this its own
handle, and there is nothing else in memory. -/
structure Owned (H : Heap Cell) (clients : Nat → Option CurlHttpClient) : Prop where
  holds : ∀ x client impl, clients x = some client → client.impl_ = some impl →
    ∃ handle, client.Holds H impl handle
  sole : ∀ x y client other impl, clients x = some client → clients y = some other →
    client.impl_ = some impl → other.impl_ = some impl → x = y
  handles : ∀ i j handle, H.cells i = some (.impl (some handle)) →
    H.cells j = some (.impl (some handle)) → i = j
  covered : ∀ q cell, H.cells q = some cell →
    ∃ x client impl handle, clients x = some client ∧ client.Holds H impl handle ∧
      (q = impl ∨ q = handle)

end Forgeant
