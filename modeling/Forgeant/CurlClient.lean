import Forgeant.Library.StringView
import Forgeant.Library.Assoc

namespace Forgeant

/-- `HttpResponse::headers`. -/
abbrev ResponseHeaders := List (Str × Str)

/-- `value_start`, once a colon was found. -/
def valueStart (line : StringView) : UInt64 :=
  line.findFirstNotOf 0x20 (line.find 0x3a + 1)

def valueEnd (line : StringView) : UInt64 := line.findLastNotOf (str "\r\n")

/-- `value_end - value_start + 1` over the integers. -/
def valueLength (line : StringView) : Int :=
  (valueEnd line).toNat - (valueStart line).toNat + 1

/-- What `header_callback` returns and makes of the headers, or nothing where
`substr` throws. -/
def headerCallback (line : StringView) (headers : ResponseHeaders) :
    Option (UInt64 × ResponseHeaders) :=
  let total := line.size
  let colon := line.find 0x3a
  if colon ≠ StringView.npos then do
    let key ← line.substr 0 colon
    if valueStart line ≠ StringView.npos ∧ valueEnd line ≠ StringView.npos then
      let value ← line.substr (valueStart line) (valueEnd line - valueStart line + 1)
      return (total, Assoc.emplace key value headers)
    else return (total, headers)
  else return (total, headers)

/-- The headers of a response, from the lines that curl hands to the callback
one by one. -/
def receiveHeaders (lines : List StringView) : Option ResponseHeaders :=
  lines.foldlM (fun headers line => (headerCallback line headers).map Prod.snd) []

def isCrLf (b : UInt8) : Bool := b == 0x0d || b == 0x0a

/-- The text after the first colon. -/
def afterColon (line : Str) : Str := (line.dropWhile (· != 0x3a)).drop 1

/-- The name and the value of a line, if it has a colon and not only spaces
after it. -/
def headerEntry (line : Str) : Option (Str × Str) :=
  if 0x3a ∈ line then
    match (afterColon line).dropWhile (· == 0x20) with
    | [] => none
    | value => some (line.takeWhile (· != 0x3a), value.rdropWhile isCrLf)
  else none

/-- The headers after an entry: of one name, the first entry stays. -/
def storeEntry (headers : ResponseHeaders) : Option (Str × Str) → ResponseHeaders
  | some (name, value) => Assoc.emplace name value headers
  | none => headers

end Forgeant
